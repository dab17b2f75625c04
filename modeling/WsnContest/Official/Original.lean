import WsnContest.Official.Beacon

/-! The `BeaconC` that the contest gave out, of which the one of `more_official` is a copy
that ends. It goes on for ever, so its numbers repeat. Neither goes on after a send that the
radio has refused. -/
namespace WsnContest.Beacon.Original
open Tinyos Lib

/-- `AMSend.sendDone`; the timer is started whatever the counter says. -/
def sendDone (s : State) : Option State :=
  s.pkt.done.map fun pkt =>
    { s with pkt := pkt, counter := s.counter + 1, busy := false, timer0 := true }

/-- The other handlers are those of the copy. -/
def step (tosNodeId : Word16) (s : State) : Event → Option (State × List Output)
  | .startDone err => some (startDone err s)
  | .timer0Fired sent =>
    if s.timer0 then some (timer0Fired tosNodeId sent { s with timer0 := false }) else none
  | .sendDone _ => (sendDone s).map fun s => (s, [])

def machine (tosNodeId : Word16) : Machine State Event Output where
  init := {}
  step := step tosNodeId

/-- The flag tells whether a frame is in flight. -/
def Matched (s : State) : Prop := s.pkt.outstanding = if s.busy then 1 else 0

/-- What a firing does, in the copy and here. -/
inductive Firing (tosNodeId : Word16) (sent : ErrorT) (s : State) : State × List Output → Prop
  | busy (hbusy : s.busy = true) : Firing tosNodeId sent s (s, [])
  | accepted (hbusy : s.busy = false) (hsent : sent = .success) :
      Firing tosNodeId sent s
        ({ s with
            pkt := ⟨packet tosNodeId s.counter.val, sizeofBeaconMsg, s.pkt.outstanding + 1⟩
            busy := true }, [.accepted (packet tosNodeId s.counter.val)])
  | refused {length : Word8} (hbusy : s.busy = false) (hsent : sent ≠ .success) :
      Firing tosNodeId sent s
        ({ s with pkt := ⟨packet tosNodeId s.counter.val, length, s.pkt.outstanding⟩ }, [])

theorem timer0Fired_firing (tosNodeId : Word16) (sent : ErrorT) (s : State) :
    Firing tosNodeId sent s (timer0Fired tosNodeId sent s) := by
  cases hbusy : s.busy with
  | true =>
    have hsame : timer0Fired tosNodeId sent s = (s, []) := by simp [timer0Fired, hbusy]
    rw [hsame]
    exact .busy hbusy
  | false =>
    rw [timer0Fired_idle sent hbusy]
    split
    · next hsent => exact .accepted hbusy hsent
    · next hsent => exact .refused hbusy hsent

section Matched
variable {tosNodeId : Word16} {s t : State}

theorem Matched.fire (h : Matched s) (sent : ErrorT) :
    Matched (timer0Fired tosNodeId sent s).1 := by
  have hfiring := timer0Fired_firing tosNodeId sent s
  generalize timer0Fired tosNodeId sent s = r at hfiring
  cases hfiring with
  | busy hbusy => exact h
  | accepted hbusy hsent => simpa [Matched, hbusy] using h
  | refused hbusy hsent => exact h

/-- A `sendDone` finds the flag up, and one frame in flight. -/
theorem Matched.done (h : Matched s) {pkt : MessageBuffer BeaconMsg}
    (hpkt : s.pkt.done = some pkt) :
    s.busy = true ∧ pkt = { s.pkt with outstanding := 0 } := by
  obtain ⟨hout, rfl⟩ := MessageBuffer.done_eq hpkt
  have hbusy : s.busy = true := by
    by_contra hbusy
    exact hout (h.trans (if_neg hbusy))
  have hone : s.pkt.outstanding = 1 := h.trans (if_pos hbusy)
  exact ⟨hbusy, by rw [hone]⟩

end Matched

/-! Refinement. -/

/-- The two programs have the same state but for the timer, which runs here whenever it runs
in the copy. -/
structure Copy (s t : State) : Prop where
  same : { t with timer0 := false } = { s with timer0 := false }
  timer : s.timer0 = true → t.timer0 = true

section Copy
variable {tosNodeId : Word16} {s t u : State} {e : Event} {out : List Output}

theorem Copy.eq (h : Copy s t) : t = { s with timer0 := t.timer0 } := by
  have hsame := congrArg (fun u : State => { u with timer0 := t.timer0 }) h.same
  exact hsame

theorem Copy.pkt (h : Copy s t) : t.pkt = s.pkt := by rw [h.eq]

theorem Copy.counter (h : Copy s t) : t.counter = s.counter := by rw [h.eq]

theorem startDone_eq (err : ErrorT) (s : State) :
    Beacon.startDone err s =
      ({ s with timer0 := s.timer0 || err = .success },
        if err = .success then [.started] else []) := by
  unfold Beacon.startDone
  by_cases herr : err = .success
  · simp [herr]
  · simp [herr]

/-- What the copy does can be done here, with the same reports. -/
theorem Copy.step (h : Copy s t) (hstep : Beacon.step tosNodeId s e = some (u, out)) :
    ∃ v, step tosNodeId t e = some (v, out) ∧ Copy u v := by
  cases e with
  | startDone err =>
    rw [Beacon.step, startDone_eq] at hstep
    cases hstep
    refine ⟨_, congrArg some (startDone_eq err t), h.same, fun htimer => ?_⟩
    cases hs : s.timer0 with
    | true => simp [h.timer hs]
    | false =>
      rw [hs] at htimer
      simpa using .inr (by simpa using htimer)
  | timer0Fired sent =>
    obtain ⟨htimer, hpair⟩ := Option.ite_none_right_eq_some.mp hstep
    refine ⟨u, ?_, rfl, id⟩
    rw [Original.step, if_pos (h.timer htimer), h.same]
    exact hpair
  | sendDone err =>
    obtain ⟨v, hdone, hpair⟩ := Option.map_eq_some_iff.mp hstep
    obtain ⟨pkt, hpkt, rfl⟩ := Option.map_eq_some_iff.mp hdone
    cases hpair
    refine ⟨{ t with pkt := pkt, counter := t.counter + 1, busy := false, timer0 := true }, ?_, ?_⟩
    · simp [Original.step, Original.sendDone, h.pkt, hpkt]
    · rw [h.eq]
      dsimp only
      split <;> exact ⟨rfl, fun _ => rfl⟩

/-- The timer fires while packets are to be sent. -/
def Short (s : State × List Output) : Event → Prop
  | .timer0Fired _ => s.1.counter < totalSendCount
  | .startDone _ | .sendDone _ => True

instance (s : State × List Output) : (e : Event) → Decidable (Short s e)
  | .timer0Fired _ => inferInstanceAs (Decidable (s.1.counter < totalSendCount))
  | .startDone _ | .sendDone _ => .isTrue trivial

/-- As long as packets are to be sent the timer runs in both programs or in neither. -/
structure Early (t s : State) : Prop where
  copy : Copy s t
  timer : t.timer0 = true → t.counter < totalSendCount → s.timer0 = true
  matched : Matched t
  limit : t.counter.val + (if t.busy then 1 else 0) ≤ totalSendCount.val

theorem Early.step (h : Early t s) (hshort : Short (t, []) e)
    (hstep : Original.step tosNodeId t e = some (u, out)) :
    ∃ v, Beacon.step tosNodeId s e = some (v, out) ∧ Early u v := by
  obtain ⟨hcopy, htimer, hmatched, hlimit⟩ := h
  cases e with
  | startDone err =>
    rw [Original.step, startDone_eq] at hstep
    cases hstep
    refine ⟨_, congrArg some (startDone_eq err s), ⟨hcopy.same, ?_⟩, ?_, hmatched, hlimit⟩
    · intro hs
      cases hold : s.timer0 with
      | true => simp [hcopy.timer hold]
      | false => simpa [hold] using .inr (by simpa [hold] using hs)
    · intro ht hless
      cases hold : t.timer0 with
      | true => simp [htimer hold hless]
      | false => simpa [hold] using .inr (by simpa [hold] using ht)
  | timer0Fired sent =>
    obtain ⟨hfires, hpair⟩ := Option.ite_none_right_eq_some.mp hstep
    have hless : t.counter < totalSendCount := hshort
    have hrun : timer0Fired tosNodeId sent { t with timer0 := false } = (u, out) :=
      Option.some.inj hpair
    have hfire : Matched (timer0Fired tosNodeId sent { t with timer0 := false }).1 :=
      Matched.fire (s := { t with timer0 := false }) hmatched sent
    have hfiring := timer0Fired_firing tosNodeId sent { t with timer0 := false }
    rw [hrun] at hfire hfiring
    refine ⟨u, ?_, ⟨rfl, id⟩, fun ht _ => ht, hfire, ?_⟩
    · rw [Beacon.step, if_pos (htimer hfires hless), ← hcopy.same]
      exact hpair
    · cases hfiring with
      | busy hbusy => exact hlimit
      | accepted hbusy hsent =>
        rw [if_pos rfl]
        exact hless
      | refused hbusy hsent => exact hlimit
  | sendDone err =>
    obtain ⟨v, hdone, hpair⟩ := Option.map_eq_some_iff.mp hstep
    obtain ⟨pkt, hpkt, rfl⟩ := Option.map_eq_some_iff.mp hdone
    cases hpair
    obtain ⟨hbusy, rfl⟩ := hmatched.done hpkt
    rw [if_pos hbusy] at hlimit
    have hroom : t.counter.val + 1 ≤ 300 := hlimit
    have hnext : (t.counter + 1).val = t.counter.val + 1 := Fin.val_add_one_of_lt' (by omega)
    have hsent : Beacon.step tosNodeId s (.sendDone err) = some
        (if t.counter + 1 < totalSendCount then
          { s with pkt := { t.pkt with outstanding := 0 }, counter := t.counter + 1,
                   busy := false, timer0 := true }
        else { s with pkt := { t.pkt with outstanding := 0 }, counter := t.counter + 1,
                      busy := false }, []) := by
      simp [Beacon.step, Beacon.sendDone, ← hcopy.pkt, hpkt, hcopy.counter]
    refine ⟨_, hsent, ⟨?_, fun _ => rfl⟩, fun _ hless => ?_, rfl, ?_⟩
    · rw [hcopy.eq]
      split <;> rfl
    · rw [if_pos hless]
    · rw [if_neg Bool.false_ne_true, Nat.add_zero, hnext]
      exact hroom

end Copy

/-- The packets so far, one of them perhaps still in flight, are all the packets in their
order; the counter counts those that are done, as far as it can. -/
structure Running (tosNodeId : Word16) (s : State × List Output) (k : ℕ) : Prop where
  counter : s.1.counter = Fin.ofNat _ k
  matched : Matched s.1
  accepted : acceptedMsgs s.2 =
    (List.range (k + if s.1.busy then 1 else 0)).map (packet tosNodeId)
  onAir : s.1.busy = true → s.1.pkt.payload = packet tosNodeId k ∧ s.1.pkt.length = sizeofBeaconMsg

theorem packet_mod (tosNodeId : Word16) (i : ℕ) :
    packet tosNodeId (i % 2 ^ 16) = packet tosNodeId i := by
  have hcounter : Fin.ofNat (2 ^ 16) (i % 2 ^ 16) = Fin.ofNat (2 ^ 16) i :=
    Fin.ext (Nat.mod_mod i _)
  rw [packet, hcounter]
  rfl

theorem packet_val {tosNodeId counter : Word16} {k : ℕ} (h : counter = Fin.ofNat _ k) :
    packet tosNodeId counter.val = packet tosNodeId k := by
  rw [h]
  exact packet_mod tosNodeId k

theorem running_step {tosNodeId : Word16} {s : State × List Output} {k : ℕ} {e : Event}
    {t : State} {out : List Output} (h : Running tosNodeId s k)
    (hstep : step tosNodeId s.1 e = some (t, out)) : ∃ k, Running tosNodeId (t, s.2 ++ out) k := by
  cases e with
  | startDone err =>
    rw [step, startDone_eq] at hstep
    cases hstep
    refine ⟨k, h.counter, h.matched, ?_, h.onAir⟩
    have hnone : acceptedMsgs (if err = .success then [.started] else []) = [] := by
      split <;> rfl
    rw [acceptedMsgs, List.filterMap_append]
    exact (congrArg (acceptedMsgs s.2 ++ ·) hnone).trans ((List.append_nil _).trans h.accepted)
  | timer0Fired sent =>
    obtain ⟨-, hpair⟩ := Option.ite_none_right_eq_some.mp hstep
    have hrun : timer0Fired tosNodeId sent { s.1 with timer0 := false } = (t, out) :=
      Option.some.inj hpair
    have hmatched : Matched (timer0Fired tosNodeId sent { s.1 with timer0 := false }).1 :=
      Matched.fire (s := { s.1 with timer0 := false }) h.matched sent
    have hfiring := timer0Fired_firing tosNodeId sent { s.1 with timer0 := false }
    rw [hrun] at hmatched hfiring
    refine ⟨k, ?_⟩
    cases hfiring with
    | busy hbusy =>
      rw [List.append_nil]
      exact ⟨h.counter, hmatched, h.accepted, h.onAir⟩
    | accepted hbusy hsent =>
      have hold := h.accepted
      have hidle : s.1.busy = false := hbusy
      rw [hidle, if_neg Bool.false_ne_true, Nat.add_zero] at hold
      refine ⟨h.counter, hmatched, ?_, fun _ => ⟨packet_val h.counter, rfl⟩⟩
      have hnew : acceptedMsgs (s.2 ++ [.accepted (packet tosNodeId s.1.counter.val)]) =
          acceptedMsgs s.2 ++ [packet tosNodeId s.1.counter.val] := by simp [acceptedMsgs]
      rw [if_pos rfl, List.range_succ, List.map_append, ← hold, List.map_singleton,
        ← packet_val h.counter]
      exact hnew
    | refused hbusy hsent =>
      rw [List.append_nil]
      exact ⟨h.counter, hmatched, h.accepted, fun hb => absurd (hbusy.symm.trans hb) (by simp)⟩
  | sendDone err =>
    obtain ⟨u, hdone, hpair⟩ := Option.map_eq_some_iff.mp hstep
    obtain ⟨pkt, hpkt, rfl⟩ := Option.map_eq_some_iff.mp hdone
    cases hpair
    obtain ⟨hbusy, rfl⟩ := h.matched.done hpkt
    have hold := h.accepted
    rw [hbusy, if_pos rfl] at hold
    rw [List.append_nil]
    refine ⟨k + 1, ?_, rfl, hold, fun hbusy => absurd hbusy Bool.false_ne_true⟩
    rw [h.counter]
    apply Fin.ext
    simp [Fin.val_add]

theorem running_of_reachable {tosNodeId : Word16} {s : State × List Output}
    (h : (machine tosNodeId).system.Reachable System.anyStep s) :
    ∃ k, Running tosNodeId s k := by
  apply Machine.invariant (P := fun s => ∃ k, Running tosNodeId s k) h
  · exact ⟨0, rfl, rfl, rfl, nofun⟩
  · rintro s e t out ⟨k, hs⟩ - hstep
    exact running_step hs hstep

/-- The copy is the original up to its end: a run of the copy is one of the original with the
same packets, and a run of the original whose timer fires only while packets are to be sent is
one of the copy. The original itself goes on numbering its packets, again from zero after
each `2 ^ 16` of them. -/
theorem copy_refines_original (tosNodeId : Word16) (es : List Event) :
    (∀ s, (Beacon.machine tosNodeId).system.run es = some s →
      ∃ t, (machine tosNodeId).system.run es = some t ∧ t.2 = s.2) ∧
    ∀ t, (machine tosNodeId).system.run es = some t →
      ((machine tosNodeId).system.AllowedFrom Short (machine tosNodeId).system.init es →
        ∃ s, (Beacon.machine tosNodeId).system.run es = some s ∧ s.2 = t.2) ∧
      ∃ n, acceptedMsgs t.2 = (List.range n).map fun i => packet tosNodeId (i % 2 ^ 16) := by
  refine ⟨fun s hs => ?_, fun t ht => ⟨fun hshort => ?_, ?_⟩⟩
  · have hcopy : Copy {} {} := ⟨rfl, id⟩
    obtain ⟨t, ht, -⟩ := Machine.runFrom_simulated (machine tosNodeId)
      (fun _ _ _ _ _ (h : Copy _ _) _ hstep => h.step hstep) es hcopy
      (System.allowedFrom_any _ _ es) hs
    exact ⟨_, ht, rfl⟩
  · have hearly : Early {} {} := ⟨⟨rfl, id⟩, fun h _ => h, rfl, by decide⟩
    obtain ⟨s, hs, -⟩ := Machine.runFrom_simulated (Beacon.machine tosNodeId)
      (fun _ _ _ _ _ (h : Early _ _) hallowed hstep => h.step hallowed hstep) es hearly hshort ht
    exact ⟨_, hs, rfl⟩
  · obtain ⟨k, hrunning⟩ := running_of_reachable
      (System.reachable_of_run es (System.allowedFrom_any _ _ es) ht)
    exact ⟨_, hrunning.accepted.trans (List.map_congr_left fun i _ => (packet_mod _ i).symm)⟩

/-- One packet, and a second that the radio refuses. -/
def refusing : List Event :=
  [.startDone .success, .timer0Fired .success, .sendDone .success, .timer0Fired .ebusy]

theorem copy_refines_original_refusing : ∃ s t, (Beacon.machine 9).system.run refusing = some s ∧
    (machine 9).system.run refusing = some t ∧ t.2 = s.2 ∧ acceptedMsgs t.2 = [packet 9 0] := by
  have hrun : (Beacon.machine 9).system.run refusing = some _ := rfl
  obtain ⟨t, ht, hsame⟩ := (copy_refines_original 9 refusing).1 _ hrun
  exact ⟨_, t, hrun, ht, hsame, by rw [hsame]; decide⟩

end WsnContest.Beacon.Original

namespace WsnContest.Beacon
open Tinyos Lib
open Original (Matched startDone_eq timer0Fired_firing)

/-- Something will still happen at a source that was started and has packets to send. -/
def Alive (s : State × List Output) : Prop :=
  .started ∈ s.2 →
    s.1.timer0 = true ∨ s.1.pkt.outstanding ≠ 0 ∨ totalSendCount ≤ s.1.counter

instance (s : State × List Output) : Decidable (Alive s) :=
  inferInstanceAs (Decidable (_ → _ ∨ _ ∨ _))

/-- The radio accepts what an idle source with packets to send gives it. -/
def Granted (s : State × List Output) : Event → Prop
  | .timer0Fired sent => s.1.busy = false → s.1.counter < totalSendCount → sent = .success
  | .startDone _ | .sendDone _ => True

instance (s : State × List Output) : (e : Event) → Decidable (Granted s e)
  | .timer0Fired sent => inferInstanceAs
      (Decidable (s.1.busy = false → s.1.counter < totalSendCount → sent = .success))
  | .startDone _ | .sendDone _ => .isTrue trivial

/-- Nothing happens before the start. -/
structure Begun (s : State × List Output) : Prop where
  matched : Matched s.1
  timer : s.1.timer0 = true → .started ∈ s.2
  flight : s.1.busy = true → .started ∈ s.2

section Silence
variable {tosNodeId : Word16} {s : State × List Output} {t : State} {e : Event}
  {out : List Output}

theorem begun_step (h : Begun s) (hstep : step tosNodeId s.1 e = some (t, out)) :
    Begun (t, s.2 ++ out) := by
  cases e with
  | startDone err =>
    rw [step, startDone_eq] at hstep
    cases hstep
    refine ⟨h.matched, fun htimer => ?_, fun hbusy => List.mem_append_left _ (h.flight hbusy)⟩
    by_cases herr : err = .success
    · simp [herr]
    · exact List.mem_append_left _ (h.timer (by simpa [herr] using htimer))
  | timer0Fired sent =>
    obtain ⟨htimer, hpair⟩ := Option.ite_none_right_eq_some.mp hstep
    have hrun : timer0Fired tosNodeId sent { s.1 with timer0 := false } = (t, out) :=
      Option.some.inj hpair
    have hmatched : Matched (timer0Fired tosNodeId sent { s.1 with timer0 := false }).1 :=
      Matched.fire (s := { s.1 with timer0 := false }) h.matched sent
    have hstarted := List.mem_append_left out (h.timer htimer)
    rw [hrun] at hmatched
    exact ⟨hmatched, fun _ => hstarted, fun _ => hstarted⟩
  | sendDone err =>
    obtain ⟨u, hdone, hpair⟩ := Option.map_eq_some_iff.mp hstep
    obtain ⟨pkt, hpkt, rfl⟩ := Option.map_eq_some_iff.mp hdone
    cases hpair
    obtain ⟨hbusy, rfl⟩ := h.matched.done hpkt
    have hstarted := List.mem_append_left [] (h.flight hbusy)
    refine ⟨?_, fun _ => hstarted, fun _ => hstarted⟩
    dsimp only
    split <;> rfl

/-- A living source dies exactly by a send that is refused. -/
theorem alive_step (h : Begun s) (halive : Alive s)
    (hstep : step tosNodeId s.1 e = some (t, out)) : Alive (t, s.2 ++ out) ↔ Granted s e := by
  cases e with
  | startDone err =>
    rw [step, startDone_eq] at hstep
    cases hstep
    refine iff_of_true (fun hstarted => ?_) trivial
    by_cases herr : err = .success
    · exact .inl (by simp [herr])
    · simp only [herr, decide_false, Bool.or_false, if_false, List.append_nil] at hstarted ⊢
      exact halive hstarted
  | timer0Fired sent =>
    obtain ⟨htimer, hpair⟩ := Option.ite_none_right_eq_some.mp hstep
    have hrun : timer0Fired tosNodeId sent { s.1 with timer0 := false } = (t, out) :=
      Option.some.inj hpair
    have hfiring := timer0Fired_firing tosNodeId sent { s.1 with timer0 := false }
    have hstarted := List.mem_append_left out (h.timer htimer)
    rw [hrun] at hfiring
    cases hfiring with
    | busy hbusy =>
      refine iff_of_true (fun _ => .inr (.inl ?_)) fun hidle => ?_
      · rw [h.matched, if_pos hbusy]
        exact Nat.one_ne_zero
      · exact absurd (hidle.symm.trans hbusy) Bool.false_ne_true
    | accepted hbusy hsent =>
      exact iff_of_true (fun _ => .inr (.inl (Nat.succ_ne_zero _))) fun _ _ => hsent
    | refused hbusy hsent =>
      have hidle : s.1.pkt.outstanding = 0 := by
        rw [h.matched, show s.1.busy = false from hbusy]
        rfl
      constructor
      · intro hall _ hless
        rcases hall hstarted with hfires | hflight | hdone
        · cases hfires
        · exact absurd hidle hflight
        · exact absurd hless (not_lt.mpr hdone)
      · intro hgranted _
        refine .inr (.inr (not_lt.mp fun hless => hsent (hgranted hbusy hless)))
  | sendDone err =>
    obtain ⟨u, hdone, hpair⟩ := Option.map_eq_some_iff.mp hstep
    obtain ⟨pkt, hpkt, rfl⟩ := Option.map_eq_some_iff.mp hdone
    cases hpair
    refine iff_of_true (fun _ => ?_) trivial
    dsimp only
    split
    · exact .inl rfl
    · next hover => exact .inr (.inr (not_lt.mp hover))

/-- Nothing but another start of the radio wakes a dead source. -/
theorem dead_step (hdead : ¬ Alive s) (he : e ≠ .startDone .success)
    (hstep : step tosNodeId s.1 e = some (t, out)) : t = s.1 ∧ out = [] := by
  simp only [Alive, not_forall, not_or, not_not] at hdead
  obtain ⟨-, htimer, hidle, -⟩ := hdead
  cases e with
  | startDone err =>
    have herr : err ≠ .success := fun h => he (h ▸ rfl)
    rw [step, startDone_eq] at hstep
    simp only [herr, decide_false, Bool.or_false, if_false] at hstep
    cases hstep
    exact ⟨rfl, rfl⟩
  | timer0Fired sent => exact absurd (Option.ite_none_right_eq_some.mp hstep).1 htimer
  | sendDone err =>
    obtain ⟨u, hdone, -⟩ := Option.map_eq_some_iff.mp hstep
    obtain ⟨pkt, hpkt, -⟩ := Option.map_eq_some_iff.mp hdone
    exact absurd hidle (MessageBuffer.done_eq hpkt).1

end Silence

/-- Along every run a source that was started and has packets to send stays alive exactly if
the radio refuses none that it is given; after a refusal nothing is sent any more, whatever
happens, unless the radio is started again. -/
theorem source_alive_iff (tosNodeId : Word16) (es : List Event) {t : State × List Output}
    (hrun : (machine tosNodeId).system.run es = some t) :
    ((machine tosNodeId).system.Always Alive (machine tosNodeId).system.init es ↔
      (machine tosNodeId).system.AllowedFrom Granted (machine tosNodeId).system.init es) ∧
    (¬ Alive t → ∀ fs u, .startDone .success ∉ fs →
      (machine tosNodeId).system.runFrom t fs = some u → u.2 = t.2) := by
  constructor
  · have hinit : Begun (machine tosNodeId).system.init ∧ Alive (machine tosNodeId).system.init :=
      ⟨⟨rfl, nofun, nofun⟩, nofun⟩
    apply Machine.always_iff_allowedFrom (fun s => Begun s ∧ Alive s) (fun _ h => h.2) ?_ es hinit
      hrun
    rintro s e t out ⟨hbegun, halive⟩ hstep
    have hiff := alive_step hbegun halive hstep
    exact ⟨fun hgranted => ⟨begun_step hbegun hstep, hiff.mpr hgranted⟩, hiff.mp⟩
  · intro hdead fs u hstart hmore
    have hsame : u = t := by
      refine Machine.runFrom_invariant (P := fun s => s = t) fs ?_ rfl hmore
      rintro e he s v out rfl hstep
      obtain ⟨rfl, rfl⟩ := dead_step hdead (fun h => hstart (h ▸ he)) hstep
      rw [List.append_nil]
    rw [hsame]

/-- A source with one packet out is silenced by the refusal of the second. -/
theorem source_alive_refusing : ∃ t, (machine 9).system.run Original.refusing = some t ∧
    ¬ (machine 9).system.Always Alive (machine 9).system.init Original.refusing ∧
    ∀ fs u, .startDone .success ∉ fs → (machine 9).system.runFrom t fs = some u → u.2 = t.2 := by
  have hrun : (machine 9).system.run Original.refusing = some _ := rfl
  have hsilent := source_alive_iff 9 Original.refusing hrun
  exact ⟨_, hrun, mt hsilent.1.mp (by decide), hsilent.2 (by decide)⟩

end WsnContest.Beacon
