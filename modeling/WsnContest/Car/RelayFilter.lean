import WsnContest.Car.Relay

/-! The duplicate filter of the relay. `pktID` should be the largest number that has
gone out, but it is set in the branch of a send that failed: a command that was
sent may be sent again, and one that was not is taken for a duplicate. The filter
keeps its promise only in runs that never come to use it. -/
namespace WsnContest.Car.Relay
open Tinyos Lib

def acceptedMsg? : Output → Option TestCarMsg
  | .handed msg .success => some msg
  | _ => none

/-- The commands that `AMSend.send` has taken. -/
def accepted (out : List Output) : List TestCarMsg := out.filterMap acceptedMsg?

def largest (msgs : List TestCarMsg) : Word32 := msgs.foldr (fun msg n => max msg.seq n) 0

/-- The filter knows the largest number that was taken, no number is taken twice,
and what is discarded was taken before. -/
structure Filtering (s : State × List Output) : Prop where
  latest : s.1.pktID = largest (accepted s.2)
  once : ((accepted s.2).map TestCarMsg.seq).Nodup
  duplicate : ∀ before msg rest, s.2 = before ++ .discarded msg :: rest →
    msg ∈ accepted before

/-- No command gets as far as `AMSend.send`, and none is filtered out: each comes
with a new number while the radio is busy. -/
def Barred (s : State × List Output) : Event → Prop
  | .receive len rm _ => len = sizeofTestCarMsg →
      s.1.busyRadio = true ∧ threshold rm s.1 < rm.seq
  | _ => True

instance (s : State × List Output) : (e : Event) → Decidable (Barred s e)
  | .receive _ _ _ => inferInstanceAs (Decidable (_ → _ ∧ _))
  | .dataReceive _ _ _ | .transmit | .dataTransmit | .sendDone | .dataSendDone => .isTrue trivial

/-- The filter has not been used. -/
structure Unused (s : State × List Output) : Prop where
  pktID : s.1.pktID = 0
  accepted : accepted s.2 = []
  discarded : ∀ msg, .discarded msg ∉ s.2

theorem accepted_append (out out' : List Output) :
    accepted (out ++ out') = accepted out ++ accepted out' :=
  List.filterMap_append

theorem Unused.filtering {s : State × List Output} (h : Unused s) : Filtering s := by
  refine ⟨?_, ?_, ?_⟩
  · rw [h.pktID, h.accepted]
    rfl
  · rw [h.accepted]
    exact List.nodup_nil
  · intro before msg rest hout
    apply absurd (h.discarded msg)
    simp [hout]

theorem Unused.keep {s : State × List Output} (h : Unused s) {t : State} {out : List Output}
    (hpktID : t.pktID = s.1.pktID) (haccepted : Relay.accepted out = [])
    (hdiscarded : ∀ msg, .discarded msg ∉ out) : Unused (t, s.2 ++ out) := by
  refine ⟨hpktID.trans h.pktID, ?_, ?_⟩
  · rw [accepted_append, h.accepted, haccepted]
    rfl
  · intro msg hmem
    rcases List.mem_append.mp hmem with hold | hnew
    · exact h.discarded msg hold
    · exact hdiscarded msg hnew

theorem Unused.threshold {s : State × List Output} (h : Unused s) (rm : TestCarMsg) :
    threshold rm s.1 = 0 := by
  unfold Relay.threshold
  rw [h.pktID]
  exact ite_self 0

theorem dataSeen_accepted (sent : ErrorT) (len : Word8) (rm : TestDataMsg) (s : State) :
    accepted (dataSeen sent len rm s) = [] ∧ ∀ msg, .discarded msg ∉ dataSeen sent len rm s := by
  unfold dataSeen
  split <;> simp [accepted, acceptedMsg?]

theorem Unused.aside {s : State × List Output} (h : Unused s) {e : Event} {t : State}
    {out : List Output} (he : ∀ len rm sent, e ≠ .receive len rm sent)
    (hstep : machine.step s.1 e = some (t, out)) : Unused (t, s.2 ++ out) := by
  have hpktID := step_pktID he hstep
  cases step_effect hstep with
  | receive => exact absurd rfl (he _ _ _)
  | @dataReceive len rm sent =>
    obtain ⟨haccepted, hdiscarded⟩ := dataSeen_accepted sent len rm s.1
    exact h.keep hpktID haccepted hdiscarded
  | transmit | dataTransmit | sendDone | dataSendDone => exact h.keep hpktID rfl (by simp)

theorem unused_step {s : State × List Output} (h : Unused s) {e : Event} {t : State}
    {out : List Output} (hallowed : Barred s e) (hstep : machine.step s.1 e = some (t, out)) :
    Unused (t, s.2 ++ out) := by
  cases e with
  | receive len rm sent =>
    obtain ⟨rfl, rfl⟩ := Prod.mk.inj (Option.some.inj hstep)
    by_cases hlen : len = sizeofTestCarMsg
    · subst hlen
      obtain ⟨hbusy, hnew⟩ := hallowed rfl
      apply h.keep
      · rw [receive_busy sent hnew hbusy, h.pktID]
        exact h.threshold rm
      · simp [seen, hnew, hbusy, accepted]
      · simp [seen, hnew, hbusy]
    · apply h.keep
      · rw [receive_otherSize sent hlen]
      · simp [seen, hlen, accepted]
      · simp [seen, hlen]
  | _ => exact h.aside (by simp) hstep

/-- The first command that reaches the filter finds it wrong. -/
theorem barred_of_filtering {s : State × List Output} (h : Unused s) {e : Event} {t : State}
    {out : List Output} (hstep : machine.step s.1 e = some (t, out))
    (ht : Filtering (t, s.2 ++ out)) : Barred s e := by
  cases e with
  | receive len rm sent =>
    obtain ⟨rfl, rfl⟩ := Prod.mk.inj (Option.some.inj hstep)
    rintro rfl
    have hnew : threshold rm s.1 < rm.seq := by
      by_contra hold
      have hmem := ht.duplicate s.2 rm [] (by simp [seen, hold])
      simp [h.accepted] at hmem
    refine ⟨?_, hnew⟩
    by_contra hidle
    rw [Bool.not_eq_true] at hidle
    have hpos : 0 < rm.seq := h.threshold rm ▸ hnew
    have hseen : seen sent sizeofTestCarMsg rm s.1 = [.handed rm sent] := by
      simp [seen, hnew, hidle]
    have hlatest := ht.latest
    rw [receive_idle sent hnew hidle, hseen, accepted_append, h.accepted] at hlatest
    dsimp only at hlatest
    cases hsent : sent.toBool with
    | false =>
      -- the send was taken and the number stayed what it was
      rw [ErrorT.toBool_eq_false.mp hsent, h.threshold rm] at hlatest
      apply hpos.ne
      simpa [accepted, acceptedMsg?, largest, ErrorT.toBool, ErrorT.code] using hlatest
    | true =>
      -- the send failed and the number was taken all the same
      have hnone : accepted [.handed rm sent] = [] := by
        cases sent with
        | success => cases hsent
        | _ => rfl
      rw [hnone, if_pos hsent] at hlatest
      exact hpos.ne' hlatest
  | _ => trivial

theorem unused_init : Unused machine.system.init :=
  ⟨rfl, rfl, fun _ h => nomatch h⟩

/-- In a run of the relay the filter is right all along if and only if it is never
used. -/
theorem filtering_iff_barred {es : List Event} {s : State × List Output}
    (h : machine.system.run es = some s) :
    machine.system.Always Filtering machine.system.init es ↔
      machine.system.AllowedFrom Barred machine.system.init es := by
  apply Machine.always_iff_allowedFrom Unused (fun _ hs => hs.filtering) ?_ es unused_init h
  intro s e t out hs hstep
  exact ⟨fun hbarred => unused_step hs hbarred hstep, barred_of_filtering hs hstep⟩

/-- A reading that could not be sent leaves the relay busy, and so it misses the
command. -/
theorem filtering_iff_barred_missed :
    machine.system.Always Filtering machine.system.init
      [.dataReceive sizeofTestDataMsg ⟨100, 5⟩ .fail,
        .receive sizeofTestCarMsg ⟨1, Cmd.w_.code⟩ .success] :=
  (filtering_iff_barred rfl).mpr (by decide)

/-- A command that was sent is sent again, and one that could not be sent is filtered
out when it comes again. -/
theorem filter_fails :
    (∃ s, machine.system.run [.receive sizeofTestCarMsg ⟨5, Cmd.w_.code⟩ .success, .sendDone,
        .receive sizeofTestCarMsg ⟨5, Cmd.w_.code⟩ .success] = some s ∧
      s.1.pktID = 0 ∧ accepted s.2 = [⟨5, Cmd.w_.code⟩, ⟨5, Cmd.w_.code⟩] ∧ ¬ Filtering s) ∧
    ∃ s, machine.system.run [.receive sizeofTestCarMsg ⟨5, Cmd.w_.code⟩ .fail,
        .receive sizeofTestCarMsg ⟨5, Cmd.w_.code⟩ .success] = some s ∧
      accepted s.2 = [] ∧ .discarded ⟨5, Cmd.w_.code⟩ ∈ s.2 ∧ ¬ Filtering s := by
  refine ⟨⟨_, rfl, rfl, by decide, fun h => ?_⟩, ⟨_, rfl, by decide, by decide, fun h => ?_⟩⟩
  · have honce := h.once
    revert honce
    decide
  · have hlatest := h.latest
    revert hlatest
    decide

end WsnContest.Car.Relay
