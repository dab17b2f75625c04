import WsnContest.Car.Course
import WsnContest.Car.Readings

/-! What the car holds to be sent: the tag of the last query key and the last reading, which
need not belong together. It fills its packet with them while the radio may be reading it. -/
namespace WsnContest.Car
open Tinyos

/-- A data buffer on its way out has its length, and holds something good. -/
def Carries (good : TestDataMsg → Prop) (b : MessageBuffer TestDataMsg) : Prop :=
  b.outstanding ≠ 0 → b.length = sizeofTestDataMsg ∧ good b.payload

namespace Carries
variable {good : TestDataMsg → Prop} {b : MessageBuffer TestDataMsg}

theorem mono (h : Carries good b) {more : TestDataMsg → Prop} (hmore : ∀ m, good m → more m) :
    Carries more b :=
  fun hout => (h hout).imp_right (hmore _)

theorem fill (h : Carries good b) {m : TestDataMsg} (hm : good m) :
    Carries good { b with payload := m } :=
  fun hout => ⟨(h hout).1, hm⟩

theorem send (h : Carries good b) {m : TestDataMsg} (hm : good m) (sent : ErrorT) :
    Carries good ({ b with payload := m }.send sizeofTestDataMsg sent) := by
  intro hout
  refine ⟨?_, hm⟩
  by_cases hbusy : sent = .ebusy
  · -- a busy radio leaves the header as the send before left it
    subst hbusy
    exact (h hout).1
  · exact if_neg hbusy

theorem done (h : Carries good b) {b' : MessageBuffer TestDataMsg} (hdone : b.done = some b') :
    Carries good b' := by
  obtain ⟨hout, rfl⟩ := MessageBuffer.done_eq hdone
  exact fun _ => h hout

end Carries

end WsnContest.Car

namespace WsnContest.CarNode
open Tinyos Lib Car
open CarP (Rx Command)

/-- The tag and the reading that an output leaves to be sent. -/
def hold (m : TestDataMsg) : Output → TestDataMsg
  | .obeyed msg => { m with id := ((tagOf msg.cmd).map label).getD m.id }
  | .driver (.readDone state data) => { m with data := if state = .success then data else m.data }
  | .driver _ | .handed _ _ => m

/-- What the car would send after these outputs. -/
def held (out : List Output) : TestDataMsg := out.foldl hold ⟨0, 0⟩

@[simp] theorem held_append_one (out : List Output) (o : Output) :
    held (out ++ [o]) = hold (held out) o := by
  simp [held]

theorem held_append {new : List Output} (h : ∀ o ∈ new, ∀ m, hold m o = m) (out : List Output) :
    held (out ++ new) = held out := by
  induction new generalizing out with
  | nil => rw [List.append_nil]
  | cons o new ih =>
    obtain ⟨ho, hnew⟩ := List.forall_mem_cons.mp h
    rw [List.append_cons, ih hnew, held_append_one, ho]

/-- A tag that is held was asked for. -/
theorem held_id (out : List Output) :
    (held out).id = 0 ∨
      ∃ msg tag, .obeyed msg ∈ out ∧ tagOf msg.cmd = some tag ∧ (held out).id = label tag := by
  induction out using List.reverseRecOn with
  | nil => exact .inl rfl
  | append_singleton out o ih =>
    have hold : ∀ id, id = (held out).id → id = 0 ∨
        ∃ msg tag, .obeyed msg ∈ out ++ [o] ∧ tagOf msg.cmd = some tag ∧ id = label tag := by
      rintro id rfl
      exact ih.imp_right fun ⟨msg, tag, hmem, hrest⟩ =>
        ⟨msg, tag, List.mem_append_left _ hmem, hrest⟩
    rw [held_append_one]
    cases o with
    | handed m sent => exact hold _ rfl
    | driver d => cases d <;> exact hold _ rfl
    | obeyed msg =>
      cases htag : tagOf msg.cmd with
      | none => exact hold _ (by simp [CarNode.hold, htag])
      | some tag => exact .inr ⟨msg, tag, by simp, htag, by simp [CarNode.hold, htag]⟩

/-- A reading that is held was read. -/
theorem held_data (out : List Output) :
    (held out).data = 0 ∨ .driver (.readDone .success (held out).data) ∈ out := by
  induction out using List.reverseRecOn with
  | nil => exact .inl rfl
  | append_singleton out o ih =>
    have hold : ∀ data, data = (held out).data →
        data = 0 ∨ .driver (.readDone .success data) ∈ out ++ [o] := by
      rintro data rfl
      exact ih.imp_right (List.mem_append_left _)
    rw [held_append_one]
    cases o with
    | obeyed msg | handed m sent => exact hold _ rfl
    | driver d =>
      cases d with
      | readDone state data =>
        by_cases hstate : state = .success
        · simp [CarNode.hold, hstate]
        · exact hold _ (if_neg hstate)
      | _ => exact hold _ rfl

/-- What `sendData` would fill the packet with. -/
def reading (s : State) : TestDataMsg := ⟨s.id, s.currentData⟩

section Steps
variable {s t : State} {e : Input} {out : List Output} {irqs : List (List Rx)}
  {good : TestDataMsg → Prop}

theorem callAll_driver (cs : List Command) :
    ∀ o ∈ (callAll irqs cs s).2, ∀ m, hold m o = m := by
  induction cs generalizing s with
  | nil => simp [callAll]
  | cons c cs ih =>
    intro o ho
    rcases List.mem_append.mp ho with hfirst | hrest
    · cases hready : s.car.ready with
      | true =>
        rw [(callCar_ready hready).1] at hfirst
        obtain rfl := List.mem_singleton.mp hfirst
        exact fun _ => rfl
      | false =>
        rw [callCar_refused hready] at hfirst
        obtain rfl := List.mem_singleton.mp hfirst
        exact fun _ => rfl
    · exact ih o hrest

theorem callAll_reading (cs : List Command) :
    (callAll irqs cs s).1.packet = s.packet ∧ reading (callAll irqs cs s).1 = reading s := by
  induction cs generalizing s with
  | nil => exact ⟨rfl, rfl⟩
  | cons c cs ih => exact ih

/-- A query key changes the tag, and no key the packet. -/
theorem obey_reading (msg : TestCarMsg) :
    (obey msg.cmd irqs s).1.packet = s.packet ∧
      reading (obey msg.cmd irqs s).1 = hold (reading s) (.obeyed msg) := by
  have hhold : hold (reading s) (.obeyed msg) =
      ⟨(((Cmd.ofCode? msg.cmd).bind Cmd.tag?).map label).getD s.id, s.currentData⟩ := rfl
  rw [hhold]
  unfold obey
  cases Cmd.ofCode? msg.cmd with
  | none => exact ⟨rfl, rfl⟩
  | some key =>
    cases key with
    | a_ | d_ =>
      dsimp only
      split <;> exact ⟨rfl, rfl⟩
    | _ => exact ⟨rfl, rfl⟩

theorem sendData_reading (sent : ErrorT) :
    reading (sendData sent s).1 = reading s ∧ ∀ o ∈ (sendData sent s).2, ∀ m, hold m o = m := by
  obtain ⟨packet, busyRadio, out, heq, hout⟩ := sendData_eq sent s
  rw [heq]
  refine ⟨rfl, fun o ho m => ?_⟩
  rcases hout with rfl | rfl
  · rw [List.mem_singleton.mp ho]
    rfl
  · cases ho

theorem sendData_carries (sent : ErrorT) (h : Carries good s.packet) (hgood : good (reading s)) :
    Carries good (sendData sent s).1.packet := by
  unfold sendData
  dsimp only
  split
  · split
    · exact h.send hgood sent
    · exact h.send hgood sent
  · exact h.fill hgood

/-- What is held is what was asked for and read last. -/
theorem step_holds (h : machine.step s e = some (t, out)) {log : List Output}
    (hs : reading s = held log) : reading t = held (log ++ out) := by
  have hsame : ∀ {u : State} {new : List Output}, reading u = reading s →
      (∀ o ∈ new, ∀ m, hold m o = m) → reading u = held (log ++ new) := by
    intro u new hu hnew
    rw [held_append hnew, hu, hs]
  cases step_effect h with
  | ignored hstale => exact hsame rfl nofun
  | radioFailed herr => exact hsame rfl nofun
  | sendDone hdone => exact hsame rfl nofun
  | rxDone => exact hsame rfl nofun
  | timer1Fired hcar => exact hsame rfl nofun
  | granted hcar =>
    refine hsame rfl fun o ho m => ?_
    rw [List.mem_singleton.mp ho]
    rfl
  | @resendTimerFired sent htimer =>
    unfold resendTimerFired
    dsimp only
    split
    · obtain ⟨hread, hkeep⟩ :=
        @sendData_reading { s with resendCount := s.resendCount + 1 } sent
      exact hsame hread hkeep
    · exact hsame rfl nofun
  | @obeyed len rm irqs hlen hseq =>
    have hread := (@obey_reading { s with seq := rm.seq } irqs rm).2
    have hdriver := @callAll_driver { s with seq := rm.seq } irqs (issued rm.cmd s)
    have hcalls : (obey rm.cmd irqs { s with seq := rm.seq }).2 =
        (callAll irqs (issued rm.cmd s) { s with seq := rm.seq }).2 := obey_calls rm.cmd
    rw [← hcalls] at hdriver
    rw [List.append_cons, held_append hdriver, held_append_one, hread, ← hs]
    rfl
  | started =>
    rw [carStartDone_callAll]
    have hread := (@callAll_reading s.on [] setup).2
    have hdriver := @callAll_driver s.on [] setup
    refine hsame hread fun o ho => ?_
    rcases List.mem_cons.mp ho with rfl | hcall
    · exact fun _ => rfl
    · exact hdriver o hcall
  | @recvTask irqs sent car state data hcar =>
    rw [List.append_cons]
    have hread : reading { s with car := car, currentData := if state = .success then data
        else s.currentData } = held (log ++ [.driver (.readDone state data)]) := by
      rw [held_append_one, ← hs]
      rfl
    unfold readDone
    by_cases hstate : state = .success
    · rw [if_pos hstate] at hread ⊢
      obtain ⟨hsent, hkeep⟩ :=
        @sendData_reading { s with car := car, currentData := data, resendCount := 0 } sent
      rw [held_append hkeep, hsent, ← hread]
      rfl
    · rw [if_neg hstate] at hread ⊢
      rw [List.append_nil, ← hread]

/-- The packet is filled when a reading came or is still to be repeated. -/
theorem step_carries (h : machine.step s e = some (t, out)) (hs : Carries good s.packet)
    (hold : s.resendCount < resendCnt → good (reading s))
    (hnew : t.resendCount < resendCnt → good (reading t)) : Carries good t.packet := by
  cases step_effect h with
  | ignored hstale => exact hs
  | radioFailed herr => exact hs
  | sendDone hdone => exact hs.done hdone
  | rxDone => exact hs
  | timer1Fired hcar => exact hs
  | granted hcar => exact hs
  | @resendTimerFired sent htimer =>
    unfold resendTimerFired
    dsimp only
    split
    · next hagain =>
      exact @sendData_carries { s with resendCount := s.resendCount + 1 } good sent hs (hold hagain)
    · exact hs
  | @obeyed len rm irqs hlen hseq =>
    rw [(@obey_reading { s with seq := rm.seq } irqs rm).1]
    exact hs
  | started =>
    have hsame : (callAll [] setup s.on).1.packet = s.packet := (callAll_reading setup).1
    rw [carStartDone_callAll]
    exact hsame ▸ hs
  | @recvTask irqs sent car state data hcar =>
    unfold readDone at hnew ⊢
    by_cases hstate : state = .success
    · rw [if_pos hstate] at hnew ⊢
      have hsent := @sendData_carries
        { s with car := car, currentData := data, resendCount := 0 } good sent hs
      obtain ⟨packet, busyRadio, out, heq, -⟩ :=
        sendData_eq sent { s with car := car, currentData := data, resendCount := 0 }
      rw [heq] at hnew
      have hzero : (0 : Word16) < resendCnt := by decide
      exact hsent (hnew hzero)
    · rw [if_neg hstate]
      exact hs

end Steps

/-- What is on its way out was held once. -/
def Once (out : List Output) (m : TestDataMsg) : Prop := ∃ pre, pre <+: out ∧ m = held pre

theorem Once.mono {out more : List Output} (h : out <+: more) (m : TestDataMsg) (hm : Once out m) :
    Once more m := by
  obtain ⟨pre, hpre, rfl⟩ := hm
  exact ⟨pre, hpre.trans h, rfl⟩

/-- The state tells what is held, and the packet holds nothing else. -/
structure Honest (s : State × List Output) : Prop where
  held : reading s.1 = held s.2
  packet : Carries (Once s.2) s.1.packet

theorem honest_of_reachable {allowed : State × List Output → Input → Prop}
    {s : State × List Output} (h : machine.system.Reachable allowed s) : Honest s := by
  apply Machine.invariant (P := Honest) h
  · exact ⟨rfl, fun hout => absurd rfl hout⟩
  · intro s e t out hs _ hstep
    have hheld := step_holds hstep hs.held
    have hgrow : s.2 <+: s.2 ++ out := List.prefix_append _ _
    refine ⟨hheld, step_carries hstep (hs.packet.mono (Once.mono hgrow)) ?_ ?_⟩
    · exact fun _ => ⟨s.2, hgrow, hs.held⟩
    · exact fun _ => ⟨s.2 ++ out, List.prefix_rfl, hheld⟩

/-- What is on its way out answers a query of its own tag. -/
def Answered (out : List Output) (m : TestDataMsg) : Prop := (m.id, m.data) ∈ (exchange out).done

theorem Answered.mono {out more : List Output} (h : out <+: more) (m : TestDataMsg)
    (hm : Answered out m) : Answered more m := by
  obtain ⟨new, rfl⟩ := h
  induction new using List.reverseRecOn with
  | nil => rwa [List.append_nil]
  | append_singleton new o ih =>
    unfold Answered at ih ⊢
    rw [← List.append_assoc, exchange_append_one]
    cases o with
    | obeyed msg | handed msg sent => exact ih
    | driver d =>
      cases d with
      | readDone state data =>
        unfold Exchange.note
        dsimp only
        split
        · exact List.mem_append_left _ ih
        · exact ih
      | accepted c => cases c <;> exact ih
      | _ => exact ih

structure Answering (s : State × List Output) : Prop where
  ordered : Ordered s
  packet : Carries (Answered s.2) s.1.packet

theorem answering_of_reachable {s : State × List Output}
    (h : machine.system.Reachable Undisturbed s) : Answering s := by
  apply Machine.invariant (P := Answering) h
  · exact ⟨ordered_init, fun hout => absurd rfl hout⟩
  · intro s e t out hs hallowed hstep
    have hordered := ordered_step hs.ordered hallowed hstep
    have hgrow : s.2 <+: s.2 ++ out := List.prefix_append _ _
    refine ⟨hordered, step_carries hstep (hs.packet.mono (Answered.mono hgrow)) ?_ ?_⟩
    · exact fun hagain => Answered.mono hgrow _ (hs.ordered.tied.repeating hagain)
    · exact hordered.tied.repeating

end WsnContest.CarNode
