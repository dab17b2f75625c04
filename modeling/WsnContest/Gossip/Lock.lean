import WsnContest.Gossip.Trace

/-! The radio lock of `BiDaXiao`. `SUCCESS` is zero, so it is the send that failed which
sets `busy_radio`, and no `sendDone` answers it. -/
namespace WsnContest.Gossip
open Tinyos

/-- The lock is set only while a `sendDone` is to come. -/
def State.Held (s : State) : Prop :=
  s.busyRadio = true → s.outstanding ≠ 0

section Sending
variable {p : Settings} {sent : ErrorT} {s : State}

theorem ready_idle (h : s.ready p = true) : s.busyRadio = false := by
  simp only [State.ready, Bool.and_eq_true, Bool.not_eq_true'] at h
  exact h.2

theorem sendStatus_held_iff (hs : s.Held) :
    (sendStatus p sent s).1.Held ↔
      (s.ready p = true → sent ≠ .success → s.outstanding ≠ 0) := by
  have hsending := sendStatus_sending p sent s
  generalize sendStatus p sent s = r at hsending
  cases hsending with
  | silent hsilent =>
    refine iff_of_true hs fun hready => ?_
    simp only [State.ready, Bool.and_eq_true, Bool.not_eq_true'] at hready
    rcases hsilent with hserial | hroot
    · simp [hserial] at hready
    · simp [hroot] at hready
  | deferred hserial hroot hbusy =>
    refine iff_of_true hs fun hready => ?_
    simp [ready_idle hready] at hbusy
  | taken hready hsent =>
    refine iff_of_true (fun _ => ?_) fun _ hfailed => absurd hsent hfailed
    exact Nat.succ_ne_zero s.outstanding
  | failed hready hsent =>
    refine ⟨fun hheld _ _ => hheld rfl, fun hout _ => hout hready hsent⟩

end Sending

end WsnContest.Gossip

namespace WsnContest.BiDaXiao
open Tinyos Gossip Lib

/-- The result of the `AMSend.send` that an event leads to. -/
def calls (p : Settings) (s : State) : NodeEvent Event → Option ErrorT
  | .own (.sendTimerFired sent) | .own (.resendTimerFired sent) =>
    if s.ready p = true then some sent else none
  | .heard sent msg =>
    if s.ready p = true ∧ msg.length = sizeofTestSendMsg ∧ s.speaks p msg.payload = true then
      some sent
    else none
  | .own (.startDone _) | .own .milliTimerFired | .own (.sendDone _) | .own (.serialReceive ..) =>
    none

/-- A send fails only while an earlier one is out. -/
def Excused (p : Settings) (s : State) (e : NodeEvent Event) : Prop :=
  ∀ sent ∈ calls p s e, sent ≠ .success → s.outstanding ≠ 0

instance (p : Settings) (s : State) (e : NodeEvent Event) : Decidable (Excused p s e) :=
  inferInstanceAs (Decidable (∀ sent ∈ calls p s e, _))

section Steps
variable {p : Settings} {s : State}

theorem excused_some {e : NodeEvent Event} {called : Prop} [Decidable called] {sent : ErrorT}
    (h : calls p s e = if called then some sent else none) :
    Excused p s e ↔ (called → sent ≠ .success → s.outstanding ≠ 0) := by
  unfold Excused
  rw [h]
  by_cases hcalled : called
  · simp [hcalled]
  · simp [hcalled]

theorem receive_held_iff (hs : s.Held) (sent : ErrorT) (msg : Message) :
    (receive p sent msg s).1.Held ↔ Excused p s (.heard sent msg) := by
  have hready : ({ s.hear msg.payload with packet := msg } : State).ready p = s.ready p := rfl
  have hkeep : ({ s.hear msg.payload with packet := msg } : State).Held := hs
  have hiff := @sendStatus_held_iff p sent _ hkeep
  rw [excused_some rfl, receive_eq]
  by_cases hlen : msg.length = sizeofTestSendMsg
  · rw [if_pos hlen]
    dsimp only
    by_cases hspeaks : s.speaks p msg.payload = true
    · rw [if_pos hspeaks, hiff, hready]
      simp only [hlen, hspeaks, and_self, and_true]
      exact Iff.rfl
    · rw [if_neg hspeaks]
      simp [hspeaks, hkeep]
  · rw [if_neg hlen]
    refine iff_of_true hs fun hcalled => absurd hcalled.2.1 hlen

/-- The steps that keep the lock tied to a send are those whose sends are excused. -/
theorem held_step_iff (hs : s.Held) {e : NodeEvent Event} {t : State} {out : List Output}
    (h : nodeStep p s e = some (t, out)) : t.Held ↔ Excused p s e := by
  have hquiet : calls p s e = none → t.Held → (t.Held ↔ Excused p s e) := by
    intro hnone hheld
    refine iff_of_true hheld fun sent hsent => ?_
    rw [hnone] at hsent
    cases hsent
  cases nodeStep_effect h with
  | startDone err =>
    obtain ⟨milliTimer, heq⟩ := startDone_eq err s
    refine hquiet rfl ?_
    rw [heq]
    exact hs
  | ticked =>
    obtain ⟨timeCount, stableCount, resultSent, heq⟩ := milliTimerFired_eq p s
    refine hquiet rfl ?_
    rw [heq]
    exact hs
  | sendTimerFired sent =>
    rw [excused_some rfl]
    exact sendStatus_held_iff (s := { s with sendTimer := none }) hs
  | resendTimerFired sent =>
    rw [excused_some rfl]
    exact sendStatus_held_iff (s := { s with resendTimer := false }) hs
  | sendDone err =>
    obtain ⟨resendTimer, heq⟩ := sendDone_eq err { s with outstanding := s.outstanding - 1 }
    refine hquiet rfl ?_
    rw [heq]
    exact fun hbusy => nomatch hbusy
  | numbered => exact hquiet rfl hs
  | ignored => exact hquiet rfl hs
  | heard sent msg => exact receive_held_iff hs sent msg

theorem stuck_sendStatus (hbusy : s.busyRadio = true) (sent : ErrorT) :
    (sendStatus p sent s).1.busyRadio = true ∧
    (sendStatus p sent s).1.outstanding = s.outstanding ∧ (sendStatus p sent s).2 = [] := by
  have hsending := sendStatus_sending p sent s
  generalize sendStatus p sent s = r at hsending
  cases hsending with
  | silent => exact ⟨hbusy, rfl, rfl⟩
  | deferred => exact ⟨hbusy, rfl, rfl⟩
  | taken hready =>
    rw [ready_idle hready] at hbusy
    cases hbusy
  | failed hready =>
    rw [ready_idle hready] at hbusy
    cases hbusy

theorem stuck_receive (hbusy : s.busyRadio = true) (sent : ErrorT) (msg : Message) :
    (receive p sent msg s).1.busyRadio = true ∧
    (receive p sent msg s).1.outstanding = s.outstanding ∧ (receive p sent msg s).2 = [] := by
  rw [receive_eq]
  split
  · dsimp only
    split
    · exact stuck_sendStatus (s := { s.hear msg.payload with packet := msg }) hbusy sent
    · exact ⟨hbusy, rfl, rfl⟩
  · exact ⟨hbusy, rfl, rfl⟩

/-- A lock that no `sendDone` will clear. -/
def Stuck (s : State) : Prop := s.busyRadio = true ∧ s.outstanding = 0

/-- It stays, and nothing is sent any more. -/
theorem stuck_step (hs : Stuck s) {e : NodeEvent Event} {t : State} {out : List Output}
    (h : nodeStep p s e = some (t, out)) : Stuck t ∧ ∀ f, Output.accepted f ∉ out := by
  obtain ⟨hbusy, hout⟩ := hs
  cases nodeStep_effect h with
  | startDone err =>
    obtain ⟨milliTimer, heq⟩ := startDone_eq err s
    rw [heq]
    exact ⟨⟨hbusy, hout⟩, by simp⟩
  | ticked =>
    obtain ⟨timeCount, stableCount, resultSent, heq⟩ := milliTimerFired_eq p s
    rw [heq]
    exact ⟨⟨hbusy, hout⟩, by simp [ticking]⟩
  | sendTimerFired sent =>
    obtain ⟨hkeep, hnone, hframes⟩ :=
      stuck_sendStatus (p := p) (s := { s with sendTimer := none }) hbusy sent
    exact ⟨⟨hkeep, hnone.trans hout⟩, by simp [hframes]⟩
  | resendTimerFired sent =>
    obtain ⟨hkeep, hnone, hframes⟩ :=
      stuck_sendStatus (p := p) (s := { s with resendTimer := false }) hbusy sent
    exact ⟨⟨hkeep, hnone.trans hout⟩, by simp [hframes]⟩
  | sendDone err hdue => exact absurd hout hdue
  | numbered => exact ⟨⟨hbusy, hout⟩, by simp⟩
  | ignored => exact ⟨⟨hbusy, hout⟩, by simp⟩
  | heard sent msg =>
    obtain ⟨hkeep, hnone, hframes⟩ := stuck_receive (p := p) hbusy sent msg
    refine ⟨⟨hkeep, hnone.trans hout⟩, fun f => ?_⟩
    simp only [hears, arrival, hframes]
    split <;> split <;> simp

end Steps

/-- In every run the lock is set only while a `sendDone` is to come exactly if every
send that fails does so while an earlier one is out. -/
theorem lock_never_sticks_iff (tosNodeId : Word16) (es : List (NodeEvent Event))
    {s : State × List Output} (hrun : (machine tosNodeId).system.run es = some s) :
    (machine tosNodeId).system.Always (fun s => s.1.Held) (machine tosNodeId).system.init es ↔
      (machine tosNodeId).system.AllowedFrom (fun s e => Excused (settings tosNodeId) s.1 e)
        (machine tosNodeId).system.init es := by
  have hinit : (machine tosNodeId).system.init.1.Held := nofun
  refine Machine.always_iff_allowedFrom (fun s => s.1.Held) (fun _ hs => hs) ?_ es hinit hrun
  intro s e t out hs he
  have hiff : t.Held ↔ Excused (settings tosNodeId) s.1 e := held_step_iff hs he
  exact ⟨hiff.mpr, hiff.mp⟩

/-- A node that is stuck never sends again. -/
theorem silenced_for_ever {tosNodeId : Word16} (es : List (NodeEvent Event))
    {s t : State × List Output} (hs : Stuck s.1)
    (hrun : (machine tosNodeId).system.runFrom s es = some t) :
    ∀ f, .accepted f ∈ t.2 → .accepted f ∈ s.2 := by
  have hkept : Stuck t.1 ∧ ∀ f, .accepted f ∈ t.2 → .accepted f ∈ s.2 := by
    apply Machine.runFrom_invariant
      (P := fun t => Stuck t.1 ∧ ∀ f, .accepted f ∈ t.2 → .accepted f ∈ s.2) es ?_
      ⟨hs, by simp⟩ hrun
    rintro e _ u v out ⟨hstuck, hold⟩ he
    obtain ⟨hstuck', hnone⟩ := stuck_step hstuck he
    refine ⟨hstuck', fun f hf => ?_⟩
    exact hold f ((List.mem_append.mp hf).resolve_right (hnone f))
  exact hkept.2

/-- The number comes after the start of the radio, and the send is taken. -/
def announcing : List (NodeEvent Event) :=
  [.own (.startDone .success), .own (.serialReceive sizeofTestSerialMsg ⟨7, 5⟩),
    .own (.sendTimerFired .success), .own (.sendDone .success)]

theorem lock_never_sticks_announced :
    (machine 7).system.Always (fun s => s.1.Held) (machine 7).system.init announcing :=
  (lock_never_sticks_iff 7 announcing rfl).mpr (by decide)

/-- The number comes before the radio has started, so that the first send fails. -/
theorem early_number_sticks :
    ∃ s, (machine 7).system.run [.own (.serialReceive sizeofTestSerialMsg ⟨7, 5⟩),
        .own (.sendTimerFired .eoff), .own (.startDone .success)] = some s ∧
      Stuck s.1 ∧ ¬ s.1.Held :=
  ⟨_, rfl, ⟨rfl, rfl⟩, fun hheld => hheld rfl rfl⟩

end WsnContest.BiDaXiao
