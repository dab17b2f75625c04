import WsnContest.Gossip.Memory

/-! What the root of `BiDaXiao` prints once the status has been stable for long enough.
The test comes before the status of the tick is compared with the one before, and it
asks for no number. -/
namespace WsnContest.Gossip
open Tinyos

def Output.tick? : Output → Option TestSendMsg
  | .ticked status => some status
  | .heard _ | .learnt | .accepted _ | .numbered _ | .printed .. => none

/-- The status at each `MilliTimer` tick, oldest first. -/
def ticks (out : List Output) : List TestSendMsg := out.filterMap Output.tick?

theorem ticks_append (out new : List Output) : ticks (out ++ new) = ticks out ++ ticks new :=
  List.filterMap_append

/-- A report about frames, not about the number, the ticks or the result. -/
def Output.onAir : Output → Bool
  | .heard _ | .learnt | .accepted _ => true
  | .numbered _ | .printed .. | .ticked _ => false

theorem ticks_onAir {out : List Output} (h : ∀ o ∈ out, o.onAir = true) : ticks out = [] := by
  rw [ticks, List.filterMap_eq_nil_iff]
  intro o ho
  have honAir := h o ho
  cases o with
  | ticked status => cases honAir
  | _ => rfl

/-- A number was just accepted, or is still to come, and no tick has come since. -/
def State.Fresh (s : State) : Prop :=
  ∃ n : Word16, s.lastStatus = ⟨n + 1, n + 1⟩ ∧ ⟨n, n⟩ ≤ s.status

/-- The status that the handler made up is none the node can have, not even after 0xffff. -/
theorem State.Fresh.ne {s : State} (h : s.Fresh) : s.lastStatus ≠ s.status := by
  obtain ⟨n, hlast, hle⟩ := h
  intro heq
  rw [hlast] at heq
  rw [← heq] at hle
  obtain ⟨hmax, hmin⟩ := hle
  exact absurd (le_antisymm hmin hmax) (by simp)

end WsnContest.Gossip

namespace WsnContest.BiDaXiao
open Tinyos Gossip Lib

/-- A result printed for stability comes after the number, and was the status at each of
the 14 ticks before. -/
def Justified (pre : List Output) : Output → Prop
  | .printed result true =>
    (∃ n, .numbered n ∈ pre) ∧ List.replicate statusStableTimeThdSec.val result <:+ ticks pre
  | .printed _ false | .heard _ | .learnt | .accepted _ | .numbered _ | .ticked _ => True

/-- When the root prints for stability it has its number, and its status is the one of
the tick before. -/
def Steady (s : State × List Output) : NodeEvent Event → Prop
  | .own .milliTimerFired =>
    statusStableTimeThdSec ≤ s.1.statusStableCount → s.1.resultSent = false →
      s.1.serialReceived = true ∧ (ticks s.2).getLast? = some s.1.status
  | .own (.startDone _) | .own (.sendTimerFired _) | .own (.resendTimerFired _)
  | .own (.sendDone _) | .own (.serialReceive ..) | .heard _ _ => True

instance (s : State × List Output) : (e : NodeEvent Event) → Decidable (Steady s e)
  | .own .milliTimerFired => inferInstanceAs (Decidable
      (statusStableTimeThdSec ≤ s.1.statusStableCount → s.1.resultSent = false →
        s.1.serialReceived = true ∧ (ticks s.2).getLast? = some s.1.status))
  | .own (.startDone _) | .own (.sendTimerFired _) | .own (.resendTimerFired _)
  | .own (.sendDone _) | .own (.serialReceive ..) | .heard _ _ => .isTrue trivial

/-- The step leaves alone what the stability of the status is judged by. -/
structure Unwatched (s t : State) (out : List Output) : Prop where
  lastStatus : t.lastStatus = s.lastStatus
  stableCount : t.statusStableCount = s.statusStableCount
  serialReceived : t.serialReceived = s.serialReceived
  status : s.status ≤ t.status
  onAir : ∀ o ∈ out, o.onAir = true

section Steps
variable {p : Settings} {s : State}

theorem sendStatus_unwatched (sent : ErrorT) :
    Unwatched s (sendStatus p sent s).1 ((sendStatus p sent s).2.map .accepted) := by
  obtain ⟨packet, sendCount, busyRadio, resendTimer, outstanding, heq⟩ := sendStatus_fst p sent s
  refine ⟨?_, ?_, ?_, ?_, by simp [Output.onAir]⟩
  · rw [heq]
  · rw [heq]
  · rw [heq]
  · rw [heq]

theorem hears_unwatched (sent : ErrorT) (msg : Message) :
    Unwatched s (hears p sent msg s).1 (hears p sent msg s).2 := by
  have hstatus := le_receive_status p sent msg s
  obtain ⟨_, _, _, _, _, _, _, heq⟩ := receive_fst p sent msg s
  have hlast : (receive p sent msg s).1.lastStatus = s.lastStatus := by rw [heq]
  have hcount : (receive p sent msg s).1.statusStableCount = s.statusStableCount := by rw [heq]
  refine ⟨hlast, hcount, receive_serialReceived p sent msg s, hstatus, ?_⟩
  simp only [hears, arrival, List.mem_append, List.mem_map]
  rintro o ((ho | ho) | ⟨f, -, rfl⟩)
  · obtain ⟨-, ho⟩ := List.mem_ite_nil_right.mp ho
    rw [List.mem_singleton.mp ho]
    rfl
  · obtain ⟨-, ho⟩ := List.mem_ite_nil_right.mp ho
    rw [List.mem_singleton.mp ho]
    rfl
  · rfl

/-- A step brings the number, is a tick, or is not watched. -/
theorem step_watched {e : NodeEvent Event} {t : State} {out : List Output}
    (h : nodeStep p s e = some (t, out)) :
    (∃ rcm, e = .own (.serialReceive sizeofTestSerialMsg rcm) ∧ t = numbered p rcm s ∧
      out = [.numbered rcm.number]) ∨
    (e = .own .milliTimerFired ∧ t = (milliTimerFired p s).1 ∧
      out = ticking statusStableTimeThdSec (milliTimerFired p s).2 s) ∨
    (Unwatched s t out ∧ ∀ log, Steady (s, log) e) := by
  cases nodeStep_effect h with
  | startDone err =>
    obtain ⟨milliTimer, heq⟩ := startDone_eq err s
    rw [heq]
    exact .inr (.inr ⟨⟨rfl, rfl, rfl, le_rfl, by simp⟩, fun _ => trivial⟩)
  | ticked => exact .inr (.inl ⟨rfl, rfl, rfl⟩)
  | sendTimerFired sent =>
    obtain ⟨hlast, hcount, hserial, hstatus, honAir⟩ :=
      sendStatus_unwatched (p := p) (s := { s with sendTimer := none }) sent
    exact .inr (.inr ⟨⟨hlast, hcount, hserial, hstatus, honAir⟩, fun _ => trivial⟩)
  | resendTimerFired sent =>
    obtain ⟨hlast, hcount, hserial, hstatus, honAir⟩ :=
      sendStatus_unwatched (p := p) (s := { s with resendTimer := false }) sent
    exact .inr (.inr ⟨⟨hlast, hcount, hserial, hstatus, honAir⟩, fun _ => trivial⟩)
  | sendDone err =>
    obtain ⟨resendTimer, heq⟩ := sendDone_eq err { s with outstanding := s.outstanding - 1 }
    rw [heq]
    exact .inr (.inr ⟨⟨rfl, rfl, rfl, le_rfl, by simp⟩, fun _ => trivial⟩)
  | numbered rcm => exact .inl ⟨rcm, rfl, rfl, rfl⟩
  | ignored => exact .inr (.inr ⟨⟨rfl, rfl, rfl, le_rfl, by simp⟩, fun _ => trivial⟩)
  | heard sent msg => exact .inr (.inr ⟨hears_unwatched sent msg, fun _ => trivial⟩)

theorem tick_count : (milliTimerFired p s).1.statusStableCount =
    if s.lastStatus = s.status then s.statusStableCount + 1 else 0 := by
  have hsame : s.lastStatus = s.status ↔
      s.lastStatus.max = s.status.max ∧ s.lastStatus.min = s.status.min := by
    cases s.lastStatus
    cases s.status
    exact TestSendMsg.mk.injEq .. ▸ Iff.rfl
  have htick : (milliTick p statusStableTimeThdSec endTimeSec s).1.statusStableCount =
      if s.lastStatus = s.status then s.statusStableCount + 1 else 0 := by
    unfold milliTick
    simp only [hsame, Bool.and_eq_true, decide_eq_true_eq]
    split <;> rfl
  refine Eq.trans ?_ htick
  unfold milliTimerFired
  dsimp only
  split <;> rfl

theorem tick_result (hroot : p.isRoot = true)
    (hstable : statusStableTimeThdSec ≤ s.statusStableCount) :
    (milliTimerFired p s).2 = if s.resultSent then none else some s.status := by
  unfold milliTimerFired milliTick
  cases s.resultSent <;> simp [hroot, hstable]

end Steps

/-- The counter counts the last ticks of one status, and `last_status` is that status, or
one that no tick will find. -/
structure Watched (s : State × List Output) : Prop where
  number : s.1.serialReceived = true ↔ ∃ n, .numbered n ∈ s.2
  run : ∀ status, (ticks s.2).getLast? = some status →
    List.replicate s.1.statusStableCount.val status <:+ ticks s.2
  last : (ticks s.2).getLast? = some s.1.lastStatus ∨ s.1.Fresh
  inOrder : InOrder Justified s.2

section Runs
variable {p : Settings} {s : State × List Output}

theorem replicate_suffix {α : Type} {a : α} {m n : ℕ} (h : m ≤ n) :
    List.replicate m a <:+ List.replicate n a := by
  rw [List.suffix_replicate_iff]
  simp [h]

/-- Fourteen ticks of a status end in that status. -/
theorem getLast_of_replicate {l : List TestSendMsg} {status : TestSendMsg}
    (h : List.replicate statusStableTimeThdSec.val status <:+ l) : l.getLast? = some status := by
  rw [← List.singleton_suffix_iff_getLast?_eq_some]
  have hone : List.replicate 1 status <:+ List.replicate statusStableTimeThdSec.val status :=
    replicate_suffix (by decide)
  exact hone.trans h

/-- What a tick reports is in order exactly if the tick is steady. -/
theorem tick_inOrder_iff (hs : Watched s) (hroot : p.isRoot = true) :
    InOrder Justified (s.2 ++ ticking statusStableTimeThdSec (milliTimerFired p s.1).2 s.1) ↔
      Steady s (.own .milliTimerFired) := by
  have htick : ∀ pre status, Justified pre (.ticked status) := fun _ _ => trivial
  unfold ticking
  rw [← List.append_assoc, inOrder_append_one, and_iff_left (htick _ _)]
  by_cases hstable : statusStableTimeThdSec ≤ s.1.statusStableCount
  · rw [tick_result hroot hstable]
    cases hsent : s.1.resultSent with
    | true =>
      refine iff_of_true ?_ fun _ hnot => ?_
      · simpa using hs.inOrder
      · rw [hsent] at hnot
        cases hnot
    | false =>
      have hprinted : InOrder Justified (s.2 ++ [.printed s.1.status true]) ↔
          (∃ n, .numbered n ∈ s.2) ∧
            List.replicate statusStableTimeThdSec.val s.1.status <:+ ticks s.2 := by
        rw [inOrder_append_one, and_iff_right hs.inOrder]
        exact Iff.rfl
      simp only [hstable, decide_true, Bool.false_eq_true, if_false, Option.toList_some,
        List.map_cons, List.map_nil]
      rw [hprinted, ← hs.number]
      constructor
      · rintro ⟨hserial, hticks⟩ _ _
        exact ⟨hserial, getLast_of_replicate hticks⟩
      · intro hsteady
        obtain ⟨hserial, hlast⟩ := hsteady hstable hsent
        exact ⟨hserial, (replicate_suffix hstable).trans (hs.run _ hlast)⟩
  · refine iff_of_true (hs.inOrder.append ?_) fun h => absurd h hstable
    intro o ho pre
    obtain ⟨result, -, rfl⟩ := List.mem_map.mp ho
    simp [hstable, Justified]

theorem Watched.tick (hs : Watched s)
    (horder : InOrder Justified
      (s.2 ++ ticking statusStableTimeThdSec (milliTimerFired p s.1).2 s.1)) :
    Watched ((milliTimerFired p s.1).1,
      s.2 ++ ticking statusStableTimeThdSec (milliTimerFired p s.1).2 s.1) := by
  obtain ⟨timeCount, stableCount, resultSent, heq⟩ := milliTimerFired_eq p s.1
  have hlastStatus : (milliTimerFired p s.1).1.lastStatus = s.1.status := by rw [heq]
  have hserial : (milliTimerFired p s.1).1.serialReceived = s.1.serialReceived := by rw [heq]
  have hticks : ticks (s.2 ++ ticking statusStableTimeThdSec (milliTimerFired p s.1).2 s.1) =
      ticks s.2 ++ [s.1.status] := by
    rw [ticks_append]
    apply congrArg
    cases (milliTimerFired p s.1).2 <;> rfl
  refine ⟨?_, ?_, ?_, horder⟩
  · have hnone : ∀ n,
        .numbered n ∉ ticking statusStableTimeThdSec (milliTimerFired p s.1).2 s.1 := by
      simp [ticking]
    rw [hserial, hs.number]
    simp [hnone]
  · intro status hstatus
    rw [hticks] at hstatus ⊢
    obtain rfl : s.1.status = status := by simpa using hstatus
    rw [tick_count]
    split
    · next hsame =>
      have hlast : (ticks s.2).getLast? = some s.1.status := by
        rw [← hsame]
        exact hs.last.resolve_right fun hfresh => hfresh.ne hsame
      have hrun := hs.run _ hlast
      have hone : List.replicate (s.1.statusStableCount.val + 1) s.1.status <:+
          ticks s.2 ++ [s.1.status] := by
        rw [List.replicate_succ']
        exact List.suffix_append_self_iff.mpr hrun
      have hle : (s.1.statusStableCount + 1).val ≤ s.1.statusStableCount.val + 1 := by
        rw [Fin.val_add]
        exact Nat.mod_le _ _
      exact (replicate_suffix hle).trans hone
    · exact List.nil_suffix
  · left
    rw [hticks, hlastStatus]
    simp

theorem Watched.step (hroot : p.isRoot = true) (hs : Watched s) {e : NodeEvent Event} {t : State}
    {out : List Output} (h : nodeStep p s.1 e = some (t, out)) :
    (Steady s e → Watched (t, s.2 ++ out)) ∧ (InOrder Justified (s.2 ++ out) → Steady s e) := by
  obtain ⟨rcm, rfl, rfl, rfl⟩ | ⟨rfl, rfl, rfl⟩ | ⟨haloof, hsteady⟩ := step_watched h
  · refine ⟨fun _ => ⟨?_, ?_, .inr ⟨rcm.number, rfl, le_rfl⟩, hs.inOrder.append_one trivial⟩,
      fun _ => trivial⟩
    · exact iff_of_true rfl ⟨rcm.number, by simp⟩
    · have hticks : ticks (s.2 ++ [.numbered rcm.number]) = ticks s.2 := by
        simp [ticks, Output.tick?]
      rw [hticks]
      exact hs.run
  · exact ⟨fun hsteady => hs.tick ((tick_inOrder_iff hs hroot).mpr hsteady),
      (tick_inOrder_iff hs hroot).mp⟩
  · have hticks : ticks (s.2 ++ out) = ticks s.2 := by
      rw [ticks_append, ticks_onAir haloof.onAir, List.append_nil]
    refine ⟨fun _ => ⟨?_, ?_, ?_, ?_⟩, fun _ => hsteady s.2⟩
    · have hnone : ∀ n, .numbered n ∉ out := fun n hn => nomatch haloof.onAir _ hn
      rw [haloof.serialReceived, hs.number]
      simp [hnone]
    · rw [hticks, haloof.stableCount]
      exact hs.run
    · rw [hticks, haloof.lastStatus]
      refine hs.last.imp_right ?_
      rintro ⟨n, hlast, hle⟩
      exact ⟨n, haloof.lastStatus.trans hlast, hle.trans haloof.status⟩
    · apply hs.inOrder.append
      intro o ho pre
      have honAir := haloof.onAir o ho
      cases o with
      | printed result stable => cases honAir
      | _ => trivial

end Runs

/-- A frame in the last second is printed, though no tick has found its status. -/
theorem sudden_report :
    ∃ s, (machine 0).system.run (.own (.startDone .success) ::
        .own (.serialReceive sizeofTestSerialMsg ⟨0, 5⟩) ::
        List.replicate 15 (.own .milliTimerFired) ++
        [.heard .success ⟨sizeofTestSendMsg, ⟨9, 2⟩⟩, .own .milliTimerFired]) = some s ∧
      .printed ⟨9, 2⟩ true ∈ s.2 ∧ ⟨9, 2⟩ ∉ (ticks s.2).dropLast ∧ ¬ InOrder Justified s.2 := by
  refine ⟨_, rfl, by decide, by decide, fun horder => ?_⟩
  obtain ⟨-, hticks⟩ := horder (.numbered 5 :: List.replicate 15 (.ticked ⟨5, 5⟩) ++
    [.heard ⟨9, 2⟩, .learnt]) (.printed ⟨9, 2⟩ true) [.ticked ⟨9, 2⟩] rfl
  exact absurd hticks (by decide)

end WsnContest.BiDaXiao
