import WsnContest.Gossip.Trace

/-! What a `BiDaXiao` node knows. `Receive.receive` joins every frame to the status, with
or without a number; the number, when it comes, takes the place of all of that. -/
namespace WsnContest.Gossip
open Tinyos

def Output.frame? : Output → Option TestSendMsg
  | .heard rm => some rm
  | .learnt | .accepted _ | .numbered _ | .printed .. | .ticked _ => none

/-- The well-formed frames received, oldest first. -/
def heardFrames (out : List Output) : List TestSendMsg := out.filterMap Output.frame?

/-- Every frame joined to `st`. -/
def joined (st : TestSendMsg) (rms : List TestSendMsg) : TestSendMsg := rms.foldl (· ⊔ ·) st

section Frames
variable {st : TestSendMsg} {rms : List TestSendMsg}

theorem joined_max : (joined st rms).max = (rms.map (·.max)).foldl max st.max := by
  induction rms generalizing st with
  | nil => rfl
  | cons rm rms ih => exact ih

theorem joined_min : (joined st rms).min = (rms.map (·.min)).foldl min st.min := by
  induction rms generalizing st with
  | nil => rfl
  | cons rm rms ih => exact ih

theorem joined_append (more : List TestSendMsg) :
    joined st (rms ++ more) = joined (joined st rms) more := by
  simp [joined, List.foldl_append]

theorem le_joined : st ≤ joined st rms := by
  induction rms generalizing st with
  | nil => exact le_rfl
  | cons rm rms ih => exact le_sup_left.trans ih

/-- Nothing is added exactly if every frame was known. -/
theorem joined_eq_self_iff : joined st rms = st ↔ ∀ rm ∈ rms, rm ≤ st := by
  induction rms with
  | nil => simp [joined]
  | cons rm rms ih =>
    rw [List.forall_mem_cons, ← ih]
    constructor
    · intro heq
      have hrm : rm ≤ st := (le_sup_right.trans (@le_joined _ rms)).trans heq.le
      refine ⟨hrm, ?_⟩
      change joined (st ⊔ rm) rms = st at heq
      rwa [sup_eq_left.mpr hrm] at heq
    · rintro ⟨hrm, heq⟩
      change joined (st ⊔ rm) rms = st
      rwa [sup_eq_left.mpr hrm]

theorem heardFrames_append (out new : List Output) :
    heardFrames (out ++ new) = heardFrames out ++ heardFrames new :=
  List.filterMap_append

theorem heardFrames_accepted (fs : List Message) : heardFrames (fs.map .accepted) = [] := by
  simp [heardFrames, Output.frame?]

theorem heardFrames_ticking (thd : Word16) (result : Option TestSendMsg) (s : State) :
    heardFrames (ticking thd result s) = [] := by
  cases result <;> rfl

/-- A frame is joined to the status as it is recorded. -/
theorem hears_status (p : Settings) (sent : ErrorT) (msg : Message) (s : State) :
    (hears p sent msg s).1.status = joined s.status (heardFrames (hears p sent msg s).2) := by
  have hframes : heardFrames (hears p sent msg s).2 =
      if msg.length = sizeofTestSendMsg then [msg.payload] else [] := by
    unfold hears arrival
    rw [heardFrames_append, heardFrames_append, heardFrames_accepted]
    split <;> split <;> simp [heardFrames, Output.frame?]
  rw [hframes]
  refine (receive_status p sent msg s).trans ?_
  split <;> rfl

theorem numbered_hears (p : Settings) (sent : ErrorT) (msg : Message) (s : State) (n : Word16) :
    .numbered n ∉ (hears p sent msg s).2 := by
  unfold hears arrival
  simp only [List.mem_append, List.mem_map, not_or]
  refine ⟨⟨?_, ?_⟩, by simp⟩ <;> split <;> simp

end Frames

end WsnContest.Gossip

namespace WsnContest.BiDaXiao
open Tinyos Gossip Lib

/-- Once the node has its number, its status spans the number and all that was heard
since boot. -/
def Remembers (s : State × List Output) : Prop :=
  ∀ n, .numbered n ∈ s.2 →
    s.1.status.max = ((heardFrames s.2).map (·.max)).foldl max n ∧
    s.1.status.min = ((heardFrames s.2).map (·.min)).foldl min n

/-- The number, when it is accepted, spans all that was heard before. -/
def Covering (s : State × List Output) : NodeEvent Event → Prop
  | .own (.serialReceive len rcm) => len = sizeofTestSerialMsg → s.1.serialReceived = false →
      ∀ rm ∈ heardFrames s.2, rm.max ≤ rcm.number ∧ rcm.number ≤ rm.min
  | .own (.startDone _) | .own .milliTimerFired | .own (.sendTimerFired _)
  | .own (.resendTimerFired _) | .own (.sendDone _) | .heard _ _ => True

instance (s : State × List Output) : (e : NodeEvent Event) → Decidable (Covering s e)
  | .own (.serialReceive len rcm) => inferInstanceAs (Decidable
      (len = sizeofTestSerialMsg → s.1.serialReceived = false →
        ∀ rm ∈ heardFrames s.2, rm.max ≤ rcm.number ∧ rcm.number ≤ rm.min))
  | .own (.startDone _) | .own .milliTimerFired | .own (.sendTimerFired _)
  | .own (.resendTimerFired _) | .own (.sendDone _) | .heard _ _ => .isTrue trivial

theorem remembers_iff {s : State × List Output} :
    Remembers s ↔ ∀ n, .numbered n ∈ s.2 → s.1.status = joined ⟨n, n⟩ (heardFrames s.2) := by
  refine forall_congr' fun n => forall_congr' fun _ => ?_
  rw [← @joined_max ⟨n, n⟩, ← @joined_min ⟨n, n⟩]
  constructor
  · rintro ⟨hmax, hmin⟩
    cases hstatus : s.1.status
    rw [hstatus] at hmax hmin
    exact congrArg₂ TestSendMsg.mk hmax hmin
  · intro heq
    rw [heq]
    exact ⟨rfl, rfl⟩

/-- A node without its number has recorded none. -/
structure Known (s : State × List Output) : Prop where
  number : s.1.serialReceived = false → ∀ n, .numbered n ∉ s.2
  remembers : Remembers s

/-- A step either brings the number, or joins what it hears to the status. -/
theorem step_status {p : Settings} {s t : State} {e : NodeEvent Event} {out : List Output}
    (h : nodeStep p s e = some (t, out)) :
    (∃ rcm, e = .own (.serialReceive sizeofTestSerialMsg rcm) ∧ s.serialReceived = false ∧
      t = numbered p rcm s ∧ out = [.numbered rcm.number]) ∨
    (t.status = joined s.status (heardFrames out) ∧ t.serialReceived = s.serialReceived ∧
      (∀ n, .numbered n ∉ out) ∧ ∀ log, Covering (s, log) e) := by
  cases nodeStep_effect h with
  | startDone err =>
    obtain ⟨milliTimer, heq⟩ := startDone_eq err s
    rw [heq]
    exact .inr ⟨rfl, rfl, by simp, fun _ => trivial⟩
  | ticked =>
    obtain ⟨timeCount, stableCount, resultSent, heq⟩ := milliTimerFired_eq p s
    rw [heq, heardFrames_ticking]
    exact .inr ⟨rfl, rfl, by simp [ticking], fun _ => trivial⟩
  | sendTimerFired sent =>
    rw [heardFrames_accepted]
    exact .inr ⟨by simp [joined], by simp, by simp, fun _ => trivial⟩
  | resendTimerFired sent =>
    rw [heardFrames_accepted]
    exact .inr ⟨by simp [joined], by simp, by simp, fun _ => trivial⟩
  | sendDone err =>
    obtain ⟨resendTimer, heq⟩ := sendDone_eq err { s with outstanding := s.outstanding - 1 }
    rw [heq]
    exact .inr ⟨rfl, rfl, by simp, fun _ => trivial⟩
  | numbered rcm hserial => exact .inl ⟨rcm, rfl, hserial, rfl, rfl⟩
  | ignored len rcm hlater =>
    refine .inr ⟨rfl, rfl, by simp, fun _ hlen hserial => ?_⟩
    exact absurd ⟨hlen, hserial⟩ hlater
  | heard sent msg =>
    exact .inr ⟨hears_status p sent msg s, receive_serialReceived p sent msg s,
      numbered_hears p sent msg s, fun _ => trivial⟩

theorem Known.step {p : Settings} {s : State × List Output} (hs : Known s)
    {e : NodeEvent Event} {t : State} {out : List Output}
    (h : nodeStep p s.1 e = some (t, out)) :
    (Covering s e → Known (t, s.2 ++ out)) ∧ (Remembers (t, s.2 ++ out) → Covering s e) := by
  obtain ⟨rcm, rfl, hserial, rfl, rfl⟩ | ⟨hstatus, hserial, hnone, hcovering⟩ := step_status h
  · have hnew : ∀ n, .numbered n ∈ s.2 ++ [Output.numbered rcm.number] → n = rcm.number := by
      intro n hn
      rcases List.mem_append.mp hn with hold | hlast
      · exact absurd hold (hs.number hserial n)
      · exact Output.numbered.inj (List.mem_singleton.mp hlast)
    have hiff : Remembers (numbered p rcm s.1, s.2 ++ [.numbered rcm.number]) ↔
        Covering s (.own (.serialReceive sizeofTestSerialMsg rcm)) := by
      have hframes : heardFrames (s.2 ++ [Output.numbered rcm.number]) = heardFrames s.2 := by
        simp [heardFrames, Output.frame?]
      rw [remembers_iff, hframes]
      constructor
      · intro hall _ _ rm hrm
        have heq := hall rcm.number (by simp)
        exact joined_eq_self_iff.mp heq.symm rm hrm
      · intro hcovering n hn
        rw [hnew n hn]
        exact (joined_eq_self_iff.mpr (hcovering rfl hserial)).symm
    exact ⟨fun hcovering => ⟨nofun, hiff.mpr hcovering⟩, hiff.mp⟩
  · refine ⟨fun _ => ⟨fun hnot n hn => ?_, ?_⟩, fun _ => hcovering s.2⟩
    · rw [hserial] at hnot
      exact (List.mem_append.mp hn).elim (hs.number hnot n) (hnone n)
    · rw [remembers_iff]
      intro n hn
      have hold : .numbered n ∈ s.2 := (List.mem_append.mp hn).resolve_right (hnone n)
      rw [heardFrames_append, joined_append, ← remembers_iff.mp hs.remembers n hold]
      exact hstatus

/-- In every run the status spans the number and all frames ever heard exactly if the
number, when it comes, spans the frames heard before. -/
theorem never_forgets_iff (tosNodeId : Word16) (es : List (NodeEvent Event))
    {s : State × List Output} (hrun : (machine tosNodeId).system.run es = some s) :
    (machine tosNodeId).system.Always Remembers (machine tosNodeId).system.init es ↔
      (machine tosNodeId).system.AllowedFrom Covering (machine tosNodeId).system.init es := by
  have hinit : Known (machine tosNodeId).system.init :=
    ⟨fun _ _ => List.not_mem_nil, fun n hn => nomatch hn⟩
  apply Machine.always_iff_allowedFrom Known (fun _ hs => hs.remembers) ?_ es hinit hrun
  intro s e t out hs he
  exact hs.step he

/-- The number first, and two frames after it. -/
def numberFirst : List (NodeEvent Event) :=
  [.own (.startDone .success), .own (.serialReceive sizeofTestSerialMsg ⟨7, 5⟩),
    .heard .success ⟨sizeofTestSendMsg, ⟨9, 9⟩⟩, .heard .success ⟨sizeofTestSendMsg, ⟨4, 2⟩⟩]

theorem never_forgets_numberFirst :
    (machine 7).system.Always Remembers (machine 7).system.init numberFirst :=
  (never_forgets_iff 7 numberFirst rfl).mpr (by decide)

/-- A frame first: the number 5 takes the place of the 9 that was heard. -/
theorem number_overwrites :
    ∃ s, (machine 7).system.run [.own (.startDone .success),
        .heard .success ⟨sizeofTestSendMsg, ⟨9, 9⟩⟩,
        .own (.serialReceive sizeofTestSerialMsg ⟨7, 5⟩)] = some s ∧
      s.1.status = ⟨5, 5⟩ ∧ ¬ Remembers s := by
  refine ⟨_, rfl, rfl, fun hremembers => ?_⟩
  exact absurd (hremembers 5 (by decide)).1 (by decide)

end WsnContest.BiDaXiao
