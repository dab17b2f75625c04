import WsnContest.Gossip.Provenance
import WsnContest.Gossip.Report
import WsnContest.Lib.Notes

/-! The result of a `BiDaXiao` deployment. Only the root prints one, and only once; the
clock, which stands still on a stable tick, makes it print at its 240th tick at the latest. -/
namespace WsnContest.Gossip
open Tinyos

def Output.result? : Output → Option TestSendMsg
  | .printed result _ => some result
  | .heard _ | .learnt | .accepted _ | .numbered _ | .ticked _ => none

/-- The results printed so far. -/
def results (out : List Output) : List TestSendMsg := out.filterMap Output.result?

theorem results_append (out new : List Output) :
    results (out ++ new) = results out ++ results new := List.filterMap_append

theorem results_ticking (thd : Word16) (result : Option TestSendMsg) (s : State) :
    results (ticking thd result s) = result.toList := by
  cases result <;> rfl

theorem ticks_ticking (thd : Word16) (result : Option TestSendMsg) (s : State) :
    ticks (ticking thd result s) = [s.status] := by
  cases result <;> rfl

end WsnContest.Gossip

namespace WsnContest.BiDaXiao
open Tinyos Gossip Lib

/-- What a tick makes of the clock: the root prints, or it waits and its clock moves on. -/
inductive Tick (p : Settings) (s : State) : State → Option TestSendMsg → Prop
  | other {t : State} (hroot : p.isRoot = false) (hsent : t.resultSent = s.resultSent) :
      Tick p s t none
  | again {t : State} (hold : s.resultSent = true) (hsent : t.resultSent = true) : Tick p s t none
  | prints {t : State} (hroot : p.isRoot = true) (hfirst : s.resultSent = false)
      (hsent : t.resultSent = true) : Tick p s t (some s.status)
  | waits {t : State} (hroot : p.isRoot = true) (hfirst : s.resultSent = false)
      (hsent : t.resultSent = false) (hclock : t.timeCount = s.timeCount + 1)
      (hearly : t.timeCount < endTimeSec) : Tick p s t none

theorem milliTimerFired_tick (p : Settings) (s : State) :
    Tick p s (milliTimerFired p s).1 (milliTimerFired p s).2 := by
  have hsame : (milliTick p statusStableTimeThdSec endTimeSec s).1.resultSent = s.resultSent := by
    unfold milliTick
    dsimp only
    split <;> rfl
  unfold milliTimerFired
  dsimp only
  cases hroot : p.isRoot with
  | false =>
    have hdue : (milliTick p statusStableTimeThdSec endTimeSec s).2 = false := by
      simp [milliTick, hroot]
    rw [hdue]
    exact .other hroot hsame
  | true =>
    cases hfirst : s.resultSent with
    | true =>
      rw [Bool.not_true, Bool.and_false]
      exact .again hfirst (hsame.trans hfirst)
    | false =>
      cases hdue : (milliTick p statusStableTimeThdSec endTimeSec s).2 with
      | true => exact .prints hroot hfirst rfl
      | false =>
        have hclock : ¬ statusStableTimeThdSec ≤ s.statusStableCount ∧
            s.timeCount + 1 < endTimeSec := by
          unfold milliTick at hdue
          by_cases hstable : statusStableTimeThdSec ≤ s.statusStableCount
          · simp [hroot, hstable] at hdue
          · simp only [hroot, hstable, decide_false, Bool.and_true, Bool.false_or,
              Bool.false_eq_true, if_false, decide_eq_false_iff_not, not_le] at hdue
            exact ⟨hstable, hdue⟩
        have htime : (milliTick p statusStableTimeThdSec endTimeSec s).1.timeCount =
            s.timeCount + 1 := by
          unfold milliTick
          simp [hclock.1]
        exact .waits hroot hfirst (hsame.trans hfirst) htime (htime ▸ hclock.2)

/-- What the clock and the results say of each other. -/
structure Punctual (p : Settings) (s : State × List Output) : Prop where
  silent : p.isRoot = false → s.1.resultSent = false ∧ results s.2 = []
  waiting : p.isRoot = true → s.1.resultSent = false →
    results s.2 = [] ∧ s.1.timeCount.val = (ticks s.2).length ∧ s.1.timeCount < endTimeSec
  done : s.1.resultSent = true → (results s.2).length = 1
  seen : ∀ result ∈ results s.2, result ∈ ticks s.2

section Nodes
variable {p : Settings} {s : State × List Output} {t : State}

theorem Punctual.keep (h : Punctual p s) (hclock : t.timeCount = s.1.timeCount)
    (hsent : t.resultSent = s.1.resultSent) : Punctual p (t, s.2) := by
  refine ⟨fun hroot => ?_, fun hroot hnot => ?_, fun hdone => h.done (hsent ▸ hdone), h.seen⟩
  · exact ⟨hsent.trans (h.silent hroot).1, (h.silent hroot).2⟩
  · rw [hclock]
    exact h.waiting hroot (hsent ▸ hnot)

theorem Punctual.tick (h : Punctual p s) :
    Punctual p ((milliTimerFired p s.1).1,
      s.2 ++ ticking statusStableTimeThdSec (milliTimerFired p s.1).2 s.1) := by
  have htick := milliTimerFired_tick p s.1
  generalize (milliTimerFired p s.1).1 = t at htick
  generalize (milliTimerFired p s.1).2 = result at htick
  have hresults : results (s.2 ++ ticking statusStableTimeThdSec result s.1) =
      results s.2 ++ result.toList := by
    rw [results_append, results_ticking]
  have hticks : ticks (s.2 ++ ticking statusStableTimeThdSec result s.1) =
      ticks s.2 ++ [s.1.status] := by
    rw [ticks_append, ticks_ticking]
  have hseen : ∀ r ∈ results s.2, r ∈ ticks s.2 ++ [s.1.status] :=
    fun r hr => List.mem_append_left _ (h.seen r hr)
  cases htick with
  | other hroot hsent =>
    rw [Option.toList_none, List.append_nil] at hresults
    refine ⟨fun _ => ?_, fun hyes => ?_, fun hdone => ?_, ?_⟩
    · exact ⟨hsent.trans (h.silent hroot).1, hresults.trans (h.silent hroot).2⟩
    · exact absurd (hroot.symm.trans hyes) Bool.false_ne_true
    · exact absurd ((h.silent hroot).1.symm.trans (hsent.symm.trans hdone)) Bool.false_ne_true
    · rwa [hresults, hticks]
  | again hold hsent =>
    rw [Option.toList_none, List.append_nil] at hresults
    refine ⟨fun hroot => ?_, fun _ hnot => ?_, fun _ => ?_, ?_⟩
    · exact absurd ((h.silent hroot).1.symm.trans hold) Bool.false_ne_true
    · exact absurd (hnot.symm.trans hsent) Bool.false_ne_true
    · exact hresults ▸ h.done hold
    · rwa [hresults, hticks]
  | prints hroot hfirst hsent =>
    rw [(h.waiting hroot hfirst).1] at hresults
    refine ⟨fun hno => ?_, fun _ hnot => ?_, fun _ => ?_, fun r hr => ?_⟩
    · exact absurd (hno.symm.trans hroot) Bool.false_ne_true
    · exact absurd (hnot.symm.trans hsent) Bool.false_ne_true
    · rw [hresults]
      rfl
    · rw [hresults] at hr
      rw [hticks]
      exact List.mem_append_right _ hr
  | waits hroot hfirst hsent hclock hearly =>
    rw [Option.toList_none, List.append_nil] at hresults
    obtain ⟨hnone, hcount, hlimit⟩ := h.waiting hroot hfirst
    have hroom : s.1.timeCount.val < 240 := hlimit
    have hnext : (s.1.timeCount + 1).val = s.1.timeCount.val + 1 :=
      Fin.val_add_one_of_lt' (by omega)
    refine ⟨fun hno => ?_, fun _ _ => ?_, fun hdone => ?_, ?_⟩
    · exact absurd (hno.symm.trans hroot) Bool.false_ne_true
    · refine ⟨hresults.trans hnone, ?_, hearly⟩
      rw [hticks, hclock, hnext, hcount, List.length_append, List.length_singleton]
    · exact absurd (hsent.symm.trans hdone) Bool.false_ne_true
    · rwa [hresults, hticks]

/-- Of the handlers only the tick touches the clock and the result. -/
theorem handle_clock {e : Event} {s t : State} {fs : List Message} (he : e ≠ .milliTimerFired)
    (h : handle p e s = some (t, fs)) :
    t.timeCount = s.timeCount ∧ t.resultSent = s.resultSent := by
  obtain ⟨out, hstep⟩ : ∃ out, nodeStep p s (.own e) = some (t, out) :=
    ⟨_, congrArg (Option.map _) h⟩
  cases nodeStep_effect hstep with
  | startDone err =>
    obtain ⟨milliTimer, heq⟩ := startDone_eq err s
    rw [heq]
    exact ⟨rfl, rfl⟩
  | ticked => exact absurd rfl he
  | sendTimerFired sent =>
    obtain ⟨_, _, _, _, _, heq⟩ := sendStatus_fst p sent { s with sendTimer := none }
    rw [heq]
    exact ⟨rfl, rfl⟩
  | resendTimerFired sent =>
    obtain ⟨_, _, _, _, _, heq⟩ := sendStatus_fst p sent { s with resendTimer := false }
    rw [heq]
    exact ⟨rfl, rfl⟩
  | sendDone err =>
    obtain ⟨resendTimer, heq⟩ := sendDone_eq err { s with outstanding := s.outstanding - 1 }
    rw [heq]
    exact ⟨rfl, rfl⟩
  | numbered rcm hserial => exact ⟨rfl, rfl⟩
  | ignored len rcm hlater => exact ⟨rfl, rfl⟩

end Nodes

/-- What a node notes of its own events: its ticks, and what they print. -/
def ownNotes (p : Settings) : Event → State → List Output
  | .milliTimerFired, s => ticking statusStableTimeThdSec (milliTimerFired p s).2 s
  | .startDone _, _ | .sendTimerFired _, _ | .resendTimerFired _, _ | .sendDone _, _
  | .serialReceive .., _ => []

theorem ownNotes_of_ne (p : Settings) {e : Event} (he : e ≠ .milliTimerFired) (s : State) :
    ownNotes p e s = [] := by
  cases e with
  | milliTimerFired => exact absurd rfl he
  | _ => rfl

def tickNotes (p : Settings) : AirEvent → State → List Output
  | .node e, s => ownNotes p e s
  | .transmit, _ | .foreign _, _ => []

/-- The nodes around their radio, with what they print. -/
def reporting {V : Type} (tosNodeId : V → Word16) :
    Network V (fun _ => State × List Output) (fun _ => AirEvent) (fun _ => ErrorT) Message :=
  (airNetwork tosNodeId).noting (fun v e s => tickNotes (settings (tosNodeId v)) e s)
    fun _ _ _ _ => []

section Network
variable {V : Type} [DecidableEq V] {tosNodeId : V → Word16}

abbrev ReportConfig (V : Type) := Network.Config (fun _ : V => State × List Output) Message

/-- A step ticks at one node or leaves the clocks and the notes alone. -/
theorem reporting_step {c c' : ReportConfig V} {e : Network.Event _ _}
    (h : (reporting tosNodeId).system.step c e = some c') :
    ∃ v, (∀ w, w ≠ v → c'.node w = c.node w) ∧
      (c'.node v = ((milliTimerFired (settings (tosNodeId v)) (c.node v).1).1,
        (c.node v).2 ++ ticking statusStableTimeThdSec
          (milliTimerFired (settings (tosNodeId v)) (c.node v).1).2 (c.node v).1) ∨
      (c'.node v).2 = (c.node v).2 ∧ (c'.node v).1.timeCount = (c.node v).1.timeCount ∧
        (c'.node v).1.resultSent = (c.node v).1.resultSent) := by
  obtain ⟨v, e, s, fs, rfl, hhandle, rfl⟩ | ⟨i, v, sent, u, f, rfl, -, rfl⟩ :=
    Network.system_step _ h
  · refine ⟨v, fun w hw => c.put_node_of_ne s fs hw, ?_⟩
    rw [c.put_node_self]
    obtain ⟨⟨t, gs⟩, hair, hpair⟩ := Option.map_eq_some_iff.mp hhandle
    obtain ⟨rfl, rfl⟩ := Prod.mk.inj hpair
    cases e with
    | node e =>
      obtain ⟨r, hrun, hpair⟩ := Option.map_eq_some_iff.mp hair
      obtain ⟨rfl, rfl⟩ := Prod.mk.inj hpair
      by_cases he : e = .milliTimerFired
      · subst he
        obtain ⟨-, hfired⟩ := Option.ite_none_right_eq_some.mp hrun
        obtain rfl := Option.some.inj hfired
        exact .inl rfl
      · have hnone := ownNotes_of_ne (settings (tosNodeId v)) he (c.node v).1
        exact .inr ⟨(congrArg _ hnone).trans (List.append_nil _), handle_clock he hrun⟩
    | transmit =>
      obtain ⟨-, hsame⟩ := Option.ite_none_right_eq_some.mp hair
      obtain ⟨rfl, -⟩ := Prod.mk.inj (Option.some.inj hsame)
      exact .inr ⟨List.append_nil _, rfl, rfl⟩
    | foreign msg =>
      obtain ⟨-, hsame⟩ := Option.ite_none_right_eq_some.mp hair
      obtain ⟨rfl, -⟩ := Prod.mk.inj (Option.some.inj hsame)
      exact .inr ⟨List.append_nil _, rfl, rfl⟩
  · refine ⟨v, fun w hw => c.put_node_of_ne _ [] hw, .inr ?_⟩
    rw [Network.Config.mark_node, c.put_node_self]
    obtain ⟨_, _, _, _, _, _, _, heq⟩ := receive_fst (settings (tosNodeId v)) sent f (c.node v).1
    refine ⟨List.append_nil _, ?_⟩
    change (receive _ sent f (c.node v).1).1.timeCount = _ ∧
      (receive _ sent f (c.node v).1).1.resultSent = _
    rw [heq]
    exact ⟨rfl, rfl⟩

theorem punctual_of_reachable {c : ReportConfig V}
    (h : (reporting tosNodeId).system.Reachable System.anyStep c) (v : V) :
    Punctual (settings (tosNodeId v)) (c.node v) := by
  have hzero : (0 : Word16) < endTimeSec := by decide
  refine h.invariant (P := fun c => ∀ v, Punctual (settings (tosNodeId v)) (c.node v)) ?_ ?_ v
  · exact fun _ => ⟨fun _ => ⟨rfl, rfl⟩, fun _ _ => ⟨rfl, rfl, hzero⟩, nofun, nofun⟩
  · intro c e c' hc _ hstep w
    obtain ⟨v, hother, hmoved⟩ := reporting_step hstep
    by_cases hw : w = v
    · subst hw
      obtain hticked | ⟨hnotes, hclock, hsent⟩ := hmoved
      · rw [hticked]
        exact (hc w).tick
      · have hkeep := (hc w).keep hclock hsent
        rwa [← hnotes] at hkeep
    · rw [hother w hw]
      exact hc w

/-- A handler leaves number and status alone or makes the number the status. -/
theorem airHandle_status {p : Settings} {e : AirEvent} {s t : State} {fs : List Message}
    (h : airHandle p e s = some (t, fs)) :
    (s.serialReceived = true → t.serialReceived = true ∧ t.selfNumber = s.selfNumber) ∧
    (t.status = s.status ∨
      t.serialReceived = true ∧ t.status = ⟨t.selfNumber, t.selfNumber⟩) := by
  cases e with
  | node e =>
    obtain ⟨r, hrun, hpair⟩ := Option.map_eq_some_iff.mp h
    obtain ⟨rfl, rfl⟩ := Prod.mk.inj hpair
    refine ⟨handle_keeps_number hrun, ?_⟩
    obtain ⟨rcm, -, -, hnumbered, -⟩ | ⟨sent, u, -, hfired, hsent, -⟩ | ⟨-, hsame⟩ :=
      handle_cases hrun
    · rw [hnumbered]
      exact .inr ⟨rfl, rfl⟩
    · rw [hsent, sendStatus_status]
      exact .inl hfired.status
    · exact .inl hsame.status
  | transmit =>
    obtain ⟨-, hsame⟩ := Option.ite_none_right_eq_some.mp h
    obtain ⟨rfl, -⟩ := Prod.mk.inj (Option.some.inj hsame)
    exact ⟨fun hserial => ⟨hserial, rfl⟩, .inl rfl⟩
  | foreign msg =>
    obtain ⟨-, hsame⟩ := Option.ite_none_right_eq_some.mp h
    obtain ⟨rfl, -⟩ := Prod.mk.inj (Option.some.inj hsame)
    exact ⟨fun hserial => ⟨hserial, rfl⟩, .inl rfl⟩

/-- What a node without a number holds may also be the zero its memory starts with. -/
structure Sourced (c : AirConfig V) : Prop where
  base : NothingInvented c
  status : ∀ v, Within (insert 0 (handed c)) (c.node v).status

theorem Within.mono {numbers more : Set Word16} {m : TestSendMsg}
    (h : Within numbers m) (hle : numbers ⊆ more) : Within more m := ⟨hle h.1, hle h.2⟩

/-- The numbers handed out stay, and the statuses keep to them. -/
theorem Sourced.step {c c' : AirConfig V} {e : Network.Event _ _} (h : Sourced c)
    (hstep : (airNetwork tosNodeId).system.step c e = some c') :
    handed c ⊆ handed c' ∧ Sourced c' := by
  have hbase := nothing_invented_step h.base hstep
  have hput : ∀ v (s : State) (fs : List Message),
      ((c.node v).serialReceived = true →
        s.serialReceived = true ∧ s.selfNumber = (c.node v).selfNumber) →
      Within (insert 0 (handed (c.put v s fs))) s.status →
      handed c ⊆ handed (c.put v s fs) ∧
        ∀ w, Within (insert 0 (handed (c.put v s fs))) ((c.put v s fs).node w).status := by
    intro v s fs hkeeps hs
    have hmono : handed c ⊆ handed (c.put v s fs) := handed_put hkeeps
    refine ⟨hmono, Network.Config.forall_put_node
      (P := fun _ (t : State) => Within (insert 0 (handed (c.put v s fs))) t.status) hs ?_ fs⟩
    exact fun w _ => (h.status w).mono (Set.insert_subset_insert hmono)
  obtain ⟨v, e, s, fs, rfl, hhandle, rfl⟩ | ⟨i, v, sent, u, msg, rfl, hi, rfl⟩ :=
    Network.system_step _ hstep
  · obtain ⟨hkeeps, hstatus⟩ := airHandle_status hhandle
    have hwithin : Within (insert 0 (handed (c.put v s fs))) s.status := by
      rcases hstatus with hsame | ⟨hserial, hown⟩
      · rw [hsame]
        exact (h.status v).mono (Set.insert_subset_insert (handed_put hkeeps))
      · have hmem : s.selfNumber ∈ handed (c.put v s fs) :=
          ⟨v, by rwa [c.put_node_self], by rw [c.put_node_self]⟩
        rw [hown]
        exact ⟨.inr hmem, .inr hmem⟩
    obtain ⟨hmono, hall⟩ := hput v s fs hkeeps hwithin
    exact ⟨hmono, hbase, hall⟩
  · set s := (receive (settings (tosNodeId v)) sent msg (c.node v)).1 with hs
    have hkeeps : (c.node v).serialReceived = true →
        s.serialReceived = true ∧ s.selfNumber = (c.node v).selfNumber := fun hserial =>
      ⟨(receive_serialReceived ..).trans hserial, receive_selfNumber ..⟩
    have hstatus : Within (insert 0 (handed c)) s.status := by
      rw [hs, receive_status]
      split
      · next hlen =>
        have hmsg := h.base.log u msg (List.mem_of_getElem? hi) hlen
        exact (h.status v).sup (hmsg.mono (Set.subset_insert _ _))
      · exact h.status v
    obtain ⟨hmono, hall⟩ := hput v s [] hkeeps
      (hstatus.mono (Set.insert_subset_insert (handed_put hkeeps)))
    exact ⟨hmono, hbase, hall⟩

/-- Every status a node has had at a tick holds zero or numbers that were handed out. -/
theorem ticked_of_reachable {c : ReportConfig V}
    (h : (reporting tosNodeId).system.Reachable System.anyStep c) :
    Sourced c.forget ∧
      ∀ v, ∀ status ∈ ticks (c.node v).2, Within (insert 0 (handed c.forget)) status := by
  refine h.invariant (P := fun c : ReportConfig V => Sourced c.forget ∧
    ∀ v, ∀ status ∈ ticks (c.node v).2, Within (insert 0 (handed c.forget)) status) ?_ ?_
  · refine ⟨⟨⟨fun _ => honest_init, nofun⟩, fun _ => ?_⟩, fun _ _ => nofun⟩
    exact ⟨.inl rfl, .inl rfl⟩
  · rintro c e c' ⟨hsourced, hticked⟩ _ hstep
    have hforget : (airNetwork tosNodeId).system.step c.forget e = some c'.forget := by
      rw [← Network.noting_step]
      exact congrArg (Option.map _) hstep
    obtain ⟨hmono, hafter⟩ := hsourced.step hforget
    have hgrow : insert 0 (handed c.forget) ⊆ insert 0 (handed c'.forget) :=
      Set.insert_subset_insert hmono
    refine ⟨hafter, fun w status hstatus => ?_⟩
    obtain ⟨v, hother, hmoved⟩ := reporting_step hstep
    by_cases hw : w = v
    · subst hw
      obtain hticking | ⟨hnotes, -, -⟩ := hmoved
      · rw [hticking, ticks_append, ticks_ticking] at hstatus
        rcases List.mem_append.mp hstatus with hold | hnew
        · exact (hticked w status hold).mono hgrow
        · rw [List.mem_singleton.mp hnew]
          exact (hsourced.status w).mono hgrow
      · rw [hnotes] at hstatus
        exact (hticked w status hstatus).mono hgrow
    · rw [hother w hw] at hstatus
      exact (hticked w status hstatus).mono hgrow

/-- Whatever the radio loses, repeats or overwrites: only node 0 prints, at most once and
at the latest when its timer fires for the 240th time. The result is the status it has at a
tick then, and both numbers in it are zero or were handed to some node. -/
theorem root_reports_once (tosNodeId : V → Word16) (c : ReportConfig V)
    (h : (reporting tosNodeId).system.Reachable System.anyStep c) (v : V) :
    (tosNodeId v ≠ 0 → results (c.node v).2 = []) ∧
    (results (c.node v).2).length ≤ 1 ∧
    (tosNodeId v = 0 → 240 ≤ (ticks (c.node v).2).length → (results (c.node v).2).length = 1) ∧
    ∀ result ∈ results (c.node v).2, result ∈ ticks (c.node v).2 ∧
      (result.max = 0 ∨ result.max ∈ handed c.forget) ∧
      (result.min = 0 ∨ result.min ∈ handed c.forget) := by
  have hpunctual := punctual_of_reachable h v
  have hticked := (ticked_of_reachable h).2 v
  have hroot : (settings (tosNodeId v)).isRoot = decide (tosNodeId v = 0) := rfl
  refine ⟨fun hnot => ?_, ?_, fun hyes hlate => ?_, fun result hresult => ?_⟩
  · exact (hpunctual.silent (hroot.trans (decide_eq_false hnot))).2
  · cases hsent : (c.node v).1.resultSent with
    | true => exact (hpunctual.done hsent).le
    | false =>
      have hnone : results (c.node v).2 = [] := by
        cases hkind : (settings (tosNodeId v)).isRoot with
        | true => exact (hpunctual.waiting hkind hsent).1
        | false => exact (hpunctual.silent hkind).2
      rw [hnone]
      exact Nat.zero_le 1
  · cases hsent : (c.node v).1.resultSent with
    | true => exact hpunctual.done hsent
    | false =>
      obtain ⟨-, hcount, hlimit⟩ := hpunctual.waiting (hroot.trans (decide_eq_true hyes)) hsent
      have hearly : (c.node v).1.timeCount.val < 240 := hlimit
      omega
  · have hseen := hpunctual.seen result hresult
    exact ⟨hseen, hticked result hseen⟩

/-- The root is never handed a number; it hears the one of the other node and then nothing. -/
theorem root_reports_once_pair : ∃ c : ReportConfig Bool,
    results (c.node true).2 = [] ∧ results (c.node false).2 = [⟨5, 0⟩] ∧
      ∀ result ∈ results (c.node false).2, result ∈ ticks (c.node false).2 ∧
        (result.max = 0 ∨ result.max ∈ handed c.forget) := by
  let es : List (Network.Event (fun _ : Bool => AirEvent) (fun _ => ErrorT)) :=
    [.act false (.node (.startDone .success)),
      .act true (.node (.serialReceive sizeofTestSerialMsg ⟨0, 5⟩)),
      .act true (.node (.sendTimerFired .success)), .act true .transmit,
      .deliver 0 false .success] ++ List.replicate 20 (.act false (.node .milliTimerFired))
  have hlate := (reporting fun v : Bool => if v then 1 else 0).system.reachable_of_run es
    (System.allowedFrom_any _ _ es) rfl
  have hroot := root_reports_once _ _ hlate false
  have hother := root_reports_once _ _ hlate true
  exact ⟨_, hother.1 (by decide), rfl, fun result hresult =>
    ⟨(hroot.2.2.2 result hresult).1, (hroot.2.2.2 result hresult).2.1⟩⟩

end Network

end WsnContest.BiDaXiao
