import WsnContest.Gossip.Deadline
import WsnContest.Gossip.Silence

/-! The answer of a `BiDaXiao` deployment. Once the gossip has settled the root holds the
extremes of all numbers; what comes later cannot move its status any more, so that its clock
finds the status stable, and it prints them. -/
namespace WsnContest.BiDaXiao
open Tinyos Gossip Lib

/-- What a tick makes of a node with its notes. -/
def ticked (p : Settings) (s : State × List Output) : State × List Output :=
  ((milliTimerFired p s.1).1, s.2 ++ ticking statusStableTimeThdSec (milliTimerFired p s.1).2 s.1)

/-- Since the notes were `out` the status has not changed; the answer is printed, or every
tick but the first has been counted as a stable one. -/
structure Concluding (out : List Output) (answer : TestSendMsg) (s : State × List Output) :
    Prop where
  status : s.1.status = answer
  printed : s.1.resultSent = true → results s.2 = results out ++ [answer]
  waiting : s.1.resultSent = false → results s.2 = results out ∧
    ((ticks s.2).length = (ticks out).length ∨
      s.1.lastStatus = answer ∧
        (ticks s.2).length ≤ (ticks out).length + 1 + s.1.statusStableCount.val ∧
        (ticks s.2).length ≤ (ticks out).length + 15)

section Nodes
variable {p : Settings} {out : List Output} {answer : TestSendMsg} {s : State × List Output}

theorem concluding_self (hsent : s.1.resultSent = false) : Concluding s.2 s.1.status s :=
  ⟨rfl, fun h => absurd (hsent.symm.trans h) Bool.false_ne_true, fun _ => ⟨rfl, .inl rfl⟩⟩

theorem Concluding.keep (h : Concluding out answer s) {t : State} (hstatus : t.status = s.1.status)
    (hlast : t.lastStatus = s.1.lastStatus)
    (hcount : t.statusStableCount = s.1.statusStableCount)
    (hsent : t.resultSent = s.1.resultSent) : Concluding out answer (t, s.2) := by
  refine ⟨hstatus.trans h.status, fun hdone => h.printed (hsent ▸ hdone), fun hnot => ?_⟩
  rw [hlast, hcount]
  exact h.waiting (hsent ▸ hnot)

theorem Concluding.tick (h : Concluding out answer s) (hroot : p.isRoot = true) :
    Concluding out answer (ticked p s) := by
  unfold ticked
  have hunstable : (milliTimerFired p s.1).2 = none → s.1.resultSent = false →
      s.1.statusStableCount < statusStableTimeThdSec := by
    intro hnone hnot
    by_contra hstable
    rw [tick_result hroot (not_lt.mp hstable), hnot] at hnone
    cases hnone
  obtain ⟨_, _, _, heq⟩ := milliTimerFired_eq p s.1
  have hlast : (milliTimerFired p s.1).1.lastStatus = s.1.status := by rw [heq]
  have hstatus : (milliTimerFired p s.1).1.status = s.1.status := by rw [heq]
  have hcount := tick_count (p := p) (s := s.1)
  have htick := milliTimerFired_tick p s.1
  generalize (milliTimerFired p s.1).1 = t at htick hlast hstatus hcount
  generalize (milliTimerFired p s.1).2 = result at htick hunstable
  have hresults : results (s.2 ++ ticking statusStableTimeThdSec result s.1) =
      results s.2 ++ result.toList := by
    rw [results_append, results_ticking]
  have hticks : (ticks (s.2 ++ ticking statusStableTimeThdSec result s.1)).length =
      (ticks s.2).length + 1 := by
    rw [ticks_append, ticks_ticking, List.length_append, List.length_singleton]
  cases htick with
  | other hnot => exact absurd (hnot.symm.trans hroot) Bool.false_ne_true
  | again hold hsent =>
    rw [Option.toList_none, List.append_nil] at hresults
    refine ⟨hstatus.trans h.status, fun _ => hresults.trans (h.printed hold), fun hnot => ?_⟩
    exact absurd (hnot.symm.trans hsent) Bool.false_ne_true
  | prints _ hfirst hsent =>
    rw [(h.waiting hfirst).1] at hresults
    refine ⟨hstatus.trans h.status, fun _ => ?_, fun hnot => ?_⟩
    · rw [hresults, h.status]
      rfl
    · exact absurd (hnot.symm.trans hsent) Bool.false_ne_true
  | waits _ hfirst hsent =>
    rw [Option.toList_none, List.append_nil] at hresults
    obtain ⟨hnone, hwait⟩ := h.waiting hfirst
    have hroom : s.1.statusStableCount.val < 14 := hunstable rfl hfirst
    refine ⟨hstatus.trans h.status, fun hdone => ?_, fun _ => ⟨hresults.trans hnone, .inr ?_⟩⟩
    · exact absurd (hsent.symm.trans hdone) Bool.false_ne_true
    · refine ⟨hlast.trans h.status, ?_⟩
      rw [hticks, hcount]
      rcases hwait with hfew | ⟨hsame, hcounted, hlimit⟩
      · omega
      · have hnext : (s.1.statusStableCount + 1).val = s.1.statusStableCount.val + 1 :=
          Fin.val_add_one_of_lt' (by omega)
        rw [if_pos (hsame.trans h.status.symm), hnext]
        omega

/-- A node that has its number does not touch what its clock goes by, but for the ticks. -/
theorem handle_count {e : Event} {s t : State} {fs : List Message} (he : e ≠ .milliTimerFired)
    (hserial : s.serialReceived = true) (h : handle p e s = some (t, fs)) :
    s.status = t.status ∧ t.lastStatus = s.lastStatus ∧
      t.statusStableCount = s.statusStableCount := by
  obtain ⟨new, hstep⟩ : ∃ new, nodeStep p s (.own e) = some (t, new) :=
    ⟨_, congrArg (Option.map _) h⟩
  cases nodeStep_effect hstep with
  | startDone err =>
    obtain ⟨milliTimer, heq⟩ := startDone_eq err s
    rw [heq]
    exact ⟨rfl, rfl, rfl⟩
  | ticked => exact absurd rfl he
  | sendTimerFired sent =>
    obtain ⟨_, _, _, _, _, heq⟩ := sendStatus_fst p sent { s with sendTimer := none }
    rw [heq]
    exact ⟨rfl, rfl, rfl⟩
  | resendTimerFired sent =>
    obtain ⟨_, _, _, _, _, heq⟩ := sendStatus_fst p sent { s with resendTimer := false }
    rw [heq]
    exact ⟨rfl, rfl, rfl⟩
  | sendDone err =>
    obtain ⟨resendTimer, heq⟩ := sendDone_eq err { s with outstanding := s.outstanding - 1 }
    rw [heq]
    exact ⟨rfl, rfl, rfl⟩
  | numbered rcm hnone => exact absurd (hnone.symm.trans hserial) Bool.false_ne_true
  | ignored len rcm hlater => exact ⟨rfl, rfl, rfl⟩

end Nodes

variable {V : Type} {d : Deployment V}

/-- Nobody who has the extremes of all numbers can learn more. -/
theorem extremes_last {v : V} {status later : TestSendMsg}
    (h : Handout.Extremes d.allNumbers status) (hle : status ≤ later) (hknows : d.Knows v later) :
    later = status := by
  have hall : ∀ n, n ∈ d.heard v → n ∈ d.allNumbers := fun n ⟨w, _, hn⟩ => ⟨w, hn⟩
  have hback : later ≤ status := by
    rw [TestSendMsg.le_def]
    exact ⟨h.1.2 (hall _ hknows.max_heard), h.2.2 (hall _ hknows.min_heard)⟩
  exact le_antisymm hback hle

/-- The nodes of a deployment, with what they print. -/
abbrev Deployment.reported (d : Deployment V) :
    Network V (fun _ => State × List Output) (fun _ => Event) (fun _ => ErrorT) Message :=
  d.net.noting (fun v e s => ownNotes (d.nodeSettings v) e s) fun _ _ _ _ => []

/-- An orderly run, whatever is printed. -/
def Deployment.orderlyReport (d : Deployment V) (G : SimpleGraph V) (c : ReportConfig V)
    (e : NetEvent V) : Prop :=
  d.orderly G c.forget e

/-- The step is no tick; it leaves alone what the clock of a numbered node goes by. -/
structure Waiting (s t : State × List Output) : Prop where
  notes : t.2 = s.2
  resultSent : t.1.resultSent = s.1.resultSent
  numbered : s.1.serialReceived = true → t.1.serialReceived = true ∧ s.1.status ≤ t.1.status ∧
    t.1.lastStatus = s.1.lastStatus ∧ t.1.statusStableCount = s.1.statusStableCount

theorem Waiting.refl (s : State × List Output) : Waiting s s :=
  ⟨rfl, rfl, fun h => ⟨h, le_rfl, rfl, rfl⟩⟩

variable [DecidableEq V] {G : SimpleGraph V} {c c' : ReportConfig V} {e : NetEvent V}

theorem reported_step (v : V) (h : d.reported.system.step c e = some c') :
    c'.node v = ticked (d.nodeSettings v) (c.node v) ∨ Waiting (c.node v) (c'.node v) := by
  obtain ⟨u, e, s, fs, rfl, hhandle, rfl⟩ | ⟨i, u, sent, w, f, rfl, -, rfl⟩ :=
    Network.system_step _ h
  · obtain ⟨⟨t, gs⟩, hrun, hpair⟩ := Option.map_eq_some_iff.mp hhandle
    obtain ⟨rfl, rfl⟩ := Prod.mk.inj hpair
    by_cases hv : v = u
    · subst hv
      rw [c.put_node_self]
      by_cases he : e = .milliTimerFired
      · subst he
        obtain ⟨-, hfired⟩ := Option.ite_none_right_eq_some.mp hrun
        obtain ⟨rfl, rfl⟩ := Prod.mk.inj (Option.some.inj hfired)
        exact .inl rfl
      · have hnone := ownNotes_of_ne (d.nodeSettings v) he (c.node v).1
        refine .inr ⟨(congrArg _ hnone).trans (List.append_nil _), (handle_clock he hrun).2, ?_⟩
        intro hserial
        obtain ⟨hstatus, hlast, hcount⟩ := handle_count he hserial hrun
        exact ⟨(handle_keeps_number hrun hserial).1, hstatus.le, hlast, hcount⟩
    · rw [c.put_node_of_ne _ gs hv]
      exact .inr (.refl _)
  · rw [Network.Config.mark_node]
    by_cases hv : v = u
    · subst hv
      rw [c.put_node_self]
      obtain ⟨_, _, _, _, _, _, _, heq⟩ := receive_fst (d.nodeSettings v) sent f (c.node v).1
      have hmore := le_receive_status (d.nodeSettings v) sent f (c.node v).1
      have hlast : (receive (d.nodeSettings v) sent f (c.node v).1).1.lastStatus =
        (c.node v).1.lastStatus := by rw [heq]
      have hcount : (receive (d.nodeSettings v) sent f (c.node v).1).1.statusStableCount =
        (c.node v).1.statusStableCount := by rw [heq]
      have hsent : (receive (d.nodeSettings v) sent f (c.node v).1).1.resultSent =
        (c.node v).1.resultSent := by rw [heq]
      exact .inr ⟨List.append_nil _, hsent, fun hserial =>
        ⟨(receive_serialReceived ..).trans hserial, hmore, hlast, hcount⟩⟩
    · rw [c.put_node_of_ne _ _ hv]
      exact .inr (.refl _)

/-- A node that has not printed its result has printed none. -/
theorem unprinted_of_reachable {allowed : ReportConfig V → NetEvent V → Prop}
    (h : d.reported.system.Reachable allowed c) (v : V)
    (hnot : (c.node v).1.resultSent = false) : results (c.node v).2 = [] := by
  refine h.invariant (P := fun c : ReportConfig V =>
    (c.node v).1.resultSent = false → results (c.node v).2 = []) (fun _ => rfl) ?_ hnot
  intro c e c' hc _ hstep hlater
  rcases reported_step v hstep with hticked | hwaiting
  · have htick := milliTimerFired_tick (d.nodeSettings v) (c.node v).1
    have hfirst : (milliTimerFired (d.nodeSettings v) (c.node v).1).1.resultSent = false := by
      rwa [hticked] at hlater
    have hresults : results (c'.node v).2 = results (c.node v).2 ++
        (milliTimerFired (d.nodeSettings v) (c.node v).1).2.toList := by
      rw [hticked, ticked, results_append, results_ticking]
    generalize (milliTimerFired (d.nodeSettings v) (c.node v).1).1 = t at htick hfirst
    generalize (milliTimerFired (d.nodeSettings v) (c.node v).1).2 = result at htick hresults
    cases htick with
    | other _ hsent =>
      rw [hresults, hc (hsent.symm.trans hfirst)]
      rfl
    | again _ hsent => exact absurd (hfirst.symm.trans hsent) Bool.false_ne_true
    | prints _ _ hsent => exact absurd (hfirst.symm.trans hsent) Bool.false_ne_true
    | waits _ hunsent =>
      rw [hresults, hc hunsent]
      rfl
  · rw [hwaiting.notes]
    exact hc (hwaiting.resultSent.symm.trans hlater)

/-- From when the root has the answer, every step brings it nearer to print it. -/
theorem concluding_run {out : List Output} {answer : TestSendMsg}
    (hanswer : Handout.Extremes d.allNumbers answer) (es : List (NetEvent V))
    (hreach : d.reported.system.Reachable (d.orderlyReport G) c)
    (hserial : (c.node d.root).1.serialReceived = true)
    (h : Concluding out answer (c.node d.root))
    (hallowed : d.reported.system.AllowedFrom (d.orderlyReport G) c es)
    (hrun : d.reported.system.runFrom c es = some c') : Concluding out answer (c'.node d.root) := by
  induction es generalizing c with
  | nil =>
    cases hrun
    exact h
  | cons e es ih =>
    obtain ⟨b, hstep, hrest⟩ := Option.bind_eq_some_iff.mp hrun
    have hnext := hreach.step hallowed.1 hstep
    rcases reported_step d.root hstep with hticked | hwaiting
    · have hserial' : (b.node d.root).1.serialReceived = true := by
        obtain ⟨_, _, _, heq⟩ := milliTimerFired_eq (d.nodeSettings d.root) (c.node d.root).1
        rw [hticked, ticked, heq]
        exact hserial
      refine ih hnext hserial' ?_ (hallowed.2 b hstep) hrest
      rw [hticked]
      apply h.tick
      rw [← Bool.not_eq_false, d.isRoot_eq_false_iff]
      exact not_not_intro rfl
    · obtain ⟨hserial', hle, hlast, hcount⟩ := hwaiting.numbered hserial
      refine ih hnext hserial' ?_ (hallowed.2 b hstep) hrest
      have hknows := ((sound_of_reachable (Network.noting_reachable hnext)).1 d.root).knows hserial'
      have hstatus := (extremes_last hanswer (h.status ▸ hle) hknows).trans h.status.symm
      have hkeep := h.keep hstatus hlast hcount hwaiting.resultSent
      rwa [← hwaiting.notes] at hkeep

/-- The root prints the extremes of all numbers: if the senders are connected and one of them
announces its number, if all is settled and the root has printed nothing yet, then whatever
comes later, it prints them when its timer fires for the sixteenth time or before, and
nothing else. -/
theorem root_prints_extremes (d : Deployment V) (G : SimpleGraph V)
    (hconnected : (G.induce {v | v ≠ d.root}).Preconnected) (hroot : ∃ v, G.Adj v d.root)
    (hwakeful : d.Wakeful) (hreach : d.reported.system.Reachable (d.orderlyReport G) c)
    (hnumbers : ∀ v, (c.node v).1.serialReceived = true) (hsettled : Settled G c.forget)
    (hopen : (c.node d.root).1.resultSent = false) (es : List (NetEvent V))
    (hallowed : d.reported.system.AllowedFrom (d.orderlyReport G) c es)
    (hrun : d.reported.system.runFrom c es = some c') :
    (results (c'.node d.root).2 = [] ∧
      (ticks (c'.node d.root).2).length < (ticks (c.node d.root).2).length + 16) ∨
    ∃ answer, results (c'.node d.root).2 = [answer] ∧ Handout.Extremes d.allNumbers answer := by
  have hplain := Network.noting_reachable hreach
  have hknows : ∀ v, d.Knows v (c.node v).1.status := fun v =>
    ((sound_of_reachable hplain).1 v).knows (hnumbers v)
  have hloud := all_loud hplain hconnected hnumbers hsettled hwakeful
  have hextremes : Handout.Extremes d.allNumbers (c.node d.root).1.status := by
    refine (Handout.extremes_of_flow hconnected hroot hknows fun u v hu hadj => ?_).2
    refine (told_of_reachable hplain).flow hsettled.1 hu (hnumbers u) ?_ hadj
    rintro (hsend | hsilent)
    · rw [(hsettled.2 u).1] at hsend
      cases hsend
    · exact hsilent (hloud u hu)
  have hconcluding := concluding_run hextremes es hreach (hnumbers d.root)
    (concluding_self hopen) hallowed hrun
  have hnone := unprinted_of_reachable hreach d.root hopen
  cases hsent : (c'.node d.root).1.resultSent with
  | true =>
    refine .inr ⟨_, ?_, hextremes⟩
    rw [hconcluding.printed hsent, hnone]
    rfl
  | false =>
    obtain ⟨hsame, hwait⟩ := hconcluding.waiting hsent
    refine .inl ⟨hsame.trans hnone, ?_⟩
    rcases hwait with hfew | ⟨-, -, hlimit⟩
    · omega
    · omega

/-- The root hears the smaller number and starts its clock only then. -/
theorem root_prints_extremes_spoken : ∃ c : ReportConfig Bool, ∃ answer,
    results (c.node true).2 = [answer] ∧ answer = ⟨0x6001, 5⟩ ∧
      Handout.Extremes spoken.allNumbers answer := by
  have hnumber : ∀ (c : ReportConfig Bool) v, spoken.orderlyReport ⊤ c
      (.act v (.serialReceive sizeofTestSerialMsg ⟨0, spoken.number v⟩)) :=
    fun c v => orderly_serialReceive spoken ⊤ c.forget v
  have hfire : ∀ c, spoken.orderlyReport ⊤ c (.act false (.sendTimerFired .success)) :=
    fun _ => ⟨rfl, fun _ h => nomatch h⟩
  have hdeliver : ∀ (c : ReportConfig Bool) f, (c.node true).1.serialReceived = true →
      c.log[0]? = some (false, f) → spoken.orderlyReport ⊤ c (.deliver 0 true .success) :=
    fun _ f hserial hlog => ⟨rfl, hserial, false, f, hlog, by decide⟩
  have hinit : spoken.reported.system.Reachable (spoken.orderlyReport ⊤) _ := .init
  have hsender := hinit.step (hnumber _ false) rfl
  have hroot := hsender.step (hnumber _ true) rfl
  have htimer := hroot.step (hfire _) rfl
  have hreach := htimer.step (hdeliver _ _ rfl rfl) rfl
  have hclock : ∀ n c, spoken.reported.system.AllowedFrom (spoken.orderlyReport ⊤) c
      (List.replicate n (.act true .milliTimerFired)) := by
    intro n
    induction n with
    | zero => exact fun _ => trivial
    | succ n ih => exact fun c => ⟨⟨trivial, fun _ h => nomatch h⟩, fun c' _ => ih c'⟩
  have hprints := root_prints_extremes spoken ⊤ (senders_preconnected _) ⟨false, by decide⟩
    ⟨false, by decide, by decide⟩ hreach (by decide) ⟨?_, by decide⟩ rfl
    (.act true (.startDone .success) :: List.replicate 16 (.act true .milliTimerFired))
    ⟨⟨trivial, fun _ h => nomatch h⟩, fun c' _ => hclock 16 c'⟩ rfl
  · rcases hprints with ⟨-, hfew⟩ | ⟨answer, hanswer, hextremes⟩
    · exact absurd hfew (by decide)
    · exact ⟨_, answer, hanswer, (List.singleton_inj.mp hanswer).symm, hextremes⟩
  · rintro (_ | i) u f v hlog hadj
    · cases v
      · cases hlog
        exact absurd hadj (by decide)
      · exact List.mem_singleton_self _
    · cases hlog

end WsnContest.BiDaXiao
