import Mathlib.Combinatorics.SimpleGraph.Basic
import Mathlib.Data.Fin.VecNotation
import Mathlib.Data.Fintype.Card
import WsnContest.Routing.Convergence
import WsnContest.Routing.Poll

/-! The control frames of the election. A node announces itself once, but a potential
speaker passes on every control frame it hears, its own name too: two of them in range of
each other never stop, and without such a pair nothing is passed on. -/
namespace WsnContest.ElectionFlood
open Tinyos Lib Routing

section Lock
variable {tos : Word16} {s : State}

theorem announce_lock (tos : Word16) (s : State) (sent : ErrorT) :
    ((announce tos sent s).1.locked = s.locked ∧ (announce tos sent s).2 = []) ∨
      (s.locked = false ∧ (announce tos sent s).1.locked = true) := by
  have hlocked : ({ s with type := .psp }.mark tos).locked = s.locked := locked_mark ..
  unfold announce
  dsimp only
  split
  · next hfree =>
    split
    · right
      rw [Bool.and_eq_true] at hfree
      refine ⟨?_, rfl⟩
      rw [← hlocked]
      simpa [State.fill] using hfree.2
    · exact .inl ⟨hlocked, rfl⟩
  · exact .inl ⟨hlocked, rfl⟩

theorem forward_locked (tos destination : Word16) (bm : BeaconMsg) (sent : ErrorT) (s : State) :
    (forward tos destination bm sent s).1.locked = s.locked := by
  obtain ⟨packet, busy, pending, heq⟩ := forward_eq tos s destination bm sent
  rw [heq]

theorem report_locked (tos source destination : Word16) (bm : BeaconMsg) (s : State) :
    (report tos source destination bm s).locked = s.locked := by
  obtain ⟨recvData, heq⟩ := report_eq tos s source destination bm
  rw [heq]

theorem controlReceive_locked (tos : Word16) (len : Word8) (cm : ControlMsg) (ans : Answers)
    (s : State) : (controlReceive tos len cm ans s).1.locked = s.locked := by
  by_cases hlen : len = sizeofControlMsg
  · subst hlen
    obtain ⟨packet, busy, pending, heq⟩ := controlReceive_eq tos s cm ans
    rw [heq]
    exact locked_mark ..
  · rw [controlReceive, if_neg hlen]

theorem routeReceive_locked (len : Word8) (rm : RouteMsg) (ans : Answers) (s : State) :
    (routeReceive len rm ans s).locked = s.locked := by
  by_cases hlen : len = sizeofRouteMsg
  · subst hlen
    rw [routeReceive_eq]
  · rw [routeReceive, if_neg (fun h => hlen h.1)]

/-- A node announces itself with `locked` set from then on, and otherwise sends a control
frame only in answer to one. -/
theorem hear_lock (tos : Word16) (ans : Answers) (f : Frame) (s : State) :
    ((hear tos ans f s).1.locked = s.locked ∧ ∀ g ∈ (hear tos ans f s).2,
        g.controlMsg ≠ none → f.controlMsg ≠ none ∧ s.type = .psp) ∨
      (s.locked = false ∧ (hear tos ans f s).1.locked = true) := by
  obtain ⟨source, destination, len, payload⟩ := f
  by_cases htaken : s.Takes tos ⟨source, destination, len, payload⟩
  · rw [hear_of_takes htaken]
    cases payload with
    | beacon bm =>
      have hforward : ∀ u, ∀ g ∈ (forward tos destination bm ans.dataSent u).2,
          g.controlMsg = none := by
        intro u g hg
        rw [forward_frames tos u destination bm ans.dataSent g hg]
        rfl
      have hlocked : (dataReceive tos source destination len bm ans s).1.locked =
          (spread tos destination len bm ans s).1.locked := report_locked ..
      dsimp only
      rw [hlocked, dataReceive_snd]
      by_cases hlen : len = sizeofBeaconMsg
      · subst hlen
        by_cases hdest : destination = broadcastAddr
        · subst hdest
          rw [spread_broadcast]
          dsimp only
          rw [forward_locked]
          rcases announce_lock tos s ans.controlSent with ⟨hsame, hnone⟩ | hset
          · refine .inl ⟨hsame, fun g hg hcontrol => ?_⟩
            rw [hnone, List.nil_append] at hg
            exact absurd (hforward _ g hg) hcontrol
          · exact .inr hset
        · rw [spread_unicast hdest]
          exact .inl ⟨forward_locked .., fun g hg hcontrol => absurd (hforward s g hg) hcontrol⟩
      · rw [spread_malformed hlen]
        exact .inl ⟨rfl, by simp⟩
    | control cm =>
      refine .inl ⟨controlReceive_locked tos len cm ans s, fun g hg _ => ?_⟩
      exact ⟨by simp [Frame.controlMsg], (controlReceive_frames tos s len cm ans g hg).1⟩
    | route rm => exact .inl ⟨routeReceive_locked len rm ans s, by simp⟩
  · rw [hear_of_not_takes htaken]
    exact .inl ⟨rfl, by simp⟩

/-- By itself a node sends no other control frame. -/
theorem handle_lock {e : Event} {t : State} {fs : List Frame}
    (h : handle tos e s = some (t, fs)) :
    (t.locked = s.locked ∧ ∀ g ∈ fs, g.controlMsg = none) ∨
      (s.locked = false ∧ t.locked = true) := by
  cases handle_dispatch h with
  | booted =>
    obtain ⟨type, radio, heq⟩ := booted_eq tos s
    rw [heq]
    exact .inl ⟨rfl, by simp⟩
  | @startDone err =>
    obtain ⟨radio, timer0, heq⟩ := startDone_eq err s
    rw [heq]
    exact .inl ⟨rfl, by simp⟩
  | @timer0Fired sent _ _ _ hrun =>
    have hframes := timer0Fired_frames tos sent { s with timer0 := none }
    obtain ⟨packet, busy, curId, cnt, timer0, pending, heq⟩ :=
      timer0Fired_eq tos { s with timer0 := none } sent
    rw [hrun] at heq hframes
    obtain rfl := heq
    refine .inl ⟨rfl, fun g hg => ?_⟩
    obtain ⟨rm, rfl⟩ := hframes g hg
    rfl
  | @timer1Fired sent _ _ _ hrun =>
    have hframes := timer1Fired_frames tos sent { s with timer1 := none }
    obtain ⟨packet, pending, heq⟩ := timer1Fired_eq tos { s with timer1 := none } sent
    rw [hrun] at heq hframes
    obtain rfl := heq
    refine .inl ⟨rfl, fun g hg => ?_⟩
    obtain ⟨rm, rfl⟩ := hframes g hg
    rfl
  | sendDone => exact .inl ⟨rfl, by simp⟩
  | @sourceData source destination len bm ans _ _ hhear =>
    have hlock := hear_lock tos ans ⟨source, destination, len, .beacon bm⟩ s
    rw [hhear] at hlock
    refine hlock.imp_left fun hsame => ⟨hsame.1, fun g hg => ?_⟩
    by_contra hcontrol
    exact (hsame.2 g hg hcontrol).1 rfl

/-- The radio is on, and nothing was sent yet. -/
structure Listening (s : State) : Prop where
  radio : s.radio = .on
  busy : s.busy = false
  locked : s.locked = false

/-- A potential speaker that could send. -/
structure Idle (s : State) : Prop where
  radio : s.radio = .on
  type : s.type = .psp
  busy : s.busy = false

/-- A potential speaker whose control frame is out. -/
structure Speaking (s : State) : Prop where
  radio : s.radio = .on
  type : s.type = .psp
  pending : s.pending = [.control]

theorem Listening.of_boot (tos : Word16) :
    ∃ t u, handle tos .booted {} = some (t, []) ∧ t.pending = [] ∧
      handle tos (.startDone .success) t = some (u, []) ∧ Listening u ∧ u.pending = [] := by
  by_cases htos : tos = recvNodeId
  · exact ⟨{ radio := .starting, type := .dst }, { radio := .on, type := .dst, timer0 := some 100 },
      by simp [handle, booted, htos], rfl, by simp [handle, startDone], ⟨rfl, rfl, rfl⟩, rfl⟩
  · exact ⟨{ radio := .starting }, { radio := .on }, by simp [handle, booted, htos], rfl,
      by simp [handle, startDone], ⟨rfl, rfl, rfl⟩, rfl⟩

/-- A source broadcasts a data frame. -/
def call : Event := .sourceData 100 broadcastAddr sizeofBeaconMsg sample granting

theorem mark_speaking (i : Word16) :
    (s.mark i).radio = s.radio ∧ (s.mark i).pending = s.pending := by
  obtain ⟨isPSP, strays, heq⟩ := mark_eq s i
  rw [heq]
  exact ⟨rfl, rfl⟩

theorem announce_accepted (h : Listening s) (hpending : s.pending = []) (tos : Word16) :
    ∃ t, announce tos .success s =
      (t, [airedBy tos broadcastAddr (.control ⟨tos, s.curMetric⟩)]) ∧ Speaking t ∧
      t.locked = true ∧ t.busy = true := by
  have hmark := @mark_speaking { s with type := .psp } tos
  have hbusy : ({ s with type := .psp }.mark tos).busy = false := (busy_mark ..).trans h.busy
  have hlocked : ({ s with type := .psp }.mark tos).locked = false :=
    (locked_mark ..).trans h.locked
  have htype : ({ s with type := .psp }.mark tos).type = .psp := type_mark ..
  have hmetric : ({ s with type := .psp }.mark tos).curMetric = s.curMetric := curMetric_mark ..
  unfold announce
  dsimp only
  generalize { s with type := NodeType.psp }.mark tos = m at hmark hbusy hlocked htype hmetric ⊢
  have hfree : (!(m.fill (.control ⟨tos, m.curMetric⟩)).busy &&
      !(m.fill (.control ⟨tos, m.curMetric⟩)).locked) = true := by
    simp [State.fill, hbusy, hlocked]
  rw [if_pos hfree, if_pos rfl, hmetric]
  refine ⟨_, rfl, ⟨hmark.1.trans h.radio, htype, ?_⟩, rfl, rfl⟩
  exact congrArg (AmId.control :: ·) (hmark.2.trans hpending)

theorem forward_busy (hbusy : s.busy = true) (tos destination : Word16) (bm : BeaconMsg)
    (sent : ErrorT) : forward tos destination bm sent s = (s.fill (.beacon bm), []) := by
  simp [forward, hbusy]

theorem Listening.announces (h : Listening s) (hpending : s.pending = []) (tos : Word16) :
    ∃ t, handle tos call s =
      some (t, [airedBy tos broadcastAddr (.control ⟨tos, s.curMetric⟩)]) ∧ Speaking t ∧
      t.locked = true := by
  obtain ⟨t, hannounce, hspeaking, hlocked, hbusy⟩ := announce_accepted h hpending tos
  have htaken : s.Takes tos ⟨100, broadcastAddr, sizeofBeaconMsg, .beacon sample⟩ :=
    ⟨h.radio, .inr rfl⟩
  have hspread : spread tos broadcastAddr sizeofBeaconMsg sample granting s =
      (t.fill (.beacon sample), [airedBy tos broadcastAddr (.control ⟨tos, s.curMetric⟩)]) := by
    have hsent : granting.controlSent = .success := rfl
    rw [spread_broadcast, hsent, hannounce, forward_busy hbusy]
    rfl
  have hreport : report tos 100 broadcastAddr sample (t.fill (.beacon sample)) =
      t.fill (.beacon sample) := by
    have htype : (t.fill (.beacon sample)).type = .psp := hspeaking.type
    simp [report, htype]
  refine ⟨t.fill (.beacon sample), ?_, ⟨hspeaking.radio, hspeaking.type, hspeaking.pending⟩,
    hlocked⟩
  have hhandle : handle tos call s =
    some (hear tos granting ⟨100, broadcastAddr, sizeofBeaconMsg, .beacon sample⟩ s) := rfl
  rw [hhandle, hear_of_takes htaken]
  dsimp only [dataReceive]
  rw [hspread, hreport]

theorem Idle.relays (h : Idle s) (hpending : s.pending = []) (tos source : Word16)
    (cm : ControlMsg) :
    ∃ t, hear tos granting (airedBy source broadcastAddr (.control cm)) s =
      (t, [airedBy tos broadcastAddr (.control cm)]) ∧ Speaking t := by
  have htaken : s.Takes tos (airedBy source broadcastAddr (.control cm)) := ⟨h.radio, .inr rfl⟩
  obtain ⟨hradio, hkept⟩ := mark_speaking (s := s) cm.nodeid
  have hbusy : (s.mark cm.nodeid).busy = false := (busy_mark ..).trans h.busy
  have htype : (s.mark cm.nodeid).type = .psp := (type_mark ..).trans h.type
  rw [hear_of_takes htaken]
  dsimp only [airedBy, Msg.size, controlReceive]
  generalize s.mark cm.nodeid = m at hradio hkept hbusy htype ⊢
  have hfree : (!(m.fill (.control ⟨cm.nodeid, cm.metric⟩)).busy) = true := by
    simp [State.fill, hbusy]
  have hsent : granting.controlSent = .success := rfl
  rw [if_pos rfl, if_pos htype, if_pos hfree, if_pos hsent, hsent]
  refine ⟨_, rfl, hradio.trans h.radio, htype, ?_⟩
  exact congrArg (AmId.control :: ·) (hkept.trans hpending)

theorem Speaking.done (h : Speaking s) (tos : Word16) :
    ∃ t, handle tos (.sendDone .control .success) s = some (t, []) ∧ Idle t ∧ t.pending = [] := by
  refine ⟨_, if_pos (by simp [h.pending]), ⟨h.radio, h.type, rfl⟩, ?_⟩
  simp [sendDone, h.pending]

end Lock

section Network
variable {V : Type} {id : V → Word16} {G : SimpleGraph V} {S : Set V}

/-- The node to which the event brings a broadcast data frame. -/
def called (c : Config V) : NetEvent V → Option V
  | .act v (.sourceData source destination len bm _) =>
    if (Frame.mk source destination len (.beacon bm)).isCall then some v else none
  | .act _ .booted | .act _ (.startDone _) | .act _ (.timer0Fired _) | .act _ (.timer1Fired _)
  | .act _ (.sendDone ..) => none
  | .deliver i v _ => if c.log[i]?.any fun entry => entry.2.isCall then some v else none

/-- Broadcast data frames come to nodes of `S` only, and a control frame reaches each other
node in range at most once. Of all else nothing is assumed. -/
def OnceEach (G : SimpleGraph V) (S : Set V) (c : Config V) (e : NetEvent V) : Prop :=
  (∀ v ∈ called c e, v ∈ S) ∧
    match e with
    | .act _ _ => True
    | .deliver i v _ => ∀ entry ∈ c.log[i]?, entry.2.controlMsg ≠ none →
        (i, v) ∉ c.delivered ∧ G.Adj entry.1 v

/-- Potential speakers, and the senders of control frames, are nodes that were called. -/
structure Confined (S : Set V) (c : Config V) : Prop where
  psp : ∀ v, (c.node v).type = .psp → v ∈ S
  senders : ∀ u f, (u, f) ∈ c.log → f.controlMsg ≠ none → u ∈ S

variable [DecidableEq V]

/-- The step sends a control frame. -/
def SendsControl (id : V → Word16) (c : Config V) (e : NetEvent V) : Prop :=
  ∃ c' u f, (routing id).system.step c e = some c' ∧ (u, f) ∈ c'.log.drop c.log.length ∧
    f.controlMsg ≠ none

/-- Every accepted send gets its `sendDone`. -/
def Completes (run : (routing id).system.InfiniteRun (OnceEach G S)) : Prop :=
  ∀ n v, ∀ am ∈ ((run.state n).node v).pending, ∃ m ≥ n, ∃ err,
    run.event m = .act v (.sendDone am err)

/-- However the frames are delivered, finitely many control frames follow finitely many
broadcast data frames. -/
def Terminates (id : V → Word16) (G : SimpleGraph V) (S : Set V) : Prop :=
  ∀ run : (routing id).system.InfiniteRun (OnceEach G S),
    {n | called (run.state n) (run.event n) ≠ none}.Finite → Completes run →
    {n | SendsControl id (run.state n) (run.event n)}.Finite

omit [DecidableEq V] in
theorem hearing_confined {v : V} {s t : State} {f : Frame} {fs : List Frame}
    (hs : s.type = .psp → v ∈ S) (hcall : f.isCall = true → v ∈ S)
    (h : Hearing (id v) s f t fs) :
    (t.type = .psp → v ∈ S) ∧ ∀ g ∈ fs, g.controlMsg ≠ none → v ∈ S := by
  cases h with
  | aside _ hpoll hframes =>
    have htype : t.type = s.type := congrArg Poll.type hpoll
    refine ⟨fun hpsp => hs (htype.symm.trans hpsp), fun g hg hcontrol => ?_⟩
    exact absurd (hframes g hg).1 hcontrol
  | called _ hcalled => exact ⟨fun _ => hcall hcalled, fun _ _ _ => hcall hcalled⟩
  | told _ _ _ hpoll hframes =>
    have htype : t.type = s.type := (congrArg Poll.type hpoll).trans (type_mark s _)
    exact ⟨fun hpsp => hs (htype.symm.trans hpsp), fun g hg _ => hs (hframes g hg).1⟩

theorem confined_of_reachable {c : Config V}
    (hreach : (routing id).system.Reachable (OnceEach G S) c) : Confined S c := by
  have hinvariant := Network.node_invariant (N := routing id)
    (P := fun v s => s.type = .psp → v ∈ S) (Q := fun u f => f.controlMsg ≠ none → u ∈ S)
    ?_ ?_ ?_ hreach
  · exact ⟨hinvariant.1, hinvariant.2⟩
  · intro v hpsp
    cases hpsp
  · intro c v e s fs hs hallowed hhandle
    cases handle_polling hhandle with
    | booted =>
      refine ⟨fun hpsp => ?_, by simp⟩
      unfold booted at hpsp
      dsimp only at hpsp
      split at hpsp
      · cases hpsp
      · exact hs hpsp
    | aside hpoll _ hframes =>
      have htype : s.type = (c.node v).type := congrArg Poll.type hpoll
      refine ⟨fun hpsp => hs (htype.symm.trans hpsp), fun f hf hcontrol => ?_⟩
      exact absurd (hframes f hf).1 hcontrol
    | @sourceData source destination len bm ans _ _ hhear =>
      have hhearing := hear_hearing (id v) ans ⟨source, destination, len, .beacon bm⟩ (c.node v)
      rw [hhear] at hhearing
      exact hearing_confined hs (fun hcall => hallowed.1 v (if_pos hcall)) hhearing
  · intro c i v ans u f hs hf hallowed hi
    refine hearing_confined hs (fun hcall => hallowed.1 v (if_pos ?_))
      (hear_hearing (id v) ans f (c.node v))
    rw [hi]
    exact hcall

/-- The nodes that have not announced themselves. -/
def unlocked [Fintype V] (c : Config V) : Finset V :=
  Finset.univ.filter fun v => (c.node v).locked = false

omit [DecidableEq V] in
theorem mem_unlocked [Fintype V] {c : Config V} {v : V} :
    v ∈ unlocked c ↔ (c.node v).locked = false := by
  simp [unlocked]

/-- A node that has announced itself has done so for good. -/
theorem unlocked_subset [Fintype V] {c c' : Config V} {e : NetEvent V}
    (h : (routing id).system.step c e = some c') : unlocked c' ⊆ unlocked c := by
  have hput : ∀ (v : V) (s : State) (fs : List Frame),
      (s.locked = (c.node v).locked ∨ (c.node v).locked = false) →
      ∀ w, ((c.put v s fs).node w).locked = false → (c.node w).locked = false := by
    intro v s fs hlock w hw
    by_cases hv : w = v
    · subst hv
      rw [c.put_node_self] at hw
      exact hlock.elim (fun hsame => hsame.symm.trans hw) fun hold => hold
    · rwa [c.put_node_of_ne s fs hv] at hw
  intro w hw
  rw [mem_unlocked] at hw ⊢
  obtain ⟨v, a, s, fs, rfl, hhandle, rfl⟩ | ⟨i, v, ans, u, f, rfl, hi, rfl⟩ :=
    (routing id).system_step h
  · exact hput v s fs ((handle_lock hhandle).imp And.left And.left) w hw
  · exact hput v (hear (id v) ans f (c.node v)).1 (hear (id v) ans f (c.node v)).2
      ((hear_lock (id v) ans f (c.node v)).imp And.left And.left) w hw

omit [DecidableEq V] in
theorem unlocked_lt [Fintype V] {c c' : Config V} (hsub : unlocked c' ⊆ unlocked c) {v : V}
    (hold : (c.node v).locked = false) (hnew : (c'.node v).locked = true) :
    (unlocked c').card < (unlocked c).card := by
  apply Finset.card_lt_card
  rw [Finset.ssubset_iff_of_subset hsub]
  refine ⟨v, mem_unlocked.mpr hold, ?_⟩
  rw [mem_unlocked, hnew]
  simp

/-- Where no two nodes that are called are in range of each other, every control frame is
an announcement. -/
theorem SendsControl.announces (hapart : ∀ u ∈ S, ∀ v ∈ S, ¬ G.Adj u v) {c c' : Config V}
    {e : NetEvent V} (hc : Confined S c) (hallowed : OnceEach G S c e)
    (h : (routing id).system.step c e = some c') (hsends : SendsControl id c e) :
    ∃ v, (c.node v).locked = false ∧ (c'.node v).locked = true := by
  obtain ⟨d, w, g, hstep, hmem, hcontrol⟩ := hsends
  obtain rfl := Option.some.inj (hstep.symm.trans h)
  obtain ⟨v, a, s, fs, rfl, hhandle, rfl⟩ | ⟨i, v, ans, u, f, rfl, hi, rfl⟩ :=
    (routing id).system_step h
  · rw [Network.Config.put_log, List.drop_left] at hmem
    obtain ⟨f, hf, heq⟩ := List.mem_map.mp hmem
    obtain ⟨rfl, rfl⟩ := Prod.mk.inj heq
    rcases handle_lock hhandle with ⟨-, hnone⟩ | ⟨hold, hnew⟩
    · exact absurd (hnone f hf) hcontrol
    · exact ⟨v, hold, (c.put_node_self v s fs).symm ▸ hnew⟩
  · rw [Network.Config.mark_log, Network.Config.put_log, List.drop_left] at hmem
    obtain ⟨f', hf', heq⟩ := List.mem_map.mp hmem
    obtain ⟨rfl, rfl⟩ := Prod.mk.inj heq
    rcases hear_lock (id v) ans f (c.node v) with ⟨-, hanswers⟩ | ⟨hold, hnew⟩
    · obtain ⟨hcontrol', hpsp⟩ := hanswers f' hf' hcontrol
      obtain ⟨-, hadj⟩ := hallowed.2 (u, f) hi hcontrol'
      have hu := hc.senders u f (List.mem_of_getElem? hi) hcontrol'
      exact absurd hadj (hapart u hu v (hc.psp v hpsp))
    · refine ⟨v, hold, ?_⟩
      rw [Network.Config.mark_node, Network.Config.put_node_self]
      exact hnew

theorem terminates_of_apart [Fintype V] (hapart : ∀ u ∈ S, ∀ v ∈ S, ¬ G.Adj u v) :
    Terminates id G S := by
  intro run _ _
  apply run.finite_of_rank (fun c => (unlocked c).card) (SendsControl id)
  · intro c e c' _ _ hstep
    exact Finset.card_le_card (unlocked_subset hstep)
  · intro c e c' hreach hallowed hstep hsends
    obtain ⟨v, hold, hnew⟩ :=
      hsends.announces hapart (confined_of_reachable hreach) hallowed hstep
    exact unlocked_lt (unlocked_subset hstep) hold hnew

/-! Two nodes in range of each other pass one control frame to and fro. -/

/-- A step of a run in which every `sendDone` comes at once and every call is answered by
the announcement of the node. -/
structure Orderly (id : V → Word16) (G : SimpleGraph V) (S : Set V) (c : Config V)
    (e : NetEvent V) : Prop where
  once : OnceEach G S c e
  prompt : ∀ w, ∀ am ∈ (c.node w).pending, ∃ err, e = .act w (.sendDone am err)
  answered : ∀ w ∈ called c e, (c.node w).locked = false ∧
    ∀ c', (routing id).system.step c e = some c' → (c'.node w).locked = true

/-- No send is out, and every copy delivered is one of an old entry. -/
structure Quiet (c : Config V) : Prop where
  pending : ∀ w, (c.node w).pending = []
  past : ∀ p ∈ c.delivered, p.1 < c.log.length

/-- `u` has sent a control frame that `v` has not heard yet. -/
structure Volley (id : V → Word16) (G : SimpleGraph V) (u v : V) (c : Config V) : Prop where
  quiet : Quiet c
  adj : G.Adj u v
  idle : Idle (c.node u) ∧ Idle (c.node v)
  frame : ∃ i cm, c.log[i]? = some (u, airedBy (id u) broadcastAddr (.control cm)) ∧
    (i, v) ∉ c.delivered

omit [DecidableEq V] in
theorem Quiet.prompt {c : Config V} (h : Quiet c) (e : NetEvent V) :
    ∀ w, ∀ am ∈ (c.node w).pending, ∃ err, e = .act w (.sendDone am err) := by
  intro w am ham
  rw [h.pending w] at ham
  cases ham

theorem Quiet.put {c : Config V} (h : Quiet c) {v : V} {s : State} (hs : s.pending = [])
    (fs : List Frame) : Quiet (c.put v s fs) where
  pending := Network.Config.forall_put_node (P := fun _ (s : State) => s.pending = []) hs
    (fun w _ => h.pending w) fs
  past := Network.Config.past_put h.past v s fs

/-- The node whose frame is out gets its `sendDone`. -/
theorem Speaking.leads {c : Config V} {v : V} (hspeaking : Speaking (c.node v))
    (hothers : ∀ w, w ≠ v → (c.node w).pending = [])
    (hpast : ∀ p ∈ c.delivered, p.1 < c.log.length) :
    ∃ t, (routing id).system.Leads (Orderly id G S) c [.act v (.sendDone .control .success)]
      (c.put v t []) ∧ Idle t ∧ Quiet (c.put v t []) := by
  obtain ⟨t, hhandle, hidle, hpending⟩ := hspeaking.done (id v)
  refine ⟨t, .single ⟨⟨by simp [called], trivial⟩, ?_, by simp [called]⟩
    ((routing id).system_step_act hhandle), hidle, ?_, Network.Config.past_put hpast v t []⟩
  · intro w am ham
    by_cases hw : w = v
    · subst hw
      rw [hspeaking.pending, List.mem_singleton] at ham
      exact ⟨.success, by rw [ham]⟩
    · rw [hothers w hw] at ham
      cases ham
  · exact Network.Config.forall_put_node (P := fun _ (s : State) => s.pending = []) hpending
      hothers []

/-- `v` hears the frame and passes it on, and the volley comes back. -/
theorem Volley.round {u v : V} {c : Config V} (h : Volley id G u v c) :
    ∃ e c' es c'', Orderly id G S c e ∧ (routing id).system.step c e = some c' ∧
      SendsControl id c e ∧ (routing id).system.Leads (Orderly id G S) c' es c'' ∧
      Volley id G v u c'' := by
  obtain ⟨i, cm, hi, hnew⟩ := h.frame
  have hne : u ≠ v := h.adj.ne
  obtain ⟨t, hhear, hspeaking⟩ := h.idle.2.relays (h.quiet.pending v) (id v) (id u) cm
  have hcalled : called c (.deliver i v granting) = none := by
    simp [called, hi, airedBy, Frame.isCall, Frame.isBeacon]
  have hstep := (routing id).system_step_deliver hi hhear
  have hpast := Network.Config.past_deliver h.quiet.past hi v t
    [airedBy (id v) broadcastAddr (.control cm)]
  have hself := c.put_node_self v t [airedBy (id v) broadcastAddr (.control cm)]
  have hothers : ∀ w, w ≠ v →
      (c.put v t [airedBy (id v) broadcastAddr (.control cm)]).node w = c.node w :=
    fun w hw => c.put_node_of_ne t _ hw
  -- The control frame is the last of the log, and has come to nobody yet.
  have hlast : ((c.put v t [airedBy (id v) broadcastAddr (.control cm)]).mark i v).log =
    c.log ++ [(v, airedBy (id v) broadcastAddr (.control cm))] := rfl
  have hunheard : (c.log.length, u) ∉
      ((c.put v t [airedBy (id v) broadcastAddr (.control cm)]).mark i v).delivered := by
    rw [Network.Config.mark_delivered, Network.Config.put_delivered, List.mem_append, not_or]
    exact ⟨fun hold => lt_irrefl _ (h.quiet.past _ hold), by simp [hne]⟩
  rw [← Network.Config.mark_node _ i v] at hself hothers
  generalize (c.put v t [airedBy (id v) broadcastAddr (.control cm)]).mark i v = d
    at hstep hpast hself hothers hlast hunheard
  obtain ⟨t', hleads, hidle, hquiet⟩ := @Speaking.leads V id G S _ d v (hself ▸ hspeaking)
    (fun w hw => hothers w hw ▸ h.quiet.pending w) hpast
  refine ⟨.deliver i v granting, d, _, _, ⟨⟨by simp [hcalled], ?_⟩, h.quiet.prompt _,
    by simp [hcalled]⟩, hstep, ?_, hleads, hquiet, h.adj.symm, ⟨?_, ?_⟩, c.log.length, cm, ?_, ?_⟩
  · intro entry hentry _
    obtain rfl : (u, _) = entry := Option.some.inj (hi.symm.trans hentry)
    exact ⟨hnew, h.adj⟩
  · refine ⟨d, v, airedBy (id v) broadcastAddr (.control cm), hstep, ?_, by simp⟩
    rw [hlast, List.drop_left]
    exact List.mem_singleton_self _
  · rw [d.put_node_self]
    exact hidle
  · rw [d.put_node_of_ne t' [] hne, hothers u hne]
    exact h.idle.1
  · simp [hlast]
  · exact hunheard

/-- What a few steps of the node `v` alone lead to, with the frames `fs` sent by it. -/
structure Onward (v : V) (fs : List Frame) (c c' : Config V) : Prop where
  quiet : Quiet c'
  others : ∀ w, w ≠ v → c'.node w = c.node w
  log : c'.log = c.log ++ fs.map (v, ·)
  delivered : c'.delivered = c.delivered

theorem Quiet.act {c : Config V} (h : Quiet c) {v : V} {e : Event} {s : State} {fs : List Frame}
    (hnone : called c (.act v e) = none) (hhandle : handle (id v) e (c.node v) = some (s, fs)) :
    (routing id).system.Leads (Orderly id G S) c [.act v e] (c.put v s fs) :=
  .single ⟨⟨by simp [hnone], trivial⟩, h.prompt _, by simp [hnone]⟩
    ((routing id).system_step_act (v := v) (e := e) hhandle)

theorem boot_leads {c : Config V} (h : Quiet c) {v : V} (hv : c.node v = {}) :
    ∃ es c', (routing id).system.Leads (Orderly id G S) c es c' ∧ Onward v [] c c' ∧
      Listening (c'.node v) := by
  obtain ⟨t, u, hbooted, ht, hstarted, hlistening, hu⟩ := Listening.of_boot (id v)
  rw [← hv] at hbooted
  have hquiet := h.put (v := v) ht []
  rw [← c.put_node_self v t []] at hstarted
  refine ⟨_, _, (h.act rfl hbooted).append (hquiet.act rfl hstarted),
    ⟨hquiet.put hu [], ?_, by simp, by simp⟩, ?_⟩
  · intro w hw
    rw [Network.Config.put_node_of_ne _ _ _ hw, c.put_node_of_ne _ _ hw]
  · rw [Network.Config.put_node_self]
    exact hlistening

theorem call_leads {c : Config V} (h : Quiet c) {v : V} (hv : Listening (c.node v))
    (hcalled : v ∈ S) :
    ∃ es c' cm, (routing id).system.Leads (Orderly id G S) c es c' ∧
      Onward v [airedBy (id v) broadcastAddr (.control cm)] c c' ∧ Idle (c'.node v) := by
  obtain ⟨t, hhandle, hspeaking, hlocked⟩ := hv.announces (h.pending v) (id v)
  have hwho : called c (.act v call) = some v := rfl
  have hstep := (routing id).system_step_act (v := v) (e := call) hhandle
  have hself := c.put_node_self v t
    [airedBy (id v) broadcastAddr (.control ⟨id v, (c.node v).curMetric⟩)]
  have horderly : Orderly id G S c (.act v call) := by
    refine ⟨⟨fun w hw => ?_, trivial⟩, h.prompt _, fun w hw => ?_⟩
    · obtain rfl : v = w := Option.some.inj (hwho.symm.trans hw)
      exact hcalled
    · obtain rfl : v = w := Option.some.inj (hwho.symm.trans hw)
      refine ⟨hv.locked, fun c' hc' => ?_⟩
      obtain rfl := Option.some.inj (hstep.symm.trans hc')
      rw [hself]
      exact hlocked
  have hothers : ∀ w, w ≠ v → ((c.put v t
      [airedBy (id v) broadcastAddr (.control ⟨id v, (c.node v).curMetric⟩)]).node w).pending =
        [] := by
    intro w hw
    rw [c.put_node_of_ne t _ hw]
    exact h.pending w
  obtain ⟨t', hleads, hidle, hquiet⟩ := @Speaking.leads V id G S _ _ v (hself.symm ▸ hspeaking)
    hothers (Network.Config.past_put h.past v t _)
  refine ⟨_, _, ⟨id v, (c.node v).curMetric⟩, .cons horderly hstep hleads,
    ⟨hquiet, ?_, by simp, by simp⟩, ?_⟩
  · intro w hw
    rw [Network.Config.put_node_of_ne _ _ _ hw, c.put_node_of_ne _ _ hw]
  · rw [Network.Config.put_node_self]
    exact hidle

/-- Two nodes boot, a source calls both, and the second has not heard the first. -/
theorem volley_leads {u v : V} (hu : u ∈ S) (hv : v ∈ S) (hadj : G.Adj u v) :
    ∃ es c, (routing id).system.Leads (Orderly id G S) (routing id).system.init es c ∧
      Volley id G u v c := by
  have hne : v ≠ u := hadj.ne'
  have hquiet : Quiet (routing id).system.init := ⟨fun _ => rfl, by simp [Network.system]⟩
  obtain ⟨es₁, c₁, hleads₁, honward₁, hlistening₁⟩ := boot_leads hquiet (v := u) rfl
  obtain ⟨es₂, c₂, hleads₂, honward₂, hlistening₂⟩ :=
    boot_leads honward₁.quiet (honward₁.others v hne)
  have hnode₂ : c₂.node u = c₁.node u := honward₂.others u hne.symm
  obtain ⟨es₃, c₃, cm, hleads₃, honward₃, hidle₃⟩ :=
    call_leads honward₂.quiet (hnode₂ ▸ hlistening₁) hu
  have hnode₃ : c₃.node v = c₂.node v := honward₃.others v hne
  obtain ⟨es₄, c₄, cm', hleads₄, honward₄, hidle₄⟩ :=
    call_leads honward₃.quiet (hnode₃ ▸ hlistening₂) hv
  have hnode₄ : c₄.node u = c₃.node u := honward₄.others u hne.symm
  refine ⟨_, c₄, ((hleads₁.append hleads₂).append hleads₃).append hleads₄, honward₄.quiet, hadj,
    ⟨hnode₄ ▸ hidle₃, hidle₄⟩, 0, cm, ?_, ?_⟩
  · rw [honward₄.log, honward₃.log, honward₂.log, honward₁.log]
    rfl
  · rw [honward₄.delivered, honward₃.delivered, honward₂.delivered, honward₁.delivered]
    exact List.not_mem_nil

theorem not_terminates_of_adj [Fintype V] {u v : V} (hu : u ∈ S) (hv : v ∈ S)
    (hadj : G.Adj u v) : ¬ Terminates id G S := by
  have hround : ∀ c, (∃ u v, Volley id G u v c) → ∃ e c' es c'', Orderly id G S c e ∧
      (routing id).system.step c e = some c' ∧ SendsControl id c e ∧
      (routing id).system.Leads (Orderly id G S) c' es c'' ∧ ∃ u v, Volley id G u v c'' := by
    rintro c ⟨u, v, h⟩
    obtain ⟨e, c', es, c'', horderly, hstep, hsends, hleads, hvolley⟩ := h.round (S := S)
    exact ⟨e, c', es, c'', horderly, hstep, hsends, hleads, v, u, hvolley⟩
  obtain ⟨es, c, hleads, hvolley⟩ := @volley_leads V id G S _ u v hu hv hadj
  obtain ⟨run, hinfinite⟩ := System.InfiniteRun.exists_of_rounds (SendsControl id)
    ⟨es, c, hleads, u, v, hvolley⟩ hround
  intro hterminates
  refine hinfinite (hterminates (run.mono fun _ _ horderly => horderly.once) ?_ ?_)
  · apply run.finite_of_rank (fun c => (unlocked c).card) fun c e => called c e ≠ none
    · intro c e c' _ _ hstep
      exact Finset.card_le_card (unlocked_subset hstep)
    · intro c e c' _ horderly hstep hcalled
      obtain ⟨w, hw⟩ := Option.ne_none_iff_exists'.mp hcalled
      obtain ⟨hold, hnew⟩ := horderly.answered w hw
      exact unlocked_lt (unlocked_subset hstep) hold (hnew c' hstep)
  · intro n w am ham
    obtain ⟨err, he⟩ := (run.meets n).prompt w am ham
    exact ⟨n, le_rfl, err, he⟩

/-- Finitely many control frames follow finitely many broadcast data frames, in whatever
order the frames are delivered, exactly if no two nodes that a broadcast data frame
reaches are in range of each other. -/
theorem control_flood_terminates_iff {V : Type} [DecidableEq V] [Fintype V] (id : V → Word16)
    (G : SimpleGraph V) (S : Set V) :
    Terminates id G S ↔ ∀ u ∈ S, ∀ v ∈ S, ¬ G.Adj u v := by
  constructor
  · intro hterminates u hu v hv hadj
    exact not_terminates_of_adj hu hv hadj hterminates
  · exact terminates_of_apart

end Network

/-- Two nodes out of range of each other. -/
def apartId : Bool → Word16
  | false => 2
  | true => 3

/-- One of them is called and says so. -/
def calledApart : List (NetEvent Bool) :=
  [.act false .booted, .act false (.startDone .success),
    .act false (.sourceData 9 broadcastAddr sizeofBeaconMsg sample granting),
    .act false (.sendDone .control .success)]

/-- A data frame for another node. -/
def elsewhere : NetEvent Bool := .act false (.sourceData 9 7 sizeofBeaconMsg sample granting)

theorem elsewhere_ignored (c : Config Bool) :
    (routing apartId).system.step c elsewhere = some c := by
  have hdeaf : ¬ (c.node false).Takes 2 ⟨9, 7, sizeofBeaconMsg, .beacon sample⟩ := by
    rintro ⟨-, h | h⟩
    · exact absurd h (by decide)
    · exact absurd h (by decide)
  have hstep := (routing apartId).system_step_act (c := c) (v := false)
    (e := .sourceData 9 7 sizeofBeaconMsg sample granting)
    (congrArg some (hear_of_not_takes hdeaf granting))
  exact hstep.trans (congrArg some (c.put_self false))

/-- Once the call is over the two can go on for ever without another word. -/
theorem calledApart_forever :
    ∃ run : (routing apartId).system.InfiniteRun (OnceEach ⊥ Set.univ),
      (∃ n, (run.state n).log.length = 1) ∧
      {n | called (run.state n) (run.event n) ≠ none}.Finite ∧ Completes run := by
  have hact : ∀ (c : Config Bool) v e, OnceEach ⊥ Set.univ c (.act v e) :=
    fun _ _ _ => ⟨fun _ _ => trivial, trivial⟩
  have hruns : ((routing apartId).system.run calledApart).isSome = true := by decide +kernel
  obtain ⟨c, hrun⟩ := Option.isSome_iff_exists.mp hruns
  have hallowed : (routing apartId).system.AllowedFrom (OnceEach ⊥ Set.univ)
      (routing apartId).system.init calledApart :=
    ⟨hact .., fun _ _ => ⟨hact .., fun _ _ => ⟨hact .., fun _ _ => ⟨hact .., fun _ _ => trivial⟩⟩⟩⟩
  obtain ⟨run, hreplay⟩ :=
    System.InfiniteRun.exists_replay hallowed hrun (hact c false _) (elsewhere_ignored c)
  have hsent : ∀ d ∈ (routing apartId).system.run (calledApart.take 3),
      d.log.length = 1 ∧ ∀ v, ∀ am ∈ (d.node v).pending, v = false ∧ am = .control := by
    decide +kernel
  have hquiet : ∀ n ≤ 4, n ≠ 3 →
      ∀ d ∈ (routing apartId).system.run (calledApart.take n),
        ∀ v, (d.node v).pending = [] := by
    decide +kernel
  refine ⟨run, ⟨3, (hsent _ (hreplay 3).2).1⟩, ?_, ?_⟩
  · refine (Set.finite_Iio 4).subset fun n hn => ?_
    by_contra hlate
    have hevent : run.event n = elsewhere :=
      (hreplay n).1.trans (by
        rw [List.getD_eq_getElem?_getD, List.getElem?_eq_none (not_lt.mp hlate)]
        rfl)
    exact hn (by rw [hevent]; rfl)
  · intro n v am ham
    by_cases hn : n = 3
    · subst hn
      obtain ⟨rfl, rfl⟩ := (hsent _ (hreplay 3).2).2 v am ham
      exact ⟨3, le_rfl, .success, (hreplay 3).1⟩
    · have hnone : ((run.state n).node v).pending = [] := by
        rcases Nat.le_total n 4 with hearly | hlate
        · exact hquiet n hearly hn _ (hreplay n).2 v
        · have hlast := (hreplay n).2
          rw [List.take_of_length_le hlate] at hlast
          exact hquiet 4 le_rfl (by decide) _ hlast v
      rw [hnone] at ham
      cases ham

theorem control_flood_terminates_iff_pair :
    (∃ run : (routing (![2, 3] : Fin 2 → Word16)).system.InfiniteRun (OnceEach ⊤ Set.univ),
      {n | called (run.state n) (run.event n) ≠ none}.Finite ∧ Completes run ∧
      {n | SendsControl ![2, 3] (run.state n) (run.event n)}.Infinite) ∧
    ∃ run : (routing apartId).system.InfiniteRun (OnceEach ⊥ Set.univ),
      (∃ n, (run.state n).log.length = 1) ∧
      {n | SendsControl apartId (run.state n) (run.event n)}.Finite := by
  constructor
  · have hnot : ¬ Terminates (![2, 3] : Fin 2 → Word16) ⊤ Set.univ := by
      rw [control_flood_terminates_iff]
      exact fun h => h 0 (Set.mem_univ 0) 1 (Set.mem_univ 1) (by decide)
    obtain ⟨run, hrun⟩ := not_forall.mp hnot
    push Not at hrun
    exact ⟨run, hrun⟩
  · have hterminates := (control_flood_terminates_iff apartId ⊥ Set.univ).mpr
      fun _ _ _ _ => id
    obtain ⟨run, hlog, hcalls, hcompletes⟩ := calledApart_forever
    exact ⟨run, hlog, hterminates run hcalls hcompletes⟩

/-- Two potential speakers that hear each other never stop. -/
theorem two_speakers_never_stop : ¬ Terminates (![2, 3] : Fin 2 → Word16) ⊤ Set.univ :=
  not_terminates_of_adj (Set.mem_univ 0) (Set.mem_univ 1) (by decide)

end WsnContest.ElectionFlood
