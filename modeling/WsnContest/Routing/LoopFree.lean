import Mathlib.Data.Fin.VecNotation
import WsnContest.Lib.Gradient
import WsnContest.Routing.Network

/-! Next hops are free of loops. Beacons may be lost, repeated, delayed and
reordered; a stale one promises no more than its sender still keeps. -/
namespace WsnContest.Routing
open Tinyos Lib

abbrev Config (V : Type) := Network.Config (fun _ : V => State) Frame

/-- `cur_metric` of a node without a route. -/
def noRoute : ℕ := 0xffff

section Routes
variable {V : Type} (id : V → Word16) (c : Config V)

/-- `u` has the id that `v` keeps as its next hop. -/
def nextHop (v u : V) : Prop := (c.node v).curNexthopNodeId = id u

/-- A beacon of `u` has reached `v`. -/
def usedLink (u v : V) : Prop :=
  ∃ i f rm, c.log[i]? = some (u, f) ∧ f.routeMsg = some rm ∧ (i, v) ∈ c.delivered

/-- `u` has broadcast a beacon with metric `m`. -/
def advertised (u : V) (m : ℕ) : Prop :=
  ∃ f rm, (u, f) ∈ c.log ∧ f.routeMsg = some rm ∧ rm.metric.val = m

/-- The network as distance-vector routing sees it. -/
def routes : Routes V where
  rank := fun v => (c.node v).curMetric.val
  next := nextHop id c
  link := usedLink c
  advert := advertised c

end Routes

variable {V : Type} [DecidableEq V] {id : V → Word16} {sink : V} {c : Config V}

theorem routes_rank_put {v : V} {s : State} (hs : s.curMetric = (c.node v).curMetric)
    (fs : List Frame) : (routes id (c.put v s fs)).rank = (routes id c).rank := by
  ext w
  exact congrArg Fin.val (Network.Config.put_node_congr (fun _ => State.curMetric) hs fs w)

theorem routes_next_put {v : V} {s : State}
    (hs : s.curNexthopNodeId = (c.node v).curNexthopNodeId) (fs : List Frame) :
    (routes id (c.put v s fs)).next = (routes id c).next := by
  ext w u
  have hw := Network.Config.put_node_congr (fun _ => State.curNexthopNodeId) hs fs w
  simp [routes, nextHop, hw]

theorem usedLink_put {u w : V} (h : usedLink c u w) (v : V) (s : State) (fs : List Frame) :
    usedLink (c.put v s fs) u w := by
  obtain ⟨i, f, rm, hlog, hrm, hmem⟩ := h
  exact ⟨i, f, rm, Network.Config.put_log_getElem? hlog v s fs, hrm, hmem⟩

omit [DecidableEq V] in
theorem usedLink_mark {u w : V} (h : usedLink c u w) (i : ℕ) (v : V) :
    usedLink (c.mark i v) u w := by
  obtain ⟨j, f, rm, hlog, hrm, hmem⟩ := h
  exact ⟨j, f, rm, hlog, hrm, List.mem_append_left _ hmem⟩

theorem advertised_put {v u : V} {s : State} {fs : List Frame} {m : ℕ}
    (h : advertised (c.put v s fs) u m) :
    advertised c u m ∨ u = v ∧ ∃ f ∈ fs, ∃ rm, f.routeMsg = some rm ∧ rm.metric.val = m := by
  obtain ⟨f, rm, hmem, hrm, hm⟩ := h
  rcases Network.Config.mem_put_log.mp hmem with hold | ⟨rfl, hf⟩
  · exact .inl ⟨f, rm, hold, hrm, hm⟩
  · exact .inr ⟨rfl, f, hf, rm, hrm, hm⟩

theorem advert_put_nil {v u : V} {s : State} {m : ℕ} :
    (routes id (c.put v s [])).advert u m ↔ (routes id c).advert u m := by
  simp [routes, advertised]

/-- Beacons carry the id of their sender, a node that has a beacon to pass on has
a route, and the routes form a gradient. -/
structure Sound [Fintype V] (id : V → Word16) (sink : V) (c : Config V) : Prop where
  named : ∀ u f rm, (u, f) ∈ c.log → f.routeMsg = some rm → rm.nodeid = id u ∧
    f.length = sizeofRouteMsg
  armed : ∀ v, (c.node v).timer1.isSome → (c.node v).curMetric.val < noRoute
  gradient : (routes id c).Gradient sink noRoute

variable [Fintype V]

omit [DecidableEq V] in
theorem sound_init : Sound id sink ⟨fun _ : V => {}, [], []⟩ where
  named := by simp
  armed := by simp
  gradient := .unrouted (by simp [routes, noRoute]) (by simp [routes, advertised])

/-- A node that leaves its route alone and broadcasts no more than it keeps. -/
theorem Sound.put (hs : Sound id sink c) {v : V} {s : State} {fs : List Frame}
    (hmetric : s.curMetric = (c.node v).curMetric)
    (hnext : s.curNexthopNodeId = (c.node v).curNexthopNodeId)
    (htimer : s.timer1.isSome → (c.node v).timer1.isSome)
    (hfs : ∀ f ∈ fs, ∀ rm, f.routeMsg = some rm →
      (rm.nodeid = id v ∧ f.length = sizeofRouteMsg) ∧
      (v = sink ∧ rm.metric = 0 ∨
        (c.node v).timer1.isSome ∧ rm.metric = (c.node v).curMetric)) :
    Sound id sink (c.put v s fs) where
  named := by
    intro u f rm hmem hrm
    rcases Network.Config.mem_put_log.mp hmem with hold | ⟨rfl, hf⟩
    · exact hs.named u f rm hold hrm
    · exact (hfs f hf rm hrm).1
  armed := by
    apply Network.Config.forall_put_node
      (P := fun _ (t : State) => t.timer1.isSome → t.curMetric.val < noRoute)
    · intro ht
      rw [hmetric]
      exact hs.armed v (htimer ht)
    · exact fun w _ => hs.armed w
  gradient := by
    refine hs.gradient.advertise (routes_rank_put hmetric fs) (routes_next_put hnext fs)
      (fun u w h => usedLink_put h v s fs) ?_
    intro u m h
    obtain hold | ⟨rfl, f, hf, rm, hrm, rfl⟩ := advertised_put h
    · exact .inl hold
    · rcases (hfs f hf rm hrm).2 with ⟨hu, hzero⟩ | ⟨htimer, hown⟩
      · exact .inr (.inl ⟨hu, by rw [hzero]; rfl⟩)
      · exact .inr (.inr ⟨hs.armed u htimer, by rw [hown]; rfl⟩)

omit [DecidableEq V] in
theorem Sound.mark (hs : Sound id sink c) (i : ℕ) (v : V) : Sound id sink (c.mark i v) where
  named := hs.named
  armed := hs.armed
  gradient := hs.gradient.advertise rfl rfl (fun _ _ h => usedLink_mark h i v)
    fun _ _ h => .inl h

omit [DecidableEq V] in
/-- The 16-bit addition of `AMRouteReceive.receive` is exact. -/
theorem Sound.succ_val (hs : Sound id sink c) (hcard : Fintype.card V < noRoute) {u : V}
    {f : Frame} {rm : RouteMsg} (hmem : (u, f) ∈ c.log) (hrm : f.routeMsg = some rm) :
    (rm.metric + 1).val = rm.metric.val + 1 := by
  have hlt := hs.gradient.advert_lt hcard (u := u) ⟨f, rm, hmem, hrm, rfl⟩
  rw [Fin.val_add_one_of_lt']
  unfold noRoute at hlt
  omega

theorem Sound.heed (hs : Sound id sink c) (hcard : Fintype.card V < noRoute) {u v : V}
    {f : Frame} {rm : RouteMsg} (hmem : (u, f) ∈ c.log) (hrm : f.routeMsg = some rm)
    (hlink : usedLink c u v) (ans : Answers) {s : State}
    (htable : s.table = (c.node v).table.hear rm ans) : Sound id sink (c.put v s []) := by
  have hadvert : (routes id c).advert u rm.metric.val := ⟨f, rm, hmem, hrm, rfl⟩
  have hsucc := hs.succ_val hcard hmem hrm
  have hmetric : s.curMetric =
      if (c.node v).curMetric > rm.metric + 1 then rm.metric + 1 else (c.node v).curMetric :=
    congrArg Table.metric htable
  have hnext : s.curNexthopNodeId =
      if (c.node v).curMetric > rm.metric + 1 then rm.nodeid
      else (c.node v).curNexthopNodeId :=
    congrArg Table.nexthop htable
  have hother : ∀ w, w ≠ v → (c.put v s []).node w = c.node w := fun w hw =>
    c.put_node_of_ne s [] hw
  have harmed : s.curMetric.val < noRoute → ∀ w, ((c.put v s []).node w).timer1.isSome →
      ((c.put v s []).node w).curMetric.val < noRoute := fun hroute =>
    Network.Config.forall_put_node
      (P := fun _ (t : State) => t.timer1.isSome → t.curMetric.val < noRoute)
      (fun _ => hroute) (fun w _ => hs.armed w) []
  by_cases hless : (c.node v).curMetric > rm.metric + 1
  · rw [if_pos hless] at hmetric hnext
    have hlt : rm.metric.val + 1 < (c.node v).curMetric.val := hsucc ▸ hless
    have hlimit : rm.metric.val + 1 < noRoute := by
      by_cases hv : (routes id c).rank v < noRoute
      · exact hlt.trans hv
      · exact hs.gradient.advert_succ_lt hcard hadvert hv
    refine ⟨by simpa using hs.named, ?_, ?_⟩
    · apply harmed
      rw [hmetric, hsucc]
      exact hlimit
    · apply hs.gradient.adopt hadvert hlink hlt hlimit
      · simp [routes, hmetric, hsucc]
      · simp [routes, nextHop, hnext, (hs.named u f rm hmem hrm).1]
      · intro w hw
        simp [routes, hother w hw]
      · intro w hw
        ext x
        simp [routes, nextHop, hother w hw]
      · ext x y
        simp [routes, usedLink]
      · ext x m
        exact advert_put_nil
  · rw [if_neg hless] at hmetric hnext
    have hroute : (c.node v).curMetric.val < noRoute := by
      by_contra hv
      have hsmall := hs.gradient.advert_succ_lt hcard hadvert (v := v) hv
      rw [gt_iff_lt, Fin.lt_def, hsucc] at hless
      omega
    refine ⟨by simpa using hs.named, ?_, ?_⟩
    · apply harmed
      rw [hmetric]
      exact hroute
    · exact hs.gradient.advertise (routes_rank_put hmetric []) (routes_next_put hnext [])
        (fun _ _ h => usedLink_put h v s []) fun _ _ h => .inl (advert_put_nil.mp h)

theorem Sound.act (hs : Sound id sink c) (hsink : ∀ v, id v = recvNodeId → v = sink) {v : V}
    {e : Event} {s : State} {fs : List Frame} (h : Outcome (id v) e (c.node v) s fs) :
    Sound id sink (c.put v s fs) := by
  cases h with
  | aside haside =>
    refine hs.put (congrArg Table.metric haside.table) (congrArg Table.nexthop haside.table)
      (fun ht => ?_) ?_
    · rwa [show s.timer1 = (c.node v).timer1 from congrArg Table.timer1 haside.table] at ht
    · intro f hf rm hrm
      rw [haside.frames f hf] at hrm
      cases hrm
  | beacon htos _ htable =>
    refine hs.put (congrArg Table.metric htable) (congrArg Table.nexthop htable)
      (fun ht => ?_) ?_
    · rwa [show s.timer1 = (c.node v).timer1 from congrArg Table.timer1 htable] at ht
    · intro f hf rm hrm
      cases List.mem_singleton.mp hf
      cases hrm
      exact ⟨⟨rfl, rfl⟩, .inl ⟨hsink v htos, rfl⟩⟩
  | relay _ htimer _ htable =>
    refine hs.put (congrArg Table.metric htable) (congrArg Table.nexthop htable)
      (fun _ => htimer) ?_
    intro f hf rm hrm
    cases List.mem_singleton.mp hf
    cases hrm
    exact ⟨⟨rfl, rfl⟩, .inr ⟨htimer, rfl⟩⟩
  | dropped _ _ _ htable =>
    refine hs.put (congrArg Table.metric htable) (congrArg Table.nexthop htable)
      (fun ht => ?_) (by simp)
    rw [show s.timer1 = none from congrArg Table.timer1 htable] at ht
    cases ht

theorem Sound.step (hs : Sound id sink c) (hcard : Fintype.card V < noRoute)
    (hsink : ∀ v, id v = recvNodeId → v = sink) {c' : Config V}
    {e : Network.Event (fun _ : V => Event) fun _ => Answers}
    (h : (routing id).system.step c e = some c') : Sound id sink c' := by
  obtain ⟨v, a, s, fs, rfl, hhandle, rfl⟩ | ⟨i, v, ans, u, f, rfl, hi, rfl⟩ :=
    Network.system_step _ h
  · exact hs.act hsink (handle_outcome hhandle)
  · have hmem : (u, f) ∈ c.log := List.mem_of_getElem? hi
    -- First the link is used, then the handler runs.
    change Sound id sink ((c.mark i v).put v (hear (id v) ans f (c.node v)).1
      (hear (id v) ans f (c.node v)).2)
    have hmark := hs.mark i v
    cases hrm : f.routeMsg with
    | none => exact hmark.act hsink (e := .booted) (.aside (hear_aside _ _ _ _ hrm))
    | some rm =>
      have hlink : usedLink (c.mark i v) u v :=
        ⟨i, f, rm, hi, hrm, List.mem_append_right _ (List.mem_singleton_self _)⟩
      rcases hear_beacon hrm (id v) ans (c.node v) with hear | hear
      · rw [hear, (hs.named u f rm hmem hrm).2]
        exact hmark.heed hcard hmem hrm hlink ans (routeReceive_table rm ans _)
      · rw [hear]
        exact hmark.act hsink (e := .booted) (.aside (.refl _))

theorem sound_of_reachable (hcard : Fintype.card V < noRoute)
    (hsink : ∀ v, id v = recvNodeId → v = sink)
    (h : (routing id).system.Reachable System.anyStep c) : Sound id sink c :=
  h.invariant (P := Sound id sink) sound_init fun _ _ _ hs _ hstep => hs.step hcard hsink hstep

/-- Next hops are free of loops and lead to the sink. A next hop is node 1 or
strictly closer to it by its own metric; following next hops visits no node twice
and takes at most `cur_metric` hops; no metric is below the number of links over
which beacons came from node 1; and the 16-bit addition never wraps. -/
theorem next_hops_loop_free {V : Type} [DecidableEq V] [Fintype V] (id : V → Word16)
    (hid : Function.Injective id) (sink : V) (hsink : id sink = recvNodeId)
    (hcard : Fintype.card V < 65535) {c : Config V}
    (h : (routing id).system.Reachable System.anyStep c) :
    (∀ v, v ≠ sink → (c.node v).curMetric < 0xffff →
      ((c.node v).curNexthopNodeId = 1 ∨ ∃ u, (c.node v).curNexthopNodeId = id u ∧
        (c.node u).curMetric.val + 1 ≤ (c.node v).curMetric.val) ∧
      (∃ path, Follow (nextHop id c) sink v path ∧ path.Nodup ∧
        path.length ≤ (c.node v).curMetric.val + 1) ∧
      ∃ n ≤ (c.node v).curMetric.val, Hops (usedLink c) n sink v) ∧
    ∀ u f rm, (u, f) ∈ c.log → f.routeMsg = some rm →
      (rm.metric + 1).val = rm.metric.val + 1 := by
  have hs : Sound id sink c :=
    sound_of_reachable hcard (fun v hv => hid (hv.trans hsink.symm)) h
  refine ⟨fun v hv hroute => ?_, fun u f rm hmem hrm => hs.succ_val hcard hmem hrm⟩
  have hrank : (routes id c).rank v < noRoute := hroute
  refine ⟨?_, hs.gradient.follow hrank hv, hs.gradient.rank_walk v hrank⟩
  obtain ⟨u, hnext, -, hdown⟩ := hs.gradient.descends v hrank
  rcases hdown with rfl | hdown
  · exact .inl (hnext.trans hsink)
  · exact .inr ⟨u, hnext, hdown⟩

/-- Two hops: node 2 hands on what it heard of node 1. -/
theorem next_hops_loop_free_two_hops :
    ∃ c : Config (Fin 3), (c.node 2).curMetric = 2 ∧
      (∃ path, Follow (nextHop ![1, 2, 3] c) 0 2 path ∧ path.Nodup ∧ path.length ≤ 3) ∧
      ∃ n ≤ 2, Hops (usedLink c) n 0 2 := by
  have hinit : (routing (![1, 2, 3] : Fin 3 → Word16)).system.Reachable System.anyStep _ :=
    .init
  have hboot := hinit.step (e := .act 0 .booted) trivial rfl
  have hstart := hboot.step (e := .act 0 (.startDone .success)) trivial rfl
  have hboot₁ := hstart.step (e := .act 1 .booted) trivial rfl
  have hstart₁ := hboot₁.step (e := .act 1 (.startDone .success)) trivial rfl
  have hboot₂ := hstart₁.step (e := .act 2 .booted) trivial rfl
  have hstart₂ := hboot₂.step (e := .act 2 (.startDone .success)) trivial rfl
  have hbeacon := hstart₂.step (e := .act 0 (.timer0Fired .success)) trivial rfl
  have hheard := hbeacon.step (e := .deliver 0 1 ⟨.success, .success, 0⟩) trivial rfl
  have hrelay := hheard.step (e := .act 1 (.timer1Fired .success)) trivial rfl
  have hfar := hrelay.step (e := .deliver 1 2 ⟨.success, .success, 0⟩) trivial rfl
  have hall := next_hops_loop_free _ (by decide) 0 rfl (by decide) hfar
  exact ⟨_, rfl, (hall.1 2 (by decide) (by decide)).2⟩

end WsnContest.Routing
