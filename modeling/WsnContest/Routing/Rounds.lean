import Mathlib.Data.Fin.VecNotation
import Mathlib.Data.Fintype.Card
import WsnContest.Routing.Network

/-! Beacons are flooded once. `Timer1` runs only for an id that is newer than all a node
has sent, and when it fires the node sends the newest it has heard of. The counter of
the sink wraps; then the sink itself passes on what it hears of the beacons before. -/
namespace WsnContest.Routing
open Tinyos Lib

/-- The ids of the beacons among `fs`. -/
def beaconIds (fs : List Frame) : List Word16 := fs.filterMap fun f => f.routeMsg.map RouteMsg.id

theorem beaconIds_append (fs gs : List Frame) :
    beaconIds (fs ++ gs) = beaconIds fs ++ beaconIds gs :=
  List.filterMap_append

theorem beaconIds_of_none {fs : List Frame} (h : ∀ f ∈ fs, f.routeMsg = none) :
    beaconIds fs = [] := by
  rw [beaconIds, List.filterMap_eq_nil_iff]
  intro f hf
  rw [h f hf]
  rfl

@[simp] theorem beaconIds_route (tos addr : Word16) (rm : RouteMsg) :
    beaconIds [airedBy tos addr (.route rm)] = [rm.id] := rfl

/-- What a node has sent rises up to the newest id it has heard of, and reaches it only
while no relay is due. -/
structure Rising (ids : List Word16) (t : Table) : Prop where
  sorted : ids.Pairwise (· < ·)
  le : ∀ b ∈ ids, b ≤ t.id
  due : t.timer1.isSome → ∀ b ∈ ids, b < t.id

theorem Rising.count_le {ids : List Word16} {t : Table} (h : Rising ids t) (b : Word16) :
    ids.count b ≤ 1 := by
  have hnodup : ids.Nodup := h.sorted.imp fun hlt => hlt.ne
  exact List.nodup_iff_count_le_one.mp hnodup b

section Node
variable {ids : List Word16} {tos : Word16} {s : State}

theorem Rising.send {t : Table} (h : Rising ids t) (hdue : t.timer1.isSome) :
    Rising (ids ++ [t.id]) { t with timer1 := none } := by
  have hlt := h.due hdue
  refine ⟨?_, ?_, nofun⟩
  · apply List.pairwise_append.mpr
    exact ⟨h.sorted, List.pairwise_singleton .., by simpa using hlt⟩
  · intro b hb
    rcases List.mem_append.mp hb with hold | hlast
    · exact h.le b hold
    · exact (List.mem_singleton.mp hlast).le

theorem Rising.hear {t : Table} (h : Rising ids t) (rm : RouteMsg) (ans : Answers) :
    Rising ids (t.hear rm ans) := by
  unfold Table.hear
  by_cases hnew : t.id < rm.id
  · simp only [if_pos hnew]
    refine ⟨h.sorted, fun b hb => ?_, fun _ b hb => ?_⟩
    · exact (h.le b hb).trans hnew.le
    · exact (h.le b hb).trans_lt hnew
  · simp only [if_neg hnew]
    exact ⟨h.sorted, h.le, h.due⟩

/-- A local event of a node other than the sink. -/
theorem Rising.act (h : Rising ids s.table) (htos : tos ≠ recvNodeId) {e : Event} {s' : State}
    {fs : List Frame} (hhandle : handle tos e s = some (s', fs)) :
    Rising (ids ++ beaconIds fs) s'.table := by
  cases handle_outcome hhandle with
  | aside haside =>
    have htable : s'.table = s.table := haside.table
    rw [htable, beaconIds_of_none haside.frames, List.append_nil]
    exact h
  | beacon hsink => exact absurd hsink htos
  | relay he hdue hidle htable =>
    rw [htable, beaconIds_route]
    exact h.send hdue
  | dropped he hdue hfailed htable =>
    rw [htable]
    have hnone : beaconIds [] = [] := rfl
    rw [hnone, List.append_nil]
    exact ⟨h.sorted, h.le, nofun⟩

theorem Rising.deliver (h : Rising ids s.table) (tos : Word16) (ans : Answers) (f : Frame) :
    Rising (ids ++ beaconIds (Routing.hear tos ans f s).2) (Routing.hear tos ans f s).1.table := by
  cases hrm : f.routeMsg with
  | none =>
    have haside := hear_aside tos ans f s hrm
    rw [haside.table, beaconIds_of_none haside.frames, List.append_nil]
    exact h
  | some rm =>
    have hnone : beaconIds [] = [] := rfl
    rcases hear_beacon hrm tos ans s with heard | hkept
    · rw [heard, hnone, List.append_nil]
      by_cases hlen : f.length = sizeofRouteMsg
      · rw [hlen, routeReceive_table]
        exact h.hear rm ans
      · rw [routeReceive, if_neg fun hok => hlen hok.1]
        exact h
    · rw [hkept, hnone, List.append_nil]
      exact h

end Node

section Network
variable {V : Type} [DecidableEq V]

/-- The beacons of id `b` that other nodes than the sink have sent. -/
def relays (id : V → Word16) (b : Word16) (log : List (V × Frame)) : List (V × Frame) :=
  log.filter fun e => id e.1 ≠ recvNodeId ∧ e.2.routeMsg.map RouteMsg.id = some b

theorem count_relays_le (id : V → Word16) (b : Word16) (log : List (V × Frame)) (v : V) :
    ((relays id b log).map Prod.fst).count v ≤ (beaconIds (Network.logOf v log)).count b := by
  induction log with
  | nil => exact le_rfl
  | cons e log ih =>
    have hsent : beaconIds (Network.logOf v (e :: log)) =
        (if e.1 = v then beaconIds [e.2] else []) ++ beaconIds (Network.logOf v log) := by
      by_cases hv : e.1 = v
      · simp [Network.logOf, hv, ← beaconIds_append]
      · simp [Network.logOf, hv]
    rw [hsent, List.count_append]
    by_cases hrelay : id e.1 ≠ recvNodeId ∧ e.2.routeMsg.map RouteMsg.id = some b
    · have hcons : relays id b (e :: log) = e :: relays id b log :=
        List.filter_cons_of_pos (by simpa using hrelay)
      rw [hcons, List.map_cons, List.count_cons]
      have hone : beaconIds [e.2] = [b] := by simp [beaconIds, hrelay.2]
      by_cases hv : e.1 = v
      · rw [if_pos hv, hone]
        simp only [hv, beq_self_eq_true, if_true, List.count_singleton]
        omega
      · simpa [hv] using ih
    · have hcons : relays id b (e :: log) = relays id b log :=
        List.filter_cons_of_neg (by simpa using hrelay)
      rw [hcons]
      exact ih.trans (Nat.le_add_left ..)

theorem Rising.put {id : V → Word16} {c : Network.Config (fun _ : V => State) Frame}
    (h : ∀ v, id v ≠ recvNodeId → Rising (beaconIds (Network.logOf v c.log)) (c.node v).table)
    {v : V}
    {s : State} {fs : List Frame}
    (hs : id v ≠ recvNodeId →
      Rising (beaconIds (Network.logOf v c.log) ++ beaconIds fs) s.table) (u : V)
    (hu : id u ≠ recvNodeId) :
    Rising (beaconIds (Network.logOf u (c.put v s fs).log)) ((c.put v s fs).node u).table := by
  rw [Network.Config.put_log, Network.logOf_append, beaconIds_append]
  by_cases hv : v = u
  · subst hv
    rw [if_pos rfl, c.put_node_self]
    exact hs hu
  · have hnone : beaconIds [] = [] := rfl
    rw [if_neg hv, hnone, List.append_nil, c.put_node_of_ne _ _ (Ne.symm hv)]
    exact h u hu

theorem rising_of_reachable {id : V → Word16} {c : Network.Config (fun _ : V => State) Frame}
    (h : (routing id).system.Reachable System.anyStep c) :
    ∀ v, id v ≠ recvNodeId → Rising (beaconIds (Network.logOf v c.log)) (c.node v).table := by
  apply h.invariant
    (P := fun c => ∀ v, id v ≠ recvNodeId →
      Rising (beaconIds (Network.logOf v c.log)) (c.node v).table)
  · intro v _
    refine ⟨.nil, ?_, ?_⟩ <;> simp [Network.system, Network.logOf, beaconIds]
  · intro c e c' hc _ hstep
    obtain ⟨v, a, s, fs, rfl, hhandle, rfl⟩ | ⟨i, v, ans, w, f, rfl, -, rfl⟩ :=
      (routing id).system_step hstep
    · exact Rising.put hc fun hv => (hc v hv).act hv hhandle
    · intro u hu
      rw [Network.Config.mark_log, Network.Config.mark_node]
      exact Rising.put hc (fun hv => (hc v hv).deliver (id v) ans f) u hu

/-- Each node sends a beacon id once at most, so that the others pass on an id once each. -/
theorem length_relays_le [Fintype V] {id : V → Word16}
    {c : Network.Config (fun _ : V => State) Frame}
    (h : (routing id).system.Reachable System.anyStep c) {sink : V} (hsink : id sink = recvNodeId)
    (b : Word16) : (relays id b c.log).length ≤ Fintype.card V - 1 := by
  have hmem : ∀ v ∈ (relays id b c.log).map Prod.fst, id v ≠ recvNodeId := by
    intro v hv
    obtain ⟨e, he, rfl⟩ := List.mem_map.mp hv
    have hrelay := (List.mem_filter.mp he).2
    rw [decide_eq_true_eq] at hrelay
    exact hrelay.1
  have hnodup : ((relays id b c.log).map Prod.fst).Nodup := by
    rw [List.nodup_iff_count_le_one]
    intro v
    by_cases hv : id v = recvNodeId
    · rw [List.count_eq_zero_of_not_mem fun hrelay => hmem v hrelay hv]
      exact Nat.zero_le 1
    · exact (count_relays_le id b c.log v).trans ((rising_of_reachable h v hv).count_le b)
  have hsubset : ((relays id b c.log).map Prod.fst).toFinset ⊆ Finset.univ.erase sink := by
    intro v hv
    rw [List.mem_toFinset] at hv
    apply Finset.mem_erase.mpr
    refine ⟨?_, Finset.mem_univ v⟩
    rintro rfl
    exact hmem v hv hsink
  have hcard := Finset.card_le_card hsubset
  rw [List.toFinset_card_of_nodup hnodup, List.length_map,
    Finset.card_erase_of_mem (Finset.mem_univ sink)] at hcard
  exact hcard

end Network

/-- In every run of every network the beacon ids that a node other than the sink sends
rise, so that it sends each id once at most; and all of them together pass on an id of
the sink once each. -/
theorem beacons_flooded_once {V : Type} [DecidableEq V] [Fintype V] (id : V → Word16) (sink : V)
    (hsink : id sink = recvNodeId) {c : Network.Config (fun _ : V => State) Frame}
    (h : (routing id).system.Reachable System.anyStep c) :
    (∀ v, id v ≠ recvNodeId → (beaconIds (Network.logOf v c.log)).Pairwise (· < ·)) ∧
    (∀ v b, id v ≠ recvNodeId → (beaconIds (Network.logOf v c.log)).count b ≤ 1) ∧
    ∀ b, (relays id b c.log).length ≤ Fintype.card V - 1 := by
  refine ⟨?_, ?_, length_relays_le h hsink⟩
  · intro v hv
    exact (rising_of_reachable h v hv).sorted
  · intro v b hv
    exact (rising_of_reachable h v hv).count_le b

abbrev pair : Fin 2 → Word16 := ![1, 2]

/-- One beacon, and its relay by the neighbour. -/
theorem beacons_flooded_once_pair :
    ∃ c, (routing pair).system.Reachable System.anyStep c ∧
      (relays pair 1 c.log).length = 1 ∧
      (relays pair 1 c.log).length ≤ Fintype.card (Fin 2) - 1 := by
  have hinit : (routing pair).system.Reachable System.anyStep _ := .init
  have hreach := System.reachable_of_runFrom hinit
    [.act 0 .booted, .act 0 (.startDone .success), .act 1 .booted, .act 1 (.startDone .success),
      .act 0 (.timer0Fired .success), .deliver 0 1 ⟨.success, .success, 0⟩,
      .act 1 (.timer1Fired .success)] (by decide) rfl
  exact ⟨_, hreach, by decide, (beacons_flooded_once _ 0 rfl hreach).2.2 1⟩

/-- All beacons of id `b` but those that the sink sends on its own, whose metric is 0. -/
def rebroadcasts {V : Type} (id : V → Word16) (b : Word16) (log : List (V × Frame)) :
    List (V × Frame) :=
  log.filter fun e => e.2.routeMsg.map RouteMsg.id = some b ∧
    ¬ (id e.1 = recvNodeId ∧ e.2.routeMsg.map RouteMsg.metric = some 0)

/-- The sink has sent `k` beacons and heard nothing. -/
structure Counted (k : ℕ) (s : State) : Prop where
  radio : s.radio = .on
  busy : s.busy = false
  timer0 : s.timer0.isSome
  cnt : s.cnt = Fin.ofNat (2 ^ 16) (k + 1)
  curId : s.curId = Fin.ofNat (2 ^ 16) k
  curMetric : s.curMetric = 0xffff

def beacon (k : ℕ) : Frame :=
  airedBy recvNodeId broadcastAddr (.route ⟨Fin.ofNat (2 ^ 16) k, recvNodeId, 0⟩)

theorem timer0Fired_accepted {s : State} (hbusy : s.busy = false) (htimer : s.timer0.isSome) :
    handle recvNodeId (.timer0Fired .success) s =
      some ({ (({ s with timer0 := none }.fill (.route ⟨s.cnt, recvNodeId, 0⟩)).amSend
          (.route ⟨s.cnt, recvNodeId, 0⟩) broadcastAddr .success) with
          busy := true
          curId := s.cnt
          cnt := s.cnt + 1
          timer0 := some (if s.cnt + 1 ≤ 29 then 500 else 3000) },
        [airedBy recvNodeId broadcastAddr (.route ⟨s.cnt, recvNodeId, 0⟩)]) := by
  simp [handle, htimer, timer0Fired, hbusy, State.fill, State.amSend]

theorem timer1Fired_accepted {tos : Word16} {s : State} (hbusy : s.busy = false)
    (htimer : s.timer1.isSome) :
    ∃ t, handle tos (.timer1Fired .success) s =
      some (t, [airedBy tos broadcastAddr (.route ⟨s.curId, tos, s.curMetric⟩)]) := by
  refine ⟨(timer1Fired tos .success { s with timer1 := none }).1, ?_⟩
  simp [handle, htimer, timer1Fired, hbusy]

theorem sendDone_accepted {tos : Word16} {am : AmId} {s : State} (err : ErrorT)
    (h : am ∈ s.pending) :
    handle tos (.sendDone am err) s =
      some (sendDone { s with pending := s.pending.erase am }, []) :=
  if_pos h

theorem Counted.next {k : ℕ} {s : State} (h : Counted k s) :
    ∃ t u, handle recvNodeId (.timer0Fired .success) s = some (t, [beacon (k + 1)]) ∧
      handle recvNodeId (.sendDone .route .success) t = some (u, []) ∧ Counted (k + 1) u := by
  have hcnt : s.cnt + 1 = Fin.ofNat (2 ^ 16) (k + 1 + 1) := by
    rw [h.cnt]
    apply Fin.ext
    simp [Fin.val_add]
  have hsent := timer0Fired_accepted h.busy h.timer0
  rw [show airedBy recvNodeId broadcastAddr (.route ⟨s.cnt, recvNodeId, 0⟩) = beacon (k + 1) from
    h.cnt ▸ rfl] at hsent
  refine ⟨_, _, hsent, sendDone_accepted .success List.mem_cons_self, ?_⟩
  exact ⟨h.radio, rfl, rfl, hcnt, h.cnt, h.curMetric⟩

/-- A node that hears of a newer beacon and a better route passes both on. -/
theorem passed_on {V : Type} [DecidableEq V] {id : V → Word16}
    {c : Network.Config (fun _ : V => State) Frame}
    (hreach : (routing id).system.Reachable System.anyStep c) {i : ℕ} {w v : V} {source : Word16}
    {rm : RouteMsg} (hlog : c.log[i]? = some (w, airedBy source broadcastAddr (.route rm)))
    (hon : (c.node v).radio = .on) (hbusy : (c.node v).busy = false)
    (hid : (c.node v).curId < rm.id) (hmetric : (c.node v).curMetric > rm.metric + 1) :
    ∃ c', (routing id).system.Reachable System.anyStep c' ∧
      c'.log = c.log ++
        [(v, airedBy (id v) broadcastAddr (.route ⟨rm.id, id v, rm.metric + 1⟩))] ∧
      ∀ u, u ≠ v → c'.node u = c.node u := by
  have hhear := hear_route hon (id v) source ⟨.success, .success, 0⟩ rm
  generalize hs : routeReceive sizeofRouteMsg rm ⟨.success, .success, 0⟩ (c.node v) = s at hhear
  have hdelivered := hreach.step (e := .deliver i v ⟨.success, .success, 0⟩) trivial
    ((routing id).system_step_deliver hlog hhear)
  have htable : s.table = (c.node v).table.hear rm ⟨.success, .success, 0⟩ := by
    rw [← hs, routeReceive_table]
  have hidle : s.busy = false := by
    rw [← hs, routeReceive_eq]
    exact hbusy
  have hcurId : s.curId = rm.id := (congrArg Table.id htable).trans (if_pos hid)
  have hcurMetric : s.curMetric = rm.metric + 1 :=
    (congrArg Table.metric htable).trans (if_pos hmetric)
  have htimer : s.timer1.isSome := by
    rw [show s.timer1 = _ from congrArg Table.timer1 htable]
    exact Table.hear_timer1.mpr (.inr hid)
  obtain ⟨t, hfired⟩ := @timer1Fired_accepted (id v) s hidle htimer
  rw [hcurId, hcurMetric] at hfired
  have hnode : ((c.put v s []).mark i v).node v = s := c.put_node_self v s []
  rw [← hnode] at hfired
  refine ⟨_, hdelivered.step (e := .act v (.timer1Fired .success)) trivial
    ((routing id).system_step_act (v := v) (e := .timer1Fired .success) hfired), ?_, ?_⟩
  · simp
  · intro u hu
    rw [Network.Config.put_node_of_ne _ _ _ hu, Network.Config.mark_node,
      Network.Config.put_node_of_ne _ _ _ hu]

theorem counted_round {j : ℕ} {c : Network.Config (fun _ : Fin 2 => State) Frame}
    (hreach : (routing pair).system.Reachable System.anyStep c) (hcounted : Counted j (c.node 0)) :
    ∃ c', (routing pair).system.Reachable System.anyStep c' ∧ Counted (j + 1) (c'.node 0) ∧
      c'.node 1 = c.node 1 ∧ c'.log = c.log ++ [(0, beacon (j + 1))] := by
  have hne : (1 : Fin 2) ≠ 0 := by decide
  obtain ⟨t, u, hsent, hdone, hnext⟩ := hcounted.next
  have hstep := hreach.step (e := .act 0 (.timer0Fired .success)) trivial
    ((routing pair).system_step_act (v := 0) (e := .timer0Fired .success) hsent)
  rw [← c.put_node_self 0 t [beacon (j + 1)]] at hdone
  have hstep' := hstep.step (e := .act 0 (.sendDone .route .success)) trivial
    ((routing pair).system_step_act (v := 0) (e := .sendDone .route .success) hdone)
  refine ⟨_, hstep', ?_, ?_, ?_⟩
  · rw [Network.Config.put_node_self]
    exact hnext
  · rw [Network.Config.put_node_of_ne _ _ _ hne, Network.Config.put_node_of_ne _ _ _ hne]
  · simp

/-- A sink that goes on sending, and a neighbour that listens. -/
theorem counted_of_rounds (k : ℕ) :
    ∃ c, (routing pair).system.Reachable System.anyStep c ∧ Counted (k + 1) (c.node 0) ∧
      c.node 1 = { radio := .on } ∧ ∃ pre, c.log = pre ++ [(0, beacon (k + 1))] := by
  induction k with
  | zero =>
    have hinit : (routing pair).system.Reachable System.anyStep _ := .init
    have hstart := System.reachable_of_runFrom hinit
      [.act 1 .booted, .act 1 (.startDone .success), .act 0 .booted,
        .act 0 (.startDone .success)] (by decide) rfl
    obtain ⟨c, hreach, hcounted, hother, hlog⟩ :=
      counted_round (j := 0) hstart ⟨rfl, rfl, rfl, rfl, rfl, rfl⟩
    exact ⟨c, hreach, hcounted, hother, _, hlog⟩
  | succ k ih =>
    obtain ⟨c, hreach, hcounted, hother, -⟩ := ih
    obtain ⟨c', hreach', hcounted', hother', hlog⟩ := counted_round hreach hcounted
    exact ⟨c', hreach', hcounted', hother'.trans hother, _, hlog⟩

/-- The counter of the sink has wrapped when its neighbour passes on the beacon 65535;
the sink hears that and passes it on again: two of it, among two nodes. -/
theorem sink_passes_on_its_own :
    ∃ c, (routing pair).system.Reachable System.anyStep c ∧
      Fintype.card (Fin 2) - 1 < (rebroadcasts pair 65535 c.log).length := by
  have hne : (1 : Fin 2) ≠ 0 := by decide
  obtain ⟨c₀, hreach₀, hcounted₀, hother₀, pre, hlog₀⟩ := counted_of_rounds 65534
  obtain ⟨c₁, hreach₁, hcounted₁, hother₁, hlog₁⟩ := counted_round hreach₀ hcounted₀
  have hlast : beacon (65534 + 1) =
      airedBy recvNodeId broadcastAddr (.route ⟨65535, recvNodeId, 0⟩) := rfl
  have hnode : c₁.node 1 = { radio := .on } := hother₁.trans hother₀
  have hfirst : c₁.log[pre.length]? =
      some (0, airedBy recvNodeId broadcastAddr (.route ⟨65535, recvNodeId, 0⟩)) := by
    rw [hlog₁, hlog₀, ← hlast]
    simp
  obtain ⟨c₂, hreach₂, hlog₂, hkept₂⟩ := passed_on hreach₁ (v := 1) hfirst
    (by rw [hnode]) (by rw [hnode]) (by rw [hnode]; decide) (by rw [hnode]; decide)
  have hsink : c₂.node 0 = c₁.node 0 := hkept₂ 0 (Ne.symm hne)
  have hsecond : c₂.log[c₁.log.length]? =
      some (1, airedBy (pair 1) broadcastAddr (.route ⟨65535, pair 1, 0 + 1⟩)) := by
    rw [hlog₂]
    simp
  have hid : (c₁.node 0).curId < 65535 := by
    rw [hcounted₁.curId]
    decide
  have hmetric : (c₁.node 0).curMetric > 0 + 1 + 1 := by
    rw [hcounted₁.curMetric]
    decide
  obtain ⟨c₃, hreach₃, hlog₃, -⟩ := passed_on hreach₂ (v := 0) hsecond
    (hsink ▸ hcounted₁.radio) (hsink ▸ hcounted₁.busy) (hsink ▸ hid) (hsink ▸ hmetric)
  refine ⟨c₃, hreach₃, ?_⟩
  rw [hlog₃, hlog₂, rebroadcasts, List.filter_append, List.filter_append]
  have hcard : Fintype.card (Fin 2) = 2 := rfl
  have hneighbour : List.filter (fun e => decide (e.2.routeMsg.map RouteMsg.id = some 65535 ∧
      ¬ (pair e.1 = recvNodeId ∧ e.2.routeMsg.map RouteMsg.metric = some 0)))
      [((1 : Fin 2), airedBy (pair 1) broadcastAddr (.route ⟨65535, pair 1, 0 + 1⟩))] =
      [(1, airedBy (pair 1) broadcastAddr (.route ⟨65535, pair 1, 0 + 1⟩))] := rfl
  have hagain : List.filter (fun e => decide (e.2.routeMsg.map RouteMsg.id = some 65535 ∧
      ¬ (pair e.1 = recvNodeId ∧ e.2.routeMsg.map RouteMsg.metric = some 0)))
      [((0 : Fin 2), airedBy (pair 0) broadcastAddr (.route ⟨65535, pair 0, 0 + 1 + 1⟩))] =
      [(0, airedBy (pair 0) broadcastAddr (.route ⟨65535, pair 0, 0 + 1 + 1⟩))] := rfl
  rw [hneighbour, hagain, hcard, List.length_append, List.length_append]
  simp only [List.length_singleton]
  omega

end WsnContest.Routing
