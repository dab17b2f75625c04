import WsnContest.Lib.Wave
import WsnContest.Routing.LoopFree

/-! With one beacon of the sink at a time and nothing lost, every round of beacons
settles the nodes one hop further out. -/
namespace WsnContest.Routing
open Tinyos Lib

/-- What happens in the network of the nodes. -/
abbrev NetEvent (V : Type) := Network.Event (fun _ : V => Event) fun _ => Answers

section Rounds
variable {V : Type} (G : SimpleGraph V) (sink : V) (c : Config V)

/-- Every broadcast has reached every neighbour, and no relay is due. -/
def Finished : Prop :=
  Network.Quiet G.Adj c ∧ ∀ v, (c.node v).timer1 = none

/-- Only routing traffic, over the links of `G`; every send is accepted, and the
sink's beacon waits until the last one is everywhere. -/
def RoundByRound (c : Config V) : NetEvent V → Prop
  | .act _ (.timer0Fired sent) => sent = .success ∧ Finished G c
  | .act _ (.timer1Fired sent) => sent = .success
  | .act _ (.sourceData ..) => False
  | .act _ _ => True
  | .deliver i v _ =>
    (∃ u f, c.log[i]? = some (u, f) ∧ G.Adj u v) ∧ (c.node v).radio = .on

variable [DecidableEq V]

/-- How many beacons the sink has broadcast. -/
def rounds : ℕ := (c.log.map Prod.fst).count sink

/-- The sink's `k`-th beacon was sent, and its round is over. -/
def RoundDone (k : ℕ) : Prop :=
  k < rounds sink c ∨ k = rounds sink c ∧ Finished G c

end Rounds

section Decidable
variable {V : Type} [Fintype V] [DecidableEq V] (G : SimpleGraph V) [DecidableRel G.Adj]
  (sink : V) (c : Config V)

instance : Decidable (Finished G c) :=
  inferInstanceAs (Decidable (Network.Quiet G.Adj c ∧ ∀ v, (c.node v).timer1 = none))

instance : (e : NetEvent V) → Decidable (RoundByRound G c e)
  | .act _ (.timer0Fired sent) => inferInstanceAs (Decidable (sent = .success ∧ Finished G c))
  | .act _ (.timer1Fired sent) => inferInstanceAs (Decidable (sent = .success))
  | .act _ (.sourceData ..) => .isFalse id
  | .act _ .booted | .act _ (.startDone _) | .act _ (.sendDone _ _) => .isTrue trivial
  | .deliver i v _ =>
    have : Decidable (∃ u f, c.log[i]? = some (u, f) ∧ G.Adj u v) :=
      decidable_of_iff (∃ u, ((c.log[i]?.map Prod.fst) = some u) ∧ G.Adj u v) (by
        simp only [Option.map_eq_some_iff, Prod.exists, exists_and_right, exists_eq_right])
    inferInstanceAs (Decidable (_ ∧ _))

instance (k : ℕ) : Decidable (RoundDone G sink c k) :=
  inferInstanceAs (Decidable (k < rounds sink c ∨ k = rounds sink c ∧ Finished G c))
end Decidable

/-- What is on the air and in the nodes when there is only routing traffic. -/
structure OnlyBeacons {V : Type} (G : SimpleGraph V) (id : V → Word16) (sink : V)
    (c : Config V) : Prop where
  beacons : ∀ u f, (u, f) ∈ c.log → ∃ rm, f = airedBy (id u) broadcastAddr (.route rm)
  idle : ∀ v, v ≠ sink → (c.node v).busy = false
  linked : ∀ i v, (i, v) ∈ c.delivered → ∃ u f, c.log[i]? = some (u, f) ∧ G.Adj u v

/-- Apart from data frames, a node other than the sink sends beacons only and
never becomes busy. -/
theorem handle_beacons {tos : Word16} {e : Event} {s s' : State} {fs : List Frame}
    (h : handle tos e s = some (s', fs))
    (he : ∀ source destination len bm ans, e ≠ .sourceData source destination len bm ans) :
    (tos ≠ recvNodeId → s.busy = false → s'.busy = false) ∧
      ∀ f ∈ fs, ∃ rm, f = airedBy tos broadcastAddr (.route rm) := by
  cases handle_dispatch h with
  | booted => exact ⟨fun _ hidle => (booted_busy tos s).trans hidle, by simp⟩
  | @startDone err => exact ⟨fun _ hidle => (startDone_busy err s).trans hidle, by simp⟩
  | @timer0Fired sent _ _ _ hrun =>
    constructor
    · intro htos hidle
      rw [timer0Fired_of_ne sent _ htos] at hrun
      cases hrun
      exact hidle
    · have hframes := timer0Fired_frames tos sent { s with timer0 := none }
      rwa [hrun] at hframes
  | @timer1Fired sent _ _ _ hrun =>
    have hbusy := timer1Fired_busy tos sent { s with timer1 := none }
    have hframes := timer1Fired_frames tos sent { s with timer1 := none }
    rw [hrun] at hbusy hframes
    exact ⟨fun _ hidle => hbusy.trans hidle, hframes⟩
  | sendDone => exact ⟨fun _ _ => rfl, by simp⟩
  | sourceData => exact absurd rfl (he _ _ _ _ _)

variable {V : Type} [DecidableEq V] {G : SimpleGraph V} {id : V → Word16} {sink : V}
  {c c' : Config V}

omit [DecidableEq V] in
theorem RoundByRound.no_data {v : V} {e : Event} (h : RoundByRound G c (.act v e))
    (source destination : Word16) (len : Word8) (bm : BeaconMsg) (ans : Answers) :
    e ≠ .sourceData source destination len bm ans := by
  rintro rfl
  exact h

theorem OnlyBeacons.step (hc : OnlyBeacons G id sink c) (hsink : ∀ v, id v = recvNodeId → v = sink)
    {e : NetEvent V} (hallowed : RoundByRound G c e)
    (h : (routing id).system.step c e = some c') : OnlyBeacons G id sink c' := by
  obtain ⟨v, a, s, fs, rfl, hhandle, rfl⟩ | ⟨i, v, ans, u, f, rfl, hi, rfl⟩ :=
    Network.system_step _ h
  · obtain ⟨hbusy, hfs⟩ := handle_beacons hhandle hallowed.no_data
    constructor
    · intro u f hmem
      rcases Network.Config.mem_put_log.mp hmem with hold | ⟨rfl, hf⟩
      · exact hc.beacons u f hold
      · exact hfs f hf
    · apply Network.Config.forall_put_node
        (P := fun w (t : State) => w ≠ sink → t.busy = false)
      · intro hv
        exact hbusy (fun htos => hv (hsink v htos)) (hc.idle v hv)
      · exact fun w _ => hc.idle w
    · intro i w hmem
      obtain ⟨u, f, hlog, hadj⟩ := hc.linked i w hmem
      exact ⟨u, f, Network.Config.put_log_getElem? hlog v s fs, hadj⟩
  · obtain ⟨⟨u', f', hi', hadj⟩, hon⟩ := hallowed
    obtain ⟨rfl, rfl⟩ : u = u' ∧ f = f' := by simpa using hi.symm.trans hi'
    obtain ⟨rm, rfl⟩ := hc.beacons u f (List.mem_of_getElem? hi)
    have hhear : (routing id).receive v ans (airedBy (id u) broadcastAddr (.route rm)) (c.node v) =
        (routeReceive sizeofRouteMsg rm ans (c.node v), []) := hear_route hon (id v) (id u) ans rm
    rw [hhear]
    constructor
    · simpa using hc.beacons
    · rw [Network.Config.mark_node]
      apply Network.Config.forall_put_node
        (P := fun w (t : State) => w ≠ sink → t.busy = false)
      · rw [routeReceive_eq]
        exact hc.idle v
      · exact fun w _ => hc.idle w
    · intro j w hmem
      rcases List.mem_append.mp hmem with hold | hnew
      · simpa using hc.linked j w hold
      · cases List.mem_singleton.mp hnew
        exact ⟨u, _, by simpa using hi, hadj⟩

section Wave
variable {V : Type} (c : Config V)

/-- A beacon of `u` with round `j` and metric `m` is on the air. -/
def told (u : V) (j m : ℕ) : Prop :=
  ∃ f rm, (u, f) ∈ c.log ∧ f.routeMsg = some rm ∧ rm.id.val = j ∧ rm.metric.val = m

/-- Such a beacon has reached `v`. -/
def heard (u v : V) (j m : ℕ) : Prop :=
  ∃ i f rm, c.log[i]? = some (u, f) ∧ (i, v) ∈ c.delivered ∧ f.routeMsg = some rm ∧
    rm.id.val = j ∧ rm.metric.val = m

/-- The network as rounds of a flood. -/
def wave : Wave V where
  rank := fun v => (c.node v).curMetric.val
  round := fun v => (c.node v).curId.val
  due := fun v => (c.node v).timer1.isSome
  told := told c
  heard := heard c

end Wave

omit [DecidableEq V] in
theorem Finished.wave (h : Finished G c) : (wave c).Finished G where
  heard := by
    rintro u j m v ⟨f, rm, hmem, hrm, hj, hm⟩ hadj
    obtain ⟨i, hi⟩ := List.mem_iff_getElem?.mp hmem
    exact ⟨i, f, rm, hi, h.1 i u f v hi hadj, hrm, hj, hm⟩
  due := by
    intro v hv
    simp [Routing.wave, h.2 v] at hv

theorem told_put {v u : V} {s : State} {fs : List Frame} {j m : ℕ} :
    told (c.put v s fs) u j m ↔ told c u j m ∨ u = v ∧ ∃ f ∈ fs, ∃ rm, f.routeMsg = some rm ∧
      rm.id.val = j ∧ rm.metric.val = m := by
  constructor
  · rintro ⟨f, rm, hmem, hrm⟩
    rcases Network.Config.mem_put_log.mp hmem with hold | ⟨rfl, hf⟩
    · exact .inl ⟨f, rm, hold, hrm⟩
    · exact .inr ⟨rfl, f, hf, rm, hrm⟩
  · rintro (⟨f, rm, hmem, hrm⟩ | ⟨rfl, f, hf, rm, hrm⟩)
    · exact ⟨f, rm, Network.Config.mem_put_log.mpr (.inl hmem), hrm⟩
    · exact ⟨f, rm, Network.Config.mem_put_log.mpr (.inr ⟨rfl, hf⟩), hrm⟩

@[simp] theorem told_put_nil (v : V) (s : State) : told (c.put v s []) = told c := by
  ext u j m
  simp [told]

@[simp] theorem heard_put_nil (v : V) (s : State) : heard (c.put v s []) = heard c := by
  ext u w j m
  simp [heard]

theorem OnlyBeacons.heard_put (hc : OnlyBeacons G id sink c) {v u w : V} {s : State}
    {fs : List Frame} {j m : ℕ} (h : heard (c.put v s fs) u w j m) : heard c u w j m := by
  obtain ⟨i, f, rm, hlog, hmem, hrm⟩ := h
  obtain ⟨u', f', hold, -⟩ := hc.linked i w hmem
  cases (Network.Config.put_log_getElem? hold v s fs).symm.trans hlog
  exact ⟨i, f, rm, hold, hmem, hrm⟩

theorem rounds_put (c : Config V) (sink v : V) (s : State) (fs : List Frame) :
    rounds sink (c.put v s fs) = rounds sink c + if v = sink then fs.length else 0 := by
  have hmap : (fs.map (v, ·)).map Prod.fst = List.replicate fs.length v := by
    rw [List.map_map]
    exact List.map_const' ..
  rw [rounds, Network.Config.put_log, List.map_append, List.count_append, hmap,
    List.count_replicate]
  simp [rounds]

/-- The rounds run as an abstract flood does until the 16-bit round number wraps;
every node is settled by then and stays so. -/
structure Converging (G : SimpleGraph V) (sink : V) (c : Config V) : Prop where
  exact : rounds sink c < 2 ^ 16 → (wave c).Exact G sink (rounds sink c)
  cnt : rounds sink c + 1 < 2 ^ 16 → (c.node sink).cnt.val = rounds sink c + 1
  settled : ∀ v, v ≠ sink → G.dist sink v + 1 ≤ rounds sink c →
    (c.node v).curMetric.val ≤ G.dist sink v

theorem converging_init (G : SimpleGraph V) (sink : V) :
    Converging G sink ⟨fun _ : V => {}, [], []⟩ where
  exact := fun _ => {
    told_round := by simp [wave, told]
    round_le := by simp [wave]
    sink_round := rfl
    sink_due := by simp [wave]
    passed := by simp [wave]
    heard := by simp [wave, heard]
    told_rank := by simp [wave, told]
    settled := by simp [rounds] }
  cnt := fun _ => rfl
  settled := by simp [rounds]

/-- A step that is not the sink's beacon and raises no metric. -/
theorem Converging.keep (hr : Converging G sink c) (hrounds : rounds sink c' = rounds sink c)
    (hcnt : (c'.node sink).cnt = (c.node sink).cnt)
    (hmetric : ∀ w, (c'.node w).curMetric ≤ (c.node w).curMetric)
    (hexact : rounds sink c < 2 ^ 16 → (wave c').Exact G sink (rounds sink c)) :
    Converging G sink c' where
  exact := by
    rw [hrounds]
    exact hexact
  cnt := by
    rw [hrounds, hcnt]
    exact hr.cnt
  settled := by
    intro w hw hR
    rw [hrounds] at hR
    exact (Fin.le_def.mp (hmetric w)).trans (hr.settled w hw hR)

/-- What the route protocol does not touch leaves the rounds alone. -/
theorem Converging.aside (hr : Converging G sink c) {v : V} {s : State}
    (htable : s.table = (c.node v).table) : Converging G sink (c.put v s []) := by
  have htables : ∀ w, ((c.put v s []).node w).table = (c.node w).table :=
    Network.Config.put_node_congr (fun _ => State.table) htable []
  have hmetric := fun w => congrArg Table.metric (htables w)
  have hid := fun w => congrArg Table.id (htables w)
  have htimer := fun w => congrArg Table.timer1 (htables w)
  simp only [State.table] at hmetric hid htimer
  refine hr.keep ?_ (congrArg Table.cnt (htables sink)) (fun w => (hmetric w).le) fun hR => ?_
  · rw [rounds_put]
    simp
  · have hwave : wave (c.put v s []) = wave c := by
      simp [wave, hmetric, hid, htimer]
    rw [hwave]
    exact hr.exact hR

omit [DecidableEq V] in
/-- Every node is closer to the sink than a round number is to its wrap. -/
theorem dist_lt [Fintype V] (hG : G.Connected) (hcard : Fintype.card V < 65535) (u v : V) :
    G.dist u v + 1 < 2 ^ 16 := by
  obtain ⟨walk, hpath, hlen⟩ := hG.exists_path_of_dist u v
  have hlt := hpath.length_lt
  omega

theorem Converging.beacon [Fintype V] (hr : Converging G sink c) (hc : OnlyBeacons G id sink c)
    (hG : G.Connected) (hcard : Fintype.card V < 65535) (hfin : Finished G c) {s : State}
    (htable : s.table = { (c.node sink).table with
      id := (c.node sink).cnt, cnt := (c.node sink).cnt + 1 }) :
    Converging G sink (c.put sink s
      [airedBy (id sink) broadcastAddr (.route ⟨(c.node sink).cnt, id sink, 0⟩)]) := by
  set fs := [airedBy (id sink) broadcastAddr (.route ⟨(c.node sink).cnt, id sink, 0⟩)]
  have hrounds : rounds sink (c.put sink s fs) = rounds sink c + 1 := by
    rw [rounds_put, if_pos rfl]
    rfl
  have hmetric : ∀ w, ((c.put sink s fs).node w).curMetric = (c.node w).curMetric :=
    Network.Config.put_node_congr (fun _ => State.curMetric) (congrArg Table.metric htable) fs
  have htimer : ∀ w, ((c.put sink s fs).node w).timer1 = (c.node w).timer1 :=
    Network.Config.put_node_congr (fun _ => State.timer1) (congrArg Table.timer1 htable) fs
  refine ⟨?_, ?_, ?_⟩
  · intro hR
    rw [hrounds] at hR ⊢
    have hexact := hr.exact (Nat.lt_of_succ_lt hR)
    have hcnt := hr.cnt hR
    apply hexact.open_round hfin.wave hG
    · ext w
      simp [wave, hmetric w]
    · rw [← hcnt]
      simp only [wave, Network.Config.put_node_self]
      exact congrArg (fun t => t.id.val) htable
    · intro w hw
      simp [wave, c.put_node_of_ne s fs hw]
    · ext w
      simp [wave, htimer w]
    · exact fun u w j m => hc.heard_put
    · intro u j m
      rw [← hcnt]
      refine told_put.trans (or_congr_right (and_congr_right fun _ => ?_))
      simp [fs, eq_comm]
  · intro hR
    rw [hrounds] at hR ⊢
    have hcnt := hr.cnt (Nat.lt_of_succ_lt hR)
    rw [Network.Config.put_node_self, show s.cnt = (c.node sink).cnt + 1 from
      congrArg Table.cnt htable, Fin.val_add_one_of_lt' (by omega), hcnt]
  · intro w hw hR
    rw [hmetric w]
    by_cases hwrap : rounds sink c < 2 ^ 16
    · exact (hr.exact hwrap).settle hfin.wave hG hw (by omega)
    · -- The round number has wrapped: the node was settled long ago.
      have hdist := dist_lt hG hcard sink w
      exact hr.settled w hw (by omega)

/-- Only a sink that has wrapped around is ever due to relay. -/
theorem Converging.wrapped (hr : Converging G sink c) (h : (c.node sink).timer1.isSome) :
    ¬ rounds sink c < 2 ^ 16 :=
  fun hR => (hr.exact hR).sink_due h

theorem Converging.relay [Fintype V] (hr : Converging G sink c) (hc : OnlyBeacons G id sink c)
    (hG : G.Connected) (hcard : Fintype.card V < 65535) {v : V} {s : State}
    (htimer : (c.node v).timer1.isSome)
    (htable : s.table = { (c.node v).table with timer1 := none }) :
    Converging G sink (c.put v s
      [airedBy (id v) broadcastAddr (.route ⟨(c.node v).curId, id v, (c.node v).curMetric⟩)]) := by
  set fs := [airedBy (id v) broadcastAddr
    (.route ⟨(c.node v).curId, id v, (c.node v).curMetric⟩)] with hfs
  have hmetric : ∀ w, ((c.put v s fs).node w).curMetric = (c.node w).curMetric :=
    Network.Config.put_node_congr (fun _ => State.curMetric) (congrArg Table.metric htable) fs
  have hid : ∀ w, ((c.put v s fs).node w).curId = (c.node w).curId :=
    Network.Config.put_node_congr (fun _ => State.curId) (congrArg Table.id htable) fs
  have hdone : s.timer1 = none := congrArg Table.timer1 htable
  by_cases hv : v = sink
  · subst hv
    have hR := hr.wrapped htimer
    have hgrow := rounds_put c v v s fs
    refine ⟨fun h => by omega, fun h => by omega, fun w hw _ => ?_⟩
    have hdist := dist_lt hG hcard v w
    rw [hmetric w]
    exact hr.settled w hw (by omega)
  · refine hr.keep ?_ ?_ (fun w => (hmetric w).le) fun hR => ?_
    · rw [rounds_put, if_neg hv, Nat.add_zero]
    · rw [c.put_node_of_ne s fs (Ne.symm hv)]
    · apply (hr.exact hR).tell (u := v) htimer
      · ext w
        simp [wave, hmetric w]
      · ext w
        simp [wave, hid w]
      · intro w hw
        simp [wave, c.put_node_of_ne s fs hw]
      · simp [wave, hdone]
      · exact fun u w j m => hc.heard_put
      · intro u j m
        refine told_put.trans (or_congr_right (and_congr_right fun _ => ?_))
        rw [eq_comm (a := j), eq_comm (a := m)]
        simp [hfs, wave]

theorem Converging.hear [Fintype V] (hr : Converging G sink c) (hs : Sound id sink c)
    (hcard : Fintype.card V < 65535)
    {i : ℕ} {u v : V} {f : Frame} {rm : RouteMsg} (hi : c.log[i]? = some (u, f))
    (hrm : f.routeMsg = some rm) {ans : Answers} {s : State}
    (htable : s.table = (c.node v).table.hear rm ans) :
    Converging G sink ((c.put v s []).mark i v) := by
  have hmem := List.mem_of_getElem? hi
  have hsucc := hs.succ_val hcard hmem hrm
  have hmetric : s.curMetric.val = min (c.node v).curMetric.val (rm.metric.val + 1) :=
    (congrArg (fun t => t.metric.val) htable).trans (Table.hear_metric hsucc)
  have hid : s.curId.val = max (c.node v).curId.val rm.id.val :=
    (congrArg (fun t => t.id.val) htable).trans Table.hear_id
  have hdue : s.timer1.isSome ↔ (c.node v).timer1.isSome ∨ (c.node v).curId.val < rm.id.val := by
    rw [show s.timer1 = _ from congrArg Table.timer1 htable]
    exact Table.hear_timer1
  have hother : ∀ w, w ≠ v → (c.put v s []).node w = c.node w := fun w hw =>
    c.put_node_of_ne s [] hw
  refine hr.keep (by simp [rounds]) ?_ ?_ fun hR => ?_
  · exact Network.Config.put_node_congr (fun _ => State.cnt) (congrArg Table.cnt htable) [] sink
  · refine Network.Config.forall_put_node
      (P := fun w (t : State) => t.curMetric ≤ (c.node w).curMetric) ?_ (fun w _ => le_rfl) []
    rw [Fin.le_def, hmetric]
    exact min_le_left ..
  · refine (hr.exact hR).hear (u := u) (v := v) (j := rm.id.val) (m := rm.metric.val)
      ⟨f, rm, hmem, hrm, rfl, rfl⟩ ?_ ?_ ?_ ?_ ?_ ?_ ?_ ?_
    · simp [wave, hmetric]
    · simp [wave, hid]
    · simpa [wave] using hdue
    · intro w hw
      simp [wave, hother w hw]
    · intro w hw
      simp [wave, hother w hw]
    · intro w hw
      simp [wave, hother w hw]
    · ext a j m
      simp [wave, told]
    · rintro a b k n ⟨j, g, rm', hj, hdelivered, hrm', rfl, rfl⟩
      simp only [Network.Config.mark_log, Network.Config.put_log, List.map_nil,
        List.append_nil] at hj
      rcases List.mem_append.mp hdelivered with hold | hnew
      · exact .inl ⟨j, g, rm', hj, hold, hrm', rfl, rfl⟩
      · cases List.mem_singleton.mp hnew
        cases hi.symm.trans hj
        cases hrm.symm.trans hrm'
        exact .inr ⟨rfl, rfl, rfl⟩

/-- An event at a node; the sink is the only node that can be busy, and it relays
nothing before the round number wraps. -/
theorem Converging.act [Fintype V] (hr : Converging G sink c) (hc : OnlyBeacons G id sink c)
    (hG : G.Connected) (hcard : Fintype.card V < 65535)
    (hsink : ∀ v, id v = recvNodeId → v = sink) {v : V} {e : Event} {s : State}
    {fs : List Frame} (hallowed : RoundByRound G c (.act v e))
    (h : handle (id v) e (c.node v) = some (s, fs)) : Converging G sink (c.put v s fs) := by
  cases handle_outcome h with
  | aside haside =>
    have hnone : fs = [] := by
      refine List.eq_nil_iff_forall_not_mem.mpr fun f hf => ?_
      obtain ⟨rm, rfl⟩ := (handle_beacons h hallowed.no_data).2 f hf
      exact nomatch haside.frames _ hf
    subst hnone
    exact hr.aside haside.table
  | beacon htos he htable =>
    subst he
    cases hsink v htos
    exact hr.beacon hc hG hcard hallowed.2 htable
  | relay _ htimer _ htable => exact hr.relay hc hG hcard htimer htable
  | dropped he htimer hwhy htable =>
    subst he
    have hbusy : (c.node v).busy = true := hwhy.resolve_right (not_not.mpr hallowed)
    have hv : v = sink := by
      by_contra hv
      exact Bool.false_ne_true ((hc.idle v hv).symm.trans hbusy)
    subst hv
    refine hr.keep ?_ ?_ (fun w => ?_) fun hR => absurd hR (hr.wrapped htimer)
    · rw [rounds_put]
      simp
    · rw [Network.Config.put_node_self]
      exact congrArg Table.cnt htable
    · exact (Network.Config.put_node_congr (fun _ => State.curMetric)
        (congrArg Table.metric htable) [] w).le

theorem Converging.step [Fintype V] (hr : Converging G sink c) (hs : Sound id sink c)
    (hc : OnlyBeacons G id sink c) (hG : G.Connected) (hcard : Fintype.card V < 65535)
    (hsink : ∀ v, id v = recvNodeId → v = sink) {e : NetEvent V}
    (hallowed : RoundByRound G c e) (h : (routing id).system.step c e = some c') :
    Converging G sink c' := by
  obtain ⟨v, a, s, fs, rfl, hhandle, rfl⟩ | ⟨i, v, ans, u, f, rfl, hi, rfl⟩ :=
    Network.system_step _ h
  · exact hr.act hc hG hcard hsink hallowed hhandle
  · obtain ⟨rm, rfl⟩ := hc.beacons u f (List.mem_of_getElem? hi)
    have hhear : (routing id).receive v ans (airedBy (id u) broadcastAddr (.route rm)) (c.node v) =
        (routeReceive sizeofRouteMsg rm ans (c.node v), []) :=
      hear_route hallowed.2 (id v) (id u) ans rm
    rw [hhear]
    exact hr.hear hs hcard hi rfl (routeReceive_table rm ans _)

theorem converging_of_reachable [Fintype V] (hG : G.Connected) (hcard : Fintype.card V < 65535)
    (hsink : ∀ v, id v = recvNodeId → v = sink)
    (h : (routing id).system.Reachable (RoundByRound G) c) :
    OnlyBeacons G id sink c ∧ Converging G sink c := by
  refine h.invariant_of (P := fun c => OnlyBeacons G id sink c ∧ Converging G sink c)
    (Q := Sound id sink)
    (fun c hc => sound_of_reachable hcard hsink (hc.mono fun _ _ _ => trivial))
    ⟨⟨by simp [Network.system], fun _ _ => rfl, by simp [Network.system]⟩,
      converging_init G sink⟩ ?_
  rintro c e c' hs ⟨hc, hr⟩ hallowed hstep
  exact ⟨hc.step hsink hallowed hstep, hr.step hs hc hG hcard hsink hallowed hstep⟩

omit [DecidableEq V] in
theorem OnlyBeacons.adj_of_usedLink (hc : OnlyBeacons G id sink c) {u v : V}
    (h : usedLink c u v) : G.Adj u v := by
  obtain ⟨i, f, rm, hlog, -, hmem⟩ := h
  obtain ⟨u', f', hlog', hadj⟩ := hc.linked i v hmem
  cases hlog.symm.trans hlog'
  exact hadj

omit [DecidableEq V] in
theorem OnlyBeacons.dist_le [Fintype V] (hc : OnlyBeacons G id sink c) (hs : Sound id sink c)
    {v : V} (hv : (c.node v).curMetric.val < noRoute) :
    G.dist sink v ≤ (c.node v).curMetric.val := by
  obtain ⟨n, hn, hhops⟩ := hs.gradient.rank_walk v hv
  exact (hhops.dist_le fun _ _ => hc.adj_of_usedLink).trans hn

theorem Converging.le_dist (hr : Converging G sink c) (hG : G.Connected) {k : ℕ}
    (hk : k < 2 ^ 16) (hdone : RoundDone G sink c k) {v : V} (hv : v ≠ sink)
    (hd : G.dist sink v ≤ k) : (c.node v).curMetric.val ≤ G.dist sink v := by
  rcases hdone with hlt | ⟨rfl, hfin⟩
  · exact hr.settled v hv (by omega)
  · exact (hr.exact hk).settle hfin.wave hG hv hd

/-- Shortest paths, one hop a round: once the sink's `k`-th round is over, a node at
distance `d ≤ k` has metric `d` and a next hop at distance `d - 1`. -/
theorem rounds_converge {V : Type} [DecidableEq V] [Fintype V] (id : V → Word16)
    (hid : Function.Injective id) (sink : V) (hsink : id sink = recvNodeId)
    (hcard : Fintype.card V < 65535) (G : SimpleGraph V) (hG : G.Connected) {c : Config V}
    (h : (routing id).system.Reachable (RoundByRound G) c) (k : ℕ) (hk : 1 ≤ k)
    (hk' : k ≤ 65535) (hdone : RoundDone G sink c k) (v : V) (hv : 1 ≤ G.dist sink v)
    (hd : G.dist sink v ≤ k) :
    (c.node v).curMetric.val = G.dist sink v ∧
      ∃ u, (c.node v).curNexthopNodeId = id u ∧ G.Adj v u ∧
        G.dist sink u + 1 = G.dist sink v := by
  have honly : ∀ u, id u = recvNodeId → u = sink := fun u hu => hid (hu.trans hsink.symm)
  have hs : Sound id sink c := sound_of_reachable hcard honly (h.mono fun _ _ _ => trivial)
  obtain ⟨hc, hr⟩ := converging_of_reachable hG hcard honly h
  have hne : v ≠ sink := by
    rintro rfl
    simp at hv
  have hle := hr.le_dist hG (by omega) hdone hne hd
  have hfar := dist_lt hG hcard sink v
  have hroute : (c.node v).curMetric.val < noRoute := by
    unfold noRoute
    omega
  have hmetric := le_antisymm hle (hc.dist_le hs hroute)
  refine ⟨hmetric, ?_⟩
  obtain ⟨u, hnext, hlink, hdown⟩ := hs.gradient.descends v hroute
  have hadj := hc.adj_of_usedLink hlink
  have htriangle := hG.dist_triangle (u := sink) (v := u) (w := v)
  have hone := SimpleGraph.dist_eq_one_iff_adj.mpr hadj
  refine ⟨u, hnext, hadj.symm, ?_⟩
  rcases hdown with rfl | hless
  · rw [G.dist_self] at htriangle ⊢
    omega
  · have hless' : (c.node u).curMetric.val + 1 ≤ (c.node v).curMetric.val := hless
    have hu := hc.dist_le hs (v := u) (by omega)
    omega

/-- Three nodes in a row, of which the first is the sink. -/
def row : SimpleGraph (Fin 3) where
  Adj u v := u.val + 1 = v.val ∨ v.val + 1 = u.val
  symm := ⟨fun u v h => h.symm⟩
  loopless := ⟨fun u h => by omega⟩

instance : DecidableRel row.Adj := fun u v =>
  inferInstanceAs (Decidable (u.val + 1 = v.val ∨ v.val + 1 = u.val))

theorem row_connected : row.Connected := by
  have hmiddle : ∀ v, v = 1 ∨ row.Adj 1 v := by decide
  have hall : ∀ v, row.Reachable 1 v := by
    intro v
    rcases hmiddle v with rfl | hadj
    · exact .refl _
    · exact hadj.reachable
  exact { preconnected := fun u v => (hall u).symm.trans (hall v), nonempty := ⟨0⟩ }

theorem row_dist : row.dist 0 2 = 2 := by
  have hne : row.dist 0 2 ≠ 1 := mt SimpleGraph.dist_eq_one_iff_adj.mp (by decide)
  have hpos : 0 < row.dist 0 2 := row_connected.pos_dist_of_ne (by decide)
  have hle : row.dist 0 2 ≤ row.dist 0 1 + row.dist 1 2 := row_connected.dist_triangle
  have hone : row.dist 0 1 = 1 := SimpleGraph.dist_eq_one_iff_adj.mpr (by decide)
  have hone' : row.dist 1 2 = 1 := SimpleGraph.dist_eq_one_iff_adj.mpr (by decide)
  omega

abbrev rowId : Fin 3 → Word16 := ![1, 2, 3]

def accepting : Answers := ⟨.success, .success, 0⟩

/-- The `k`-th beacon goes from node to node, and every copy of it back. -/
def beaconRound (k : ℕ) : List (NetEvent (Fin 3)) :=
  [.act 0 (.timer0Fired .success), .deliver (3 * k) 1 accepting,
    .act 0 (.sendDone .route .success), .act 1 (.timer1Fired .success),
    .deliver (3 * k + 1) 0 accepting, .deliver (3 * k + 1) 2 accepting,
    .act 2 (.timer1Fired .success), .deliver (3 * k + 2) 1 accepting]

def rowStarted : List (NetEvent (Fin 3)) :=
  [.act 0 .booted, .act 0 (.startDone .success), .act 1 .booted, .act 1 (.startDone .success),
    .act 2 .booted, .act 2 (.startDone .success)]

/-- Two rounds settle the far end of the row. -/
theorem rounds_converge_row :
    ∃ c : Config (Fin 3),
      (routing rowId).system.run (rowStarted ++ beaconRound 0 ++ beaconRound 1) = some c ∧
      (c.node 2).curMetric.val = 2 ∧ ∃ u, (c.node 2).curNexthopNodeId = rowId u ∧
        row.Adj 2 u ∧ row.dist 0 u + 1 = 2 := by
  have hruns : ((routing rowId).system.run
      (rowStarted ++ beaconRound 0 ++ beaconRound 1)).isSome = true := by decide +kernel
  have hdone : ∀ c ∈ (routing rowId).system.run (rowStarted ++ beaconRound 0 ++ beaconRound 1),
      RoundDone row 0 c 2 := by decide +kernel
  obtain ⟨c, hrun⟩ := Option.isSome_iff_exists.mp hruns
  have hreach : (routing rowId).system.Reachable (RoundByRound row) c :=
    System.reachable_of_run _ (by decide +kernel) hrun
  have hfar := rounds_converge rowId (by decide) 0 rfl (by decide) row row_connected hreach 2
    (by decide) (by decide) (hdone c hrun) 2 (by rw [row_dist]; decide) row_dist.le
  rw [row_dist] at hfar
  exact ⟨c, hrun, hfar⟩

end WsnContest.Routing
