import WsnContest.Routing.Conservation
import WsnContest.Routing.Delivery
import WsnContest.Routing.ElectionFlood
import WsnContest.Routing.Rounds

/-! Whether data frames ever stop. They come down the metrics and end at the sink, unless
the sink was called itself: once it is elected it sends on what it is given, to a neighbour
from which it comes back. -/
namespace WsnContest.DataFlood
open Tinyos Lib Routing
open ElectionFlood (called confined_of_reachable)

section Defs
variable {V : Type} (id : V → Word16) (G : SimpleGraph V) (S : Set V)

/-- Broadcast data frames come to nodes of `S` only, and a frame reaches each other node
in range at most once. -/
def EachOnce (c : Config V) (e : NetEvent V) : Prop :=
  (∀ v ∈ called c e, v ∈ S) ∧
    match e with
    | .act _ _ => True
    | .deliver i v _ => (i, v) ∉ c.delivered ∧ ∀ entry ∈ c.log[i]?, G.Adj entry.1 v

/-- A source gives a node a data frame. -/
def FromSource : NetEvent V → Prop
  | .act _ (.sourceData ..) => True
  | .act _ .booted | .act _ (.startDone _) | .act _ (.timer0Fired _) | .act _ (.timer1Fired _)
  | .act _ (.sendDone ..) | .deliver .. => False

variable [DecidableEq V]

/-- The step sends a data frame. -/
def SendsData (c : Config V) (e : NetEvent V) : Prop :=
  ∃ c' u f, (routing id).system.step c e = some c' ∧ (u, f) ∈ c'.log.drop c.log.length ∧
    f.isBeacon = true

/-- However the frames are delivered, finitely many data frames follow finitely many data
frames of sources. -/
def Terminates : Prop :=
  ∀ run : (routing id).system.InfiniteRun (EachOnce G S),
    {n | FromSource (run.event n)}.Finite → {n | SendsData id (run.state n) (run.event n)}.Finite

end Defs

variable {V : Type} {id : V → Word16} {G : SimpleGraph V} {S : Set V} {sink : V}

theorem EachOnce.once {c : Config V} {e : NetEvent V} (h : EachOnce G S c e) :
    ElectionFlood.OnceEach G S c e := by
  refine ⟨h.1, ?_⟩
  cases e with
  | act v a => trivial
  | deliver i v ans => exact fun entry hentry _ => ⟨h.2.1, h.2.2 entry hentry⟩

/-- How far above the sink a node stands. One without a route sends what it is given to
node 0, so that it stands above that. -/
def height (id : V → Word16) (c : Config V) (w : V) : ℕ :=
  if (c.node w).curMetric.val < noRoute then (c.node w).curMetric.val
  else if id w = 0 then noRoute else noRoute + 1

theorem height_mono {c c' : Config V}
    (h : ∀ w, (c'.node w).curMetric ≤ (c.node w).curMetric) (w : V) :
    height id c' w ≤ height id c w := by
  have hw := Fin.le_def.mp (h w)
  unfold height
  split_ifs <;> omega

section Price
variable [Fintype V] [DecidableEq V]

/-- The height from which a data frame may still come down: that of its addressee. A node
does not hear itself, and at the sink the way down ends. -/
def price (id : V → Word16) (sink : V) (c : Config V) (entry : V × Frame) : ℕ :=
  if entry.2.isBeacon then
    Finset.univ.sup fun w =>
      if id w = entry.2.destination ∧ w ≠ entry.1 ∧ w ≠ sink then height id c w else 0
  else 0

theorem price_mono {c c' : Config V}
    (h : ∀ w, (c'.node w).curMetric ≤ (c.node w).curMetric) (entry : V × Frame) :
    price id sink c' entry ≤ price id sink c entry := by
  unfold price
  split
  · refine Finset.sup_mono_fun fun w _ => ?_
    split
    · exact height_mono h w
    · exact le_rfl
  · exact le_rfl

theorem height_le_price {c : Config V} {u w : V} {f : Frame} (hdata : f.isBeacon = true)
    (hto : f.destination = id w) (hu : w ≠ u) (hsink : w ≠ sink) :
    height id c w ≤ price id sink c (u, f) := by
  have hle := Finset.le_sup (f := fun w =>
    if id w = f.destination ∧ w ≠ u ∧ w ≠ sink then height id c w else 0) (Finset.mem_univ w)
  rw [if_pos ⟨hto.symm, hu, hsink⟩] at hle
  rwa [price, if_pos hdata]

omit [Fintype V] in
/-- A node without a route keeps the next hop that it started with. -/
theorem nexthop_of_unrouted {allowed : Config V → NetEvent V → Prop} {c : Config V}
    (h : (routing id).system.Reachable allowed c) (v : V)
    (hv : ¬ (c.node v).curMetric.val < noRoute) : (c.node v).curNexthopNodeId = 0 := by
  refine (Network.node_invariant (N := routing id) (Q := fun _ _ => True)
    (P := fun _ s => ¬ s.curMetric.val < noRoute → s.curNexthopNodeId = 0) ?_ ?_ ?_ h).1 v hv
  · exact fun _ _ => rfl
  · intro c v e s fs hs _ hhandle
    have hnext : s.curNexthopNodeId = (c.node v).curNexthopNodeId := by
      cases handle_outcome hhandle with
      | aside haside => exact congrArg Table.nexthop haside.table
      | beacon _ _ htable => exact congrArg Table.nexthop htable
      | relay _ _ _ htable => exact congrArg Table.nexthop htable
      | dropped _ _ _ htable => exact congrArg Table.nexthop htable
    rw [hnext, handle_metric_eq hhandle]
    exact ⟨hs, fun _ _ => trivial⟩
  · intro c i v ans u f hs _ _ _
    change (¬ (hear (id v) ans f (c.node v)).1.curMetric.val < noRoute →
      (hear (id v) ans f (c.node v)).1.curNexthopNodeId = 0) ∧ _
    refine ⟨fun hunrouted => ?_, fun _ _ => trivial⟩
    cases hrm : f.routeMsg with
    | none =>
      have haside := hear_aside (id v) ans f (c.node v) hrm
      have hmetric : (hear (id v) ans f (c.node v)).1.curMetric = (c.node v).curMetric :=
        congrArg Table.metric haside.table
      have hnext : (hear (id v) ans f (c.node v)).1.curNexthopNodeId =
          (c.node v).curNexthopNodeId := congrArg Table.nexthop haside.table
      rw [hnext]
      exact hs (hmetric ▸ hunrouted)
    | some rm =>
      rcases hear_beacon hrm (id v) ans (c.node v) with hheard | hpassed
      · rw [hheard] at hunrouted ⊢
        by_cases hlen : f.length = sizeofRouteMsg
        · rw [hlen, routeReceive_eq] at hunrouted ⊢
          dsimp only [Table.hear, State.table] at hunrouted ⊢
          by_cases hless : (c.node v).curMetric > rm.metric + 1
          · rw [if_pos hless] at hunrouted
            have hlt := Fin.lt_def.mp hless
            have hmax := (c.node v).curMetric.isLt
            unfold noRoute at hunrouted
            omega
          · rw [if_neg hless] at hunrouted ⊢
            exact hs hunrouted
        · rw [routeReceive, if_neg fun h => hlen h.1] at hunrouted ⊢
          exact hs hunrouted
      · rw [hpassed] at hunrouted ⊢
        exact hs hunrouted

/-- A node that sends data on sends it down from where it stands itself. -/
theorem price_sent (hid : Function.Injective id) {c : Config V} (hs : Sound id sink c) {v : V}
    (hunrouted : ¬ (c.node v).curMetric.val < noRoute → (c.node v).curNexthopNodeId = 0)
    (m : Msg) :
    price id sink c (v, airedBy (id v) (c.node v).curNexthopNodeId m) < height id c v := by
  have hpos : 0 < height id c v := by
    unfold height
    split
    · next hroute => exact hs.gradient.rank_pos v hroute
    · split
      · decide
      · decide
  unfold price
  split
  · refine (Finset.sup_lt_iff hpos).mpr fun w _ => ?_
    split
    · next h =>
      obtain ⟨hto, hne, hsink⟩ := h
      have hname : id w = (c.node v).curNexthopNodeId := hto
      by_cases hroute : (c.node v).curMetric.val < noRoute
      · obtain ⟨u, hnext, -, hdown⟩ := hs.gradient.descends v hroute
        have hnext' : (c.node v).curNexthopNodeId = id u := hnext
        obtain rfl : w = u := hid (hname.trans hnext')
        have hless : (c.node w).curMetric.val + 1 ≤ (c.node v).curMetric.val :=
          hdown.resolve_left hsink
        rw [height, if_pos (by omega), height, if_pos hroute]
        exact hless
      · have hzero : id w = 0 := hname.trans (hunrouted hroute)
        have hv : id v ≠ 0 := fun hv => hne (hid (hzero.trans hv.symm))
        have hlarge : height id c v = noRoute + 1 := by rw [height, if_neg hroute, if_neg hv]
        rw [hlarge, height, if_pos hzero]
        split
        · next hlow => exact hlow.trans (Nat.lt_succ_self _)
        · exact Nat.lt_succ_self _
    · exact hpos
  · exact hpos

omit [Fintype V] [DecidableEq V] in
theorem hear_type {s : State} (h : s.radio ≠ .off → s.type = .dst ∨ s.type = .psp)
    (tos : Word16) (ans : Answers) (f : Frame) (hradio : (hear tos ans f s).1.radio ≠ .off) :
    (hear tos ans f s).1.type = .dst ∨ (hear tos ans f s).1.type = .psp := by
  have hsame : (hear tos ans f s).1.radio = s.radio := (Prod.mk.inj (clock_hear tos s ans f)).2
  have hhearing := hear_hearing tos ans f s
  generalize (hear tos ans f s).1 = t, (hear tos ans f s).2 = fs at hradio hsame hhearing ⊢
  have hs := h (hsame ▸ hradio)
  cases hhearing with
  | aside _ hpoll _ =>
    rw [show t.type = s.type from congrArg Poll.type hpoll]
    exact hs
  | called _ _ hpoll _ => exact .inr ((congrArg Poll.type hpoll).trans (type_mark _ _))
  | told _ _ _ hpoll _ =>
    rw [show t.type = s.type from (congrArg Poll.type hpoll).trans (type_mark s _)]
    exact hs

omit [Fintype V] in
/-- What node 1 is: asleep, the destination, or called. -/
theorem sink_type {allowed : Config V → NetEvent V → Prop} (hsink : id sink = recvNodeId)
    {c : Config V} (h : (routing id).system.Reachable allowed c)
    (hon : (c.node sink).radio = .on) :
    (c.node sink).type = .dst ∨ (c.node sink).type = .psp := by
  refine ((Network.node_invariant (N := routing id) (Q := fun _ _ => True)
    (P := fun v s => v = sink → s.radio ≠ .off → s.type = .dst ∨ s.type = .psp) ?_ ?_ ?_ h).1 sink
      rfl) (by simp [hon])
  · exact fun _ _ hoff => absurd rfl hoff
  · intro c v e s fs hs _ hhandle
    refine ⟨fun hv hradio => ?_, fun _ _ => trivial⟩
    subst hv
    cases handle_dispatch hhandle with
    | booted => exact .inl (by simp [booted, hsink])
    | @startDone err hstarting =>
      obtain ⟨radio, timer0, heq⟩ := startDone_eq err (c.node v)
      rw [heq]
      exact hs rfl (by simp [hstarting])
    | @timer0Fired sent _ _ _ hrun =>
      obtain ⟨packet, busy, curId, cnt, timer0, pending, heq⟩ :=
        timer0Fired_eq (id v) { c.node v with timer0 := none } sent
      rw [hrun] at heq
      obtain rfl := heq
      exact hs rfl hradio
    | @timer1Fired sent _ _ _ hrun =>
      obtain ⟨packet, pending, heq⟩ := timer1Fired_eq (id v) { c.node v with timer1 := none } sent
      rw [hrun] at heq
      obtain rfl := heq
      exact hs rfl hradio
    | sendDone => exact hs rfl hradio
    | @sourceData source destination len bm ans _ _ hrun =>
      have htype := hear_type (hs rfl) (id v) ans ⟨source, destination, len, .beacon bm⟩
      rw [hrun] at htype
      exact htype hradio
  · intro c i v ans u f hs _ _ _
    exact ⟨fun hv hradio => hear_type (hs hv) (id v) ans f hradio, fun _ _ => trivial⟩

omit [Fintype V] in
/-- Where the sink is not called, or hears nobody, it is sent no data that it sends on. -/
theorem sink_silent (hid : Function.Injective id) (hsink : id sink = recvNodeId)
    (hcast : ∀ v, id v ≠ broadcastAddr) (hquiet : sink ∈ S → ∀ v, ¬ G.Adj sink v) {c : Config V}
    (h : (routing id).system.Reachable (EachOnce G S) c) {i : ℕ} {u : V} {f : Frame}
    (hlog : c.log[i]? = some (u, f)) (hadj : G.Adj u sink) (ans : Answers) :
    dataFrames (hear (id sink) ans f (c.node sink)).2 = [] := by
  have hcarriage := hear_carriage (id sink) ans f (c.node sink)
  have hunicast := (unicast_of_reachable hcast h).2 u f (List.mem_of_getElem? hlog)
  have hunmoved : sink ∉ S := fun hcalled => hquiet hcalled u hadj.symm
  rcases hcarriage.handed with hnone | ⟨htaken, hbeacon, -, hone⟩
  · exact hnone
  · have hgate := hcarriage.gate (hunicast.addressed hbeacon) (by simp [hone])
    rcases sink_type hsink h htaken.1 with hdst | hpsp
    · have hunelected := (discreet_of_reachable sink hid h).unelected hdst
      simp [hunelected, hdst] at hgate
    · exact absurd ((confined_of_reachable (h.mono fun _ _ => EachOnce.once)).psp sink hpsp)
        hunmoved

/-- The height that all data frames under way have left. -/
def outlook (id : V → Word16) (sink : V) (c : Config V) : ℕ :=
  Network.custody (heeds id) (price id sink c) c.log c.delivered

theorem price_of_no_data {c : Config V} (v : V) (f : Frame) (h : f.isBeacon = false) :
    price id sink c (v, f) = 0 :=
  if_neg (by simp [h])

theorem load_of_none {c : Config V} {v : V} {fs : List Frame} (h : dataFrames fs = []) :
    Network.load (price id sink c) v fs = 0 := by
  rw [load_dataFrames (price_of_no_data v), h, Network.load_nil]

/-- What a node sends in answer to a data frame has less height left than the frame. -/
theorem answer_lower (hcard : Fintype.card V < noRoute) (hid : Function.Injective id)
    (hsink : id sink = recvNodeId) (hcast : ∀ v, id v ≠ broadcastAddr)
    (hquiet : sink ∈ S → ∀ v, ¬ G.Adj sink v) {c : Config V}
    (h : (routing id).system.Reachable (EachOnce G S) c) {i : ℕ} {u v : V} {f : Frame}
    (hlog : c.log[i]? = some (u, f)) (hadj : G.Adj u v) {ans : Answers}
    (hsome : dataFrames (hear (id v) ans f (c.node v)).2 ≠ []) :
    heeds id v f = true ∧
      Network.load (price id sink c) v (hear (id v) ans f (c.node v)).2 <
        price id sink c (u, f) := by
  have hv : v ≠ sink := by
    rintro rfl
    exact hsome (sink_silent hid hsink hcast hquiet h hlog hadj ans)
  have hs : Sound id sink c :=
    sound_of_reachable hcard (fun w hw => hid (hw.trans hsink.symm)) (h.mono fun _ _ _ => trivial)
  obtain ⟨htaken, hbeacon, -, hone⟩ :=
    (hear_carriage (id v) ans f (c.node v)).handed.resolve_left hsome
  have hunicast := (unicast_of_reachable hcast h).2 u f (List.mem_of_getElem? hlog)
  have hto : f.destination = id v := htaken.2.resolve_right (hunicast.addressed hbeacon)
  refine ⟨beq_iff_eq.mpr hto, ?_⟩
  rw [load_dataFrames (price_of_no_data v), hone, Network.load_singleton]
  exact (price_sent hid hs (nexthop_of_unrouted h v) f.payload).trans_le
    (height_le_price hbeacon hto hadj.ne' hv)

end Price

theorem SendsData.dataFrames [DecidableEq V] {c c' : Config V} {e : NetEvent V} {v : V}
    {fs : List Frame} (h : SendsData id c e) (hstep : (routing id).system.step c e = some c')
    (hlog : c'.log = c.log ++ fs.map (v, ·)) : dataFrames fs ≠ [] := by
  obtain ⟨d, u, f, hstep', hmem, hbeacon⟩ := h
  obtain rfl := Option.some.inj (hstep'.symm.trans hstep)
  rw [hlog, List.drop_left] at hmem
  obtain ⟨g, hg, heq⟩ := List.mem_map.mp hmem
  obtain ⟨rfl, rfl⟩ := Prod.mk.inj heq
  exact List.ne_nil_of_mem (mem_dataFrames.mpr ⟨hg, hbeacon⟩)

section Stop
variable [Fintype V] [DecidableEq V]

/-- Unless a source brings in a data frame, the height left does not rise; it falls
whenever a data frame is sent. -/
theorem outlook_step (hcard : Fintype.card V < noRoute) (hid : Function.Injective id)
    (hsink : id sink = recvNodeId) (hcast : ∀ v, id v ≠ broadcastAddr)
    (hquiet : sink ∈ S → ∀ v, ¬ G.Adj sink v) {c c' : Config V} {e : NetEvent V}
    (h : (routing id).system.Reachable (EachOnce G S) c) (hallowed : EachOnce G S c e)
    (hstep : (routing id).system.step c e = some c') (hown : ¬ FromSource e) :
    outlook id sink c' ≤ outlook id sink c ∧
      (SendsData id c e → outlook id sink c' < outlook id sink c) := by
  have hfall := metric_antitone hstep
  -- Prices only fall, so that the new ones may be reckoned with the old.
  have hcheaper : ∀ log delivered,
      Network.custody (heeds id) (price id sink c') log delivered ≤
        Network.custody (heeds id) (price id sink c) log delivered := fun log delivered =>
    Network.custody_mono (fun entry _ => price_mono hfall entry) (List.Subset.refl _)
  obtain ⟨v, a, s, fs, rfl, hhandle, rfl⟩ | ⟨i, v, ans, u, f, rfl, hlog, rfl⟩ :=
    (routing id).system_step hstep
  · have hnone : dataFrames fs = [] := by
      rcases handle_carriage hhandle with ⟨_, _, _, _, _, rfl, -⟩ | ⟨-, hnone, -⟩
      · exact absurd trivial hown
      · exact hnone
    have hsent := Network.custody_append (heeds id) (price id sink c) c.log
      c.delivered v fs
    rw [load_of_none hnone] at hsent
    exact ⟨(hcheaper _ _).trans hsent, fun hsends => absurd hnone (hsends.dataFrames hstep rfl)⟩
  · obtain ⟨hnew, hadj⟩ := hallowed.2
    have hsent := Network.custody_append (heeds id) (price id sink c) c.log
      (c.delivered ++ [(i, v)]) v (hear (id v) ans f (c.node v)).2
    by_cases hnone : dataFrames (hear (id v) ans f (c.node v)).2 = []
    · rw [load_of_none hnone] at hsent
      have hless : Network.custody (heeds id) (price id sink c) c.log (c.delivered ++ [(i, v)]) ≤
          outlook id sink c :=
        Network.custody_mono (fun _ _ => le_rfl) (List.subset_append_left _ _)
      exact ⟨(hcheaper _ _).trans (hsent.trans hless),
        fun hsends => absurd hnone (hsends.dataFrames hstep rfl)⟩
    · obtain ⟨hheeds, hlower⟩ :=
        answer_lower hcard hid hsink hcast hquiet h hlog (hadj _ hlog) hnone
      have htake := Network.custody_deliver (price id sink c) (heeds_unique hid) hlog hheeds hnew
      have hless : outlook id sink ((c.put v (hear (id v) ans f (c.node v)).1
          (hear (id v) ans f (c.node v)).2).mark i v) < outlook id sink c := by
        refine (hcheaper _ _).trans_lt (hsent.trans_lt ?_)
        unfold outlook
        omega
      exact ⟨hless.le, fun _ => hless⟩

theorem terminates_of_quiet (hcard : Fintype.card V < noRoute) (hid : Function.Injective id)
    (hsink : id sink = recvNodeId) (hcast : ∀ v, id v ≠ broadcastAddr)
    (hquiet : sink ∈ S → ∀ v, ¬ G.Adj sink v) : Terminates id G S := by
  intro run hsources
  apply run.finite_of_rank_after (outlook id sink) (SendsData id) (fun _ e => FromSource e)
    ?_ ?_ hsources
  · intro c e c' hreach hallowed hstep hown
    exact (outlook_step hcard hid hsink hcast hquiet hreach hallowed hstep hown).1
  · intro c e c' hreach hallowed hstep hown
    exact (outlook_step hcard hid hsink hcast hquiet hreach hallowed hstep hown).2

end Stop

/-! A sink that was called and its neighbour pass one packet to and fro. -/

/-- A node that sends what it is given to `next`, with nothing else to do. -/
structure Courier (tos next : Word16) (s : State) : Prop where
  ready : Ready tos s
  pending : s.pending = []
  type : s.type ≠ .dst
  nexthop : s.curNexthopNodeId = next

/-- The `sendDone` of a data frame leaves a courier as it was. -/
theorem Courier.sends {tos next : Word16} {s : State} (h : Courier tos next s)
    (hcast : tos ≠ broadcastAddr) (source : Word16) (bm : BeaconMsg) :
    ∃ t u, hear tos granting ⟨source, tos, sizeofBeaconMsg, .beacon bm⟩ s =
        (t, [airedBy tos next (.beacon bm)]) ∧
      handle tos (.sendDone .beacon .success) t = some (u, []) ∧ Courier tos next u := by
  have hheard : hear tos granting ⟨source, tos, sizeofBeaconMsg, .beacon bm⟩ s =
      forward tos tos bm .success s := by
    have htaken : s.Takes tos ⟨source, tos, sizeofBeaconMsg, .beacon bm⟩ :=
      ⟨h.ready.radio, .inl rfl⟩
    have htype : (forward tos tos bm .success s).1.type ≠ .dst :=
      (forward_recvData tos s tos bm .success).2 ▸ h.type
    rw [hear_of_takes htaken]
    dsimp only
    rw [dataReceive, spread_unicast hcast]
    exact Prod.ext (if_neg fun hdst => htype hdst.1) rfl
  have hsent := h.ready.forwards bm
  rw [h.nexthop] at hsent
  refine ⟨_, _, hheard.trans hsent, sendDone_accepted .success ?_, ?_⟩
  · exact List.mem_cons_self
  · refine ⟨⟨h.ready.radio, rfl, h.ready.gate⟩, ?_, h.type, h.nexthop⟩
    simp [sendDone, State.amSend, State.fill, h.pending, Msg.am]

/-- `u` has sent a packet to `v`, and `v` sends it back. -/
structure Rally (id : V → Word16) (G : SimpleGraph V) (u v : V) (c : Config V) : Prop where
  adj : G.Adj u v
  near : Courier (id u) (id v) (c.node u)
  far : Courier (id v) (id u) (c.node v)
  past : ∀ p ∈ c.delivered, p.1 < c.log.length
  frame : ∃ i bm, c.log[i]? = some (u, airedBy (id u) (id v) (.beacon bm)) ∧
    (i, v) ∉ c.delivered

/-- No source brings anything in any more. -/
def Closed (G : SimpleGraph V) (S : Set V) (c : Config V) (e : NetEvent V) : Prop :=
  EachOnce G S c e ∧ ¬ FromSource e

/-- `v` gets the packet and sends it back, and the rally goes on. -/
theorem Rally.round [DecidableEq V] (hcast : ∀ v, id v ≠ broadcastAddr) {u v : V} {c : Config V}
    (h : Rally id G u v c) :
    ∃ e c' es c'', Closed G S c e ∧ (routing id).system.step c e = some c' ∧
      SendsData id c e ∧ (routing id).system.Leads (Closed G S) c' es c'' ∧
      Rally id G v u c'' := by
  obtain ⟨i, bm, hi, hnew⟩ := h.frame
  have hne : u ≠ v := h.adj.ne
  obtain ⟨t, t', hhear, hdone, hcourier⟩ := h.far.sends (hcast v) (id u) bm
  have hcalled : called c (.deliver i v granting) = none := by
    simp [called, hi, airedBy, Frame.isCall, hcast v]
  have hstep := (routing id).system_step_deliver hi hhear
  have hpast := Network.Config.past_deliver h.past hi v t [airedBy (id v) (id u) (.beacon bm)]
  have hself : ((c.put v t [airedBy (id v) (id u) (.beacon bm)]).mark i v).node v = t :=
    c.put_node_self v t [airedBy (id v) (id u) (.beacon bm)]
  have hother : ((c.put v t [airedBy (id v) (id u) (.beacon bm)]).mark i v).node u = c.node u :=
    c.put_node_of_ne t [airedBy (id v) (id u) (.beacon bm)] hne
  have hlast : ((c.put v t [airedBy (id v) (id u) (.beacon bm)]).mark i v).log =
    c.log ++ [(v, airedBy (id v) (id u) (.beacon bm))] := rfl
  have hunheard : (c.log.length, u) ∉
      ((c.put v t [airedBy (id v) (id u) (.beacon bm)]).mark i v).delivered := by
    rw [Network.Config.mark_delivered, Network.Config.put_delivered, List.mem_append, not_or]
    exact ⟨fun hold => lt_irrefl _ (h.past _ hold), by simp [hne]⟩
  generalize (c.put v t [airedBy (id v) (id u) (.beacon bm)]).mark i v = d
    at hstep hpast hself hother hlast hunheard
  rw [← hself] at hdone
  refine ⟨.deliver i v granting, d, [.act v (.sendDone .beacon .success)], d.put v t' [],
    ⟨⟨by simp [hcalled], hnew, fun entry hentry => ?_⟩, not_false⟩, hstep, ?_,
    .single ⟨⟨by simp [called], trivial⟩, not_false⟩ ((routing id).system_step_act hdone),
    h.adj.symm, ?_, ?_, Network.Config.past_put hpast v t' [], c.log.length, bm, ?_, ?_⟩
  · obtain rfl : (u, _) = entry := Option.some.inj (hi.symm.trans hentry)
    exact h.adj
  · refine ⟨d, v, airedBy (id v) (id u) (.beacon bm), hstep, ?_, rfl⟩
    rw [hlast, List.drop_left]
    exact List.mem_singleton_self _
  · rw [d.put_node_self]
    exact hcourier
  · rw [d.put_node_of_ne t' [] hne, hother]
    exact h.near
  · simp [hlast]
  · exact hunheard

/-- All that a run of two nodes needs to know of the network. -/
structure Duet (u v : V) (c : Config V) (s t : State) (log : List (V × Frame))
    (delivered : List (ℕ × V)) : Prop where
  left : c.node u = s
  right : c.node v = t
  log_eq : c.log = log
  delivered_eq : c.delivered = delivered

section Duet
variable [DecidableEq V] {u v : V} {c : Config V} {s t : State} {log : List (V × Frame)}
  {delivered : List (ℕ × V)}

omit [DecidableEq V] in
theorem Duet.symm (h : Duet u v c s t log delivered) : Duet v u c t s log delivered :=
  ⟨h.right, h.left, h.log_eq, h.delivered_eq⟩

variable (G) in
theorem Duet.act (h : Duet u v c s t log delivered) (hne : v ≠ u) {e : Event} {s' : State}
    {fs : List Frame} (hcalled : ∀ w ∈ called c (.act u e), w ∈ S)
    (hhandle : handle (id u) e s = some (s', fs)) :
    ∃ c', (routing id).system.Leads (EachOnce G S) c [.act u e] c' ∧
      Duet u v c' s' t (log ++ fs.map (u, ·)) delivered := by
  obtain ⟨rfl, rfl, rfl, rfl⟩ := h
  refine ⟨_, .single ⟨hcalled, trivial⟩ ((routing id).system_step_act hhandle), ?_, ?_, rfl, rfl⟩
  · exact c.put_node_self u s' fs
  · exact c.put_node_of_ne s' fs hne

theorem Duet.hear (h : Duet u v c s t log delivered) (hne : v ≠ u) {i : ℕ} {w : V} {f : Frame}
    (hlog : log[i]? = some (w, f)) (hcall : f.isCall = false) (hnew : (i, u) ∉ delivered)
    (hadj : G.Adj w u) {s' : State} {fs : List Frame}
    (hhear : hear (id u) granting f s = (s', fs)) :
    ∃ c', (routing id).system.Leads (EachOnce G S) c [.deliver i u granting] c' ∧
      Duet u v c' s' t (log ++ fs.map (u, ·)) (delivered ++ [(i, u)]) := by
  obtain ⟨rfl, rfl, rfl, rfl⟩ := h
  refine ⟨_, .single ⟨by simp [called, hlog, hcall], hnew, fun entry hentry => ?_⟩
    ((routing id).system_step_deliver hlog hhear), ?_, ?_, rfl, rfl⟩
  · obtain rfl := Option.some.inj (hlog.symm.trans hentry)
    exact hadj
  · rw [Network.Config.mark_node]
    exact c.put_node_self u s' fs
  · rw [Network.Config.mark_node]
    exact c.put_node_of_ne s' fs hne

end Duet

/-- The sink starts, hears the node `x` pass on its beacon, and is called. -/
theorem sink_joins (x : Word16) : ∃ s₁ s₂ s₃ s₄ s₅ s₆ s₇,
    handle recvNodeId .booted {} = some (s₁, []) ∧
    handle recvNodeId (.startDone .success) s₁ = some (s₂, []) ∧
    handle recvNodeId (.timer0Fired .success) s₂ = some (s₃, [beacon 1]) ∧
    handle recvNodeId (.sendDone .route .success) s₃ = some (s₄, []) ∧
    hear recvNodeId granting (airedBy x broadcastAddr (.route ⟨1, x, 1⟩)) s₄ = (s₅, []) ∧
    handle recvNodeId ElectionFlood.call s₅ =
      some (s₆, [airedBy recvNodeId broadcastAddr (.control ⟨recvNodeId, 2⟩)]) ∧
    handle recvNodeId (.sendDone .control .success) s₆ = some (s₇, []) ∧
    Courier recvNodeId x s₇ :=
  have hpsp : NodeType.psp ≠ .dst := by decide
  ⟨_, _, _, _, _, _, _, rfl, rfl, rfl, rfl, rfl, rfl, rfl, ⟨rfl, rfl, .inl rfl⟩, rfl, hpsp, rfl⟩

/-- The node `x` starts, hears the beacon and passes it on. -/
theorem neighbour_joins {x : Word16} (hx : x ≠ recvNodeId) : ∃ t₁ t₂ t₃ t₄ t₅,
    handle x .booted {} = some (t₁, []) ∧
    handle x (.startDone .success) t₁ = some (t₂, []) ∧
    hear x granting (beacon 1) t₂ = (t₃, []) ∧
    handle x (.timer1Fired .success) t₃ =
      some (t₄, [airedBy x broadcastAddr (.route ⟨1, x, 1⟩)]) ∧
    handle x (.sendDone .route .success) t₄ = some (t₅, []) ∧ Courier x recvNodeId t₅ := by
  have hbooted : handle x .booted {} = some ({ radio := .starting }, []) := by
    simp [handle, booted, hx]
  have hheard : hear x granting (beacon 1) { radio := .on } = _ :=
    hear_route rfl x recvNodeId granting _
  have hnor : NodeType.nor ≠ .dst := by decide
  exact ⟨_, _, _, _, _, hbooted, rfl, hheard, rfl, rfl, ⟨rfl, rfl, .inr rfl⟩, rfl, hnor, rfl⟩

/-- The sink and a neighbour boot, learn of each other by the first beacon, the sink is
called, and the neighbour is given a packet. -/
theorem rally_leads [DecidableEq V] (hid : Function.Injective id) (hsink : id sink = recvNodeId)
    (hcast : ∀ v, id v ≠ broadcastAddr) {v : V} (hcalled : sink ∈ S) (hadj : G.Adj sink v) :
    ∃ es c, (routing id).system.Leads (EachOnce G S) (routing id).system.init es c ∧
      Rally id G v sink c := by
  have hne : v ≠ sink := hadj.ne'
  obtain ⟨s₁, s₂, s₃, s₄, s₅, s₆, s₇, hs₁, hs₂, hs₃, hs₄, hs₅, hs₆, hs₇, hnear⟩ := sink_joins (id v)
  obtain ⟨t₁, t₂, t₃, t₄, t₅, ht₁, ht₂, ht₃, ht₄, ht₅, hfar⟩ :=
    neighbour_joins fun hv : id v = recvNodeId => hne (hid (hv.trans hsink.symm))
  obtain ⟨t₆, t₇, ht₆, ht₇, hfar'⟩ := hfar.sends (hcast v) 9 sample
  rw [← hsink] at hs₁ hs₂ hs₃ hs₄ hs₅ hs₆ hs₇ hnear
  have hinit : Duet sink v (routing id).system.init {} {} [] [] := ⟨rfl, rfl, rfl, rfl⟩
  obtain ⟨c₁, hleads₁, h₁⟩ := hinit.act G (S := S) hne (by simp [called]) hs₁
  obtain ⟨c₂, hleads₂, h₂⟩ := h₁.act G (S := S) hne (by simp [called]) hs₂
  obtain ⟨c₃, hleads₃, h₃⟩ := h₂.symm.act G (S := S) hne.symm (by simp [called]) ht₁
  obtain ⟨c₄, hleads₄, h₄⟩ := h₃.act G (S := S) hne.symm (by simp [called]) ht₂
  obtain ⟨c₅, hleads₅, h₅⟩ := h₄.symm.act G (S := S) hne (by simp [called]) hs₃
  obtain ⟨c₆, hleads₆, h₆⟩ := h₅.act G (S := S) hne (by simp [called]) hs₄
  obtain ⟨c₇, hleads₇, h₇⟩ := h₆.symm.hear (G := G) (S := S) hne.symm (i := 0) rfl rfl (by simp)
    hadj ht₃
  obtain ⟨c₈, hleads₈, h₈⟩ := h₇.act G (S := S) hne.symm (by simp [called]) ht₄
  obtain ⟨c₉, hleads₉, h₉⟩ := h₈.act G (S := S) hne.symm (by simp [called]) ht₅
  obtain ⟨c₁₀, hleads₁₀, h₁₀⟩ := h₉.symm.hear (G := G) (S := S) hne (i := 1) rfl rfl
    (by simp) hadj.symm hs₅
  have hwho : ∀ w ∈ called c₁₀ (.act sink ElectionFlood.call), w ∈ S := by
    intro w hw
    obtain rfl : sink = w := Option.some.inj hw
    exact hcalled
  obtain ⟨c₁₁, hleads₁₁, h₁₁⟩ := h₁₀.act G hne hwho hs₆
  obtain ⟨c₁₂, hleads₁₂, h₁₂⟩ := h₁₁.act G (S := S) hne (by simp [called]) hs₇
  have hgiven : handle (id v) (.sourceData 9 (id v) sizeofBeaconMsg sample granting) t₅ =
      some (t₆, [airedBy (id v) recvNodeId (.beacon sample)]) := congrArg some ht₆
  obtain ⟨c₁₃, hleads₁₃, h₁₃⟩ := h₁₂.symm.act G (S := S) hne.symm
    (by simp [called, Frame.isCall, hcast v]) hgiven
  obtain ⟨c₁₄, hleads₁₄, h₁₄⟩ := h₁₃.act G (S := S) hne.symm (by simp [called]) ht₇
  refine ⟨_, c₁₄, hleads₁.append (hleads₂.append (hleads₃.append (hleads₄.append
    (hleads₅.append (hleads₆.append (hleads₇.append (hleads₈.append (hleads₉.append
    (hleads₁₀.append (hleads₁₁.append (hleads₁₂.append (hleads₁₃.append hleads₁₄)))))))))))),
    hadj.symm, ?_, ?_, ?_, 3, sample, ?_, ?_⟩
  · rw [h₁₄.left, hsink]
    exact hfar'
  · rw [h₁₄.right]
    exact hnear
  · rw [h₁₄.delivered_eq, h₁₄.log_eq]
    simp
  · rw [h₁₄.log_eq, hsink]
    rfl
  · rw [h₁₄.delivered_eq]
    simp

theorem not_terminates_of_adj [DecidableEq V] (hid : Function.Injective id)
    (hsink : id sink = recvNodeId) (hcast : ∀ v, id v ≠ broadcastAddr) {v : V}
    (hcalled : sink ∈ S) (hadj : G.Adj sink v) : ¬ Terminates id G S := by
  have hround : ∀ c, (∃ u v, Rally id G u v c) → ∃ e c' es c'', Closed G S c e ∧
      (routing id).system.step c e = some c' ∧ SendsData id c e ∧
      (routing id).system.Leads (Closed G S) c' es c'' ∧ ∃ u v, Rally id G u v c'' := by
    rintro c ⟨u, v, h⟩
    obtain ⟨e, c', es, c'', hclosed, hstep, hsends, hleads, hrally⟩ := h.round (S := S) hcast
    exact ⟨e, c', es, c'', hclosed, hstep, hsends, hleads, v, u, hrally⟩
  obtain ⟨es, c, hleads, hrally⟩ := rally_leads hid hsink hcast hcalled hadj
  obtain ⟨run, hinfinite, hlate⟩ := System.InfiniteRun.exists_of_later_rounds
    (fun _ _ hclosed => hclosed.1) (SendsData id) ⟨es, c, hleads, v, sink, hrally⟩ hround
  intro hterminates
  refine hinfinite (hterminates run (hlate.subset fun n hn hclosed => ?_))
  exact hclosed.2 hn

/-- Where a frame reaches each node in range at most once: finitely many data frames
follow finitely many data frames of sources, in whatever order the frames are delivered
and whatever routes and elections there are meanwhile, exactly if the sink is out of range
of all other nodes or is never called by a broadcast data frame. -/
theorem data_flood_terminates_iff {V : Type} [DecidableEq V] [Fintype V] {id : V → Word16}
    (hid : Function.Injective id) {sink : V} (hsink : id sink = recvNodeId)
    (hcast : ∀ v, id v ≠ broadcastAddr) (hcard : Fintype.card V < 65535) (G : SimpleGraph V)
    (S : Set V) :
    Terminates id G S ↔ (sink ∈ S → ∀ v, ¬ G.Adj sink v) := by
  constructor
  · intro hterminates hcalled v hadj
    exact not_terminates_of_adj hid hsink hcast hcalled hadj hterminates
  · exact terminates_of_quiet hcard hid hsink hcast

/-- A sink that is called in range of one neighbour never stops. -/
theorem called_sink_never_stops :
    ¬ Terminates (![1, 2] : Fin 2 → Word16) ⊤ {0} := by
  have hsink : (![1, 2] : Fin 2 → Word16) 0 = recvNodeId := rfl
  intro hterminates
  exact (data_flood_terminates_iff (by decide) hsink (by decide) (by decide) ⊤ {0}).mp hterminates
    rfl 1 (by decide)

end WsnContest.DataFlood
