import Mathlib.Tactic.FinCases
import WsnContest.Routing.Descent

/-! Packets arrive. Where the nodes below a node are free to send, a packet that it is
given comes to the sink after at most as many hops as its metric says. -/
namespace WsnContest.Routing
open Tinyos Lib

/-- A node that hands on what it is given. -/
structure Ready (tos : Word16) (s : State) : Prop where
  radio : s.radio = .on
  idle : s.busy = false
  gate : isSP tos s = true ∨ s.type = .nor

/-- A destination that prints what it is given. -/
structure Reporting (s : State) : Prop where
  radio : s.radio = .on
  type : s.type = .dst

section Hear
variable {tos : Word16} {s : State}

theorem Ready.forwards (h : Ready tos s) (bm : BeaconMsg) :
    forward tos tos bm .success s =
      ({ (s.fill (.beacon bm)).amSend (.beacon bm) s.curNexthopNodeId .success with busy := true },
        [airedBy tos s.curNexthopNodeId (.beacon bm)]) := by
  have hbusy : (s.fill (.beacon bm)).busy = false := h.idle
  have hgate : (isSP tos (s.fill (.beacon bm)) || (s.fill (.beacon bm)).type == .nor) = true := by
    rcases h.gate with hsp | hnor
    · have hsame : isSP tos (s.fill (.beacon bm)) = isSP tos s := rfl
      rw [hsame, hsp, Bool.true_or]
    · have hsame : (s.fill (.beacon bm)).type = .nor := hnor
      simp [hsame]
  unfold forward
  dsimp only
  rw [hbusy, hgate]
  simp [State.fill]

theorem Ready.hears (h : Ready tos s) (hcast : tos ≠ broadcastAddr) (source : Word16)
    (bm : BeaconMsg) :
    (hear tos granting ⟨source, tos, sizeofBeaconMsg, .beacon bm⟩ s).2 =
      [airedBy tos s.curNexthopNodeId (.beacon bm)] := by
  have htaken : s.Takes tos ⟨source, tos, sizeofBeaconMsg, .beacon bm⟩ := ⟨h.radio, .inl rfl⟩
  rw [hear_of_takes htaken]
  dsimp only
  rw [dataReceive_snd, spread_unicast hcast]
  exact congrArg Prod.snd (h.forwards bm)

theorem Reporting.hears (h : Reporting s) (hcast : tos ≠ broadcastAddr) (source : Word16)
    (bm : BeaconMsg) :
    (hear tos granting ⟨source, tos, sizeofBeaconMsg, .beacon bm⟩ s).1.recvData =
      s.recvData ++ [(source, bm.nodeid, bm.counter)] := by
  have htaken : s.Takes tos ⟨source, tos, sizeofBeaconMsg, .beacon bm⟩ := ⟨h.radio, .inl rfl⟩
  obtain ⟨hrecv, htype⟩ := forward_recvData tos s tos bm .success
  rw [hear_of_takes htaken]
  dsimp only
  rw [dataReceive, spread_unicast hcast]
  have hdst : (forward tos tos bm .success s).1.type = .dst := htype.trans h.type
  dsimp only [granting]
  rw [report, if_pos ⟨hdst, rfl⟩, hrecv]

end Hear

section Run
variable {V : Type} [DecidableEq V] {id : V → Word16} {sink : V}

/-- A data frame is delivered to its addressee for the first time, and a send is accepted. -/
def Handover (id : V → Word16) (c : Config V) :
    Network.Event (fun _ : V => Event) (fun _ : V => Answers) → Prop
  | .act _ _ => False
  | .deliver i v ans => ans = granting ∧ (i, v) ∉ c.delivered ∧
      ∀ entry ∈ c.log[i]?, entry.2.isBeacon = true ∧ entry.2.destination = id v

/-- A packet that waits to be delivered to `v`, where everyone below is ready for it. -/
structure Enroute (id : V → Word16) (sink : V) (bm : BeaconMsg) (c : Config V) (v : V) : Prop where
  reach : (routing id).system.Reachable System.anyStep c
  reporting : Reporting (c.node sink)
  ready : v ≠ sink → (c.node v).curMetric.val < noRoute ∧
    ∀ w, w ≠ sink → (c.node w).curMetric ≤ (c.node v).curMetric → Ready (id w) (c.node w)
  waits : ∃ i u, c.log[i]? = some (u, ⟨id u, id v, sizeofBeaconMsg, .beacon bm⟩) ∧
    (i, v) ∉ c.delivered

variable [Fintype V]

/-- A node that has sent the packet on has brought it further down. -/
theorem Enroute.of_sent (hcard : Fintype.card V < noRoute) (hid : Function.Injective id)
    (hsink : id sink = recvNodeId) {bm : BeaconMsg} {c c' : Config V} {v : V} (hv : v ≠ sink)
    (hreach : (routing id).system.Reachable System.anyStep c)
    (hreach' : (routing id).system.Reachable System.anyStep c')
    (hroute : (c.node v).curMetric.val < noRoute)
    (hready : ∀ w, w ≠ sink → (c.node w).curMetric ≤ (c.node v).curMetric →
      Ready (id w) (c.node w))
    (hreporting : Reporting (c.node sink)) (hother : ∀ w, w ≠ v → c'.node w = c.node w)
    (hmetric : (c'.node v).curMetric = (c.node v).curMetric)
    (hlog : c'.log = c.log ++ [(v, airedBy (id v) (c.node v).curNexthopNodeId (.beacon bm))])
    (hpast : ∀ p ∈ c'.delivered, p.1 < c.log.length) :
    ∃ u, Enroute id sink bm c' u ∧
      (u = sink ∨ (c'.node u).curMetric.val < (c.node v).curMetric.val) := by
  have hs : Sound id sink c :=
    sound_of_reachable hcard (fun w hw => hid (hw.trans hsink.symm)) hreach
  obtain ⟨u, hnext, -, hdown⟩ := hs.gradient.descends v hroute
  have hname : (c.node v).curNexthopNodeId = id u := hnext
  have hwaits : ∃ i w, c'.log[i]? = some (w, ⟨id w, id u, sizeofBeaconMsg, .beacon bm⟩) ∧
      (i, u) ∉ c'.delivered := by
    refine ⟨c.log.length, v, ?_, fun hmem => Nat.lt_irrefl _ (hpast _ hmem)⟩
    rw [hlog, List.getElem?_concat_length, hname]
    rfl
  have hreporting' : Reporting (c'.node sink) := by
    rw [hother sink hv.symm]
    exact hreporting
  by_cases hu : u = sink
  · exact ⟨u, ⟨hreach', hreporting', fun hne => absurd hu hne, hwaits⟩, .inl hu⟩
  · have hless : (c.node u).curMetric.val + 1 ≤ (c.node v).curMetric.val := hdown.resolve_left hu
    have huv : u ≠ v := by
      rintro rfl
      omega
    have hsame : c'.node u = c.node u := hother u huv
    refine ⟨u, ⟨hreach', hreporting', fun _ => ?_, hwaits⟩, .inr (hsame ▸ hless)⟩
    rw [hsame]
    refine ⟨by omega, fun w hw hle => ?_⟩
    have hwv : w ≠ v := by
      rintro rfl
      have hle' := Fin.le_def.mp (hmetric ▸ hle)
      omega
    rw [hother w hwv] at hle ⊢
    exact hready w hw (hle.trans (Fin.le_def.mpr (by omega)))

/-- One hop: the node that the packet waits for sends it on, further down. -/
theorem Enroute.hop (hcard : Fintype.card V < noRoute) (hid : Function.Injective id)
    (hsink : id sink = recvNodeId) (hcast : ∀ v, id v ≠ broadcastAddr) {bm : BeaconMsg}
    {c : Config V} {v : V} (h : Enroute id sink bm c v) (hv : v ≠ sink) :
    ∃ e c' u, Handover id c e ∧ (routing id).system.step c e = some c' ∧
      Enroute id sink bm c' u ∧ (c'.node sink).recvData = (c.node sink).recvData ∧
      (u = sink ∨ (c'.node u).curMetric.val < (c.node v).curMetric.val) := by
  obtain ⟨i, w, hlog, hnew⟩ := h.waits
  obtain ⟨hroute, hready⟩ := h.ready hv
  have hsent := (hready v hv le_rfl).hears (hcast v) (id w) bm
  have haside := hear_aside (id v) granting ⟨id w, id v, sizeofBeaconMsg, .beacon bm⟩ (c.node v)
    rfl
  have hmetric : (hear (id v) granting ⟨id w, id v, sizeofBeaconMsg, .beacon bm⟩
      (c.node v)).1.curMetric = (c.node v).curMetric := congrArg Table.metric haside.table
  generalize hhear : hear (id v) granting ⟨id w, id v, sizeofBeaconMsg, .beacon bm⟩ (c.node v) =
    out at hsent hmetric
  obtain ⟨t, fs⟩ := out
  dsimp only at hsent hmetric
  subst hsent
  have hstep := (routing id).system_step_deliver hlog hhear
  have hpast : ∀ p ∈ c.delivered ++ [(i, v)], p.1 < c.log.length := by
    intro p hp
    rcases List.mem_append.mp hp with hold | hlast
    · exact Network.past_of_reachable h.reach p hold
    · rw [List.mem_singleton.mp hlast]
      exact (List.getElem?_eq_some_iff.mp hlog).1
  obtain ⟨u, henroute, hdown⟩ := Enroute.of_sent hcard hid hsink hv h.reach
    (h.reach.step trivial hstep) hroute hready h.reporting
    (fun w hw => by rw [Network.Config.mark_node, Network.Config.put_node_of_ne _ _ _ hw])
    (by rw [Network.Config.mark_node, Network.Config.put_node_self]; exact hmetric)
    rfl hpast
  refine ⟨.deliver i v granting, _, u, ⟨rfl, hnew, ?_⟩, hstep, henroute, ?_, hdown⟩
  · intro entry hentry
    obtain rfl := Option.some.inj (hlog.symm.trans hentry)
    exact ⟨rfl, rfl⟩
  · rw [Network.Config.mark_node, Network.Config.put_node_of_ne _ _ _ hv.symm]

omit [Fintype V] in
/-- The last hop. -/
theorem Enroute.arrive (hcast : ∀ v, id v ≠ broadcastAddr) {bm : BeaconMsg} {c : Config V}
    (h : Enroute id sink bm c sink) :
    ∃ e c' u, Handover id c e ∧ (routing id).system.step c e = some c' ∧
      (c'.node sink).recvData = (c.node sink).recvData ++ [(id u, bm.nodeid, bm.counter)] := by
  obtain ⟨i, u, hlog, hnew⟩ := h.waits
  have hprinted := h.reporting.hears (hcast sink) (id u) bm
  refine ⟨.deliver i sink granting, _, u, ⟨rfl, hnew, ?_⟩,
    (routing id).system_step_deliver hlog rfl, ?_⟩
  · intro entry hentry
    obtain rfl := Option.some.inj (hlog.symm.trans hentry)
    exact ⟨rfl, rfl⟩
  · rw [Network.Config.mark_node, Network.Config.put_node_self]
    exact hprinted

/-- By induction on the metric of the node that the packet waits for. -/
theorem Enroute.arrives (hcard : Fintype.card V < noRoute) (hid : Function.Injective id)
    (hsink : id sink = recvNodeId) (hcast : ∀ v, id v ≠ broadcastAddr) {bm : BeaconMsg} {m : ℕ}
    {c : Config V} {v : V} (h : Enroute id sink bm c v)
    (hm : v = sink ∨ (c.node v).curMetric.val ≤ m) :
    ∃ es c' u, (routing id).system.Leads (Handover id) c es c' ∧ es.length ≤ m + 1 ∧
      (c'.node sink).recvData = (c.node sink).recvData ++ [(id u, bm.nodeid, bm.counter)] := by
  induction m generalizing c v with
  | zero =>
    have hv : v = sink := by
      by_contra hv
      have hs : Sound id sink c :=
        sound_of_reachable hcard (fun w hw => hid (hw.trans hsink.symm)) h.reach
      have hpos : 1 ≤ (c.node v).curMetric.val := hs.gradient.rank_pos v (h.ready hv).1
      have hzero := hm.resolve_left hv
      omega
    subst hv
    obtain ⟨e, c', u, hallowed, hstep, hprinted⟩ := h.arrive hcast
    exact ⟨[e], c', u, .single hallowed hstep, le_rfl, hprinted⟩
  | succ m ih =>
    by_cases hv : v = sink
    · subst hv
      obtain ⟨e, c', u, hallowed, hstep, hprinted⟩ := h.arrive hcast
      exact ⟨[e], c', u, .single hallowed hstep, Nat.le_add_left 1 (m + 1), hprinted⟩
    · obtain ⟨e, c', u, hallowed, hstep, henroute, hsame, hdown⟩ := h.hop hcard hid hsink hcast hv
      have hle := hm.resolve_left hv
      obtain ⟨es, c'', w, hleads, hlength, hprinted⟩ := ih henroute
        (hdown.imp_right fun hless => by omega)
      exact ⟨e :: es, c'', w, .cons hallowed hstep hleads, Nat.succ_le_succ hlength,
        hsame ▸ hprinted⟩

end Run

/-- In every state that the network can reach, whatever was lost or came late before: a
packet that a node with a route is given then comes to the sink in no more hops than the
metric of the node says, and is printed there with the number its source gave it, provided
that the nodes with no larger metric are free to send and the sink is the destination. -/
theorem packet_arrives {V : Type} [DecidableEq V] [Fintype V] (id : V → Word16)
    (hid : Function.Injective id) (sink : V) (hsink : id sink = recvNodeId)
    (hcast : ∀ v, id v ≠ broadcastAddr) (hcard : Fintype.card V < 65535) {c : Config V}
    (h : (routing id).system.Reachable System.anyStep c) {v : V} (hv : v ≠ sink)
    (hroute : (c.node v).curMetric < 0xffff)
    (hready : ∀ w, w ≠ sink → (c.node w).curMetric ≤ (c.node v).curMetric →
      Ready (id w) (c.node w))
    (hreporting : Reporting (c.node sink)) (source : Word16) (bm : BeaconMsg) :
    ∃ c₁ es c₂ u,
      (routing id).system.step c
        (.act v (.sourceData source (id v) sizeofBeaconMsg bm granting)) = some c₁ ∧
      (routing id).system.Leads (Handover id) c₁ es c₂ ∧
      es.length ≤ (c.node v).curMetric.val ∧
      (c₂.node sink).recvData = (c.node sink).recvData ++ [(id u, bm.nodeid, bm.counter)] := by
  have hsent := (hready v hv le_rfl).hears (hcast v) source bm
  generalize hhear : hear (id v) granting ⟨source, id v, sizeofBeaconMsg, .beacon bm⟩
    (c.node v) = out at hsent
  obtain ⟨t, fs⟩ := out
  dsimp only at hsent
  subst hsent
  have hhandle : handle (id v) (.sourceData source (id v) sizeofBeaconMsg bm granting)
      (c.node v) = some (t, [airedBy (id v) (c.node v).curNexthopNodeId (.beacon bm)]) :=
    congrArg some hhear
  have hmetric : t.curMetric = (c.node v).curMetric := handle_metric_eq hhandle
  have hstep : (routing id).system.step c
      (.act v (.sourceData source (id v) sizeofBeaconMsg bm granting)) = some _ :=
    (routing id).system_step_act (v := v) (s := t) hhandle
  obtain ⟨u, henroute, hdown⟩ := Enroute.of_sent hcard hid hsink hv h (h.step trivial hstep)
    hroute hready hreporting (fun w hw => Network.Config.put_node_of_ne _ _ _ hw)
    (by rw [Network.Config.put_node_self]; exact hmetric) rfl
    (Network.past_of_reachable h)
  have hs : Sound id sink c :=
    sound_of_reachable hcard (fun w hw => hid (hw.trans hsink.symm)) h
  have hpos : 1 ≤ (c.node v).curMetric.val := hs.gradient.rank_pos v hroute
  obtain ⟨es, c₂, w, hleads, hlength, hprinted⟩ :=
    henroute.arrives hcard hid hsink hcast (m := (c.node v).curMetric.val - 1)
      (hdown.imp_right fun hless => by omega)
  refine ⟨_, es, c₂, w, hstep, hleads, by omega, ?_⟩
  rwa [Network.Config.put_node_of_ne _ _ _ hv.symm] at hprinted

/-- Two hops, from node 3 by way of node 2. -/
theorem packet_arrives_two_hops :
    ∃ c c₁ : Config (Fin 3), (c.node 2).curMetric = 2 ∧
      (routing ![1, 2, 3]).system.step c
        (.act 2 (.sourceData 9 3 sizeofBeaconMsg sample granting)) = some c₁ ∧
      ∃ es c₂ u, (routing ![1, 2, 3]).system.Leads (Handover ![1, 2, 3]) c₁ es c₂ ∧
        es.length ≤ 2 ∧ (c₂.node 0).recvData = [(u, 100, 7)] := by
  have hinit : (routing (![1, 2, 3] : Fin 3 → Word16)).system.Reachable System.anyStep _ :=
    .init
  have hboot := hinit.step (e := .act 0 .booted) trivial rfl
  have hstart := hboot.step (e := .act 0 (.startDone .success)) trivial rfl
  have hboot₁ := hstart.step (e := .act 1 .booted) trivial rfl
  have hstart₁ := hboot₁.step (e := .act 1 (.startDone .success)) trivial rfl
  have hboot₂ := hstart₁.step (e := .act 2 .booted) trivial rfl
  have hstart₂ := hboot₂.step (e := .act 2 (.startDone .success)) trivial rfl
  have hbeacon := hstart₂.step (e := .act 0 (.timer0Fired .success)) trivial rfl
  have hheard := hbeacon.step (e := .deliver 0 1 granting) trivial rfl
  have hrelay := hheard.step (e := .act 1 (.timer1Fired .success)) trivial rfl
  have hfar := hrelay.step (e := .deliver 1 2 granting) trivial rfl
  obtain ⟨c₁, es, c₂, u, hstep, hleads, hlength, hprinted⟩ :=
    packet_arrives _ (by decide) 0 rfl (by decide) (by decide) hfar (v := 2) (by decide)
      (by decide) (fun w hw _ => ⟨by fin_cases w <;> rfl, by fin_cases w <;> trivial, by
        fin_cases w
        · exact absurd rfl hw
        · exact .inr rfl
        · exact .inr rfl⟩) ⟨rfl, rfl⟩ 9 sample
  exact ⟨_, c₁, rfl, hstep, es, c₂, _, hleads, hlength, hprinted⟩

end WsnContest.Routing
