import WsnContest.Routing.Buffer

/-! The sink. Node 1 is the destination from its boot on, until it hears a data frame
that is broadcast: then it is a potential speaker like any other node, prints nothing
more and, once elected, sends on what was meant for it. -/
namespace WsnContest.Routing
open Tinyos Lib

/-- The frame that an event brings to the node. -/
def NodeEvent.frame? : NodeEvent → Option Frame
  | .heard _ f => some f
  | .own (.sourceData source destination len bm _) =>
    some ⟨source, destination, len, .beacon bm⟩
  | .own .booted | .own (.startDone _) | .own (.timer0Fired _) | .own (.timer1Fired _)
  | .own (.sendDone _ _) | .transmit => none

/-- A step of node 1 as the sink: from its boot on it is the destination, it hands no
data frame to `AMDataSend` and prints each that is addressed to it. -/
structure SinkStep (s : State) (e : NodeEvent) (t : State) : Prop where
  type : t.radio ≠ .off → t.type = .dst
  keeps : ∀ a ∈ attempts recvNodeId s e, a.free = true → a.msg.am ≠ .beacon
  reports : ∀ source bm, e.frame? = some ⟨source, recvNodeId, sizeofBeaconMsg, .beacon bm⟩ →
    s.radio = .on → t.recvData = s.recvData ++ [(source, bm.nodeid, bm.counter)]

/-- No data frame is broadcast to node 1, and none is addressed to it while it is not
busy and elected. -/
def Unmoved (s : State) (e : NodeEvent) : Prop :=
  ∀ f ∈ e.frame?, f.payload.am = .beacon → f.length = sizeofBeaconMsg → s.radio = .on →
    f.destination ≠ broadcastAddr ∧
      (f.destination = recvNodeId → s.busy = false → isSP recvNodeId s = false)

instance (s : State) (e : NodeEvent) : Decidable (Unmoved s e) :=
  inferInstanceAs (Decidable (∀ f ∈ e.frame?, _))

/-- What makes a node the sink, and what it has printed. -/
def State.role (s : State) : NodeType × Radio × List (Word16 × Word16 × Word16) :=
  (s.type, s.radio, s.recvData)

section Role
variable (tos : Word16) (s : State)

@[simp] theorem role_mark (i : Word16) : (s.mark i).role = s.role := by
  obtain ⟨isPSP, strays, heq⟩ := mark_eq s i
  rw [heq]
  rfl

theorem role_forward (destination : Word16) (bm : BeaconMsg) (sent : ErrorT) :
    (forward tos destination bm sent s).1.role = s.role := by
  obtain ⟨packet, busy, pending, heq⟩ := forward_eq tos s destination bm sent
  rw [heq]
  rfl

theorem role_announce (sent : ErrorT) :
    (announce tos sent s).1.role = (.psp, s.radio, s.recvData) := by
  obtain ⟨packet, busy, pending, locked, heq⟩ := announce_eq tos s sent
  rw [heq]
  exact role_mark { s with type := .psp } tos

theorem role_controlReceive (len : Word8) (cm : ControlMsg) (ans : Answers) :
    (controlReceive tos len cm ans s).1.role = s.role := by
  by_cases hlen : len = sizeofControlMsg
  · subst hlen
    obtain ⟨packet, busy, pending, heq⟩ := controlReceive_eq tos s cm ans
    rw [heq]
    exact role_mark s cm.nodeid
  · rw [controlReceive, if_neg hlen]

theorem role_routeReceive (len : Word8) (rm : RouteMsg) (ans : Answers) :
    (routeReceive len rm ans s).role = s.role := by
  obtain ⟨metric, nexthop, id, timer1, heq⟩ := routeReceive_fields s len rm ans
  rw [heq]
  rfl

theorem role_timer0Fired (sent : ErrorT) : (timer0Fired tos sent s).1.role = s.role := by
  obtain ⟨packet, busy, curId, cnt, timer0, pending, heq⟩ := timer0Fired_eq tos s sent
  rw [heq]
  rfl

theorem role_timer1Fired (sent : ErrorT) : (timer1Fired tos sent s).1.role = s.role := by
  obtain ⟨packet, pending, heq⟩ := timer1Fired_eq tos s sent
  rw [heq]
  rfl

end Role

section Steps
variable {s : State}

theorem sinkStep_of_role (hs : s.radio ≠ .off → s.type = .dst) {e : NodeEvent} {t : State}
    (htype : t.type = s.type) (hradio : t.radio = s.radio)
    (hkeeps : ∀ a ∈ attempts recvNodeId s e, a.msg.am ≠ .beacon)
    (hframe : ∀ source bm, s.radio = .on →
      e.frame? ≠ some ⟨source, recvNodeId, sizeofBeaconMsg, .beacon bm⟩) : SinkStep s e t := by
  refine ⟨?_, fun a ha _ => hkeeps a ha, fun source bm hf hon => absurd hf (hframe source bm hon)⟩
  rw [htype, hradio]
  exact hs

theorem type_of_role {t : State} (h : t.role = s.role) :
    t.type = s.type ∧ t.radio = s.radio ∧ t.recvData = s.recvData := by
  simpa [State.role] using h

/-- A data frame that is broadcast turns the sink into a potential speaker. -/
theorem broadcast_moves (hon : s.radio = .on) (ans : Answers) (source : Word16) (bm : BeaconMsg) :
    (hear recvNodeId ans ⟨source, broadcastAddr, sizeofBeaconMsg, .beacon bm⟩ s).1.radio = .on ∧
    (hear recvNodeId ans ⟨source, broadcastAddr, sizeofBeaconMsg, .beacon bm⟩ s).1.type = .psp := by
  have hne : broadcastAddr ≠ recvNodeId := by decide
  have hannounce := role_announce recvNodeId s ans.controlSent
  have hforward := role_forward recvNodeId (announce recvNodeId ans.controlSent s).1
    broadcastAddr bm ans.dataSent
  have hhear : (hear recvNodeId ans ⟨source, broadcastAddr, sizeofBeaconMsg, .beacon bm⟩ s).1 =
      report recvNodeId source broadcastAddr bm (forward recvNodeId broadcastAddr bm ans.dataSent
        (announce recvNodeId ans.controlSent s).1).1 := by
    rw [hear, if_pos ⟨hon, .inr rfl⟩]
    simp [dataReceive, spread]
  rw [hhear, report, if_neg (fun h => hne h.2)]
  obtain ⟨htype, hradio, -⟩ := type_of_role hforward
  rw [htype, hradio]
  obtain ⟨htype', hrest⟩ := Prod.mk.inj hannounce
  exact ⟨(Prod.mk.inj hrest).1.trans hon, htype'⟩

theorem unicast_reported (hon : s.radio = .on) (hdst : s.type = .dst) (ans : Answers)
    (source : Word16) (bm : BeaconMsg) :
    (hear recvNodeId ans ⟨source, recvNodeId, sizeofBeaconMsg, .beacon bm⟩ s).1.role =
      (.dst, .on, s.recvData ++ [(source, bm.nodeid, bm.counter)]) := by
  have hne : recvNodeId ≠ broadcastAddr := by decide
  have hforward := role_forward recvNodeId s recvNodeId bm ans.dataSent
  have hhear : (hear recvNodeId ans ⟨source, recvNodeId, sizeofBeaconMsg, .beacon bm⟩ s).1 =
      report recvNodeId source recvNodeId bm
        (forward recvNodeId recvNodeId bm ans.dataSent s).1 := by
    rw [hear, if_pos ⟨hon, .inl rfl⟩]
    simp [dataReceive, spread, hne]
  obtain ⟨htype, hradio, hrecv⟩ := type_of_role hforward
  rw [hhear, report, if_pos ⟨htype.trans hdst, rfl⟩]
  simp [State.role, htype, hradio, hrecv, hon, hdst]

theorem unicast_sink_iff (hon : s.radio = .on) (hdst : s.type = .dst) (ans : Answers)
    (source : Word16) (bm : BeaconMsg) :
    SinkStep s (.heard ans ⟨source, recvNodeId, sizeofBeaconMsg, .beacon bm⟩)
        (hear recvNodeId ans ⟨source, recvNodeId, sizeofBeaconMsg, .beacon bm⟩ s).1 ↔
      Unmoved s (.heard ans ⟨source, recvNodeId, sizeofBeaconMsg, .beacon bm⟩) := by
  have hne : recvNodeId ≠ broadcastAddr := by decide
  have hattempts : attempts recvNodeId s
      (.heard ans ⟨source, recvNodeId, sizeofBeaconMsg, .beacon bm⟩) =
      [⟨.beacon bm, s.curNexthopNodeId, !s.busy && isSP recvNodeId s, ans.dataSent⟩] := by
    have hnor : (NodeType.dst == NodeType.nor) = false := rfl
    simp [attempts, hearAttempts, hon, spreadAttempts, hne, forwardAttempts, hdst, hnor]
  have hrole := unicast_reported hon hdst ans source bm
  generalize (hear recvNodeId ans ⟨source, recvNodeId, sizeofBeaconMsg, .beacon bm⟩ s).1 = t
    at hrole ⊢
  obtain ⟨htype, hrest⟩ := Prod.mk.inj hrole
  have hrecv := (Prod.mk.inj hrest).2
  constructor
  · intro hstep f hf _ _ _
    obtain rfl := Option.some.inj hf
    refine ⟨hne, fun _ hidle => Bool.eq_false_iff.mpr fun helected => ?_⟩
    refine hstep.keeps _ (hattempts ▸ List.mem_singleton_self _) ?_ rfl
    simp [hidle, helected]
  · intro hunmoved
    obtain ⟨-, hnot⟩ := hunmoved _ rfl rfl rfl hon
    refine ⟨fun _ => htype, ?_, ?_⟩
    · intro a ha hfree
      rw [hattempts, List.mem_singleton] at ha
      subst ha
      obtain ⟨hidle, helected⟩ : s.busy = false ∧ isSP recvNodeId s = true := by
        simpa using hfree
      simp [hnot rfl hidle] at helected
    · intro source' bm' hf _
      obtain ⟨rfl, -, -, hpayload⟩ := Frame.mk.inj (Option.some.inj hf)
      obtain rfl := Msg.beacon.inj hpayload
      exact hrecv

theorem beacon_sink_iff (hs : s.radio ≠ .off → s.type = .dst) (hon : s.radio = .on)
    {destination : Word16} (hdest : destination = recvNodeId ∨ destination = broadcastAddr)
    (ans : Answers) (source : Word16) (len : Word8) (bm : BeaconMsg) :
    SinkStep s (.heard ans ⟨source, destination, len, .beacon bm⟩)
        (hear recvNodeId ans ⟨source, destination, len, .beacon bm⟩ s).1 ↔
      Unmoved s (.heard ans ⟨source, destination, len, .beacon bm⟩) := by
  by_cases hlen : len = sizeofBeaconMsg
  · subst hlen
    rcases hdest with rfl | rfl
    · exact unicast_sink_iff hon (hs (by simp [hon])) ans source bm
    · obtain ⟨hradio, htype⟩ := broadcast_moves hon ans source bm
      refine iff_of_false (fun hstep => ?_) fun h => (h _ rfl rfl rfl hon).1 rfl
      have hdst := hstep.type (by simp [hradio])
      simp [htype] at hdst
  · have hhear : (hear recvNodeId ans ⟨source, destination, len, .beacon bm⟩ s).1 =
        report recvNodeId source destination bm s := by
      rw [hear, if_pos ⟨hon, hdest⟩]
      simp [dataReceive, spread, hlen]
    have hreport : (report recvNodeId source destination bm s).type = s.type ∧
        (report recvNodeId source destination bm s).radio = s.radio := by
      obtain ⟨recvData, heq⟩ := report_eq recvNodeId s source destination bm
      rw [heq]
      exact ⟨rfl, rfl⟩
    rw [hhear]
    refine iff_of_true (sinkStep_of_role hs hreport.1 hreport.2 ?_ ?_) ?_
    · simp [attempts, hearAttempts, spreadAttempts, hlen]
    · exact fun source' bm' _ hf => hlen (congrArg Frame.length (Option.some.inj hf))
    · intro f hf _ hsize
      obtain rfl := Option.some.inj hf
      exact absurd hsize hlen

theorem hear_sink_iff (hs : s.radio ≠ .off → s.type = .dst) (ans : Answers) (f : Frame) :
    SinkStep s (.heard ans f) (hear recvNodeId ans f s).1 ↔ Unmoved s (.heard ans f) := by
  obtain ⟨source, destination, len, payload⟩ := f
  by_cases hreceived : s.radio = .on ∧ (destination = recvNodeId ∨ destination = broadcastAddr)
  · have hdst : s.type = .dst := hs (by simp [hreceived.1])
    cases payload with
    | route rm =>
      obtain ⟨htype, hradio, -⟩ := type_of_role (role_routeReceive s len rm ans)
      refine iff_of_true (sinkStep_of_role hs ?_ ?_ ?_ ?_) ?_
      · simpa [hear, hreceived] using htype
      · simpa [hear, hreceived] using hradio
      · simp [attempts, hearAttempts]
      · simp [NodeEvent.frame?]
      · intro f hf ham
        obtain rfl := Option.some.inj hf
        cases ham
    | control cm =>
      obtain ⟨htype, hradio, -⟩ := type_of_role (role_controlReceive recvNodeId s len cm ans)
      refine iff_of_true (sinkStep_of_role hs ?_ ?_ ?_ ?_) ?_
      · simpa [hear, hreceived] using htype
      · simpa [hear, hreceived] using hradio
      · simp [attempts, hearAttempts, controlAttempts, hdst]
      · simp [NodeEvent.frame?]
      · intro f hf ham
        obtain rfl := Option.some.inj hf
        cases ham
    | beacon bm => exact beacon_sink_iff hs hreceived.1 hreceived.2 ans source len bm
  · have hhear : hear recvNodeId ans ⟨source, destination, len, payload⟩ s = (s, []) :=
      if_neg hreceived
    have hpassed : s.radio = .on → destination ≠ recvNodeId ∧ destination ≠ broadcastAddr := by
      intro hon
      simpa [hon] using hreceived
    rw [hhear]
    refine iff_of_true (sinkStep_of_role hs rfl rfl ?_ ?_) ?_
    · simp [attempts, hearAttempts, hreceived]
    · intro source' bm hon hf
      exact (hpassed hon).1 (congrArg Frame.destination (Option.some.inj hf))
    · intro f hf _ _ hon
      obtain rfl := Option.some.inj hf
      exact ⟨(hpassed hon).2, fun h => absurd h (hpassed hon).1⟩

theorem sink_step_iff (hs : s.radio ≠ .off → s.type = .dst) {e : NodeEvent} {t : State}
    {out : List Output} (h : nodeStep recvNodeId s e = some (t, out)) :
    SinkStep s e t ↔ Unmoved s e := by
  have hsilent : e.frame? = none → Unmoved s e := by
    intro hframe f hf
    rw [hframe] at hf
    cases hf
  have hkept : e.frame? = none → t.type = s.type → t.radio = s.radio →
      (∀ a ∈ attempts recvNodeId s e, a.msg.am ≠ .beacon) → (SinkStep s e t ↔ Unmoved s e) := by
    intro hframe htype hradio hkeeps
    refine iff_of_true (sinkStep_of_role hs htype hradio hkeeps ?_) (hsilent hframe)
    intro source bm _
    simp [hframe]
  cases nodeStep_dispatch h with
  | booted =>
    refine iff_of_true ⟨fun _ => ?_, by simp [attempts], by simp [NodeEvent.frame?]⟩ (hsilent rfl)
    simp [booted]
  | @startDone err hstarting =>
    have hdst : s.type = .dst := hs (by simp [hstarting])
    obtain ⟨radio, timer0, heq⟩ := startDone_eq err s
    exact iff_of_true ⟨fun _ => (congrArg State.type heq).trans hdst, by simp [attempts],
      by simp [NodeEvent.frame?]⟩ (hsilent rfl)
  | @timer0Fired sent =>
    obtain ⟨htype, hradio, -⟩ :=
      type_of_role (role_timer0Fired recvNodeId { s with timer0 := none } sent)
    exact hkept rfl htype hradio (by simp [attempts, Msg.am])
  | @timer1Fired sent =>
    obtain ⟨htype, hradio, -⟩ :=
      type_of_role (role_timer1Fired recvNodeId { s with timer1 := none } sent)
    exact hkept rfl htype hradio (by simp [attempts, Msg.am])
  | sendDone => exact hkept rfl rfl rfl (by simp [attempts])
  | @sourceData source destination len bm ans =>
    have hhear := hear_sink_iff hs ans ⟨source, destination, len, .beacon bm⟩
    exact ⟨fun hstep => hhear.mp ⟨hstep.type, hstep.keeps, hstep.reports⟩,
      fun hunmoved => ⟨(hhear.mpr hunmoved).type, (hhear.mpr hunmoved).keeps,
        (hhear.mpr hunmoved).reports⟩⟩
  | heard => exact hear_sink_iff hs _ _
  | transmit => exact hkept rfl rfl rfl (by simp [attempts])

end Steps

theorem frames_effect {tos : Word16} {s t : State} {e : NodeEvent} {out : List Output}
    (h : NodeEffect tos s e t out) :
    ∀ f ∈ frames out, ∃ a ∈ attempts tos s e, a.free = true ∧ a.msg = f.payload := by
  have hhandled : ∀ {marks : Bool} {fs : List Frame},
      Handles tos marks s (attempts tos s e) (t, fs) →
      ∀ f ∈ frames (fs.map Output.handed), ∃ a ∈ attempts tos s e,
        a.free = true ∧ a.msg = f.payload := by
    intro marks fs hhandles f hf
    have hframes : fs = (attempts tos s e).filterMap (Attempt.frame? tos) := hhandles.frames
    rw [frames_handed, hframes] at hf
    obtain ⟨a, ha, hframe⟩ := List.mem_filterMap.mp hf
    obtain ⟨haccepted, hair⟩ := Option.ite_none_right_eq_some.mp hframe
    obtain rfl : airedBy tos a.addr a.msg = f := Option.some.inj hair
    exact ⟨a, ha, (Bool.and_eq_true_iff.mp haccepted).1, rfl⟩
  cases h with
  | handled he hhandles => exact hhandled hhandles
  | relayed hhandles => exact hhandled hhandles
  | sendDone ham => simp [frames]
  | transmit hout => simp [frames, Output.frame?]

section Network
variable {V : Type} [DecidableEq V] {id : V → Word16}

/-- What an event of the network is for the node `u`. -/
def localEvent (u : V) (c : Network.Config (fun _ : V => State) Frame) :
    Network.Event (fun _ : V => Event) (fun _ : V => Answers) → Option NodeEvent
  | .act v e => if v = u then some (.own e) else none
  | .deliver i v ans => if v = u then c.log[i]?.map fun entry => .heard ans entry.2 else none

/-- A step of the network is a step of the node, or leaves it alone. -/
theorem local_step (u : V) {c c' : Network.Config (fun _ : V => State) Frame}
    {e : Network.Event (fun _ : V => Event) (fun _ : V => Answers)}
    (h : (routing id).system.step c e = some c') :
    (localEvent u c e = none ∧ c'.node u = c.node u ∧ ∀ f, (u, f) ∈ c'.log → (u, f) ∈ c.log) ∨
    ∃ (e' : NodeEvent) (fs : List Frame), localEvent u c e = some e' ∧
      nodeStep (id u) (c.node u) e' = some (c'.node u, fs.map .handed) ∧
      ∀ f, (u, f) ∈ c'.log → (u, f) ∈ c.log ∨ f ∈ fs := by
  obtain ⟨v, a, t, fs, rfl, hhandle, rfl⟩ | ⟨i, v, ans, w, f, rfl, hlog, rfl⟩ :=
    (routing id).system_step h
  · by_cases hv : v = u
    · subst hv
      refine .inr ⟨.own a, fs, if_pos rfl, ?_, ?_⟩
      · rw [Network.Config.put_node_self]
        exact Option.map_eq_some_iff.mpr ⟨(t, fs), hhandle, rfl⟩
      · intro f hf
        exact (Network.Config.mem_put_log.mp hf).imp_right And.right
    · refine .inl ⟨if_neg hv, Network.Config.put_node_of_ne _ _ _ (Ne.symm hv), fun f hf => ?_⟩
      exact (Network.Config.mem_put_log.mp hf).resolve_right fun hnew => hv hnew.1.symm
  · by_cases hv : v = u
    · subst hv
      refine .inr ⟨.heard ans f, (hear (id v) ans f (c.node v)).2, ?_, ?_, ?_⟩
      · simp [localEvent, hlog]
      · rw [Network.Config.mark_node, Network.Config.put_node_self]
        rfl
      · intro g hg
        rw [Network.Config.mark_log] at hg
        exact (Network.Config.mem_put_log.mp hg).imp_right And.right
    · refine .inl ⟨if_neg hv, ?_, fun g hg => ?_⟩
      · rw [Network.Config.mark_node]
        exact Network.Config.put_node_of_ne _ _ _ (Ne.symm hv)
      · rw [Network.Config.mark_log] at hg
        exact (Network.Config.mem_put_log.mp hg).resolve_right fun hnew => hv hnew.1.symm

/-- Node `u` of the network is the sink, and has sent no data frame. -/
structure IsSink (u : V) (c : Network.Config (fun _ : V => State) Frame) : Prop where
  type : (c.node u).radio ≠ .off → (c.node u).type = .dst
  sent : ∀ f, (u, f) ∈ c.log → f.payload.am ≠ .beacon

/-- Whatever the event is for node `u`, it is a step of a sink. -/
def SinkStepAt (u : V) (c : Network.Config (fun _ : V => State) Frame)
    (e : Network.Event (fun _ : V => Event) (fun _ : V => Answers))
    (c' : Network.Config (fun _ : V => State) Frame) : Prop :=
  ∀ e' ∈ localEvent u c e, SinkStep (c.node u) e' (c'.node u)

def UnmovedAt (u : V) (c : Network.Config (fun _ : V => State) Frame)
    (e : Network.Event (fun _ : V => Event) (fun _ : V => Answers)) : Prop :=
  ∀ e' ∈ localEvent u c e, Unmoved (c.node u) e'

instance (u : V) (c : Network.Config (fun _ : V => State) Frame)
    (e : Network.Event (fun _ : V => Event) (fun _ : V => Answers)) :
    Decidable (UnmovedAt u c e) :=
  inferInstanceAs (Decidable (∀ e' ∈ localEvent u c e, _))

/-- Exactly these steps of a network keep node 1 the sink. -/
theorem sinkStepAt_iff {u : V} (hu : id u = recvNodeId)
    {c c' : Network.Config (fun _ : V => State) Frame} (hc : IsSink u c)
    {e : Network.Event (fun _ : V => Event) (fun _ : V => Answers)}
    (h : (routing id).system.step c e = some c') :
    (SinkStepAt u c e c' ↔ UnmovedAt u c e) ∧ (UnmovedAt u c e → IsSink u c') := by
  obtain ⟨hnone, hnode, hlog⟩ | ⟨e', fs, hlocal, hstep, hlog⟩ := local_step u h
  · refine ⟨iff_of_true ?_ ?_, fun _ => ⟨?_, fun f hf => hc.sent f (hlog f hf)⟩⟩
    · simp [SinkStepAt, hnone]
    · simp [UnmovedAt, hnone]
    · rw [hnode]
      exact hc.type
  · rw [hu] at hstep
    have hiff := sink_step_iff hc.type hstep
    have hsink : UnmovedAt u c e → SinkStep (c.node u) e' (c'.node u) := fun hunmoved =>
      hiff.mpr (hunmoved e' hlocal)
    refine ⟨⟨fun hstep' e'' he'' => ?_, fun hunmoved e'' he'' => ?_⟩, fun hunmoved => ⟨?_, ?_⟩⟩
    · obtain rfl : e' = e'' := Option.some.inj (hlocal.symm.trans he'')
      exact hiff.mp (hstep' e' hlocal)
    · obtain rfl : e' = e'' := Option.some.inj (hlocal.symm.trans he'')
      exact hsink hunmoved
    · exact (hsink hunmoved).type
    · intro f hf
      rcases hlog f hf with hold | hnew
      · exact hc.sent f hold
      · obtain ⟨a, ha, hfree, hmsg⟩ := frames_effect (nodeStep_effect hstep) f (by simpa using hnew)
        rw [← hmsg]
        exact (hsink hunmoved).keeps a ha hfree

end Network

/-- In every run of node 1, whatever frames it hears, each step is that of a sink exactly
if each is unmoved. -/
theorem sink_alone_iff (es : List NodeEvent) {s : State × List Output}
    (hrun : (machine recvNodeId).system.run es = some s) :
    (machine recvNodeId).system.AllowedFrom
        (fun s e => ∀ t ∈ (machine recvNodeId).system.step s e, SinkStep s.1 e t.1)
        (machine recvNodeId).system.init es ↔
      (machine recvNodeId).system.AllowedFrom (fun s e => Unmoved s.1 e)
        (machine recvNodeId).system.init es := by
  refine System.allowedFrom_congr (fun s => s.1.radio ≠ .off → s.1.type = .dst) ?_ ?_ es
    (fun hoff => absurd rfl hoff) hrun
  · intro s e s' hs hunmoved hstep
    obtain ⟨t, out, he, rfl⟩ := (machine recvNodeId).system_step hstep
    exact ((sink_step_iff hs he).mpr hunmoved).type
  · intro s e s' hs hstep
    obtain ⟨t, out, he, rfl⟩ := (machine recvNodeId).system_step hstep
    rw [← sink_step_iff hs he]
    refine ⟨fun hall => hall _ hstep, fun hsink s' hs' => ?_⟩
    rwa [← Option.some.inj (hstep.symm.trans hs')]

/-- In every run of every network each step of node 1 is that of a sink exactly if each
is unmoved; and then it is the destination from its boot on, and no data frame in the
log is its own. -/
theorem sink_stays_iff {V : Type} [DecidableEq V] {id : V → Word16} {u : V}
    (hu : id u = recvNodeId)
    (es : List (Network.Event (fun _ : V => Event) (fun _ : V => Answers)))
    {c : Network.Config (fun _ : V => State) Frame}
    (hrun : (routing id).system.run es = some c) :
    ((routing id).system.AllowedFrom
        (fun c e => ∀ c' ∈ (routing id).system.step c e, SinkStepAt u c e c')
        (routing id).system.init es ↔
      (routing id).system.AllowedFrom (UnmovedAt u) (routing id).system.init es) ∧
    ((routing id).system.AllowedFrom (UnmovedAt u) (routing id).system.init es →
      IsSink u c) := by
  have hinit : IsSink u (routing id).system.init :=
    ⟨fun hoff => absurd rfl hoff, by simp [Network.system]⟩
  constructor
  · refine System.allowedFrom_congr (IsSink u) ?_ ?_ es hinit hrun
    · intro c e c' hc hunmoved hstep
      exact (sinkStepAt_iff hu hc hstep).2 hunmoved
    · intro c e c' hc hstep
      rw [← (sinkStepAt_iff hu hc hstep).1]
      refine ⟨fun hall => hall _ hstep, fun hsink c'' hc'' => ?_⟩
      rwa [← Option.some.inj (hstep.symm.trans hc'')]
  · intro hunmoved
    apply (System.reachable_of_run es hunmoved hrun).invariant (P := IsSink u) hinit
    intro c e c' hc hallowed hstep
    exact (sinkStepAt_iff hu hc hstep).2 hallowed

/-- The sink alone, with a source that addresses it. -/
def addressed : List (Network.Event (fun _ : Unit => Event) (fun _ : Unit => Answers)) :=
  [.act () .booted, .act () (.startDone .success), .act () (.timer0Fired .success),
    .act () (.sourceData 9 recvNodeId sizeofBeaconMsg sample granting)]

theorem sink_stays_addressed :
    ∃ c, (routing fun _ : Unit => recvNodeId).system.run addressed = some c ∧
      (c.node ()).recvData = [(9, 100, 7)] ∧ IsSink () c := by
  have hu : (fun _ : Unit => recvNodeId) () = recvNodeId := rfl
  have hrun : (routing fun _ : Unit => recvNodeId).system.run addressed = some _ := rfl
  exact ⟨_, hrun, by decide, (@sink_stays_iff Unit _ (fun _ => recvNodeId) () hu addressed _ hrun).2
    (by decide)⟩

/-- The same source broadcasts first: the sink is no destination any more, prints nothing
and sends on the frame that is addressed to it. -/
theorem broadcast_moves_sink :
    ∃ c, (routing fun _ : Unit => recvNodeId).system.Reachable System.anyStep c ∧
      (c.node ()).type = .psp ∧ (c.node ()).recvData = [] ∧
      c.log.map (fun entry => entry.2.payload) =
        [.control ⟨recvNodeId, 0xffff⟩, .beacon sample] := by
  have hinit : (routing fun _ : Unit => recvNodeId).system.Reachable System.anyStep _ := .init
  have hrun := System.reachable_of_runFrom hinit
    [.act () .booted, .act () (.startDone .success),
      .act () (.sourceData 9 broadcastAddr sizeofBeaconMsg sample granting),
      .act () (.sendDone .control .success),
      .act () (.sourceData 9 recvNodeId sizeofBeaconMsg sample granting)] (by decide) rfl
  exact ⟨_, hrun, by decide, by decide, by decide⟩

end WsnContest.Routing
