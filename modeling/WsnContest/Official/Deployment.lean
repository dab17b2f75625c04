import WsnContest.Official.Beacon
import WsnContest.Routing.Data

/-! The contest set-up: sources run `BeaconC`, all other nodes run `SimpleRoutingC`, and
they share the radio. What the routing nodes do among themselves they do here as well, and
whatever comes out at the sink has been numbered by a source. -/
namespace WsnContest.Deployment
open Tinyos Lib

/-- A routing node, or a source. -/
inductive Party (V W : Type) where
  | node (v : V)
  | source (w : W)
  deriving DecidableEq

variable {V W : Type}

/-- A source remembers what is seen of it. -/
abbrev PartyState : Party V W → Type
  | .node _ => Routing.State
  | .source _ => Beacon.State × List Beacon.Output

/-- What happens at a routing node without a source: data comes by radio only. -/
def isOwn : Routing.Event → Bool
  | .sourceData .. => false
  | .booted | .startDone _ | .timer0Fired _ | .timer1Fired _ | .sendDone .. => true

abbrev PartyEvent : Party V W → Type
  | .node _ => {e : Routing.Event // isOwn e = true}
  | .source _ => Beacon.Event

/-- A source does not listen. -/
abbrev PartyAnswer : Party V W → Type
  | .node _ => Routing.Answers
  | .source _ => Unit

/-- Both programs declare the same message. -/
def toRouting (msg : Beacon.BeaconMsg) : Routing.BeaconMsg :=
  ⟨msg.nodeid, msg.counter, msg.data⟩

/-- The source broadcasts under the same type of message as the routing nodes. -/
def sourceFrame (sourceId : Word16) (msg : Beacon.BeaconMsg) : Routing.Frame :=
  ⟨sourceId, broadcastAddr, Beacon.sizeofBeaconMsg, .beacon (toRouting msg)⟩

variable (id : V → Word16) (sourceId : W → Word16)

def handle : (p : Party V W) → PartyEvent p → PartyState p →
    Option (PartyState p × List Routing.Frame)
  | .node v, e, s => Routing.handle (id v) e.1 s
  | .source w, e, s => (Beacon.step (sourceId w) s.1 e).map fun r =>
      ((r.1, s.2 ++ r.2), (Beacon.acceptedMsgs r.2).map (sourceFrame (sourceId w)))

def receive : (p : Party V W) → PartyAnswer p → Routing.Frame → PartyState p →
    PartyState p × List Routing.Frame
  | .node v, ans, f, s => Routing.hear (id v) ans f s
  | .source _, (), _, s => (s, [])

/-- The sources and the routing nodes around one radio, on which every frame goes out as it
was handed to `AMSend.send`, also where the packet of a node is written over first. -/
def network : Network (Party V W) PartyState PartyEvent PartyAnswer Routing.Frame where
  init
    | .node _ => {}
    | .source _ => ({}, [])
  handle := handle id sourceId
  receive := receive id

abbrev Config (V W : Type) := Network.Config (PartyState (V := V) (W := W)) Routing.Frame

abbrev Happening (V W : Type) := Network.Event (PartyEvent (V := V) (W := W)) PartyAnswer

/-- The radio of each source is started once. Of all else nothing is assumed. -/
def StartedOnce (d : Config V W) : Happening V W → Prop
  | .act (.source w) e => Beacon.Once (d.node (.source w)) e
  | .act (.node _) _ | .deliver .. => True

instance (d : Config V W) : (e : Happening V W) → Decidable (StartedOnce d e)
  | .act (.source w) e => inferInstanceAs (Decidable (Beacon.Once (d.node (.source w)) e))
  | .act (.node _) _ | .deliver .. => .isTrue trivial

/-- The broadcasts of the routing nodes. -/
def nodeEntry : Party V W × Routing.Frame → Option (V × Routing.Frame)
  | (.node v, f) => some (v, f)
  | (.source _, _) => none

def nodeLog (log : List (Party V W × Routing.Frame)) : List (V × Routing.Frame) :=
  log.filterMap nodeEntry

/-- The frames that a source has broadcast. -/
def sourceLog [DecidableEq W] (w : W) (log : List (Party V W × Routing.Frame)) :
    List Routing.Frame :=
  log.filterMap fun
    | (.node _, _) => none
    | (.source w', f) => if w' = w then some f else none

variable {id sourceId} [DecidableEq V] [DecidableEq W]

/-- The frames of a source are its packets in their order. -/
structure Numbered (sourceId : W → Word16) (d : Config V W) : Prop where
  packets : ∀ w, Beacon.Numbered (sourceId w) (d.node (.source w))
  aired : ∀ w, sourceLog w d.log =
    (Beacon.acceptedMsgs (d.node (.source w)).2).map (sourceFrame (sourceId w))

theorem sourceLog_eq_logOf (w : W) (log : List (Party V W × Routing.Frame)) :
    sourceLog w log = Network.logOf (.source w) log := by
  induction log with
  | nil => rfl
  | cons entry log ih =>
    obtain ⟨p, f⟩ := entry
    unfold sourceLog Network.logOf at ih ⊢
    cases p with
    | node v => simpa using ih
    | source w' =>
      by_cases hw : w' = w
      · simpa [hw] using ih
      · simpa [hw] using ih

/-- A source runs as it does by itself, and the log has its packets in their order. -/
theorem numbered_of_reachable {d : Config V W}
    (h : (network id sourceId).system.Reachable StartedOnce d) : Numbered sourceId d := by
  refine ⟨fun w => ?_, fun w => ?_⟩
  · have hinit : (network id sourceId).init (.source w) =
        (Beacon.machine (sourceId w)).system.init := rfl
    refine Beacon.numbered_of_reachable (Network.party_reachable hinit
      (fun c e s fs honce hhandle => .inr ⟨e, honce, ?_⟩) (fun _ _ _ _ _ _ _ => .inl rfl) h)
    obtain ⟨r, hbeacon, hpair⟩ := Option.map_eq_some_iff.mp hhandle
    obtain ⟨rfl, -⟩ := Prod.mk.inj hpair
    have hrun : (Beacon.machine (sourceId w)).step (c.node (.source w)).1 e = some r := hbeacon
    simp [Machine.system, hrun]
  · let told : Beacon.State × List Beacon.Output → List Routing.Frame := fun s =>
      (Beacon.acceptedMsgs s.2).map (sourceFrame (sourceId w))
    rw [sourceLog_eq_logOf]
    refine Network.logOf_eq (v := .source w) rfl (fun e s t fs hhandle => ?_)
      (fun _ _ s => (List.append_nil (told s)).symm) h
    obtain ⟨r, -, hpair⟩ := Option.map_eq_some_iff.mp hhandle
    obtain ⟨rfl, rfl⟩ := Prod.mk.inj hpair
    have hmsgs : Beacon.acceptedMsgs (s.2 ++ r.2) =
        Beacon.acceptedMsgs s.2 ++ Beacon.acceptedMsgs r.2 := List.filterMap_append ..
    exact (congrArg (List.map _) hmsgs).trans (List.map_append ..)

omit [DecidableEq V] in
/-- The packets that a source has numbered so far. -/
theorem Numbered.sourceLog_eq {d : Config V W} (h : Numbered sourceId d) (w : W) :
    ∃ k ≤ 300, sourceLog w d.log = (List.range k).map fun i =>
      sourceFrame (sourceId w) (Beacon.packet (sourceId w) i) := by
  refine ⟨_, (h.packets w).limit, ?_⟩
  rw [h.aired w, (h.packets w).accepted, List.map_map]
  rfl

/-- In the routing network alone a source hands a node its packets directly. -/
def Supplied (sourceId : W → Word16) (_ : Routing.Config V) :
    Network.Event (fun _ : V => Routing.Event) (fun _ : V => Routing.Answers) → Prop
  | .act _ (.sourceData source destination len bm _) => ∃ w, ∃ i < 300,
      Routing.Frame.mk source destination len (.beacon bm) =
        sourceFrame (sourceId w) (Beacon.packet (sourceId w) i)
  | .act _ .booted | .act _ (.startDone _) | .act _ (.timer0Fired _) | .act _ (.timer1Fired _)
  | .act _ (.sendDone ..) | .deliver .. => True

/-- The routing network as it is seen within the set-up. -/
structure Mirrors (d : Config V W) (c : Routing.Config V) : Prop where
  node : ∀ v, c.node v = d.node (.node v)
  log : c.log = nodeLog d.log

omit [DecidableEq V] [DecidableEq W] in
theorem nodeLog_append_node (log : List (Party V W × Routing.Frame)) (v : V)
    (fs : List Routing.Frame) :
    nodeLog (log ++ fs.map (.node v, ·)) = nodeLog log ++ fs.map (v, ·) := by
  rw [nodeLog, List.filterMap_append, List.filterMap_map]
  exact congrArg (nodeLog log ++ ·) (congrFun List.filterMap_eq_map' fs)

omit [DecidableEq V] [DecidableEq W] in
theorem nodeLog_append_source (log : List (Party V W × Routing.Frame)) (w : W)
    (fs : List Routing.Frame) :
    nodeLog (log ++ fs.map (.source w, ·)) = nodeLog log := by
  have hnone : fs.filterMap (nodeEntry ∘ ((Party.source w : Party V W), ·)) = [] :=
    List.filterMap_eq_nil_iff.mpr fun _ _ => rfl
  rw [nodeLog, List.filterMap_append, List.filterMap_map, hnone, List.append_nil]
  rfl

/-- A step of one routing node, seen from both sides. -/
theorem Mirrors.put {d : Config V W} {c : Routing.Config V} (h : Mirrors d c) (v : V)
    (s : Routing.State) (fs : List Routing.Frame) :
    Mirrors (d.put (.node v) s fs) (c.put v s fs) where
  node := by
    intro w
    by_cases hw : w = v
    · subst hw
      rw [Network.Config.put_node_self, Network.Config.put_node_self]
    · rw [Network.Config.put_node_of_ne _ _ _ hw,
        Network.Config.put_node_of_ne _ _ _ (by simpa using hw)]
      exact h.node w
  log := by
    rw [Network.Config.put_log, Network.Config.put_log, nodeLog_append_node, h.log]

theorem Mirrors.put_source {d : Config V W} {c : Routing.Config V} (h : Mirrors d c) (w : W)
    (s : Beacon.State × List Beacon.Output) (fs : List Routing.Frame) :
    Mirrors (d.put (.source w) s fs) c where
  node := by
    intro v
    rw [Network.Config.put_node_of_ne _ _ _ (by simp)]
    exact h.node v
  log := by rw [Network.Config.put_log, nodeLog_append_source, h.log]

theorem mem_sourceLog {w : W} {f : Routing.Frame} {log : List (Party V W × Routing.Frame)} :
    f ∈ sourceLog w log ↔ (.source w, f) ∈ log := by
  rw [sourceLog_eq_logOf, Network.mem_logOf]

theorem Numbered.packet_of_mem {d : Config V W} (h : Numbered sourceId d) {w : W}
    {f : Routing.Frame} (hf : (.source w, f) ∈ d.log) :
    ∃ i < 300, f = sourceFrame (sourceId w) (Beacon.packet (sourceId w) i) := by
  obtain ⟨k, hk, heq⟩ := h.sourceLog_eq w
  have hmem := mem_sourceLog.mpr hf
  rw [heq, List.mem_map] at hmem
  obtain ⟨i, hi, rfl⟩ := hmem
  exact ⟨i, (List.mem_range.mp hi).trans_le hk, rfl⟩

/-- What the routing nodes do within the set-up they do by themselves as well, if a source
hands its packets directly to the nodes that hear them: whatever holds in every run of the
routing network holds in the set-up. -/
theorem deployment_refines {V W : Type} [DecidableEq V] [DecidableEq W] {id : V → Word16}
    {sourceId : W → Word16} {d : Config V W}
    (h : (network id sourceId).system.Reachable StartedOnce d) :
    ∃ c, (Routing.routing id).system.Reachable (Supplied sourceId) c ∧ Mirrors d c := by
  refine h.invariant_of
    (P := fun d => ∃ c, (Routing.routing id).system.Reachable (Supplied sourceId) c ∧ Mirrors d c)
    (Q := Numbered sourceId) (fun d hd => numbered_of_reachable hd)
    ⟨_, .init, fun v => rfl, rfl⟩ ?_
  rintro d e d' hnumbered ⟨c, hreach, hmirrors⟩ - hstep
  obtain ⟨p, a, s, fs, rfl, hhandle, rfl⟩ | ⟨i, p, ans, q, f, rfl, hlog, rfl⟩ :=
    (network id sourceId).system_step hstep
  · cases p with
    | node v =>
      have hhandle' : (Routing.routing id).handle v a.1 (c.node v) = some (s, fs) := by
        rw [hmirrors.node v]
        exact hhandle
      have hown : Supplied sourceId c (.act v a.1) := by
        obtain ⟨e, he⟩ := a
        cases e with
        | sourceData => cases he
        | _ => trivial
      exact ⟨_, hreach.step hown ((Routing.routing id).system_step_act hhandle'),
        hmirrors.put v s fs⟩
    | source w => exact ⟨c, hreach, hmirrors.put_source w s fs⟩
  · cases p with
    | source w =>
      have hdeaf : (network id sourceId).receive (.source w) ans f (d.node (.source w)) =
          (d.node (.source w), []) := rfl
      rw [hdeaf, Network.Config.put_self]
      exact ⟨c, hreach, hmirrors.node, hmirrors.log⟩
    | node v =>
      have hhear : (network id sourceId).receive (.node v) ans f (d.node (.node v)) =
          Routing.hear (id v) ans f (c.node v) := by
        rw [hmirrors.node v]
        rfl
      have hmem := List.mem_of_getElem? hlog
      rw [hhear]
      cases q with
      | node u =>
        -- The frame has some place among the broadcasts of the routing nodes.
        have hmem' : (u, f) ∈ c.log := by
          rw [hmirrors.log]
          exact List.mem_filterMap.mpr ⟨_, hmem, rfl⟩
        obtain ⟨j, hj⟩ := List.getElem?_of_mem hmem'
        have hput := hmirrors.put v (Routing.hear (id v) ans f (c.node v)).1
          (Routing.hear (id v) ans f (c.node v)).2
        exact ⟨_, hreach.step (e := .deliver j v ans) trivial
          ((Routing.routing id).system_step_deliver hj rfl), hput.node, hput.log⟩
      | source w =>
        obtain ⟨k, hk, rfl⟩ := hnumbered.packet_of_mem hmem
        have hput := hmirrors.put v
          (Routing.hear (id v) ans (sourceFrame (sourceId w) (Beacon.packet (sourceId w) k))
            (c.node v)).1
          (Routing.hear (id v) ans (sourceFrame (sourceId w) (Beacon.packet (sourceId w) k))
            (c.node v)).2
        exact ⟨_, hreach.step (e := .act v (.sourceData (sourceId w) broadcastAddr
          Beacon.sizeofBeaconMsg (toRouting (Beacon.packet (sourceId w) k)) ans)) ⟨w, k, hk, rfl⟩
          ((Routing.routing id).system_step_act rfl), hput.node, hput.log⟩

/-- Nodes 1 and 2. -/
def nodeId (far : Bool) : Word16 := if far then 2 else 1

/-- Node 2 learns of the sink, is called by the first packet of source 9, and hands the
second on to the sink. -/
def contest : List (Happening Bool Unit) :=
  [.act (.node false) ⟨.booted, rfl⟩, .act (.node false) ⟨.startDone .success, rfl⟩,
    .act (.node true) ⟨.booted, rfl⟩, .act (.node true) ⟨.startDone .success, rfl⟩,
    .act (.node false) ⟨.timer0Fired .success, rfl⟩,
    .deliver 0 (.node true) ⟨.success, .success, 0⟩,
    .act (.source ()) (.startDone .success), .act (.source ()) (.timer0Fired .success),
    .deliver 1 (.node true) ⟨.success, .success, 0⟩,
    .act (.node true) ⟨.sendDone .control .success, rfl⟩,
    .act (.source ()) (.sendDone .success), .act (.source ()) (.timer0Fired .success),
    .deliver 3 (.node true) ⟨.success, .success, 0⟩,
    .deliver 4 (.node false) ⟨.success, .success, 0⟩]

theorem deployment_refines_contest :
    ∃ d, (network nodeId fun _ : Unit => 9).system.run contest = some d ∧
      ∃ c, (Routing.routing nodeId).system.Reachable (Supplied fun _ : Unit => 9) c ∧
        Mirrors d c := by
  have hrun : (network nodeId fun _ : Unit => 9).system.run contest = some _ := rfl
  exact ⟨_, hrun, deployment_refines (System.reachable_of_run contest (by decide) hrun)⟩

/-- A source has broadcast this packet. -/
def Aired (d : Config V W) (bm : Routing.BeaconMsg) : Prop :=
  ∃ w f, (.source w, f) ∈ d.log ∧ f.payload = .beacon bm

/-- What is on its way, and what was printed, was broadcast by a source before. -/
structure Genuine (d : Config V W) : Prop where
  frames : ∀ v f bm, (.node v, f) ∈ d.log → f.payload = .beacon bm → Aired d bm
  lines : ∀ v, ∀ line ∈ (d.node (.node v)).recvData,
    ∃ bm, Aired d bm ∧ line.2 = (bm.nodeid, bm.counter)

omit [DecidableEq V] [DecidableEq W] in
theorem Aired.mono {d d' : Config V W} {bm : Routing.BeaconMsg} (h : Aired d bm)
    (hlog : ∀ entry ∈ d.log, entry ∈ d'.log) : Aired d' bm := by
  obtain ⟨w, f, hmem, hpayload⟩ := h
  exact ⟨w, f, hlog _ hmem, hpayload⟩

/-- A routing node that hands on or prints the data of a genuine frame, or none. -/
theorem Genuine.put {d : Config V W} (h : Genuine d) {v : V} {t : Routing.State}
    {fs : List Routing.Frame}
    (hfs : ∀ f ∈ fs, ∀ bm, f.payload = .beacon bm → Aired d bm)
    (hline : ∀ line ∈ t.recvData, line ∈ (d.node (.node v)).recvData ∨
      ∃ bm, Aired d bm ∧ line.2 = (bm.nodeid, bm.counter)) :
    Genuine (d.put (.node v) t fs) := by
  have hlog : ∀ entry ∈ d.log, entry ∈ (d.put (.node v) t fs).log := fun entry hentry =>
    List.mem_append_left _ hentry
  refine ⟨fun u f bm hmem hpayload => ?_, fun u line hmem => ?_⟩
  · rcases Network.Config.mem_put_log.mp hmem with hold | ⟨-, hf⟩
    · exact (h.frames u f bm hold hpayload).mono hlog
    · exact (hfs f hf bm hpayload).mono hlog
  · have hknown : line ∈ (d.node (.node u)).recvData ∨
        ∃ bm, Aired d bm ∧ line.2 = (bm.nodeid, bm.counter) := by
      by_cases hu : u = v
      · subst hu
        rw [Network.Config.put_node_self] at hmem
        exact hline line hmem
      · rw [Network.Config.put_node_of_ne _ _ _ (by simpa using hu)] at hmem
        exact .inl hmem
    obtain ⟨bm, haired, hline⟩ := hknown.elim (h.lines u line) id
    exact ⟨bm, haired.mono hlog, hline⟩

/-- What a routing node does with a frame whose data, if it has any, is genuine. -/
theorem Genuine.carry {d : Config V W} (h : Genuine d) {v : V} {f : Routing.Frame}
    {t : Routing.State} {fs : List Routing.Frame} {tos : Word16}
    (hcarriage : Routing.Carriage tos (d.node (.node v)) f t fs)
    (hf : ∀ bm, f.payload = .beacon bm → Aired d bm) : Genuine (d.put (.node v) t fs) := by
  refine h.put (fun g hg bm hpayload => ?_) fun line hline => ?_
  · have hmem : g ∈ Routing.dataFrames fs :=
      Routing.mem_dataFrames.mpr ⟨hg, Routing.isBeacon_iff.mpr ⟨bm, hpayload⟩⟩
    rcases hcarriage.handed with hnone | ⟨-, -, -, hone⟩
    · simp [hnone] at hmem
    · rw [hone] at hmem
      obtain rfl := List.mem_singleton.mp hmem
      exact hf bm hpayload
  · rcases hcarriage.printed with hsame | ⟨-, -, -, bm, hpayload, hprinted⟩
    · exact .inl (hsame ▸ hline)
    · rw [hprinted] at hline
      rcases List.mem_append.mp hline with hold | hlast
      · exact .inl hold
      · exact .inr ⟨bm, hf bm hpayload, by rw [List.mem_singleton.mp hlast]⟩

theorem genuine_of_reachable {allowed : Config V W → Happening V W → Prop} {d : Config V W}
    (h : (network id sourceId).system.Reachable allowed d) : Genuine d := by
  refine h.invariant (P := Genuine) ⟨by simp [Network.system], fun v line hline => ?_⟩ ?_
  · exact absurd hline (by simp [Network.system, network])
  intro d e d' hd _ hstep
  obtain ⟨p, a, s, fs, rfl, hhandle, rfl⟩ | ⟨i, p, ans, q, f, rfl, hlog, rfl⟩ :=
    (network id sourceId).system_step hstep
  · cases p with
    | node v =>
      rcases Routing.handle_carriage hhandle with ⟨_, _, _, _, _, he, -⟩ | ⟨-, hnone, hsame⟩
      · obtain ⟨e, hown⟩ := a
        dsimp only at he
        subst he
        cases hown
      · refine hd.put (fun g hg bm hpayload => ?_) fun line hline => .inl (hsame ▸ hline)
        have hmem : g ∈ Routing.dataFrames fs :=
          Routing.mem_dataFrames.mpr ⟨hg, Routing.isBeacon_iff.mpr ⟨bm, hpayload⟩⟩
        simp [hnone] at hmem
    | source w =>
      have hlog : ∀ entry ∈ d.log, entry ∈ (d.put (.source w) s fs).log := fun entry hentry =>
        List.mem_append_left _ hentry
      refine ⟨fun v f bm hmem hpayload => ?_, fun v line hline => ?_⟩
      · rcases Network.Config.mem_put_log.mp hmem with hold | ⟨hother, -⟩
        · exact (hd.frames v f bm hold hpayload).mono hlog
        · cases hother
      · rw [Network.Config.put_node_of_ne _ _ _ (by simp)] at hline
        obtain ⟨bm, haired, hline⟩ := hd.lines v line hline
        exact ⟨bm, haired.mono hlog, hline⟩
  · cases p with
    | source w =>
      have hdeaf : (network id sourceId).receive (.source w) ans f (d.node (.source w)) =
          (d.node (.source w), []) := rfl
      rw [hdeaf, Network.Config.put_self]
      exact ⟨hd.frames, hd.lines⟩
    | node v =>
      have hmem := List.mem_of_getElem? hlog
      have hput := hd.carry (Routing.hear_carriage (id v) ans f (d.node (.node v)))
        fun bm hpayload => by
          cases q with
          | node u => exact hd.frames u f bm hmem hpayload
          | source w => exact ⟨w, f, hmem, hpayload⟩
      exact ⟨hput.frames, hput.lines⟩

/-- Whatever frames are lost, repeated, delayed and reordered, and whatever the routes and
elections are meanwhile: each source broadcasts its packets in their order and no more
than 300; a data frame of a routing node carries, unchanged, a packet that a source has
broadcast; and a line at the sink names one. -/
theorem sink_prints_packets {V W : Type} [DecidableEq V] [DecidableEq W] {id : V → Word16}
    {sourceId : W → Word16} {d : Config V W}
    (h : (network id sourceId).system.Reachable StartedOnce d) :
    (∀ w, ∃ k ≤ 300, sourceLog w d.log = (List.range k).map fun i =>
      sourceFrame (sourceId w) (Beacon.packet (sourceId w) i)) ∧
    (∀ v f bm, (.node v, f) ∈ d.log → f.payload = .beacon bm → ∃ w, ∃ i < 300,
      bm = toRouting (Beacon.packet (sourceId w) i) ∧
      sourceFrame (sourceId w) (Beacon.packet (sourceId w) i) ∈ sourceLog w d.log) ∧
    ∀ v, ∀ line ∈ (d.node (.node v)).recvData, ∃ w, ∃ i < 300,
      line.2 = (sourceId w, Fin.ofNat _ i) ∧
      sourceFrame (sourceId w) (Beacon.packet (sourceId w) i) ∈ sourceLog w d.log := by
  have hnumbered := numbered_of_reachable h
  have hgenuine := genuine_of_reachable h
  have hpacket : ∀ bm, Aired d bm → ∃ w, ∃ i < 300,
      bm = toRouting (Beacon.packet (sourceId w) i) ∧
      sourceFrame (sourceId w) (Beacon.packet (sourceId w) i) ∈ sourceLog w d.log := by
    rintro bm ⟨w, f, hmem, hpayload⟩
    obtain ⟨i, hi, rfl⟩ := hnumbered.packet_of_mem hmem
    exact ⟨w, i, hi, (Routing.Msg.beacon.inj hpayload).symm, mem_sourceLog.mpr hmem⟩
  refine ⟨hnumbered.sourceLog_eq, fun v f bm hmem hpayload => ?_, fun v line hline => ?_⟩
  · exact hpacket bm (hgenuine.frames v f bm hmem hpayload)
  · obtain ⟨bm, haired, hnames⟩ := hgenuine.lines v line hline
    obtain ⟨w, i, hi, rfl, hmem⟩ := hpacket bm haired
    exact ⟨w, i, hi, hnames, hmem⟩

theorem sink_prints_packets_contest :
    ∃ d, (network nodeId fun _ : Unit => 9).system.run contest = some d ∧
      (d.node (.node false)).recvData = [(2, 9, 1)] ∧
      ∀ line ∈ (d.node (.node false)).recvData, ∃ _ : Unit, ∃ i < 300,
        line.2 = (9, Fin.ofNat _ i) ∧
        sourceFrame 9 (Beacon.packet 9 i) ∈ sourceLog () d.log := by
  have hrun : (network nodeId fun _ : Unit => 9).system.run contest = some _ := rfl
  have hprints := sink_prints_packets (System.reachable_of_run contest (by decide) hrun)
  exact ⟨_, hrun, by decide, hprints.2.2 false⟩

end WsnContest.Deployment
