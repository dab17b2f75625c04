import WsnContest.Ctp.Collection
import WsnContest.Lib.Custody

/-! The contest with the collection protocol: sources run `BeaconC`, all other nodes run
`SimpleCollectionC`. Nodes 2 and 44 hand the packets they hear to the protocol, which reads
their buffer some time before `sendDone` and may lose, repeat and reorder what it carries;
node 1 prints what comes out. -/
namespace WsnContest.Collection.Deployment
open Tinyos Lib
open Beacon (BeaconMsg sizeofBeaconMsg)

def recvNodeId : Word16 := 1

/-- A packet on the radio, or one that the collection protocol carries. -/
inductive Frame where
  | beacon (len : Word8) (bm : BeaconMsg)
  | route (len : Word8) (bm : BeaconMsg)
  deriving DecidableEq, Repr

/-- The component; whether the node is a root; whether the protocol holds a packet of the
node that it has not sent; and what the node has passed on and printed. -/
structure Node where
  app : Collection.State := {}
  isRoot : Bool := false
  queued : Bool := false
  passed : List BeaconMsg := []
  printed : List BeaconMsg := []
  deriving DecidableEq, Repr

namespace Node

/-- `AMControl.startDone`. -/
def startDone (tosNodeId : Word16) (err : ErrorT) (s : Node) : Node :=
  if err = .success then
    if tosNodeId = recvNodeId then { s with isRoot := true } else s
  else s

/-- `AMDataReceive.receive`. -/
def dataReceive (tosNodeId : Word16) (ans : Answers) (len : Word8) (bm : BeaconMsg) (s : Node) :
    Node :=
  let (app, out) := Collection.dataReceive tosNodeId ans len bm s.app
  { s with app := app, queued := s.queued || !out.isEmpty, passed := s.passed ++ out }

/-- `RoutingReceive.receive`. -/
def routingReceive (len : Word8) (bm : BeaconMsg) (s : Node) : Node :=
  if len = sizeofBeaconMsg && s.isRoot then { s with printed := s.printed ++ [bm] } else s

end Node

/-- A node of the collection protocol, or a source. -/
inductive Party (V W : Type) where
  | node (v : V)
  | source (w : W)
  deriving DecidableEq

variable {V W : Type}

abbrev PartyState : Party V W → Type
  | .node _ => Node
  | .source _ => Beacon.State × List Beacon.Output

/-- What happens at a node besides packets; the protocol sends, and signals the end. -/
inductive NodeEvent where
  | startDone (err : ErrorT)
  | transmit
  | routingSendDone (err : ErrorT)
  | controlSendDone (err : ErrorT)
  deriving DecidableEq, Repr

abbrev PartyEvent : Party V W → Type
  | .node _ => NodeEvent
  | .source _ => Beacon.Event

/-- A source does not listen. -/
abbrev PartyAnswer : Party V W → Type
  | .node _ => Answers
  | .source _ => Unit

variable (id : V → Word16) (sourceId : W → Word16)

def handle : (p : Party V W) → PartyEvent p → PartyState p → Option (PartyState p × List Frame)
  | .node v, .startDone err, s => some (s.startDone (id v) err, [])
  | .node _, .transmit, s => s.app.routingPacket.onAir.map fun p =>
      ({ s with queued := false }, [.route p.1 p.2])
  | .node v, .routingSendDone err, s =>
      (Collection.step (id v) s.app (.routingSendDone err)).map fun r =>
        ({ s with app := r.1, queued := false }, [])
  | .node v, .controlSendDone err, s =>
      (Collection.step (id v) s.app (.controlSendDone err)).map fun r => ({ s with app := r.1 }, [])
  | .source w, e, s => (Beacon.step (sourceId w) s.1 e).map fun r =>
      ((r.1, s.2 ++ r.2), (Beacon.acceptedMsgs r.2).map (.beacon sizeofBeaconMsg))

def receive : (p : Party V W) → PartyAnswer p → Frame → PartyState p → PartyState p × List Frame
  | .node v, ans, .beacon len bm, s => (s.dataReceive (id v) ans len bm, [])
  | .node _, _, .route len bm, s => (s.routingReceive len bm, [])
  | .source _, (), _, s => (s, [])

def network : Network (Party V W) PartyState PartyEvent PartyAnswer Frame where
  init
    | .node _ => {}
    | .source _ => ({}, [])
  handle := handle id sourceId
  receive := receive id

abbrev Config (V W : Type) := Network.Config (PartyState (V := V) (W := W)) Frame

abbrev Happening (V W : Type) := Network.Event (PartyEvent (V := V) (W := W)) PartyAnswer

/-- The radio of each source is started once. Of all else nothing is assumed. -/
def StartedOnce (d : Config V W) : Happening V W → Prop
  | .act (.source w) e => Beacon.Once (d.node (.source w)) e
  | .act (.node _) _ | .deliver .. => True

instance (d : Config V W) : (e : Happening V W) → Decidable (StartedOnce d e)
  | .act (.source w) e => inferInstanceAs (Decidable (Beacon.Once (d.node (.source w)) e))
  | .act (.node _) _ | .deliver .. => .isTrue trivial

/-- The media repeat nothing either: the protocol sends what it was given once, and a node
gets each frame at most once. -/
def AtMostOnce (d : Config V W) : Happening V W → Prop
  | .act (.source w) e => Beacon.Once (d.node (.source w)) e
  | .act (.node v) .transmit => (d.node (.node v)).queued = true
  | .act (.node _) (.startDone _) | .act (.node _) (.routingSendDone _)
  | .act (.node _) (.controlSendDone _) => True
  | .deliver i p _ => (i, p) ∉ d.delivered

instance [DecidableEq V] [DecidableEq W] (d : Config V W) :
    (e : Happening V W) → Decidable (AtMostOnce d e)
  | .act (.source w) e => inferInstanceAs (Decidable (Beacon.Once (d.node (.source w)) e))
  | .act (.node v) .transmit =>
    inferInstanceAs (Decidable ((d.node (.node v)).queued = true))
  | .act (.node _) (.startDone _) | .act (.node _) (.routingSendDone _)
  | .act (.node _) (.controlSendDone _) => .isTrue trivial
  | .deliver i p _ => inferInstanceAs (Decidable ((i, p) ∉ d.delivered))

/-- What the protocol holds is what the node passed on last. -/
structure Kept (tosNodeId : Word16) (s : Node) : Prop where
  control : s.app.controlOutstanding = 0
  owed : s.app.routingPacket.outstanding ≠ 0 → s.app.busy = true ∧
    s.app.routingPacket.outstanding = 1 ∧ s.app.routingPacket.length = sizeofBeaconMsg ∧
    s.app.routingPacket.payload ∈ s.passed
  queued : s.queued = true → s.app.routingPacket.outstanding ≠ 0
  forwards : s.passed ≠ [] → tosNodeId = 2 ∨ tosNodeId = 44
  root : s.isRoot = true → tosNodeId = recvNodeId

/-- One, while the protocol holds `bm` and has not sent it. -/
def Node.pending (bm : BeaconMsg) (s : Node) : ℕ :=
  if s.queued && s.app.routingPacket.payload = bm then 1 else 0

namespace Kept
variable {tosNodeId : Word16} {s : Node}

theorem init : Kept tosNodeId {} := ⟨rfl, nofun, nofun, nofun, nofun⟩

/-- A node that may be given a packet has none under way. -/
theorem idle (h : Kept tosNodeId s) (hbusy : s.app.busy = false) :
    s.app.routingPacket.outstanding = 0 ∧ s.queued = false := by
  have hout : s.app.routingPacket.outstanding = 0 := by
    by_contra hout
    exact absurd ((h.owed hout).1.symm.trans hbusy) Bool.noConfusion
  exact ⟨hout, Bool.eq_false_iff.mpr fun hqueued => h.queued hqueued hout⟩

theorem startDone (h : Kept tosNodeId s) (err : ErrorT) :
    Kept tosNodeId (s.startDone tosNodeId err) := by
  unfold Node.startDone
  split
  · split
    · next hid => exact ⟨h.control, h.owed, h.queued, h.forwards, fun _ => hid⟩
    · exact h
  · exact h

theorem routingReceive (h : Kept tosNodeId s) (len : Word8) (bm : BeaconMsg) :
    Kept tosNodeId (s.routingReceive len bm) := by
  unfold Node.routingReceive
  split
  · exact ⟨h.control, h.owed, h.queued, h.forwards, h.root⟩
  · exact h

theorem transmit (h : Kept tosNodeId s) : Kept tosNodeId { s with queued := false } :=
  ⟨h.control, h.owed, nofun, h.forwards, h.root⟩

/-- What is heard is passed on, or not. -/
theorem dataReceive (h : Kept tosNodeId s) (ans : Answers) (len : Word8) (bm : BeaconMsg) :
    Kept tosNodeId (s.dataReceive tosNodeId ans len bm) ∧
      ((s.dataReceive tosNodeId ans len bm).passed = s.passed ∧
          (∀ m, (s.dataReceive tosNodeId ans len bm).pending m = s.pending m) ∨
        len = sizeofBeaconMsg ∧ (s.dataReceive tosNodeId ans len bm).passed = s.passed ++ [bm] ∧
          ∀ m, (s.dataReceive tosNodeId ans len bm).pending m = if bm = m then 1 else 0) := by
  have hlen : (Collection.dataReceive tosNodeId ans len bm s.app).2 ≠ [] →
      len = sizeofBeaconMsg := by
    intro hout
    by_contra hlen
    exact hout (by rw [Collection.dataReceive, if_neg hlen])
  have hreceipt := @dataReceive_receipt tosNodeId ans len bm s.app
  unfold Node.dataReceive
  generalize Collection.dataReceive tosNodeId ans len bm s.app = r at hreceipt hlen
  cases hreceipt with
  | ignored => exact ⟨by simpa using h, .inl (by simp [Node.pending])⟩
  | refused hbusy =>
    obtain ⟨hout, hqueued⟩ := h.idle hbusy
    refine ⟨⟨h.control, fun hne => absurd hout hne, ?_, ?_, h.root⟩, .inl ?_⟩
    · simp [hqueued]
    · simpa using h.forwards
    · simp [Node.pending, hqueued]
  | passedOn hnode hbusy =>
    obtain ⟨hout, hqueued⟩ := h.idle hbusy
    refine ⟨⟨h.control, ?_, ?_, fun _ => hnode, h.root⟩, .inr ⟨hlen (by simp), rfl, ?_⟩⟩
    · simp [hout]
    · simp
    · simp [Node.pending]

theorem routingSendDone (h : Kept tosNodeId s) {err : ErrorT}
    {r : Collection.State × List BeaconMsg}
    (hstep : Collection.step tosNodeId s.app (.routingSendDone err) = some r) :
    Kept tosNodeId { s with app := r.1, queued := false } := by
  obtain ⟨routingPacket, hdone, rfl⟩ := Option.map_eq_some_iff.mp hstep
  obtain ⟨hout, rfl⟩ := MessageBuffer.done_eq hdone
  have hone := (h.owed hout).2.1
  refine ⟨?_, ?_, nofun, h.forwards, h.root⟩
  · unfold Collection.routingSendDone
    split <;> exact h.control
  · unfold Collection.routingSendDone
    split <;> simp [hone]

theorem no_controlSendDone (h : Kept tosNodeId s) (err : ErrorT) :
    Collection.step tosNodeId s.app (.controlSendDone err) = none :=
  if_neg (not_not.mpr h.control)

end Kept

section Nodes
variable {id sourceId} {v : V} {s t : Node} {fs : List Frame}

/-- What a node does of itself: at most the protocol sends what it was given. -/
theorem node_handle (h : Kept (id v) s) {e : NodeEvent}
    (hhandle : handle id sourceId (.node v) e s = some (t, fs)) :
    Kept (id v) t ∧ t.passed = s.passed ∧ t.printed = s.printed ∧
      (fs = [] ∧ (∀ m, t.pending m ≤ s.pending m) ∨
        e = .transmit ∧ ∃ bm ∈ s.passed, fs = [.route sizeofBeaconMsg bm] ∧
          ∀ m, t.pending m = 0 ∧
            (s.queued = true → s.pending m = if bm = m then 1 else 0)) := by
  cases e with
  | startDone err =>
    obtain ⟨rfl, rfl⟩ := Prod.mk.inj (Option.some.inj hhandle)
    refine ⟨h.startDone err, ?_⟩
    unfold Node.startDone
    split
    · split
      · exact ⟨rfl, rfl, .inl ⟨rfl, fun _ => le_rfl⟩⟩
      · exact ⟨rfl, rfl, .inl ⟨rfl, fun _ => le_rfl⟩⟩
    · exact ⟨rfl, rfl, .inl ⟨rfl, fun _ => le_rfl⟩⟩
  | transmit =>
    obtain ⟨p, hair, hpair⟩ := Option.map_eq_some_iff.mp hhandle
    obtain ⟨rfl, rfl⟩ := Prod.mk.inj hpair
    obtain ⟨hout, rfl⟩ := MessageBuffer.onAir_eq hair
    obtain ⟨-, -, hlength, hmem⟩ := h.owed hout
    refine ⟨h.transmit, rfl, rfl, .inr ⟨rfl, _, hmem, ?_, fun m => ?_⟩⟩
    · rw [hlength]
    · exact ⟨by simp [Node.pending], fun hqueued => by simp [Node.pending, hqueued]⟩
  | routingSendDone err =>
    obtain ⟨r, hstep, hpair⟩ := Option.map_eq_some_iff.mp hhandle
    obtain ⟨rfl, rfl⟩ := Prod.mk.inj hpair
    refine ⟨h.routingSendDone hstep, rfl, rfl, .inl ⟨rfl, fun m => ?_⟩⟩
    simp [Node.pending]
  | controlSendDone err =>
    obtain ⟨r, hstep, -⟩ := Option.map_eq_some_iff.mp hhandle
    rw [h.no_controlSendDone] at hstep
    cases hstep

/-- What a node does with a frame. -/
inductive Hearing (tosNodeId : Word16) (s : Node) : Frame → Node → Prop
  | kept {f : Frame} {t : Node} (hkept : Kept tosNodeId t) (hpassed : t.passed = s.passed)
      (hprinted : t.printed = s.printed) (hpending : ∀ m, t.pending m = s.pending m) :
      Hearing tosNodeId s f t
  | passedOn {bm : BeaconMsg} {t : Node} (hkept : Kept tosNodeId t)
      (hpassed : t.passed = s.passed ++ [bm]) (hprinted : t.printed = s.printed)
      (hpending : ∀ m, t.pending m ≤ s.pending m + if bm = m then 1 else 0) :
      Hearing tosNodeId s (.beacon sizeofBeaconMsg bm) t
  | printed {bm : BeaconMsg} {t : Node} (hkept : Kept tosNodeId t)
      (hroot : tosNodeId = recvNodeId) (hpassed : t.passed = s.passed)
      (hprinted : t.printed = s.printed ++ [bm]) (hpending : ∀ m, t.pending m = s.pending m) :
      Hearing tosNodeId s (.route sizeofBeaconMsg bm) t

theorem node_receive (h : Kept (id v) s) (ans : Answers) (f : Frame) :
    Hearing (id v) s f (receive (W := W) id (.node v) ans f s).1 ∧
      (receive (W := W) id (.node v) ans f s).2 = [] := by
  cases f with
  | beacon len bm =>
    refine ⟨?_, rfl⟩
    obtain ⟨hkept, ⟨hpassed, hpending⟩ | ⟨rfl, hpassed, hpending⟩⟩ := h.dataReceive ans len bm
    · exact .kept hkept hpassed rfl hpending
    · exact .passedOn hkept hpassed rfl fun m => (hpending m).le.trans (Nat.le_add_left _ _)
  | route len bm =>
    refine ⟨?_, rfl⟩
    have hkept := h.routingReceive len bm
    have hstep : (receive (W := W) id (.node v) ans (.route len bm) s).1 =
        s.routingReceive len bm := rfl
    rw [hstep]
    unfold Node.routingReceive at hkept ⊢
    split
    · next hprints =>
      obtain ⟨rfl, hroot⟩ : len = sizeofBeaconMsg ∧ s.isRoot = true := by simpa using hprints
      rw [if_pos hprints] at hkept
      exact .printed hkept (h.root hroot) rfl rfl fun _ => rfl
    · exact .kept h rfl rfl fun _ => rfl

end Nodes

/-- Everything has come from somewhere: what was printed from the protocol, what the
protocol carries from a node that passed it on, and what was passed on from a source. -/
structure Traced (id : V → Word16) (d : Config V W) : Prop where
  kept : ∀ v, Kept (id v) (d.node (.node v))
  beacon : ∀ p len bm, (p, .beacon len bm) ∈ d.log → len = sizeofBeaconMsg ∧ ∃ w, p = .source w
  passed : ∀ v, ∀ bm ∈ (d.node (.node v)).passed,
    ∃ w, (.source w, .beacon sizeofBeaconMsg bm) ∈ d.log
  route : ∀ p len bm, (p, .route len bm) ∈ d.log →
    len = sizeofBeaconMsg ∧ ∃ v, p = .node v ∧ bm ∈ (d.node (.node v)).passed
  printed : ∀ v, ∀ bm ∈ (d.node (.node v)).printed,
    id v = recvNodeId ∧ ∃ p, (p, .route sizeofBeaconMsg bm) ∈ d.log

section Steps
variable {id sourceId} [DecidableEq V] [DecidableEq W] {d : Config V W}

theorem Traced.put (h : Traced id d) {v : V} {t : Node} {fs : List Frame} (hkept : Kept (id v) t)
    (hmore : (d.node (.node v)).passed ⊆ t.passed)
    (hpassed : ∀ bm ∈ t.passed, ∃ w, (.source w, .beacon sizeofBeaconMsg bm) ∈ d.log)
    (hprinted : ∀ bm ∈ t.printed,
      id v = recvNodeId ∧ ∃ p, (p, .route sizeofBeaconMsg bm) ∈ d.log)
    (hfs : ∀ f ∈ fs, ∃ bm ∈ t.passed, f = .route sizeofBeaconMsg bm) :
    Traced id (d.put (.node v) t fs) := by
  have hold : ∀ {entry}, entry ∈ d.log → entry ∈ (d.put (.node v) t fs).log := fun hmem => by
    rw [Network.Config.put_log]
    exact List.mem_append_left _ hmem
  have hnode : ∀ (P : V → Node → Prop), P v t → (∀ u, P u (d.node (.node u))) →
      ∀ u, P u ((d.put (.node v) t fs).node (.node u)) := by
    intro P ht hothers u
    by_cases hu : u = v
    · subst hu
      rwa [d.put_node_self]
    · rw [d.put_node_of_ne (v := .node v) (w := .node u) t fs (by simpa using hu)]
      exact hothers u
  refine ⟨hnode _ hkept h.kept, fun p len bm hmem => ?_, ?_, fun p len bm hmem => ?_, ?_⟩
  · rcases Network.Config.mem_put_log.mp hmem with hmem | ⟨-, hf⟩
    · exact h.beacon p len bm hmem
    · obtain ⟨_, -, hroute⟩ := hfs _ hf
      cases hroute
  · refine hnode (fun _ s => ∀ bm ∈ s.passed, ∃ w, (.source w, .beacon sizeofBeaconMsg bm) ∈
      (d.put (.node v) t fs).log) (fun bm hbm => ?_) fun u bm hbm => ?_
    · exact (hpassed bm hbm).imp fun _ => hold
    · exact (h.passed u bm hbm).imp fun _ => hold
  · rcases Network.Config.mem_put_log.mp hmem with hmem | ⟨rfl, hf⟩
    · obtain ⟨hlen, u, rfl, hbm⟩ := h.route p len bm hmem
      refine ⟨hlen, u, rfl, ?_⟩
      by_cases hu : u = v
      · subst hu
        rw [d.put_node_self]
        exact hmore hbm
      · rwa [d.put_node_of_ne (v := .node v) (w := .node u) t fs (by simpa using hu)]
    · obtain ⟨_, hbm, hroute⟩ := hfs _ hf
      obtain ⟨rfl, rfl⟩ := Frame.route.inj hroute
      refine ⟨rfl, v, rfl, ?_⟩
      rwa [d.put_node_self]
  · refine hnode (fun u s => ∀ bm ∈ s.printed, id u = recvNodeId ∧ ∃ p,
      (p, .route sizeofBeaconMsg bm) ∈ (d.put (.node v) t fs).log) (fun bm hbm => ?_)
      fun u bm hbm => ?_
    · exact (hprinted bm hbm).imp_right fun ⟨p, hmem⟩ => ⟨p, hold hmem⟩
    · exact (h.printed u bm hbm).imp_right fun ⟨p, hmem⟩ => ⟨p, hold hmem⟩

theorem Traced.put_source (h : Traced id d) {w : W} {s : Beacon.State × List Beacon.Output}
    {fs : List Frame} (hfs : ∀ f ∈ fs, ∃ bm, f = .beacon sizeofBeaconMsg bm) :
    Traced id (d.put (.source w) s fs) := by
  have hold : ∀ {entry}, entry ∈ d.log → entry ∈ (d.put (.source w) s fs).log := fun hmem => by
    rw [Network.Config.put_log]
    exact List.mem_append_left _ hmem
  have hnode : ∀ v, (d.put (.source w) s fs).node (.node v) = d.node (.node v) := fun v =>
    d.put_node_of_ne (v := .source w) (w := .node v) s fs (by simp)
  refine ⟨fun v => ?_, fun p len bm hmem => ?_, fun v bm hbm => ?_, fun p len bm hmem => ?_,
    fun v bm hbm => ?_⟩
  · rw [hnode]
    exact h.kept v
  · rcases Network.Config.mem_put_log.mp hmem with hmem | ⟨rfl, hf⟩
    · exact h.beacon p len bm hmem
    · obtain ⟨_, heq⟩ := hfs _ hf
      exact ⟨(Frame.beacon.inj heq).1, w, rfl⟩
  · rw [hnode] at hbm
    exact (h.passed v bm hbm).imp fun _ => hold
  · rcases Network.Config.mem_put_log.mp hmem with hmem | ⟨-, hf⟩
    · obtain ⟨hlen, v, rfl, hbm⟩ := h.route p len bm hmem
      exact ⟨hlen, v, rfl, by rwa [hnode]⟩
    · obtain ⟨_, heq⟩ := hfs _ hf
      cases heq
  · rw [hnode] at hbm
    exact (h.printed v bm hbm).imp_right fun ⟨p, hmem⟩ => ⟨p, hold hmem⟩

theorem traced_step {e : Happening V W} {d' : Config V W} (h : Traced id d)
    (hstep : (network id sourceId).system.step d e = some d') : Traced id d' := by
  obtain ⟨p, e, s, fs, rfl, hhandle, rfl⟩ | ⟨i, p, r, q, f, rfl, hi, rfl⟩ :=
    (network id sourceId).system_step hstep
  · cases p with
    | source w =>
      obtain ⟨r, -, hpair⟩ := Option.map_eq_some_iff.mp hhandle
      obtain ⟨rfl, rfl⟩ := Prod.mk.inj hpair
      refine h.put_source fun f hf => ?_
      obtain ⟨bm, -, rfl⟩ := List.mem_map.mp hf
      exact ⟨bm, rfl⟩
    | node v =>
      obtain ⟨hkept, hpassed, hprinted, hsent⟩ := node_handle (h.kept v) hhandle
      refine h.put hkept (fun _ hm => hpassed.symm ▸ hm) (hpassed ▸ h.passed v)
        (hprinted ▸ h.printed v) ?_
      rcases hsent with ⟨rfl, -⟩ | ⟨-, bm, hbm, rfl, -⟩
      · exact nofun
      · intro f hf
        exact ⟨bm, hpassed ▸ hbm, List.mem_singleton.mp hf⟩
  · cases p with
    | source w =>
      have hdeaf : (network id sourceId).receive (.source w) r f (d.node (.source w)) =
          (d.node (.source w), []) := rfl
      rw [hdeaf, d.put_self]
      exact ⟨h.kept, h.beacon, h.passed, h.route, h.printed⟩
    | node v =>
      obtain ⟨hhearing, hnone⟩ := node_receive (W := W) (h.kept v) r f
      have hentry := List.mem_of_getElem? hi
      suffices hput : Traced id (d.put (.node v)
          ((network id sourceId).receive (.node v) r f (d.node (.node v))).1 []) by
        rw [show ((network id sourceId).receive (.node v) r f (d.node (.node v))).2 = [] from hnone]
        exact ⟨hput.kept, hput.beacon, hput.passed, hput.route, hput.printed⟩
      change Hearing (id v) (d.node (.node v)) f
        ((network id sourceId).receive (.node v) r f (d.node (.node v))).1 at hhearing
      generalize ((network id sourceId).receive (.node v) r f (d.node (.node v))).1 = t
        at hhearing ⊢
      cases hhearing with
      | kept hkept hpassed hprinted _ =>
        exact h.put hkept (fun _ hm => hpassed.symm ▸ hm) (hpassed ▸ h.passed v)
          (hprinted ▸ h.printed v) nofun
      | @passedOn bm _ hkept hpassed hprinted _ =>
        refine h.put hkept (hpassed ▸ List.subset_append_left _ _) ?_ (hprinted ▸ h.printed v) nofun
        intro m hm
        rw [hpassed] at hm
        rcases List.mem_append.mp hm with hold | hnew
        · exact h.passed v m hold
        · obtain ⟨-, w, rfl⟩ := h.beacon _ _ _ hentry
          rw [List.mem_singleton.mp hnew]
          exact ⟨w, hentry⟩
      | @printed bm _ hkept hroot hpassed hprinted _ =>
        refine h.put hkept (fun _ hm => hpassed.symm ▸ hm) (hpassed ▸ h.passed v) ?_ nofun
        intro m hm
        rw [hprinted] at hm
        rcases List.mem_append.mp hm with hold | hnew
        · exact h.printed v m hold
        · rw [List.mem_singleton.mp hnew]
          exact ⟨hroot, q, hentry⟩

theorem traced_of_reachable {allowed : Config V W → Happening V W → Prop}
    (h : (network id sourceId).system.Reachable allowed d) : Traced id d := by
  refine h.invariant (P := Traced id) ?_ fun _ _ _ hd _ hstep => traced_step hd hstep
  exact ⟨fun _ => .init, nofun, fun _ => nofun, nofun, fun _ => nofun⟩

end Steps

section Sources
variable {id sourceId} [DecidableEq V] [DecidableEq W] {d : Config V W}

/-- A source runs as it does by itself, and the log has its packets in their order. -/
theorem source_packets (h : (network id sourceId).system.Reachable StartedOnce d) (w : W) :
    ∃ k ≤ 300, k = (Beacon.acceptedMsgs (d.node (.source w)).2).length ∧
      Network.logOf (.source w) d.log = (List.range k).map fun i =>
        .beacon sizeofBeaconMsg (Beacon.packet (sourceId w) i) := by
  have hinit : (network id sourceId).init (.source w) =
      (Beacon.machine (sourceId w)).system.init := rfl
  have hsource : (Beacon.machine (sourceId w)).system.Reachable Beacon.Once
      (d.node (.source w)) := by
    refine Network.party_reachable hinit (fun c e s fs honce hhandle => .inr ⟨e, honce, ?_⟩)
      (fun _ _ _ _ _ _ _ => .inl rfl) h
    obtain ⟨r, hbeacon, hpair⟩ := Option.map_eq_some_iff.mp hhandle
    obtain ⟨rfl, -⟩ := Prod.mk.inj hpair
    have hrun : (Beacon.machine (sourceId w)).step (c.node (.source w)).1 e = some r := hbeacon
    simp [Machine.system, hrun]
  have hnumbered := Beacon.numbered_of_reachable hsource
  let told : Beacon.State × List Beacon.Output → List Frame := fun s =>
    (Beacon.acceptedMsgs s.2).map (.beacon sizeofBeaconMsg)
  have hlog : Network.logOf (.source w) d.log = told (d.node (.source w)) := by
    refine Network.logOf_eq (v := .source w) rfl (fun e s t fs hhandle => ?_)
      (fun _ _ s => (List.append_nil (told s)).symm) h
    obtain ⟨r, -, hpair⟩ := Option.map_eq_some_iff.mp hhandle
    obtain ⟨rfl, rfl⟩ := Prod.mk.inj hpair
    have hmsgs : Beacon.acceptedMsgs (s.2 ++ r.2) =
        Beacon.acceptedMsgs s.2 ++ Beacon.acceptedMsgs r.2 := List.filterMap_append ..
    exact (congrArg (List.map _) hmsgs).trans (List.map_append ..)
  refine ⟨_, hnumbered.limit, ?_, ?_⟩
  · rw [hnumbered.accepted, List.length_map, List.length_range]
  · rw [hlog]
    change (Beacon.acceptedMsgs (d.node (.source w)).2).map _ = _
    rw [hnumbered.accepted, List.map_map]
    rfl

end Sources

/-- Whatever the radio and the collection protocol lose, repeat and reorder: node 1 alone
prints, and what it prints is, to the last byte, one of the numbered packets of a source,
which node 2 or node 44 has heard and passed on. -/
theorem root_prints_packets {V W : Type} [DecidableEq V] [DecidableEq W] {id : V → Word16}
    {sourceId : W → Word16} {d : Config V W}
    (h : (network id sourceId).system.Reachable StartedOnce d) {v : V} {bm : BeaconMsg}
    (hprinted : bm ∈ (d.node (.node v)).printed) :
    id v = recvNodeId ∧
      (∃ u, (id u = 2 ∨ id u = 44) ∧ bm ∈ (d.node (.node u)).passed) ∧
      ∃ w, ∃ k < (Beacon.acceptedMsgs (d.node (.source w)).2).length,
        bm = Beacon.packet (sourceId w) k := by
  have htraced := traced_of_reachable h
  obtain ⟨hroot, p, hroute⟩ := htraced.printed v bm hprinted
  obtain ⟨-, u, rfl, hpassed⟩ := htraced.route p _ bm hroute
  obtain ⟨w, hbeacon⟩ := htraced.passed u bm hpassed
  have hforwards : id u = 2 ∨ id u = 44 :=
    (htraced.kept u).forwards (List.ne_nil_of_mem hpassed)
  obtain ⟨k, -, rfl, hlog⟩ := source_packets h w
  have hmem := Network.mem_logOf.mpr hbeacon
  rw [hlog] at hmem
  obtain ⟨i, hi, heq⟩ := List.mem_map.mp hmem
  exact ⟨hroot, ⟨u, hforwards, hpassed⟩, w, i, List.mem_range.mp hi, (Frame.beacon.inj heq).2.symm⟩

/-- Nodes 1 and 2, and one source. -/
def pairId (far : Bool) : Word16 := if far then 2 else 1

abbrev pair : Network (Party Bool Unit) PartyState PartyEvent PartyAnswer Frame :=
  network pairId fun _ => 100

/-- The source sends a packet, node 2 passes it on, and node 1 prints it. -/
def contest : List (Happening Bool Unit) :=
  [.act (.source ()) (.startDone .success), .act (.node false) (.startDone .success),
    .act (.source ()) (.timer0Fired .success), .deliver 0 (.node true) ⟨true, .success⟩,
    .deliver 0 (.node false) ⟨true, .success⟩, .act (.node true) .transmit,
    .act (.node true) (.routingSendDone .success), .deliver 1 (.node false) ⟨true, .success⟩]

theorem root_prints_packets_contest :
    ∃ d : Config Bool Unit, (d.node (.node false)).printed = [Beacon.packet 100 0] ∧
      pairId false = recvNodeId ∧
      (∃ u, (pairId u = 2 ∨ pairId u = 44) ∧
        Beacon.packet 100 0 ∈ (d.node (.node u)).passed) ∧
      ∃ w : Unit, ∃ k < (Beacon.acceptedMsgs (d.node (.source w)).2).length,
        Beacon.packet 100 0 = Beacon.packet 100 k := by
  obtain ⟨d, hrun, hprinted⟩ : ∃ d, pair.system.run contest = some d ∧
      (d.node (.node false)).printed = [Beacon.packet 100 0] := ⟨_, rfl, by decide⟩
  have hallowed : pair.system.AllowedFrom StartedOnce pair.system.init contest := by decide
  have hreach := System.reachable_of_run contest hallowed hrun
  exact ⟨d, hprinted, root_prints_packets hreach (hprinted ▸ List.mem_singleton_self _)⟩

/-- The entries of one frame. -/
def holds (f : Frame) (entry : Party V W × Frame) : Bool := entry.2 = f

theorem startedOnce_of_atMostOnce (d : Config V W) (e : Happening V W) (h : AtMostOnce d e) :
    StartedOnce d e := by
  cases e with
  | act p e =>
    cases p with
    | source w => exact h
    | node v => trivial
  | deliver i p r => trivial

section Counts
variable {id sourceId} [DecidableEq V] [DecidableEq W] {d : Config V W}

/-- No packet is broadcast twice. -/
theorem beacon_once (hsource : Function.Injective sourceId)
    (h : (network id sourceId).system.Reachable StartedOnce d) (bm : BeaconMsg) :
    d.log.countP (holds (.beacon sizeofBeaconMsg bm)) ≤ 1 := by
  by_cases hnone : ∀ entry ∈ d.log, holds (.beacon sizeofBeaconMsg bm) entry = false
  · rw [List.countP_eq_zero.mpr fun entry hentry => by simp [hnone entry hentry]]
    exact Nat.zero_le _
  · obtain ⟨⟨p, f⟩, hmem, hbeacon⟩ :
        ∃ entry ∈ d.log, holds (.beacon sizeofBeaconMsg bm) entry = true := by
      simpa using hnone
    obtain rfl : f = .beacon sizeofBeaconMsg bm := by simpa [holds] using hbeacon
    obtain ⟨-, w, rfl⟩ := (traced_of_reachable h).beacon p _ bm hmem
    have hown : ∀ {w'}, (Party.source w', Frame.beacon sizeofBeaconMsg bm) ∈ d.log →
        ∃ i < 300, bm = Beacon.packet (sourceId w') i := by
      intro w' hmem'
      obtain ⟨k, hk, -, hlog⟩ := source_packets h w'
      have hsent := Network.mem_logOf.mpr hmem'
      rw [hlog] at hsent
      obtain ⟨i, hi, heq⟩ := List.mem_map.mp hsent
      exact ⟨i, (List.mem_range.mp hi).trans_le hk, (Frame.beacon.inj heq).2.symm⟩
    have honly : ∀ w', (Party.source w', Frame.beacon sizeofBeaconMsg bm) ∈ d.log → w' = w := by
      intro w' hmem'
      obtain ⟨_, -, heq⟩ := hown hmem
      obtain ⟨_, -, heq'⟩ := hown hmem'
      exact hsource (congrArg BeaconMsg.nodeid (heq'.symm.trans heq))
    -- Every such entry is the source's, and its own packets all differ.
    have hcount : d.log.countP (holds (.beacon sizeofBeaconMsg bm)) =
        (Network.logOf (.source w) d.log).count (.beacon sizeofBeaconMsg bm) := by
      rw [Network.logOf, List.count, List.countP_map, List.countP_filter]
      refine List.countP_congr fun entry hentry => ?_
      obtain ⟨q, f⟩ := entry
      simp only [holds, decide_eq_true_eq, Function.comp_apply, beq_iff_eq, Bool.and_eq_true]
      constructor
      · rintro rfl
        obtain ⟨-, w', rfl⟩ := (traced_of_reachable h).beacon q _ bm hentry
        exact ⟨rfl, congrArg _ (honly w' hentry)⟩
      · exact fun hboth => hboth.1
    obtain ⟨k, hk, -, hlog⟩ := source_packets h w
    rw [hcount, hlog]
    apply List.nodup_iff_count_le_one.mp
    refine List.Nodup.map_on (fun i hi j hj heq => ?_) List.nodup_range
    have hcounter := congrArg (fun m => m.counter.val) (Frame.beacon.inj heq).2
    have hi := List.mem_range.mp hi
    have hj := List.mem_range.mp hj
    simp only [Beacon.packet, Fin.val_ofNat] at hcounter
    omega

/-- What a node notes down of one frame it has not noted more often than it was sent. -/
theorem taken_le (h : (network id sourceId).system.Reachable AtMostOnce d) (v : V)
    {told : Node → List BeaconMsg} {bm : BeaconMsg} {f₀ : Frame} (hinit : told {} = [])
    (hkeep : ∀ s t : Node, t.passed = s.passed → t.printed = s.printed → told t = told s)
    (hhear : ∀ {s f t}, Hearing (id v) s f t →
      (told t).count bm ≤ (told s).count bm + if f = f₀ then 1 else 0) :
    (told (d.node (.node v))).count bm ≤ d.log.countP (holds f₀) := by
  refine Network.taken_le_sent (v := .node v) (fun s : Node => (told s).count bm)
    (congrArg (List.count bm) hinit) ?_ ?_ h
  · intro c e s fs hreach _ hhandle
    obtain ⟨-, hpassed, hprinted, -⟩ := node_handle ((traced_of_reachable hreach).kept v) hhandle
    exact (congrArg (List.count bm) (hkeep _ s hpassed hprinted)).le
  · intro c i r u f hreach hnew hi
    obtain ⟨hhearing, -⟩ := node_receive (W := W) ((traced_of_reachable hreach).kept v) r f
    have hcount := hhear hhearing
    refine ⟨hcount.trans (Nat.add_le_add_left ?_ _), hnew⟩
    by_cases hf : f = f₀
    · simp [hf, holds]
    · simp [hf, holds]

theorem passed_le (h : (network id sourceId).system.Reachable AtMostOnce d) (v : V)
    (bm : BeaconMsg) :
    (d.node (.node v)).passed.count bm ≤ d.log.countP (holds (.beacon sizeofBeaconMsg bm)) := by
  refine taken_le h v rfl (fun _ _ hpassed _ => hpassed) fun hhearing => ?_
  cases hhearing with
  | kept _ hpassed _ _ | printed _ _ hpassed _ _ => simp [hpassed]
  | @passedOn m _ _ hpassed _ _ =>
    by_cases hm : m = bm
    · simp [hpassed, hm]
    · simp [hpassed, hm]

theorem printed_le (h : (network id sourceId).system.Reachable AtMostOnce d) (v : V)
    (bm : BeaconMsg) :
    (d.node (.node v)).printed.count bm ≤ d.log.countP (holds (.route sizeofBeaconMsg bm)) := by
  refine taken_le h v rfl (fun _ _ _ hprinted => hprinted) fun hhearing => ?_
  cases hhearing with
  | kept _ _ hprinted _ | passedOn _ _ hprinted _ => simp [hprinted]
  | @printed m _ _ _ _ hprinted _ =>
    by_cases hm : m = bm
    · simp [hprinted, hm]
    · simp [hprinted, hm]

/-- The protocol sends for a node what the node has passed on, once. -/
theorem sent_le (h : (network id sourceId).system.Reachable AtMostOnce d) (v : V)
    (bm : BeaconMsg) :
    (Network.logOf (.node v) d.log).count (.route sizeofBeaconMsg bm) +
        (d.node (.node v)).pending bm ≤ (d.node (.node v)).passed.count bm := by
  refine h.invariant_of (P := fun d => (Network.logOf (.node v) d.log).count
    (.route sizeofBeaconMsg bm) + (d.node (.node v)).pending bm ≤
      (d.node (.node v)).passed.count bm) (fun _ hc => hc) le_rfl ?_
  intro c e c' hreach hc hallowed hstep
  have hkept := (traced_of_reachable hreach).kept v
  obtain ⟨p, e, s, fs, rfl, hhandle, rfl⟩ | ⟨i, p, r, q, f, rfl, hi, rfl⟩ :=
    (network id sourceId).system_step hstep
  · rw [Network.Config.put_log, Network.logOf_append]
    by_cases hp : p = .node v
    · subst hp
      obtain ⟨-, hpassed, -, hsent⟩ := node_handle hkept hhandle
      rw [if_pos rfl, c.put_node_self, hpassed, List.count_append]
      rcases hsent with ⟨rfl, hpending⟩ | ⟨rfl, m, -, rfl, hpending⟩
      · exact (Nat.add_le_add_left (hpending bm) _).trans hc
      · obtain ⟨hnone, hone⟩ := hpending bm
        rw [hone hallowed] at hc
        rw [hnone]
        by_cases hm : m = bm
        · simpa [hm] using hc
        · simpa [hm] using hc
    · rw [if_neg hp, List.append_nil, c.put_node_of_ne s fs (Ne.symm hp)]
      exact hc
  · rw [Network.Config.mark_log, Network.Config.mark_node, Network.Config.put_log,
      Network.logOf_append]
    by_cases hp : p = .node v
    · subst hp
      obtain ⟨hhearing, hnone⟩ := node_receive (W := W) hkept r f
      rw [show ((network id sourceId).receive (.node v) r f (c.node (.node v))).2 = [] from hnone,
        if_pos rfl, List.append_nil, c.put_node_self]
      change Hearing (id v) (c.node (.node v)) f
        ((network id sourceId).receive (.node v) r f (c.node (.node v))).1 at hhearing
      generalize ((network id sourceId).receive (.node v) r f (c.node (.node v))).1 = t
        at hhearing ⊢
      cases hhearing with
      | kept _ hpassed _ hpending | printed _ _ hpassed _ hpending =>
        rw [hpassed, hpending]
        exact hc
      | @passedOn m _ _ hpassed _ hpending =>
        have hmore := hpending bm
        have hcount : List.count bm [m] = if m = bm then 1 else 0 := by
          rw [List.count_singleton]
          simp
        rw [hpassed, List.count_append, hcount]
        omega
    · rw [if_neg hp, List.append_nil, c.put_node_of_ne _ _ (Ne.symm hp)]
      exact hc

end Counts

/-- If neither medium repeats anything: as often as a packet is printed, so many different
nodes have passed it on, and these are nodes 2 and 44. -/
theorem printed_once_a_forwarder {V W : Type} [DecidableEq V] [DecidableEq W] {id : V → Word16}
    {sourceId : W → Word16} (hid : Function.Injective id) (hsource : Function.Injective sourceId)
    {d : Config V W} (h : (network id sourceId).system.Reachable AtMostOnce d) (v : V)
    (bm : BeaconMsg) :
    ∃ us : List V, us.Nodup ∧ us.length ≤ 2 ∧
      (∀ u ∈ us, (id u = 2 ∨ id u = 44) ∧ bm ∈ (d.node (.node u)).passed) ∧
      (d.node (.node v)).printed.count bm ≤ us.length := by
  have hstarted := h.mono startedOnce_of_atMostOnce
  have htraced := traced_of_reachable hstarted
  let forwarder : Party V W × Frame → Option V := fun
    | (.node u, f) => if f = .route sizeofBeaconMsg bm then some u else none
    | (.source _, _) => none
  let us := d.log.filterMap forwarder
  have hmem : ∀ u ∈ us, (.node u, .route sizeofBeaconMsg bm) ∈ d.log := by
    intro u hu
    obtain ⟨⟨p, f⟩, hentry, hsome⟩ := List.mem_filterMap.mp hu
    cases p with
    | source w => cases hsome
    | node u' =>
      obtain ⟨rfl, hsame⟩ := Option.ite_none_right_eq_some.mp hsome
      obtain rfl := Option.some.inj hsame
      exact hentry
  have hforwards : ∀ u ∈ us, (id u = 2 ∨ id u = 44) ∧ bm ∈ (d.node (.node u)).passed := by
    intro u hu
    obtain ⟨-, u', hsame, hpassed⟩ := htraced.route _ _ _ (hmem u hu)
    obtain rfl := Party.node.inj hsame
    exact ⟨(htraced.kept u).forwards (List.ne_nil_of_mem hpassed), hpassed⟩
  have hlength : d.log.countP (holds (.route sizeofBeaconMsg bm)) = us.length := by
    rw [List.length_filterMap_eq_countP]
    refine List.countP_congr fun entry hentry => ?_
    obtain ⟨p, f⟩ := entry
    simp only [holds, decide_eq_true_eq]
    constructor
    · rintro rfl
      obtain ⟨-, u, rfl, -⟩ := htraced.route p _ bm hentry
      simp [forwarder]
    · intro hsome
      cases p with
      | source w => cases hsome
      | node u =>
        by_contra hf
        simp [forwarder, hf] at hsome
  have hnodup : us.Nodup := by
    refine List.nodup_iff_count_le_one.mpr fun u => ?_
    have hcount : us.count u =
        (Network.logOf (.node u) d.log).count (.route sizeofBeaconMsg bm) := by
      rw [List.count_filterMap, Network.logOf, List.count, List.countP_map, List.countP_filter]
      refine List.countP_congr fun entry _ => ?_
      obtain ⟨p, f⟩ := entry
      cases p with
      | source w => simp [forwarder]
      | node u' => simp [forwarder]
    have hsent := sent_le h u bm
    have hpassed := passed_le h u bm
    have hbeacon := beacon_once hsource hstarted bm
    omega
  have htwo : (us.map id).length ≤ [(2 : Word16), 44].length := by
    refine (List.Nodup.map hid hnodup).length_le_of_subset fun i hi => ?_
    obtain ⟨u, hu, rfl⟩ := List.mem_map.mp hi
    simpa using (hforwards u hu).1
  rw [List.length_map] at htwo
  exact ⟨us, hnodup, htwo, hforwards, (printed_le h v bm).trans hlength.le⟩

theorem printed_once_a_forwarder_contest :
    ∃ d : Config Bool Unit, (d.node (.node false)).printed.count (Beacon.packet 100 0) = 1 ∧
      ∃ us : List Bool, us.Nodup ∧ us.length ≤ 2 ∧
        (∀ u ∈ us, (pairId u = 2 ∨ pairId u = 44) ∧
          Beacon.packet 100 0 ∈ (d.node (.node u)).passed) ∧
        (d.node (.node false)).printed.count (Beacon.packet 100 0) ≤ us.length := by
  obtain ⟨d, hrun, hcount⟩ : ∃ d, pair.system.run contest = some d ∧
      (d.node (.node false)).printed.count (Beacon.packet 100 0) = 1 := ⟨_, rfl, by decide⟩
  have hallowed : pair.system.AllowedFrom AtMostOnce pair.system.init contest := by decide
  have hreach := System.reachable_of_run contest hallowed hrun
  exact ⟨d, hcount, printed_once_a_forwarder (by decide) (fun _ _ _ => rfl) hreach false _⟩

end WsnContest.Collection.Deployment
