import WsnContest.Gossip.BiDaXiao
import WsnContest.Lib.Network

/-! `BiDaXiao` invents no value. A node has one packet, which is both its transmit
buffer and its copy of the last received frame, so here a frame on the air carries
whatever the packet holds when the radio gets to it, and other programs may be
on the air too. -/
namespace WsnContest.BiDaXiao
open Tinyos Gossip Lib

/-- A handler runs, the radio transmits the packet of an accepted send, or the
frame of another program, told apart by its length, is on the air. -/
inductive AirEvent where
  | node (e : Event)
  | transmit
  | foreign (msg : Message)
  deriving DecidableEq, Repr

def airHandle (p : Settings) (e : AirEvent) (s : State) : Option (State × List Message) :=
  match e with
  | .node e => (handle p e s).map fun r => (r.1, [])
  | .transmit => if s.outstanding ≠ 0 then some (s, [s.packet]) else none
  | .foreign msg => if msg.length ≠ sizeofTestSendMsg then some (s, [msg]) else none

/-- The nodes around a radio that reads the packets late. -/
def airNetwork {V : Type} (tosNodeId : V → Word16) :
    Network V (fun _ => State) (fun _ => AirEvent) (fun _ => ErrorT) Message where
  init _ := {}
  handle v e s := airHandle (settings (tosNodeId v)) e s
  receive v sent msg s := ((receive (settings (tosNodeId v)) sent msg s).1, [])

variable {V : Type}

abbrev AirConfig (V : Type) := Network.Config (fun _ : V => State) Message

/-- The numbers that were handed to some node. -/
def handed (c : AirConfig V) : Set Word16 :=
  {n | ∃ u, (c.node u).serialReceived = true ∧ (c.node u).selfNumber = n}

/-- Both fields are among the numbers. -/
def Within (numbers : Set Word16) (m : TestSendMsg) : Prop := m.max ∈ numbers ∧ m.min ∈ numbers

variable {numbers : Set Word16}

theorem Within.sup {a b : TestSendMsg} (ha : Within numbers a) (hb : Within numbers b) :
    Within numbers (a ⊔ b) := by
  constructor
  · rw [TestSendMsg.sup_max]
    rcases max_choice a.max b.max with heq | heq <;> rw [heq]
    · exact ha.1
    · exact hb.1
  · rw [TestSendMsg.sup_min]
    rcases min_choice a.min b.min with heq | heq <;> rw [heq]
    · exact ha.2
    · exact hb.2

/-- A packet that could pass for a frame of the program holds such numbers. -/
def Clean (numbers : Set Word16) (msg : Message) : Prop :=
  msg.length = sizeofTestSendMsg → Within numbers msg.payload

structure Honest (numbers : Set Word16) (s : State) : Prop where
  covers : s.serialReceived = true → ⟨s.selfNumber, s.selfNumber⟩ ≤ s.status
  status : s.serialReceived = true → Within numbers s.status
  packet : Clean numbers s.packet

theorem honest_init : Honest numbers {} := by
  refine ⟨by simp, by simp, fun h => ?_⟩
  exact absurd h (by decide)

theorem Honest.mono {s : State} (h : Honest numbers s) {more : Set Word16} (hle : numbers ⊆ more) :
    Honest more s :=
  ⟨h.covers, fun hs => ⟨hle (h.status hs).1, hle (h.status hs).2⟩,
    fun hlen => ⟨hle (h.packet hlen).1, hle (h.packet hlen).2⟩⟩

theorem honest_sendStatus {s : State} (h : Honest numbers s) (p : Settings) (sent : ErrorT) :
    Honest numbers (sendStatus p sent s).1 := by
  refine ⟨by simpa using h.covers, by simpa using h.status, fun hlen => ?_⟩
  rcases sendStatus_packet p sent s with hsame | ⟨hserial, hpayload⟩
  · rw [hsame] at hlen ⊢
    exact h.packet hlen
  · rw [hpayload]
    exact h.status hserial

theorem honest_receive {s : State} (h : Honest numbers s) {msg : Message}
    (hmsg : Clean numbers msg) (p : Settings) (sent : ErrorT) :
    Honest numbers (receive p sent msg s).1 := by
  have hstatus : s.serialReceived = true → Within numbers (receive p sent msg s).1.status := by
    intro hserial
    rw [receive_status]
    split
    · next hlen => exact (h.status hserial).sup (hmsg hlen)
    · exact h.status hserial
  refine ⟨fun hserial => ?_, fun hserial => ?_, fun hlen => ?_⟩
  · rw [receive_serialReceived] at hserial
    rw [receive_selfNumber]
    exact (h.covers hserial).trans (le_receive_status ..)
  · rw [receive_serialReceived] at hserial
    exact hstatus hserial
  · rcases receive_packet p sent msg s with hcopy | ⟨hserial, hpayload⟩
    · rw [hcopy] at hlen ⊢
      exact hmsg hlen
    · rw [hpayload]
      exact hstatus hserial

/-- A handler keeps the node honest about any numbers among which is the one it
may be handed, and a number once accepted stays. -/
theorem honest_handle {s s' : State} {p : Settings} {e : Event} {fs : List Message}
    (h : Honest numbers s) (hhandle : handle p e s = some (s', fs))
    (hown : s'.serialReceived = true → s'.selfNumber ∈ numbers) : Honest numbers s' := by
  obtain ⟨rcm, rfl, -, rfl, rfl⟩ | ⟨sent, t, -, hfired, rfl, rfl⟩ | ⟨rfl, hsame⟩ :=
    handle_cases hhandle
  · exact ⟨fun _ => le_rfl, fun _ => ⟨hown rfl, hown rfl⟩, h.packet⟩
  · refine honest_sendStatus ⟨?_, ?_, ?_⟩ p sent
    · rw [hfired.serialReceived, hfired.selfNumber, hfired.status]
      exact h.covers
    · rw [hfired.serialReceived, hfired.status]
      exact h.status
    · rw [hfired.packet]
      exact h.packet
  · refine ⟨?_, ?_, ?_⟩
    · rw [hsame.serialReceived, hsame.selfNumber, hsame.status]
      exact h.covers
    · rw [hsame.serialReceived, hsame.status]
      exact h.status
    · rw [hsame.packet]
      exact h.packet

theorem handle_keeps_number {s s' : State} {p : Settings} {e : Event} {fs : List Message}
    (hhandle : handle p e s = some (s', fs)) (hserial : s.serialReceived = true) :
    s'.serialReceived = true ∧ s'.selfNumber = s.selfNumber := by
  obtain ⟨rcm, rfl, hnone, -⟩ | ⟨sent, t, -, hfired, rfl, rfl⟩ | ⟨rfl, hsame⟩ :=
    handle_cases hhandle
  · rw [hserial] at hnone
    exact absurd hnone (by decide)
  · rw [sendStatus_serialReceived, sendStatus_selfNumber]
    exact ⟨hfired.serialReceived.trans hserial, hfired.selfNumber⟩
  · exact ⟨hsame.serialReceived.trans hserial, hsame.selfNumber⟩

variable [DecidableEq V] {tosNodeId : V → Word16}

theorem handed_put {c : AirConfig V} {v : V} {s : State} {fs : List Message}
    (h : (c.node v).serialReceived = true →
      s.serialReceived = true ∧ s.selfNumber = (c.node v).selfNumber) :
    handed c ⊆ handed (c.put v s fs) := by
  rintro n ⟨u, hserial, hn⟩
  by_cases huv : u = v
  · subst huv
    obtain ⟨hserial', hsame⟩ := h hserial
    refine ⟨u, ?_, ?_⟩ <;> rw [Network.Config.put_node_self]
    · exact hserial'
    · exact hsame.trans hn
  · refine ⟨u, ?_, ?_⟩ <;> rw [c.put_node_of_ne s fs huv]
    · exact hserial
    · exact hn

/-- Every node and every frame on the air is honest about what was handed out. -/
structure NothingInvented (c : AirConfig V) : Prop where
  node : ∀ v, Honest (handed c) (c.node v)
  log : ∀ u msg, (u, msg) ∈ c.log → Clean (handed c) msg

theorem NothingInvented.put {c : AirConfig V} (h : NothingInvented c) {v : V} {s : State}
    {fs : List Message}
    (hkeeps : (c.node v).serialReceived = true →
      s.serialReceived = true ∧ s.selfNumber = (c.node v).selfNumber)
    (hs : Honest (handed (c.put v s fs)) s)
    (hfs : ∀ f ∈ fs, Clean (handed c) f) : NothingInvented (c.put v s fs) := by
  have hmono : handed c ⊆ handed (c.put v s fs) := handed_put hkeeps
  constructor
  · apply Network.Config.forall_put_node
      (P := fun _ (t : State) => Honest (handed (c.put v s fs)) t) hs
    exact fun w _ => (h.node w).mono hmono
  · intro u msg hmem hlen
    have hold : Within (handed c) msg.payload := by
      rcases Network.Config.mem_put_log.mp hmem with hold | ⟨rfl, hnew⟩
      · exact h.log u msg hold hlen
      · exact hfs msg hnew hlen
    exact ⟨hmono hold.1, hmono hold.2⟩

theorem nothing_invented_step {c c' : AirConfig V} {e : Network.Event _ _}
    (h : NothingInvented c) (hstep : (airNetwork tosNodeId).system.step c e = some c') :
    NothingInvented c' := by
  obtain ⟨v, e, s, fs, rfl, hhandle, rfl⟩ | ⟨i, v, sent, u, msg, rfl, hi, rfl⟩ :=
    Network.system_step _ hstep
  · cases e with
    | node e =>
      obtain ⟨⟨s', gs⟩, hrun, hpair⟩ := Option.map_eq_some_iff.mp hhandle
      obtain ⟨rfl, rfl⟩ := Prod.mk.inj hpair
      have hkeeps := handle_keeps_number hrun
      refine h.put hkeeps (honest_handle ((h.node v).mono (handed_put hkeeps)) hrun ?_) (by simp)
      exact fun hserial => ⟨v, by simpa using hserial, by simp⟩
    | transmit =>
      obtain ⟨-, hpair⟩ := Option.ite_none_right_eq_some.mp hhandle
      obtain ⟨rfl, rfl⟩ := Prod.mk.inj (Option.some.inj hpair)
      apply h.put (fun hs => ⟨hs, rfl⟩) ((h.node v).mono (handed_put fun hs => ⟨hs, rfl⟩))
      simpa using (h.node v).packet
    | foreign msg =>
      obtain ⟨hlen, hpair⟩ := Option.ite_none_right_eq_some.mp hhandle
      obtain ⟨rfl, rfl⟩ := Prod.mk.inj (Option.some.inj hpair)
      apply h.put (fun hs => ⟨hs, rfl⟩) ((h.node v).mono (handed_put fun hs => ⟨hs, rfl⟩))
      intro f hf hsize
      rw [List.mem_singleton.mp hf] at hsize
      exact absurd hsize hlen
  · have hmsg := h.log u msg (List.mem_of_getElem? hi)
    set s := (receive (settings (tosNodeId v)) sent msg (c.node v)).1
    have hkeeps : (c.node v).serialReceived = true →
        s.serialReceived = true ∧ s.selfNumber = (c.node v).selfNumber := fun hserial =>
      ⟨(receive_serialReceived ..).trans hserial, receive_selfNumber ..⟩
    have hhonest : Honest (handed c) s := honest_receive (h.node v) hmsg _ sent
    have hput : NothingInvented (c.put v s []) :=
      h.put hkeeps (hhonest.mono (handed_put hkeeps)) (by simp)
    exact ⟨hput.node, hput.log⟩

/-- In every run, with any losses, repetitions and overwritten packets, the
status of a node with a number covers that number, and statuses and frames hold
only numbers that were handed to some node. -/
theorem gossip_never_invents (tosNodeId : V → Word16) (c : AirConfig V)
    (h : (airNetwork tosNodeId).system.Reachable Lib.System.anyStep c) :
    (∀ v, (c.node v).serialReceived = true →
      (c.node v).status.min ≤ (c.node v).selfNumber ∧
      (c.node v).selfNumber ≤ (c.node v).status.max ∧
      (c.node v).status.min ∈ handed c ∧ (c.node v).status.max ∈ handed c) ∧
    ∀ u msg, (u, msg) ∈ c.log → msg.length = sizeofTestSendMsg →
      msg.payload.max ∈ handed c ∧ msg.payload.min ∈ handed c := by
  have hinvariant : NothingInvented c := by
    refine h.invariant (P := NothingInvented) ⟨fun _ => honest_init, ?_⟩ ?_
    · simp [Network.system]
    · exact fun _ _ _ hc _ hstep => nothing_invented_step hc hstep
  refine ⟨fun v hserial => ?_, hinvariant.log⟩
  obtain ⟨hmax, hmin⟩ := (hinvariant.node v).covers hserial
  obtain ⟨hmax', hmin'⟩ := (hinvariant.node v).status hserial
  exact ⟨hmin, hmax, hmin', hmax'⟩

/-- A sender is overtaken by a frame of another program, so that its next frame
is not its own; the frame it sends after that reaches a node without a number. -/
theorem gossip_never_invents_pair :
    ∃ c : AirConfig Bool, (c.node true).status = ⟨5, 0⟩ ∧
      (∀ v, (c.node v).serialReceived = true → (c.node v).status.max ∈ handed c) ∧
      ∀ u msg, (u, msg) ∈ c.log → msg.length = sizeofTestSendMsg →
        msg.payload.max ∈ handed c := by
  have hinit : (airNetwork fun v : Bool => if v then 2 else 1).system.Reachable
    Lib.System.anyStep _ := .init
  have hnumber := hinit.step (e := .act false (.node (.serialReceive sizeofTestSerialMsg ⟨0, 5⟩)))
    trivial rfl
  have hsend := hnumber.step (e := .act false (.node (.sendTimerFired .success))) trivial rfl
  have hair := hsend.step (e := .act false .transmit) trivial rfl
  have hforeign := hair.step (e := .act false (.foreign ⟨7, ⟨9, 9⟩⟩)) trivial rfl
  have hover := hforeign.step (e := .deliver 1 false .success) trivial rfl
  have hlate := hover.step (e := .act false .transmit) trivial rfl
  have hheard := hlate.step (e := .deliver 0 true .success) trivial rfl
  have hall := gossip_never_invents _ _ hheard
  exact ⟨_, by decide, fun v hv => (hall.1 v hv).2.2.2, fun u msg hmem hlen =>
    (hall.2 u msg hmem hlen).1⟩

end WsnContest.BiDaXiao
