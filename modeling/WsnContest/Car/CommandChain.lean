import Mathlib.Data.List.Sort
import WsnContest.Car.Node
import WsnContest.Car.PcNode
import WsnContest.Car.Relay
import WsnContest.Lib.Network

/-! From the keyboard to the car. The radio reads a buffer some time between the
accepted send and its `sendDone`, frames may be lost, repeated and reordered, and
relays repeat each other; the car still obeys nothing but typed commands, in the
order in which they were typed. -/
namespace WsnContest.CommandChain
open Tinyos Lib Car

/-- The PC, its mote, the relays and the car. -/
inductive Party (ι : Type) where
  | pc
  | pcNode
  | relay (i : ι)
  | car
  deriving DecidableEq

variable {ι : Type}

/-- The PC remembers what was typed, and the car what it has done. -/
abbrev PartyState : Party ι → Type
  | .pc => Session × List Char
  | .pcNode => PcNode.State
  | .relay _ => Relay.State
  | .car => CarNode.State × List CarNode.Output

/-- The radio takes the buffer of an accepted send, or signals `sendDone`. -/
inductive RadioEvent where
  | transmit
  | sendDone
  deriving DecidableEq, Repr

inductive RelayEvent where
  | car (e : RadioEvent)
  | data (e : RadioEvent)
  deriving DecidableEq, Repr

inductive CarEvent where
  | transmit
  | node (e : CarNode.Event)
  deriving DecidableEq, Repr

abbrev PartyEvent : Party ι → Type
  | .pc => Char
  | .pcNode => RadioEvent
  | .relay _ => RelayEvent
  | .car => CarEvent

/-- What the environment answers while a frame is handled: the result of the send,
or the bytes that reach the driver of the car. -/
abbrev PartyAnswer : Party ι → Type
  | .pc => Unit
  | .pcNode => ErrorT
  | .relay _ => ErrorT
  | .car => List (List CarP.Rx)

def handle : (v : Party ι) → PartyEvent v → PartyState v → Option (PartyState v × List Frame)
  | .pc, c, (s, typed) => some (((s.read c).1, typed ++ [c]), (s.read c).2)
  | .pcNode, .transmit, s => s.packet.onAir.map fun p => (s, [.car p.1 p.2])
  | .pcNode, .sendDone, s => (PcNode.sendDone s).map fun s => (s, [])
  | .relay _, .car .transmit, s => s.carPacket.onAir.map fun p => (s, [.car p.1 p.2])
  | .relay _, .car .sendDone, s => (Relay.sendDone s).map fun s => (s, [])
  | .relay _, .data .transmit, s => s.dataPacket.onAir.map fun p => (s, [.data p.1 p.2])
  | .relay _, .data .sendDone, s => (Relay.dataSendDone s).map fun s => (s, [])
  | .car, .transmit, s => s.1.packet.onAir.map fun p => (s, [.data p.1 p.2])
  | .car, .node e, s => (CarNode.handle e s.1).map fun r => ((r.1, s.2 ++ r.2), [])

/-- Serial frames are for the mote of the PC, commands for relays and the car,
readings for relays. -/
def receive : (v : Party ι) → PartyAnswer v → Frame → PartyState v → PartyState v × List Frame
  | .pcNode, sent, .serial len msg, s => (PcNode.receive sent len msg s, [])
  | .relay _, sent, .car len msg, s => (Relay.receive sent len msg s, [])
  | .relay _, sent, .data len msg, s => (Relay.dataReceive sent len msg s, [])
  | .car, irqs, .car len msg, s =>
    let (node, out) := CarNode.receive len msg irqs s.1
    ((node, s.2 ++ out), [])
  | _, _, _, s => (s, [])

/-- A session whose counter starts at `n`. -/
def network (ι : Type) (n : ℕ) :
    Network (Party ι) PartyState PartyEvent PartyAnswer Frame where
  init
    | .pc => ({ counter := Fin.ofNat _ n }, [])
    | .pcNode => {}
    | .relay _ => {}
    | .car => (CarNode.booted {}, [])
  handle := handle
  receive := receive

abbrev Config (ι : Type) := Network.Config (PartyState (ι := ι)) Frame

def typedBy : (v : Party ι) → PartyState v → List Char
  | .pc, s => s.2
  | _, _ => []

/-- The characters typed so far. -/
def typed (c : Config ι) : List Char := typedBy .pc (c.node .pc)

/-- The recognised keys of a text, with the numbers a counter from `n` gives them. -/
def commands (n : ℕ) : List Char → List TestCarMsg
  | [] => []
  | c :: cs => ((keyCmd c).map fun cmd => ⟨Fin.ofNat _ n, cmd.code⟩).toList ++ commands (n + 1) cs

def obeyedMsg? : CarNode.Output → Option TestCarMsg
  | .obeyed msg => some msg
  | _ => none

/-- The frames for which the car has entered its command switch. -/
def obeyed (out : List CarNode.Output) : List TestCarMsg := out.filterMap obeyedMsg?

theorem obeyed_append (out out' : List CarNode.Output) :
    obeyed (out ++ out') = obeyed out ++ obeyed out' :=
  List.filterMap_append

theorem commands_append (n : ℕ) (cs ds : List Char) :
    commands n (cs ++ ds) = commands n cs ++ commands (n + cs.length) ds := by
  induction cs generalizing n with
  | nil => rfl
  | cons c cs ih =>
    rw [List.cons_append, commands, commands, ih, List.append_assoc, List.length_cons,
      Nat.add_right_comm, Nat.add_assoc]

theorem commands_prefix {n : ℕ} {cs ds : List Char} (h : cs <+: ds) :
    commands n cs ⊆ commands n ds := by
  obtain ⟨rest, rfl⟩ := h
  rw [commands_append]
  exact List.subset_append_left _ _

theorem mem_commands {n : ℕ} {cs : List Char} {msg : TestCarMsg} (h : msg ∈ commands n cs) :
    ∃ i < cs.length, msg.seq = Fin.ofNat _ (n + i) ∧
      ∃ c ∈ cs, ∃ cmd, keyCmd c = some cmd ∧ msg.cmd = cmd.code := by
  induction cs generalizing n with
  | nil => cases h
  | cons c cs ih =>
    rcases List.mem_append.mp h with hhead | htail
    · obtain ⟨cmd, hcmd, rfl⟩ := Option.map_eq_some_iff.mp (Option.mem_toList.mp hhead)
      exact ⟨0, by simp, rfl, c, by simp, cmd, hcmd, rfl⟩
    · obtain ⟨i, hi, hseq, d, hd, hcmd⟩ := ih htail
      refine ⟨i + 1, by simpa using hi, ?_, d, List.mem_cons_of_mem _ hd, hcmd⟩
      rw [hseq, Nat.add_right_comm, Nat.add_assoc]

theorem keyCmd_reset {c : Char} (h : keyCmd c = some .r_) : c = 'r' := by
  unfold keyCmd at h
  split at h <;> simp_all

/-- While the counter stays in its range the numbers grow. -/
theorem commands_sorted (n : ℕ) (cs : List Char) (h : n + cs.length < 2 ^ 31) :
    (commands n cs).Pairwise fun a b => a.seq < b.seq := by
  induction cs generalizing n with
  | nil => exact .nil
  | cons c cs ih =>
    rw [List.length_cons] at h
    refine List.pairwise_append.mpr ⟨?_, ih (n + 1) (by omega), fun a ha b hb => ?_⟩
    · cases keyCmd c <;> simp
    · obtain ⟨cmd, -, rfl⟩ := Option.map_eq_some_iff.mp (Option.mem_toList.mp ha)
      obtain ⟨i, hi, hseq, -⟩ := mem_commands hb
      rw [hseq, Fin.lt_def, Fin.val_ofNat, Fin.val_ofNat, Nat.mod_eq_of_lt (by omega),
        Nat.mod_eq_of_lt (by omega)]
      omega

/-- Nothing new is obeyed and the sequence number stays. -/
structure Unheard (s : CarNode.State) (r : CarNode.State × List CarNode.Output) : Prop where
  seq : r.1.seq = s.seq
  obeyed : obeyed r.2 = []

namespace Unheard
variable {s : CarNode.State} {r : CarNode.State × List CarNode.Output}

theorem refl (s : CarNode.State) : Unheard s (s, []) := ⟨rfl, rfl⟩

theorem sendData (sent : ErrorT) (s : CarNode.State) : Unheard s (CarNode.sendData sent s) := by
  obtain ⟨packet, busyRadio, out, heq, hout⟩ := CarNode.sendData_eq sent s
  rw [heq]
  rcases hout with rfl | rfl
  · exact ⟨rfl, rfl⟩
  · exact ⟨rfl, rfl⟩

theorem resendTimerFired (sent : ErrorT) (s : CarNode.State) :
    Unheard s (CarNode.resendTimerFired sent s) := by
  unfold CarNode.resendTimerFired
  dsimp only
  split
  · exact ⟨(sendData sent _).seq, (sendData sent _).obeyed⟩
  · exact ⟨rfl, rfl⟩

theorem readDone (state : ErrorT) (data : Word16) (sent : ErrorT) (s : CarNode.State) :
    Unheard s (CarNode.readDone state data sent s) := by
  unfold CarNode.readDone
  split
  · exact ⟨(sendData sent _).seq, (sendData sent _).obeyed⟩
  · exact refl s

theorem handle {e : CarNode.Event} (h : CarNode.handle e s = some r) : Unheard s r := by
  have hstep : CarNode.machine.step s (.event e) = some (r.1, r.2) := h
  obtain ⟨t, out⟩ := r
  cases CarNode.step_effect hstep with
  | radioFailed herr => exact refl _
  | started => exact ⟨rfl, rfl⟩
  | resendTimerFired htimer => exact resendTimerFired _ s
  | sendDone hdone => exact ⟨rfl, rfl⟩
  | granted hcar => exact ⟨rfl, rfl⟩
  | rxDone => exact ⟨rfl, rfl⟩
  | timer1Fired hcar => exact ⟨rfl, rfl⟩
  | recvTask hcar => exact ⟨(readDone _ _ _ _).seq, (readDone _ _ _ _).obeyed⟩

theorem obey {cmd : Word16} (hcmd : cmd ≠ Cmd.r_.code) (irqs : List (List CarP.Rx))
    (s : CarNode.State) : Unheard s (CarNode.obey cmd irqs s) := by
  have hreset : Cmd.ofCode? cmd ≠ some .r_ := by
    intro h
    have hcode : Cmd.r_.code = cmd := by simpa using List.find?_some h
    exact hcmd hcode.symm
  unfold CarNode.obey
  split
  case h_3 | h_4 =>
    split
    · exact refl s
    · exact ⟨rfl, rfl⟩
  case h_21 h => exact absurd h hreset
  all_goals exact ⟨rfl, rfl⟩

end Unheard

/-- A buffer on its way out holds one of the commands. -/
def Loaded (cmds : List TestCarMsg) (b : MessageBuffer TestCarMsg) : Prop :=
  b.outstanding ≠ 0 → b.payload ∈ cmds

/-- The car has obeyed commands, with growing numbers up to its own. -/
structure Obedient (cmds : List TestCarMsg) (s : CarNode.State × List CarNode.Output) : Prop where
  typed : ∀ msg ∈ obeyed s.2, msg ∈ cmds
  sorted : (obeyed s.2).Pairwise fun a b => a.seq < b.seq
  below : ∀ msg ∈ obeyed s.2, msg.seq ≤ s.1.seq

/-- Every command frame, on the line or on the air, is one of the commands. -/
def Genuine (cmds : List TestCarMsg) : Frame → Prop
  | .serial _ msg | .car _ msg => msg ∈ cmds
  | .data _ _ => True

/-- What holds of each party in a session from `n` that ends with the text `all`. -/
def Sound (n : ℕ) (all : List Char) : (v : Party ι) → PartyState v → Prop
  | .pc, (s, typed) => typed <+: all ∧ s.counter = Fin.ofNat _ (n + typed.length)
  | .pcNode, s => Loaded (commands n all) s.packet
  | .relay _, s => Loaded (commands n all) s.carPacket
  | .car, s => Obedient (commands n all) s

section Parties
variable {cmds : List TestCarMsg}

theorem loaded_of_payload {b b' : MessageBuffer TestCarMsg} (h : Loaded cmds b)
    (hout : b.outstanding ≠ 0) (hpayload : b'.payload = b.payload) : Loaded cmds b' :=
  fun _ => hpayload ▸ h hout

theorem mem_of_onAir {b : MessageBuffer TestCarMsg} (h : Loaded cmds b)
    {p : Word8 × TestCarMsg} (hair : b.onAir = some p) : p.2 ∈ cmds := by
  obtain ⟨hout, rfl⟩ := MessageBuffer.onAir_eq hair
  exact h hout

theorem loaded_pcNode_receive {s : PcNode.State} (h : Loaded cmds s.packet) {msg : TestCarMsg}
    (hmsg : msg ∈ cmds) (sent : ErrorT) (len : Word8) :
    Loaded cmds (PcNode.receive sent len msg s).packet := by
  by_cases hlen : len = sizeofTestCarMsg
  · subst hlen
    rw [PcNode.receive_packet]
    exact fun _ => hmsg
  · rw [PcNode.receive_otherSize msg sent hlen]
    exact h

theorem loaded_relay_receive {s : Relay.State} (h : Loaded cmds s.carPacket) {msg : TestCarMsg}
    (hmsg : msg ∈ cmds) (sent : ErrorT) (len : Word8) :
    Loaded cmds (Relay.receive sent len msg s).carPacket := by
  by_cases hpasses : len = sizeofTestCarMsg ∧ Relay.threshold msg s < msg.seq
  · obtain ⟨rfl, hnew⟩ := hpasses
    intro _
    rw [Relay.receive_payload sent hnew]
    exact hmsg
  · rw [Relay.receive_carPacket sent hpasses]
    exact h

theorem obedient_receive {s : CarNode.State × List CarNode.Output} (h : Obedient cmds s)
    {msg : TestCarMsg} (hmsg : msg ∈ cmds) (hreset : msg.cmd ≠ Cmd.r_.code) (len : Word8)
    (irqs : List (List CarP.Rx)) :
    Obedient cmds ((CarNode.receive len msg irqs s.1).1,
      s.2 ++ (CarNode.receive len msg irqs s.1).2) := by
  unfold CarNode.receive
  split
  · split
    · next hnew =>
      have hobey := Unheard.obey hreset irqs { s.1 with seq := msg.seq }
      have hout : obeyed (s.2 ++ CarNode.Output.obeyed msg ::
          (CarNode.obey msg.cmd irqs { s.1 with seq := msg.seq }).2) = obeyed s.2 ++ [msg] := by
        have hcons : obeyed (CarNode.Output.obeyed msg ::
            (CarNode.obey msg.cmd irqs { s.1 with seq := msg.seq }).2) =
            msg :: obeyed (CarNode.obey msg.cmd irqs { s.1 with seq := msg.seq }).2 := rfl
        rw [obeyed_append, hcons, hobey.obeyed]
      have hlt : ∀ m ∈ obeyed s.2, m.seq < msg.seq := fun m hm => (h.below m hm).trans_lt hnew
      refine ⟨?_, ?_, ?_⟩ <;> dsimp only <;> rw [hout]
      · intro m hm
        rcases List.mem_append.mp hm with hold | hlast
        · exact h.typed m hold
        · exact List.mem_singleton.mp hlast ▸ hmsg
      · refine List.pairwise_append.mpr ⟨h.sorted, by simp, fun a ha b hb => ?_⟩
        rw [List.mem_singleton.mp hb]
        exact hlt a ha
      · intro m hm
        rw [hobey.seq]
        rcases List.mem_append.mp hm with hold | hlast
        · exact (hlt m hold).le
        · exact (congrArg TestCarMsg.seq (List.mem_singleton.mp hlast)).le
    · simpa using h
  · simpa using h

theorem obedient_unheard {s : CarNode.State × List CarNode.Output}
    {r : CarNode.State × List CarNode.Output} (h : Obedient cmds s) (hr : Unheard s.1 r) :
    Obedient cmds (r.1, s.2 ++ r.2) := by
  have hout : obeyed (s.2 ++ r.2) = obeyed s.2 := by
    rw [obeyed_append, hr.obeyed, List.append_nil]
  refine ⟨?_, ?_, ?_⟩ <;> dsimp only <;> rw [hout]
  · exact h.typed
  · exact h.sorted
  · rw [hr.seq]
    exact h.below

end Parties

theorem read_counter (c : Char) (s : Session) : (s.read c).1.counter = s.counter + 1 := by
  unfold Session.read
  dsimp only
  split <;> rfl

theorem mem_read {c : Char} {s : Session} {f : Frame} (h : f ∈ (s.read c).2) :
    ∃ cmd, keyCmd c = some cmd ∧ f = .serial sizeofTestCarMsg ⟨s.counter, cmd.code⟩ := by
  unfold Session.read at h
  dsimp only at h
  split at h
  · next cmd hkey => exact ⟨cmd, hkey, List.mem_singleton.mp h⟩
  · cases h

theorem typed_grows [DecidableEq ι] {n : ℕ} (c : Config ι) (e : Network.Event _ _) (c' : Config ι)
    (h : (network ι n).system.step c e = some c') : typed c <+: typed c' := by
  obtain ⟨v, e, s, fs, rfl, hhandle, rfl⟩ | ⟨i, v, r, u, f, rfl, -, rfl⟩ :=
    (network ι n).system_step h
  · cases v with
    | pc =>
      obtain ⟨rfl, rfl⟩ := Prod.mk.inj (Option.some.inj hhandle)
      simp [typed, typedBy]
    | pcNode | relay i | car =>
      rw [typed, typed, c.put_node_of_ne s fs (by simp)]
  · cases v with
    | pc => simp [typed, network, receive]
    | pcNode | relay i | car =>
      rw [typed, typed, Network.Config.mark_node, c.put_node_of_ne _ _ (by simp)]

theorem sound_init (n : ℕ) (all : List Char) (v : Party ι) :
    Sound n all v ((network ι n).init v) := by
  cases v with
  | pc => exact ⟨List.nil_prefix, rfl⟩
  | pcNode => exact fun h => absurd rfl h
  | relay i => exact fun h => absurd rfl h
  | car => exact ⟨by simp [network, obeyed], by simp [network, obeyed], by simp [network, obeyed]⟩

section Steps
variable {n : ℕ} {all : List Char}

/-- A party that acts stays sound and airs commands only; the PC may type no more
than the whole text. -/
theorem sound_handle {v : Party ι} {e : PartyEvent v} {s s' : PartyState v} {fs : List Frame}
    (h : Sound n all v s) (hhandle : handle v e s = some (s', fs))
    (htext : typedBy v s' <+: all) :
    Sound n all v s' ∧ ∀ f ∈ fs, Genuine (commands n all) f := by
  cases v with
  | pc =>
    obtain ⟨session, typed⟩ := s
    obtain ⟨-, hcounter⟩ := h
    obtain ⟨rfl, rfl⟩ := Prod.mk.inj (Option.some.inj hhandle)
    refine ⟨⟨htext, ?_⟩, fun f hf => ?_⟩
    · rw [read_counter, hcounter, List.length_append, List.length_singleton]
      apply Fin.ext
      simp [Fin.val_add, Nat.add_assoc]
    · obtain ⟨cmd, hkey, rfl⟩ := mem_read hf
      have hmem : (⟨session.counter, cmd.code⟩ : TestCarMsg) ∈ commands n (typed ++ [e]) := by
        rw [commands_append, hcounter]
        simp [commands, hkey]
      exact commands_prefix htext hmem
  | pcNode =>
    cases e with
    | transmit =>
      obtain ⟨p, hair, hpair⟩ := Option.map_eq_some_iff.mp hhandle
      obtain ⟨rfl, rfl⟩ := Prod.mk.inj hpair
      exact ⟨h, by simpa [Genuine] using mem_of_onAir h hair⟩
    | sendDone =>
      obtain ⟨t, hdone, hpair⟩ := Option.map_eq_some_iff.mp hhandle
      obtain ⟨rfl, rfl⟩ := Prod.mk.inj hpair
      obtain ⟨hout, hpayload⟩ := PcNode.sendDone_eq hdone
      exact ⟨loaded_of_payload h hout hpayload, by simp⟩
  | relay i =>
    obtain (_ | _) | (_ | _) := e
    · obtain ⟨p, hair, hpair⟩ := Option.map_eq_some_iff.mp hhandle
      obtain ⟨rfl, rfl⟩ := Prod.mk.inj hpair
      exact ⟨h, by simpa [Genuine] using mem_of_onAir h hair⟩
    · obtain ⟨t, hdone, hpair⟩ := Option.map_eq_some_iff.mp hhandle
      obtain ⟨rfl, rfl⟩ := Prod.mk.inj hpair
      obtain ⟨hout, packet, hpayload, rfl⟩ := Relay.sendDone_eq hdone
      exact ⟨loaded_of_payload h hout hpayload, by simp⟩
    · obtain ⟨p, -, hpair⟩ := Option.map_eq_some_iff.mp hhandle
      obtain ⟨rfl, rfl⟩ := Prod.mk.inj hpair
      exact ⟨h, by simp [Genuine]⟩
    · obtain ⟨t, hdone, hpair⟩ := Option.map_eq_some_iff.mp hhandle
      obtain ⟨rfl, rfl⟩ := Prod.mk.inj hpair
      obtain ⟨-, packet, -, rfl⟩ := Relay.dataSendDone_eq hdone
      exact ⟨h, by simp⟩
  | car =>
    cases e with
    | transmit =>
      obtain ⟨p, -, hpair⟩ := Option.map_eq_some_iff.mp hhandle
      obtain ⟨rfl, rfl⟩ := Prod.mk.inj hpair
      exact ⟨h, by simp [Genuine]⟩
    | node e =>
      obtain ⟨r, hnode, hpair⟩ := Option.map_eq_some_iff.mp hhandle
      obtain ⟨rfl, rfl⟩ := Prod.mk.inj hpair
      exact ⟨obedient_unheard h (Unheard.handle hnode), by simp⟩

/-- No party loses its soundness over a genuine frame, and none answers at once. -/
theorem sound_receive {v : Party ι} {r : PartyAnswer v} {s : PartyState v} {f : Frame}
    (h : Sound n all v s) (hf : Genuine (commands n all) f) (hreset : 'r' ∉ all) :
    Sound n all v (receive v r f s).1 ∧ (receive v r f s).2 = [] := by
  have hcmd : ∀ msg ∈ commands n all, msg.cmd ≠ Cmd.r_.code := by
    intro msg hmsg hcode
    obtain ⟨i, -, -, c, hc, cmd, hkey, hmsgcmd⟩ := mem_commands hmsg
    have hsame : cmd = .r_ := by
      have hof := Cmd.ofCode?_code cmd
      rw [← hmsgcmd, hcode, Cmd.ofCode?_code] at hof
      exact (Option.some.inj hof).symm
    rw [hsame] at hkey
    exact hreset (keyCmd_reset hkey ▸ hc)
  cases v with
  | pc => exact ⟨h, rfl⟩
  | pcNode =>
    cases f with
    | serial len msg => exact ⟨loaded_pcNode_receive h hf r len, rfl⟩
    | car len msg | data len msg => exact ⟨h, rfl⟩
  | relay i =>
    cases f with
    | serial len msg => exact ⟨h, rfl⟩
    | car len msg => exact ⟨loaded_relay_receive h hf r len, rfl⟩
    | data len msg =>
      have hpacket := Relay.dataReceive_carPacket r len msg s
      exact ⟨fun hout => hpacket ▸ h (hpacket ▸ hout), rfl⟩
  | car =>
    cases f with
    | car len msg => exact ⟨obedient_receive h hf (hcmd msg hf) len r, rfl⟩
    | serial len msg | data len msg => exact ⟨h, rfl⟩

end Steps

theorem sound_of_reachable [DecidableEq ι] {n : ℕ} {c : Config ι}
    (h : (network ι n).system.Reachable System.anyStep c) (hreset : 'r' ∉ typed c) (v : Party ι) :
    Sound n (typed c) v (c.node v) := by
  refine (Network.node_invariant (Q := fun _ f => Genuine (commands n (typed c)) f)
    (sound_init n (typed c)) ?_ ?_ (h.of_history typed_grows)).1 v
  · intro c' v e s fs hs hallowed hhandle
    apply sound_handle hs hhandle
    have htext := hallowed _ ((network ι n).system_step_act hhandle)
    cases v with
    | pc => simpa [typed] using htext
    | pcNode | relay i | car => exact List.nil_prefix
  · intro c' i v r u f hs hf _ _
    obtain ⟨hsound, hout⟩ := sound_receive (r := r) hs hf hreset
    refine ⟨hsound, ?_⟩
    rw [show ((network ι n).receive v r f (c'.node v)).2 = [] from hout]
    simp

/-- The frames the car obeys are a subsequence of the recognised keys typed, with
their numbers, whatever happens to frames and buffers on the way. -/
theorem obeyed_in_order [DecidableEq ι] (n : ℕ) (c : Config ι)
    (h : (network ι n).system.Reachable System.anyStep c)
    (hbound : n + (typed c).length < 2 ^ 31) (hreset : 'r' ∉ typed c) :
    (obeyed (c.node .car).2).Sublist (commands n (typed c)) := by
  have hcar : Obedient (commands n (typed c)) (c.node .car) := sound_of_reachable h hreset .car
  have hne : ∀ {l : List TestCarMsg}, (l.Pairwise fun a b => a.seq < b.seq) → l.Nodup :=
    fun hl => hl.imp fun hlt heq => (congrArg TestCarMsg.seq heq).not_lt hlt
  have : Std.Antisymm fun a b : TestCarMsg => a.seq < b.seq :=
    ⟨fun _ _ hab hba => absurd hab hba.not_gt⟩
  exact List.sublist_of_subperm_of_pairwise (List.subperm_of_subset (hne hcar.sorted) hcar.typed)
    hcar.sorted (commands_sorted n (typed c) hbound)

/-- One relay; the second command overwrites the packet of the first while its send
is pending, and the first is delivered to the car twice. -/
theorem obeyed_in_order_twice :
    ∃ c : Config Unit, typed c = ['w', '1'] ∧ obeyed (c.node .car).2 = [⟨1, 0⟩, ⟨2, 6⟩] ∧
      (obeyed (c.node .car).2).Sublist (commands 1 (typed c)) := by
  have hinit : (network Unit 1).system.Reachable System.anyStep _ := .init
  have hw := hinit.step (e := .act .pc 'w') trivial rfl
  have hserial := hw.step (e := .deliver 0 .pcNode ErrorT.success) trivial rfl
  have hair := hserial.step (e := .act .pcNode RadioEvent.transmit) trivial rfl
  have hquery := hair.step (e := .act .pc '1') trivial rfl
  have hrelay := hquery.step (e := .deliver 1 (.relay ()) ErrorT.success) trivial rfl
  have hrelayed := hrelay.step (e := .act (.relay ()) (RelayEvent.car .transmit)) trivial rfl
  have hcar := hrelayed.step (e := .deliver 3 .car []) trivial rfl
  have hover := hcar.step (e := .deliver 2 .pcNode ErrorT.ebusy) trivial rfl
  have hair' := hover.step (e := .act .pcNode RadioEvent.transmit) trivial rfl
  have hcar' := hair'.step (e := .deliver 4 .car []) trivial rfl
  have hlate := hcar'.step (e := .deliver 1 .car []) trivial rfl
  exact ⟨_, by decide, by decide, obeyed_in_order 1 _ hlate (by decide) (by decide)⟩

end WsnContest.CommandChain
