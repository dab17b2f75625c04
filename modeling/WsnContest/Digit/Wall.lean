import WsnContest.Digit.Pattern

/-! The digit wall: node 0 and the nodes that show its digits, on one radio. The source
rewrites its packet while the radio may be reading it, and a node relays whatever its own
packet holds by then; yet all that is ever shown are digits of the contest. -/
namespace WsnContest.Digit.Wall
open Tinyos Lib SerialToRadio RadioToLeds

/-- Node 0, or a node of the wall. -/
inductive Party (V : Type) where
  | source
  | node (v : V)
  deriving DecidableEq

variable {V : Type}

abbrev PartyState : Party V → Type
  | .source => SerialToRadio.State
  | .node _ => RadioToLeds.State

/-- A handler of the source runs, or the radio reads its packet. -/
inductive SourceEvent where
  | own (e : SerialToRadio.Event)
  | transmit
  deriving DecidableEq

/-- To a node of the wall frames come by radio only. -/
inductive NodeEvent where
  | transmit
  | sendDone
  deriving DecidableEq

def NodeEvent.event : NodeEvent → RadioToLeds.Event
  | .transmit => .transmit
  | .sendDone => .sendDone

abbrev PartyEvent : Party V → Type
  | .source => SourceEvent
  | .node _ => NodeEvent

/-- The source does not listen. -/
abbrev PartyAnswer : Party V → Type
  | .source => Unit
  | .node _ => Answers

def sourceHandle (s : SerialToRadio.State) :
    SourceEvent → Option (SerialToRadio.State × List Message)
  | .own e => (SerialToRadio.step s e).map fun r => (r.1, [])
  | .transmit => s.packet.onAir.map fun p => (s, [⟨p.1, p.2⟩])

variable (tosNodeId : V → Word16)

def handle : (p : Party V) → PartyEvent p → PartyState p →
    Option (PartyState p × List Message)
  | .source, e, s => sourceHandle s e
  | .node v, e, s => RadioToLeds.handle (tosNodeId v) e.event s

def receive : (p : Party V) → PartyAnswer p → Message → PartyState p →
    PartyState p × List Message
  | .source, (), _, s => (s, [])
  | .node v, ans, msg, s => ((RadioToLeds.receive (tosNodeId v) ans msg s).1, [])

def network : Network (Party V) PartyState PartyEvent PartyAnswer Message where
  init
    | .source => SerialToRadio.booted {}
    | .node _ => RadioToLeds.booted {}
  handle := handle tosNodeId
  receive := receive tosNodeId

abbrev Config (V : Type) := Network.Config (PartyState (V := V)) Message

/-- A frame that shows the digit of its count, or, where it was refused before or written
anew on its way, the one of the count before. -/
def IsDigit (m : TestSendMsg) : Prop :=
  ∃ j k : ℕ, (k = j ∨ k = j + 1) ∧ k ≤ sendCntSum.val ∧ m = { digit j with count := Fin.ofNat _ k }

/-- The count goes at most one ahead of the packet, and what is under way is a digit. -/
structure Sending (s : SerialToRadio.State) : Prop where
  limit : s.count ≤ sendCntSum
  behind : s.packet.payload.count.val ≤ s.count.val
  ahead : s.count.val ≤ s.packet.payload.count.val + 1
  busy : s.busy = false → s.packet.outstanding = 0
  once : s.packet.outstanding ≤ 1
  onAir : ∀ p ∈ s.packet.onAir, p.1 = sizeofTestSendMsg ∧ IsDigit p.2

theorem Sending.written {s : SerialToRadio.State} (h : Sending s) : IsDigit (written s) := by
  refine ⟨s.packet.payload.count.val, s.count.val, ?_, h.limit, ?_⟩
  · have hbehind := h.behind
    have hahead := h.ahead
    omega
  · simp [SerialToRadio.written, digit]

theorem Sending.fired {s : SerialToRadio.State} (h : Sending s) (sent : ErrorT) :
    Sending (timer0Fired sent { s with timer0 := false }).1 := by
  have hdigit : IsDigit (SerialToRadio.written { s with timer0 := false }) := h.written
  have hfiring := timer0Fired_firing sent { s with timer0 := false }
  generalize timer0Fired sent { s with timer0 := false } = r at hfiring
  cases hfiring with
  | held hheld =>
    refine ⟨h.limit, le_rfl, Nat.le_succ _, h.busy, h.once, fun p hp => ?_⟩
    obtain ⟨hout, rfl⟩ := MessageBuffer.onAir_eq hp
    have hair : s.packet.onAir = some (s.packet.length, s.packet.payload) := if_pos hout
    exact ⟨(h.onAir _ hair).1, hdigit⟩
  | accepted hbusy hcount hsent =>
    have hidle : s.packet.outstanding = 0 := h.busy hbusy
    have hroom : s.count.val < 30 := hcount
    have hnext : (s.count + 1).val = s.count.val + 1 := Fin.val_add_one_of_lt' (by omega)
    refine ⟨?_, ?_, ?_, nofun, ?_, fun p hp => ?_⟩
    · exact Fin.le_def.mpr (hnext.trans_le hroom)
    · exact (Nat.le_succ _).trans hnext.ge
    · exact hnext.le
    · exact (congrArg Nat.succ hidle).le
    · obtain ⟨-, rfl⟩ := MessageBuffer.onAir_eq hp
      exact ⟨rfl, hdigit⟩
  | refused hbusy hcount hsent =>
    have hidle : s.packet.outstanding = 0 := h.busy hbusy
    refine ⟨h.limit, le_rfl, Nat.le_succ _, h.busy, h.once, fun p hp => ?_⟩
    exact absurd hidle (MessageBuffer.onAir_eq hp).1

theorem Sending.step {s t : SerialToRadio.State} (h : Sending s) {e : SerialToRadio.Event}
    {out : List TestSendMsg} (hstep : SerialToRadio.step s e = some (t, out)) : Sending t := by
  cases e with
  | timer0Fired sent =>
    obtain ⟨-, hpair⟩ := Option.ite_none_right_eq_some.mp hstep
    have hfired := h.fired sent
    rwa [show timer0Fired sent { s with timer0 := false } = (t, out) from
      Option.some.inj hpair] at hfired
  | sendDone =>
    obtain ⟨u, hdone, hpair⟩ := Option.map_eq_some_iff.mp hstep
    obtain ⟨packet, hpacket, rfl⟩ := Option.map_eq_some_iff.mp hdone
    cases hpair
    obtain ⟨hout, rfl⟩ := MessageBuffer.done_eq hpacket
    have honce := h.once
    have hlast : s.packet.outstanding - 1 = 0 := by omega
    refine ⟨h.limit, h.behind, h.ahead, fun _ => hlast, hlast.trans_le (Nat.zero_le 1), ?_⟩
    intro p hp
    exact absurd hlast (MessageBuffer.onAir_eq hp).1
  | serialReceive msg =>
    cases hstep
    exact ⟨h.limit, h.behind, h.ahead, h.busy, h.once, h.onAir⟩

theorem sending_init : Sending (SerialToRadio.booted {}) := by
  refine ⟨?_, le_rfl, Nat.zero_le 1, fun _ => rfl, Nat.zero_le 1, nofun⟩
  decide

/-- What a node of the wall should show of a digit: its dot of it, in the color. -/
def dot (tosNodeId : Word16) (number : Fin 10) (color : Fin 3) : Leds :=
  let on := decide (((tosNodeId.val % 64 : ℕ) : ℤ) ∈ Dec2bin.digits.get number)
  ⟨on && color.val = 0, on && color.val = 1, on && color.val = 2⟩

/-- The digit of the contest that has the number `k`, and its color. -/
def numberOf (k : ℕ) : Fin 10 := ⟨9 - k % 10, by omega⟩

def colorOf (k : ℕ) : Fin 3 := ⟨2 - k % 3, by omega⟩

theorem digit_number (k : ℕ) : (digit k).number.val = (numberOf k).val := by
  have hlookup : ∀ i < 10, (numberArray.getD i 0).val = 9 - i := by decide
  exact hlookup (k % 10) (Nat.mod_lt k (by decide))

theorem digit_color (k : ℕ) : (digit k).color.val = (colorOf k).val := by
  have hlookup : ∀ i < 3, (colorArray.getD i 0).val = 2 - i := by decide
  exact hlookup (k % 3) (Nat.mod_lt k (by decide))

theorem shine_color (on : Bool) {color : Word8} {c : Fin 3} (h : color.val = c.val) :
    shine on color = ⟨on && c.val = 0, on && c.val = 1, on && c.val = 2⟩ := by
  have hcolors : ∀ on : Bool, ∀ c : Fin 3,
      shine on ⟨c.val, c.isLt.trans (by decide)⟩ =
        ⟨on && c.val = 0, on && c.val = 1, on && c.val = 2⟩ := by
    decide
  rw [← hcolors on c]
  exact congrArg (shine on) (Fin.ext h)

/-- For a digit of the contest the decision reads inside the table. -/
theorem shine_digit (tosNodeId : Word16) (k : ℕ) (beyond : Word16) :
    shine (lit tosNodeId (digit k).number beyond) (digit k).color =
      dot tosNodeId (numberOf k) (colorOf k) := by
  have hnumber := digit_number k
  have hlit := Dec2bin.lit_digit tosNodeId (hnumber.trans_lt (numberOf k).isLt) beyond
  have hon : lit tosNodeId (digit k).number beyond =
      decide (((tosNodeId.val % 64 : ℕ) : ℤ) ∈ Dec2bin.digits.get (numberOf k)) := by
    rw [Bool.eq_iff_iff, decide_eq_true_iff, hlit]
    simp only [hnumber]
    rfl
  rw [shine_color _ (digit_color k), hon]
  rfl

theorem receive_packet (tosNodeId : Word16) (ans : Answers) (msg : Message)
    (s : RadioToLeds.State) : (RadioToLeds.receive tosNodeId ans msg s).1.packet = msg := by
  unfold RadioToLeds.receive
  dsimp only
  split_ifs <;> rfl

theorem receive_leds (tosNodeId : Word16) (ans : Answers) {msg : Message}
    (hlen : msg.length = sizeofTestSendMsg) (s : RadioToLeds.State) :
    (RadioToLeds.receive tosNodeId ans msg s).1.leds =
      shine (lit tosNodeId msg.payload.number ans.beyond) msg.payload.color := by
  unfold RadioToLeds.receive
  dsimp only
  rw [if_pos hlen]
  split_ifs <;> rfl

/-- The node shows, and holds in its packet, one of the frames. -/
def Shows (tosNodeId : Word16) (frames : Message → Prop) (s : RadioToLeds.State) : Prop :=
  frames s.packet ∧ ∃ j k : ℕ, (k = j ∨ k = j + 1) ∧ k ≤ sendCntSum.val ∧
    s.packet = ⟨sizeofTestSendMsg, { digit j with count := Fin.ofNat _ k }⟩ ∧
    s.leds = dot tosNodeId (numberOf j) (colorOf j)

theorem Shows.receive {tosNodeId : Word16} {frames : Message → Prop} {msg : Message}
    (hlen : msg.length = sizeofTestSendMsg) (hdigit : IsDigit msg.payload) (haired : frames msg)
    (ans : Answers) (s : RadioToLeds.State) :
    Shows tosNodeId frames (RadioToLeds.receive tosNodeId ans msg s).1 := by
  obtain ⟨j, k, hnear, hlimit, hpayload⟩ := hdigit
  obtain ⟨length, payload⟩ := msg
  obtain rfl : length = sizeofTestSendMsg := hlen
  obtain rfl : payload = { digit j with count := Fin.ofNat _ k } := hpayload
  refine ⟨(receive_packet ..).symm ▸ haired, j, k, hnear, hlimit, receive_packet .., ?_⟩
  rw [receive_leds tosNodeId ans rfl]
  exact shine_digit tosNodeId j ans.beyond

/-- The frames that the source has put on the air. -/
def aired (c : Config V) (msg : Message) : Prop := (.source, msg) ∈ c.log

/-- All that is on the air is as the source sent it, and every node that has received a
frame shows one of these; the others are dark. -/
structure Faithful (c : Config V) : Prop where
  source : Sending (c.node .source)
  log : ∀ p msg, (p, msg) ∈ c.log →
    msg.length = sizeofTestSendMsg ∧ IsDigit msg.payload ∧ aired c msg
  node : ∀ v, Shows (tosNodeId v) (aired c) (c.node (.node v)) ∨
    (∀ i, (i, .node v) ∉ c.delivered) ∧ (c.node (.node v)).leds = {} ∧
      (c.node (.node v)).outstanding = 0

theorem Shows.mono {tosNodeId : Word16} {frames more : Message → Prop} {s t : RadioToLeds.State}
    (h : Shows tosNodeId frames s) (hmore : ∀ msg, frames msg → more msg)
    (hpacket : t.packet = s.packet) (hleds : t.leds = s.leds) : Shows tosNodeId more t := by
  obtain ⟨hframe, j, k, hnear, hlimit, hholds, hshown⟩ := h
  refine ⟨?_, j, k, hnear, hlimit, hpacket.trans hholds, hleds.trans hshown⟩
  rw [hpacket]
  exact hmore _ hframe

variable {tosNodeId} [DecidableEq V] {c c' : Config V}

theorem aired_put (p : Party V) (s : PartyState p) (fs : List Message) (msg : Message)
    (h : aired c msg) : aired (c.put p s fs) msg :=
  List.mem_append_left _ h

/-- The source moves on, and whatever it sends is a digit. -/
theorem Faithful.sourceStep (h : Faithful tosNodeId c) {s : SerialToRadio.State}
    {fs : List Message} (hs : Sending s)
    (hfs : ∀ msg ∈ fs, msg.length = sizeofTestSendMsg ∧ IsDigit msg.payload) :
    Faithful tosNodeId (c.put .source s fs) := by
  refine ⟨?_, fun p msg hmem => ?_, fun v => ?_⟩
  · rwa [c.put_node_self]
  · rcases Network.Config.mem_put_log.mp hmem with hold | ⟨-, hnew⟩
    · obtain ⟨hlen, hdigit, hsent⟩ := h.log p msg hold
      exact ⟨hlen, hdigit, aired_put _ _ _ _ hsent⟩
    · obtain ⟨hlen, hdigit⟩ := hfs msg hnew
      exact ⟨hlen, hdigit, Network.Config.mem_put_log.mpr (.inr ⟨rfl, hnew⟩)⟩
  · rw [c.put_node_of_ne s fs (nofun : Party.node v ≠ .source)]
    exact (h.node v).imp_left fun hshows => hshows.mono (aired_put _ _ _) rfl rfl

/-- A node of the wall moves on; what it sends is on the air already. -/
theorem Faithful.nodeStep (h : Faithful tosNodeId c) {v : V} {s : RadioToLeds.State}
    {fs : List Message} (hs : Shows (tosNodeId v) (aired c) s)
    (hfs : ∀ msg ∈ fs, msg.length = sizeofTestSendMsg ∧ IsDigit msg.payload ∧ aired c msg) :
    Faithful tosNodeId (c.put (.node v) s fs) := by
  refine ⟨?_, fun p msg hmem => ?_, fun w => ?_⟩
  · rw [c.put_node_of_ne (v := .node v) s fs (nofun : Party.source ≠ .node v)]
    exact h.source
  · obtain ⟨hlen, hdigit, hsent⟩ := (Network.Config.mem_put_log.mp hmem).elim (h.log p msg)
      fun hnew => hfs msg hnew.2
    exact ⟨hlen, hdigit, aired_put _ _ _ _ hsent⟩
  · by_cases hw : w = v
    · subst hw
      rw [c.put_node_self]
      exact .inl (hs.mono (aired_put _ _ _) rfl rfl)
    · rw [c.put_node_of_ne (v := .node v) s fs (fun heq => hw (Party.node.inj heq))]
      exact (h.node w).imp_left fun hshows => hshows.mono (aired_put _ _ _) rfl rfl

theorem Faithful.mark (h : Faithful tosNodeId c) (i : ℕ) {p : Party V}
    (hshows : ∀ v, p = .node v → Shows (tosNodeId v) (aired c) (c.node (.node v))) :
    Faithful tosNodeId (c.mark i p) := by
  refine ⟨h.source, h.log, fun v => ?_⟩
  by_cases hv : p = .node v
  · exact .inl (hshows v hv)
  · refine (h.node v).imp_right fun ⟨hnew, hdark⟩ => ⟨fun j hj => ?_, hdark⟩
    rcases List.mem_append.mp hj with hold | hlast
    · exact hnew j hold
    · exact hv (Prod.mk.inj (List.mem_singleton.mp hlast)).2.symm

theorem faithful_step {e : Network.Event (PartyEvent (V := V)) PartyAnswer}
    (h : Faithful tosNodeId c) (hstep : (network tosNodeId).system.step c e = some c') :
    Faithful tosNodeId c' := by
  obtain ⟨p, e, s, fs, rfl, hhandle, rfl⟩ | ⟨i, p, ans, u, msg, rfl, hi, rfl⟩ :=
    Network.system_step _ hstep
  · cases p with
    | source =>
      cases e with
      | own e =>
        obtain ⟨r, hown, hpair⟩ := Option.map_eq_some_iff.mp hhandle
        obtain ⟨rfl, rfl⟩ := Prod.mk.inj hpair
        exact h.sourceStep (h.source.step hown) nofun
      | transmit =>
        obtain ⟨q, hair, hpair⟩ := Option.map_eq_some_iff.mp hhandle
        obtain ⟨rfl, rfl⟩ := Prod.mk.inj hpair
        refine h.sourceStep h.source fun msg hmsg => ?_
        rw [List.mem_singleton.mp hmsg]
        exact h.source.onAir q hair
    | node v =>
      cases e with
      | transmit =>
        obtain ⟨hout, hpair⟩ := Option.ite_none_right_eq_some.mp hhandle
        obtain ⟨rfl, rfl⟩ := Prod.mk.inj (Option.some.inj hpair)
        rcases h.node v with hshows | ⟨-, -, hidle⟩
        · refine h.nodeStep hshows fun msg hmsg => ?_
          rw [List.mem_singleton.mp hmsg]
          exact h.log _ _ hshows.1
        · exact absurd hidle hout
      | sendDone =>
        obtain ⟨hout, hpair⟩ := Option.ite_none_right_eq_some.mp hhandle
        obtain ⟨rfl, rfl⟩ := Prod.mk.inj (Option.some.inj hpair)
        rcases h.node v with hshows | ⟨-, -, hidle⟩
        · exact h.nodeStep (hshows.mono (fun _ => id) rfl rfl) nofun
        · exact absurd hidle hout
  · obtain ⟨hlen, hdigit, hsent⟩ := h.log u msg (List.mem_of_getElem? hi)
    cases p with
    | source =>
      have hput : Faithful tosNodeId (c.put .source (c.node .source) []) :=
        h.sourceStep h.source nofun
      exact hput.mark i fun v hv => (nomatch hv)
    | node v =>
      have hshows : Shows (tosNodeId v) (aired c)
          (RadioToLeds.receive (tosNodeId v) ans msg (c.node (.node v))).1 :=
        Shows.receive hlen hdigit hsent ans _
      have hput : Faithful tosNodeId (c.put (.node v)
          (RadioToLeds.receive (tosNodeId v) ans msg (c.node (.node v))).1 []) :=
        h.nodeStep hshows nofun
      refine hput.mark i fun w hw => ?_
      obtain rfl := Party.node.inj hw
      rw [c.put_node_self]
      exact hshows.mono (aired_put _ _ _) rfl rfl

theorem faithful_of_reachable (h : (network tosNodeId).system.Reachable System.anyStep c) :
    Faithful tosNodeId c := by
  refine h.invariant (P := Faithful tosNodeId) ?_ fun _ _ _ hc _ hstep => faithful_step hc hstep
  exact ⟨sending_init, nofun, fun v => .inr ⟨nofun, rfl, rfl⟩⟩

/-- Whatever the radio loses, repeats, reorders or overwrites: every frame on the air is one
that the source has sent, with a digit of the contest; and every node of the wall is dark
until its first frame, and then shows its dot of a digit that the source has sent. -/
theorem wall_shows_digits (h : (network tosNodeId).system.Reachable System.anyStep c) :
    (∀ p msg, (p, msg) ∈ c.log → (.source, msg) ∈ c.log ∧ IsDigit msg.payload) ∧
    ∀ v,
      (∀ i, (i, .node v) ∉ c.delivered) ∧ (c.node (.node v)).leds = {} ∨
      ∃ msg, (.source, msg) ∈ c.log ∧ ∃ j k : ℕ, (k = j ∨ k = j + 1) ∧ k ≤ sendCntSum.val ∧
        msg.payload = { digit j with count := Fin.ofNat _ k } ∧
        (c.node (.node v)).leds = dot (tosNodeId v) (numberOf j) (colorOf j) := by
  have hfaithful := faithful_of_reachable h
  refine ⟨fun p msg hmem => ?_, fun v => ?_⟩
  · obtain ⟨-, hdigit, hsent⟩ := hfaithful.log p msg hmem
    exact ⟨hsent, hdigit⟩
  · rcases hfaithful.node v with ⟨hsent, j, k, hnear, hlimit, hholds, hshown⟩ | ⟨hnew, hdark, -⟩
    · exact .inr ⟨_, hsent, j, k, hnear, hlimit, congrArg Message.payload hholds, hshown⟩
    · exact .inl ⟨hnew, hdark⟩

/-- The first digit is on its way when the timer writes the count of the second one over it;
one node of the wall hears it from the other. -/
theorem wall_shows_digits_pair : ∃ c : Config Bool,
    c.log = [(.source, ⟨3, ⟨9, 2, 1⟩⟩), (.node false, ⟨3, ⟨9, 2, 1⟩⟩)] ∧
      (c.node (.node true)).leds = ⟨false, false, true⟩ ∧
      ∃ j k : ℕ, (k = j ∨ k = j + 1) ∧
        (c.node (.node true)).leds = dot 21 (numberOf j) (colorOf j) := by
  have hinit : (network fun v : Bool => if v then 21 else 11).system.Reachable
    Lib.System.anyStep _ := .init
  have hfired := hinit.step (e := .act .source (.own (.timer0Fired .success))) trivial rfl
  have hagain := hfired.step (e := .act .source (.own (.timer0Fired .success))) trivial rfl
  have hsent := hagain.step (e := .act .source .transmit) trivial rfl
  have hheard := hsent.step (e := .deliver 0 (.node false) ⟨.success, 0⟩) trivial rfl
  have hrelayed := hheard.step (e := .act (.node false) .transmit) trivial rfl
  have hshown := hrelayed.step (e := .deliver 1 (.node true) ⟨.success, 0⟩) trivial rfl
  rcases (wall_shows_digits hshown).2 true with ⟨hnone, -⟩ | ⟨_, -, j, k, hnear, -, -, hleds⟩
  · exact absurd (by decide) (hnone 1)
  · exact ⟨_, rfl, rfl, j, k, hnear, hleds⟩

end WsnContest.Digit.Wall
