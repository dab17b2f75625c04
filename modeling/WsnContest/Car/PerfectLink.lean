import WsnContest.Car.Reset

/-! The keyboard and the car over a perfect link: every frame is delivered once, and
nothing is typed before the last command has arrived. Then the car obeys what it can
as numbered: each command whose number exceeds the one before, counting from 0 at
the start and after a reset. A counter that starts at 0 loses the first key. -/
namespace WsnContest.PerfectLink
open Tinyos Lib Car CommandChain Reset

/-- No relays. -/
abbrev Link := Config Empty

/-- Who does something with a frame. -/
def addressee : Frame → Option (Party Empty)
  | .serial _ _ => some .pcNode
  | .car _ _ => some .car
  | .data _ _ => none

/-- The `k`-th frame of the log is for `v` and has not reached it. -/
def Underway (c : Link) (k : ℕ) (f : Frame) (v : Party Empty) : Prop :=
  (∃ u, c.log[k]? = some (u, f)) ∧ addressee f = some v ∧ (k, v) ∉ c.delivered

def sentBy (v : Party Empty) (c : Link) : ℕ := c.log.countP fun entry => entry.1 = v

/-- The last command has been sent, transmitted, acknowledged and delivered. -/
structure Settled (c : Link) : Prop where
  arrived : ∀ k f v, ¬ Underway c k f v
  transmitted : sentBy .pcNode c = sentBy .pc c
  done : (c.node .pcNode).packet.outstanding = 0

/-- A key is typed when all is settled, a send is accepted, transmitted once and then
acknowledged, and a frame is delivered once to each party. -/
def Perfect (c : Link) : Network.Event (PartyEvent (ι := Empty)) PartyAnswer → Prop
  | .act .pc _ => Settled c
  | .act .pcNode .transmit => sentBy .pcNode c < sentBy .pc c
  | .act .pcNode .sendDone => sentBy .pcNode c = sentBy .pc c
  | .deliver k .pcNode sent => (k, .pcNode) ∉ c.delivered ∧ sent = .success
  | .deliver k .car _ => (k, .car) ∉ c.delivered
  | _ => True

/-- What a car obeys of the frames that reach it. -/
def obeyedOf (msgs : List TestCarMsg) : List TestCarMsg :=
  msgs.foldl (fun done msg => if floor done < msg.seq then done ++ [msg] else done) []

/-- Each number exceeds the one before it, 0 at the start and after a reset. -/
def Growing (msgs : List TestCarMsg) : Prop :=
  ∀ before msg rest, msgs = before ++ msg :: rest → floor before < msg.seq

theorem obeyedOf_append (msgs : List TestCarMsg) (msg : TestCarMsg) :
    obeyedOf (msgs ++ [msg]) =
      if floor (obeyedOf msgs) < msg.seq then obeyedOf msgs ++ [msg] else obeyedOf msgs := by
  rw [obeyedOf, List.foldl_append]
  rfl

theorem length_obeyedOf_le (msgs : List TestCarMsg) : (obeyedOf msgs).length ≤ msgs.length := by
  induction msgs using List.reverseRecOn with
  | nil => exact le_rfl
  | append_singleton msgs msg ih =>
    rw [obeyedOf_append, List.length_append]
    split
    · simpa using ih
    · exact ih.trans (Nat.le_add_right _ _)

theorem growing_append {msgs : List TestCarMsg} {msg : TestCarMsg} :
    Growing (msgs ++ [msg]) ↔ Growing msgs ∧ floor msgs < msg.seq :=
  inOrder_append_one

/-- Nothing is lost exactly if the numbers grow. -/
theorem obeyedOf_eq_self_iff (msgs : List TestCarMsg) : obeyedOf msgs = msgs ↔ Growing msgs := by
  induction msgs using List.reverseRecOn with
  | nil => exact iff_of_true rfl fun before msg rest heq => by simp at heq
  | append_singleton msgs msg ih =>
    rw [growing_append, obeyedOf_append, ← ih]
    constructor
    · intro h
      split at h
      · next hnew =>
        have hmsgs := (List.append_inj' h rfl).1
        exact ⟨hmsgs, hmsgs ▸ hnew⟩
      · have hlength := length_obeyedOf_le msgs
        rw [h, List.length_append, List.length_singleton] at hlength
        omega
    · rintro ⟨hmsgs, hnew⟩
      rw [hmsgs, if_pos hnew]

section Underway
variable {c : Link}

theorem underway_put (hpast : ∀ p ∈ c.delivered, p.1 < c.log.length) (u : Party Empty)
    (s : PartyState u) (f : Frame) {k : ℕ} {g : Frame} {v : Party Empty} :
    Underway (c.put u s [f]) k g v ↔
      Underway c k g v ∨ k = c.log.length ∧ g = f ∧ addressee f = some v := by
  have hlog : (∃ w, (c.put u s [f]).log[k]? = some (w, g)) ↔
      (∃ w, c.log[k]? = some (w, g)) ∨ k = c.log.length ∧ g = f := by
    rw [c.put_log]
    rcases lt_trichotomy k c.log.length with hlt | rfl | hgt
    · rw [List.getElem?_append_left hlt]
      simp [hlt.ne]
    · simp [eq_comm]
    · rw [List.getElem?_eq_none (by simp; omega), List.getElem?_eq_none hgt.le]
      simp [hgt.ne']
  unfold Underway
  rw [hlog, Network.Config.put_delivered]
  constructor
  · rintro ⟨hold | ⟨rfl, rfl⟩, hv, hnew⟩
    · exact .inl ⟨hold, hv, hnew⟩
    · exact .inr ⟨rfl, rfl, hv⟩
  · rintro (⟨hold, hv, hnew⟩ | ⟨rfl, rfl, hv⟩)
    · exact ⟨.inl hold, hv, hnew⟩
    · exact ⟨.inr ⟨rfl, rfl⟩, hv, fun hmem => lt_irrefl _ (hpast _ hmem)⟩

theorem underway_put_nil (u : Party Empty) (s : PartyState u) {k : ℕ} {g : Frame}
    {v : Party Empty} : Underway (c.put u s []) k g v ↔ Underway c k g v := by
  simp [Underway]

theorem underway_mark (l : ℕ) (w : Party Empty) {k : ℕ} {g : Frame} {v : Party Empty} :
    Underway (c.mark l w) k g v ↔ Underway c k g v ∧ ¬ (k = l ∧ v = w) := by
  simp [Underway, and_assoc]

end Underway

/-- Where the last command is: nowhere, on the serial line, in the packet of the mote,
or on the air. -/
inductive Stage where
  | rest
  | line (msg : TestCarMsg)
  | held (msg : TestCarMsg)
  | air (msg : TestCarMsg)

namespace Stage

def frame? : Stage → Option Frame
  | line msg => some (.serial sizeofTestCarMsg msg)
  | air msg => some (.car sizeofTestCarMsg msg)
  | _ => none

def msgs : Stage → List TestCarMsg
  | rest => []
  | line msg | held msg | air msg => [msg]

/-- The commands typed and not yet on the air. -/
def behind : Stage → ℕ
  | rest | air _ => 0
  | line _ | held _ => 1

/-- What the mote of the PC has in its packet. -/
def Packet : Stage → MessageBuffer TestCarMsg → Prop
  | line _, b => b.outstanding = 0
  | held msg, b => b.outstanding ≠ 0 ∧ b.payload = msg ∧ b.length = sizeofTestCarMsg
  | _, _ => True

end Stage

/-- At most one command is between the keyboard and the car. -/
structure Staged (n : ℕ) (c : Link) (stage : Stage) (arrived : List TestCarMsg) : Prop where
  counter : (c.node .pc).1.counter = Fin.ofNat _ (n + (typed c).length)
  past : ∀ p ∈ c.delivered, p.1 < c.log.length
  underway : ∃ l, ∀ k f v, Underway c k f v ↔
    k = l ∧ stage.frame? = some f ∧ addressee f = some v
  transmitted : sentBy .pcNode c + stage.behind = sentBy .pc c
  packet : stage.Packet (c.node .pcNode).packet
  commands : commands n (typed c) = arrived ++ stage.msgs
  obeyed : obeyed (c.node .car).2 = obeyedOf arrived
  seq : (c.node .car).1.seq = floor (CommandChain.obeyed (c.node .car).2)

theorem sentBy_put (v u : Party Empty) (c : Link) (s : PartyState u) (fs : List Frame) :
    sentBy v (c.put u s fs) = sentBy v c + if u = v then fs.length else 0 := by
  unfold sentBy
  rw [c.put_log, List.countP_append, List.countP_map]
  split
  · next h => simp [h, Function.comp_def]
  · next h => simp [h, Function.comp_def]

section Steps
variable {n : ℕ} {c : Link} {stage : Stage} {arrived : List TestCarMsg}

theorem staged_init (n : ℕ) : Staged n (network Empty n).system.init .rest [] := by
  refine ⟨rfl, by simp [Network.system], ⟨0, fun k f v => ?_⟩, rfl, trivial, rfl, rfl, rfl⟩
  simp [Underway, Network.system, Stage.frame?]

theorem Staged.rest_of_settled (h : Staged n c stage arrived) (hsettled : Settled c) :
    stage = .rest := by
  obtain ⟨l, hl⟩ := h.underway
  have hsent := h.transmitted
  rw [hsettled.transmitted] at hsent
  cases stage with
  | rest => rfl
  | line msg | held msg => simp [Stage.behind] at hsent
  | air msg => exact absurd ((hl l _ .car).mpr ⟨rfl, rfl, rfl⟩) (hsettled.arrived l _ .car)

/-- The frame that is delivered to its addressee is the one that is underway. -/
theorem Staged.frame_of_deliver (h : Staged n c stage arrived) {k : ℕ} {u v : Party Empty}
    {f : Frame} (hk : c.log[k]? = some (u, f)) (hv : addressee f = some v)
    (hnew : (k, v) ∉ c.delivered) :
    stage.frame? = some f ∧ ∀ l g w, ¬ Underway (c.mark k v) l g w := by
  obtain ⟨l, hl⟩ := h.underway
  obtain ⟨rfl, hframe, -⟩ := (hl k f v).mp ⟨⟨u, hk⟩, hv, hnew⟩
  refine ⟨hframe, fun m g w hunder => ?_⟩
  obtain ⟨hunder, hother⟩ := (underway_mark _ _).mp hunder
  obtain ⟨rfl, hg, hw⟩ := (hl m g w).mp hunder
  obtain rfl : f = g := Option.some.inj (hframe.symm.trans hg)
  exact hother ⟨rfl, Option.some.inj (hw.symm.trans hv)⟩

/-- A step that is not about the last command. -/
theorem Staged.keep (h : Staged n c stage arrived) {c' : Link} (hpc : c'.node .pc = c.node .pc)
    (hpacket : stage.Packet (c'.node .pcNode).packet)
    (hobeyed : CommandChain.obeyed (c'.node .car).2 = CommandChain.obeyed (c.node .car).2)
    (hseq : (c'.node .car).1.seq = (c.node .car).1.seq)
    (hpast : ∀ p ∈ c'.delivered, p.1 < c'.log.length)
    (hunderway : ∀ k f v, Underway c' k f v ↔ Underway c k f v)
    (hpcSent : sentBy .pc c' = sentBy .pc c)
    (hnodeSent : sentBy .pcNode c' = sentBy .pcNode c) : Staged n c' stage arrived := by
  have htyped : typed c' = typed c := congrArg Prod.snd hpc
  obtain ⟨l, hl⟩ := h.underway
  refine ⟨?_, hpast, ⟨l, fun k f v => (hunderway k f v).trans (hl k f v)⟩, ?_, hpacket, ?_, ?_, ?_⟩
  · rw [hpc, htyped]
    exact h.counter
  · rw [hpcSent, hnodeSent]
    exact h.transmitted
  · rw [htyped]
    exact h.commands
  · rw [hobeyed]
    exact h.obeyed
  · rw [hobeyed, hseq]
    exact h.seq

theorem read_frames (ch : Char) (s : Session) :
    (s.read ch).2 =
      ((keyCmd ch).map fun cmd => Frame.serial sizeofTestCarMsg ⟨s.counter, cmd.code⟩).toList := by
  unfold Session.read
  dsimp only
  split
  · next cmd hkey => rw [hkey]; rfl
  · next hkey => rw [hkey]; rfl

/-- The PC has read a key and sent `fs`. -/
def press (c : Link) (ch : Char) (fs : List Frame) : Link :=
  c.put .pc (((c.node .pc).1.read ch).1, typed c ++ [ch]) fs

section Press
variable (c : Link) (ch : Char) (fs : List Frame)

@[simp] theorem typed_press : typed (press c ch fs) = typed c ++ [ch] := by
  simp [press, typed, typedBy]

@[simp] theorem counter_press :
    ((press c ch fs).node .pc).1.counter = (c.node .pc).1.counter + 1 := by
  rw [press, Network.Config.put_node_self, read_counter]

@[simp] theorem pcNode_press : (press c ch fs).node .pcNode = c.node .pcNode :=
  c.put_node_of_ne _ fs (by simp)

@[simp] theorem car_press : (press c ch fs).node .car = c.node .car :=
  c.put_node_of_ne _ fs (by simp)

@[simp] theorem sentBy_pcNode_press : sentBy .pcNode (press c ch fs) = sentBy .pcNode c := by
  rw [press, sentBy_put, if_neg (by simp), Nat.add_zero]

@[simp] theorem sentBy_pc_press : sentBy .pc (press c ch fs) = sentBy .pc c + fs.length := by
  rw [press, sentBy_put, if_pos rfl]

end Press

section Put
variable (c : Link) (fs : List Frame)

@[simp] theorem pc_put_pcNode (s : PcNode.State) :
    (c.put .pcNode s fs).node .pc = c.node .pc :=
  Network.Config.put_node_of_ne (v := .pcNode) c s fs (by simp)

@[simp] theorem car_put_pcNode (s : PcNode.State) :
    (c.put .pcNode s fs).node .car = c.node .car :=
  Network.Config.put_node_of_ne (v := .pcNode) c s fs (by simp)

@[simp] theorem pc_put_car (s : CarNode.State × List CarNode.Output) :
    (c.put .car s fs).node .pc = c.node .pc :=
  Network.Config.put_node_of_ne (v := .car) c s fs (by simp)

@[simp] theorem pcNode_put_car (s : CarNode.State × List CarNode.Output) :
    (c.put .car s fs).node .pcNode = c.node .pcNode :=
  Network.Config.put_node_of_ne (v := .car) c s fs (by simp)

@[simp] theorem typed_put_pcNode (s : PcNode.State) : typed (c.put .pcNode s fs) = typed c := by
  rw [typed, typed, pc_put_pcNode]

@[simp] theorem typed_put_car (s : CarNode.State × List CarNode.Output) :
    typed (c.put .car s fs) = typed c := by
  rw [typed, typed, pc_put_car]

@[simp] theorem typed_mark (k : ℕ) (v : Party Empty) : typed (c.mark k v) = typed c := rfl

end Put

theorem underway_first (hpast : ∀ p ∈ c.delivered, p.1 < c.log.length)
    (hnone : ∀ k f v, ¬ Underway c k f v) (u : Party Empty) (s : PartyState u) (f : Frame)
    (k : ℕ) (g : Frame) (v : Party Empty) :
    Underway (c.put u s [f]) k g v ↔
      k = c.log.length ∧ some f = some g ∧ addressee g = some v := by
  rw [underway_put hpast, or_iff_right (hnone k g v), Option.some_inj]
  apply and_congr_right
  rintro -
  constructor
  · rintro ⟨rfl, hv⟩
    exact ⟨rfl, hv⟩
  · rintro ⟨rfl, hv⟩
    exact ⟨rfl, hv⟩

theorem Staged.counter_next (h : Staged n c stage arrived) (ch : Char) (fs : List Frame) :
    ((press c ch fs).node .pc).1.counter =
      Fin.ofNat _ (n + (typed (press c ch fs)).length) := by
  rw [counter_press, typed_press, h.counter]
  apply Fin.ext
  simp [Fin.val_add, Nat.add_assoc]

theorem Staged.key_none (h : Staged n c .rest arrived) {ch : Char} (hkey : keyCmd ch = none) :
    Staged n (press c ch []) .rest arrived := by
  have hsent := h.transmitted
  obtain ⟨l, hl⟩ := h.underway
  refine ⟨h.counter_next ch _, Network.Config.past_put h.past _ _ _,
    ⟨l, fun k f v => ?_⟩, ?_, trivial, ?_, ?_, ?_⟩
  · rw [press, underway_put_nil]
    exact hl k f v
  · simpa using hsent
  · rw [typed_press, commands_append, h.commands]
    simp [CommandChain.commands, hkey, Stage.msgs]
  · rw [car_press]
    exact h.obeyed
  · rw [car_press]
    exact h.seq

theorem Staged.key_some (h : Staged n c .rest arrived)
    (hdone : (c.node .pcNode).packet.outstanding = 0) {ch : Char} {cmd : Cmd}
    (hkey : keyCmd ch = some cmd) :
    Staged n (press c ch [.serial sizeofTestCarMsg ⟨(c.node .pc).1.counter, cmd.code⟩])
      (.line ⟨(c.node .pc).1.counter, cmd.code⟩) arrived := by
  have hsent := h.transmitted
  obtain ⟨l, hl⟩ := h.underway
  have hnone : ∀ k f v, ¬ Underway c k f v := by simp [hl, Stage.frame?]
  refine ⟨h.counter_next ch _, Network.Config.past_put h.past _ _ _,
    ⟨c.log.length, underway_first h.past hnone .pc _ _⟩, ?_, ?_, ?_, ?_, ?_⟩
  · simpa [Stage.behind] using hsent
  · rw [pcNode_press]
    exact hdone
  · rw [typed_press, commands_append, h.commands]
    simp [CommandChain.commands, hkey, Stage.msgs, h.counter]
  · rw [car_press]
    exact h.obeyed
  · rw [car_press]
    exact h.seq

theorem Staged.key (h : Staged n c stage arrived) (hsettled : Settled c) (ch : Char) :
    ∃ stage' arrived', Staged n (press c ch ((c.node .pc).1.read ch).2) stage' arrived' := by
  obtain rfl := h.rest_of_settled hsettled
  rw [read_frames]
  cases hkey : keyCmd ch with
  | none => exact ⟨_, _, h.key_none hkey⟩
  | some cmd => exact ⟨_, _, h.key_some hsettled.done hkey⟩

theorem Staged.transmit_held {msg : TestCarMsg} (h : Staged n c (.held msg) arrived) :
    Staged n (c.put .pcNode (c.node .pcNode) [.car sizeofTestCarMsg msg]) (.air msg) arrived := by
  have hsent := h.transmitted
  obtain ⟨l, hl⟩ := h.underway
  have hnone : ∀ k f v, ¬ Underway c k f v := by simp [hl, Stage.frame?]
  refine ⟨?_, Network.Config.past_put h.past _ _ _,
    ⟨c.log.length, underway_first h.past hnone .pcNode _ _⟩, ?_, trivial, ?_, ?_, ?_⟩
  · rw [pc_put_pcNode, typed_put_pcNode]
    exact h.counter
  · simpa [sentBy_put, Stage.behind] using hsent
  · rw [typed_put_pcNode]
    exact h.commands
  · rw [car_put_pcNode]
    exact h.obeyed
  · rw [car_put_pcNode]
    exact h.seq

theorem onAir_of_held {msg : TestCarMsg} (h : Staged n c (.held msg) arrived) :
    (c.node .pcNode).packet.onAir = some (sizeofTestCarMsg, msg) := by
  obtain ⟨hout, hpayload, hlength⟩ := h.packet
  rw [MessageBuffer.onAir, if_pos hout, hpayload, hlength]

theorem Staged.transmit (h : Staged n c stage arrived) (hless : sentBy .pcNode c < sentBy .pc c)
    {p : Word8 × TestCarMsg} (hair : (c.node .pcNode).packet.onAir = some p) :
    ∃ stage' arrived',
      Staged n (c.put .pcNode (c.node .pcNode) [.car p.1 p.2]) stage' arrived' := by
  have hsent := h.transmitted
  cases stage with
  | rest | air msg => simp [Stage.behind, hless.ne] at hsent
  | line msg => exact absurd h.packet (Option.ite_none_right_eq_some.mp hair).1
  | held msg =>
    obtain rfl := Option.some.inj ((onAir_of_held h).symm.trans hair)
    exact ⟨_, _, h.transmit_held⟩

/-- A `sendDone` comes when the last command is on the air or has arrived. -/
theorem Staged.sendDone (h : Staged n c stage arrived)
    (heq : sentBy .pcNode c = sentBy .pc c) (s : PcNode.State) :
    Staged n (c.put .pcNode s []) stage arrived := by
  have hsent := h.transmitted
  have hpacket : stage.Packet s.packet := by
    cases stage with
    | rest | air msg => trivial
    | line msg | held msg => simp [Stage.behind, heq] at hsent
  apply h.keep
  · exact pc_put_pcNode c [] s
  · rw [Network.Config.put_node_self]
    exact hpacket
  · rw [car_put_pcNode]
  · rw [car_put_pcNode]
  · exact Network.Config.past_put h.past _ _ _
  · exact fun k f v => underway_put_nil _ s
  · simp [sentBy_put]
  · simp [sentBy_put]

theorem Staged.car (h : Staged n c stage arrived) {s : CarNode.State × List CarNode.Output}
    (hobeyed : CommandChain.obeyed s.2 = CommandChain.obeyed (c.node .car).2)
    (hseq : s.1.seq = (c.node .car).1.seq) {fs : List Frame}
    (hfs : fs = [] ∨ ∃ len msg, fs = [.data len msg]) :
    Staged n (c.put .car s fs) stage arrived := by
  apply h.keep
  · exact pc_put_car c fs s
  · rw [pcNode_put_car]
    exact h.packet
  · rw [Network.Config.put_node_self, hobeyed]
  · rw [Network.Config.put_node_self, hseq]
  · exact Network.Config.past_put h.past _ _ _
  · intro k f v
    obtain rfl | ⟨len, msg, rfl⟩ := hfs
    · exact underway_put_nil _ s
    · simp [underway_put h.past, addressee]
  · simp [sentBy_put]
  · simp [sentBy_put]

theorem underway_deliver (k : ℕ) (v : Party Empty) (s : PartyState v) (l : ℕ) (g : Frame)
    (w : Party Empty) :
    Underway ((c.put v s []).mark k v) l g w ↔ Underway (c.mark k v) l g w := by
  simp [Underway]

theorem Staged.overheard (h : Staged n c stage arrived) {k : ℕ} {u v : Party Empty} {f : Frame}
    (hk : c.log[k]? = some (u, f)) (hv : addressee f ≠ some v) :
    Staged n ((c.put v (c.node v) []).mark k v) stage arrived := by
  have hsame : (c.put v (c.node v) []).node = c.node := Function.update_eq_self v c.node
  apply h.keep
  · rw [Network.Config.mark_node, hsame]
  · rw [Network.Config.mark_node, hsame]
    exact h.packet
  · rw [Network.Config.mark_node, hsame]
  · rw [Network.Config.mark_node, hsame]
  · exact Network.Config.past_deliver h.past hk _ _ _
  · intro l g w
    rw [underway_deliver, underway_mark, and_iff_left_iff_imp]
    rintro ⟨⟨u', hl⟩, hw, -⟩ ⟨rfl, rfl⟩
    obtain ⟨-, rfl⟩ := Prod.mk.inj (Option.some.inj (hl.symm.trans hk))
    exact hv hw
  · simp [sentBy]
  · simp [sentBy]

theorem Staged.serial (h : Staged n c stage arrived) {k : ℕ} {u : Party Empty} {len : Word8}
    {msg : TestCarMsg} (hk : c.log[k]? = some (u, .serial len msg))
    (hnew : (k, .pcNode) ∉ c.delivered) :
    Staged n ((c.put .pcNode (PcNode.receive .success len msg (c.node .pcNode)) []).mark k .pcNode)
      (.held msg) arrived := by
  obtain ⟨hframe, hnone⟩ := h.frame_of_deliver hk rfl hnew
  cases stage with
  | rest | held msg' | air msg' => cases hframe
  | line msg' =>
    cases hframe
    refine ⟨?_, Network.Config.past_deliver h.past hk _ _ _, ⟨0, fun l g w => ?_⟩,
      ?_, ?_, ?_, ?_, ?_⟩
    · rw [typed_mark, typed_put_pcNode, Network.Config.mark_node, pc_put_pcNode]
      exact h.counter
    · rw [underway_deliver]
      simpa [Stage.frame?] using hnone l g w
    · have hsent := h.transmitted
      simpa [sentBy, Stage.behind] using hsent
    · rw [Network.Config.mark_node, Network.Config.put_node_self]
      exact ⟨Nat.succ_ne_zero _, rfl, rfl⟩
    · rw [typed_mark, typed_put_pcNode]
      exact h.commands
    · rw [Network.Config.mark_node, car_put_pcNode]
      exact h.obeyed
    · rw [Network.Config.mark_node, car_put_pcNode]
      exact h.seq

theorem Staged.radio (h : Staged n c stage arrived) {k : ℕ} {u : Party Empty} {len : Word8}
    {msg : TestCarMsg} (hk : c.log[k]? = some (u, .car len msg))
    (hnew : (k, .car) ∉ c.delivered) (irqs : List (List CarP.Rx)) :
    Staged n ((c.put .car ((CarNode.receive len msg irqs (c.node .car).1).1,
      (c.node .car).2 ++ (CarNode.receive len msg irqs (c.node .car).1).2) []).mark k .car)
      .rest (arrived ++ [msg]) := by
  obtain ⟨hframe, hnone⟩ := h.frame_of_deliver hk rfl hnew
  cases stage with
  | rest | held msg' | line msg' => cases hframe
  | air msg' =>
    cases hframe
    set r := CarNode.receive sizeofTestCarMsg msg irqs (c.node .car).1 with hr
    have hreceived : CommandChain.obeyed ((c.node .car).2 ++ r.2) = obeyedOf (arrived ++ [msg]) ∧
        r.1.seq = floor (CommandChain.obeyed ((c.node .car).2 ++ r.2)) := by
      have hseq := h.seq
      rw [obeyed_append, obeyedOf_append, ← h.obeyed, ← hseq]
      by_cases hless : (c.node .car).1.seq < msg.seq
      · obtain ⟨hone, hnext⟩ := receive_new hless irqs
        rw [hr, hone, hnext, if_pos hless, floor_append]
        exact ⟨rfl, rfl⟩
      · rw [hr, receive_stale (fun hboth => hless hboth.2) irqs, if_neg hless]
        simpa [CommandChain.obeyed] using hseq
    refine ⟨?_, Network.Config.past_deliver h.past hk _ _ _, ⟨0, fun l g w => ?_⟩,
      ?_, trivial, ?_, ?_, ?_⟩
    · rw [typed_mark, typed_put_car, Network.Config.mark_node, pc_put_car]
      exact h.counter
    · rw [underway_deliver]
      simpa [Stage.frame?] using hnone l g w
    · have hsent := h.transmitted
      simpa [sentBy, Stage.behind] using hsent
    · rw [typed_mark, typed_put_car, h.commands, Stage.msgs, Stage.msgs, List.append_nil]
    · rw [Network.Config.mark_node, Network.Config.put_node_self]
      exact hreceived.1
    · rw [Network.Config.mark_node, Network.Config.put_node_self]
      exact hreceived.2

theorem staged_step (h : Staged n c stage arrived)
    {e : Network.Event (PartyEvent (ι := Empty)) PartyAnswer} {c' : Link}
    (hallowed : Perfect c e) (hstep : (network Empty n).system.step c e = some c') :
    ∃ stage' arrived', Staged n c' stage' arrived' := by
  obtain ⟨v, e, s, fs, rfl, hhandle, rfl⟩ | ⟨k, v, r, u, f, rfl, hk, rfl⟩ :=
    (network Empty n).system_step hstep
  · cases v with
    | pc =>
      obtain ⟨rfl, rfl⟩ := Prod.mk.inj (Option.some.inj hhandle)
      exact h.key hallowed e
    | relay i => exact i.elim
    | pcNode =>
      cases e with
      | transmit =>
        obtain ⟨p, hair, hpair⟩ := Option.map_eq_some_iff.mp hhandle
        obtain ⟨rfl, rfl⟩ := Prod.mk.inj hpair
        exact h.transmit hallowed hair
      | sendDone =>
        obtain ⟨t, -, hpair⟩ := Option.map_eq_some_iff.mp hhandle
        obtain ⟨rfl, rfl⟩ := Prod.mk.inj hpair
        exact ⟨stage, arrived, h.sendDone hallowed t⟩
    | car =>
      cases e with
      | transmit =>
        obtain ⟨p, -, hpair⟩ := Option.map_eq_some_iff.mp hhandle
        obtain ⟨rfl, rfl⟩ := Prod.mk.inj hpair
        exact ⟨stage, arrived, h.car rfl rfl (.inr ⟨_, _, rfl⟩)⟩
      | node e =>
        obtain ⟨r, hnode, hpair⟩ := Option.map_eq_some_iff.mp hhandle
        obtain ⟨rfl, rfl⟩ := Prod.mk.inj hpair
        have hunheard := Unheard.handle hnode
        have hobeyed : CommandChain.obeyed ((c.node .car).2 ++ r.2) =
            CommandChain.obeyed (c.node .car).2 := by
          rw [obeyed_append, hunheard.obeyed, List.append_nil]
        exact ⟨stage, arrived, h.car (s := (r.1, (c.node .car).2 ++ r.2)) hobeyed hunheard.seq
          (.inl rfl)⟩
  · by_cases hv : addressee f = some v
    · cases f with
      | serial len msg =>
        cases hv
        obtain ⟨hnew, rfl⟩ := hallowed
        exact ⟨_, _, h.serial hk hnew⟩
      | car len msg =>
        cases hv
        exact ⟨_, _, h.radio hk hallowed r⟩
      | data len msg => cases hv
    · have hnothing : (network Empty n).receive v r f (c.node v) = (c.node v, []) := by
        cases v with
        | relay i => exact i.elim
        | pc | pcNode | car => cases f <;> first | rfl | exact absurd rfl hv
      rw [hnothing]
      exact ⟨stage, arrived, h.overheard hk hv⟩

end Steps

theorem Staged.settled {n : ℕ} {c : Link} {arrived : List TestCarMsg}
    (h : Staged n c .rest arrived) (hdone : (c.node .pcNode).packet.outstanding = 0) :
    Settled c := by
  obtain ⟨l, hl⟩ := h.underway
  exact ⟨by simp [hl, Stage.frame?], by simpa [Stage.behind] using h.transmitted, hdone⟩

section Typing
variable {n : ℕ} {c : Link} {msg : TestCarMsg} {arrived : List TestCarMsg}

theorem line_held (hreach : (network Empty n).system.Reachable Perfect c)
    (h : Staged n c (.line msg) arrived) :
    ∃ c', (network Empty n).system.Reachable Perfect c' ∧ Staged n c' (.held msg) arrived ∧
      (c'.node .pcNode).packet.outstanding = 1 ∧ typed c' = typed c := by
  obtain ⟨l, hl⟩ := h.underway
  obtain ⟨⟨u, hlog⟩, -, hnew⟩ := (hl l (.serial sizeofTestCarMsg msg) .pcNode).mpr ⟨rfl, rfl, rfl⟩
  have hallowed : Perfect c (.deliver l .pcNode ErrorT.success) := ⟨hnew, rfl⟩
  have hsent : (PcNode.receive .success sizeofTestCarMsg msg (c.node .pcNode)).packet.outstanding =
      (c.node .pcNode).packet.outstanding + 1 := rfl
  refine ⟨_, hreach.step hallowed (congrArg (Option.map _) hlog), h.serial hlog hnew, ?_, ?_⟩
  · rw [Network.Config.mark_node, Network.Config.put_node_self]
    exact hsent.trans (congrArg (· + 1) h.packet)
  · rw [typed_mark]
    exact typed_put_pcNode c [] _

theorem held_air (hreach : (network Empty n).system.Reachable Perfect c)
    (h : Staged n c (.held msg) arrived) :
    ∃ c', (network Empty n).system.Reachable Perfect c' ∧ Staged n c' (.air msg) arrived ∧
      c'.node .pcNode = c.node .pcNode ∧ typed c' = typed c := by
  have hallowed : Perfect c (.act .pcNode RadioEvent.transmit) := by
    have hsent := h.transmitted
    simp only [Stage.behind] at hsent
    exact Nat.lt_of_succ_le hsent.le
  have hhandle : (network Empty n).handle .pcNode RadioEvent.transmit (c.node .pcNode) =
      some (c.node .pcNode, [.car sizeofTestCarMsg msg]) :=
    congrArg (Option.map _) (onAir_of_held h)
  exact ⟨_, hreach.step hallowed (Network.system_step_act _ hhandle), h.transmit_held,
    Network.Config.put_node_self c .pcNode _ _, typed_put_pcNode c _ _⟩

theorem air_done (hreach : (network Empty n).system.Reachable Perfect c)
    (h : Staged n c (.air msg) arrived) (hout : (c.node .pcNode).packet.outstanding = 1) :
    ∃ c', (network Empty n).system.Reachable Perfect c' ∧ Staged n c' (.air msg) arrived ∧
      (c'.node .pcNode).packet.outstanding = 0 ∧ typed c' = typed c := by
  have hallowed : Perfect c (.act .pcNode RadioEvent.sendDone) := h.transmitted
  have hdone : PcNode.sendDone (c.node .pcNode) = some
      { packet := { (c.node .pcNode).packet with outstanding := 0 }, radioLocked := false } := by
    simp [PcNode.sendDone, MessageBuffer.done, hout]
  have hhandle : (network Empty n).handle .pcNode RadioEvent.sendDone (c.node .pcNode) = some
      ({ packet := { (c.node .pcNode).packet with outstanding := 0 }, radioLocked := false }, []) :=
    congrArg (Option.map _) hdone
  refine ⟨_, hreach.step hallowed (Network.system_step_act _ hhandle), h.sendDone hallowed _,
    ?_, ?_⟩
  · rw [Network.Config.put_node_self]
  · exact typed_put_pcNode c _ _

theorem air_rest (hreach : (network Empty n).system.Reachable Perfect c)
    (h : Staged n c (.air msg) arrived) :
    ∃ c', (network Empty n).system.Reachable Perfect c' ∧
      Staged n c' .rest (arrived ++ [msg]) ∧ c'.node .pcNode = c.node .pcNode ∧
      typed c' = typed c := by
  obtain ⟨l, hl⟩ := h.underway
  obtain ⟨⟨u, hlog⟩, -, hnew⟩ := (hl l (.car sizeofTestCarMsg msg) .car).mpr ⟨rfl, rfl, rfl⟩
  have hallowed : Perfect c (.deliver l .car []) := hnew
  refine ⟨_, hreach.step hallowed (congrArg (Option.map _) hlog), h.radio hlog hnew [], ?_, ?_⟩
  · rw [Network.Config.mark_node]
    exact pcNode_put_car c [] _
  · rw [typed_mark]
    exact typed_put_car c [] _

theorem type_key (hreach : (network Empty n).system.Reachable Perfect c)
    (h : Staged n c .rest arrived) (hdone : (c.node .pcNode).packet.outstanding = 0) (ch : Char) :
    ∃ c' arrived', (network Empty n).system.Reachable Perfect c' ∧ Staged n c' .rest arrived' ∧
      (c'.node .pcNode).packet.outstanding = 0 ∧ typed c' = typed c ++ [ch] := by
  have hpress : (network Empty n).system.Reachable Perfect
      (press c ch ((c.node .pc).1.read ch).2) :=
    hreach.step (e := .act .pc ch) (h.settled hdone) rfl
  rw [read_frames] at hpress
  cases hkey : keyCmd ch with
  | none =>
    rw [hkey] at hpress
    refine ⟨_, _, hpress, h.key_none hkey, ?_, typed_press c ch _⟩
    rw [pcNode_press]
    exact hdone
  | some cmd =>
    rw [hkey] at hpress
    obtain ⟨c₁, hreach₁, hheld, hout₁, htyped₁⟩ := line_held hpress (h.key_some hdone hkey)
    obtain ⟨c₂, hreach₂, hair, hnode₂, htyped₂⟩ := held_air hreach₁ hheld
    obtain ⟨c₃, hreach₃, hacked, hout₃, htyped₃⟩ := air_done hreach₂ hair (hnode₂ ▸ hout₁)
    obtain ⟨c₄, hreach₄, hrest, hnode₄, htyped₄⟩ := air_rest hreach₃ hacked
    refine ⟨c₄, _, hreach₄, hrest, hnode₄ ▸ hout₃, ?_⟩
    rw [htyped₄, htyped₃, htyped₂, htyped₁]
    exact typed_press c ch _

end Typing

theorem type_text (n : ℕ) (text : List Char) :
    ∃ c arrived, (network Empty n).system.Reachable Perfect c ∧ Staged n c .rest arrived ∧
      (c.node .pcNode).packet.outstanding = 0 ∧ typed c = text := by
  induction text using List.reverseRecOn with
  | nil => exact ⟨_, _, .init, staged_init n, rfl, rfl⟩
  | append_singleton text ch ih =>
    obtain ⟨c, arrived, hreach, hrest, hdone, rfl⟩ := ih
    exact type_key hreach hrest hdone ch

/-- Over a perfect link, once all is settled, the car has obeyed every recognised key,
once each and in order, if and only if each number exceeds the one before it. -/
theorem lossless_iff (n : ℕ) (c : Link) (h : (network Empty n).system.Reachable Perfect c)
    (hsettled : Settled c) :
    obeyed (c.node .car).2 = commands n (typed c) ↔ Growing (commands n (typed c)) := by
  have hstaged : ∃ stage arrived, Staged n c stage arrived := by
    apply h.invariant (P := fun c => ∃ stage arrived, Staged n c stage arrived)
    · exact ⟨_, _, staged_init n⟩
    · rintro c e c' ⟨stage, arrived, hc⟩ hallowed hstep
      exact staged_step hc hallowed hstep
  obtain ⟨stage, arrived, hc⟩ := hstaged
  obtain rfl := hc.rest_of_settled hsettled
  have hcommands : commands n (typed c) = arrived := by simpa [Stage.msgs] using hc.commands
  rw [hc.obeyed, hcommands]
  exact obeyedOf_eq_self_iff arrived

/-- A counter that starts at 1. -/
theorem lossless_iff_from_one : ∃ c, (network Empty 1).system.Reachable Perfect c ∧ Settled c ∧
    typed c = ['w', 'd', 'r', '7'] ∧ obeyed (c.node .car).2 = commands 1 (typed c) := by
  obtain ⟨c, arrived, hreach, hrest, hdone, htyped⟩ := type_text 1 ['w', 'd', 'r', '7']
  have hsettled := hrest.settled hdone
  refine ⟨c, hreach, hsettled, htyped, (lossless_iff 1 c hreach hsettled).mpr ?_⟩
  rw [← obeyedOf_eq_self_iff, htyped]
  decide

/-- The default counter: the first key of the session is lost. -/
theorem first_key_lost : ∃ c, (network Empty 0).system.Reachable Perfect c ∧ Settled c ∧
    typed c = ['w'] ∧ commands 0 (typed c) = [⟨0, Cmd.w_.code⟩] ∧
    obeyed (c.node .car).2 = [] := by
  obtain ⟨c, arrived, hreach, hrest, hdone, htyped⟩ := type_text 0 ['w']
  have hcommands : arrived = commands 0 ['w'] := by
    simpa [Stage.msgs, htyped] using hrest.commands.symm
  refine ⟨c, hreach, hrest.settled hdone, htyped, by rw [htyped]; rfl, ?_⟩
  rw [hrest.obeyed, hcommands]
  rfl

end WsnContest.PerfectLink
