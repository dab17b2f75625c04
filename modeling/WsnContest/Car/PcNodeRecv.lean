import WsnContest.Car.Node
import WsnContest.Car.Relay

/-! From the reader to the screen. `CarNode` sends a reading, relays repeat it, and
`PcNodeRecv` prints it; but it reads the message from where the link header is, and
as signed numbers. -/
namespace WsnContest.PcNodeRecv
open Tinyos Lib Car

/-- Reading an `nx_int16_t` into an `int`. -/
def ntohInt16 (hi lo : Word8) : ℤ :=
  let w : ℕ := hi.val * 2 ^ 8 + lo.val
  if w < 2 ^ 15 then w else w - 2 ^ 16

/-- `test_data_msg_t` as it travels. -/
def bytes (msg : TestDataMsg) : List Word8 := netBytes msg.id ++ netBytes msg.data

/-- A `message_t`: the link header, then the payload. -/
structure Message where
  header : List Word8
  payload : List Word8
  header_ne_nil : header ≠ []

/-- What lies at the address of the message. -/
def Message.memory (msg : Message) : List Word8 := msg.header ++ msg.payload

/-- The numbers that `Receive.receive` prints after `TAG` and `DATA`. It casts the
address of the message, not that of the payload. -/
def receive (bufPtr : Message) (len : Word8) : Option (ℤ × ℤ) :=
  if len ≠ sizeofTestDataMsg then none
  else
    let rm := fun i => bufPtr.memory.getD i 0
    some (ntohInt16 (rm 0) (rm 1), ntohInt16 (rm 2) (rm 3))

/-- A signed number is the word it came from exactly if that is small. -/
theorem ntohInt16_eq_iff (hi lo : Word8) (w : Word16) :
    ntohInt16 hi lo = w.val ↔ netBytes w = [hi, lo] ∧ w.val < 2 ^ 15 := by
  have hbytes : netBytes w = [hi, lo] ↔ hi.val * 2 ^ 8 + lo.val = w.val := by
    simp only [netBytes, List.cons.injEq, Fin.ext_iff, and_true]
    omega
  rw [hbytes]
  unfold ntohInt16
  dsimp only
  split <;> omega

theorem receive_eq_iff {bufPtr : Message} {msg : TestDataMsg}
    (h : bufPtr.payload = bytes msg) :
    receive bufPtr sizeofTestDataMsg = some ((msg.id.val : ℤ), (msg.data.val : ℤ)) ↔
      bufPtr.memory.take 4 = bytes msg ∧ msg.id.val < 2 ^ 15 ∧ msg.data.val < 2 ^ 15 := by
  obtain ⟨b₀, b₁, b₂, b₃, rest, hmemory⟩ :
      ∃ b₀ b₁ b₂ b₃ rest, bufPtr.memory = b₀ :: b₁ :: b₂ :: b₃ :: rest := by
    obtain ⟨first, header, hheader⟩ := List.exists_cons_of_ne_nil bufPtr.header_ne_nil
    have hlength : 4 ≤ bufPtr.memory.length := by
      simp [Message.memory, h, hheader, bytes, netBytes]
    match bufPtr.memory, hlength with
    | b₀ :: b₁ :: b₂ :: b₃ :: rest, _ => exact ⟨b₀, b₁, b₂, b₃, rest, rfl⟩
  have hreceive : receive bufPtr sizeofTestDataMsg = some (ntohInt16 b₀ b₁, ntohInt16 b₂ b₃) := by
    simp [receive, hmemory]
  have htake : bufPtr.memory.take 4 = bytes msg ↔
      netBytes msg.id = [b₀, b₁] ∧ netBytes msg.data = [b₂, b₃] := by
    simp only [hmemory, List.take_succ_cons, List.take_zero, bytes, netBytes, List.cons_append,
      List.nil_append, List.cons.injEq, and_true]
    constructor
    · rintro ⟨rfl, rfl, rfl, rfl⟩
      exact ⟨⟨rfl, rfl⟩, rfl, rfl⟩
    · rintro ⟨⟨rfl, rfl⟩, rfl, rfl⟩
      exact ⟨rfl, rfl, rfl, rfl⟩
  rw [hreceive, htake, Option.some_inj, Prod.mk.injEq, ntohInt16_eq_iff, ntohInt16_eq_iff]
  exact ⟨fun ⟨⟨hid, hidSmall⟩, hdata, hdataSmall⟩ => ⟨⟨hid, hdata⟩, hidSmall, hdataSmall⟩,
    fun ⟨⟨hid, hdata⟩, hidSmall, hdataSmall⟩ => ⟨⟨hid, hidSmall⟩, hdata, hdataSmall⟩⟩

/-- A data frame on the air: its length and payload. -/
abbrev DataFrame := Word8 × TestDataMsg

/-- What goes out for the reading `v`, if the radio takes it. -/
def carFrame? (v : Word16) (s : CarNode.State) : Option DataFrame :=
  let (t, out) := CarNode.readDone .success v .success s
  if out = [] then none else t.packet.onAir

/-- What goes out of a relay for a data frame, if its radio takes it. -/
def relayFrame? (s : Relay.State) (f : DataFrame) : Option DataFrame :=
  let t := Relay.dataReceive .success f.1 f.2 s
  if Relay.dataSeen .success f.1 f.2 s = [] then none else t.dataPacket.onAir

/-- The way of a frame through relays that are in these states. -/
def trip : List Relay.State → DataFrame → Option DataFrame
  | [], f => some f
  | s :: hops, f => (relayFrame? s f).bind (trip hops)

theorem carFrame?_eq {v : Word16} {s : CarNode.State} {f : DataFrame}
    (h : carFrame? v s = some f) : f = (sizeofTestDataMsg, ⟨s.id, v⟩) := by
  cases hbusy : s.busyRadio with
  | true => simp [carFrame?, CarNode.readDone, CarNode.sendData, hbusy] at h
  | false =>
    have hframe : carFrame? v s = some (sizeofTestDataMsg, ⟨s.id, v⟩) := by
      simp [carFrame?, CarNode.readDone, CarNode.sendData, hbusy, ErrorT.toBool, ErrorT.code,
        MessageBuffer.onAir, MessageBuffer.send]
    exact Option.some.inj (h.symm.trans hframe)

theorem relayFrame?_eq {s : Relay.State} {f g : DataFrame} (hf : f.1 = sizeofTestDataMsg)
    (h : relayFrame? s f = some g) : g = f := by
  obtain ⟨len, msg⟩ := f
  obtain rfl := hf
  cases hbusy : s.busyRadio with
  | true => simp [relayFrame?, Relay.dataSeen, hbusy] at h
  | false =>
    have hframe : relayFrame? s (sizeofTestDataMsg, msg) = some (sizeofTestDataMsg, msg) := by
      simp [relayFrame?, Relay.dataSeen, Relay.dataReceive_idle, hbusy, MessageBuffer.onAir,
        MessageBuffer.send]
    exact Option.some.inj (h.symm.trans hframe)

theorem trip_eq {hops : List Relay.State} {f g : DataFrame} (hf : f.1 = sizeofTestDataMsg)
    (h : trip hops f = some g) : g = f := by
  induction hops generalizing f with
  | nil => exact (Option.some.inj h).symm
  | cons s hops ih =>
    obtain ⟨f', hrelay, hrest⟩ := Option.bind_eq_some_iff.mp h
    obtain rfl := relayFrame?_eq hf hrelay
    exact ih hf hrest

/-- The tag and the reading on the screen are those of the car, however many relays are
in between, exactly if the bytes from the start of the message happen to be those of
the payload and both numbers have no sign bit. -/
theorem reading_survives_iff {s : CarNode.State} {v : Word16} {hops : List Relay.State}
    {f : DataFrame} (hsent : (carFrame? v s).bind (trip hops) = some f) (header : List Word8)
    (hheader : header ≠ []) :
    receive ⟨header, bytes f.2, hheader⟩ f.1 = some ((s.id.val : ℤ), (v.val : ℤ)) ↔
      (header ++ bytes ⟨s.id, v⟩).take 4 = bytes ⟨s.id, v⟩ ∧ s.id.val < 2 ^ 15 ∧
        v.val < 2 ^ 15 := by
  obtain ⟨first, hfirst, htrip⟩ := Option.bind_eq_some_iff.mp hsent
  obtain rfl := carFrame?_eq hfirst
  obtain rfl := trip_eq rfl htrip
  have hpayload : (Message.mk header (bytes ⟨s.id, v⟩) hheader).payload = bytes ⟨s.id, v⟩ := rfl
  exact receive_eq_iff hpayload

/-- A header of one byte that fits, over one relay. -/
theorem reading_survives_relayed :
    (carFrame? 257 { id := 257 }).bind (trip [{}]) = some (sizeofTestDataMsg, ⟨257, 257⟩) ∧
    receive ⟨[1], bytes ⟨257, 257⟩, by simp⟩ sizeofTestDataMsg = some (257, 257) :=
  have hsent : (carFrame? 257 { id := 257 }).bind (trip [{}]) =
      some (sizeofTestDataMsg, ⟨257, 257⟩) := by decide
  ⟨hsent, (reading_survives_iff hsent [1] (by simp)).mpr (by decide)⟩

/-- The reading 5 of tag 100, received with a header of the radio chip. -/
theorem header_printed :
    carFrame? 5 { id := 100 } = some (sizeofTestDataMsg, ⟨100, 5⟩) ∧
    receive ⟨[17, 65, 136, 7, 34, 0, 255, 255, 2, 0, 63, 3], bytes ⟨100, 5⟩, by simp⟩
      sizeofTestDataMsg = some (4417, -30713) := by
  decide

end WsnContest.PcNodeRecv
