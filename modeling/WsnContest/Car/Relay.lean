import WsnContest.Car.Protocol
import WsnContest.Lib.System

/-! `RelayC`, which repeats commands and readings. -/
namespace WsnContest.Car.Relay
open Tinyos Lib

structure State where
  busyRadio : Bool := false
  carPacket : MessageBuffer TestCarMsg := { payload := ⟨0, 0⟩ }
  dataPacket : MessageBuffer TestDataMsg := { payload := ⟨0, 0⟩ }
  pktID : Word32 := 0
  deriving DecidableEq, Repr

/-- `Receive.receive`. The buffer is written before `busy_radio` is looked at, in one go:
the radio reads it whole and between two handlers. `SUCCESS` is zero: the innermost branch is
the one of a send that failed. -/
def receive (sent : ErrorT) (len : Word8) (rm : TestCarMsg) (s : State) : State :=
  if len = sizeofTestCarMsg then
    let s := if rm.cmd = Cmd.r_.code then { s with pktID := 0 } else s
    if s.pktID < rm.seq then
      let s := { s with carPacket := { s.carPacket with payload := rm } }
      if !s.busyRadio then
        let s := { s with carPacket := s.carPacket.send sizeofTestCarMsg sent }
        if sent.toBool then { s with busyRadio := true, pktID := s.carPacket.payload.seq } else s
      else s
    else s
  else s

/-- `DataReceive.receive`. -/
def dataReceive (sent : ErrorT) (len : Word8) (rm : TestDataMsg) (s : State) : State :=
  if len = sizeofTestDataMsg then
    let s := { s with dataPacket := { s.dataPacket with payload := rm } }
    if !s.busyRadio then
      let s := { s with dataPacket := s.dataPacket.send sizeofTestDataMsg sent }
      if sent.toBool then { s with busyRadio := true } else s
    else s
  else s

/-- `AMSend.sendDone`. -/
def sendDone (s : State) : Option State :=
  s.carPacket.done.map fun packet => { s with carPacket := packet, busyRadio := false }

/-- `DataSend.sendDone`. -/
def dataSendDone (s : State) : Option State :=
  s.dataPacket.done.map fun packet => { s with dataPacket := packet, busyRadio := false }

/-- The number that a command has to exceed; `r_` clears it first. -/
def threshold (rm : TestCarMsg) (s : State) : Word32 :=
  if rm.cmd = Cmd.r_.code then 0 else s.pktID

/-- What is seen of a relay: the messages given to its two senders with the results,
the commands it filters out, and what the radio reads from the two buffers. -/
inductive Output where
  | handed (msg : TestCarMsg) (sent : ErrorT)
  | discarded (msg : TestCarMsg)
  | aired (len : Word8) (msg : TestCarMsg)
  | dataHanded (msg : TestDataMsg) (sent : ErrorT)
  | dataAired (len : Word8) (msg : TestDataMsg)
  deriving DecidableEq, Repr

/-- What `Receive.receive` does with a command, as seen from outside. -/
def seen (sent : ErrorT) (len : Word8) (rm : TestCarMsg) (s : State) : List Output :=
  if len = sizeofTestCarMsg then
    if threshold rm s < rm.seq then
      if s.busyRadio then [] else [.handed rm sent]
    else [.discarded rm]
  else []

def dataSeen (sent : ErrorT) (len : Word8) (rm : TestDataMsg) (s : State) : List Output :=
  if len = sizeofTestDataMsg ∧ s.busyRadio = false then [.dataHanded rm sent] else []

/-- `sent` answers the send a handler may call. The radio reads a buffer some time
between the accepted send and its `sendDone`. -/
inductive Event where
  | receive (len : Word8) (rm : TestCarMsg) (sent : ErrorT)
  | dataReceive (len : Word8) (rm : TestDataMsg) (sent : ErrorT)
  | transmit
  | dataTransmit
  | sendDone
  | dataSendDone
  deriving DecidableEq, Repr

def machine : Machine State Event Output where
  init := {}
  step
    | s, .receive len rm sent => some (receive sent len rm s, seen sent len rm s)
    | s, .dataReceive len rm sent => some (dataReceive sent len rm s, dataSeen sent len rm s)
    | s, .transmit => s.carPacket.onAir.map fun p => (s, [.aired p.1 p.2])
    | s, .dataTransmit => s.dataPacket.onAir.map fun p => (s, [.dataAired p.1 p.2])
    | s, .sendDone => (sendDone s).map fun s => (s, [])
    | s, .dataSendDone => (dataSendDone s).map fun s => (s, [])

section Receive
variable {len : Word8} {rm : TestCarMsg} {s : State} (sent : ErrorT)

theorem receive_otherSize (hlen : len ≠ sizeofTestCarMsg) : receive sent len rm s = s :=
  if_neg hlen

theorem receive_eq :
    receive sent sizeofTestCarMsg rm s =
      if threshold rm s < rm.seq then
        if s.busyRadio then
          { s with pktID := threshold rm s, carPacket := { s.carPacket with payload := rm } }
        else
          { s with
            pktID := if sent.toBool then rm.seq else threshold rm s
            busyRadio := sent.toBool
            carPacket := { s.carPacket with payload := rm }.send sizeofTestCarMsg sent }
      else { s with pktID := threshold rm s } := by
  unfold receive threshold
  rw [if_pos rfl]
  by_cases hreset : rm.cmd = Cmd.r_.code
  · simp only [if_pos hreset]
    split
    · cases s.busyRadio <;> cases sent.toBool <;> simp [MessageBuffer.send]
    · rfl
  · simp only [if_neg hreset]
    split
    · cases s.busyRadio <;> cases sent.toBool <;> simp [MessageBuffer.send]
    · rfl

theorem receive_old (h : ¬ threshold rm s < rm.seq) :
    receive sent sizeofTestCarMsg rm s = { s with pktID := threshold rm s } := by
  rw [receive_eq, if_neg h]

theorem receive_busy (h : threshold rm s < rm.seq) (hbusy : s.busyRadio = true) :
    receive sent sizeofTestCarMsg rm s =
      { s with pktID := threshold rm s, carPacket := { s.carPacket with payload := rm } } := by
  rw [receive_eq, if_pos h, if_pos hbusy]

theorem receive_idle (h : threshold rm s < rm.seq) (hidle : s.busyRadio = false) :
    receive sent sizeofTestCarMsg rm s =
      { s with
        pktID := if sent.toBool then rm.seq else threshold rm s
        busyRadio := sent.toBool
        carPacket := { s.carPacket with payload := rm }.send sizeofTestCarMsg sent } := by
  rw [receive_eq, if_pos h, if_neg (by simp [hidle])]

theorem receive_payload (h : threshold rm s < rm.seq) :
    (receive sent sizeofTestCarMsg rm s).carPacket.payload = rm := by
  cases hbusy : s.busyRadio with
  | true => rw [receive_busy sent h hbusy]
  | false => rw [receive_idle sent h hbusy, MessageBuffer.send_payload]

theorem receive_carPacket (h : ¬ (len = sizeofTestCarMsg ∧ threshold rm s < rm.seq)) :
    (receive sent len rm s).carPacket = s.carPacket := by
  by_cases hlen : len = sizeofTestCarMsg
  · subst hlen
    rw [receive_old sent fun hnew => h ⟨rfl, hnew⟩]
  · rw [receive_otherSize sent hlen]

theorem receive_dataPacket (len : Word8) (rm : TestCarMsg) (s : State) :
    (receive sent len rm s).dataPacket = s.dataPacket := by
  by_cases hlen : len = sizeofTestCarMsg
  · subst hlen
    rw [receive_eq]
    split
    · split <;> rfl
    · rfl
  · rw [receive_otherSize sent hlen]

end Receive

section DataReceive
variable {len : Word8} {rm : TestDataMsg} {s : State} (sent : ErrorT)

theorem dataReceive_otherSize (hlen : len ≠ sizeofTestDataMsg) : dataReceive sent len rm s = s :=
  if_neg hlen

theorem dataReceive_busy (hbusy : s.busyRadio = true) :
    dataReceive sent sizeofTestDataMsg rm s =
      { s with dataPacket := { s.dataPacket with payload := rm } } := by
  simp [dataReceive, hbusy]

theorem dataReceive_idle (hidle : s.busyRadio = false) :
    dataReceive sent sizeofTestDataMsg rm s =
      { s with
        busyRadio := sent.toBool
        dataPacket := { s.dataPacket with payload := rm }.send sizeofTestDataMsg sent } := by
  unfold dataReceive
  cases hsent : sent.toBool <;> simp [hidle]

theorem dataReceive_payload (rm : TestDataMsg) (s : State) :
    (dataReceive sent sizeofTestDataMsg rm s).dataPacket.payload = rm := by
  cases hbusy : s.busyRadio with
  | true => rw [dataReceive_busy sent hbusy]
  | false => rw [dataReceive_idle sent hbusy, MessageBuffer.send_payload]

theorem dataReceive_carPacket (len : Word8) (rm : TestDataMsg) (s : State) :
    (dataReceive sent len rm s).carPacket = s.carPacket := by
  by_cases hlen : len = sizeofTestDataMsg
  · subst hlen
    cases hbusy : s.busyRadio with
    | true => rw [dataReceive_busy sent hbusy]
    | false => rw [dataReceive_idle sent hbusy]
  · rw [dataReceive_otherSize sent hlen]

theorem dataReceive_pktID (sent : ErrorT) (len : Word8) (rm : TestDataMsg) (s : State) :
    (dataReceive sent len rm s).pktID = s.pktID := by
  by_cases hlen : len = sizeofTestDataMsg
  · subst hlen
    cases hbusy : s.busyRadio with
    | true => rw [dataReceive_busy sent hbusy]
    | false => rw [dataReceive_idle sent hbusy]
  · rw [dataReceive_otherSize sent hlen]

end DataReceive

/-- A `sendDone` answers an accepted send and leaves the message in the buffer. -/
theorem sendDone_eq {s t : State} (h : sendDone s = some t) :
    s.carPacket.outstanding ≠ 0 ∧ ∃ packet : MessageBuffer TestCarMsg,
      packet.payload = s.carPacket.payload ∧
        t = { s with carPacket := packet, busyRadio := false } := by
  obtain ⟨packet, hpacket, rfl⟩ := Option.map_eq_some_iff.mp h
  obtain ⟨hout, hdone⟩ := MessageBuffer.done_eq hpacket
  exact ⟨hout, packet, by rw [hdone], rfl⟩

theorem dataSendDone_eq {s t : State} (h : dataSendDone s = some t) :
    s.dataPacket.outstanding ≠ 0 ∧ ∃ packet : MessageBuffer TestDataMsg,
      packet.payload = s.dataPacket.payload ∧
        t = { s with dataPacket := packet, busyRadio := false } := by
  obtain ⟨packet, hpacket, rfl⟩ := Option.map_eq_some_iff.mp h
  obtain ⟨hout, hdone⟩ := MessageBuffer.done_eq hpacket
  exact ⟨hout, packet, by rw [hdone], rfl⟩

/-- All that a step can do. -/
inductive Effect (s : State) : Event → State → List Output → Prop
  | receive {len : Word8} {rm : TestCarMsg} {sent : ErrorT} :
      Effect s (.receive len rm sent) (receive sent len rm s) (seen sent len rm s)
  | dataReceive {len : Word8} {rm : TestDataMsg} {sent : ErrorT} :
      Effect s (.dataReceive len rm sent) (dataReceive sent len rm s) (dataSeen sent len rm s)
  | transmit : s.carPacket.outstanding ≠ 0 →
      Effect s .transmit s [.aired s.carPacket.length s.carPacket.payload]
  | dataTransmit : s.dataPacket.outstanding ≠ 0 →
      Effect s .dataTransmit s [.dataAired s.dataPacket.length s.dataPacket.payload]
  | sendDone {packet : MessageBuffer TestCarMsg} : s.carPacket.outstanding ≠ 0 →
      packet.payload = s.carPacket.payload →
      Effect s .sendDone { s with carPacket := packet, busyRadio := false } []
  | dataSendDone {packet : MessageBuffer TestDataMsg} : s.dataPacket.outstanding ≠ 0 →
      packet.payload = s.dataPacket.payload →
      Effect s .dataSendDone { s with dataPacket := packet, busyRadio := false } []

theorem step_effect {s t : State} {e : Event} {out : List Output}
    (h : machine.step s e = some (t, out)) : Effect s e t out := by
  cases e with
  | receive len rm sent =>
    obtain ⟨rfl, rfl⟩ := Prod.mk.inj (Option.some.inj h)
    exact .receive
  | dataReceive len rm sent =>
    obtain ⟨rfl, rfl⟩ := Prod.mk.inj (Option.some.inj h)
    exact .dataReceive
  | transmit =>
    obtain ⟨p, hair, hpair⟩ := Option.map_eq_some_iff.mp h
    obtain ⟨rfl, rfl⟩ := Prod.mk.inj hpair
    obtain ⟨hout, rfl⟩ := MessageBuffer.onAir_eq hair
    exact .transmit hout
  | dataTransmit =>
    obtain ⟨p, hair, hpair⟩ := Option.map_eq_some_iff.mp h
    obtain ⟨rfl, rfl⟩ := Prod.mk.inj hpair
    obtain ⟨hout, rfl⟩ := MessageBuffer.onAir_eq hair
    exact .dataTransmit hout
  | sendDone =>
    obtain ⟨u, hdone, hpair⟩ := Option.map_eq_some_iff.mp h
    obtain ⟨rfl, rfl⟩ := Prod.mk.inj hpair
    obtain ⟨hout, packet, hpayload, rfl⟩ := sendDone_eq hdone
    exact .sendDone hout hpayload
  | dataSendDone =>
    obtain ⟨u, hdone, hpair⟩ := Option.map_eq_some_iff.mp h
    obtain ⟨rfl, rfl⟩ := Prod.mk.inj hpair
    obtain ⟨hout, packet, hpayload, rfl⟩ := dataSendDone_eq hdone
    exact .dataSendDone hout hpayload

theorem step_pktID {s t : State} {e : Event} {out : List Output}
    (he : ∀ len rm sent, e ≠ .receive len rm sent) (h : machine.step s e = some (t, out)) :
    t.pktID = s.pktID := by
  cases step_effect h with
  | receive => exact absurd rfl (he _ _ _)
  | dataReceive => exact dataReceive_pktID ..
  | transmit | dataTransmit | sendDone | dataSendDone => rfl

end WsnContest.Car.Relay
