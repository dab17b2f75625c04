import WsnContest.Car.Protocol
import WsnContest.Lib.System

/-! The PC end: `TestSerial`, which turns typed characters into numbered commands,
and the mote `TestSerialC` at the end of the serial line, which puts them on the air. -/
namespace WsnContest.Car
open Tinyos Lib

/-- The variables of `TestSerial.main`: the `int` counter, of which a message gets
the 32 bits, and the message that is used for every command. -/
structure Session where
  counter : Word32
  payload : TestCarMsg := ⟨0, 0⟩
  deriving DecidableEq, Repr

/-- The `switch` of `TestSerial.main`. -/
def keyCmd : Char → Option Cmd
  | 'w' => some .w_
  | 'a' => some .a_
  | 's' => some .s_
  | 'd' => some .d_
  | ' ' => some .__
  | '0' => some ._1
  | '1' => some ._2
  | '2' => some ._3
  | '3' => some ._4
  | '4' => some ._5
  | '5' => some ._6
  | '6' => some ._7
  | '7' => some ._8
  | '8' => some ._9
  | '9' => some ._A
  | 'A' => some ._B
  | 'B' => some ._C
  | 'C' => some ._D
  | 'D' => some ._E
  | 'E' => some ._F
  | 'r' => some .r_
  | _ => none

/-- One turn of the loop of `TestSerial.main`. A character that is not recognised
sends nothing, but the counter has moved on. -/
def Session.read (c : Char) (s : Session) : Session × List Frame :=
  let s := { s with payload := { s.payload with seq := s.counter }, counter := s.counter + 1 }
  match keyCmd c with
  | some cmd =>
    let s := { s with payload := { s.payload with cmd := cmd.code } }
    (s, [.serial sizeofTestCarMsg s.payload])
  | none => (s, [])

namespace PcNode

/-- The variables of `TestSerialC` in `PcNodeSend`. -/
structure State where
  packet : MessageBuffer TestCarMsg := { payload := ⟨0, 0⟩ }
  radioLocked : Bool := false
  deriving DecidableEq, Repr

/-- `Receive.receive` of the serial line; it looks at no lock. `SUCCESS` is zero:
the branch is the one of a send that failed. The two stores to the packet are one here: the
radio reads it whole and between two handlers. -/
def receive (sent : ErrorT) (len : Word8) (rcm : TestCarMsg) (s : State) : State :=
  if len ≠ sizeofTestCarMsg then s
  else
    let s := { s with packet := { s.packet with payload := rcm }.send sizeofTestCarMsg sent }
    if sent.toBool then { s with radioLocked := true } else s

/-- `RadioSend.sendDone`. -/
def sendDone (s : State) : Option State :=
  s.packet.done.map fun packet => { s with packet := packet, radioLocked := false }

/-- What is seen of the mote: the commands given to `RadioSend.send` with its result,
and what the radio reads from the packet. -/
inductive Output where
  | handed (msg : TestCarMsg) (sent : ErrorT)
  | aired (len : Word8) (msg : TestCarMsg)
  deriving DecidableEq, Repr

inductive Event where
  | receive (len : Word8) (rcm : TestCarMsg) (sent : ErrorT)
  | transmit
  | sendDone
  deriving DecidableEq, Repr

def machine : Machine State Event Output where
  init := {}
  step
    | s, .receive len rcm sent =>
      some (receive sent len rcm s, if len = sizeofTestCarMsg then [.handed rcm sent] else [])
    | s, .transmit => s.packet.onAir.map fun p => (s, [.aired p.1 p.2])
    | s, .sendDone => (sendDone s).map fun s => (s, [])

section Receive
variable {len : Word8} {s : State} (rcm : TestCarMsg) (sent : ErrorT)

theorem receive_otherSize (hlen : len ≠ sizeofTestCarMsg) : receive sent len rcm s = s :=
  if_pos hlen

theorem receive_packet :
    (receive sent sizeofTestCarMsg rcm s).packet =
      { s.packet with payload := rcm }.send sizeofTestCarMsg sent := by
  unfold receive
  rw [if_neg (by simp)]
  dsimp only
  split <;> rfl

end Receive

theorem sendDone_eq {s t : State} (h : sendDone s = some t) :
    s.packet.outstanding ≠ 0 ∧ t.packet.payload = s.packet.payload := by
  obtain ⟨packet, hpacket, rfl⟩ := Option.map_eq_some_iff.mp h
  obtain ⟨hout, rfl⟩ := MessageBuffer.done_eq hpacket
  exact ⟨hout, rfl⟩

end PcNode

end WsnContest.Car
