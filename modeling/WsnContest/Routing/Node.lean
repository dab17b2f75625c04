import Mathlib.Data.List.FinRange
import Mathlib.Logic.Function.Basic
import WsnContest.Tinyos

/-! `SimpleRoutingC`: a node of the routing program. Beacons of node 1 build the
next hops, control frames elect the speaker, data frames follow the next hops. -/
namespace WsnContest.Routing
open Tinyos

def recvNodeId : Word16 := 1
def pspTableSize : ℕ := 255

/-- `TOSH_DATA_LENGTH` of the makefile. -/
def toshDataLength : Word8 := 114

/-- The type of a node: normal, source, destination, potential speaker, speaker. -/
inductive NodeType where
  | nor | src | dst | psp | sp
  deriving DecidableEq, Repr

inductive AmId where
  | beacon | control | route
  deriving DecidableEq, Repr

def AmId.code : AmId → Word8
  | .beacon => 7 | .control => 10 | .route => 11

structure BeaconMsg where
  nodeid : Word16
  counter : Word16
  data : Vector Word8 40
  deriving DecidableEq, Repr

structure ControlMsg where
  nodeid : Word16
  metric : Word16
  deriving DecidableEq, Repr

structure RouteMsg where
  id : Word16
  nodeid : Word16
  metric : Word16
  deriving DecidableEq, Repr

def sizeofBeaconMsg : Word8 := 44
def sizeofControlMsg : Word8 := 4
def sizeofRouteMsg : Word8 := 6

/-- A payload, by the type of the frame that carries it. -/
inductive Msg where
  | beacon (bm : BeaconMsg)
  | control (cm : ControlMsg)
  | route (rm : RouteMsg)
  deriving DecidableEq, Repr

namespace Msg

def am : Msg → AmId
  | beacon _ => .beacon
  | control _ => .control
  | route _ => .route

def size : Msg → Word8
  | beacon _ => sizeofBeaconMsg
  | control _ => sizeofControlMsg
  | route _ => sizeofRouteMsg

def bytes : Msg → List Word8
  | beacon bm => netBytes bm.nodeid ++ netBytes bm.counter ++ bm.data.toList
  | control cm => netBytes cm.nodeid ++ netBytes cm.metric
  | route rm => netBytes rm.id ++ netBytes rm.nodeid ++ netBytes rm.metric

theorem length_bytes (m : Msg) : m.bytes.length = m.size.val := by
  cases m <;> simp [bytes, size, netBytes] <;> rfl

end Msg

/-- A frame on the air, with the payload its handler wrote. -/
structure Frame where
  source : Word16
  destination : Word16
  length : Word8
  payload : Msg
  deriving DecidableEq, Repr

/-- The `message_t` that all three senders share. -/
structure Packet where
  type : AmId := .beacon
  destination : Word16 := 0
  length : Word8 := 0
  data : List Word8 := List.replicate toshDataLength.val 0
  deriving DecidableEq, Repr

/-- `getPayload` answers `NULL` for a payload that does not fit. -/
def Packet.getPayload (packet : Packet) (len : Word8) : Option (List Word8) :=
  if len ≤ toshDataLength then some (packet.data.take len.val) else none

inductive Radio where
  | off | starting | on
  deriving DecidableEq, Repr

/-- The variables of `SimpleRoutingC`, the delays with which its timers run, and
the accepted sends that still owe their `sendDone`. -/
structure State where
  packet : Packet := {}
  busy : Bool := false
  type : NodeType := .nor
  curNexthopNodeId : Word16 := 0
  curMetric : Word16 := 0xffff
  curId : Word16 := 0
  isPSP : Fin pspTableSize → Bool := fun _ => false
  locked : Bool := false
  cnt : Word16 := 1
  timer0 : Option ℕ := none
  timer1 : Option ℕ := none
  radio : Radio := .off
  pending : List AmId := []
  /-- Indices beyond the table that were written; C says nothing of the effect. -/
  strays : List Word16 := []
  /-- The `RECV_DATA` lines: source, `nodeid` and `counter`. -/
  recvData : List (Word16 × Word16 × Word16) := []

namespace State

/-- A message is written over the first bytes of `packet`. -/
def fill (m : Msg) (s : State) : State :=
  { s with packet := { s.packet with data := m.bytes ++ s.packet.data.drop m.size.val } }

/-- `AMSend.send(addr, &packet, sizeof m)` with result `sent`, by the sender of
the messages of this type; `EBUSY` leaves the length alone. -/
def amSend (m : Msg) (addr : Word16) (sent : ErrorT) (s : State) : State :=
  { s with
    packet := { s.packet with
      type := m.am
      destination := addr
      length := if sent = .ebusy then s.packet.length else m.size }
    pending := if sent = .success then m.am :: s.pending else s.pending }

/-- `is_PSP[i] = TRUE`. What a store behind the table does C leaves undefined (there are
other variables of the component); here it is noted and changes nothing, so that from such
a store on a run says nothing of the program. -/
def mark (i : Word16) (s : State) : State :=
  if h : i.val < pspTableSize then
    { s with isPSP := Function.update s.isPSP ⟨i.val, h⟩ true }
  else { s with strays := s.strays ++ [i] }

end State

def airedBy (tos addr : Word16) (m : Msg) : Frame := ⟨tos, addr, m.size, m⟩

/-- `Boot.booted`, which calls `AMControl.start`. -/
def booted (tos : Word16) (s : State) : State :=
  let s := { s with radio := .starting }
  if tos = recvNodeId then { s with type := .dst } else s

/-- `AMControl.startDone`; after an error `AMControl.start` is called again. -/
def startDone (err : ErrorT) (s : State) : State :=
  if err = .success then
    let s := { s with radio := .on }
    if s.type = .dst then { s with timer0 := some 100 } else s
  else s

/-- `Timer0.fired`: the sink's beacon. Only a beacon that is sent restarts the timer. -/
def timer0Fired (tos : Word16) (sent : ErrorT) (s : State) : State × List Frame :=
  if tos = recvNodeId then
    let rpkt := Msg.route ⟨s.cnt, tos, 0⟩
    let s := s.fill rpkt
    if !s.busy then
      let s := s.amSend rpkt broadcastAddr sent
      if sent = .success then
        let cnt := s.cnt + 1
        ({ s with
            busy := true
            curId := s.cnt
            cnt := cnt
            timer0 := some (if cnt ≤ 29 then 500 else 3000) },
          [airedBy tos broadcastAddr rpkt])
      else (s, [])
    else (s, [])
  else (s, [])

/-- The three `sendDone` handlers. -/
def sendDone (s : State) : State :=
  { s with busy := false }

/-- The first marked entry of the table decides. -/
def isSP (tos : Word16) (s : State) : Bool :=
  match (List.finRange pspTableSize).find? s.isPSP with
  | some i => tos.val == i.val
  | none => false

/-- What `AMDataReceive.receive` does with a broadcast only: the node becomes a
potential speaker and says so once. -/
def announce (tos : Word16) (sent : ErrorT) (s : State) : State × List Frame :=
  let s := { s with type := .psp }.mark tos
  let cpkt := Msg.control ⟨tos, s.curMetric⟩
  let s := s.fill cpkt
  if !s.busy && !s.locked then
    let s := s.amSend cpkt broadcastAddr sent
    if sent = .success then
      ({ s with locked := true, busy := true }, [airedBy tos broadcastAddr cpkt])
    else (s, [])
  else (s, [])

/-- What it does with every well-formed data frame. -/
def forward (tos destination : Word16) (bm : BeaconMsg) (sent : ErrorT) (s : State) :
    State × List Frame :=
  let bpkt := Msg.beacon bm
  let s := s.fill bpkt
  if !s.busy && (isSP tos s || s.type == .nor) &&
      (destination == tos || destination == broadcastAddr) then
    let addr := s.curNexthopNodeId
    let s := s.amSend bpkt addr sent
    if sent = .success then ({ s with busy := true }, [airedBy tos addr bpkt]) else (s, [])
  else (s, [])

/-- What the environment answers to the calls a receive handler makes. -/
structure Answers where
  controlSent : ErrorT
  dataSent : ErrorT
  rand32 : Word32
  deriving DecidableEq, Repr

/-- The part of `AMDataReceive.receive` that may send. -/
def spread (tos destination : Word16) (len : Word8) (bm : BeaconMsg) (ans : Answers)
    (s : State) : State × List Frame :=
  if len = sizeofBeaconMsg then
    let (s, announced) :=
      if destination = broadcastAddr then announce tos ans.controlSent s else (s, [])
    let (s, forwarded) := forward tos destination bm ans.dataSent s
    (s, announced ++ forwarded)
  else (s, [])

/-- Its last lines: the destination prints what was addressed to it, whatever the length. -/
def report (tos source destination : Word16) (bm : BeaconMsg) (s : State) : State :=
  if s.type = .dst ∧ destination = tos then
    { s with recvData := s.recvData ++ [(source, bm.nodeid, bm.counter)] }
  else s

def dataReceive (tos source destination : Word16) (len : Word8) (bm : BeaconMsg) (ans : Answers)
    (s : State) : State × List Frame :=
  let (s, frames) := spread tos destination len bm ans s
  (report tos source destination bm s, frames)

/-- `AMControlReceive.receive`: a potential speaker passes on what it hears. -/
def controlReceive (tos : Word16) (len : Word8) (cm : ControlMsg) (ans : Answers) (s : State) :
    State × List Frame :=
  if len = sizeofControlMsg then
    let s := s.mark cm.nodeid
    if s.type = .psp then
      let cpkt := Msg.control ⟨cm.nodeid, cm.metric⟩
      let s := s.fill cpkt
      if !s.busy then
        let s := s.amSend cpkt broadcastAddr ans.controlSent
        if ans.controlSent = .success then
          ({ s with busy := true }, [airedBy tos broadcastAddr cpkt])
        else (s, [])
      else (s, [])
    else (s, [])
  else (s, [])

/-- `AMRouteReceive.receive`; the addition is that of a 16-bit `int`. -/
def routeReceive (len : Word8) (rm : RouteMsg) (ans : Answers) (s : State) : State :=
  if len = sizeofRouteMsg ∧ s.packet.getPayload sizeofRouteMsg ≠ none then
    let s :=
      if s.curMetric > rm.metric + 1 then
        { s with curMetric := rm.metric + 1, curNexthopNodeId := rm.nodeid }
      else s
    if s.curId < rm.id then
      { s with curId := rm.id, timer1 := some (ans.rand32.val % 100) }
    else s
  else s

/-- `Timer1.fired`: the route as it is now, under the newest id; `busy` stays as it was. -/
def timer1Fired (tos : Word16) (sent : ErrorT) (s : State) : State × List Frame :=
  let rpkt := Msg.route ⟨s.curId, tos, s.curMetric⟩
  let s := s.fill rpkt
  if !s.busy then
    (s.amSend rpkt broadcastAddr sent,
      if sent = .success then [airedBy tos broadcastAddr rpkt] else [])
  else (s, [])

/-- A frame reaches a node: the stack passes on what is addressed to it. -/
def hear (tos : Word16) (ans : Answers) (f : Frame) (s : State) : State × List Frame :=
  if s.radio = .on ∧ (f.destination = tos ∨ f.destination = broadcastAddr) then
    match f.payload with
    | .beacon bm => dataReceive tos f.source f.destination f.length bm ans s
    | .control cm => controlReceive tos f.length cm ans s
    | .route rm => (routeReceive f.length rm ans s, [])
  else (s, [])

/-- What happens at a node besides the frames of other nodes of the program. -/
inductive Event where
  | booted
  | startDone (err : ErrorT)
  | timer0Fired (sent : ErrorT)
  | timer1Fired (sent : ErrorT)
  | sendDone (am : AmId) (err : ErrorT)
  /-- A data frame of a source, which runs another program. -/
  | sourceData (source destination : Word16) (len : Word8) (bm : BeaconMsg) (ans : Answers)
  deriving DecidableEq, Repr

/-- A node boots once, a timer fires only while it runs, and a `sendDone`
answers an accepted send. -/
def handle (tos : Word16) (e : Event) (s : State) : Option (State × List Frame) :=
  match e with
  | .booted => if s.radio = .off then some (booted tos s, []) else none
  | .startDone err => if s.radio = .starting then some (startDone err s, []) else none
  | .timer0Fired sent =>
    if s.timer0.isSome then some (timer0Fired tos sent { s with timer0 := none }) else none
  | .timer1Fired sent =>
    if s.timer1.isSome then some (timer1Fired tos sent { s with timer1 := none }) else none
  | .sendDone am _ =>
    if am ∈ s.pending then
      some (sendDone { s with pending := s.pending.erase am }, [])
    else none
  | .sourceData source destination len bm ans =>
    some (hear tos ans ⟨source, destination, len, .beacon bm⟩ s)

end WsnContest.Routing
