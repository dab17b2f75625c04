import WsnContest.Gossip.Node
import WsnContest.Lib.Network

/-! `min_max`: the plain gossip. Under `SIM` a node's number is its id and is
set when the radio starts; otherwise the first serial frame brings it. -/
namespace WsnContest.MinMax
open Tinyos Gossip

def endTimeSec : Word16 := 60 * 25
def statusStableTimeThdSec : Word16 := 10

/-- `ROOT_NODE_ID`. -/
def rootNodeId (sim : Bool) : Word16 := if sim then 1 else 0

def settings (sim : Bool) (tosNodeId : Word16) : Settings where
  tosNodeId := tosNodeId
  rootNodeId := rootNodeId sim
  staleCountThd := 2

/-- `MilliTimer.fired`, with the status it prints, if any. -/
def milliTimerFired (p : Settings) (s : State) : State × Option TestSendMsg :=
  let (s', due) := milliTick p statusStableTimeThdSec endTimeSec s
  (s', if due then some s.status else none)

def resendTimerFired (p : Settings) (sent : ErrorT) (s : State) : State × List Message :=
  sendStatus p sent s

/-- `AMControl.startDone`; after an error `AMControl.start` is called again. -/
def startDone (sim : Bool) (p : Settings) (err sent : ErrorT) (s : State) :
    State × List Message :=
  if err = .success then
    let s := { s with
      milliTimer := true
      selfNumber := p.tosNodeId
      selfId := p.tosNodeId
      status := ⟨p.tosNodeId, p.tosNodeId⟩
      lastStatus := ⟨p.tosNodeId + 1, p.tosNodeId + 1⟩ }
    if sim then sendStatus p sent { s with serialReceived := true } else (s, [])
  else (s, [])

def sendDone (s : State) : State :=
  { s with busyRadio := false }

def serialReceive (p : Settings) (len : Word8) (rcm : TestSerialMsg) (sent : ErrorT)
    (s : State) : State × List Message :=
  if len ≠ sizeofTestSerialMsg then (s, [])
  else if !s.serialReceived then
    sendStatus p sent { s with
      selfId := rcm.ID
      selfNumber := rcm.number
      status := ⟨rcm.number, rcm.number⟩
      serialReceived := true }
  else (s, [])

/-- What happens at a node besides radio frames; `sent` answers the
`AMSend.send` the handler may call. -/
inductive Event where
  | startDone (err sent : ErrorT)
  | milliTimerFired
  | resendTimerFired (sent : ErrorT)
  | sendDone (err : ErrorT)
  | serialReceive (len : Word8) (rcm : TestSerialMsg) (sent : ErrorT)
  deriving DecidableEq, Repr

/-- A timer fires only while it runs, and a `sendDone` answers an accepted send. -/
def handle (sim : Bool) (p : Settings) (e : Event) (s : State) :
    Option (State × List Message) :=
  match e with
  | .startDone err sent => some (startDone sim p err sent s)
  | .milliTimerFired =>
    if s.milliTimer then some ((milliTimerFired p s).1, []) else none
  | .resendTimerFired sent =>
    if s.resendTimer then some (resendTimerFired p sent { s with resendTimer := false }) else none
  | .sendDone _ =>
    if s.outstanding ≠ 0 then
      some (sendDone { s with outstanding := s.outstanding - 1 }, [])
    else none
  | .serialReceive len rcm sent => some (serialReceive p len rcm sent s)

/-- The state after a successful start, before the status is sent. -/
def started (sim : Bool) (p : Settings) (s : State) : State :=
  { s with
    milliTimer := true
    selfNumber := p.tosNodeId
    selfId := p.tosNodeId
    status := ⟨p.tosNodeId, p.tosNodeId⟩
    lastStatus := ⟨p.tosNodeId + 1, p.tosNodeId + 1⟩
    serialReceived := sim || s.serialReceived }

/-- The state after the first serial frame of the right length, before the
status is sent. -/
def numbered (rcm : TestSerialMsg) (s : State) : State :=
  { s with
    selfId := rcm.ID
    selfNumber := rcm.number
    status := ⟨rcm.number, rcm.number⟩
    serialReceived := true }

theorem startDone_success (sim : Bool) (p : Settings) (sent : ErrorT) (s : State) :
    startDone sim p .success sent s =
      if sim then sendStatus p sent (started sim p s) else (started sim p s, []) := by
  cases sim <;> rfl

theorem serialReceive_eq (p : Settings) (len : Word8) (rcm : TestSerialMsg) (sent : ErrorT)
    (s : State) :
    serialReceive p len rcm sent s =
      if len = sizeofTestSerialMsg ∧ s.serialReceived = false then
        sendStatus p sent (numbered rcm s)
      else (s, []) := by
  unfold serialReceive numbered
  by_cases hlen : len = sizeofTestSerialMsg <;> cases hserial : s.serialReceived <;> simp [hlen]

/-- The step neither sets the status nor makes the radio busy. -/
structure Unmoved (s s' : State) : Prop where
  status : s'.status = s.status
  serialReceived : s'.serialReceived = s.serialReceived
  selfNumber : s'.selfNumber = s.selfNumber
  milliTimer : s'.milliTimer = s.milliTimer
  resendTimer : s'.resendTimer = s.resendTimer
  busyRadio : s.busyRadio = false → s'.busyRadio = false

/-- What a local event does: it starts the node, gives it its number, resends,
or leaves the status alone and sends nothing. -/
theorem handle_cases {sim : Bool} {p : Settings} {e : Event} {s s' : State} {fs : List Message}
    (h : handle sim p e s = some (s', fs)) :
    (∃ sent, e = .startDone .success sent ∧
      ((sim = false ∧ s' = started sim p s ∧ fs = []) ∨
        (sim = true ∧ s' = (sendStatus p sent (started sim p s)).1 ∧
          fs = (sendStatus p sent (started sim p s)).2))) ∨
    (∃ rcm sent, e = .serialReceive sizeofTestSerialMsg rcm sent ∧ s.serialReceived = false ∧
      s' = (sendStatus p sent (numbered rcm s)).1 ∧
      fs = (sendStatus p sent (numbered rcm s)).2) ∨
    (∃ sent, e = .resendTimerFired sent ∧ s.resendTimer = true ∧
      s' = (sendStatus p sent { s with resendTimer := false }).1 ∧
      fs = (sendStatus p sent { s with resendTimer := false }).2) ∨
    (fs = [] ∧ Unmoved s s') := by
  cases e with
  | startDone err sent =>
    by_cases herr : err = .success
    · left
      have hpair := (Option.some.inj h).symm
      rw [herr, startDone_success] at hpair
      refine ⟨sent, by rw [herr], ?_⟩
      cases sim with
      | false => exact .inl ⟨rfl, congrArg Prod.fst hpair, congrArg Prod.snd hpair⟩
      | true => exact .inr ⟨rfl, congrArg Prod.fst hpair, congrArg Prod.snd hpair⟩
    · right; right; right
      simp only [handle, startDone, herr, ↓reduceIte, Option.some.injEq, Prod.mk.injEq] at h
      obtain ⟨rfl, rfl⟩ := h
      exact ⟨rfl, rfl, rfl, rfl, rfl, rfl, id⟩
  | milliTimerFired =>
    right; right; right
    simp only [handle, Option.ite_none_right_eq_some, Option.some.injEq, Prod.mk.injEq] at h
    obtain ⟨_, rfl, rfl⟩ := h
    unfold milliTimerFired milliTick
    dsimp only
    split <;> exact ⟨rfl, rfl, rfl, rfl, rfl, rfl, id⟩
  | resendTimerFired sent =>
    right; right; left
    simp only [handle, Option.ite_none_right_eq_some, Option.some.injEq] at h
    exact ⟨sent, rfl, h.1, congrArg Prod.fst h.2.symm, congrArg Prod.snd h.2.symm⟩
  | sendDone err =>
    right; right; right
    simp only [handle, Option.ite_none_right_eq_some, Option.some.injEq, Prod.mk.injEq] at h
    obtain ⟨_, rfl, rfl⟩ := h
    exact ⟨rfl, rfl, rfl, rfl, rfl, rfl, fun _ => rfl⟩
  | serialReceive len rcm sent =>
    simp only [handle, serialReceive_eq, Option.some.injEq] at h
    split at h
    · next hfirst =>
      obtain ⟨rfl, hserial⟩ := hfirst
      exact .inr (.inl ⟨rcm, sent, rfl, hserial, congrArg Prod.fst h.symm,
        congrArg Prod.snd h.symm⟩)
    · right; right; right
      cases h
      exact ⟨rfl, rfl, rfl, rfl, rfl, rfl, id⟩

/-- The nodes of a deployment around one radio. A frame is on the air with the
payload it has when the radio accepts it. -/
def network {V : Type} (sim : Bool) (tosNodeId : V → Word16) :
    Lib.Network V (fun _ => State) (fun _ => Event) (fun _ => ErrorT) Message where
  init _ := {}
  handle v e s := handle sim (settings sim (tosNodeId v)) e s
  receive v sent msg s := receive (settings sim (tosNodeId v)) sent msg s

@[simp] theorem network_receive {V : Type} (sim : Bool) (tosNodeId : V → Word16) (v : V)
    (sent : ErrorT) (msg : Message) (s : State) :
    (network sim tosNodeId).receive v sent msg s =
      receive (settings sim (tosNodeId v)) sent msg s := rfl

end WsnContest.MinMax
