import WsnContest.Gossip.Numbers

/-! `BiDaXiao`: the gossip as run in the contest. The number always comes over
the serial line, and a node whose number lies in the middle range does not
announce it by itself. -/
namespace WsnContest.BiDaXiao
open Tinyos Gossip

def endTimeSec : Word16 := 60 * 4
def statusStableTimeThdSec : Word16 := 14
def smallMidValue : Word16 := 0x6000
def bigMidValue : Word16 := 0x8FFF
def sendGradIntervalMs : ℕ := 2000

def settings (tosNodeId : Word16) : Settings where
  tosNodeId := tosNodeId
  rootNodeId := 0
  staleCountThd := 1

def sendTimerFired (p : Settings) (sent : ErrorT) (s : State) : State × List Message :=
  sendStatus p sent s

/-- `MilliTimer.fired`, with the status it prints, if any; it prints once. -/
def milliTimerFired (p : Settings) (s : State) : State × Option TestSendMsg :=
  let (s', due) := milliTick p statusStableTimeThdSec endTimeSec s
  if due && !s.resultSent then ({ s' with resultSent := true }, some s.status) else (s', none)

def resendTimerFired (p : Settings) (sent : ErrorT) (s : State) : State × List Message :=
  sendStatus p sent s

/-- `AMControl.startDone`; after an error `AMControl.start` is called again. -/
def startDone (err : ErrorT) (s : State) : State :=
  if err = .success then { s with milliTimer := true } else s

def sendDone (err : ErrorT) (s : State) : State :=
  let s := { s with busyRadio := false }
  if err = .success then s else { s with resendTimer := true }

/-- The number is announced by `SendTimer`; those of the middle range are not. -/
def announced (number : Word16) : Bool := number < smallMidValue || bigMidValue < number

/-- Extreme numbers are announced first. -/
def sendDelay (number : Word16) : ℕ :=
  if number ≤ 0x1000 || 0xe000 ≤ number then sendGradIntervalMs * 0
  else if number ≤ 0x3000 || 0xc000 ≤ number then sendGradIntervalMs * 1
  else sendGradIntervalMs * 2

def serialReceive (p : Settings) (len : Word8) (rcm : TestSerialMsg) (s : State) : State :=
  if len ≠ sizeofTestSerialMsg then s
  else if !s.serialReceived then
    let s := { s with
      selfId := p.tosNodeId
      selfNumber := rcm.number
      status := ⟨rcm.number, rcm.number⟩
      lastStatus := ⟨rcm.number + 1, rcm.number + 1⟩
      serialReceived := true }
    if announced s.selfNumber then { s with sendTimer := some (sendDelay s.selfNumber) } else s
  else s

/-- What happens at a node besides radio frames; `sent` answers the
`AMSend.send` the handler may call. -/
inductive Event where
  | startDone (err : ErrorT)
  | milliTimerFired
  | sendTimerFired (sent : ErrorT)
  | resendTimerFired (sent : ErrorT)
  | sendDone (err : ErrorT)
  | serialReceive (len : Word8) (rcm : TestSerialMsg)
  deriving DecidableEq, Repr

/-- A timer fires only while it runs, and a `sendDone` answers an accepted send. -/
def handle (p : Settings) (e : Event) (s : State) : Option (State × List Message) :=
  match e with
  | .startDone err => some (startDone err s, [])
  | .milliTimerFired =>
    if s.milliTimer then some ((milliTimerFired p s).1, []) else none
  | .sendTimerFired sent =>
    if s.sendTimer.isSome then some (sendTimerFired p sent { s with sendTimer := none }) else none
  | .resendTimerFired sent =>
    if s.resendTimer then some (resendTimerFired p sent { s with resendTimer := false }) else none
  | .sendDone err =>
    if s.outstanding ≠ 0 then
      some (sendDone err { s with outstanding := s.outstanding - 1 }, [])
    else none
  | .serialReceive len rcm => some (serialReceive p len rcm s, [])

/-- The nodes of a deployment around one radio. A frame is on the air with the
payload it has when the radio accepts it, also where the frame of a neighbour is copied over
the packet before the radio reads it; `airNetwork` has the frames that the radios read. -/
def network {V : Type} (tosNodeId : V → Word16) :
    Lib.Network V (fun _ => State) (fun _ => Event) (fun _ => ErrorT) Message where
  init _ := {}
  handle v e s := handle (settings (tosNodeId v)) e s
  receive v sent msg s := receive (settings (tosNodeId v)) sent msg s

/-- The state after the first serial frame of the right length. -/
def numbered (p : Settings) (rcm : TestSerialMsg) (s : State) : State :=
  { s with
    selfId := p.tosNodeId
    selfNumber := rcm.number
    status := ⟨rcm.number, rcm.number⟩
    lastStatus := ⟨rcm.number + 1, rcm.number + 1⟩
    serialReceived := true
    sendTimer := if announced rcm.number then some (sendDelay rcm.number) else s.sendTimer }

theorem serialReceive_eq (p : Settings) (len : Word8) (rcm : TestSerialMsg) (s : State) :
    serialReceive p len rcm s =
      if len = sizeofTestSerialMsg ∧ s.serialReceived = false then numbered p rcm s else s := by
  unfold serialReceive numbered
  by_cases hlen : len = sizeofTestSerialMsg <;> cases hserial : s.serialReceived <;>
    cases hannounced : announced rcm.number <;> simp [hlen, hannounced]

/-- The step touches neither the status nor what is still to be sent. -/
structure Unmoved (s s' : State) : Prop where
  status : s'.status = s.status
  serialReceived : s'.serialReceived = s.serialReceived
  selfNumber : s'.selfNumber = s.selfNumber
  packet : s'.packet = s.packet
  sendTimer : s'.sendTimer = s.sendTimer
  outstanding : s'.outstanding ≤ s.outstanding
  resendTimer : s'.resendTimer = true → s.resendTimer = true ∨ s.outstanding ≠ 0
  busyRadio : s.busyRadio = false → s'.busyRadio = false

/-- `t` is `s` with the timer that fires cleared. -/
structure Fired (s t : State) : Prop where
  due : s.sendTimer.isSome = true ∨ s.resendTimer = true
  busyRadio : t.busyRadio = s.busyRadio
  status : t.status = s.status
  serialReceived : t.serialReceived = s.serialReceived
  selfNumber : t.selfNumber = s.selfNumber
  packet : t.packet = s.packet
  outstanding : t.outstanding = s.outstanding
  sendTimer : t.sendTimer.isSome = true → s.sendTimer.isSome = true
  resendTimer : t.resendTimer = true → s.resendTimer = true

/-- What a local event does: it gives the node its number, sends on a timer, or
leaves the status alone and sends nothing. -/
theorem handle_cases {p : Settings} {e : Event} {s s' : State} {fs : List Message}
    (h : handle p e s = some (s', fs)) :
    (∃ rcm, e = .serialReceive sizeofTestSerialMsg rcm ∧ s.serialReceived = false ∧
      s' = numbered p rcm s ∧ fs = []) ∨
    (∃ sent t, (e = .sendTimerFired sent ∨ e = .resendTimerFired sent) ∧ Fired s t ∧
      s' = (sendStatus p sent t).1 ∧ fs = (sendStatus p sent t).2) ∨
    (fs = [] ∧ Unmoved s s') := by
  cases e with
  | startDone err =>
    right; right
    simp only [handle, Option.some.injEq, Prod.mk.injEq] at h
    obtain ⟨rfl, rfl⟩ := h
    unfold startDone
    split <;> exact ⟨rfl, rfl, rfl, rfl, rfl, rfl, le_rfl, .inl, id⟩
  | milliTimerFired =>
    right; right
    simp only [handle, Option.ite_none_right_eq_some, Option.some.injEq, Prod.mk.injEq] at h
    obtain ⟨_, rfl, rfl⟩ := h
    unfold milliTimerFired milliTick
    dsimp only
    split <;> split <;> exact ⟨rfl, rfl, rfl, rfl, rfl, rfl, le_rfl, .inl, id⟩
  | sendTimerFired sent =>
    right; left
    simp only [handle, Option.ite_none_right_eq_some, Option.some.injEq] at h
    refine ⟨sent, { s with sendTimer := none }, .inl rfl, ?_, congrArg Prod.fst h.2.symm,
      congrArg Prod.snd h.2.symm⟩
    exact ⟨.inl h.1, rfl, rfl, rfl, rfl, rfl, rfl, by simp, id⟩
  | resendTimerFired sent =>
    right; left
    simp only [handle, Option.ite_none_right_eq_some, Option.some.injEq] at h
    refine ⟨sent, { s with resendTimer := false }, .inr rfl, ?_, congrArg Prod.fst h.2.symm,
      congrArg Prod.snd h.2.symm⟩
    exact ⟨.inr h.1, rfl, rfl, rfl, rfl, rfl, rfl, id, by simp⟩
  | sendDone err =>
    right; right
    simp only [handle, Option.ite_none_right_eq_some, Option.some.injEq, Prod.mk.injEq] at h
    obtain ⟨hout, rfl, rfl⟩ := h
    unfold sendDone
    dsimp only
    split
    · exact ⟨rfl, rfl, rfl, rfl, rfl, rfl, Nat.sub_le _ _, .inl, fun _ => rfl⟩
    · exact ⟨rfl, rfl, rfl, rfl, rfl, rfl, Nat.sub_le _ _, fun _ => .inr hout, fun _ => rfl⟩
  | serialReceive len rcm =>
    simp only [handle, serialReceive_eq, Option.some.injEq, Prod.mk.injEq] at h
    obtain ⟨rfl, rfl⟩ := h
    split
    · next hfirst =>
      obtain ⟨rfl, hserial⟩ := hfirst
      exact .inl ⟨rcm, rfl, hserial, rfl, rfl⟩
    · exact .inr (.inr ⟨rfl, rfl, rfl, rfl, rfl, rfl, le_rfl, .inl, id⟩)

end WsnContest.BiDaXiao
