import WsnContest.Car.Driver
import WsnContest.Car.Protocol

/-! `RadioToLedsC` of `CarNode`: it obeys commands with growing sequence numbers,
passes them to the driver, and sends every reading several times. -/
namespace WsnContest.CarNode
open Tinyos Lib Car

def leftServo : Word16 := 3800
def rightServo : Word16 := 1800
def midAngle : Word16 := (3800 + 1800) / 2
def angleStep : Word16 := 100
def maxSpeed : Word16 := 320
def resendCnt : Word16 := 5

/-- The variables of the component, whether `ResendTimer` runs, and the driver below. -/
structure State where
  busyRadio : Bool := false
  packet : MessageBuffer TestDataMsg := { payload := ⟨0, 0⟩ }
  seq : Word32 := 0
  angle : Word16 := midAngle
  id : Word16 := 0
  currentData : Word16 := 0
  resendCount : Word16 := 0xfff
  resendTimer : Bool := false
  car : CarP.State := {}
  deriving DecidableEq, Repr

/-- What is seen of the node: what the driver does, the frames that reach the
command switch, and the readings given to `DataSend.send` with its result. -/
inductive Output where
  | driver (o : CarP.Output)
  | obeyed (msg : TestCarMsg)
  | handed (msg : TestDataMsg) (sent : ErrorT)
  deriving DecidableEq, Repr

/-- A call of the `Car` interface. -/
def callCar (c : CarP.Command) (irqs : List (List CarP.Rx)) (s : State) : State × List Output :=
  let (car, error) := CarP.call c irqs s.car
  ({ s with car := car }, [.driver (if error = .success then .accepted c else .refused c)])

/-- `sendData`; it fills the packet whether or not the radio is busy. `SUCCESS` is
zero: the inner branch is the one of a send that failed. -/
def sendData (sent : ErrorT) (s : State) : State × List Output :=
  let s := { s with packet := { s.packet with payload := ⟨s.id, s.currentData⟩ } }
  if !s.busyRadio then
    let s := { s with packet := s.packet.send sizeofTestDataMsg sent }
    let out := [.handed s.packet.payload sent]
    if sent.toBool then ({ s with busyRadio := true }, out) else (s, out)
  else (s, [])

/-- `Boot.booted`. -/
def booted (s : State) : State := { s with resendTimer := true }

/-- `ResendTimer.fired`. -/
def resendTimerFired (sent : ErrorT) (s : State) : State × List Output :=
  let again := s.resendCount < resendCnt
  let s := { s with resendCount := s.resendCount + 1 }
  if again then sendData sent s else (s, [])

/-- `CarControl.startDone`. -/
def carStartDone (s : State) : State × List Output :=
  let (s, left) := callCar (.initLeftServo leftServo) [] s
  let (s, right) := callCar (.initRightServo rightServo) [] s
  let (s, mid) := callCar (.initMidServo midAngle) [] s
  (s, left ++ right ++ mid)

/-- `AMControl.startDone`; `CarControl.start` signals its end before it returns. -/
def startDone (err : ErrorT) (s : State) : State × List Output :=
  if err = .success then
    let (car, out) := CarP.start s.car
    let (s, calls) := carStartDone { s with car := car }
    (s, out.map .driver ++ calls)
  else (s, [])

/-- A query key: the tag is asked for, and its number kept for the answer. -/
def quiry (tag : Word8) (irqs : List (List CarP.Rx)) (s : State) : State × List Output :=
  let (s, out) := callCar (.quiryReader tag) irqs s
  ({ s with id := Fin.ofNat _ tag.val }, out)

/-- The command switch of `Receive.receive`. -/
def obey (cmd : Word16) (irqs : List (List CarP.Rx)) (s : State) : State × List Output :=
  match Cmd.ofCode? cmd with
  | some .w_ => callCar (.back maxSpeed) irqs s
  | some .s_ => callCar (.forward maxSpeed) irqs s
  | some .a_ =>
    if leftServo < s.angle + angleStep then (s, [])
    else
      let s := { s with angle := s.angle + angleStep }
      callCar (.angle s.angle) irqs s
  | some .d_ =>
    if s.angle - angleStep < rightServo then (s, [])
    else
      let s := { s with angle := s.angle - angleStep }
      callCar (.angle s.angle) irqs s
  | some .__ =>
    let (s, stopped) := callCar .pause irqs s
    let s := { s with angle := midAngle }
    let (s, turned) := callCar (.angle s.angle) irqs s
    (s, stopped ++ turned)
  | some ._1 => quiry 100 irqs s
  | some ._2 => quiry 101 irqs s
  | some ._3 => quiry 102 irqs s
  | some ._4 => quiry 103 irqs s
  | some ._5 => quiry 104 irqs s
  | some ._6 => quiry 105 irqs s
  | some ._7 => quiry 106 irqs s
  | some ._8 => quiry 107 irqs s
  | some ._9 => quiry 108 irqs s
  | some ._A => quiry 109 irqs s
  | some ._B => quiry 110 irqs s
  | some ._C => quiry 111 irqs s
  | some ._D => quiry 112 irqs s
  | some ._E => quiry 113 irqs s
  | some ._F => quiry 114 irqs s
  | some .r_ => ({ s with seq := 0 }, [])
  | none => (s, [])

/-- `Receive.receive`; `irqs` are the bytes that reach the driver meanwhile. -/
def receive (len : Word8) (rm : TestCarMsg) (irqs : List (List CarP.Rx)) (s : State) :
    State × List Output :=
  if len = sizeofTestCarMsg then
    if s.seq < rm.seq then
      let (s, out) := obey rm.cmd irqs { s with seq := rm.seq }
      (s, .obeyed rm :: out)
    else (s, [])
  else (s, [])

/-- `Car.readDone`. -/
def readDone (state : ErrorT) (data : Word16) (sent : ErrorT) (s : State) : State × List Output :=
  if state = .success then sendData sent { s with currentData := data, resendCount := 0 }
  else (s, [])

/-- `DataSend.sendDone`. -/
def sendDone (s : State) : Option State :=
  s.packet.done.map fun packet => { s with packet := packet, busyRadio := false }

/-- An event of the driver; `readDone`, which does not call the driver, may be
handled after the task that signals it. -/
def driven (sent : ErrorT) (r : CarP.State × List CarP.Output) (s : State) :
    State × List Output :=
  let s := { s with car := r.1 }
  match r.2 with
  | [.readDone state data] =>
    let (s, out) := readDone state data sent s
    (s, .driver (.readDone state data) :: out)
  | out => (s, out.map .driver)

/-- What happens at the node besides radio frames; `sent` answers the
`DataSend.send` a handler may call. -/
inductive Event where
  | startDone (err : ErrorT)
  | resendTimerFired (sent : ErrorT)
  | sendDone
  | granted (irqs : List CarP.Rx)
  | rxDone (b : CarP.Rx)
  | timer1Fired (irqs : List CarP.Rx)
  | recvTask (irqs : List (List CarP.Rx)) (sent : ErrorT)
  deriving DecidableEq, Repr

def handle (e : Event) (s : State) : Option (State × List Output) :=
  match e with
  | .startDone err => some (startDone err s)
  | .resendTimerFired sent => if s.resendTimer then some (resendTimerFired sent s) else none
  | .sendDone => (sendDone s).map fun s => (s, [])
  | .granted irqs => (CarP.step s.car (.granted irqs)).map fun r => driven .success r s
  | .rxDone b => (CarP.step s.car (.rxDone b)).map fun r => driven .success r s
  | .timer1Fired irqs => (CarP.step s.car (.timer1Fired irqs)).map fun r => driven .success r s
  | .recvTask irqs sent => (CarP.step s.car (.recvTask irqs)).map fun r => driven sent r s

/-- An event of the node, or a frame it receives. -/
inductive Input where
  | event (e : Event)
  | frame (len : Word8) (rm : TestCarMsg) (irqs : List (List CarP.Rx))
  deriving DecidableEq, Repr

def machine : Machine State Input Output where
  init := booted {}
  step
    | s, .event e => handle e s
    | s, .frame len rm irqs => some (receive len rm irqs s)

/-- `sendData` hands the reading to the radio, or leaves it in the packet. -/
theorem sendData_eq (sent : ErrorT) (s : State) :
    ∃ packet busyRadio out,
      sendData sent s = ({ s with packet := packet, busyRadio := busyRadio }, out) ∧
      (out = [.handed ⟨s.id, s.currentData⟩ sent] ∨ out = []) := by
  unfold sendData
  dsimp only
  split
  · split
    · exact ⟨_, _, _, rfl, .inl rfl⟩
    · exact ⟨_, _, _, rfl, .inl rfl⟩
  · exact ⟨_, _, _, rfl, .inr rfl⟩

/-- What a step does, with the driver's part of it told apart. -/
inductive Effect (s : State) : Input → State → List Output → Prop
  | ignored {len : Word8} {rm : TestCarMsg} {irqs : List (List CarP.Rx)}
      (hstale : ¬ (len = sizeofTestCarMsg ∧ s.seq < rm.seq)) :
      Effect s (.frame len rm irqs) s []
  | obeyed {len : Word8} {rm : TestCarMsg} {irqs : List (List CarP.Rx)}
      (hlen : len = sizeofTestCarMsg) (hseq : s.seq < rm.seq) :
      Effect s (.frame len rm irqs) (obey rm.cmd irqs { s with seq := rm.seq }).1
        (.obeyed rm :: (obey rm.cmd irqs { s with seq := rm.seq }).2)
  | radioFailed {err : ErrorT} (herr : err ≠ .success) : Effect s (.event (.startDone err)) s []
  | started :
      Effect s (.event (.startDone .success))
        (carStartDone { s with car := { s.car with isStart := true } }).1
        (.driver (.startDone .success) ::
          (carStartDone { s with car := { s.car with isStart := true } }).2)
  | resendTimerFired {sent : ErrorT} (htimer : s.resendTimer = true) :
      Effect s (.event (.resendTimerFired sent)) (resendTimerFired sent s).1
        (resendTimerFired sent s).2
  | sendDone {packet : MessageBuffer TestDataMsg} (hdone : s.packet.done = some packet) :
      Effect s (.event .sendDone) { s with packet := packet, busyRadio := false } []
  | granted {irqs : List CarP.Rx} {car : CarP.State} {bytes : List Word8}
      (hcar : CarP.step s.car (.granted irqs) = some (car, [.wrote bytes])) :
      Effect s (.event (.granted irqs)) { s with car := car } [.driver (.wrote bytes)]
  | rxDone {b : CarP.Rx} :
      Effect s (.event (.rxDone b)) { s with car := CarP.rxDone b s.car } []
  | timer1Fired {irqs : List CarP.Rx} {car : CarP.State}
      (hcar : CarP.step s.car (.timer1Fired irqs) = some (car, [])) :
      Effect s (.event (.timer1Fired irqs)) { s with car := car } []
  | recvTask {irqs : List (List CarP.Rx)} {sent : ErrorT} {car : CarP.State} {state : ErrorT}
      {data : Word16}
      (hcar : CarP.step s.car (.recvTask irqs) = some (car, [.readDone state data])) :
      Effect s (.event (.recvTask irqs sent)) (readDone state data sent { s with car := car }).1
        (.driver (.readDone state data) :: (readDone state data sent { s with car := car }).2)

theorem step_effect {s t : State} {e : Input} {out : List Output}
    (h : machine.step s e = some (t, out)) : Effect s e t out := by
  cases e with
  | frame len rm irqs =>
    have hpair : receive len rm irqs s = (t, out) := Option.some.inj h
    by_cases hfresh : len = sizeofTestCarMsg ∧ s.seq < rm.seq
    · obtain ⟨hlen, hseq⟩ := hfresh
      rw [receive, if_pos hlen, if_pos hseq] at hpair
      cases hpair
      exact .obeyed hlen hseq
    · have hsame : receive len rm irqs s = (s, []) := by
        unfold receive
        split
        · next hlen => exact if_neg fun hseq => hfresh ⟨hlen, hseq⟩
        · rfl
      rw [hsame] at hpair
      cases hpair
      exact .ignored hfresh
  | event e =>
    cases e with
    | startDone err =>
      have hpair : startDone err s = (t, out) := Option.some.inj h
      by_cases herr : err = .success
      · subst herr
        cases hpair
        exact .started
      · rw [startDone, if_neg herr] at hpair
        cases hpair
        exact .radioFailed herr
    | resendTimerFired sent =>
      obtain ⟨htimer, hpair⟩ := Option.ite_none_right_eq_some.mp h
      have hrun : resendTimerFired sent s = (t, out) := Option.some.inj hpair
      have heffect := @Effect.resendTimerFired s sent htimer
      rwa [hrun] at heffect
    | sendDone =>
      obtain ⟨u, hdone, hpair⟩ := Option.map_eq_some_iff.mp h
      obtain ⟨packet, hpacket, rfl⟩ := Option.map_eq_some_iff.mp hdone
      cases hpair
      exact .sendDone hpacket
    | granted irqs =>
      obtain ⟨⟨car, carOut⟩, hcar, hpair⟩ := Option.map_eq_some_iff.mp h
      cases CarP.step_effect hcar with
      | granted =>
        cases hpair
        exact .granted hcar
    | rxDone b =>
      cases h
      exact .rxDone
    | timer1Fired irqs =>
      obtain ⟨⟨car, carOut⟩, hcar, hpair⟩ := Option.map_eq_some_iff.mp h
      cases CarP.step_effect hcar with
      | timer1Fired =>
        cases hpair
        exact .timer1Fired hcar
    | recvTask irqs sent =>
      obtain ⟨⟨car, carOut⟩, hcar, hpair⟩ := Option.map_eq_some_iff.mp h
      cases CarP.step_effect hcar with
      | recvTask =>
        cases hpair
        exact .recvTask hcar

end WsnContest.CarNode
