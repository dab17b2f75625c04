import WsnContest.Lib.System
import WsnContest.Tinyos

/-! `CarP`, the driver of the car's motor board and tag reader. Both hang on one
UART, which the driver requests for every command and gives back either at once
or, for a query, after the reader has answered or `Timer1` has fired. -/
namespace WsnContest.CarP
open Tinyos Lib

def Op.servo : Word8 := 1
def Op.forward : Word8 := 2
def Op.back : Word8 := 3
def Op.stop : Word8 := 4
def Op.initServoLeft : Word8 := 5
def Op.initServoRight : Word8 := 6
def Op.initServoMid : Word8 := 7
def Op.initMotorMax : Word8 := 8
def Op.initMotorMin : Word8 := 9
def Op.quiryReader : Word8 := 11

/-- `MAX_DATA`. -/
def maxData : Word8 := 6

/-- `SYNC_DATA_SUM`. -/
def syncDataSum : Word8 := 2

/-- The variables of `CarP`, whether it owns the UART or has asked for it,
whether `Timer1` runs and whether `recvTask` is posted. -/
structure State where
  isStart : Bool := false
  isSend : Bool := false
  statetag : ErrorT := .fail
  carCommand : List Word8 := [1, 2, 1, 0, 0, 255, 255]
  isUartDataOk : Bool := false
  rcvSyncDataSum : Word8 := 0
  recdata : List Word8 := [0, 0, 0, 0, 0, 0]
  nreading : Word8 := 0
  isBufFull : Bool := false
  tagdata : Word16 := 0
  cmdlength : Word8 := 0
  owner : Bool := false
  requested : Bool := false
  timer1 : Bool := false
  recvTaskPosted : Bool := false
  deriving DecidableEq, Repr

/-- A received byte. `beyond` is what memory holds past the end of `SyncData`,
in case the driver reads there. -/
structure Rx where
  data : Word8
  beyond : Word8 := 0
  deriving DecidableEq, Repr

/-- `SyncData[i]`. -/
def syncData (i beyond : Word8) : Word8 := if i < syncDataSum then 255 else beyond

/-- `Interrupts.rxDone` before the two synchronisation bytes are in. -/
def sync (b : Rx) (s : State) : State :=
  if syncData s.rcvSyncDataSum b.beyond = b.data then
    let s := { s with rcvSyncDataSum := s.rcvSyncDataSum + 1 }
    if s.rcvSyncDataSum = syncDataSum then { s with isUartDataOk := true, nreading := 0 } else s
  else { s with rcvSyncDataSum := 0 }

def store (data : Word8) (s : State) : State :=
  if s.nreading < maxData then
    { s with recdata := s.recdata.set s.nreading data, nreading := s.nreading + 1 }
  else s

/-- `Interrupts.rxDone` once the buffer is full. -/
def bufFull (s : State) : State :=
  let s := { s with isBufFull := true, timer1 := false }
  if s.recdata.getD 0 0 = 0 && s.recdata.getD 1 0 = 0 then
    { s with
      tagdata := Fin.ofNat _ ((s.recdata.getD 4 0).val * 256 + (s.recdata.getD 5 0).val)
      statetag := .success
      recvTaskPosted := true }
  else { s with statetag := .fail, recvTaskPosted := true }

/-- `Interrupts.rxDone`. -/
def rxDone (b : Rx) (s : State) : State :=
  if !s.isUartDataOk && s.owner then sync b s
  else if !s.isBufFull && s.isUartDataOk && s.owner then
    let s := store b.data s
    if s.nreading = maxData then bufFull s else s
  else s

/-- Bytes that arrive one after the other. -/
def rxAll (bs : List Rx) (s : State) : State := bs.foldl (fun s b => rxDone b s) s

/-! Single assignments between which bytes may arrive. -/

def stopTimer1 (s : State) : State := { s with timer1 := false }
def clearReading (s : State) : State := { s with nreading := 0 }
def clearBufFull (s : State) : State := { s with isBufFull := false }
def clearUartDataOk (s : State) : State := { s with isUartDataOk := false }
def clearSync (s : State) : State := { s with rcvSyncDataSum := 0 }
def clearSend (s : State) : State := { s with isSend := false }

/-- `uart0resource.request`; a request that is outstanding already is refused
and changes nothing. -/
def request (s : State) : State := { s with requested := true }

/-- `uart0resource.release`; only the owner has something to give back. -/
def release (s : State) : State := { s with owner := false }

/-- The two bytes every command begins with. -/
def stamp (bytes : List Word8) : List Word8 := (bytes.set 0 1).set 1 2

/-- What every command does before it looks whether the driver is busy. -/
def prepare (length : Word8) (s : State) : State :=
  { s with cmdlength := length, carCommand := stamp s.carCommand }

/-- The commands of seven bytes. -/
def drive (op : Word8) (value : Word16) (s : State) : State × ErrorT :=
  let s := prepare 7 s
  if s.isStart && !s.isSend then
    let low : Word8 := Fin.ofNat _ (value.val % 256)
    let high : Word8 := Fin.ofNat _ (value.val / 256)
    let s := { s with
      isSend := true
      carCommand := ((s.carCommand.set 2 op).set 4 low).set 3 high }
    (request s, .success)
  else (s, .ebusy)

def angle (value : Word16) : State → State × ErrorT := drive Op.servo value
def forward (value : Word16) : State → State × ErrorT := drive Op.forward value
def back (value : Word16) : State → State × ErrorT := drive Op.back value
def pause : State → State × ErrorT := drive Op.stop 0
def initMaxSpeed (value : Word16) : State → State × ErrorT := drive Op.initMotorMax value
def initMinSpeed (value : Word16) : State → State × ErrorT := drive Op.initMotorMin value
def initLeftServo (value : Word16) : State → State × ErrorT := drive Op.initServoLeft value
def initRightServo (value : Word16) : State → State × ErrorT := drive Op.initServoRight value
def initMidServo (value : Word16) : State → State × ErrorT := drive Op.initServoMid value

/-- `Car.QuiryReader`. When it is refused it resets part of the parser; `irqs`
are the bytes that arrive between these assignments. -/
def quiryReader (value : Word8) (irqs : List (List Rx)) (s : State) : State × ErrorT :=
  let s := prepare 4 s
  if s.isStart && !s.isSend then
    let s := { s with
      isSend := true
      carCommand := (s.carCommand.set 2 Op.quiryReader).set 3 value }
    (request s, .success)
  else
    let s := rxAll (irqs.getD 0 []) (clearReading s)
    let s := rxAll (irqs.getD 1 []) (clearBufFull s)
    (clearUartDataOk s, .ebusy)

/-- The calls of the `Car` interface. -/
inductive Command where
  | angle (value : Word16)
  | forward (value : Word16)
  | back (value : Word16)
  | quiryReader (value : Word8)
  | pause
  | initMaxSpeed (value : Word16)
  | initMinSpeed (value : Word16)
  | initLeftServo (value : Word16)
  | initRightServo (value : Word16)
  | initMidServo (value : Word16)
  deriving DecidableEq, Repr

def call (c : Command) (irqs : List (List Rx)) (s : State) : State × ErrorT :=
  match c with
  | .angle value => angle value s
  | .forward value => forward value s
  | .back value => back value s
  | .quiryReader value => quiryReader value irqs s
  | .pause => pause s
  | .initMaxSpeed value => initMaxSpeed value s
  | .initMinSpeed value => initMinSpeed value s
  | .initLeftServo value => initLeftServo value s
  | .initRightServo value => initRightServo value s
  | .initMidServo value => initMidServo value s

/-- What the outside sees of the driver. -/
inductive Output where
  | accepted (c : Command)
  | refused (c : Command)
  | wrote (bytes : List Word8)
  | readDone (state : ErrorT) (data : Word16)
  | startDone (error : ErrorT)
  | stopDone (error : ErrorT)
  deriving DecidableEq, Repr

/-- `CarControl.start`. -/
def start (s : State) : State × List Output :=
  ({ s with isStart := true }, [.startDone .success])

/-- `CarControl.stop`. -/
def stop (s : State) : State × List Output :=
  ({ s with isStart := false, isSend := false }, [.stopDone .success])

/-- `uart0resource.granted`. The receive interrupt is on while `SendString` works
through the command, so bytes may arrive meanwhile. -/
def granted (irqs : List Rx) (s : State) : State × List Output :=
  let s := rxAll irqs s
  let sent := s.carCommand.take s.cmdlength
  if s.cmdlength = 4 then ({ s with timer1 := true }, [.wrote sent])
  else (clearSend (release s), [.wrote sent])

/-- `Timer1.fired`; `irqs` arrive before the task is posted. -/
def timer1Fired (irqs : List Rx) (s : State) : State :=
  { rxAll irqs { s with statetag := .fail } with recvTaskPosted := true }

/-- `recvTask`; `irqs` are the bytes that arrive between its statements. -/
def recvTask (irqs : List (List Rx)) (s : State) : State × List Output :=
  let arrive := fun i => rxAll (irqs.getD i [])
  let s := arrive 0 (stopTimer1 s)
  let s := arrive 1 (clearBufFull s)
  let s := arrive 2 (clearUartDataOk s)
  let s := arrive 3 (clearSync s)
  let s := arrive 4 (clearReading s)
  let failed := s.statetag = .fail
  let s := arrive 5 s
  let done := if failed then .readDone s.statetag 0xffff else .readDone s.statetag s.tagdata
  let s := arrive 6 s
  let s := arrive 7 (clearSend s)
  (release s, [done])

inductive Event where
  | start
  | stop
  | command (c : Command) (irqs : List (List Rx))
  | granted (irqs : List Rx)
  | rxDone (b : Rx)
  | timer1Fired (irqs : List Rx)
  | recvTask (irqs : List (List Rx))
  deriving DecidableEq, Repr

/-- The arbiter grants an outstanding request while the driver does not own the
UART; `Timer1` runs once; a task runs when it is posted. -/
def step (s : State) : Event → Option (State × List Output)
  | .start => some (start s)
  | .stop => some (stop s)
  | .command c irqs =>
    let (s', error) := call c irqs s
    some (s', [if error = .success then .accepted c else .refused c])
  | .granted irqs =>
    if s.requested && !s.owner then
      some (granted irqs { s with requested := false, owner := true })
    else none
  | .rxDone b => some (rxDone b s, [])
  | .timer1Fired irqs =>
    if s.timer1 then some (timer1Fired irqs { s with timer1 := false }, []) else none
  | .recvTask irqs =>
    if s.recvTaskPosted then some (recvTask irqs { s with recvTaskPosted := false }) else none

def machine : Machine State Event Output where
  init := {}
  step := step

/-- What receiving bytes may do: the parser moves on, and when an owner of the UART
has a whole frame `Timer1` is stopped and `recvTask` posted. -/
structure Heard (s t : State) : Prop where
  isStart : t.isStart = s.isStart
  isSend : t.isSend = s.isSend
  carCommand : t.carCommand = s.carCommand
  cmdlength : t.cmdlength = s.cmdlength
  owner : t.owner = s.owner
  requested : t.requested = s.requested
  wake : t.timer1 = s.timer1 ∧ t.recvTaskPosted = s.recvTaskPosted ∨
    s.owner = true ∧ t.timer1 = false ∧ t.recvTaskPosted = true

theorem Heard.refl (s : State) : Heard s s := ⟨rfl, rfl, rfl, rfl, rfl, rfl, .inl ⟨rfl, rfl⟩⟩

theorem Heard.trans {s t u : State} (h₁ : Heard s t) (h₂ : Heard t u) : Heard s u := by
  refine ⟨h₂.isStart.trans h₁.isStart, h₂.isSend.trans h₁.isSend,
    h₂.carCommand.trans h₁.carCommand, h₂.cmdlength.trans h₁.cmdlength, h₂.owner.trans h₁.owner,
    h₂.requested.trans h₁.requested, ?_⟩
  rcases h₂.wake with ⟨htimer, hposted⟩ | ⟨howner, hwoken⟩
  · rw [htimer, hposted]
    exact h₁.wake
  · exact .inr ⟨h₁.owner ▸ howner, hwoken⟩

/-- Receiving wakes nothing but the owner of the UART. -/
theorem Heard.waking {s t : State} (h : Heard s t)
    (hs : s.timer1 = true ∨ s.recvTaskPosted = true → s.owner = true) :
    t.timer1 = true ∨ t.recvTaskPosted = true → t.owner = true := by
  rw [h.owner]
  rcases h.wake with ⟨htimer, hposted⟩ | ⟨howner, -⟩
  · rwa [htimer, hposted]
  · exact fun _ => howner

section Parser
variable (s : State)

theorem heard_clearReading : Heard s (clearReading s) :=
  ⟨rfl, rfl, rfl, rfl, rfl, rfl, .inl ⟨rfl, rfl⟩⟩

theorem heard_clearBufFull : Heard s (clearBufFull s) :=
  ⟨rfl, rfl, rfl, rfl, rfl, rfl, .inl ⟨rfl, rfl⟩⟩

theorem heard_clearUartDataOk : Heard s (clearUartDataOk s) :=
  ⟨rfl, rfl, rfl, rfl, rfl, rfl, .inl ⟨rfl, rfl⟩⟩

theorem heard_clearSync : Heard s (clearSync s) :=
  ⟨rfl, rfl, rfl, rfl, rfl, rfl, .inl ⟨rfl, rfl⟩⟩

end Parser

theorem heard_sync (b : Rx) (s : State) : Heard s (sync b s) := by
  unfold sync
  dsimp only
  split
  · split <;> exact ⟨rfl, rfl, rfl, rfl, rfl, rfl, .inl ⟨rfl, rfl⟩⟩
  · exact ⟨rfl, rfl, rfl, rfl, rfl, rfl, .inl ⟨rfl, rfl⟩⟩

theorem heard_store (data : Word8) (s : State) : Heard s (store data s) := by
  unfold store
  split <;> exact ⟨rfl, rfl, rfl, rfl, rfl, rfl, .inl ⟨rfl, rfl⟩⟩

theorem heard_bufFull {s : State} (h : s.owner = true) : Heard s (bufFull s) := by
  unfold bufFull
  dsimp only
  split <;> exact ⟨rfl, rfl, rfl, rfl, rfl, rfl, .inr ⟨h, rfl, rfl⟩⟩

theorem heard_rxDone (b : Rx) (s : State) : Heard s (rxDone b s) := by
  have hstore := heard_store b.data s
  unfold rxDone
  split
  · exact heard_sync b s
  · split
    · next hguard =>
      have howner : s.owner = true := by
        rw [Bool.and_eq_true] at hguard
        exact hguard.2
      dsimp only
      split
      · exact hstore.trans (heard_bufFull (hstore.owner.trans howner))
      · exact hstore
    · exact Heard.refl s

theorem heard_rxAll (bs : List Rx) (s : State) : Heard s (rxAll bs s) := by
  induction bs generalizing s with
  | nil => exact Heard.refl s
  | cons b bs ih => exact (heard_rxDone b s).trans (ih (rxDone b s))

/-- The driver takes commands. -/
def State.ready (s : State) : Bool := s.isStart && !s.isSend

def Command.length : Command → Word8
  | .quiryReader _ => 4
  | _ => 7

def Command.op : Command → Word8
  | .angle _ => Op.servo
  | .forward _ => Op.forward
  | .back _ => Op.back
  | .quiryReader _ => Op.quiryReader
  | .pause => Op.stop
  | .initMaxSpeed _ => Op.initMotorMax
  | .initMinSpeed _ => Op.initMotorMin
  | .initLeftServo _ => Op.initServoLeft
  | .initRightServo _ => Op.initServoRight
  | .initMidServo _ => Op.initServoMid

def Command.value : Command → ℕ
  | .angle value | .forward value | .back value => value
  | .initMaxSpeed value | .initMinSpeed value => value
  | .initLeftServo value | .initRightServo value | .initMidServo value => value
  | .quiryReader value => value
  | .pause => 0

/-- What the motor board is meant to get for a command. -/
def Command.encode (c : Command) : List Word8 :=
  if c.length = 4 then [1, 2, c.op, Fin.ofNat _ c.value]
  else [1, 2, c.op, Fin.ofNat _ (c.value / 256), Fin.ofNat _ (c.value % 256), 255, 255]

/-- The bytes an accepted command leaves in `CarCommand`. -/
def Command.fill (c : Command) (bytes : List Word8) : List Word8 :=
  if c.length = 4 then ((stamp bytes).set 2 c.op).set 3 (Fin.ofNat _ c.value)
  else (((stamp bytes).set 2 c.op).set 4 (Fin.ofNat _ (c.value % 256))).set 3
    (Fin.ofNat _ (c.value / 256))

/-- All commands but one are of the same kind. -/
theorem quiryReader_or_drive (c : Command) :
    (∃ value, c = .quiryReader value) ∨
      ∃ value : Word16, c.value = value.val ∧ c.length = 7 ∧
        ∀ irqs s, call c irqs s = drive c.op value s := by
  cases c with
  | quiryReader value => exact .inl ⟨value, rfl⟩
  | pause => exact .inr ⟨0, rfl, rfl, fun _ _ => rfl⟩
  | _ value => exact .inr ⟨value, rfl, rfl, fun _ _ => rfl⟩

theorem call_ready {c : Command} {irqs : List (List Rx)} {s : State} (h : s.ready = true) :
    call c irqs s =
      ({ s with
          isSend := true
          requested := true
          cmdlength := c.length
          carCommand := c.fill s.carCommand }, .success) := by
  obtain ⟨value, rfl⟩ | ⟨value, hvalue, hlength, hcall⟩ := quiryReader_or_drive c
  · have hbyte : Fin.ofNat (2 ^ 8) value.val = value := Fin.ofNat_val_eq_self value
    simp only [Command.fill, Command.length, Command.op, Command.value, ↓reduceIte, hbyte]
    exact if_pos h
  · have hseven : (7 : Word8) ≠ 4 := by decide
    simp only [hcall, Command.fill, hlength, hvalue, hseven, ↓reduceIte]
    exact if_pos h

/-- A driver that is not ready refuses every command, but the length and the
first two bytes are changed, and a query disturbs the parser. -/
theorem call_refused (c : Command) (irqs : List (List Rx)) {s : State} (h : s.ready = false) :
    (call c irqs s).2 = .ebusy ∧
      Heard (prepare c.length s) (call c irqs s).1 := by
  have hbusy : ¬ s.ready = true := by simp [h]
  obtain ⟨value, rfl⟩ | ⟨value, hvalue, hlength, hcall⟩ := quiryReader_or_drive c
  · have hquery : call (.quiryReader value) irqs s = _ := if_neg hbusy
    rw [hquery]
    refine ⟨rfl, ?_⟩
    have h0 := (heard_clearReading (prepare 4 s)).trans (heard_rxAll (irqs.getD 0 []) _)
    have h1 := (h0.trans (heard_clearBufFull _)).trans (heard_rxAll (irqs.getD 1 []) _)
    exact h1.trans (heard_clearUartDataOk _)
  · have hdrive : drive c.op value s = (prepare 7 s, .ebusy) := if_neg hbusy
    rw [hcall, hdrive, hlength]
    exact ⟨rfl, Heard.refl _⟩

/-- The buffer has the first and last two bytes it started with. -/
def Framed (bytes : List Word8) : Prop := ∃ op hi lo, bytes = [1, 2, op, hi, lo, 255, 255]

theorem framed_stamp {bytes : List Word8} (h : Framed bytes) : stamp bytes = bytes := by
  obtain ⟨op, hi, lo, rfl⟩ := h
  rfl

theorem framed_fill {bytes : List Word8} (h : Framed bytes) (c : Command) :
    Framed (c.fill bytes) ∧ (c.fill bytes).getD 2 0 = c.op ∧
      (c.fill bytes).take c.length = c.encode := by
  obtain ⟨op, hi, lo, rfl⟩ := h
  obtain ⟨value, rfl⟩ | ⟨value, hvalue, hlength, -⟩ := quiryReader_or_drive c
  · exact ⟨⟨_, _, _, rfl⟩, rfl, rfl⟩
  · have hseven : (7 : Word8) ≠ 4 := by decide
    simp only [Command.fill, Command.encode, hlength, hseven, ↓reduceIte]
    exact ⟨⟨_, _, _, rfl⟩, rfl, rfl⟩

theorem length_of_op (c : Command) : (if c.op = Op.quiryReader then 4 else 7) = c.length := by
  cases c <;> rfl

section Handlers
variable (irqs : List Rx) (gaps : List (List Rx)) (s : State)

/-- A grant sends the command as it is then; after one of four bytes the driver
waits for the reader, after any other it is done. -/
theorem granted_eq :
    granted irqs s =
      (if s.cmdlength = 4 then { rxAll irqs s with timer1 := true }
        else clearSend (release (rxAll irqs s)), [.wrote (s.carCommand.take s.cmdlength)]) := by
  have hheard := heard_rxAll irqs s
  unfold granted
  dsimp only
  rw [hheard.carCommand, hheard.cmdlength]
  split <;> rfl

theorem timer1Fired_heard :
    Heard { s with statetag := .fail, timer1 := false, recvTaskPosted := true }
      (timer1Fired irqs { s with timer1 := false }) := by
  have hheard := heard_rxAll irqs { s with statetag := .fail, timer1 := false }
  refine ⟨hheard.isStart, hheard.isSend, hheard.carCommand, hheard.cmdlength, hheard.owner,
    hheard.requested, .inl ⟨?_, rfl⟩⟩
  rcases hheard.wake with hsame | hwoken
  · exact hsame.1
  · exact hwoken.2.1

/-- The statements of `recvTask` up to the one that frees the driver, with the
bytes in between. -/
theorem recvTask_heard :
    ∃ t state data, Heard (stopTimer1 s) t ∧
      recvTask gaps s =
        (release (rxAll (gaps.getD 7 []) (clearSend t)), [.readDone state data]) := by
  have h0 := heard_rxAll (gaps.getD 0 []) (stopTimer1 s)
  have h1 := (h0.trans (heard_clearBufFull _)).trans (heard_rxAll (gaps.getD 1 []) _)
  have h2 := (h1.trans (heard_clearUartDataOk _)).trans (heard_rxAll (gaps.getD 2 []) _)
  have h3 := (h2.trans (heard_clearSync _)).trans (heard_rxAll (gaps.getD 3 []) _)
  have h4 := (h3.trans (heard_clearReading _)).trans (heard_rxAll (gaps.getD 4 []) _)
  have h5 := h4.trans (heard_rxAll (gaps.getD 5 []) _)
  have h6 := h5.trans (heard_rxAll (gaps.getD 6 []) _)
  unfold recvTask
  dsimp only
  split
  · exact ⟨_, _, _, h6, rfl⟩
  · exact ⟨_, _, _, h6, rfl⟩

theorem recvTask_state :
    (recvTask gaps s).1.isStart = s.isStart ∧ (recvTask gaps s).1.isSend = false ∧
    (recvTask gaps s).1.owner = false ∧ (recvTask gaps s).1.requested = s.requested ∧
    (recvTask gaps s).1.carCommand = s.carCommand ∧
    (recvTask gaps s).1.cmdlength = s.cmdlength ∧ (recvTask gaps s).1.timer1 = false := by
  obtain ⟨t, state, data, ht, heq⟩ := recvTask_heard gaps s
  have hlast := heard_rxAll (gaps.getD 7 []) (clearSend t)
  rw [heq]
  refine ⟨hlast.isStart.trans ht.isStart, hlast.isSend, rfl, hlast.requested.trans ht.requested,
    hlast.carCommand.trans ht.carCommand, hlast.cmdlength.trans ht.cmdlength, ?_⟩
  have htimer : t.timer1 = false := ht.wake.elim (fun h => h.1) fun h => h.2.1
  exact hlast.wake.elim (fun h => h.1.trans htimer) fun h => h.2.1

end Handlers

/-- What a step does outside the parser of received bytes. -/
inductive Effect (s : State) : Event → State → List Output → Prop
  | start : Effect s .start { s with isStart := true } [.startDone .success]
  | stop : Effect s .stop { s with isStart := false, isSend := false } [.stopDone .success]
  | accepted {c : Command} {irqs : List (List Rx)} (hready : s.ready = true) :
      Effect s (.command c irqs)
        { s with
          isSend := true
          requested := true
          cmdlength := c.length
          carCommand := c.fill s.carCommand } [.accepted c]
  | refused {c : Command} {irqs : List (List Rx)} {t : State} (hready : s.ready = false)
      (ht : Heard (prepare c.length s) t) : Effect s (.command c irqs) t [.refused c]
  | granted {irqs : List Rx} {t : State} (hrequested : s.requested = true)
      (howner : s.owner = false)
      (ht : t = rxAll irqs { s with requested := false, owner := true }) :
      Effect s (.granted irqs)
        (if s.cmdlength = 4 then { t with timer1 := true } else clearSend (release t))
        [.wrote (s.carCommand.take s.cmdlength)]
  | rxDone {b : Rx} {t : State} (ht : Heard s t) : Effect s (.rxDone b) t []
  | timer1Fired {irqs : List Rx} {t : State} (htimer : s.timer1 = true)
      (ht : Heard { s with statetag := .fail, timer1 := false, recvTaskPosted := true } t) :
      Effect s (.timer1Fired irqs) t []
  | recvTask {irqs : List (List Rx)} {t : State} {state : ErrorT} {data : Word16}
      (hposted : s.recvTaskPosted = true) (hisStart : t.isStart = s.isStart)
      (hisSend : t.isSend = false) (howner : t.owner = false)
      (hrequested : t.requested = s.requested) (hcarCommand : t.carCommand = s.carCommand)
      (hcmdlength : t.cmdlength = s.cmdlength) (htimer : t.timer1 = false) :
      Effect s (.recvTask irqs) t [.readDone state data]

theorem step_effect {s t : State} {e : Event} {out : List Output}
    (h : step s e = some (t, out)) : Effect s e t out := by
  cases e with
  | start =>
    cases h
    exact .start
  | stop =>
    cases h
    exact .stop
  | command c irqs =>
    have hpair : ((call c irqs s).1,
        [if (call c irqs s).2 = .success then Output.accepted c else .refused c]) = (t, out) :=
      Option.some.inj h
    cases hready : s.ready with
    | true =>
      rw [call_ready hready] at hpair
      cases hpair
      exact .accepted hready
    | false =>
      obtain ⟨herror, ht⟩ := call_refused c irqs hready
      rw [herror] at hpair
      cases hpair
      exact .refused hready ht
  | granted irqs =>
    obtain ⟨hguard, hpair⟩ := Option.ite_none_right_eq_some.mp h
    obtain ⟨hrequested, howner⟩ : s.requested = true ∧ s.owner = false := by simpa using hguard
    rw [granted_eq] at hpair
    cases hpair
    exact .granted hrequested howner rfl
  | rxDone b =>
    cases h
    exact .rxDone (heard_rxDone b s)
  | timer1Fired irqs =>
    obtain ⟨htimer, hpair⟩ := Option.ite_none_right_eq_some.mp h
    cases hpair
    exact .timer1Fired htimer (timer1Fired_heard irqs s)
  | recvTask irqs =>
    obtain ⟨hposted, hpair⟩ := Option.ite_none_right_eq_some.mp h
    obtain ⟨_, state, data, -, heq⟩ := recvTask_heard irqs { s with recvTaskPosted := false }
    have hstate := recvTask_state irqs { s with recvTaskPosted := false }
    have hrun : recvTask irqs { s with recvTaskPosted := false } = (t, out) :=
      Option.some.inj hpair
    rw [hrun] at heq hstate
    obtain rfl : out = [.readDone state data] := congrArg Prod.snd heq
    obtain ⟨hisStart, hisSend, howner, hrequested, hcarCommand, hcmdlength, htimer⟩ := hstate
    exact .recvTask hposted hisStart hisSend howner hrequested hcarCommand hcmdlength htimer

end WsnContest.CarP
