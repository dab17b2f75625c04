import WsnContest.Car.CommandChain
import WsnContest.Car.Steering

/-! From the keys to the bytes on the UART. What the motor board is told follows from the
keys that the car obeys: each asks for some commands, of which the driver takes the first
at most, and of each command it has taken the board gets the frame, or the beginning of it. -/
namespace WsnContest.CarNode
open Tinyos Lib Car
open CarP (Rx Command Framed)

/-- What a key makes of `angle`, whatever the driver answers. -/
def steer (angle cmd : Word16) : Word16 :=
  match Cmd.ofCode? cmd with
  | some .a_ => if leftServo < angle + angleStep then angle else angle + angleStep
  | some .d_ => if angle - angleStep < rightServo then angle else angle - angleStep
  | some .__ => midAngle
  | _ => angle

/-- The commands that each key of a text asks for, where `angle` is what the keys before it
have made of it. -/
def course (angle : Word16) : List Word16 → List (List Command)
  | [] => []
  | cmd :: cmds => issued cmd { angle := angle } :: course (steer angle cmd) cmds

/-- The commands of the start are not asked for by a key. -/
def isSetup : Command → Bool
  | .initMaxSpeed _ | .initMinSpeed _ | .initLeftServo _ | .initRightServo _
  | .initMidServo _ => true
  | .angle _ | .forward _ | .back _ | .quiryReader _ | .pause => false

def order? : Output → Option Command
  | .driver (.accepted c) => some c
  | _ => none

/-- The commands that the driver has accepted. -/
def orders (out : List Output) : List Command := out.filterMap order?

def frame? : Output → Option (List Word8)
  | .driver (.wrote bytes) => some bytes
  | _ => none

/-- What the motor board has got. -/
def board (out : List Output) : List (List Word8) := out.filterMap frame?

/-- The keys for which the command switch was entered. -/
def keys (out : List Output) : List Word16 := (CommandChain.obeyed out).map TestCarMsg.cmd

def asked (cs : List Command) : List Command := cs.filter fun c => !isSetup c

theorem course_append (angle : Word16) (cmds cmds' : List Word16) :
    course angle (cmds ++ cmds') = course angle cmds ++ course (cmds.foldl steer angle) cmds' := by
  induction cmds generalizing angle with
  | nil => rfl
  | cons cmd cmds ih => rw [List.cons_append, course, course, ih, List.foldl_cons, List.cons_append]

theorem orders_append (out out' : List Output) :
    orders (out ++ out') = orders out ++ orders out' := List.filterMap_append

theorem board_append (out out' : List Output) : board (out ++ out') = board out ++ board out' :=
  List.filterMap_append

theorem keys_append (out out' : List Output) : keys (out ++ out') = keys out ++ keys out' := by
  rw [keys, CommandChain.obeyed_append, List.map_append]
  rfl

/-- The buffer holds a command; a query leaves the last bytes as they were. -/
def Holds (bytes : List Word8) (c : Command) : Prop :=
  bytes = c.encode ∨ c.length = 4 ∧ ∃ lo, bytes = c.encode ++ [lo, 255, 255]

/-- The board gets as much of a command as fits. -/
def Conveys (fits : Word8 → Command → Prop) (bytes : List Word8) (c : Command) : Prop :=
  ∃ len whole, fits len c ∧ Holds whole c ∧ bytes = whole.take len.val

theorem holds_fill {bytes : List Word8} (h : Framed bytes) (c : Command) :
    Holds (c.fill bytes) c := by
  obtain ⟨⟨op, hi, lo, hfill⟩, -, htake⟩ := CarP.framed_fill h c
  rw [hfill] at htake ⊢
  obtain ⟨value, rfl⟩ | ⟨value, -, hlength, -⟩ := CarP.quiryReader_or_drive c
  · refine .inr ⟨rfl, lo, ?_⟩
    rw [← htake]
    rfl
  · rw [hlength] at htake
    exact .inl htake

/-- What the driver has in hand: a command that waits for its grant in the buffer, and
commands that the board has got. -/
structure Carried (fits : Word8 → Command → Prop) (car : CarP.State) (waiting : Option Command)
    (sent : List Command) (bytes : List (List Word8)) : Prop where
  framed : Framed car.carCommand
  requested : car.requested = waiting.isSome
  holds : ∀ c ∈ waiting, Holds car.carCommand c ∧ fits car.cmdlength c
  conveyed : List.Forall₂ (Conveys fits) bytes sent

namespace Carried
variable {fits : Word8 → Command → Prop} {car car' : CarP.State} {waiting : Option Command}
  {sent : List Command} {bytes : List (List Word8)}

theorem init : Carried fits {} none [] [] :=
  ⟨⟨1, 0, 0, rfl⟩, rfl, fun _ hc => (nomatch hc), .nil⟩

/-- The driver keeps the buffer and the request. -/
theorem keep (h : Carried fits car waiting sent bytes) (hcommand : car'.carCommand = car.carCommand)
    (hlength : car'.cmdlength = car.cmdlength) (hrequested : car'.requested = car.requested) :
    Carried fits car' waiting sent bytes := by
  refine ⟨hcommand ▸ h.framed, hrequested.trans h.requested, fun c hc => ?_, h.conveyed⟩
  rw [hcommand, hlength]
  exact h.holds c hc

/-- An accepted command takes the place of one that still waits. -/
theorem accept (h : Carried fits car waiting sent bytes) {c : Command} (hc : fits c.length c)
    (irqs : List (List Rx)) (hready : car.ready = true) :
    Carried fits (CarP.call c irqs car).1 (some c) sent bytes := by
  rw [CarP.call_ready hready]
  refine ⟨(CarP.framed_fill h.framed c).1, rfl, fun d hd => ?_, h.conveyed⟩
  obtain rfl : c = d := Option.some.inj hd
  exact ⟨holds_fill h.framed c, hc⟩

/-- A refused one only sets the length. -/
theorem refuse (h : Carried fits car waiting sent bytes) {c : Command}
    (hc : ∀ w ∈ waiting, fits c.length w) (irqs : List (List Rx)) (hready : car.ready = false) :
    Carried fits (CarP.call c irqs car).1 waiting sent bytes := by
  have hheard := (CarP.call_refused c irqs hready).2
  have hcommand : (CarP.call c irqs car).1.carCommand = car.carCommand :=
    hheard.carCommand.trans (CarP.framed_stamp h.framed)
  refine ⟨hcommand ▸ h.framed, hheard.requested.trans h.requested, fun w hw => ?_, h.conveyed⟩
  rw [hcommand, hheard.cmdlength]
  exact ⟨(h.holds w hw).1, hc w hw⟩

/-- At a grant the board gets what waits. -/
theorem grant (h : Carried fits car waiting sent bytes) {irqs : List Rx} {frame : List Word8}
    (hcar : CarP.step car (.granted irqs) = some (car', [.wrote frame])) :
    ∃ c, waiting = some c ∧ Carried fits car' none (sent ++ [c]) (bytes ++ [frame]) := by
  cases CarP.step_effect hcar with
  | granted hrequested howner ht =>
    have hheard := CarP.heard_rxAll irqs { car with requested := false, owner := true }
    rw [← ht] at hheard
    obtain ⟨c, rfl⟩ : ∃ c, waiting = some c :=
      Option.isSome_iff_exists.mp (h.requested ▸ hrequested)
    obtain ⟨hholds, hfits⟩ := h.holds c rfl
    have hconveyed : List.Forall₂ (Conveys fits) (bytes ++ [car.carCommand.take car.cmdlength])
        (sent ++ [c]) :=
      List.rel_append h.conveyed (.cons ⟨_, _, hfits, hholds, rfl⟩ .nil)
    refine ⟨c, rfl, ?_, ?_, fun d hd => (nomatch hd), hconveyed⟩
    · split <;> exact hheard.carCommand ▸ h.framed
    · split <;> exact hheard.requested

theorem step (h : Carried fits car waiting sent bytes) {e : CarP.Event} {out : List CarP.Output}
    (hcar : CarP.step car e = some (car', out))
    (hother : e matches .rxDone _ | .timer1Fired _ | .recvTask _) :
    Carried fits car' waiting sent bytes := by
  cases CarP.step_effect hcar with
  | start | stop | accepted | refused | granted => cases hother
  | rxDone ht => exact h.keep ht.carCommand ht.cmdlength ht.requested
  | timer1Fired htimer ht => exact h.keep ht.carCommand ht.cmdlength ht.requested
  | recvTask _ _ _ _ hrequested hcarCommand hcmdlength _ =>
    exact h.keep hcarCommand hcmdlength hrequested

end Carried

section Calls
variable {c : Command} {irqs : List (List Rx)} {s : State}

theorem callCar_orders : orders (callCar c irqs s).2 = if s.car.ready then [c] else [] := by
  cases hready : s.car.ready with
  | true => rw [(callCar_ready hready).1]; rfl
  | false => rw [callCar_refused hready]; rfl

theorem callCar_told : board (callCar c irqs s).2 = [] ∧ keys (callCar c irqs s).2 = [] := by
  unfold callCar
  dsimp only
  split <;> exact ⟨rfl, rfl⟩

/-- Of calls in a row the driver takes the first, if it is ready. -/
theorem callAll_orders (cs : List Command) :
    orders (callAll irqs cs s).2 = if s.car.ready then cs.take 1 else [] := by
  have hbusy : ∀ cs (t : State), t.car.ready = false → orders (callAll irqs cs t).2 = [] := by
    intro cs
    induction cs with
    | nil => intro t ht; rfl
    | cons c cs ih =>
      intro t ht
      rw [callAll, orders_append, callCar_orders, if_neg (by simp [ht]), ih _ callCar_busy]
      rfl
  cases cs with
  | nil => simp [callAll, orders]
  | cons c cs =>
    rw [callAll, orders_append, callCar_orders, hbusy cs _ callCar_busy, List.append_nil]
    rfl

theorem callAll_told (cs : List Command) :
    board (callAll irqs cs s).2 = [] ∧ keys (callAll irqs cs s).2 = [] := by
  induction cs generalizing s with
  | nil => exact ⟨rfl, rfl⟩
  | cons c cs ih =>
    rw [callAll, board_append, keys_append, callCar_told.1, callCar_told.2]
    exact ih

theorem callAll_angle (cs : List Command) : (callAll irqs cs s).1.angle = s.angle := by
  induction cs generalizing s with
  | nil => rfl
  | cons c cs ih => exact ih

theorem carStartDone_callAll : carStartDone s = callAll [] [.initLeftServo leftServo,
    .initRightServo rightServo, .initMidServo midAngle] s := by
  simp [carStartDone, callAll]

theorem obey_angle (cmd : Word16) : (obey cmd irqs s).1.angle = steer s.angle cmd := by
  unfold obey steer
  cases Cmd.ofCode? cmd with
  | none => rfl
  | some key =>
    cases key with
    | a_ | d_ => dsimp only; split <;> rfl
    | _ => rfl

/-- The driver sees nothing of a handler but its calls. -/
theorem callAll_car {t : State} (cs : List Command) (h : s.car = t.car) :
    (callAll irqs cs s).1.car = (callAll irqs cs t).1.car := by
  induction cs generalizing s t with
  | nil => exact h
  | cons c cs ih => exact ih (by simp [callCar, h])

theorem obey_car (cmd : Word16) :
    (obey cmd irqs s).1.car = (callAll irqs (issued cmd s) s).1.car := by
  unfold obey issued
  cases Cmd.ofCode? cmd with
  | none => rfl
  | some key =>
    cases key with
    | a_ | d_ => dsimp only; split <;> rfl
    | _ => rfl

end Calls

/-- A handler that neither calls the driver nor enters the command switch. -/
structure Quiet (s : State) (r : State × List Output) : Prop where
  car : r.1.car = s.car
  angle : r.1.angle = s.angle
  orders : orders r.2 = []
  board : board r.2 = []
  keys : keys r.2 = []

section Quiet
variable {s : State}

theorem sendData_quiet (sent : ErrorT) : Quiet s (sendData sent s) := by
  obtain ⟨packet, busyRadio, out, heq, hout⟩ := sendData_eq sent s
  rw [heq]
  rcases hout with rfl | rfl <;> exact ⟨rfl, rfl, rfl, rfl, rfl⟩

theorem resendTimerFired_quiet (sent : ErrorT) : Quiet s (resendTimerFired sent s) := by
  unfold resendTimerFired
  dsimp only
  split
  · obtain ⟨hcar, hangle, horders, hboard, hkeys⟩ :=
      @sendData_quiet { s with resendCount := s.resendCount + 1 } sent
    exact ⟨hcar, hangle, horders, hboard, hkeys⟩
  · exact ⟨rfl, rfl, rfl, rfl, rfl⟩

theorem readDone_quiet (state : ErrorT) (data : Word16) (sent : ErrorT) :
    Quiet s (readDone state data sent s) := by
  unfold readDone
  split
  · obtain ⟨hcar, hangle, horders, hboard, hkeys⟩ :=
      @sendData_quiet { s with currentData := data, resendCount := 0 } sent
    exact ⟨hcar, hangle, horders, hboard, hkeys⟩
  · exact ⟨rfl, rfl, rfl, rfl, rfl⟩

end Quiet

/-- Of the calls of a handler the driver takes the first, if it is ready; the lengths that
the others leave must fit. -/
theorem Carried.callAll {fits : Word8 → Command → Prop} {s : State} {waiting : Option Command}
    {sent : List Command} {bytes : List (List Word8)}
    (h : Carried fits s.car waiting sent bytes) (irqs : List (List Rx)) (cs : List Command)
    (hfit : ∀ c ∈ cs, ∀ d ∈ cs, fits d.length c)
    (hwaiting : ∀ w ∈ waiting, ∀ d ∈ cs, fits d.length w) :
    Carried fits (callAll irqs cs s).1.car ((if s.car.ready then cs.head? else none).or waiting)
      sent bytes := by
  have hbusy : ∀ cs (t : State) w, t.car.ready = false → Carried fits t.car w sent bytes →
      (∀ c ∈ w, ∀ d ∈ cs, fits d.length c) →
      Carried fits (CarNode.callAll irqs cs t).1.car w sent bytes := by
    intro cs
    induction cs with
    | nil => intro t w _ ht _; exact ht
    | cons c cs ih =>
      intro t w hready ht hw
      refine ih _ w callCar_busy (ht.refuse (fun d hd => hw d hd c List.mem_cons_self) irqs hready)
        fun d hd e he => hw d hd e (List.mem_cons_of_mem _ he)
  cases hready : s.car.ready with
  | false => exact hbusy cs s waiting hready h hwaiting
  | true =>
    cases cs with
    | nil => exact h
    | cons c cs =>
      refine hbusy cs _ (some c) callCar_busy
        (h.accept (hfit c List.mem_cons_self c List.mem_cons_self) irqs hready) fun d hd e he => ?_
      obtain rfl : c = d := Option.some.inj hd
      exact hfit c List.mem_cons_self e (List.mem_cons_of_mem _ he)

def setup : List Command :=
  [.initLeftServo leftServo, .initRightServo rightServo, .initMidServo midAngle]

/-- After `CarControl.start`. -/
def State.on (s : State) : State := { s with car := { s.car with isStart := true } }

/-- What a step means for the driver and the board. -/
inductive Turn (s : State) : Input → State → List Output → Prop
  | quiet {e : Input} {t : State} {out : List Output}
      (hcarried : ∀ {fits : Word8 → Command → Prop} {waiting sent bytes},
        Carried fits s.car waiting sent bytes → Carried fits t.car waiting sent bytes)
      (hangle : t.angle = s.angle) (horders : orders out = []) (hboard : board out = [])
      (hkeys : keys out = []) : Turn s e t out
  | obeyed {len : Word8} {rm : TestCarMsg} {irqs : List (List Rx)} {t : State}
      {out : List Output} (hlen : len = sizeofTestCarMsg) (hseq : s.seq < rm.seq)
      (hcar : t.car = (callAll irqs (issued rm.cmd s) s).1.car)
      (hangle : t.angle = steer s.angle rm.cmd)
      (horders : orders out = if s.car.ready then (issued rm.cmd s).take 1 else [])
      (hboard : board out = []) (hkeys : keys out = [rm.cmd]) :
      Turn s (.frame len rm irqs) t out
  | started {t : State} {out : List Output} (hcar : t.car = (callAll [] setup s.on).1.car)
      (hangle : t.angle = s.angle)
      (horders : orders out = if s.on.car.ready then setup.take 1 else [])
      (hboard : board out = []) (hkeys : keys out = []) :
      Turn s (.event (.startDone .success)) t out
  | granted {irqs : List Rx} {car : CarP.State} {frame : List Word8}
      (hcar : CarP.step s.car (.granted irqs) = some (car, [.wrote frame])) :
      Turn s (.event (.granted irqs)) { s with car := car } [.driver (.wrote frame)]

theorem step_turn {s t : State} {e : Input} {out : List Output}
    (h : machine.step s e = some (t, out)) : Turn s e t out := by
  cases step_effect h with
  | ignored hstale => exact .quiet (fun hc => hc) rfl rfl rfl rfl
  | @obeyed len rm irqs hlen hseq =>
    have hcalls : (obey rm.cmd irqs { s with seq := rm.seq }).2 =
        (callAll irqs (issued rm.cmd s) { s with seq := rm.seq }).2 := obey_calls rm.cmd
    obtain ⟨hboard, hkeys⟩ :=
      @callAll_told irqs { s with seq := rm.seq } (issued rm.cmd s)
    refine .obeyed hlen hseq ?_ (obey_angle _) ?_ ?_ ?_
    · exact (obey_car rm.cmd).trans (callAll_car _ rfl)
    · rw [hcalls]
      exact @callAll_orders irqs { s with seq := rm.seq } (issued rm.cmd s)
    · rw [hcalls]
      exact hboard
    · rw [hcalls]
      exact congrArg (rm.cmd :: ·) hkeys
  | radioFailed herr => exact .quiet (fun hc => hc) rfl rfl rfl rfl
  | started =>
    rw [carStartDone_callAll]
    obtain ⟨hboard, hkeys⟩ := @callAll_told [] s.on setup
    exact .started rfl (callAll_angle setup) (callAll_orders setup) hboard hkeys
  | @resendTimerFired sent htimer =>
    have hquiet := @resendTimerFired_quiet s sent
    exact .quiet (fun hc => hquiet.car ▸ hc) hquiet.angle hquiet.orders hquiet.board hquiet.keys
  | sendDone hdone => exact .quiet (fun hc => hc) rfl rfl rfl rfl
  | granted hcar => exact .granted hcar
  | @rxDone b =>
    have hheard := CarP.heard_rxDone b s.car
    exact .quiet (fun hc => hc.keep hheard.carCommand hheard.cmdlength hheard.requested)
      rfl rfl rfl rfl
  | timer1Fired hcar => exact .quiet (fun hc => hc.step hcar rfl) rfl rfl rfl rfl
  | @recvTask irqs sent car state data hcar =>
    have hquiet := @readDone_quiet { s with car := car } state data sent
    exact .quiet (fun hc => hquiet.car ▸ hc.step hcar rfl) hquiet.angle hquiet.orders hquiet.board
      hquiet.keys

/-- No key asks for a command of the start. -/
theorem asked_issued (cmd : Word16) (s : State) {cs : List Command}
    (hcs : cs.Sublist (issued cmd s)) : asked cs = cs := by
  have hissued : ∀ c ∈ issued cmd s, isSetup c = false := by
    unfold issued
    split
    case h_3 | h_4 =>
      split
      · simp
      · simp [isSetup]
    all_goals simp [isSetup]
  exact List.filter_eq_self.mpr fun c hc => by simp [hissued c (hcs.subset hc)]

/-- A key that asks for more than one command asks for commands of one length. -/
theorem length_issued (cmd : Word16) (s : State) :
    ∀ c ∈ issued cmd s, ∀ d ∈ issued cmd s, d.length = c.length := by
  unfold issued
  split
  case h_3 | h_4 =>
    split
    · simp
    · simp
  all_goals simp [Command.length]

/-- The keys account for `angle` and, by `R`, for the commands that were accepted. -/
structure Follows (R : List Command → List Command → Prop) (s : State × List Output) :
    Prop where
  angle : s.1.angle = (keys s.2).foldl steer midAngle
  taken : ∃ taken, asked (orders s.2) = taken.flatten ∧
    List.Forall₂ R taken (course midAngle (keys s.2))

section Follows
variable {R : List Command → List Command → Prop} {s : State × List Output} {t : State}
  {e : Input} {out : List Output}

theorem Follows.keep (h : Follows R s) (hangle : t.angle = s.1.angle)
    (horders : asked (orders out) = []) (hkeys : keys out = []) : Follows R (t, s.2 ++ out) := by
  have hasked : asked (orders (s.2 ++ out)) = asked (orders s.2) := by
    rw [orders_append, asked, List.filter_append]
    exact (congrArg (asked (orders s.2) ++ ·) horders).trans (List.append_nil _)
  have hsame : keys (s.2 ++ out) = keys s.2 := by rw [keys_append, hkeys, List.append_nil]
  exact ⟨by rw [hsame, hangle, h.angle], by rw [hsame, hasked]; exact h.taken⟩

theorem Follows.step (h : Follows R s) (hturn : Turn s.1 e t out)
    (hkey : ∀ len rm irqs, e = .frame len rm irqs → len = sizeofTestCarMsg → s.1.seq < rm.seq →
      R (if s.1.car.ready then (issued rm.cmd s.1).take 1 else []) (issued rm.cmd s.1)) :
    Follows R (t, s.2 ++ out) := by
  cases hturn with
  | quiet _ hangle horders _ hkeys => exact h.keep hangle (by rw [horders]; rfl) hkeys
  | started _ hangle horders _ hkeys =>
    refine h.keep hangle ?_ hkeys
    rw [horders]
    split <;> rfl
  | granted hcar => exact h.keep rfl rfl rfl
  | @obeyed len rm irqs _ _ hlen hseq _ hangle horders _ hkeys =>
    obtain ⟨taken, htaken, hfollow⟩ := h.taken
    have hall : keys (s.2 ++ out) = keys s.2 ++ [rm.cmd] := by rw [keys_append, hkeys]
    have hnew : asked (orders out) = orders out := by
      rw [horders]
      split
      · exact asked_issued rm.cmd s.1 (List.take_sublist 1 _)
      · rfl
    have hcourse : course midAngle (keys s.2 ++ [rm.cmd]) =
        course midAngle (keys s.2) ++ [issued rm.cmd s.1] := by
      rw [course_append, ← h.angle]
      rfl
    refine ⟨?_, taken ++ [orders out], ?_, ?_⟩
    · rw [hall, List.foldl_append, ← h.angle]
      exact hangle
    · rw [orders_append, List.flatten_concat, ← htaken, asked, List.filter_append]
      exact congrArg (asked (orders s.2) ++ ·) hnew
    · rw [hall, hcourse, horders]
      exact List.rel_append hfollow (.cons (hkey len rm irqs rfl hlen hseq) .nil)

end Follows

/-- What the board gets for a command: its frame, the frame cut after four bytes, or, for a
query, the end of the buffer behind it. -/
def Reaches (bytes : List Word8) (c : Command) : Prop :=
  bytes = c.encode ∨ bytes = c.encode.take 4 ∨
    c.length = 4 ∧ ∃ lo, bytes = c.encode ++ [lo, 255, 255]

/-- A refused command may have set the length. -/
def anyLength (len : Word8) (_ : Command) : Prop := len = 4 ∨ len = 7

theorem anyLength_length (c d : Command) : anyLength d.length c := by
  cases d with
  | quiryReader value => exact .inl rfl
  | _ => exact .inr rfl

theorem encode_length (c : Command) : c.encode.length = c.length.val := by
  obtain ⟨value, rfl⟩ | ⟨value, -, hlength, -⟩ := CarP.quiryReader_or_drive c
  · rfl
  · have hseven : (7 : Word8) ≠ 4 := by decide
    simp only [Command.encode, hlength, hseven, ↓reduceIte]
    rfl

theorem Conveys.reaches {bytes : List Word8} {c : Command} (h : Conveys anyLength bytes c) :
    Reaches bytes c := by
  obtain ⟨len, whole, hlen, hholds, rfl⟩ := h
  have hlong := encode_length c
  have hshort : c.length.val ≤ 7 := by
    rcases anyLength_length c c with hfour | hseven
    · rw [hfour]
      decide
    · rw [hseven]
      decide
  rcases hholds with rfl | ⟨hfour, lo, rfl⟩
  · rcases hlen with rfl | rfl
    · exact .inr (.inl rfl)
    · exact .inl (List.take_of_length_le (hlong.trans_le hshort))
  · rw [hfour] at hlong
    have hlong' : c.encode.length = 4 := hlong
    rcases hlen with rfl | rfl
    · exact .inl (List.take_left' hlong')
    · refine .inr (.inr ⟨hfour, lo, List.take_of_length_le ?_⟩)
      rw [List.length_append, hlong']
      rfl

/-- What holds in every run: the keys allow what was accepted, and the board has got, in
order, some of that. -/
structure Driven (s : State × List Output) : Prop where
  follows : Follows List.Sublist s
  carried : ∃ waiting sent, Carried anyLength s.1.car waiting sent (board s.2) ∧
    (sent ++ waiting.toList).Sublist (orders s.2)

theorem driven_init : Driven machine.system.init :=
  ⟨⟨rfl, [], rfl, .nil⟩, none, [], .init, .slnil⟩

/-- A handler's calls, of which one may take the place of the command that waits. -/
theorem Driven.calls {s : State × List Output} {u t : State} {out : List Output}
    {irqs : List (List Rx)} {waiting : Option Command} {sent cs : List Command}
    (hcarried : Carried anyLength u.car waiting sent (board s.2))
    (hsent : (sent ++ waiting.toList).Sublist (orders s.2))
    (hcar : t.car = (callAll irqs cs u).1.car)
    (horders : orders out = if u.car.ready then cs.take 1 else []) (hboard : board out = []) :
    ∃ waiting sent, Carried anyLength t.car waiting sent (board (s.2 ++ out)) ∧
      (sent ++ waiting.toList).Sublist (orders (s.2 ++ out)) := by
  have hcalls := hcarried.callAll irqs cs (fun c _ d _ => anyLength_length c d)
    fun c _ d _ => anyLength_length c d
  rw [← hcar] at hcalls
  rw [board_append, hboard, List.append_nil, orders_append, horders]
  refine ⟨_, sent, hcalls, ?_⟩
  cases hready : u.car.ready with
  | false => simpa using hsent
  | true =>
    cases cs with
    | nil => simpa using hsent
    | cons c cs =>
      exact ((List.sublist_append_left _ _).trans hsent).append (.refl [c])

theorem driven_step {s : State × List Output} {t : State} {e : Input} {out : List Output}
    (h : Driven s) (hstep : machine.step s.1 e = some (t, out)) : Driven (t, s.2 ++ out) := by
  have hturn := step_turn hstep
  obtain ⟨waiting, sent, hcarried, hsent⟩ := h.carried
  refine ⟨h.follows.step hturn fun len rm irqs _ _ _ => ?_, ?_⟩
  · split
    · exact List.take_sublist 1 _
    · exact List.nil_sublist _
  cases hturn with
  | quiet hkeep hangle horders hboard hkeys =>
    rw [board_append, hboard, List.append_nil, orders_append, horders, List.append_nil]
    exact ⟨waiting, sent, hkeep hcarried, hsent⟩
  | obeyed hlen hseq hcar hangle horders hboard hkeys =>
    exact Driven.calls hcarried hsent hcar horders hboard
  | started hcar hangle horders hboard hkeys =>
    have hon : Carried anyLength s.1.on.car waiting sent (board s.2) := hcarried.keep rfl rfl rfl
    exact Driven.calls hon hsent hcar horders hboard
  | @granted irqs car frame hcar =>
    obtain ⟨c, rfl, hgranted⟩ := hcarried.grant hcar
    have hnone : orders [.driver (.wrote frame)] = [] := rfl
    rw [board_append, orders_append, hnone, List.append_nil]
    exact ⟨none, sent ++ [c], hgranted, by simpa using hsent⟩

theorem flatten_sublist {α : Type} {l l' : List (List α)} (h : List.Forall₂ List.Sublist l l') :
    l.flatten.Sublist l'.flatten := by
  induction h with
  | nil => exact .slnil
  | cons hsub _ ih => exact hsub.append ih

/-- In every run what the board gets are, in order, commands that the keys ask for. -/
theorem Driven.board_reached {s : State × List Output} (h : Driven s) :
    ∃ sent, List.Forall₂ Reaches (board s.2) sent ∧
      (asked sent).Sublist (course midAngle (keys s.2)).flatten := by
  obtain ⟨waiting, sent, hcarried, hsent⟩ := h.carried
  obtain ⟨taken, htaken, hfollow⟩ := h.follows.taken
  have hflat := flatten_sublist hfollow
  refine ⟨sent, hcarried.conveyed.imp fun bytes c hc => hc.reaches, ?_⟩
  rw [← htaken] at hflat
  exact (((List.sublist_append_left sent waiting.toList).trans hsent).filter _).trans hflat

/-- No key comes, and the driver is not started, before it is done with what it was told. -/
def Patient (s : State × List Output) : Input → Prop
  | .frame len rm _ => len = sizeofTestCarMsg → s.1.seq < rm.seq → issued rm.cmd s.1 ≠ [] →
      s.1.car.ready = true ∧ s.1.car.requested = false
  | .event (.startDone err) => err = .success →
      s.1.car.isSend = false ∧ s.1.car.requested = false
  | .event (.resendTimerFired _) | .event .sendDone | .event (.granted _) | .event (.rxDone _)
  | .event (.timer1Fired _) | .event (.recvTask ..) => True

instance (s : State × List Output) : (e : Input) → Decidable (Patient s e)
  | .frame len rm _ => inferInstanceAs (Decidable (len = sizeofTestCarMsg → s.1.seq < rm.seq →
      issued rm.cmd s.1 ≠ [] → s.1.car.ready = true ∧ s.1.car.requested = false))
  | .event (.startDone err) => inferInstanceAs (Decidable (err = .success →
      s.1.car.isSend = false ∧ s.1.car.requested = false))
  | .event (.resendTimerFired _) | .event .sendDone | .event (.granted _) | .event (.rxDone _)
  | .event (.timer1Fired _) | .event (.recvTask ..) => .isTrue trivial

def ownLength (len : Word8) (c : Command) : Prop := len = c.length

theorem Conveys.eq_encode {bytes : List Word8} {c : Command} (h : Conveys ownLength bytes c) :
    bytes = c.encode := by
  obtain ⟨len, whole, rfl, hholds, rfl⟩ := h
  have hlong := encode_length c
  rcases hholds with rfl | ⟨hfour, lo, rfl⟩
  · exact List.take_of_length_le hlong.le
  · exact List.take_left' hlong

/-- What holds while nobody is impatient: the first command that each key asks for was
accepted, and the board has got all that was accepted but one that waits. -/
structure Obliging (s : State × List Output) : Prop where
  follows : Follows (fun taken asked => taken = asked.take 1) s
  carried : ∃ waiting sent, Carried ownLength s.1.car waiting sent (board s.2) ∧
    sent ++ waiting.toList = orders s.2

theorem obliging_init : Obliging machine.system.init :=
  ⟨⟨rfl, [], rfl, .nil⟩, none, [], .init, rfl⟩

theorem Obliging.calls {s : State × List Output} {u t : State} {out : List Output}
    {irqs : List (List Rx)} {sent cs : List Command}
    (hcarried : Carried ownLength u.car none sent (board s.2)) (hsent : sent = orders s.2)
    (hlength : ∀ c ∈ cs, ∀ d ∈ cs, d.length = c.length)
    (hcar : t.car = (callAll irqs cs u).1.car)
    (horders : orders out = if u.car.ready then cs.take 1 else []) (hboard : board out = []) :
    ∃ waiting sent, Carried ownLength t.car waiting sent (board (s.2 ++ out)) ∧
      sent ++ waiting.toList = orders (s.2 ++ out) := by
  have hcalls := hcarried.callAll irqs cs hlength fun c hc => (nomatch hc)
  rw [← hcar] at hcalls
  rw [board_append, hboard, List.append_nil, orders_append, horders, ← hsent]
  refine ⟨_, sent, hcalls, ?_⟩
  cases u.car.ready with
  | false => rfl
  | true =>
    cases cs with
    | nil => rfl
    | cons c cs => rfl

theorem obliging_step {s : State × List Output} {t : State} {e : Input} {out : List Output}
    (h : Obliging s) (hpatient : Patient s e) (hstep : machine.step s.1 e = some (t, out)) :
    Obliging (t, s.2 ++ out) := by
  have hturn := step_turn hstep
  obtain ⟨waiting, sent, hcarried, hsent⟩ := h.carried
  have hidle : s.1.car.requested = false → waiting = none := by
    intro hrequested
    rw [hcarried.requested] at hrequested
    simpa using hrequested
  refine ⟨h.follows.step hturn fun len rm irqs he hlen hseq => ?_, ?_⟩
  · subst he
    by_cases hissued : issued rm.cmd s.1 = []
    · simp [hissued]
    · rw [if_pos (hpatient hlen hseq hissued).1]
  cases hturn with
  | quiet hkeep hangle horders hboard hkeys =>
    rw [board_append, hboard, List.append_nil, orders_append, horders, List.append_nil]
    exact ⟨waiting, sent, hkeep hcarried, hsent⟩
  | @obeyed len rm irqs _ _ hlen hseq hcar hangle horders hboard hkeys =>
    by_cases hissued : issued rm.cmd s.1 = []
    · rw [hissued] at hcar horders
      rw [board_append, hboard, List.append_nil, orders_append, horders]
      exact ⟨waiting, sent, hcar ▸ hcarried, by simpa using hsent⟩
    · obtain rfl := hidle (hpatient hlen hseq hissued).2
      exact Obliging.calls hcarried (by simpa using hsent) (length_issued rm.cmd s.1) hcar
        horders hboard
  | started hcar hangle horders hboard hkeys =>
    obtain rfl := hidle (hpatient rfl).2
    have hon : Carried ownLength s.1.on.car none sent (board s.2) := hcarried.keep rfl rfl rfl
    exact Obliging.calls hon (by simpa using hsent) (by simp [setup, Command.length]) hcar
      horders hboard
  | @granted irqs car frame hcar =>
    obtain ⟨c, rfl, hgranted⟩ := hcarried.grant hcar
    have hnone : orders [.driver (.wrote frame)] = [] := rfl
    rw [board_append, orders_append, hnone, List.append_nil]
    exact ⟨none, sent ++ [c], hgranted, by simpa using hsent⟩

/-- A car that is given time to finish: the bytes on the UART are the whole frames of
commands, in order, and these, with one that may still wait for its grant, are the first
command that each key obeyed asks for, at the angle that the keys before it have made. -/
theorem patient_car_obeys {s : State × List Output} (h : machine.system.Reachable Patient s) :
    ∃ sent, ∃ waiting : Option Command, board s.2 = sent.map Command.encode ∧
      waiting.isSome = s.1.car.requested ∧
      asked (sent ++ waiting.toList) = (course midAngle (keys s.2)).flatMap (List.take 1) := by
  have hobliging : Obliging s := by
    apply Machine.invariant (P := Obliging) h obliging_init
    intro s e t out hs hpatient hstep
    exact obliging_step hs hpatient hstep
  obtain ⟨waiting, sent, hcarried, hsent⟩ := hobliging.carried
  obtain ⟨taken, htaken, hfollow⟩ := hobliging.follows.taken
  refine ⟨sent, waiting, ?_, hcarried.requested.symm, ?_⟩
  · have hwhole := hcarried.conveyed.imp fun bytes c hc => hc.eq_encode
    rw [← List.forall₂_eq_eq_eq, List.forall₂_map_right_iff]
    exact hwhole
  · have hfirst : taken = (course midAngle (keys s.2)).map (List.take 1) := by
      rw [← List.forall₂_eq_eq_eq, List.forall₂_map_right_iff]
      exact hfollow
    rw [hsent, htaken, hfirst, List.flatMap_def]

/-- A turn to the left, a start backwards, and a stop, which leaves the servo where it is. -/
theorem patient_car_obeys_turn : ∃ s, machine.system.Reachable Patient s ∧
    board s.2 = [[1, 2, 5, 14, 216, 255, 255], [1, 2, 1, 11, 84, 255, 255],
      [1, 2, 3, 1, 64, 255, 255]] ∧
    ∃ sent, ∃ waiting : Option Command, board s.2 = sent.map Command.encode ∧
      waiting.isSome = true ∧
      asked (sent ++ waiting.toList) = [.angle 2900, .back 320, .pause] := by
  have hrun : machine.system.run [.event (.startDone .success), .event (.granted []),
    .frame sizeofTestCarMsg ⟨1, Cmd.a_.code⟩ [], .event (.granted []),
    .frame sizeofTestCarMsg ⟨2, Cmd.w_.code⟩ [], .event (.granted []),
    .frame sizeofTestCarMsg ⟨3, Cmd.__.code⟩ []] = some _ := rfl
  have hreach : machine.system.Reachable Patient _ :=
    System.reachable_of_run _ (by decide) hrun
  exact ⟨_, hreach, by decide, patient_car_obeys hreach⟩

end WsnContest.CarNode

namespace WsnContest.CommandChain
open Tinyos Lib Car
variable {ι : Type}

/-- What a frame is to the car. -/
def heard (irqs : List (List CarP.Rx)) : Frame → Option CarNode.Input
  | .car len msg => some (.frame len msg irqs)
  | .serial _ _ | .data _ _ => none

/-- What an event of the network is to the car. -/
def carInput (c : Config ι) :
    Network.Event (PartyEvent (ι := ι)) PartyAnswer → Option CarNode.Input
  | .act .car (.node e) => some (.event e)
  | .deliver i .car irqs => c.log[i]?.bind fun entry => heard irqs entry.2
  | _ => none

/-- An assumption on what happens at the car. -/
def AtCar (allowed : CarNode.State × List CarNode.Output → CarNode.Input → Prop) (c : Config ι)
    (e : Network.Event (PartyEvent (ι := ι)) PartyAnswer) : Prop :=
  ∀ x ∈ carInput c e, allowed (c.node .car) x

section Car
variable [DecidableEq ι] {n : ℕ}
  {allowed : CarNode.State × List CarNode.Output → CarNode.Input → Prop}

/-- In the network a car does what it does by itself. -/
theorem car_reachable {c : Config ι} (h : (network ι n).system.Reachable (AtCar allowed) c) :
    CarNode.machine.system.Reachable allowed (c.node .car) := by
  have hinit : (network ι n).init .car = CarNode.machine.system.init := rfl
  refine Network.party_reachable hinit ?_ ?_ h
  · intro c e s fs hallowed hhandle
    cases e with
    | transmit =>
      obtain ⟨p, -, hpair⟩ := Option.map_eq_some_iff.mp hhandle
      exact .inl (Prod.mk.inj hpair).1.symm
    | node e =>
      obtain ⟨r, hnode, hpair⟩ := Option.map_eq_some_iff.mp hhandle
      obtain ⟨rfl, -⟩ := Prod.mk.inj hpair
      refine .inr ⟨.event e, hallowed _ rfl, ?_⟩
      have hstep : CarNode.machine.step (c.node .car).1 (.event e) = some r := hnode
      simp [Machine.system, hstep]
  · intro c i irqs u f hallowed hi
    cases f with
    | serial len msg | data len msg => exact .inl rfl
    | car len msg =>
      refine .inr ⟨.frame len msg irqs, hallowed _ ?_, rfl⟩
      simp [carInput, hi, heard]

theorem car_reachable_any {c : Config ι}
    (h : (network ι n).system.Reachable System.anyStep c) :
    CarNode.machine.system.Reachable System.anyStep (c.node .car) :=
  car_reachable (h.mono fun _ _ _ _ _ => trivial)

theorem driven_of_reachable {c : Config ι} (h : (network ι n).system.Reachable System.anyStep c) :
    CarNode.Driven (c.node .car) :=
  Machine.invariant (car_reachable_any h) CarNode.driven_init
    fun _ _ _ _ hs _ hstep => CarNode.driven_step hs hstep

end Car

theorem commands_cmd (n : ℕ) (cs : List Char) :
    (commands n cs).map TestCarMsg.cmd = (cs.filterMap keyCmd).map Cmd.code := by
  induction cs generalizing n with
  | nil => rfl
  | cons c cs ih =>
    rw [commands, List.map_append, ih]
    cases hkey : keyCmd c with
    | none => rw [List.filterMap_cons_none hkey]; rfl
    | some cmd => rw [List.filterMap_cons_some hkey]; rfl

/-- The numbers leave no other order. -/
theorem Obedient.sublist {n : ℕ} {text : List Char} {s : CarNode.State × List CarNode.Output}
    (h : Obedient (commands n text) s) (hbound : n + text.length < 2 ^ 31) :
    (obeyed s.2).Sublist (commands n text) := by
  have : Std.Antisymm fun a b : TestCarMsg => a.seq < b.seq :=
    ⟨fun _ _ hab hba => absurd hab hba.not_gt⟩
  have hnodup : (obeyed s.2).Nodup :=
    h.sorted.imp fun hlt heq => (congrArg TestCarMsg.seq heq).not_lt hlt
  exact List.sublist_of_subperm_of_pairwise (List.subperm_of_subset hnodup h.typed) h.sorted
    (commands_sorted n text hbound)

/-- From the keyboard to the motor board, whatever is lost, repeated, delayed or reordered on
the way and whenever the driver is busy: the keys obeyed are some of those typed, in their
order, and what the board gets, apart from the set-up, are some of the commands these ask for,
in their order. -/
theorem keyboard_drives_board [DecidableEq ι] (n : ℕ) (c : Config ι)
    (h : (network ι n).system.Reachable System.anyStep c)
    (hbound : n + (typed c).length < 2 ^ 31) (hreset : 'r' ∉ typed c) :
    ∃ keys : List Cmd, ∃ sent, keys.Sublist ((typed c).filterMap keyCmd) ∧
      CarNode.keys (c.node .car).2 = keys.map Cmd.code ∧
      List.Forall₂ CarNode.Reaches (CarNode.board (c.node .car).2) sent ∧
      (CarNode.asked sent).Sublist
        (CarNode.course CarNode.midAngle (keys.map Cmd.code)).flatten := by
  have hobedient : Obedient (commands n (typed c)) (c.node .car) :=
    sound_of_reachable h hreset .car
  have hsub : (CarNode.keys (c.node .car).2).Sublist
      (((typed c).filterMap keyCmd).map Cmd.code) := by
    rw [← commands_cmd n]
    exact (hobedient.sublist hbound).map TestCarMsg.cmd
  obtain ⟨keys, hkeys, heq⟩ := List.sublist_map_iff.mp hsub
  obtain ⟨sent, hreached, hasked⟩ := (driven_of_reachable h).board_reached
  rw [heq] at hasked
  exact ⟨keys, sent, hkeys, heq, hreached, hasked⟩

/-- A query that comes too early cuts the frame of the key before it. -/
theorem keyboard_drives_board_cut :
    ∃ c : Config Empty, typed c = ['w', '1'] ∧
      CarNode.board (c.node .car).2 = [[1, 2, 5, 14, 216, 255, 255], [1, 2, 3, 1]] ∧
      ∃ keys : List Cmd, ∃ sent, keys.Sublist [.w_, ._2] ∧
        CarNode.keys (c.node .car).2 = keys.map Cmd.code ∧
        List.Forall₂ CarNode.Reaches (CarNode.board (c.node .car).2) sent ∧
        (CarNode.asked sent).Sublist
          (CarNode.course CarNode.midAngle (keys.map Cmd.code)).flatten := by
  have hinit : (network Empty 1).system.Reachable System.anyStep _ := .init
  have hstart := hinit.step (e := .act .car (.node (.startDone .success))) trivial rfl
  have hset := hstart.step (e := .act .car (.node (.granted []))) trivial rfl
  have hw := hset.step (e := .act .pc 'w') trivial rfl
  have hserial := hw.step (e := .deliver 0 .pcNode ErrorT.success) trivial rfl
  have hair := hserial.step (e := .act .pcNode RadioEvent.transmit) trivial rfl
  have hcar := hair.step (e := .deliver 1 .car []) trivial rfl
  have hquery := hcar.step (e := .act .pc '1') trivial rfl
  have hover := hquery.step (e := .deliver 2 .pcNode ErrorT.ebusy) trivial rfl
  have hair' := hover.step (e := .act .pcNode RadioEvent.transmit) trivial rfl
  have hcar' := hair'.step (e := .deliver 3 .car []) trivial rfl
  have hgrant := hcar'.step (e := .act .car (.node (.granted []))) trivial rfl
  exact ⟨_, by decide, by decide, keyboard_drives_board 1 _ hgrant (by decide) (by decide)⟩

end WsnContest.CommandChain
