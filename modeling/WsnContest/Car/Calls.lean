import WsnContest.Car.Node

/-! Whether the calls that `CarNode` makes of its driver take effect. The first call of
a handler takes the lock of the driver, which gives it back only after a grant, so the
next one in the same handler is refused; the answers are ignored. -/
namespace WsnContest.CarNode
open Tinyos Lib Car

/-- Every Car command issued in the step returns `SUCCESS`. -/
def Heeded (s : State × List Output) (e : Input) : Prop :=
  ∀ r ∈ machine.step s.1 e, ∀ c, .driver (.refused c) ∉ r.2

/-- The Car commands that the command switch issues, in their order. -/
def issued (cmd : Word16) (s : State) : List CarP.Command :=
  match Cmd.ofCode? cmd with
  | some .w_ => [.back maxSpeed]
  | some .s_ => [.forward maxSpeed]
  | some .a_ => if leftServo < s.angle + angleStep then [] else [.angle (s.angle + angleStep)]
  | some .d_ => if s.angle - angleStep < rightServo then [] else [.angle (s.angle - angleStep)]
  | some .__ => [.pause, .angle midAngle]
  | some ._1 => [.quiryReader 100]
  | some ._2 => [.quiryReader 101]
  | some ._3 => [.quiryReader 102]
  | some ._4 => [.quiryReader 103]
  | some ._5 => [.quiryReader 104]
  | some ._6 => [.quiryReader 105]
  | some ._7 => [.quiryReader 106]
  | some ._8 => [.quiryReader 107]
  | some ._9 => [.quiryReader 108]
  | some ._A => [.quiryReader 109]
  | some ._B => [.quiryReader 110]
  | some ._C => [.quiryReader 111]
  | some ._D => [.quiryReader 112]
  | some ._E => [.quiryReader 113]
  | some ._F => [.quiryReader 114]
  | some .r_ => []
  | none => []

/-- The radio does not start the driver, and a fresh command issues no Car command, or
one while the driver is ready. -/
def Single (s : State × List Output) : Input → Prop
  | .event (.startDone err) => err ≠ .success
  | .frame len rm _ => len = sizeofTestCarMsg → s.1.seq < rm.seq →
      (issued rm.cmd s.1).length = 0 ∨
        (issued rm.cmd s.1).length = 1 ∧ s.1.car.ready = true
  | .event (.resendTimerFired _) | .event .sendDone | .event (.granted _) | .event (.rxDone _)
  | .event (.timer1Fired _) | .event (.recvTask ..) => True

instance (s : State × List Output) : (e : Input) → Decidable (Single s e)
  | .event (.startDone err) => inferInstanceAs (Decidable (err ≠ .success))
  | .frame len rm _ => inferInstanceAs (Decidable (len = sizeofTestCarMsg → s.1.seq < rm.seq →
      (issued rm.cmd s.1).length = 0 ∨
        (issued rm.cmd s.1).length = 1 ∧ s.1.car.ready = true))
  | .event (.resendTimerFired _) | .event .sendDone | .event (.granted _) | .event (.rxDone _)
  | .event (.timer1Fired _) | .event (.recvTask ..) => .isTrue trivial

/-- Car commands issued one after the other. -/
def callAll (irqs : List (List CarP.Rx)) : List CarP.Command → State → State × List Output
  | [], s => (s, [])
  | c :: cs, s =>
    ((callAll irqs cs (callCar c irqs s).1).1,
      (callCar c irqs s).2 ++ (callAll irqs cs (callCar c irqs s).1).2)

section Calls
variable {c : CarP.Command} {irqs : List (List CarP.Rx)} {s : State}

theorem callCar_ready (h : s.car.ready = true) :
    (callCar c irqs s).2 = [.driver (.accepted c)] ∧ (callCar c irqs s).1.car.ready = false := by
  unfold callCar
  rw [CarP.call_ready h]
  exact ⟨rfl, by simp [CarP.State.ready]⟩

theorem callCar_refused (h : s.car.ready = false) :
    (callCar c irqs s).2 = [.driver (.refused c)] := by
  have hcall := (CarP.call_refused c irqs h).1
  unfold callCar
  simp [hcall]

/-- Of calls in a row only the first can be accepted. -/
theorem callAll_heeded_iff (cs : List CarP.Command) :
    (∀ c, .driver (.refused c) ∉ (callAll irqs cs s).2) ↔
      cs.length = 0 ∨ cs.length = 1 ∧ s.car.ready = true := by
  cases cs with
  | nil => simp [callAll]
  | cons c cs =>
    cases hready : s.car.ready with
    | false =>
      have hfirst : .driver (.refused c) ∈ (callAll irqs (c :: cs) s).2 := by
        simp [callAll, callCar_refused hready]
      refine iff_of_false (fun hall => hall c hfirst) ?_
      simp
    | true =>
      obtain ⟨haccepted, hbusy⟩ := @callCar_ready c irqs s hready
      cases cs with
      | nil => simp [callAll, haccepted]
      | cons d cs =>
        have hsecond : .driver (.refused d) ∈ (callAll irqs (c :: d :: cs) s).2 := by
          simp [callAll, callCar_refused hbusy]
        refine iff_of_false (fun hall => hall d hsecond) ?_
        simp

theorem obey_calls (cmd : Word16) :
    (obey cmd irqs s).2 = (callAll irqs (issued cmd s) s).2 := by
  unfold obey issued
  cases Cmd.ofCode? cmd with
  | none => rfl
  | some key =>
    cases key with
    | a_ =>
      dsimp only
      split
      · rfl
      · exact (List.append_nil _).symm
    | d_ =>
      dsimp only
      split
      · rfl
      · exact (List.append_nil _).symm
    | r_ => rfl
    | __ =>
      -- the angle is set between the two calls, and no call reads it
      exact congrArg ((callCar .pause irqs s).2 ++ ·) (List.append_nil _).symm
    | _ => exact (List.append_nil _).symm

/-- The start of the driver issues three commands in a row. -/
theorem carStartDone_calls :
    (carStartDone s).2 = (callAll [] [.initLeftServo leftServo, .initRightServo rightServo,
      .initMidServo midAngle] s).2 := by
  simp [carStartDone, callAll]

theorem sendData_heeded (sent : ErrorT) (c : CarP.Command) :
    .driver (.refused c) ∉ (sendData sent s).2 := by
  obtain ⟨packet, busyRadio, out, heq, hout⟩ := sendData_eq sent s
  rw [heq]
  rcases hout with rfl | rfl
  · simp
  · simp

/-- The steps all of whose Car commands return `SUCCESS`. -/
theorem heeded_iff (s : State × List Output) (e : Input) {r : State × List Output}
    (h : machine.step s.1 e = some r) : Heeded s e ↔ Single s e := by
  obtain ⟨t, out⟩ := r
  have hheeded : Heeded s e ↔ ∀ c, .driver (.refused c) ∉ out := by
    unfold Heeded
    rw [h]
    simp
  rw [hheeded]
  cases step_effect h with
  | ignored hstale =>
    exact iff_of_true (by simp) fun hlen hseq => absurd ⟨hlen, hseq⟩ hstale
  | @obeyed len rm irqs hlen hseq =>
    have hissued := @callAll_heeded_iff irqs { s.1 with seq := rm.seq } (issued rm.cmd s.1)
    have hsingle : Single s (.frame len rm irqs) ↔ (issued rm.cmd s.1).length = 0 ∨
        (issued rm.cmd s.1).length = 1 ∧ s.1.car.ready = true :=
      ⟨fun hall => hall hlen hseq, fun hone _ _ => hone⟩
    rw [hsingle, obey_calls]
    simp only [List.mem_cons, reduceCtorEq, false_or]
    exact hissued
  | radioFailed herr => exact iff_of_true (by simp) herr
  | started =>
    have hthree := @callAll_heeded_iff [] { s.1 with car := { s.1.car with isStart := true } }
      [.initLeftServo leftServo, .initRightServo rightServo, .initMidServo midAngle]
    refine iff_of_false (fun hnone => ?_) fun hne => hne rfl
    rw [carStartDone_calls] at hnone
    have hone := hthree.mp fun c hc => hnone c (List.mem_cons_of_mem _ hc)
    simp at hone
  | @resendTimerFired sent htimer =>
    refine iff_of_true (fun c => ?_) trivial
    unfold resendTimerFired
    dsimp only
    split
    · exact sendData_heeded sent c
    · simp
  | sendDone hdone => exact iff_of_true (by simp) trivial
  | granted hcar => exact iff_of_true (by simp) trivial
  | rxDone => exact iff_of_true (by simp) trivial
  | timer1Fired hcar => exact iff_of_true (by simp) trivial
  | @recvTask irqs sent car state data hcar =>
    refine iff_of_true (fun c => ?_) trivial
    have hsent : .driver (.refused c) ∉ (readDone state data sent { s.1 with car := car }).2 := by
      unfold readDone
      split
      · exact sendData_heeded sent c
      · simp
    simpa using hsent

end Calls

/-- Along every run, from the boot or from any other state on, each Car command returns
`SUCCESS` exactly if no step starts the driver, and each fresh command issues one Car
command at most, and that while the driver is ready. -/
theorem commands_heeded_iff (s : State × List Output) (es : List Input) {t : State × List Output}
    (hrun : machine.system.runFrom s es = some t) :
    machine.system.AllowedFrom Heeded s es ↔ machine.system.AllowedFrom Single s es := by
  apply Machine.allowedFrom_congr (fun _ => True) ?_ es trivial hrun
  intro s e t out _ he
  exact ⟨heeded_iff s e he, fun _ => trivial⟩

/-- Once the driver has sent what it was started with, it takes one command at a time. -/
theorem commands_heeded_one_by_one :
    ∃ s, machine.system.run [.event (.startDone .success), .event (.granted [])] = some s ∧
      machine.system.AllowedFrom Heeded s [.frame sizeofTestCarMsg ⟨1, Cmd.w_.code⟩ [],
        .event (.granted []), .frame sizeofTestCarMsg ⟨2, Cmd.a_.code⟩ []] := by
  refine ⟨_, rfl, ?_⟩
  exact (commands_heeded_iff _ _ rfl).mpr (by decide)

/-- At the start two of the three commands are dropped, and at a stop the servo is not
turned back, though the number of the stop is used up. -/
theorem commands_dropped :
    (∃ s, machine.system.run [.event (.startDone .success)] = some s ∧
      .driver (.refused (.initRightServo rightServo)) ∈ s.2 ∧
      .driver (.refused (.initMidServo midAngle)) ∈ s.2 ∧
      ¬ machine.system.AllowedFrom Heeded machine.system.init [.event (.startDone .success)]) ∧
    ∃ s, machine.system.run [.event (.startDone .success), .event (.granted []),
        .frame sizeofTestCarMsg ⟨1, Cmd.__.code⟩ []] = some s ∧
      s.1.seq = 1 ∧ s.2.getLast? = some (.driver (.refused (.angle midAngle))) := by
  refine ⟨⟨_, rfl, by decide, by decide, fun hall => ?_⟩, _, rfl, rfl, by decide⟩
  exact hall.1 _ rfl (.initRightServo rightServo) (by decide)

end WsnContest.CarNode
