import WsnContest.Car.Calls

/-! Whether `CarNode` knows where the wheels point. It sets `angle` before it asks the
driver to turn them, and does not look at the answer. -/
namespace WsnContest.CarNode
open Tinyos Lib Car

/-- The wheels stay where the last accepted `Car.Angle` has turned them. -/
def turn (wheels : Word16) : Output → Word16
  | .driver (.accepted (.angle value)) => value
  | .driver _ | .obeyed _ | .handed _ _ => wheels

/-- The argument of the last accepted `Car.Angle`. -/
def turned (out : List Output) : Word16 := out.foldl turn midAngle

/-- `angle` is where the wheels point. -/
def Steered (s : State × List Output) : Prop := s.1.angle = turned s.2

instance (s : State × List Output) : Decidable (Steered s) :=
  inferInstanceAs (Decidable (s.1.angle = turned s.2))

/-- A fresh command keeps `angle` true: a turn to a side finds the driver ready, and a
stop finds the wheels straight. -/
def keepsAngle (cmd : Word16) (s : State) : Bool :=
  match Cmd.ofCode? cmd with
  | some .a_ | some .d_ => (issued cmd s).isEmpty || s.car.ready
  | some .__ => s.angle = midAngle
  | _ => true

/-- The steps after which `angle` is still true. -/
def KeepsAngle (s : State × List Output) : Input → Prop
  | .frame len rm _ =>
    len = sizeofTestCarMsg → s.1.seq < rm.seq → keepsAngle rm.cmd s.1 = true
  | .event _ => True

instance (s : State × List Output) : (e : Input) → Decidable (KeepsAngle s e)
  | .frame len rm _ => inferInstanceAs (Decidable
      (len = sizeofTestCarMsg → s.1.seq < rm.seq → keepsAngle rm.cmd s.1 = true))
  | .event _ => .isTrue trivial

section Turns
variable {c : CarP.Command} {irqs : List (List CarP.Rx)} {s : State} {wheels : Word16}

@[simp] theorem callCar_angle : (callCar c irqs s).1.angle = s.angle := rfl

/-- Whatever is answered, the driver is busy after a call. -/
theorem callCar_busy : (callCar c irqs s).1.car.ready = false := by
  cases hready : s.car.ready with
  | true => exact (callCar_ready hready).2
  | false =>
    have hheard := (CarP.call_refused c irqs hready).2
    have hsame : (CarP.call c irqs s.car).1.ready = s.car.ready := by
      unfold CarP.State.ready
      rw [hheard.isStart, hheard.isSend]
      rfl
    exact hsame.trans hready

/-- No other command turns the wheels. -/
theorem turn_callCar (hc : ∀ value, c ≠ .angle value) :
    (callCar c irqs s).2.foldl turn wheels = wheels := by
  unfold callCar
  dsimp only
  split
  · cases c with
    | angle value => exact absurd rfl (hc value)
    | _ => rfl
  · rfl

theorem turn_callCar_angle (value : Word16) :
    (callCar (.angle value) irqs s).2.foldl turn wheels =
      if s.car.ready then value else wheels := by
  cases hready : s.car.ready with
  | true => rw [(callCar_ready hready).1]; rfl
  | false => rw [callCar_refused hready]; rfl

/-- The start of the driver sets up the servo, but does not turn it. -/
theorem turn_carStartDone : (carStartDone s).2.foldl turn wheels = wheels := by
  unfold carStartDone
  simp only [List.foldl_append]
  rw [turn_callCar (by simp), turn_callCar (by simp), turn_callCar (by simp)]

theorem sendData_angle (sent : ErrorT) :
    (sendData sent s).1.angle = s.angle ∧ (sendData sent s).2.foldl turn wheels = wheels := by
  obtain ⟨packet, busyRadio, out, heq, hout⟩ := sendData_eq sent s
  rw [heq]
  rcases hout with rfl | rfl
  · exact ⟨rfl, rfl⟩
  · exact ⟨rfl, rfl⟩

theorem add_angleStep_ne (a : Word16) : a + angleStep ≠ a := by
  intro h
  have hstep : angleStep = 0 := add_eq_left.mp h
  exact absurd hstep (by decide)

theorem sub_angleStep_ne (a : Word16) : a - angleStep ≠ a := by
  intro h
  have hstep : angleStep = 0 := sub_eq_self.mp h
  exact absurd hstep (by decide)

/-- What a fresh command does to `angle` and to the wheels agrees in the cases above. -/
theorem obey_angle_iff (cmd : Word16) (irqs : List (List CarP.Rx)) (s : State) (seq : Word32) :
    (obey cmd irqs { s with seq := seq }).1.angle =
        (obey cmd irqs { s with seq := seq }).2.foldl turn s.angle ↔
      keepsAngle cmd s = true := by
  have hcall : ∀ c : CarP.Command, (∀ value, c ≠ .angle value) →
      ((callCar c irqs { s with seq := seq }).1.angle =
        (callCar c irqs { s with seq := seq }).2.foldl turn s.angle ↔ true = true) := by
    intro c hc
    rw [turn_callCar hc]
    exact iff_of_true rfl rfl
  have hquiry : ∀ tag, ((quiry tag irqs { s with seq := seq }).1.angle =
      (quiry tag irqs { s with seq := seq }).2.foldl turn s.angle ↔ true = true) :=
    fun tag => hcall (.quiryReader tag) (by simp)
  have hside : ∀ a : Word16, a ≠ s.angle →
      ((callCar (.angle a) irqs { s with seq := seq, angle := a }).1.angle =
        (callCar (.angle a) irqs { s with seq := seq, angle := a }).2.foldl turn s.angle ↔
      s.car.ready = true) := by
    intro a ha
    rw [callCar_angle, turn_callCar_angle]
    cases hready : s.car.ready with
    | true => exact iff_of_true rfl rfl
    | false => exact iff_of_false ha (by simp)
  unfold obey keepsAngle issued
  cases Cmd.ofCode? cmd with
  | none => exact iff_of_true rfl rfl
  | some key =>
    cases key with
    | a_ =>
      dsimp only
      split
      · exact iff_of_true rfl rfl
      · exact hside _ (add_angleStep_ne s.angle)
    | d_ =>
      dsimp only
      split
      · exact iff_of_true rfl rfl
      · exact hside _ (sub_angleStep_ne s.angle)
    | __ =>
      -- the driver is busy with the stop, or with what was before it
      have hstop := @turn_callCar .pause irqs { s with seq := seq } s.angle (by simp)
      have hbusy := @callCar_busy .pause irqs { s with seq := seq }
      dsimp only
      rw [List.foldl_append, hstop, turn_callCar_angle, if_neg (by simp [hbusy]),
        decide_eq_true_iff]
      exact eq_comm
    | r_ => exact iff_of_true rfl rfl
    | w_ => exact hcall (.back maxSpeed) (by simp)
    | s_ => exact hcall (.forward maxSpeed) (by simp)
    | _ => exact hquiry _

end Turns

/-- Where `angle` is true, exactly these steps keep it so. -/
theorem steered_step {s : State × List Output} {t : State} {e : Input} {out : List Output}
    (h : Steered s) (hstep : machine.step s.1 e = some (t, out)) :
    Steered (t, s.2 ++ out) ↔ KeepsAngle s e := by
  have hturned : turned (s.2 ++ out) = out.foldl turn s.1.angle := by
    rw [turned, List.foldl_append, h]
    rfl
  unfold Steered
  rw [hturned]
  cases step_effect hstep with
  | ignored hstale =>
    exact iff_of_true rfl fun hlen hseq => absurd ⟨hlen, hseq⟩ hstale
  | @obeyed len rm irqs hlen hseq =>
    have hobey := obey_angle_iff rm.cmd irqs s.1 rm.seq
    exact hobey.trans ⟨fun hkeeps _ _ => hkeeps, fun hkeeps => hkeeps hlen hseq⟩
  | radioFailed herr => exact iff_of_true rfl trivial
  | started => exact iff_of_true turn_carStartDone.symm trivial
  | @resendTimerFired sent htimer =>
    refine iff_of_true ?_ trivial
    unfold resendTimerFired
    dsimp only
    split
    · obtain ⟨hangle, hturn⟩ := @sendData_angle
        { s.1 with resendCount := s.1.resendCount + 1 } s.1.angle sent
      rw [hangle, hturn]
    · rfl
  | sendDone hdone => exact iff_of_true rfl trivial
  | granted hcar => exact iff_of_true rfl trivial
  | rxDone => exact iff_of_true rfl trivial
  | timer1Fired hcar => exact iff_of_true rfl trivial
  | @recvTask irqs sent car state data hcar =>
    refine iff_of_true ?_ trivial
    unfold readDone
    split
    · obtain ⟨hangle, hturn⟩ := @sendData_angle
        { s.1 with car := car, currentData := data, resendCount := 0 } s.1.angle sent
      exact hangle.trans hturn.symm
    · rfl

/-- Along every run `angle` is the argument of the last accepted `Car.Angle` exactly if
every fresh turn that issues one finds the driver ready, and every fresh stop comes
while `angle` is straight. -/
theorem angle_true_iff (es : List Input) {t : State × List Output}
    (hrun : machine.system.run es = some t) :
    machine.system.Always Steered machine.system.init es ↔
      machine.system.AllowedFrom KeepsAngle machine.system.init es := by
  have hinit : Steered machine.system.init := rfl
  apply Machine.always_iff_allowedFrom Steered (fun _ h => h) ?_ es hinit hrun
  intro s e t out hs hstep
  exact ⟨(steered_step hs hstep).mpr, (steered_step hs hstep).mp⟩

/-- Turns that wait for the driver, and a stop once the wheels are straight again. -/
theorem angle_true_patient :
    machine.system.Always Steered machine.system.init
      [.event (.startDone .success), .event (.granted []),
        .frame sizeofTestCarMsg ⟨1, Cmd.a_.code⟩ [], .event (.granted []),
        .frame sizeofTestCarMsg ⟨2, Cmd.d_.code⟩ [], .event (.granted []),
        .frame sizeofTestCarMsg ⟨3, Cmd.__.code⟩ []] :=
  (angle_true_iff _ rfl).mpr (by decide)

/-- A turn that comes too early is counted though the driver refuses it, and a stop
makes `angle` straight though the wheels stay where they are. -/
theorem angle_drifts :
    (∃ s, machine.system.run [.event (.startDone .success),
        .frame sizeofTestCarMsg ⟨1, Cmd.a_.code⟩ []] = some s ∧
      s.1.angle = 2900 ∧ turned s.2 = 2800 ∧ ¬ Steered s) ∧
    ∃ s, machine.system.run [.event (.startDone .success), .event (.granted []),
        .frame sizeofTestCarMsg ⟨1, Cmd.a_.code⟩ [], .event (.granted []),
        .frame sizeofTestCarMsg ⟨2, Cmd.__.code⟩ []] = some s ∧
      s.1.angle = 2800 ∧ turned s.2 = 2900 ∧ ¬ Steered s := by
  exact ⟨⟨_, rfl, rfl, rfl, by decide⟩, _, rfl, rfl, rfl, by decide⟩

end WsnContest.CarNode
