import WsnContest.Car.Node

/-! What the motor board can be told. A refused command still stamps the buffer and sets
the length, so what is sent is the frame of the last accepted command, whole or cut. -/
namespace WsnContest.CarNode
open Tinyos Lib Car
open CarP (Rx Command Framed)

/-- A frame that does no harm: the servo stays within its limits and on its grid, the
motor runs at the one speed, and a stop is a stop. -/
structure SafeFrame (bytes : List Word8) : Prop where
  framed : Framed bytes
  servo : bytes.getD 2 0 = CarP.Op.servo →
    1800 ≤ (bytes.getD 3 0).val * 256 + (bytes.getD 4 0).val ∧
    (bytes.getD 3 0).val * 256 + (bytes.getD 4 0).val ≤ 3800 ∧
    ((bytes.getD 3 0).val * 256 + (bytes.getD 4 0).val) % 100 = 0
  motor : bytes.getD 2 0 = CarP.Op.forward ∨ bytes.getD 2 0 = CarP.Op.back →
    (bytes.getD 3 0).val * 256 + (bytes.getD 4 0).val = 320
  halt : bytes.getD 2 0 = CarP.Op.stop → (bytes.getD 3 0).val * 256 + (bytes.getD 4 0).val = 0

/-- Angles the servo may be turned to. -/
def OnGrid (a : Word16) : Prop := 1800 ≤ a.val ∧ a.val ≤ 3800 ∧ a.val % 100 = 0

/-- The commands `CarNode` gives. -/
def Moderate : Command → Prop
  | .angle value => OnGrid value
  | .forward value | .back value => value = maxSpeed
  | .quiryReader _ | .pause | .initMaxSpeed _ | .initMinSpeed _ | .initLeftServo _
  | .initRightServo _ | .initMidServo _ => True

/-- What waits in the buffer, and what was sent whole, is safe. -/
structure Guarded (s : State × List Output) : Prop where
  framed : Framed s.1.car.carCommand
  waiting : s.1.car.requested = true → SafeFrame s.1.car.carCommand
  angle : OnGrid s.1.angle
  sent : ∀ bytes, .driver (.wrote bytes) ∈ s.2 → bytes.length = 7 → SafeFrame bytes

/-- The value of an accepted command is what its bytes say. -/
theorem value_fill {bytes : List Word8} (h : Framed bytes) {c : Command} (hc : c.length = 7) :
    ((c.fill bytes).getD 3 0).val * 256 + ((c.fill bytes).getD 4 0).val = c.value := by
  obtain ⟨op, hi, lo, rfl⟩ := h
  obtain ⟨value, rfl⟩ | ⟨value, hvalue, -, -⟩ := CarP.quiryReader_or_drive c
  · cases hc
  · have hseven : (7 : Word8) ≠ 4 := by decide
    simp only [Command.fill, hc, hvalue, hseven, ↓reduceIte]
    have hsplit : ((Fin.ofNat (2 ^ 8) (value.val / 256)).val * 256 +
        (Fin.ofNat (2 ^ 8) (value.val % 256)).val) = value.val := by
      have hlt := value.isLt
      simp only [Fin.val_ofNat]
      omega
    exact hsplit

theorem safeFrame_fill {bytes : List Word8} (h : Framed bytes) {c : Command} (hc : Moderate c) :
    SafeFrame (c.fill bytes) := by
  obtain ⟨hframed, hop, -⟩ := CarP.framed_fill h c
  refine ⟨hframed, ?_, ?_, ?_⟩ <;> rw [hop]
  · intro hservo
    cases c with
    | angle value =>
      rw [value_fill h rfl]
      exact hc
    | _ => cases hservo
  · intro hmotor
    cases c with
    | forward value | back value =>
      rw [value_fill h rfl]
      exact congrArg Fin.val hc
    | _ =>
      rcases hmotor with hforward | hback
      · cases hforward
      · cases hback
  · intro hstop
    cases c with
    | pause => exact value_fill h rfl
    | _ => cases hstop

section Steps
variable {s : State × List Output}

/-- The rest of the state does not matter. -/
theorem Guarded.congr (h : Guarded s) {t : State} (hcar : t.car = s.1.car)
    (hangle : OnGrid t.angle) : Guarded (t, s.2) := by
  refine ⟨?_, ?_, hangle, h.sent⟩
  · exact hcar ▸ h.framed
  · exact hcar ▸ h.waiting

/-- An output that is no write adds nothing. -/
theorem Guarded.append (h : Guarded s) {o : Output} (ho : ∀ bytes, o ≠ .driver (.wrote bytes)) :
    Guarded (s.1, s.2 ++ [o]) := by
  refine ⟨h.framed, h.waiting, h.angle, fun bytes hmem => h.sent bytes ?_⟩
  rcases List.mem_append.mp hmem with hold | hnew
  · exact hold
  · exact absurd (List.mem_singleton.mp hnew).symm (ho bytes)

/-- The driver keeps the buffer and grants nothing. -/
theorem Guarded.hold (h : Guarded s) {car : CarP.State}
    (hbytes : car.carCommand = s.1.car.carCommand)
    (hrequested : car.requested = true → s.1.car.requested = true) :
    Guarded ({ s.1 with car := car }, s.2) := by
  refine ⟨?_, fun hwaiting => ?_, h.angle, h.sent⟩ <;> dsimp only <;> rw [hbytes]
  · exact h.framed
  · exact h.waiting (hrequested hwaiting)

/-- An accepted command brings a safe frame, a refused one leaves the frame. -/
theorem Guarded.callCar (h : Guarded s) {c : Command} (hc : Moderate c)
    (irqs : List (List Rx)) :
    Guarded ((callCar c irqs s.1).1, s.2 ++ (callCar c irqs s.1).2) := by
  unfold CarNode.callCar
  dsimp only
  cases hready : s.1.car.ready with
  | true =>
    rw [CarP.call_ready hready]
    have hsafe := safeFrame_fill h.framed hc
    have hfilled : Guarded ({ s.1 with car := { s.1.car with
        isSend := true, requested := true, cmdlength := c.length
        carCommand := c.fill s.1.car.carCommand } }, s.2) :=
      ⟨hsafe.framed, fun _ => hsafe, h.angle, h.sent⟩
    exact hfilled.append (by simp)
  | false =>
    obtain ⟨herror, hheard⟩ := CarP.call_refused c irqs hready
    rw [herror]
    have hstamped := CarP.framed_stamp h.framed
    have hkept : Guarded ({ s.1 with car := (CarP.call c irqs s.1.car).1 }, s.2) := by
      apply h.hold
      · rw [hheard.carCommand]
        exact hstamped
      · rw [hheard.requested]
        exact id
    exact hkept.append (by simp)

theorem onGrid_midAngle : OnGrid midAngle := by
  unfold OnGrid
  decide

theorem OnGrid.add {a : Word16} (h : OnGrid a) (hlimit : ¬ leftServo < a + angleStep) :
    OnGrid (a + angleStep) := by
  obtain ⟨hlow, hhigh, hgrid⟩ := h
  have hsum : (a + angleStep).val = a.val + 100 := by
    simp only [Fin.val_add, show angleStep.val = 100 from rfl]
    omega
  have hle : (a + angleStep).val ≤ 3800 := not_lt.mp hlimit
  exact ⟨by omega, hle, by omega⟩

theorem OnGrid.sub {a : Word16} (h : OnGrid a) (hlimit : ¬ a - angleStep < rightServo) :
    OnGrid (a - angleStep) := by
  obtain ⟨hlow, hhigh, hgrid⟩ := h
  have hstep : angleStep ≤ a := Fin.le_def.mpr (le_trans (by decide) hlow)
  have hdiff : (a - angleStep).val = a.val - 100 := Fin.sub_val_of_le hstep
  have hge : 1800 ≤ (a - angleStep).val := not_lt.mp hlimit
  exact ⟨hge, by omega, by omega⟩

theorem Guarded.turn (h : Guarded s) {a : Word16} (ha : OnGrid a) (irqs : List (List Rx)) :
    Guarded ((CarNode.callCar (.angle a) irqs { s.1 with angle := a }).1,
      s.2 ++ (CarNode.callCar (.angle a) irqs { s.1 with angle := a }).2) :=
  (h.congr (t := { s.1 with angle := a }) rfl ha).callCar (c := .angle a) ha irqs

theorem Guarded.quiry (h : Guarded s) (tag : Word8) (irqs : List (List Rx)) :
    Guarded ((quiry tag irqs s.1).1, s.2 ++ (quiry tag irqs s.1).2) :=
  (h.callCar (c := .quiryReader tag) trivial irqs).congr rfl h.angle

theorem Guarded.obey (h : Guarded s) (cmd : Word16) (irqs : List (List Rx)) :
    Guarded ((obey cmd irqs s.1).1, s.2 ++ (obey cmd irqs s.1).2) := by
  have hnil : ∀ {t : State}, Guarded (t, s.2) → Guarded (t, s.2 ++ []) := by
    intro t ht
    rwa [List.append_nil]
  unfold CarNode.obey
  cases Cmd.ofCode? cmd with
  | none => exact hnil h
  | some key =>
    cases key with
    | w_ => exact h.callCar (c := .back maxSpeed) rfl irqs
    | s_ => exact h.callCar (c := .forward maxSpeed) rfl irqs
    | a_ =>
      dsimp only
      split
      · exact hnil h
      · next hlimit => exact h.turn (h.angle.add hlimit) irqs
    | d_ =>
      dsimp only
      split
      · exact hnil h
      · next hlimit => exact h.turn (h.angle.sub hlimit) irqs
    | __ =>
      have hstopped := h.callCar (c := .pause) trivial irqs
      have hturned := hstopped.turn onGrid_midAngle irqs
      rw [List.append_assoc] at hturned
      exact hturned
    | r_ => exact hnil (h.congr rfl h.angle)
    | _ => exact h.quiry _ irqs

theorem Guarded.carStartDone (h : Guarded s) :
    Guarded ((carStartDone s.1).1, s.2 ++ (carStartDone s.1).2) := by
  have hleft := h.callCar (c := .initLeftServo leftServo) trivial []
  have hright := hleft.callCar (c := .initRightServo rightServo) trivial []
  have hmid := hright.callCar (c := .initMidServo midAngle) trivial []
  simp only [List.append_assoc] at hmid
  exact hmid

theorem Guarded.sendData (h : Guarded s) (sent : ErrorT) :
    Guarded ((sendData sent s.1).1, s.2 ++ (sendData sent s.1).2) := by
  obtain ⟨packet, busyRadio, out, heq, hout⟩ := sendData_eq sent s.1
  have hkept := h.congr (t := { s.1 with packet := packet, busyRadio := busyRadio }) rfl h.angle
  rw [heq]
  rcases hout with rfl | rfl
  · exact hkept.append (by simp)
  · rw [List.append_nil]
    exact hkept

/-- A grant sends the waiting frame, or its first four bytes. -/
theorem Guarded.granted (h : Guarded s) {irqs : List Rx} {car : CarP.State} {bytes : List Word8}
    (hcar : CarP.step s.1.car (.granted irqs) = some (car, [.wrote bytes])) :
    Guarded ({ s.1 with car := car }, s.2 ++ [.driver (.wrote bytes)]) := by
  have hkept : car.carCommand = s.1.car.carCommand ∧ car.requested = false ∧
      s.1.car.requested = true ∧ bytes = s.1.car.carCommand.take s.1.car.cmdlength := by
    cases CarP.step_effect hcar with
    | granted hrequested howner ht =>
      have hheard := CarP.heard_rxAll irqs { s.1.car with requested := false, owner := true }
      rw [← ht] at hheard
      split
      · exact ⟨hheard.carCommand, hheard.requested, hrequested, rfl⟩
      · exact ⟨hheard.carCommand, hheard.requested, hrequested, rfl⟩
  obtain ⟨hcommand, hdone, hrequested, rfl⟩ := hkept
  have hsafe := h.waiting hrequested
  have hheld := h.hold hcommand fun hwaiting => absurd (hdone.symm.trans hwaiting) (by simp)
  refine ⟨hheld.framed, hheld.waiting, hheld.angle, fun bytes hmem hseven => ?_⟩
  rcases List.mem_append.mp hmem with hold | hnew
  · exact h.sent bytes hold hseven
  · obtain rfl : bytes = s.1.car.carCommand.take s.1.car.cmdlength := by simpa using hnew
    obtain ⟨op, hi, lo, hframe⟩ := hsafe.framed
    have hwhole : s.1.car.carCommand.take s.1.car.cmdlength = s.1.car.carCommand := by
      apply List.take_of_length_le
      have hlong : s.1.car.carCommand.length = 7 := by rw [hframe]; rfl
      rw [List.length_take] at hseven
      omega
    rw [hwhole]
    exact hsafe

end Steps

theorem guarded_init : Guarded machine.system.init :=
  ⟨⟨1, 0, 0, rfl⟩, fun h => (nomatch h), onGrid_midAngle, fun _ h => (nomatch h)⟩

theorem guarded_step {s : State × List Output} {t : State} {e : Input} {out : List Output}
    (h : Guarded s) (hstep : machine.step s.1 e = some (t, out)) : Guarded (t, s.2 ++ out) := by
  cases step_effect hstep with
  | ignored hstale | radioFailed herr =>
    rw [List.append_nil]
    exact h
  | @obeyed len rm irqs hlen hseq =>
    have hobeyed : Guarded ({ s.1 with seq := rm.seq }, s.2 ++ [.obeyed rm]) :=
      (h.congr (t := { s.1 with seq := rm.seq }) rfl h.angle).append (by simp)
    have hdone := hobeyed.obey rm.cmd irqs
    rw [List.append_assoc] at hdone
    exact hdone
  | started =>
    have hstarted : Guarded ({ s.1 with car := { s.1.car with isStart := true } }, s.2) :=
      h.hold rfl id
    have hsignalled := hstarted.append (o := .driver (.startDone .success)) (by simp)
    have hdone := hsignalled.carStartDone
    rw [List.append_assoc] at hdone
    exact hdone
  | @resendTimerFired sent htimer =>
    have hticked : Guarded ({ s.1 with resendCount := s.1.resendCount + 1 }, s.2) :=
      h.congr rfl h.angle
    unfold resendTimerFired
    dsimp only
    split
    · exact hticked.sendData sent
    · rw [List.append_nil]
      exact hticked
  | sendDone hdone =>
    rw [List.append_nil]
    exact h.congr rfl h.angle
  | granted hcar => exact h.granted hcar
  | @rxDone b =>
    have hheard := CarP.heard_rxDone b s.1.car
    rw [List.append_nil]
    exact h.hold hheard.carCommand fun hwaiting => hheard.requested.symm.trans hwaiting
  | timer1Fired hcar =>
    rw [List.append_nil]
    cases CarP.step_effect hcar with
    | timer1Fired htimer ht =>
      exact h.hold ht.carCommand fun hwaiting => ht.requested.symm.trans hwaiting
  | @recvTask irqs sent car state data hcar =>
    have hread : Guarded ({ s.1 with car := car }, s.2 ++ [.driver (.readDone state data)]) := by
      cases CarP.step_effect hcar with
      | recvTask _ _ _ _ hrequested hcarCommand =>
        exact (h.hold hcarCommand fun hwaiting => hrequested.symm.trans hwaiting).append (by simp)
    unfold readDone
    split
    · have hfresh := hread.congr
        (t := { s.1 with car := car, currentData := data, resendCount := 0 }) rfl h.angle
      have hdone := hfresh.sendData sent
      rw [List.append_assoc] at hdone
      exact hdone
    · exact hread

/-- In every run whatever the board gets in seven bytes is safe. -/
theorem written_frames_safe {s : State × List Output}
    (h : machine.system.Reachable System.anyStep s) {bytes : List Word8}
    (hwrote : .driver (.wrote bytes) ∈ s.2) (hseven : bytes.length = 7) : SafeFrame bytes := by
  have hguarded : Guarded s := by
    apply Machine.invariant (P := Guarded) h guarded_init
    intro s e t out hs _ hstep
    exact guarded_step hs hstep
  exact hguarded.sent bytes hwrote hseven

/-- A turn to the left, sent after a refused query and a refused drive have set the
length twice. -/
theorem written_frames_safe_turn : SafeFrame [1, 2, 1, 11, 84, 255, 255] := by
  have hinit : machine.system.Reachable System.anyStep machine.system.init := .init
  have hreach := System.reachable_of_runFrom hinit
    [.event (.startDone .success), .event (.granted []),
      .frame sizeofTestCarMsg ⟨1, Cmd.a_.code⟩ [], .frame sizeofTestCarMsg ⟨2, Cmd._1.code⟩ [],
      .frame sizeofTestCarMsg ⟨3, Cmd.w_.code⟩ [], .event (.granted [])] (by decide) rfl
  exact written_frames_safe hreach (by decide) rfl

end WsnContest.CarNode
