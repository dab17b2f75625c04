import WsnContest.Lib.Quota
import WsnContest.Car.Calls

/-! How often a reading is sent. `ResendTimer` never stops and counts on after the last
repetition, in sixteen bits: a wrap starts the repetitions again. -/
namespace WsnContest.CarNode
open Tinyos Lib Car

/-- `readDone(SUCCESS, ..)`. -/
def reads : Output → Bool
  | .driver (.readDone state _) => state = .success
  | .driver _ | .obeyed _ | .handed _ _ => false

/-- A data frame is handed to the radio. -/
def hands : Output → Bool
  | .handed _ _ => true
  | .driver _ | .obeyed _ => false

/-- The steps in which the counter of repetitions does not wrap. -/
def CountsUp (s : State × List Output) : Input → Prop
  | .event (.resendTimerFired _) => s.1.resendCount ≠ 0xffff
  | .event _ | .frame .. => True

instance (s : State × List Output) : (e : Input) → Decidable (CountsUp s e)
  | .event (.resendTimerFired _) => inferInstanceAs (Decidable (s.1.resendCount ≠ 0xffff))
  | .event (.startDone _) | .event .sendDone | .event (.granted _) | .event (.rxDone _)
  | .event (.timer1Fired _) | .event (.recvTask ..) | .frame .. => .isTrue trivial

/-- The counter tells how often the last reading was sent, and is high while there is none. -/
def Counted (s : State) : Option ℕ → Prop
  | none => resendCnt ≤ s.resendCount
  | some n => n ≤ s.resendCount.val + 1 ∧ n ≤ 1 + resendCnt.val

section Steps
variable {s : State} {irqs : List (List CarP.Rx)}

/-- Calls of the driver are neither readings nor data frames. -/
theorem callAll_neither (cs : List CarP.Command) :
    ∀ o ∈ (callAll irqs cs s).2, reads o = false ∧ hands o = false := by
  induction cs generalizing s with
  | nil => simp [callAll]
  | cons c cs ih =>
    intro o ho
    rcases List.mem_append.mp ho with hfirst | hrest
    · cases hready : s.car.ready with
      | true =>
        rw [(callCar_ready hready).1] at hfirst
        obtain rfl := List.mem_singleton.mp hfirst
        exact ⟨rfl, rfl⟩
      | false =>
        rw [callCar_refused hready] at hfirst
        obtain rfl := List.mem_singleton.mp hfirst
        exact ⟨rfl, rfl⟩
    · exact ih o hrest

theorem obey_resendCount (cmd : Word16) :
    (obey cmd irqs s).1.resendCount = s.resendCount := by
  unfold obey
  cases Cmd.ofCode? cmd with
  | none => rfl
  | some key =>
    cases key with
    | a_ | d_ =>
      dsimp only
      split <;> rfl
    | _ => rfl

/-- A frame may be handed over while the last reading was sent at most five times. -/
theorem sendData_affords (sent : ErrorT) {n : ℕ} (hn : n ≤ resendCnt.val)
    (hcount : n ≤ s.resendCount.val) :
    Affords reads hands (1 + resendCnt.val) (some n) (sendData sent s).2 ∧
      Counted (sendData sent s).1 (spent reads hands (some n) (sendData sent s).2) := by
  have hone : Affords reads hands (1 + resendCnt.val) (some n)
      [.handed ⟨s.id, s.currentData⟩ sent] := ⟨fun _ => ⟨n, by omega, rfl⟩, trivial⟩
  have hnext : n + 1 ≤ s.resendCount.val + 1 ∧ n + 1 ≤ 1 + resendCnt.val := by omega
  obtain ⟨packet, busyRadio, out, heq, hout⟩ := sendData_eq sent s
  rw [heq]
  rcases hout with rfl | rfl
  · exact ⟨hone, hnext⟩
  · have hsame : n ≤ s.resendCount.val + 1 ∧ n ≤ 1 + resendCnt.val := by omega
    exact ⟨trivial, hsame⟩

/-- One firing of the timer that does not wrap the counter. -/
theorem resendTimerFired_affords {k : Option ℕ} (h : Counted s k) (sent : ErrorT)
    (hcount : s.resendCount ≠ 0xffff) :
    Affords reads hands (1 + resendCnt.val) k (resendTimerFired sent s).2 ∧
      Counted (resendTimerFired sent s).1
        (spent reads hands k (resendTimerFired sent s).2) := by
  have hgrow : (s.resendCount + 1).val = s.resendCount.val + 1 := by
    have hne : s.resendCount.val ≠ 65535 := fun heq => hcount (Fin.ext heq)
    have hlt := s.resendCount.isLt
    exact Fin.val_add_one_of_lt' (by omega)
  unfold resendTimerFired
  dsimp only
  split
  · next hagain =>
    have hless : s.resendCount.val < resendCnt.val := hagain
    cases k with
    | none => exact absurd h (not_le.mpr hagain)
    | some n =>
      obtain ⟨hn, -⟩ := h
      exact sendData_affords sent (by omega) (by dsimp only; omega)
  · refine ⟨trivial, ?_⟩
    cases k with
    | none =>
      have hhigh : resendCnt.val ≤ s.resendCount.val := h
      exact Fin.le_def.mpr (by dsimp only; omega)
    | some n =>
      obtain ⟨hn, hlimit⟩ := h
      exact ⟨by dsimp only [spent_nil]; omega, hlimit⟩

theorem step_affords {k : Option ℕ} (h : Counted s k) {log : List Output} {e : Input} {t : State}
    {out : List Output} (hallowed : CountsUp (s, log) e)
    (hstep : machine.step s e = some (t, out)) :
    Affords reads hands (1 + resendCnt.val) k out ∧ Counted t (spent reads hands k out) := by
  cases step_effect hstep with
  | ignored hstale => exact ⟨trivial, h⟩
  | @obeyed len rm irqs hlen hseq =>
    have hneither : ∀ o ∈ Output.obeyed rm :: (obey rm.cmd irqs { s with seq := rm.seq }).2,
        reads o = false ∧ hands o = false := by
      rw [obey_calls]
      exact List.forall_mem_cons.mpr ⟨⟨rfl, rfl⟩, callAll_neither _⟩
    obtain ⟨haffords, hspent⟩ := affords_of_neither hneither
    refine ⟨haffords, ?_⟩
    rw [hspent]
    unfold Counted
    rw [obey_resendCount]
    exact h
  | radioFailed herr => exact ⟨trivial, h⟩
  | started =>
    have hneither : ∀ o ∈ Output.driver (.startDone .success) ::
        (carStartDone { s with car := { s.car with isStart := true } }).2,
        reads o = false ∧ hands o = false := by
      rw [carStartDone_calls]
      exact List.forall_mem_cons.mpr ⟨⟨rfl, rfl⟩, callAll_neither _⟩
    obtain ⟨haffords, hspent⟩ := affords_of_neither hneither
    refine ⟨haffords, ?_⟩
    rw [hspent]
    exact h
  | @resendTimerFired sent htimer => exact resendTimerFired_affords h sent hallowed
  | sendDone hdone => exact ⟨trivial, h⟩
  | granted hcar => exact ⟨⟨nofun, trivial⟩, h⟩
  | rxDone => exact ⟨trivial, h⟩
  | timer1Fired hcar => exact ⟨trivial, h⟩
  | @recvTask irqs sent car state data hcar =>
    unfold readDone
    by_cases hstate : state = .success
    · subst hstate
      have hsent := @sendData_affords
        { s with car := car, currentData := data, resendCount := 0 } sent 0 (by decide) le_rfl
      exact ⟨⟨nofun, hsent.1⟩, hsent.2⟩
    · have hquiet : reads (.driver (.readDone state data)) = false := decide_eq_false hstate
      have hneither : ∀ o ∈ [Output.driver (.readDone state data)],
          reads o = false ∧ hands o = false := List.forall_mem_singleton.mpr ⟨hquiet, rfl⟩
      obtain ⟨haffords, hspent⟩ := affords_of_neither hneither
      rw [if_neg hstate]
      refine ⟨haffords, ?_⟩
      rw [hspent]
      exact h

end Steps

/-- While the counter does not wrap, a reading is sent at most six times before the next
one, and nothing is sent before the first. -/
theorem resending_bounded {s : State × List Output}
    (h : machine.system.Reachable CountsUp s) :
    (∀ pre mid post, s.2 = pre ++ mid ++ post → (∀ o ∈ mid, reads o = false) →
      mid.countP hands ≤ 1 + resendCnt.val) ∧
    ∀ pre post, s.2 = pre ++ post → (∀ o ∈ pre, reads o = false) → pre.countP hands = 0 := by
  have hinit : Counted machine.init none := by
    unfold Counted
    decide
  have haffords : Affords reads hands (1 + resendCnt.val) none s.2 := by
    apply Machine.affords Counted hinit ?_ h
    intro s k e t out hs hallowed hstep
    exact step_affords hs hallowed hstep
  constructor
  · intro pre mid post heq
    exact (heq ▸ haffords).between
  · intro pre post heq
    exact (heq ▸ haffords).before

/-- A reading, and the timer six times. -/
def repeated : List Input :=
  [.event (.startDone .success), .event (.granted []), .frame sizeofTestCarMsg ⟨1, Cmd._1.code⟩ [],
    .event (.granted (([255, 255, 0, 0, 0, 0, 0, 5] : List Word8).map fun b => ⟨b, 0⟩)),
    .event (.recvTask [] .success)] ++ List.replicate 6 (.event (.resendTimerFired .success))

theorem resending_bounded_repeated :
    ∃ s, machine.system.run repeated = some s ∧ s.2.countP hands = 6 ∧
      ∀ pre mid post, s.2 = pre ++ mid ++ post → (∀ o ∈ mid, reads o = false) →
        mid.countP hands ≤ 1 + resendCnt.val :=
  ⟨_, rfl, by decide, (resending_bounded (System.reachable_of_run repeated (by decide +kernel)
    rfl)).1⟩

/-- While there is nothing to repeat the timer only counts. -/
theorem idle_tick {s : State} (htimer : s.resendTimer = true)
    (hover : ¬ s.resendCount < resendCnt) (sent : ErrorT) :
    machine.step s (.event (.resendTimerFired sent)) =
      some ({ s with resendCount := s.resendCount + 1 }, []) := by
  have hrun : resendTimerFired sent s = ({ s with resendCount := s.resendCount + 1 }, []) :=
    if_neg hover
  exact (if_pos htimer).trans (congrArg some hrun)

/-- It does so up to the wrap. -/
theorem idle_ticks (n : ℕ) {s : State} {out : List Output} (htimer : s.resendTimer = true)
    (hover : resendCnt.val ≤ s.resendCount.val) (hn : s.resendCount.val + n ≤ 2 ^ 16) :
    ∃ c : Word16, c.val = (s.resendCount.val + n) % 2 ^ 16 ∧
      machine.system.runFrom (s, out) (List.replicate n (.event (.resendTimerFired .success))) =
        some ({ s with resendCount := c }, out) := by
  induction n with
  | zero => exact ⟨s.resendCount, (Nat.mod_eq_of_lt s.resendCount.isLt).symm, rfl⟩
  | succ n ih =>
    obtain ⟨c, hc, hrun⟩ := ih (by omega)
    have hquiet : ¬ c < resendCnt := by
      rw [Fin.lt_def, hc]
      omega
    have hone : ((1 : Word16) : ℕ) = 1 := rfl
    refine ⟨c + 1, ?_, ?_⟩
    · rw [Fin.val_add, hc, hone]
      omega
    · rw [List.replicate_succ', System.runFrom_append, hrun, Option.bind_some, System.runFrom,
        Machine.system]
      dsimp only
      rw [@idle_tick { s with resendCount := c } htimer hquiet, Option.map_some,
        Option.bind_some, List.append_nil]
      rfl

/-- The timer wraps before anything was read, and a data frame goes out. -/
theorem resends_before_reading :
    ∃ s, machine.system.Reachable System.anyStep s ∧ s.2 = [.handed ⟨0, 0⟩ .success] := by
  have hinit : machine.system.Reachable System.anyStep machine.system.init := .init
  obtain ⟨c, hc, hrun⟩ := @idle_ticks 61441 machine.init [] rfl (by decide) (by decide)
  obtain rfl : c = 0 := Fin.ext hc
  have hwrapped := System.reachable_of_runFrom hinit _ (System.allowedFrom_any _ _ _) hrun
  exact ⟨_, hwrapped.step (e := .event (.resendTimerFired .success)) trivial rfl, rfl⟩

end WsnContest.CarNode
