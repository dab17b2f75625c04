import WsnContest.Car.Driver

/-! When received bytes complete a frame. The receive interrupt posts `recvTask`
at the byte that fills the buffer and at no other, wherever the driver is. -/
namespace WsnContest.CarP
open Tinyos Lib

/-- The branch of `Interrupts.rxDone` that finds the buffer full is taken. -/
def fills (b : Rx) (s : State) : Bool :=
  !s.isBufFull && s.isUartDataOk && s.owner && decide ((store b.data s).nreading = maxData)

/-- One of the bytes fills the buffer. -/
def completes : List Rx → State → Bool
  | [], _ => false
  | b :: bs, s => fills b s || completes bs (rxDone b s)

/-- The assignments of `recvTask`, each followed by a gap in which bytes may come;
the two that change nothing stand for the test of `statetag` and the signal. -/
def recvTaskSteps : List (State → State) :=
  [stopTimer1, clearBufFull, clearUartDataOk, clearSync, clearReading, id, id, clearSend]

/-- Assignments with the bytes of the gaps, from the `i`-th on. -/
def through (irqs : List (List Rx)) : ℕ → List (State → State) → State → State
  | _, [], s => s
  | i, f :: fs, s => through irqs (i + 1) fs (rxAll (irqs.getD i []) (f s))

/-- A byte in one of the gaps fills the buffer. -/
def completesThrough (irqs : List (List Rx)) : ℕ → List (State → State) → State → Bool
  | _, [], _ => false
  | i, f :: fs, s =>
    completes (irqs.getD i []) (f s) ||
      completesThrough irqs (i + 1) fs (rxAll (irqs.getD i []) (f s))

@[simp] theorem rxAll_nil (s : State) : rxAll [] s = s := rfl

@[simp] theorem rxAll_cons (b : Rx) (bs : List Rx) (s : State) :
    rxAll (b :: bs) s = rxAll bs (rxDone b s) := rfl

theorem rxAll_append (bs cs : List Rx) (s : State) :
    rxAll (bs ++ cs) s = rxAll cs (rxAll bs s) := by
  simp [rxAll, List.foldl_append]

theorem nreading_succ {n : Word8} (h : n < maxData) : ((n + 1 : Word8) : ℕ) = n + 1 := by
  have hsmall : n.val < 6 := h
  exact Fin.val_add_one_of_lt' (by omega)

section Branches
variable {b : Rx} {s : State}

theorem rxDone_of_not_owner (h : s.owner = false) : rxDone b s = s := by
  simp [rxDone, h]

theorem rxDone_sync (howner : s.owner = true) (hok : s.isUartDataOk = false) :
    rxDone b s = sync b s := by
  simp [rxDone, howner, hok]

theorem rxDone_full (hok : s.isUartDataOk = true) (hfull : s.isBufFull = true) :
    rxDone b s = s := by
  simp [rxDone, hok, hfull]

theorem rxDone_store (howner : s.owner = true) (hok : s.isUartDataOk = true)
    (hfull : s.isBufFull = false) :
    rxDone b s =
      if (store b.data s).nreading = maxData then bufFull (store b.data s)
      else store b.data s := by
  simp [rxDone, howner, hok, hfull]

theorem fills_eq_false (h : s.isBufFull = true ∨ s.isUartDataOk = false ∨ s.owner = false) :
    fills b s = false := by
  rcases h with hfull | hok | howner
  · simp [fills, hfull]
  · simp [fills, hok]
  · simp [fills, howner]

end Branches

theorem sync_posted (b : Rx) (s : State) : (sync b s).recvTaskPosted = s.recvTaskPosted := by
  unfold sync
  dsimp only
  split
  · split <;> rfl
  · rfl

theorem store_posted (data : Word8) (s : State) :
    (store data s).recvTaskPosted = s.recvTaskPosted := by
  unfold store
  split <;> rfl

theorem bufFull_posted (s : State) : (bufFull s).recvTaskPosted = true := by
  unfold bufFull
  dsimp only
  split <;> rfl

theorem rxDone_posted (b : Rx) (s : State) :
    (rxDone b s).recvTaskPosted = (s.recvTaskPosted || fills b s) := by
  cases howner : s.owner with
  | false =>
    rw [rxDone_of_not_owner howner, fills_eq_false (.inr (.inr howner)), Bool.or_false]
  | true =>
    cases hok : s.isUartDataOk with
    | false =>
      rw [rxDone_sync howner hok, fills_eq_false (.inr (.inl hok)), Bool.or_false]
      exact sync_posted b s
    | true =>
      cases hfull : s.isBufFull with
      | true => rw [rxDone_full hok hfull, fills_eq_false (.inl hfull), Bool.or_false]
      | false =>
        rw [rxDone_store howner hok hfull]
        split
        · next hcount => simp [fills, howner, hok, hfull, hcount, bufFull_posted]
        · next hcount => simp [fills, hcount, store_posted]

theorem rxAll_posted (bs : List Rx) (s : State) :
    (rxAll bs s).recvTaskPosted = (s.recvTaskPosted || completes bs s) := by
  induction bs generalizing s with
  | nil => simp [completes]
  | cons b bs ih => rw [rxAll_cons, ih, rxDone_posted, completes, Bool.or_assoc]

theorem through_posted (irqs : List (List Rx)) (fs : List (State → State))
    (hfs : ∀ f ∈ fs, ∀ s : State, (f s).recvTaskPosted = s.recvTaskPosted) (i : ℕ) (s : State) :
    (through irqs i fs s).recvTaskPosted =
      (s.recvTaskPosted || completesThrough irqs i fs s) := by
  induction fs generalizing i s with
  | nil => simp [through, completesThrough]
  | cons f fs ih =>
    obtain ⟨hf, hrest⟩ := List.forall_mem_cons.mp hfs
    rw [through, ih hrest, rxAll_posted, hf, completesThrough, Bool.or_assoc]

theorem recvTask_through (irqs : List (List Rx)) (s : State) :
    (recvTask irqs s).1 = release (through irqs 0 recvTaskSteps s) := rfl

/-- The task tests `statetag` after the fifth gap and signals after the sixth. -/
theorem recvTask_output (irqs : List (List Rx)) (s : State) :
    (recvTask irqs s).2 =
      let tested := through irqs 0 (recvTaskSteps.take 5) s
      let told := rxAll (irqs.getD 5 []) tested
      [if tested.statetag = .fail then .readDone told.statetag 0xffff
        else .readDone told.statetag told.tagdata] := rfl

/-- While it runs, `recvTask` is posted again only by a frame that is completed. -/
theorem recvTask_posted (irqs : List (List Rx)) (s : State) :
    (recvTask irqs s).1.recvTaskPosted =
      (s.recvTaskPosted || completesThrough irqs 0 recvTaskSteps s) := by
  rw [recvTask_through]
  apply through_posted
  intro f hf s
  simp only [recvTaskSteps, List.mem_cons, List.not_mem_nil, or_false] at hf
  rcases hf with rfl | rfl | rfl | rfl | rfl | rfl | rfl | rfl <;> rfl

end WsnContest.CarP
