import WsnContest.Car.Parser

/-! Where `Interrupts.rxDone` reads and writes its arrays. Each index is guarded by a flag
that is cleared together with it in one place only: a refused `QuiryReader` clears the flag
and leaves the index, and `recvTask` leaves a gap between the two. -/
namespace WsnContest.CarP
open Tinyos Lib

/-- An access of `Interrupts.rxDone` to one of its arrays. -/
inductive Access where
  | readSyncData (i : Word8)
  | writeRecdata (i : Word8)
  deriving DecidableEq, Repr

def Access.InBounds : Access → Prop
  | .readSyncData i => i < syncDataSum
  | .writeRecdata i => i < maxData

instance : (a : Access) → Decidable a.InBounds
  | .readSyncData i => inferInstanceAs (Decidable (i < syncDataSum))
  | .writeRecdata i => inferInstanceAs (Decidable (i < maxData))

/-- The accesses of `rxDone`, branch by branch. -/
def accesses (s : State) : List Access :=
  if !s.isUartDataOk && s.owner then [.readSyncData s.rcvSyncDataSum]
  else if !s.isBufFull && s.isUartDataOk && s.owner then
    if s.nreading < maxData then [.writeRecdata s.nreading] else []
  else []

/-- What an access leaves of `recdata` when this byte comes. -/
def Access.write (data : Word8) (recdata : List Word8) : Access → List Word8
  | .readSyncData _ => recdata
  | .writeRecdata i => recdata.set i data

/-- These are the accesses of `rxDone`: what it leaves of `recdata` it wrote by them, and it
looks at memory behind `SyncData` only if one of them does. -/
theorem rxDone_accesses (b : Rx) (s : State) :
    (rxDone b s).recdata = (accesses s).foldl (Access.write b.data) s.recdata ∧
    ((∀ a ∈ accesses s, a.InBounds) → ∀ beyond : Word8,
      rxDone { b with beyond := beyond } s = rxDone b s) := by
  have hfull : ∀ t : State, (bufFull t).recdata = t.recdata := by
    intro t
    unfold bufFull
    dsimp only
    split <;> rfl
  unfold rxDone accesses
  split
  · constructor
    · unfold CarP.sync
      dsimp only
      split
      · split <;> rfl
      · rfl
    · intro hbounds beyond
      have hlow : s.rcvSyncDataSum < syncDataSum := hbounds _ (List.mem_singleton_self _)
      simp only [CarP.sync, syncData, if_pos hlow]
  · split
    · refine ⟨?_, fun _ _ => rfl⟩
      have hstored : (if (store b.data s).nreading = maxData then bufFull (store b.data s)
          else store b.data s).recdata = (store b.data s).recdata := by
        split
        · exact hfull _
        · rfl
      refine hstored.trans ?_
      unfold store
      split <;> rfl
    · exact ⟨rfl, fun _ _ => rfl⟩

def accessesAll : List Rx → State → List Access
  | [], _ => []
  | b :: bs, s => accesses s ++ accessesAll bs (rxDone b s)

/-- The accesses in the gaps of `through`. -/
def accessesThrough (irqs : List (List Rx)) : ℕ → List (State → State) → State → List Access
  | _, [], _ => []
  | i, f :: fs, s =>
    accessesAll (irqs.getD i []) (f s) ++
      accessesThrough irqs (i + 1) fs (rxAll (irqs.getD i []) (f s))

/-- What a refused `QuiryReader` does before it clears `isUartDataOk`. -/
def quiryReaderSteps : List (State → State) := [clearReading, clearBufFull]

/-- The accesses of a step, whenever its bytes come. -/
def stepAccesses (s : State) : Event → List Access
  | .start | .stop => []
  | .command (.quiryReader _) irqs =>
    if s.ready then [] else accessesThrough irqs 0 quiryReaderSteps (prepare 4 s)
  | .command _ _ => []
  | .granted irqs => accessesAll irqs { s with requested := false, owner := true }
  | .rxDone _ => accesses s
  | .timer1Fired irqs => accessesAll irqs { s with timer1 := false, statetag := .fail }
  | .recvTask irqs => accessesThrough irqs 0 recvTaskSteps { s with recvTaskPosted := false }

/-- No query is refused once both synchronisation bytes are in, and no byte comes to an
owner in `recvTask` between `isUartDataOk = FALSE` and `rcvSyncDataSum = 0` in that case. -/
def Resets (s : State × List Output) : Event → Prop
  | .command (.quiryReader _) irqs => s.1.ready = false →
      (through irqs 0 quiryReaderSteps (prepare 4 s.1)).rcvSyncDataSum < syncDataSum
  | .recvTask irqs =>
      let t := through irqs 0 (recvTaskSteps.take 2) { s.1 with recvTaskPosted := false }
      t.owner = true → syncDataSum ≤ t.rcvSyncDataSum → irqs.getD 2 [] = []
  | .start | .stop | .command _ _ | .granted _ | .rxDone _ | .timer1Fired _ => True

instance (s : State × List Output) : (e : Event) → Decidable (Resets s e)
  | .command (.quiryReader _) irqs => inferInstanceAs (Decidable (s.1.ready = false →
      (through irqs 0 quiryReaderSteps (prepare 4 s.1)).rcvSyncDataSum < syncDataSum))
  | .recvTask irqs => inferInstanceAs (Decidable
      (let t := through irqs 0 (recvTaskSteps.take 2) { s.1 with recvTaskPosted := false }
      t.owner = true → syncDataSum ≤ t.rcvSyncDataSum → irqs.getD 2 [] = []))
  | .start | .stop | .granted _ | .rxDone _ | .timer1Fired _ => .isTrue trivial
  | .command (.angle _) _ | .command (.forward _) _ | .command (.back _) _ | .command .pause _
  | .command (.initMaxSpeed _) _ | .command (.initMinSpeed _) _ | .command (.initLeftServo _) _
  | .command (.initRightServo _) _ | .command (.initMidServo _) _ => .isTrue trivial

/-- While the flag is down, the index it guards is low. -/
def Synced (s : State) : Prop := s.isUartDataOk = false → s.rcvSyncDataSum < syncDataSum

section Bytes
variable {s : State}

/-- A write is guarded by the test before it. -/
theorem Synced.accesses (h : Synced s) : ∀ a ∈ accesses s, a.InBounds := by
  unfold CarP.accesses
  split
  · next hguard =>
    have hok : s.isUartDataOk = false := by
      rw [Bool.and_eq_true, Bool.not_eq_true'] at hguard
      exact hguard.1
    exact List.forall_mem_singleton.mpr (h hok)
  · split
    · split
      · next hroom => exact List.forall_mem_singleton.mpr hroom
      · simp
    · simp

/-- A driver that does not own the UART accesses nothing. -/
theorem accessesAll_of_not_owner (bs : List Rx) (h : s.owner = false) :
    accessesAll bs s = [] := by
  induction bs with
  | nil => rfl
  | cons b bs ih =>
    rw [accessesAll, rxDone_of_not_owner h, ih]
    simp [CarP.accesses, h]

theorem Synced.sync (h : Synced s) (hok : s.isUartDataOk = false) (b : Rx) :
    Synced (sync b s) := by
  have hlow := h hok
  unfold CarP.sync
  dsimp only
  split
  · split
    · exact fun hup => nomatch hup
    · next hmore =>
      intro _
      have hlt : s.rcvSyncDataSum.val < 2 := hlow
      have hnext : (s.rcvSyncDataSum + 1).val = s.rcvSyncDataSum.val + 1 :=
        Fin.val_add_one_of_lt' (by omega)
      have hne : (s.rcvSyncDataSum + 1).val ≠ 2 := fun htwo => hmore (Fin.ext htwo)
      exact Fin.lt_def.mpr (by rw [hnext] at hne ⊢; exact show _ < 2 by omega)
  · exact fun _ => show (0 : Word8) < syncDataSum by decide

/-- Once the flag is up, bytes move neither it nor the index. -/
theorem rxDone_stored (b : Rx) (hok : s.isUartDataOk = true) :
    (rxDone b s).isUartDataOk = true := by
  have hstore : (store b.data s).isUartDataOk = true := by
    unfold store
    split <;> exact hok
  have hfull : (bufFull (store b.data s)).isUartDataOk = true := by
    unfold bufFull
    dsimp only
    split <;> exact hstore
  unfold rxDone
  rw [if_neg (by simp [hok])]
  split
  · dsimp only
    split
    · exact hfull
    · exact hstore
  · exact hok

theorem Synced.rxDone (h : Synced s) (b : Rx) : Synced (rxDone b s) := by
  cases hok : s.isUartDataOk with
  | true => exact fun hdown => absurd (rxDone_stored b hok) (by simp [hdown])
  | false =>
    cases howner : s.owner with
    | true =>
      rw [rxDone_sync howner hok]
      exact h.sync hok b
    | false =>
      rw [rxDone_of_not_owner howner]
      exact h

theorem Synced.rxAll (h : Synced s) (bs : List Rx) :
    Synced (rxAll bs s) ∧ ∀ a ∈ accessesAll bs s, a.InBounds := by
  induction bs generalizing s with
  | nil => exact ⟨h, fun a ha => nomatch ha⟩
  | cons b bs ih =>
    obtain ⟨hlast, hrest⟩ := ih (h.rxDone b)
    exact ⟨hlast, List.forall_mem_append.mpr ⟨h.accesses, hrest⟩⟩

theorem Synced.through (h : Synced s) (irqs : List (List Rx)) {fs : List (State → State)}
    (hfs : ∀ f ∈ fs, ∀ s, Synced s → Synced (f s)) (i : ℕ) :
    Synced (through irqs i fs s) ∧ ∀ a ∈ accessesThrough irqs i fs s, a.InBounds := by
  induction fs generalizing i s with
  | nil => exact ⟨h, fun a ha => nomatch ha⟩
  | cons f fs ih =>
    obtain ⟨hf, hrest⟩ := List.forall_mem_cons.mp hfs
    obtain ⟨hgap, hbytes⟩ := (hf s h).rxAll (irqs.getD i [])
    obtain ⟨hlast, hmore⟩ := ih hgap hrest (i + 1)
    exact ⟨hlast, List.forall_mem_append.mpr ⟨hbytes, hmore⟩⟩

end Bytes

section Steps
variable {s : State}

/-- Each assignment but the one of the flag keeps the flag and the index together. -/
theorem synced_quiryReaderSteps : ∀ f ∈ quiryReaderSteps, ∀ s, Synced s → Synced (f s) := by
  simp only [quiryReaderSteps, List.forall_mem_cons, List.not_mem_nil, false_implies,
    implies_true, and_true]
  exact ⟨fun _ h => h, fun _ h => h⟩

theorem synced_recvTaskSteps_begin :
    ∀ f ∈ recvTaskSteps.take 2, ∀ s, Synced s → Synced (f s) := by
  simp only [recvTaskSteps, List.take, List.forall_mem_cons, List.not_mem_nil, false_implies,
    implies_true, and_true]
  exact ⟨fun _ h => h, fun _ h => h⟩

theorem synced_clearSync (s : State) : Synced (clearSync s) := fun _ =>
  show (0 : Word8) < syncDataSum by decide

theorem synced_recvTaskSteps_end :
    ∀ f ∈ recvTaskSteps.drop 3, ∀ s, Synced s → Synced (f s) := by
  simp only [recvTaskSteps, List.drop, List.forall_mem_cons, List.not_mem_nil, false_implies,
    implies_true, and_true]
  exact ⟨fun s _ => synced_clearSync s, fun _ h => h, fun _ h => h, fun _ h => h, fun _ h => h⟩

/-- While a query is refused nothing goes wrong; afterwards the index may be too high. -/
theorem Synced.quiryReader (h : Synced s) (value : Word8) (irqs : List (List Rx))
    (hbusy : s.ready = false)
    (hlow : (CarP.through irqs 0 quiryReaderSteps (prepare 4 s)).rcvSyncDataSum < syncDataSum) :
    Synced (CarP.quiryReader value irqs s).1 ∧
      ∀ a ∈ accessesThrough irqs 0 quiryReaderSteps (prepare 4 s), a.InBounds := by
  have hprepared : Synced (prepare 4 s) := h
  have hguard : ¬ s.ready = true := by simp [hbusy]
  have hrun : CarP.quiryReader value irqs s =
      (clearUartDataOk (CarP.through irqs 0 quiryReaderSteps (prepare 4 s)), .ebusy) :=
    if_neg hguard
  rw [hrun]
  exact ⟨fun _ => hlow, (hprepared.through irqs synced_quiryReaderSteps 0).2⟩

theorem accessesThrough_append (irqs : List (List Rx)) (fs gs : List (State → State)) (i : ℕ)
    (s : State) :
    accessesThrough irqs i (fs ++ gs) s = accessesThrough irqs i fs s ++
      accessesThrough irqs (i + fs.length) gs (CarP.through irqs i fs s) := by
  induction fs generalizing i s with
  | nil => rfl
  | cons f fs ih =>
    simp only [List.cons_append, accessesThrough, CarP.through, List.length_cons, ih,
      List.append_assoc, Nat.add_assoc, Nat.add_comm 1]

/-- The task brings the index down by itself, and is safe if no byte comes too early. -/
theorem Synced.recvTask (h : Synced s) (irqs : List (List Rx))
    (hgap : (CarP.through irqs 0 (recvTaskSteps.take 2) s).owner = true →
      syncDataSum ≤ (CarP.through irqs 0 (recvTaskSteps.take 2) s).rcvSyncDataSum →
      irqs.getD 2 [] = []) :
    Synced (CarP.recvTask irqs s).1 ∧
      ∀ a ∈ accessesThrough irqs 0 recvTaskSteps s, a.InBounds := by
  obtain ⟨hbegun, hbegin⟩ := h.through irqs synced_recvTaskSteps_begin 0
  have hmiddle : ∀ a ∈ accessesAll (irqs.getD 2 [])
      (clearUartDataOk (CarP.through irqs 0 (recvTaskSteps.take 2) s)), a.InBounds := by
    by_cases hlow : (CarP.through irqs 0 (recvTaskSteps.take 2) s).rcvSyncDataSum < syncDataSum
    · have hcleared : Synced (clearUartDataOk (CarP.through irqs 0 (recvTaskSteps.take 2) s)) :=
        fun _ => hlow
      exact (hcleared.rxAll _).2
    · cases howner : (CarP.through irqs 0 (recvTaskSteps.take 2) s).owner with
      | true =>
        rw [hgap howner (not_lt.mp hlow)]
        exact fun a ha => nomatch ha
      | false =>
        have hdeaf : (clearUartDataOk (CarP.through irqs 0 (recvTaskSteps.take 2) s)).owner =
          false := howner
        rw [accessesAll_of_not_owner _ hdeaf]
        exact fun a ha => nomatch ha
  -- whatever came, clearing the index makes up for it
  obtain ⟨hended, hend⟩ := (synced_clearSync (CarP.rxAll (irqs.getD 2 []) (clearUartDataOk
    (CarP.through irqs 0 (recvTaskSteps.take 2) s)))).through irqs synced_recvTaskSteps_end 3
  refine ⟨hended, ?_⟩
  have hsplit := accessesThrough_append irqs (recvTaskSteps.take 2) (recvTaskSteps.drop 2) 0 s
  rw [List.take_append_drop] at hsplit
  rw [hsplit]
  exact List.forall_mem_append.mpr ⟨hbegin, List.forall_mem_append.mpr ⟨hmiddle, hend⟩⟩

/-- The parser is not touched. -/
theorem Synced.congr (h : Synced s) {t : State} (hok : t.isUartDataOk = s.isUartDataOk)
    (hsum : t.rcvSyncDataSum = s.rcvSyncDataSum) : Synced t := by
  intro hdown
  rw [hsum]
  exact h (hok.symm.trans hdown)

theorem Synced.command (h : Synced s) {c : Command} {irqs : List (List Rx)} {log : List Output}
    (hallowed : Resets (s, log) (.command c irqs)) :
    Synced (call c irqs s).1 ∧ ∀ a ∈ stepAccesses s (.command c irqs), a.InBounds := by
  cases hready : s.ready with
  | true =>
    rw [call_ready hready]
    refine ⟨h.congr rfl rfl, ?_⟩
    cases c with
    | quiryReader value => simp [stepAccesses, hready]
    | _ => exact fun a ha => nomatch ha
  | false =>
    have hbusy : ¬ s.ready = true := by simp [hready]
    obtain ⟨value, rfl⟩ | ⟨value, -, hlength, hcall⟩ := quiryReader_or_drive c
    · obtain ⟨hsynced, hbounds⟩ := h.quiryReader value irqs hready (hallowed hready)
      refine ⟨hsynced, ?_⟩
      rw [stepAccesses, if_neg hbusy]
      exact hbounds
    · have hdrive : drive c.op value s = (prepare 7 s, .ebusy) := if_neg hbusy
      rw [hcall, hdrive]
      refine ⟨h.congr rfl rfl, ?_⟩
      cases c with
      | quiryReader value => cases hlength
      | _ => exact fun a ha => nomatch ha

end Steps

theorem synced_step {s t : State} {log : List Output} {e : Event} {out : List Output}
    (h : Synced s) (hallowed : Resets (s, log) e) (hstep : step s e = some (t, out)) :
    Synced t ∧ ∀ a ∈ stepAccesses s e, a.InBounds := by
  cases e with
  | start | stop =>
    cases hstep
    exact ⟨h.congr rfl rfl, fun a ha => nomatch ha⟩
  | command c irqs =>
    cases hstep
    exact h.command hallowed
  | granted irqs =>
    have hgranted : Synced { s with requested := false, owner := true } := h.congr rfl rfl
    obtain ⟨hheard, hbounds⟩ := hgranted.rxAll irqs
    refine ⟨?_, hbounds⟩
    cases step_effect hstep with
    | granted hrequested howner ht =>
      rw [ht]
      split
      · exact hheard.congr rfl rfl
      · exact hheard.congr rfl rfl
  | rxDone b =>
    cases hstep
    exact ⟨h.rxDone b, h.accesses⟩
  | timer1Fired irqs =>
    have hfired : Synced { s with timer1 := false, statetag := .fail } := h.congr rfl rfl
    obtain ⟨hheard, hbounds⟩ := hfired.rxAll irqs
    refine ⟨?_, hbounds⟩
    obtain ⟨-, hpair⟩ := Option.ite_none_right_eq_some.mp hstep
    cases hpair
    exact hheard.congr rfl rfl
  | recvTask irqs =>
    have hposted : Synced { s with recvTaskPosted := false } := h.congr rfl rfl
    obtain ⟨htold, hbounds⟩ := hposted.recvTask irqs hallowed
    refine ⟨?_, hbounds⟩
    obtain ⟨-, hpair⟩ := Option.ite_none_right_eq_some.mp hstep
    have hrun : CarP.recvTask irqs { s with recvTaskPosted := false } = (t, out) :=
      Option.some.inj hpair
    rw [hrun] at htold
    exact htold

/-- As long as the flag and the index come down together, every access of every step of
a run is in bounds. -/
theorem receive_in_bounds {s : State × List Output} (h : machine.system.Reachable Resets s)
    {e : Event} (hallowed : Resets s e) {t : State × List Output}
    (hstep : machine.system.step s e = some t) : ∀ a ∈ stepAccesses s.1 e, a.InBounds := by
  have hsynced : Synced s.1 := by
    apply Machine.invariant (P := fun s => Synced s.1) h
    · exact fun _ => by decide
    · intro s e t out hs hallowed hrun
      exact (synced_step hs hallowed hrun).1
  obtain ⟨t, out, hrun, -⟩ := machine.system_step hstep
  exact (synced_step hsynced hallowed hrun).2

/-- A query has been sent, and the reader has begun to answer. -/
def answering : List Event :=
  [.start, .command (.quiryReader 100) [], .granted [], .rxDone ⟨255, 0⟩, .rxDone ⟨255, 0⟩]

/-- The answer goes on. -/
theorem receive_in_bounds_answering :
    ∃ s, machine.system.run answering = some s ∧
      stepAccesses s.1 (.rxDone ⟨0, 0⟩) = [.writeRecdata 0] ∧
      ∀ a ∈ stepAccesses s.1 (.rxDone ⟨0, 0⟩), a.InBounds := by
  have hinit : machine.system.Reachable Resets machine.system.init := .init
  have hreach := System.reachable_of_runFrom hinit answering (by decide) rfl
  exact ⟨_, rfl, rfl, receive_in_bounds hreach trivial rfl⟩

/-- A second query that is refused in the middle of the answer, or a byte that comes to
`recvTask` too early, is followed by a read past the end of `SyncData`. -/
theorem read_past_syncData :
    (∃ s, machine.system.Reachable System.anyStep s ∧
      (machine.system.step s (.rxDone ⟨0, 0⟩)).isSome ∧
      stepAccesses s.1 (.rxDone ⟨0, 0⟩) = [.readSyncData 2] ∧
      ¬ (Access.readSyncData 2).InBounds) ∧
    ∃ s, machine.system.Reachable System.anyStep s ∧
      (machine.system.step s (.recvTask [[], [], [⟨0, 0⟩]])).isSome ∧
      .readSyncData 2 ∈ stepAccesses s.1 (.recvTask [[], [], [⟨0, 0⟩]]) := by
  have hinit : machine.system.Reachable System.anyStep machine.system.init := .init
  constructor
  · have hrefused := System.reachable_of_runFrom hinit
      (answering ++ [.command (.quiryReader 101) []]) (System.allowedFrom_any _ _ _) rfl
    exact ⟨_, hrefused, rfl, rfl, by decide⟩
  · have hfull := System.reachable_of_runFrom hinit
      (answering ++ List.replicate 6 (.rxDone ⟨0, 0⟩)) (System.allowedFrom_any _ _ _) rfl
    exact ⟨_, hfull, rfl, by decide⟩

end WsnContest.CarP
