import WsnContest.Car.Parser
import WsnContest.Car.FrameIntegrity

/-! What a reading depends on. Nothing resets the parser of received bytes at a
grant: it goes on where an earlier owner of the UART left it, be it a drive command
during which the reader said something. So a reading is that of its own exchange
exactly if the parser is at rest when the query is granted. -/
namespace WsnContest.CarP
open Tinyos Lib

/-- No call of the `Car` interface, no grant and no answer. -/
def Event.silent : Event → Bool
  | .start | .stop | .rxDone _ | .timer1Fired _ => true
  | .command _ _ | .granted _ | .recvTask _ => false

/-- What happens from the grant of a query to its `readDone`: the bytes that come
while it is sent, those and the timer while it waits, and those of the gaps of
`recvTask`. -/
structure Window where
  sending : List Rx
  waiting : List Event
  task : List (List Rx)
  silent : ∀ e ∈ waiting, e.silent = true

def Window.events (w : Window) : List Event :=
  .granted w.sending :: (w.waiting ++ [.recvTask w.task])

/-- The window can follow, and the driver reports `r` at its end. -/
def Reports (s : State × List Output) (w : Window) (r : ErrorT × Word16) : Prop :=
  ∃ t, machine.system.runFrom s w.events = some t ∧ t.2.getLast? = some (.readDone r.1 r.2)

/-- A query was accepted, nothing has been granted since, and the grant can come. -/
structure AtGrant (s : State × List Output) : Prop where
  accepted : ∃ pre value post, s.2 = pre ++ .accepted (.quiryReader value) :: post ∧
    written post = []
  requested : s.1.requested = true
  owner : s.1.owner = false

/-- The parser waits for the first synchronisation byte. -/
structure AtRest (s : State) : Prop where
  isUartDataOk : s.isUartDataOk = false
  rcvSyncDataSum : s.rcvSyncDataSum = 0
  isBufFull : s.isBufFull = false

/-- The query is sent as one, and nothing of an earlier exchange is on its way. -/
structure Clean (s : State) : Prop where
  cmdlength : s.cmdlength = 4
  atRest : AtRest s
  recvTaskPosted : s.recvTaskPosted = false

/-- Two drivers that take the next bytes alike. Once `known` they agree on the last
frame as far as it will be told, and if `told` on what they would tell of it. -/
structure Alike (known told : Prop) (s t : State) : Prop where
  owner : s.owner = t.owner
  isUartDataOk : s.isUartDataOk = t.isUartDataOk
  rcvSyncDataSum : s.rcvSyncDataSum = t.rcvSyncDataSum
  isBufFull : s.isBufFull = t.isBufFull
  length : s.recdata.length = t.recdata.length
  nreading : s.isUartDataOk = true → s.nreading = t.nreading
  recdata : s.isUartDataOk = true → s.recdata.take s.nreading = t.recdata.take s.nreading
  statetag : known → s.statetag = t.statetag
  tagdata : told ∨ known ∧ s.statetag ≠ .fail → s.tagdata = t.tagdata

section Bytes
variable {known told : Prop} {s t : State}

theorem Alike.mono (h : Alike known told s t) {known' told' : Prop} (hknown : known' → known)
    (htold : told' → told ∨ known ∧ s.statetag ≠ .fail) : Alike known' told' s t :=
  ⟨h.owner, h.isUartDataOk, h.rcvSyncDataSum, h.isBufFull, h.length, h.nreading, h.recdata,
    fun hk => h.statetag (hknown hk),
    fun hdata => h.tagdata (hdata.elim htold fun hk => .inr ⟨hknown hk.1, hk.2⟩)⟩

theorem Alike.sync (h : Alike known told s t) (b : Rx) :
    Alike known told (sync b s) (sync b t) := by
  unfold CarP.sync
  rw [h.rcvSyncDataSum]
  dsimp only
  split
  · split
    · exact ⟨h.owner, rfl, rfl, h.isBufFull, h.length, fun _ => rfl, fun _ => rfl, h.statetag,
        h.tagdata⟩
    · exact ⟨h.owner, h.isUartDataOk, rfl, h.isBufFull, h.length, h.nreading, h.recdata,
        h.statetag, h.tagdata⟩
  · exact ⟨h.owner, h.isUartDataOk, rfl, h.isBufFull, h.length, h.nreading, h.recdata,
      h.statetag, h.tagdata⟩

theorem take_set_succ {xs ys : List Word8} (hlength : xs.length = ys.length) {n : ℕ}
    (h : xs.take n = ys.take n) (data : Word8) :
    (xs.set n data).take (n + 1) = (ys.set n data).take (n + 1) := by
  rcases lt_or_ge n xs.length with hlt | hge
  · rw [List.take_add_one, List.take_add_one, List.take_set_of_le (le_refl n),
      List.take_set_of_le (le_refl n), h, List.getElem?_set_self hlt,
      List.getElem?_set_self (hlength ▸ hlt)]
  · have hxy : xs = ys := by
      rwa [List.take_of_length_le hge, List.take_of_length_le (hlength ▸ hge)] at h
    rw [hxy]

theorem Alike.store (h : Alike known told s t) (hok : s.isUartDataOk = true) (data : Word8) :
    Alike known told (store data s) (store data t) := by
  unfold CarP.store
  rw [← h.nreading hok]
  split
  · next hlt =>
    refine ⟨h.owner, h.isUartDataOk, h.rcvSyncDataSum, h.isBufFull, ?_, fun _ => rfl, ?_,
      h.statetag, h.tagdata⟩
    · simpa using h.length
    · intro _
      have htake := take_set_succ h.length (h.recdata hok) data
      rw [← nreading_succ hlt] at htake
      exact htake
  · exact h

theorem Alike.bufFull (h : Alike known told s t) (hok : s.isUartDataOk = true)
    (hcount : s.nreading = maxData) : Alike True told (bufFull s) (bufFull t) := by
  have hbyte : ∀ i < 6, t.recdata.getD i 0 = s.recdata.getD i 0 := by
    intro i hi
    have hsix : s.recdata.take 6 = t.recdata.take 6 := by
      have htake := h.recdata hok
      rwa [hcount] at htake
    have hget := congrArg (fun l : List Word8 => l.getD i 0) hsix
    simpa [List.getD_eq_getElem?_getD, List.getElem?_take_of_lt hi] using hget.symm
  unfold CarP.bufFull
  dsimp only
  rw [hbyte 0 (by omega), hbyte 1 (by omega), hbyte 4 (by omega), hbyte 5 (by omega)]
  split
  · exact ⟨h.owner, h.isUartDataOk, h.rcvSyncDataSum, rfl, h.length, h.nreading, h.recdata,
      fun _ => rfl, fun _ => rfl⟩
  · exact ⟨h.owner, h.isUartDataOk, h.rcvSyncDataSum, rfl, h.length, h.nreading, h.recdata,
      fun _ => rfl, fun hdata => h.tagdata (hdata.imp_right fun hk => absurd rfl hk.2)⟩

theorem Alike.rxDone (h : Alike known told s t) (b : Rx) :
    Alike (known ∨ fills b s = true) told (rxDone b s) (rxDone b t) := by
  have hkeep : fills b s = false → ∀ {s' t' : State}, Alike known told s' t' →
      Alike (known ∨ fills b s = true) told s' t' := by
    intro hquiet s' t' h'
    exact h'.mono (by simp [hquiet]) .inl
  cases howner : s.owner with
  | false =>
    rw [rxDone_of_not_owner howner, rxDone_of_not_owner (h.owner ▸ howner)]
    exact hkeep (fills_eq_false (.inr (.inr howner))) h
  | true =>
    have howner' : t.owner = true := h.owner ▸ howner
    cases hok : s.isUartDataOk with
    | false =>
      rw [rxDone_sync howner hok, rxDone_sync howner' (h.isUartDataOk ▸ hok)]
      exact hkeep (fills_eq_false (.inr (.inl hok))) (h.sync b)
    | true =>
      have hok' : t.isUartDataOk = true := h.isUartDataOk ▸ hok
      cases hfull : s.isBufFull with
      | true =>
        rw [rxDone_full hok hfull, rxDone_full hok' (h.isBufFull ▸ hfull)]
        exact hkeep (fills_eq_false (.inl hfull)) h
      | false =>
        have hstore := h.store hok b.data
        have hstored : (CarP.store b.data s).isUartDataOk = true := by
          unfold CarP.store
          split <;> exact hok
        rw [rxDone_store howner hok hfull, rxDone_store howner' hok' (h.isBufFull ▸ hfull),
          ← hstore.nreading hstored]
        split
        · next hcount => exact (hstore.bufFull hstored hcount).mono (fun _ => trivial) .inl
        · next hcount => exact hkeep (by simp [fills, hcount]) hstore

theorem Alike.rxAll (h : Alike known told s t) (bs : List Rx) :
    Alike (known ∨ completes bs s = true) told (rxAll bs s) (rxAll bs t) := by
  induction bs generalizing known s t with
  | nil => exact h.mono (by simp [completes]) .inl
  | cons b bs ih =>
    refine (ih (h.rxDone b)).mono ?_ .inl
    intro hknown
    simpa [completes, or_assoc] using hknown

theorem Alike.arrive (h : Alike True told s t) (bs : List Rx) :
    Alike True told (CarP.rxAll bs s) (CarP.rxAll bs t) :=
  (h.rxAll bs).mono .inl .inl

theorem Alike.through (irqs : List (List Rx)) (fs : List (State → State))
    (hfs : ∀ f ∈ fs, ∀ s t : State, Alike True told s t → Alike True told (f s) (f t)) (i : ℕ)
    {s t : State} (h : Alike True told s t) :
    Alike True told (through irqs i fs s) (through irqs i fs t) := by
  induction fs generalizing i s t with
  | nil => exact h
  | cons f fs ih =>
    obtain ⟨hf, hrest⟩ := List.forall_mem_cons.mp hfs
    exact ih hrest (i + 1) ((hf s t h).arrive (irqs.getD i []))

theorem Alike.recvTask (h : Alike True False s t) (irqs : List (List Rx)) :
    (recvTask irqs s).2 = (recvTask irqs t).2 := by
  have htested := h.through irqs (recvTaskSteps.take 5) (by
    intro f hf s t h
    change f ∈ [stopTimer1, clearBufFull, clearUartDataOk, clearSync, clearReading] at hf
    simp only [List.mem_cons, List.not_mem_nil, or_false] at hf
    rcases hf with rfl | rfl | rfl | rfl | rfl
    · exact ⟨h.owner, h.isUartDataOk, h.rcvSyncDataSum, h.isBufFull, h.length, h.nreading,
        h.recdata, h.statetag, h.tagdata⟩
    · exact ⟨h.owner, h.isUartDataOk, h.rcvSyncDataSum, rfl, h.length, h.nreading,
        h.recdata, h.statetag, h.tagdata⟩
    · exact ⟨h.owner, rfl, h.rcvSyncDataSum, h.isBufFull, h.length, by simp [clearUartDataOk],
        by simp [clearUartDataOk], h.statetag, h.tagdata⟩
    · exact ⟨h.owner, h.isUartDataOk, rfl, h.isBufFull, h.length, h.nreading,
        h.recdata, h.statetag, h.tagdata⟩
    · exact ⟨h.owner, h.isUartDataOk, h.rcvSyncDataSum, h.isBufFull, h.length, fun _ => rfl,
        fun _ => rfl, h.statetag, h.tagdata⟩) 0
  rw [recvTask_output, recvTask_output]
  dsimp only
  generalize CarP.through irqs 0 (recvTaskSteps.take 5) s = u at htested ⊢
  generalize CarP.through irqs 0 (recvTaskSteps.take 5) t = v at htested ⊢
  rw [← htested.statetag trivial]
  split
  · rw [(htested.arrive (irqs.getD 5 [])).statetag trivial]
  · next hread =>
    have htold : Alike True True u v := htested.mono id fun _ => .inr ⟨trivial, hread⟩
    have hsignal := htold.arrive (irqs.getD 5 [])
    rw [hsignal.statetag trivial, hsignal.tagdata (.inl trivial)]

end Bytes

/-- Alike, and agreed on the last frame once it made the first post `recvTask`. -/
def Matched (s t : State) : Prop := Alike (s.recvTaskPosted = true) False s t

section Windows
variable {s t : State}

theorem Matched.rxAll (h : Matched s t) (bs : List Rx) :
    Matched (CarP.rxAll bs s) (CarP.rxAll bs t) := by
  refine (Alike.rxAll h bs).mono ?_ .inl
  rw [rxAll_posted, Bool.or_eq_true]
  exact id

theorem Matched.timer1Fired (h : Matched s t) (irqs : List Rx) :
    Matched (timer1Fired irqs { s with timer1 := false })
      (timer1Fired irqs { t with timer1 := false }) := by
  have hfail : Alike True False { s with timer1 := false, statetag := .fail }
      { t with timer1 := false, statetag := .fail } :=
    ⟨h.owner, h.isUartDataOk, h.rcvSyncDataSum, h.isBufFull, h.length, h.nreading, h.recdata,
      fun _ => rfl, by simp⟩
  have hheard := hfail.arrive irqs
  exact ⟨hheard.owner, hheard.isUartDataOk, hheard.rcvSyncDataSum, hheard.isBufFull,
    hheard.length, hheard.nreading, hheard.recdata, fun _ => hheard.statetag trivial,
    fun hdata => hheard.tagdata (hdata.imp_right fun hk => ⟨trivial, hk.2⟩)⟩

theorem Matched.step (h : Matched s t) {e : Event} (he : e.silent = true) {s' t' : State}
    {out out' : List Output} (hs : step s e = some (s', out)) (ht : step t e = some (t', out')) :
    Matched s' t' := by
  cases e with
  | start | stop =>
    cases hs
    cases ht
    exact ⟨h.owner, h.isUartDataOk, h.rcvSyncDataSum, h.isBufFull, h.length, h.nreading,
      h.recdata, h.statetag, h.tagdata⟩
  | rxDone b =>
    cases hs
    cases ht
    exact h.rxAll [b]
  | timer1Fired irqs =>
    obtain ⟨-, hs⟩ := Option.ite_none_right_eq_some.mp hs
    obtain ⟨-, ht⟩ := Option.ite_none_right_eq_some.mp ht
    cases hs
    cases ht
    exact h.timer1Fired irqs
  | command | granted | recvTask => cases he

theorem Clean.matched (hs : Clean s) (ht : Clean t)
    (hlength : s.recdata.length = t.recdata.length) :
    Matched { s with requested := false, owner := true }
      { t with requested := false, owner := true } := by
  obtain ⟨hsok, hssum, hsfull⟩ := hs.atRest
  obtain ⟨htok, htsum, htfull⟩ := ht.atRest
  refine ⟨rfl, hsok.trans htok.symm, hssum.trans htsum.symm, hsfull.trans htfull.symm, hlength,
    ?_, ?_, ?_, ?_⟩ <;> simp [hsok, hs.recvTaskPosted]

end Windows

theorem length_rxDone (b : Rx) (s : State) : (rxDone b s).recdata.length = s.recdata.length := by
  have hsync : (sync b s).recdata = s.recdata := by
    unfold sync
    dsimp only
    split
    · split <;> rfl
    · rfl
  have hstore : (store b.data s).recdata.length = s.recdata.length := by
    unfold store
    split
    · simp
    · rfl
  have hfull : (bufFull (store b.data s)).recdata = (store b.data s).recdata := by
    unfold bufFull
    dsimp only
    split <;> rfl
  unfold rxDone
  dsimp only
  split
  · rw [hsync]
  · split
    · split
      · rw [hfull, hstore]
      · exact hstore
    · rfl

theorem length_rxAll (bs : List Rx) (s : State) :
    (rxAll bs s).recdata.length = s.recdata.length := by
  induction bs generalizing s with
  | nil => rfl
  | cons b bs ih => rw [rxAll_cons, ih, length_rxDone]

theorem length_through (irqs : List (List Rx)) (fs : List (State → State))
    (hfs : ∀ f ∈ fs, ∀ s : State, (f s).recdata = s.recdata) (i : ℕ) (s : State) :
    (through irqs i fs s).recdata.length = s.recdata.length := by
  induction fs generalizing i s with
  | nil => rfl
  | cons f fs ih =>
    obtain ⟨hf, hrest⟩ := List.forall_mem_cons.mp hfs
    rw [through, ih hrest, length_rxAll, hf]

theorem length_call (c : Command) (irqs : List (List Rx)) (s : State) :
    (call c irqs s).1.recdata.length = s.recdata.length := by
  cases hready : s.ready with
  | true => rw [call_ready hready]
  | false =>
    have hbusy : ¬ s.ready = true := by simp [hready]
    obtain ⟨value, rfl⟩ | ⟨value, -, -, hcall⟩ := quiryReader_or_drive c
    · have hquery : call (.quiryReader value) irqs s = _ := if_neg hbusy
      rw [hquery]
      change (rxAll (irqs.getD 1 []) _).recdata.length = _
      rw [length_rxAll]
      exact length_rxAll (irqs.getD 0 []) _
    · have hdrive : drive c.op value s = (prepare 7 s, .ebusy) := if_neg hbusy
      rw [hcall, hdrive]
      rfl

theorem length_step {s t : State} {e : Event} {out : List Output}
    (h : step s e = some (t, out)) : t.recdata.length = s.recdata.length := by
  cases e with
  | start | stop =>
    cases h
    rfl
  | command c irqs =>
    have hpair : (call c irqs s).1 = t := congrArg Prod.fst (Option.some.inj h)
    rw [← hpair, length_call]
  | granted irqs =>
    cases step_effect h with
    | granted _ _ ht =>
      rw [ht]
      split <;> exact length_rxAll irqs _
  | rxDone b =>
    cases h
    exact length_rxDone b s
  | timer1Fired irqs =>
    obtain ⟨-, hpair⟩ := Option.ite_none_right_eq_some.mp h
    cases hpair
    exact length_rxAll irqs _
  | recvTask irqs =>
    obtain ⟨-, hpair⟩ := Option.ite_none_right_eq_some.mp h
    have hrun : (CarP.recvTask irqs { s with recvTaskPosted := false }).1 = t :=
      congrArg Prod.fst (Option.some.inj hpair)
    rw [← hrun, recvTask_through]
    apply length_through irqs recvTaskSteps
    intro f hf s
    simp only [recvTaskSteps, List.mem_cons, List.not_mem_nil, or_false] at hf
    rcases hf with rfl | rfl | rfl | rfl | rfl | rfl | rfl | rfl <;> rfl

theorem length_of_reachable {s : State × List Output}
    (h : machine.system.Reachable System.anyStep s) : s.1.recdata.length = 6 := by
  apply Machine.invariant (P := fun s => s.1.recdata.length = 6) h rfl
  intro s e t out hs _ hrun
  exact (length_step hrun).trans hs

section Reports
variable {s u : State × List Output}

theorem AtGrant.step_granted (h : AtGrant s) (hlength : s.1.cmdlength = 4) (irqs : List Rx) :
    machine.system.step s (.granted irqs) =
      some ({ rxAll irqs { s.1 with requested := false, owner := true } with timer1 := true },
        s.2 ++ [.wrote (s.1.carCommand.take s.1.cmdlength)]) := by
  have hstep : step s.1 (.granted irqs) =
      some (granted irqs { s.1 with requested := false, owner := true }) :=
    if_pos (by simp [h.requested, h.owner])
  simp only [Machine.system, machine, hstep, Option.map_some, granted_eq, if_pos hlength]

theorem runFrom_rxDone (bs : List Rx) (s : State) (out : List Output) :
    machine.system.runFrom (s, out) (bs.map .rxDone) = some (rxAll bs s, out) := by
  induction bs generalizing s with
  | nil => rfl
  | cons b bs ih =>
    have hstep : machine.system.step (s, out) (.rxDone b) = some (rxDone b s, out) := by
      simp [Machine.system, machine, step]
    rw [List.map_cons, System.runFrom, hstep]
    exact ih (rxDone b s)

theorem runFrom_recvTask {irqs : List (List Rx)} {t : State × List Output}
    (h : machine.system.runFrom u [.recvTask irqs] = some t) :
    u.1.recvTaskPosted = true ∧ ∃ r : ErrorT × Word16,
      (recvTask irqs { u.1 with recvTaskPosted := false }).2 = [.readDone r.1 r.2] ∧
      t.2.getLast? = some (.readDone r.1 r.2) := by
  obtain ⟨t', hstep, hrest⟩ := Option.bind_eq_some_iff.mp h
  obtain rfl : t' = t := Option.some.inj hrest
  obtain ⟨v, out, hrun, rfl⟩ := machine.system_step hstep
  obtain ⟨hposted, hpair⟩ := Option.ite_none_right_eq_some.mp hrun
  have hout : (recvTask irqs { u.1 with recvTaskPosted := false }).2 = out :=
    congrArg Prod.snd (Option.some.inj hpair)
  obtain ⟨_, state, data, -, heq⟩ := recvTask_heard irqs { u.1 with recvTaskPosted := false }
  have hdone : out = [.readDone state data] := by
    rw [← hout, heq]
  exact ⟨hposted, (state, data), hout.trans hdone, by simp [hdone]⟩

end Reports

/-- Two clean drivers report the same of the same window. -/
theorem Clean.reports_eq {s s' : State × List Output} (hs : AtGrant s) (hs' : AtGrant s')
    (hclean : Clean s.1) (hclean' : Clean s'.1)
    (hlength : s.1.recdata.length = s'.1.recdata.length) {w : Window} {r r' : ErrorT × Word16}
    (h : Reports s w r) (h' : Reports s' w r') : r = r' := by
  obtain ⟨t, hrun, hlast⟩ := h
  obtain ⟨t', hrun', hlast'⟩ := h'
  rw [Window.events, System.runFrom, hs.step_granted hclean.cmdlength, Option.bind_some,
    System.runFrom_append] at hrun
  rw [Window.events, System.runFrom, hs'.step_granted hclean'.cmdlength, Option.bind_some,
    System.runFrom_append] at hrun'
  obtain ⟨u, hwait, htask⟩ := Option.bind_eq_some_iff.mp hrun
  obtain ⟨u', hwait', htask'⟩ := Option.bind_eq_some_iff.mp hrun'
  have hsent := (hclean.matched hclean' hlength).rxAll w.sending
  have hmatched : Matched u.1 u'.1 := by
    refine System.runFrom_relation (R := fun s t => Matched s.1 t.1) w.waiting ?_ ?_ hwait hwait'
    · intro e he s t s' t' hst hstep hstep'
      obtain ⟨v, out, hv, rfl⟩ := machine.system_step hstep
      obtain ⟨v', out', hv', rfl⟩ := machine.system_step hstep'
      exact hst.step (w.silent e he) hv hv'
    · exact ⟨hsent.owner, hsent.isUartDataOk, hsent.rcvSyncDataSum, hsent.isBufFull,
        hsent.length, hsent.nreading, hsent.recdata, hsent.statetag, hsent.tagdata⟩
  obtain ⟨hposted, q, hq, hqlast⟩ := runFrom_recvTask htask
  obtain ⟨-, q', hq', hqlast'⟩ := runFrom_recvTask htask'
  have hknown : Alike True False { u.1 with recvTaskPosted := false }
      { u'.1 with recvTaskPosted := false } :=
    ⟨hmatched.owner, hmatched.isUartDataOk, hmatched.rcvSyncDataSum, hmatched.isBufFull,
      hmatched.length, hmatched.nreading, hmatched.recdata, fun _ => hmatched.statetag hposted,
      fun hdata => hmatched.tagdata (hdata.imp_right fun hk => ⟨hposted, hk.2⟩)⟩
  have htold := hknown.recvTask w.task
  rw [hq, hq'] at htold
  have hr : r = q := by simpa [Prod.ext_iff] using hlast.symm.trans hqlast
  have hr' : r' = q' := by simpa [Prod.ext_iff] using hlast'.symm.trans hqlast'
  have hsame : q = q' := by simpa [Prod.ext_iff] using htold
  rw [hr, hr', hsame]

section Dirty
variable {s : State}

/-- The parser takes no more bytes until `recvTask` has run. -/
def Deaf (s : State) : Prop :=
  s.isUartDataOk = true ∧ (s.isBufFull = true ∨ maxData < s.nreading)

/-- The next byte is lost, unless it begins a frame. -/
def Lost (s : State) : Prop := Deaf s ∨ s.isUartDataOk = false ∧ s.rcvSyncDataSum = 0

theorem rxDone_deaf (h : Deaf s) (b : Rx) : rxDone b s = s := by
  obtain ⟨hok, hfull | hcount⟩ := h
  · exact rxDone_full hok hfull
  · cases howner : s.owner with
    | false => exact rxDone_of_not_owner howner
    | true =>
      cases hfull : s.isBufFull with
      | true => exact rxDone_full hok hfull
      | false =>
        have hstore : store b.data s = s := if_neg (not_lt.mpr hcount.le)
        rw [rxDone_store howner hok hfull, hstore, if_neg hcount.ne']

theorem rxAll_deaf (h : Deaf s) (bs : List Rx) : rxAll bs s = s := by
  induction bs with
  | nil => rfl
  | cons b bs ih => rw [rxAll_cons, rxDone_deaf h, ih]

/-- Another byte than the next one of the two makes the parser start again. -/
theorem rxDone_miss (howner : s.owner = true) (hok : s.isUartDataOk = false) {b : Rx}
    (hb : syncData s.rcvSyncDataSum b.beyond ≠ b.data) :
    rxDone b s = { s with rcvSyncDataSum := 0 } := by
  rw [rxDone_sync howner hok]
  exact if_neg hb

theorem rxDone_lost (howner : s.owner = true) (h : Lost s) {data : Word8} (hdata : data ≠ 255) :
    rxDone ⟨data, 0⟩ s = s := by
  rcases h with hdeaf | ⟨hok, hsum⟩
  · exact rxDone_deaf hdeaf _
  · have hb : syncData s.rcvSyncDataSum 0 ≠ data := by
      rw [hsum]
      exact hdata.symm
    rw [rxDone_miss howner hok hb, ← hsum]

theorem rxAll_lost (howner : s.owner = true) (h : Lost s) (n : ℕ) :
    rxAll (List.replicate n ⟨0, 0⟩) s = s := by
  induction n with
  | zero => rfl
  | succ n ih => rw [List.replicate_succ, rxAll_cons, rxDone_lost howner h (by decide), ih]

theorem deaf_of_bytes (bs : List Rx) (howner : s.owner = true) (hok : s.isUartDataOk = true)
    (hbs : bs ≠ []) (hcount : 6 ≤ s.nreading.val + bs.length) : Deaf (rxAll bs s) := by
  induction bs generalizing s with
  | nil => exact absurd rfl hbs
  | cons b bs ih =>
    rw [rxAll_cons]
    cases hfull : s.isBufFull with
    | true =>
      have hdeaf : Deaf s := ⟨hok, .inl hfull⟩
      rw [rxDone_deaf hdeaf, rxAll_deaf hdeaf]
      exact hdeaf
    | false =>
      rw [rxDone_store howner hok hfull]
      split
      · have hdeaf : Deaf (bufFull (store b.data s)) := by
          unfold bufFull store
          dsimp only
          split <;> split <;> exact ⟨hok, .inl rfl⟩
        rw [rxAll_deaf hdeaf]
        exact hdeaf
      · next hnot =>
        rcases lt_or_ge s.nreading maxData with hlt | hge
        · have hstore : store b.data s =
              { s with recdata := s.recdata.set s.nreading b.data, nreading := s.nreading + 1 } :=
            if_pos hlt
          rw [hstore] at hnot ⊢
          have hsucc := nreading_succ hlt
          have hsix : (s.nreading + 1 : Word8).val ≠ 6 := fun h => hnot (Fin.ext h)
          have hsmall : s.nreading.val < 6 := hlt
          rw [List.length_cons] at hcount
          refine ih (s := { s with
            recdata := s.recdata.set s.nreading b.data
            nreading := s.nreading + 1 }) howner hok ?_ ?_
          · rintro rfl
            simp only [List.length_nil] at hcount
            omega
          · change 6 ≤ (s.nreading + 1 : Word8).val + bs.length
            omega
        · have hstore : store b.data s = s := if_neg (not_lt.mpr hge)
          rw [hstore] at hnot ⊢
          have hdeaf : Deaf s := ⟨hok, .inr (lt_of_le_of_ne hge (Ne.symm hnot))⟩
          rw [rxAll_deaf hdeaf]
          exact hdeaf

/-- All of a frame but its last byte. -/
def beginning : List Rx := ⟨255, 0⟩ :: ⟨255, 0⟩ :: List.replicate 5 ⟨0, 0⟩

/-- The reader answers `data`. -/
def frame (data : Word8) : List Rx := beginning ++ [⟨data, 0⟩]

theorem rxDone_sync_first (howner : s.owner = true) (hok : s.isUartDataOk = false)
    (hsum : s.rcvSyncDataSum = 0) :
    rxDone ⟨255, 0⟩ s = { s with rcvSyncDataSum := 1 } := by
  rw [rxDone_sync howner hok, sync, hsum]
  rfl

theorem rxDone_sync_second (howner : s.owner = true) (hok : s.isUartDataOk = false)
    (hsum : s.rcvSyncDataSum = 1) :
    rxDone ⟨255, 0⟩ s = { s with rcvSyncDataSum := 2, isUartDataOk := true, nreading := 0 } := by
  rw [rxDone_sync howner hok, sync, hsum]
  rfl

/-- A parser that is not at rest has lost its place before a frame ends. -/
theorem lost_of_dirty (howner : s.owner = true) (h : ¬ AtRest s) :
    Lost (rxAll beginning s) := by
  cases hok : s.isUartDataOk with
  | true =>
    exact .inl (deaf_of_bytes beginning howner hok (by simp [beginning]) (by simp [beginning]))
  | false =>
    by_cases hzero : s.rcvSyncDataSum = 0
    · -- only the full buffer is left over, and the frame finds no room
      have hfull : s.isBufFull = true :=
        Bool.of_not_eq_false fun hfull => h ⟨hok, hzero, hfull⟩
      have hdeaf : Deaf { s with rcvSyncDataSum := 2, isUartDataOk := true, nreading := 0 } :=
        ⟨rfl, .inl hfull⟩
      rw [beginning, rxAll_cons, rxAll_cons, rxDone_sync_first howner hok hzero,
        rxDone_sync_second (s := { s with rcvSyncDataSum := 1 }) howner hok rfl, rxAll_deaf hdeaf]
      exact .inl hdeaf
    · by_cases hone : s.rcvSyncDataSum = 1
      · -- the first byte completes the synchronisation, the second is taken for data
        rw [beginning, rxAll_cons, rxDone_sync_second howner hok hone]
        exact .inl (deaf_of_bytes _ howner rfl (by simp) (by simp))
      · have hover : ¬ s.rcvSyncDataSum < syncDataSum := by
          intro hlt
          have hlt' : s.rcvSyncDataSum.val < 2 := hlt
          have hzero' : s.rcvSyncDataSum.val ≠ 0 := fun h => hzero (Fin.ext h)
          have hone' : s.rcvSyncDataSum.val ≠ 1 := fun h => hone (Fin.ext h)
          omega
        have hfirst : rxDone ⟨255, 0⟩ s = { s with rcvSyncDataSum := 0 } := by
          apply rxDone_miss howner hok
          rw [syncData, if_neg hover]
          decide
        have hmiss : rxDone ⟨0, 0⟩ { s with rcvSyncDataSum := 1 } =
            { s with rcvSyncDataSum := 0 } :=
          rxDone_miss (s := { s with rcvSyncDataSum := 1 }) howner hok
            (show syncData 1 0 ≠ 0 by decide)
        have hlost : Lost { s with rcvSyncDataSum := 0 } := .inr ⟨hok, rfl⟩
        have hsecond : rxDone ⟨255, 0⟩ { s with rcvSyncDataSum := 0 } =
            { s with rcvSyncDataSum := 1 } :=
          rxDone_sync_first (s := { s with rcvSyncDataSum := 0 }) howner hok rfl
        rw [beginning, rxAll_cons, rxAll_cons, hfirst, hsecond, List.replicate_succ, rxAll_cons,
          hmiss, rxAll_lost (s := { s with rcvSyncDataSum := 0 }) howner hlost]
        exact hlost

end Dirty

/-- What `recvTask` tells if no byte comes while it runs. -/
def told (s : State) : ErrorT × Word16 :=
  (s.statetag, if s.statetag = .fail then 0xffff else s.tagdata)

theorem recvTask_told (s : State) :
    (recvTask [] { s with recvTaskPosted := false }).2 =
      [.readDone (told s).1 (told s).2] := by
  have htested : through [] 0 (recvTaskSteps.take 5) { s with recvTaskPosted := false } =
      clearReading (clearSync (clearUartDataOk (clearBufFull
        (stopTimer1 { s with recvTaskPosted := false })))) := rfl
  rw [recvTask_output, htested, told]
  dsimp only [List.getD_nil, rxAll_nil, clearReading, clearSync, clearUartDataOk, clearBufFull,
    stopTimer1]
  split <;> rfl

section Separation
variable {s : State × List Output}

theorem runFrom_recvTask_nil (hposted : s.1.recvTaskPosted = true) :
    ∃ t, machine.system.runFrom s [.recvTask []] = some t ∧
      t.2.getLast? = some (.readDone (told s.1).1 (told s.1).2) := by
  have hstep : machine.system.step s (.recvTask []) =
      some ((recvTask [] { s.1 with recvTaskPosted := false }).1,
        s.2 ++ [.readDone (told s.1).1 (told s.1).2]) := by
    simp only [Machine.system, machine, step, hposted, if_true, Option.map_some, recvTask_told]
  have hrun : machine.system.runFrom s [.recvTask []] =
      some ((recvTask [] { s.1 with recvTaskPosted := false }).1,
        s.2 ++ [.readDone (told s.1).1 (told s.1).2]) := by
    rw [System.runFrom, hstep]
    rfl
  exact ⟨_, hrun, by simp⟩

/-- Nothing happens but the grant and the task. -/
def bare : Window := ⟨[], [], [], by simp⟩

/-- The timer fires, the reader answers `data` before the task has run. -/
def late (data : Word8) : Window where
  sending := []
  waiting := .timer1Fired [] :: (frame data).map .rxDone
  task := []
  silent := by simp [Event.silent]

/-- The driver after the timer has fired. -/
def fired (s : State) : State :=
  timer1Fired [] { s with requested := false, owner := true, timer1 := false }

theorem AtGrant.reports_bare (h : AtGrant s) (hlength : s.1.cmdlength = 4)
    (hposted : s.1.recvTaskPosted = true) : Reports s bare (told s.1) := by
  obtain ⟨t, htask, hlast⟩ := runFrom_recvTask_nil
    (s := ({ s.1 with requested := false, owner := true, timer1 := true },
      s.2 ++ [.wrote (s.1.carCommand.take s.1.cmdlength)])) hposted
  refine ⟨t, ?_, hlast⟩
  rw [Window.events, System.runFrom]
  change (machine.system.step s (.granted [])).bind _ = _
  rw [h.step_granted hlength, Option.bind_some]
  exact htask

theorem AtGrant.reports_late (h : AtGrant s) (hlength : s.1.cmdlength = 4) (data : Word8) :
    Reports s (late data) (told (rxAll (frame data) (fired s.1))) := by
  have hposted : (rxAll (frame data) (fired s.1)).recvTaskPosted = true := by
    rw [rxAll_posted]
    rfl
  obtain ⟨t, htask, hlast⟩ := runFrom_recvTask_nil
    (s := (rxAll (frame data) (fired s.1),
      s.2 ++ [.wrote (s.1.carCommand.take s.1.cmdlength)])) hposted
  refine ⟨t, ?_, hlast⟩
  have hfired : machine.system.step ({ s.1 with requested := false, owner := true, timer1 := true },
      s.2 ++ [.wrote (s.1.carCommand.take s.1.cmdlength)]) (.timer1Fired []) =
      some (fired s.1, s.2 ++ [.wrote (s.1.carCommand.take s.1.cmdlength)]) := by
    simp [Machine.system, machine, step, fired]
  rw [Window.events, System.runFrom]
  change (machine.system.step s (.granted [])).bind _ = _
  rw [h.step_granted hlength, Option.bind_some, System.runFrom_append]
  change ((machine.system.step _ (.timer1Fired [])).bind _).bind _ = _
  rw [rxAll_nil, hfired, Option.bind_some, runFrom_rxDone]
  exact htask

/-- The last byte of a frame does not reach a report it is lost to. -/
theorem told_late (hdirty : ¬ AtRest s.1) {data : Word8} (hdata : data ≠ 255) :
    told (rxAll (frame data) (fired s.1)) = told (rxAll beginning (fired s.1)) := by
  have hrest : ¬ AtRest (fired s.1) := fun h =>
    hdirty ⟨h.isUartDataOk, h.rcvSyncDataSum, h.isBufFull⟩
  have howner : (rxAll beginning (fired s.1)).owner = true :=
    (heard_rxAll beginning (fired s.1)).owner
  rw [frame, rxAll_append, rxAll_cons, rxAll_nil,
    rxDone_lost howner (lost_of_dirty rfl hrest) hdata]

end Separation

/-- A query accepted right after the start. -/
def fresh : List Event := [.start, .command (.quiryReader 100) []]

/-- A query accepted after the reader spoke while a drive command was sent. -/
def spoken (bytes : List Rx) : List Event :=
  [.start, .command (.angle 2800) [], .granted bytes, .command (.quiryReader 100) []]

/-- What the driver has reported by then. -/
def driven : List Output :=
  [.startDone .success, .accepted (.angle 2800), .wrote [1, 2, 1, 10, 240, 255, 255]]

theorem AtGrant.of_last {s : State × List Output} (pre : List Output)
    (hlast : s.2 = pre ++ [.accepted (.quiryReader 100)]) (hrequested : s.1.requested = true)
    (howner : s.1.owner = false) : AtGrant s :=
  ⟨⟨pre, 100, [], hlast, rfl⟩, hrequested, howner⟩

theorem fresh_atGrant : ∃ s, machine.system.run fresh = some s ∧
    machine.system.Reachable System.anyStep s ∧ AtGrant s ∧ Clean s.1 ∧
    told (rxAll (frame 1) (fired s.1)) = (.success, 1) ∧
    told (rxAll (frame 2) (fired s.1)) = (.success, 2) :=
  ⟨_, rfl, System.reachable_of_run fresh (by decide) rfl,
    .of_last [.startDone .success] rfl rfl rfl, ⟨rfl, ⟨rfl, rfl, rfl⟩, rfl⟩, by decide,
    by decide⟩

theorem spoken_atGrant (data : Word8) (hdata : data = 1 ∨ data = 2) :
    ∃ s, machine.system.run (spoken (frame data)) = some s ∧
      machine.system.Reachable System.anyStep s ∧ AtGrant s ∧ s.1.cmdlength = 4 ∧
      s.1.recvTaskPosted = true ∧ told s.1 = (.success, Fin.ofNat _ data.val) := by
  rcases hdata with rfl | rfl
  · exact ⟨_, rfl, System.reachable_of_run (spoken (frame 1)) (by decide) rfl,
      .of_last driven rfl rfl rfl, rfl, by decide, by decide⟩
  · exact ⟨_, rfl, System.reachable_of_run (spoken (frame 2)) (by decide) rfl,
      .of_last driven rfl rfl rfl, rfl, by decide, by decide⟩

/-- A driver that is not clean reports other than some driver does of the same window,
other than a clean one does unless it is only a task that is left over. -/
theorem AtGrant.separated {s : State × List Output} (h : AtGrant s) (hlength : s.1.cmdlength = 4)
    (hdirty : ¬ Clean s.1) :
    ∃ s' w r r', machine.system.Reachable System.anyStep s' ∧ AtGrant s' ∧
      (AtRest s.1 ∨ Clean s'.1) ∧ Reports s w r ∧ Reports s' w r' ∧ r ≠ r' := by
  by_cases hrest : AtRest s.1
  · have hposted : s.1.recvTaskPosted = true :=
      Bool.of_not_eq_false fun hnone => hdirty ⟨hlength, hrest, hnone⟩
    obtain ⟨s₁, -, hreach₁, hgrant₁, hlength₁, hposted₁, htold₁⟩ := spoken_atGrant 1 (.inl rfl)
    obtain ⟨s₂, -, hreach₂, hgrant₂, hlength₂, hposted₂, htold₂⟩ := spoken_atGrant 2 (.inr rfl)
    by_cases hone : told s.1 = (.success, 1)
    · refine ⟨s₂, bare, _, _, hreach₂, hgrant₂, .inl hrest, h.reports_bare hlength hposted,
        hgrant₂.reports_bare hlength₂ hposted₂, ?_⟩
      rw [hone, htold₂]
      decide
    · refine ⟨s₁, bare, _, _, hreach₁, hgrant₁, .inl hrest, h.reports_bare hlength hposted,
        hgrant₁.reports_bare hlength₁ hposted₁, ?_⟩
      rw [htold₁]
      exact hone
  · obtain ⟨s', -, hreach', hgrant', hclean', htold₁, htold₂⟩ := fresh_atGrant
    by_cases hone : told (rxAll beginning (fired s.1)) = (.success, 1)
    · refine ⟨s', late 2, _, _, hreach', hgrant', .inr hclean', h.reports_late hlength 2,
        hgrant'.reports_late hclean'.cmdlength 2, ?_⟩
      rw [told_late hrest (by decide), hone, htold₂]
      decide
    · refine ⟨s', late 1, _, _, hreach', hgrant', .inr hclean', h.reports_late hlength 1,
        hgrant'.reports_late hclean'.cmdlength 1, ?_⟩
      rw [told_late hrest (by decide), htold₁]
      exact hone

/-- Whatever came before, two queries that are granted in clean drivers are reported
alike if the same happens up to `readDone`; and a driver that sends the query as one but
is not clean is at odds with another in some window. -/
theorem reading_isolated {s s' : State × List Output}
    (hreach : machine.system.Reachable System.anyStep s)
    (hreach' : machine.system.Reachable System.anyStep s') (hgrant : AtGrant s)
    (hgrant' : AtGrant s') :
    (Clean s.1 → Clean s'.1 → ∀ w r r', Reports s w r → Reports s' w r' → r = r') ∧
    (s.1.cmdlength = 4 → ¬ Clean s.1 →
      ∃ s₀ w r r', machine.system.Reachable System.anyStep s₀ ∧ AtGrant s₀ ∧
        (AtRest s.1 ∨ Clean s₀.1) ∧ Reports s w r ∧ Reports s₀ w r' ∧ r ≠ r') := by
  refine ⟨?_, hgrant.separated⟩
  intro hclean hclean' w r r' hr hr'
  have hlength : s.1.recdata.length = s'.1.recdata.length :=
    (length_of_reachable hreach).trans (length_of_reachable hreach').symm
  exact Clean.reports_eq hgrant hgrant' hclean hclean' hlength hr hr'

/-- The reader answers `data` in time. -/
def prompt (data : Word8) : Window where
  sending := []
  waiting := (frame data).map .rxDone
  task := []
  silent := by simp [Event.silent]

/-- A stray byte that is not one of the two of the synchronisation does no harm. -/
theorem reading_isolated_stray :
    ∃ s s', machine.system.run fresh = some s ∧ machine.system.run (spoken [⟨7, 0⟩]) = some s' ∧
      ∃ r, Reports s (prompt 5) r ∧ ∀ r', Reports s' (prompt 5) r' → r = r' := by
  refine ⟨_, _, rfl, rfl, (.success, 5), ⟨_, rfl, by decide⟩, fun r' hr' => ?_⟩
  refine (reading_isolated (System.reachable_of_run fresh (by decide) rfl)
    (System.reachable_of_run (spoken [⟨7, 0⟩]) (by decide) rfl) ?_ ?_).1 ?_ ?_ (prompt 5)
    (.success, 5) r' ⟨_, rfl, by decide⟩ hr'
  · exact .of_last [.startDone .success] rfl rfl rfl
  · exact .of_last driven rfl rfl rfl
  · exact ⟨rfl, ⟨rfl, rfl, rfl⟩, rfl⟩
  · exact ⟨rfl, ⟨rfl, rfl, rfl⟩, rfl⟩

/-- One that is makes the driver take the next for the whole, and the reading fails. -/
theorem stray_byte_spoils_reading :
    ∃ s s', machine.system.Reachable System.anyStep s ∧
      machine.system.Reachable System.anyStep s' ∧ AtGrant s ∧ AtGrant s' ∧
      Reports s (prompt 5) (.success, 5) ∧ Reports s' (prompt 5) (.fail, 0xffff) := by
  refine ⟨_, _, System.reachable_of_run fresh (by decide) rfl,
    System.reachable_of_run (spoken [⟨255, 0⟩]) (by decide) rfl, ?_, ?_, ⟨_, rfl, by decide⟩,
    ⟨_, rfl, by decide⟩⟩
  · exact .of_last [.startDone .success] rfl rfl rfl
  · exact .of_last driven rfl rfl rfl

end WsnContest.CarP
