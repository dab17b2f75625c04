import Mathlib.Order.WellFounded
import Mathlib.Order.OrderIsoNat
import Mathlib.Data.Set.Finite.Basic
import Mathlib.Data.List.Basic
import Mathlib.Order.Interval.Set.Nat

/-! Guarded event systems. A step function answers `none` where an event cannot
happen; what a run assumes of its environment is a predicate on its steps. -/
namespace WsnContest.Lib

structure System (State Event : Type) where
  init : State
  step : State → Event → Option State

namespace System

variable {State Event : Type} (sys : System State Event)

/-- States reached by runs all of whose steps are `allowed`. -/
inductive Reachable (allowed : State → Event → Prop) : State → Prop
  | init : Reachable allowed sys.init
  | step {s s' : State} {e : Event} : Reachable allowed s → allowed s e →
      sys.step s e = some s' → Reachable allowed s'

/-- Nothing is assumed of the steps. -/
abbrev anyStep : State → Event → Prop := fun _ _ => True

variable {sys} {allowed : State → Event → Prop}

theorem Reachable.invariant {P : State → Prop} (hinit : P sys.init)
    (hstep : ∀ s e s', P s → allowed s e → sys.step s e = some s' → P s')
    {s : State} (h : sys.Reachable allowed s) : P s := by
  induction h with
  | init => exact hinit
  | step _ hallowed hs ih => exact hstep _ _ _ ih hallowed hs

theorem Reachable.mono {weaker : State → Event → Prop}
    (hweaker : ∀ s e, allowed s e → weaker s e) {s : State}
    (h : sys.Reachable allowed s) : sys.Reachable weaker s := by
  induction h with
  | init => exact .init
  | step _ hallowed hs ih => exact .step ih (hweaker _ _ hallowed) hs

/-- An invariant may use what is already known of every reachable state. -/
theorem Reachable.invariant_of {P Q : State → Prop}
    (hknown : ∀ s, sys.Reachable allowed s → Q s) (hinit : P sys.init)
    (hstep : ∀ s e s', Q s → P s → allowed s e → sys.step s e = some s' → P s')
    {s : State} (h : sys.Reachable allowed s) : P s := by
  induction h with
  | init => exact hinit
  | step hreach hallowed hs ih => exact hstep _ _ _ (hknown _ hreach) ih hallowed hs

/-- A history that only grows is never more than a prefix of what it ends as, and a
run may be told so from the start. -/
theorem Reachable.of_history {α : Type} {history : State → List α}
    (hgrow : ∀ s e s', sys.step s e = some s' → history s <+: history s') {s : State}
    (h : sys.Reachable anyStep s) :
    sys.Reachable (fun t e => ∀ t', sys.step t e = some t' → history t' <+: history s) s := by
  induction h with
  | init => exact .init
  | @step s s' e hreach _ hs ih =>
    refine (ih.mono fun t e ht t' hstep => (ht t' hstep).trans (hgrow s _ s' hs)).step ?_ hs
    intro t' hstep
    rw [Option.some.inj (hs.symm.trans hstep)]

variable (sys)

/-- Replay a list of events, refusing those that are disabled. -/
def runFrom (s : State) : List Event → Option State
  | [] => some s
  | e :: es => (sys.step s e).bind fun s' => runFrom s' es

def run (es : List Event) : Option State := sys.runFrom sys.init es

/-- Every step of the replay meets the assumption. -/
def AllowedFrom (allowed : State → Event → Prop) (s : State) : List Event → Prop
  | [] => True
  | e :: es => allowed s e ∧ ∀ s' ∈ sys.step s e, AllowedFrom allowed s' es

theorem allowedFrom_of_forall {allowed : State → Event → Prop} (h : ∀ s e, allowed s e)
    (s : State) (es : List Event) : sys.AllowedFrom allowed s es := by
  induction es generalizing s with
  | nil => trivial
  | cons e es ih => exact ⟨h s e, fun s' _ => ih s'⟩

variable {sys} in
theorem AllowedFrom.mono {allowed weaker : State → Event → Prop}
    (hweaker : ∀ s e, allowed s e → weaker s e) {s : State} {es : List Event}
    (h : sys.AllowedFrom allowed s es) : sys.AllowedFrom weaker s es := by
  induction es generalizing s with
  | nil => trivial
  | cons e es ih => exact ⟨hweaker s e h.1, fun s' hs' => ih (h.2 s' hs')⟩

theorem allowedFrom_any (s : State) (es : List Event) : sys.AllowedFrom anyStep s es :=
  sys.allowedFrom_of_forall (fun _ _ => trivial) s es

instance decidableAllowedFrom (allowed : State → Event → Prop)
    [∀ s e, Decidable (allowed s e)] :
    (s : State) → (es : List Event) → Decidable (sys.AllowedFrom allowed s es)
  | _, [] => .isTrue trivial
  | s, e :: es =>
    have : Decidable (∀ s' ∈ sys.step s e, sys.AllowedFrom allowed s' es) :=
      match h : sys.step s e with
      | none => .isTrue (by simp)
      | some s' =>
        match decidableAllowedFrom allowed s' es with
        | .isTrue hs => .isTrue (by simpa using hs)
        | .isFalse hs => .isFalse (by simpa using hs)
    inferInstanceAs (Decidable (_ ∧ _))

variable {sys}

theorem reachable_of_runFrom {s s' : State} (hs : sys.Reachable allowed s) (es : List Event)
    (hallowed : sys.AllowedFrom allowed s es) (h : sys.runFrom s es = some s') :
    sys.Reachable allowed s' := by
  induction es generalizing s with
  | nil =>
    cases h
    exact hs
  | cons e es ih =>
    obtain ⟨t, hstep, hrest⟩ := Option.bind_eq_some_iff.mp h
    exact ih (.step hs hallowed.1 hstep) (hallowed.2 t hstep) hrest

theorem reachable_of_run {s : State} (es : List Event)
    (hallowed : sys.AllowedFrom allowed sys.init es) (h : sys.run es = some s) :
    sys.Reachable allowed s :=
  reachable_of_runFrom .init es hallowed h

theorem runFrom_append (s : State) (es fs : List Event) :
    sys.runFrom s (es ++ fs) = (sys.runFrom s es).bind fun t => sys.runFrom t fs := by
  induction es generalizing s with
  | nil => rfl
  | cons e es ih => simp only [List.cons_append, runFrom, Option.bind_assoc, ih]

/-- Two replays of the same events keep what every two steps of the same event keep. -/
theorem runFrom_relation {R : State → State → Prop} (es : List Event)
    (hstep : ∀ e ∈ es, ∀ s t s' t', R s t → sys.step s e = some s' → sys.step t e = some t' →
      R s' t') {s t s' t' : State} (hst : R s t) (hs : sys.runFrom s es = some s')
    (ht : sys.runFrom t es = some t') : R s' t' := by
  induction es generalizing s t with
  | nil =>
    cases hs
    cases ht
    exact hst
  | cons e es ih =>
    obtain ⟨u, hu, hs⟩ := Option.bind_eq_some_iff.mp hs
    obtain ⟨v, hv, ht⟩ := Option.bind_eq_some_iff.mp ht
    obtain ⟨hhead, htail⟩ := List.forall_mem_cons.mp hstep
    exact ih htail (hhead s t u v hst hu hv) hs ht

theorem runFrom_invariant {P : State → Prop} (es : List Event)
    (hstep : ∀ e ∈ es, ∀ s s', P s → sys.step s e = some s' → P s') {s t : State} (hs : P s)
    (h : sys.runFrom s es = some t) : P t := by
  induction es generalizing s with
  | nil =>
    cases h
    exact hs
  | cons e es ih =>
    obtain ⟨s', he, hrest⟩ := Option.bind_eq_some_iff.mp h
    obtain ⟨hhead, htail⟩ := List.forall_mem_cons.mp hstep
    exact ih htail (hhead s s' hs he) hrest

/-- Two assumptions that agree on the steps of an invariant agree on its replays. -/
theorem allowedFrom_congr {other : State → Event → Prop} (Inv : State → Prop)
    (hkeep : ∀ s e s', Inv s → allowed s e → sys.step s e = some s' → Inv s')
    (hagree : ∀ s e s', Inv s → sys.step s e = some s' → (other s e ↔ allowed s e))
    {s t : State} (es : List Event) (hs : Inv s) (h : sys.runFrom s es = some t) :
    sys.AllowedFrom other s es ↔ sys.AllowedFrom allowed s es := by
  induction es generalizing s with
  | nil => exact Iff.rfl
  | cons e es ih =>
    obtain ⟨s', hstep, hrest⟩ := Option.bind_eq_some_iff.mp h
    have hs' : ∀ u ∈ sys.step s e, u = s' := fun u hu => Option.some.inj (hu.symm.trans hstep)
    rw [AllowedFrom, AllowedFrom, hagree s e s' hs hstep]
    apply and_congr_right
    intro hallowed
    have hrest' := ih (hkeep s e s' hs hallowed hstep) hrest
    constructor
    · intro hother u hu
      rw [hs' u hu]
      exact hrest'.mp (hother s' hstep)
    · intro hother u hu
      rw [hs' u hu]
      exact hrest'.mpr (hother s' hstep)

variable (sys)

/-- A property of every state that a replay passes through. -/
def Always (P : State → Prop) (s : State) : List Event → Prop
  | [] => P s
  | e :: es => P s ∧ ∀ s' ∈ sys.step s e, Always P s' es

variable {sys}

/-- An assumption is enough for `P` if its steps keep an invariant of which `P` is a part. -/
theorem AllowedFrom.always {P Inv : State → Prop}
    (hkeep : ∀ s e s', Inv s → allowed s e → sys.step s e = some s' → Inv s')
    (hholds : ∀ s, Inv s → P s) {s : State} {es : List Event}
    (h : sys.AllowedFrom allowed s es) (hs : Inv s) : sys.Always P s es := by
  induction es generalizing s with
  | nil => exact hholds s hs
  | cons e es ih =>
    exact ⟨hholds s hs, fun s' hstep => ih (h.2 s' hstep) (hkeep s e s' hs h.1 hstep)⟩

/-- It is needed if every other step, from where it has been met so far, ends outside `P`. -/
theorem Always.allowedFrom {P Inv : State → Prop}
    (hkeep : ∀ s e s', Inv s → allowed s e → sys.step s e = some s' → Inv s')
    (hbreak : ∀ s e s', Inv s → sys.step s e = some s' → P s' → allowed s e)
    {s t : State} {es : List Event} (h : sys.Always P s es) (hs : Inv s)
    (hrun : sys.runFrom s es = some t) : sys.AllowedFrom allowed s es := by
  induction es generalizing s with
  | nil => trivial
  | cons e es ih =>
    obtain ⟨s', hstep, hrest⟩ := Option.bind_eq_some_iff.mp hrun
    have halways := h.2 s' hstep
    have hP : P s' := by
      cases es with
      | nil => exact halways
      | cons e' es => exact halways.1
    have hallowed := hbreak s e s' hs hstep hP
    refine ⟨hallowed, fun u hu => ?_⟩
    obtain rfl : s' = u := Option.some.inj (hstep.symm.trans hu)
    exact ih halways (hkeep s e s' hs hallowed hstep) hrest

/-- An assumption is exact for `P` if its steps keep an invariant of which `P` is a
part, and every other step from there ends outside `P`. -/
theorem always_iff_allowedFrom {P Inv : State → Prop}
    (hkeep : ∀ s e s', Inv s → allowed s e → sys.step s e = some s' → Inv s')
    (hholds : ∀ s, Inv s → P s)
    (hbreak : ∀ s e s', Inv s → sys.step s e = some s' → P s' → allowed s e)
    {s t : State} (es : List Event) (hs : Inv s) (h : sys.runFrom s es = some t) :
    sys.Always P s es ↔ sys.AllowedFrom allowed s es :=
  ⟨fun halways => halways.allowedFrom hkeep hbreak hs h,
    fun hallowed => hallowed.always hkeep hholds hs⟩

variable (sys)

/-- A run that goes on for ever. -/
structure InfiniteRun (allowed : State → Event → Prop) where
  state : ℕ → State
  event : ℕ → Event
  start : state 0 = sys.init
  meets : ∀ n, allowed (state n) (event n)
  next : ∀ n, sys.step (state n) (event n) = some (state (n + 1))

variable {sys}

/-- A run meets what its assumption implies. -/
def InfiniteRun.mono {weaker : State → Event → Prop} (run : sys.InfiniteRun allowed)
    (hweaker : ∀ s e, allowed s e → weaker s e) : sys.InfiniteRun weaker where
  state := run.state
  event := run.event
  start := run.start
  meets := fun n => hweaker _ _ (run.meets n)
  next := run.next

theorem InfiniteRun.reachable (run : sys.InfiniteRun allowed) (n : ℕ) :
    sys.Reachable allowed (run.state n) := by
  induction n with
  | zero => exact run.start ▸ .init
  | succ n ih => exact .step ih (run.meets n) (run.next n)

/-- A rank no step raises is lowered finitely often. -/
theorem InfiniteRun.finite_of_rank {α : Type} [PartialOrder α] [WellFoundedLT α]
    (rank : State → α) (counted : State → Event → Prop)
    (hle : ∀ s e s', sys.Reachable allowed s → allowed s e → sys.step s e = some s' →
      rank s' ≤ rank s)
    (hlt : ∀ s e s', sys.Reachable allowed s → allowed s e → sys.step s e = some s' →
      counted s e → rank s' < rank s)
    (run : sys.InfiniteRun allowed) :
    {n | counted (run.state n) (run.event n)}.Finite := by
  have hanti : Antitone fun n => rank (run.state n) := antitone_nat_of_succ_le fun n =>
    hle _ _ _ (run.reachable n) (run.meets n) (run.next n)
  obtain ⟨_, ⟨N, rfl⟩, hmin⟩ := wellFounded_lt.has_min
    (Set.range fun n => rank (run.state n)) ⟨_, 0, rfl⟩
  refine (Set.finite_Iio N).subset fun n hn => ?_
  by_contra hge
  have hdrop := hlt _ _ _ (run.reachable n) (run.meets n) (run.next n) hn
  exact hmin _ ⟨n + 1, rfl⟩ (hdrop.trans_le (hanti (not_lt.mp hge)))

/-- The same if finitely many excused steps may raise the rank. -/
theorem InfiniteRun.finite_of_rank_after {α : Type} [PartialOrder α] [WellFoundedLT α]
    (rank : State → α) (counted excused : State → Event → Prop)
    (hle : ∀ s e s', sys.Reachable allowed s → allowed s e → sys.step s e = some s' →
      ¬ excused s e → rank s' ≤ rank s)
    (hlt : ∀ s e s', sys.Reachable allowed s → allowed s e → sys.step s e = some s' →
      ¬ excused s e → counted s e → rank s' < rank s)
    (run : sys.InfiniteRun allowed)
    (hexcused : {n | excused (run.state n) (run.event n)}.Finite) :
    {n | counted (run.state n) (run.event n)}.Finite := by
  obtain ⟨N, hN⟩ := hexcused.bddAbove
  have hlate : ∀ n, N < n → ¬ excused (run.state n) (run.event n) := fun n hn h =>
    absurd (hN h) (not_le.mpr hn)
  have hanti : Antitone fun k => rank (run.state (N + 1 + k)) := antitone_nat_of_succ_le fun k =>
    hle _ _ _ (run.reachable _) (run.meets _) (run.next _) (hlate _ (by omega))
  obtain ⟨_, ⟨K, rfl⟩, hmin⟩ := wellFounded_lt.has_min
    (Set.range fun k => rank (run.state (N + 1 + k))) ⟨_, 0, rfl⟩
  refine (Set.finite_Iio (N + 1 + K)).subset fun n hn => ?_
  by_contra hge
  obtain ⟨k, rfl⟩ : ∃ k, n = N + 1 + k := ⟨n - (N + 1), by rw [Set.mem_Iio] at hge; omega⟩
  have hdrop := hlt _ _ _ (run.reachable _) (run.meets _) (run.next _) (hlate _ (by omega)) hn
  have hlater : K ≤ k := by
    rw [Set.mem_Iio] at hge
    omega
  exact hmin _ ⟨k + 1, rfl⟩ (hdrop.trans_le (hanti hlater))

/-- Where some step is always possible and either is counted or lowers a rank, a run
can go on for ever and be counted again and again. -/
theorem InfiniteRun.exists_infinite {P : State → Prop} (rank : State → ℕ)
    (counted : State → Event → Prop) (hinit : P sys.init)
    (hprogress : ∀ s, P s → ∃ e s', allowed s e ∧ sys.step s e = some s' ∧ P s' ∧
      (counted s e ∨ rank s' < rank s)) :
    ∃ run : sys.InfiniteRun allowed, {n | counted (run.state n) (run.event n)}.Infinite := by
  choose event next hallowed hstep hnext hcounted using hprogress
  let state : ℕ → {s // P s} := fun n =>
    n.rec ⟨sys.init, hinit⟩ fun _ s => ⟨next s.1 s.2, hnext s.1 s.2⟩
  refine ⟨⟨fun n => (state n).1, fun n => event _ (state n).2, rfl,
    fun n => hallowed _ (state n).2, fun n => hstep _ (state n).2⟩, ?_⟩
  -- The rank cannot fall for ever without a counted step.
  have hsome : ∀ r n, rank (state n).1 ≤ r →
      ∃ m ≥ n, counted (state m).1 (event _ (state m).2) := by
    intro r
    induction r with
    | zero =>
      intro n hr
      rcases hcounted _ (state n).2 with hnow | hless
      · exact ⟨n, le_rfl, hnow⟩
      · omega
    | succ r ih =>
      intro n hr
      rcases hcounted _ (state n).2 with hnow | hless
      · exact ⟨n, le_rfl, hnow⟩
      · have hnextRank : rank (state (n + 1)).1 < rank (state n).1 := hless
        obtain ⟨m, hm, hcount⟩ := ih (n + 1) (by omega)
        exact ⟨m, by omega, hcount⟩
  apply Set.infinite_of_forall_exists_gt
  intro n
  obtain ⟨m, hm, hcount⟩ := hsome _ (n + 1) le_rfl
  exact ⟨m, hcount, hm⟩

/-- The steps `es` are allowed and lead from `s` to `t`. -/
inductive Leads (allowed : State → Event → Prop) : State → List Event → State → Prop
  | nil (s : State) : Leads allowed s [] s
  | cons {s s' t : State} {e : Event} {es : List Event} : allowed s e →
      sys.step s e = some s' → Leads allowed s' es t → Leads allowed s (e :: es) t

theorem Leads.single {s t : State} {e : Event} (hallowed : allowed s e)
    (hstep : sys.step s e = some t) : sys.Leads allowed s [e] t :=
  .cons hallowed hstep (.nil t)

theorem Leads.append {s t u : State} {es fs : List Event} (h : sys.Leads allowed s es t)
    (h' : sys.Leads allowed t fs u) : sys.Leads allowed s (es ++ fs) u := by
  induction h with
  | nil s => exact h'
  | cons hallowed hstep _ ih => exact .cons hallowed hstep (ih h')

/-- Rounds that end where a round can begin, each with a counted first step. -/
theorem InfiniteRun.exists_of_rounds {P : State → Prop} (counted : State → Event → Prop)
    (hstart : ∃ es t, sys.Leads allowed sys.init es t ∧ P t)
    (hround : ∀ s, P s → ∃ e s' es t, allowed s e ∧ sys.step s e = some s' ∧ counted s e ∧
      sys.Leads allowed s' es t ∧ P t) :
    ∃ run : sys.InfiniteRun allowed, {n | counted (run.state n) (run.event n)}.Infinite := by
  classical
  -- How many steps are left of a round.
  let left : State → ℕ → Prop := fun s n =>
    ∃ es t, es.length = n ∧ sys.Leads allowed s es t ∧ P t
  have hleft : ∀ {s es t}, sys.Leads allowed s es t → P t → ∃ n, left s n :=
    fun hleads ht => ⟨_, _, _, rfl, hleads, ht⟩
  apply InfiniteRun.exists_infinite (P := fun s => ∃ n, left s n)
    (fun s => if h : ∃ n, left s n then Nat.find h else 0) counted
  · obtain ⟨es, t, hleads, ht⟩ := hstart
    exact hleft hleads ht
  · intro s hs
    obtain ⟨es, t, hlength, hleads, ht⟩ := Nat.find_spec hs
    cases hleads with
    | nil =>
      obtain ⟨e, s', es, t, hallowed, hstep, hcounted, hleads, ht⟩ := hround s ht
      exact ⟨e, s', hallowed, hstep, hleft hleads ht, .inl hcounted⟩
    | @cons _ s' _ e es hallowed hstep hrest =>
      have hs' := hleft hrest ht
      refine ⟨e, s', hallowed, hstep, hs', .inr ?_⟩
      rw [dif_pos hs, dif_pos hs', ← hlength]
      exact (Nat.find_min' hs' ⟨es, t, rfl, hrest, ht⟩).trans_lt (Nat.lt_succ_self _)

variable (sys)

/-- The system with another initial state. -/
def startingAt (s : State) : System State Event := { sys with init := s }

variable {sys}

/-- A step before a run. -/
def InfiniteRun.cons {s t : State} {e : Event} (hallowed : allowed s e)
    (hstep : sys.step s e = some t) (run : (sys.startingAt t).InfiniteRun allowed) :
    (sys.startingAt s).InfiniteRun allowed where
  state := fun n => n.casesOn s run.state
  event := fun n => n.casesOn e run.event
  start := rfl
  meets := fun n => match n with
    | 0 => hallowed
    | n + 1 => run.meets n
  next := fun n => match n with
    | 0 => hstep.trans (congrArg some run.start.symm)
    | n + 1 => run.next n

/-- A run may be entered by way of finitely many steps. -/
theorem InfiniteRun.exists_after {s t : State} {es : List Event} (h : sys.Leads allowed s es t)
    (run : (sys.startingAt t).InfiniteRun allowed) :
    ∃ (run' : (sys.startingAt s).InfiniteRun allowed) (N : ℕ),
      ∀ n, run'.state (n + N) = run.state n ∧ run'.event (n + N) = run.event n := by
  induction h with
  | nil s => exact ⟨run, 0, fun n => ⟨rfl, rfl⟩⟩
  | cons hallowed hstep _ ih =>
    obtain ⟨run', N, hafter⟩ := ih run
    exact ⟨.cons hallowed hstep run', N + 1, hafter⟩

/-- A replay may be followed by a step that leaves everything as it is, for ever. -/
theorem InfiniteRun.exists_replay {s t : State} {e : Event} {es : List Event}
    (hallowed : sys.AllowedFrom allowed s es) (h : sys.runFrom s es = some t)
    (hidle : allowed t e) (hstep : sys.step t e = some t) :
    ∃ run : (sys.startingAt s).InfiniteRun allowed,
      ∀ n, run.event n = es.getD n e ∧ sys.runFrom s (es.take n) = some (run.state n) := by
  induction es generalizing s with
  | nil =>
    cases h
    exact ⟨⟨fun _ => t, fun _ => e, rfl, fun _ => hidle, fun _ => hstep⟩, fun n =>
      ⟨rfl, by rw [List.take_nil]; rfl⟩⟩
  | cons e' es ih =>
    obtain ⟨s', hfirst, hrest⟩ := Option.bind_eq_some_iff.mp h
    obtain ⟨run, hrun⟩ := ih (hallowed.2 s' hfirst) hrest
    refine ⟨.cons hallowed.1 hfirst run, fun n => ?_⟩
    cases n with
    | zero => exact ⟨rfl, rfl⟩
    | succ n =>
      obtain ⟨hevent, hstate⟩ := hrun n
      exact ⟨hevent, (congrArg (Option.bind · fun s' => sys.runFrom s' (es.take n)) hfirst).trans
        hstate⟩

/-- A run in which every event is given beforehand. -/
theorem InfiniteRun.exists_scripted {Q : ℕ → State → Prop} (script : ℕ → Event)
    (hinit : Q 0 sys.init)
    (hnext : ∀ n s, Q n s → allowed s (script n) ∧
      ∃ s', sys.step s (script n) = some s' ∧ Q (n + 1) s') :
    ∃ run : sys.InfiniteRun allowed, (∀ n, run.event n = script n) ∧ ∀ n, Q n (run.state n) := by
  choose hallowed next hstep hQ using hnext
  let state : (n : ℕ) → {t : State // Q n t} := fun n =>
    n.rec ⟨sys.init, hinit⟩ fun n t => ⟨next n t.1 t.2, hQ n t.1 t.2⟩
  exact ⟨⟨fun n => (state n).1, script, rfl, fun n => hallowed n _ (state n).2,
    fun n => hstep n _ (state n).2⟩, fun _ => rfl, fun n => (state n).2⟩

/-- Finitely many steps of one kind, and from then on rounds of another kind. -/
theorem InfiniteRun.exists_of_later_rounds {P : State → Prop} {later : State → Event → Prop}
    (hlater : ∀ s e, later s e → allowed s e) (counted : State → Event → Prop)
    (hstart : ∃ es t, sys.Leads allowed sys.init es t ∧ P t)
    (hround : ∀ s, P s → ∃ e s' es t, later s e ∧ sys.step s e = some s' ∧ counted s e ∧
      sys.Leads later s' es t ∧ P t) :
    ∃ run : sys.InfiniteRun allowed, {n | counted (run.state n) (run.event n)}.Infinite ∧
      {n | ¬ later (run.state n) (run.event n)}.Finite := by
  have hsame : ∀ {t s u : State} {es : List Event}, sys.Leads later s es u →
      (sys.startingAt t).Leads later s es u := by
    intro t s u es h
    induction h with
    | nil s => exact .nil s
    | cons hallowed hstep _ ih => exact .cons hallowed hstep ih
  obtain ⟨es, t, hleads, ht⟩ := hstart
  have hrounds : ∃ run : (sys.startingAt t).InfiniteRun later,
      {n | counted (run.state n) (run.event n)}.Infinite := by
    refine exists_of_rounds counted ⟨[], t, .nil t, ht⟩ fun s hs => ?_
    obtain ⟨e, s', es, u, hallowed, hstep, hcounted, hrest, hu⟩ := hround s hs
    exact ⟨e, s', es, u, hallowed, hstep, hcounted, hsame hrest, hu⟩
  obtain ⟨run, hinfinite⟩ := hrounds
  obtain ⟨run', N, hafter⟩ := exists_after hleads (run.mono hlater)
  refine ⟨run', ?_, (Set.finite_Iio N).subset fun n hn => ?_⟩
  · refine Set.Infinite.mono ?_ (hinfinite.image (add_left_injective N).injOn)
    rintro _ ⟨n, hn, rfl⟩
    obtain ⟨hstate, hevent⟩ := hafter n
    change counted (run'.state (n + N)) (run'.event (n + N))
    rw [hstate, hevent]
    exact hn
  · by_contra hge
    obtain ⟨k, rfl⟩ : ∃ k, n = k + N := ⟨n - N, by rw [Set.mem_Iio] at hge; omega⟩
    obtain ⟨hstate, hevent⟩ := hafter k
    apply hn
    rw [hstate, hevent]
    exact run.meets k

end System

/-- Everything reported is in order after what was reported before it. -/
def InOrder {Output : Type} (fits : List Output → Output → Prop) (out : List Output) : Prop :=
  ∀ pre o post, out = pre ++ o :: post → fits pre o

section InOrder
variable {Output : Type} {fits : List Output → Output → Prop} {out : List Output}

theorem inOrder_nil : InOrder fits [] := by
  intro pre o post h
  simp at h

theorem InOrder.append_one {o : Output} (h : InOrder fits out) (ho : fits out o) :
    InOrder fits (out ++ [o]) := by
  intro pre o' post heq
  rcases List.append_eq_append_iff.mp heq with ⟨mid, rfl, hlast⟩ | ⟨mid, rfl, hlast⟩
  · cases mid with
    | nil =>
      obtain ⟨rfl, -⟩ := List.cons.inj hlast
      simpa using ho
    | cons head mid => simp at hlast
  · cases mid with
    | nil =>
      obtain ⟨rfl, -⟩ := List.cons.inj hlast
      simpa using ho
    | cons head mid =>
      obtain ⟨rfl, -⟩ := List.cons.inj hlast
      exact h pre o' mid rfl

theorem inOrder_append_one {o : Output} :
    InOrder fits (out ++ [o]) ↔ InOrder fits out ∧ fits out o := by
  refine ⟨fun h => ⟨fun pre o' post heq => ?_, h out o [] rfl⟩, fun h => h.1.append_one h.2⟩
  exact h pre o' (post ++ [o]) (by simp [heq])

/-- More that is in order wherever it comes. -/
theorem InOrder.append (h : InOrder fits out) {new : List Output}
    (hnew : ∀ o ∈ new, ∀ pre, fits pre o) : InOrder fits (out ++ new) := by
  induction new generalizing out with
  | nil => rwa [List.append_nil]
  | cons o new ih =>
    obtain ⟨ho, hrest⟩ := List.forall_mem_cons.mp hnew
    rw [List.append_cons]
    exact ih (h.append_one (ho out)) hrest

end InOrder

/-- A component whose steps also report what the outside sees of them. -/
structure Machine (State Event Output : Type) where
  init : State
  step : State → Event → Option (State × List Output)

namespace Machine

variable {State Event Output : Type} (m : Machine State Event Output)

/-- The component together with everything it has reported, oldest first. -/
def system : System (State × List Output) Event where
  init := (m.init, [])
  step := fun s e => (m.step s.1 e).map fun r => (r.1, s.2 ++ r.2)

theorem system_step {s s' : State × List Output} {e : Event}
    (h : m.system.step s e = some s') :
    ∃ t out, m.step s.1 e = some (t, out) ∧ s' = (t, s.2 ++ out) := by
  obtain ⟨⟨t, out⟩, hstep, rfl⟩ := Option.map_eq_some_iff.mp h
  exact ⟨t, out, hstep, rfl⟩

variable {m} {allowed : State × List Output → Event → Prop}

/-! What a step of the component keeps, a run of it with its reports keeps. -/

theorem invariant {P : State × List Output → Prop} {s : State × List Output}
    (h : m.system.Reachable allowed s) (hinit : P m.system.init)
    (hstep : ∀ s e t out, P s → allowed s e → m.step s.1 e = some (t, out) →
      P (t, s.2 ++ out)) : P s := by
  apply h.invariant hinit
  intro s e s' hs hallowed hsystem
  obtain ⟨t, out, he, rfl⟩ := m.system_step hsystem
  exact hstep s e t out hs hallowed he

theorem runFrom_invariant {P : State × List Output → Prop} (es : List Event)
    (hstep : ∀ e ∈ es, ∀ s t out, P s → m.step s.1 e = some (t, out) → P (t, s.2 ++ out))
    {s t : State × List Output} (hs : P s) (h : m.system.runFrom s es = some t) : P t := by
  apply System.runFrom_invariant es ?_ hs h
  intro e he s s' hs hsystem
  obtain ⟨t, out, hrun, rfl⟩ := m.system_step hsystem
  exact hstep e he s t out hs hrun

theorem allowedFrom_congr {other : State × List Output → Event → Prop}
    (Inv : State × List Output → Prop)
    (hstep : ∀ s e t out, Inv s → m.step s.1 e = some (t, out) →
      (other s e ↔ allowed s e) ∧ (allowed s e → Inv (t, s.2 ++ out)))
    {s t : State × List Output} (es : List Event) (hs : Inv s)
    (h : m.system.runFrom s es = some t) :
    m.system.AllowedFrom other s es ↔ m.system.AllowedFrom allowed s es := by
  apply System.allowedFrom_congr Inv ?_ ?_ es hs h
  · intro s e s' hs hallowed hsystem
    obtain ⟨t, out, he, rfl⟩ := m.system_step hsystem
    exact (hstep s e t out hs he).2 hallowed
  · intro s e s' hs hsystem
    obtain ⟨t, out, he, rfl⟩ := m.system_step hsystem
    exact (hstep s e t out hs he).1

theorem always_iff_allowedFrom {P : State × List Output → Prop}
    (Inv : State × List Output → Prop) (hholds : ∀ s, Inv s → P s)
    (hstep : ∀ s e t out, Inv s → m.step s.1 e = some (t, out) →
      (allowed s e → Inv (t, s.2 ++ out)) ∧ (P (t, s.2 ++ out) → allowed s e))
    {s t : State × List Output} (es : List Event) (hs : Inv s)
    (h : m.system.runFrom s es = some t) :
    m.system.Always P s es ↔ m.system.AllowedFrom allowed s es := by
  apply System.always_iff_allowedFrom ?_ hholds ?_ es hs h
  · intro s e s' hs hallowed hsystem
    obtain ⟨t, out, he, rfl⟩ := m.system_step hsystem
    exact (hstep s e t out hs he).1 hallowed
  · intro s e s' hs hsystem
    obtain ⟨t, out, he, rfl⟩ := m.system_step hsystem
    exact (hstep s e t out hs he).2

/-- Where each step of a component that is allowed is one of another, with the same reports,
so is each run. -/
theorem runFrom_simulated {State' : Type} (m' : Machine State' Event Output)
    {R : State → State' → Prop}
    (hstep : ∀ s s' e t out, R s.1 s' → allowed s e → m.step s.1 e = some (t, out) →
      ∃ t', m'.step s' e = some (t', out) ∧ R t t')
    (es : List Event) {s t : State × List Output} {s' : State'} (hs : R s.1 s')
    (hallowed : m.system.AllowedFrom allowed s es) (h : m.system.runFrom s es = some t) :
    ∃ t', m'.system.runFrom (s', s.2) es = some (t', t.2) ∧ R t.1 t' := by
  induction es generalizing s s' with
  | nil =>
    cases h
    exact ⟨s', rfl, hs⟩
  | cons e es ih =>
    obtain ⟨u, hu, hrest⟩ := Option.bind_eq_some_iff.mp h
    obtain ⟨v, out, hv, rfl⟩ := m.system_step hu
    obtain ⟨v', hv', hrel⟩ := hstep s s' e v out hs hallowed.1 hv
    obtain ⟨t', hrun, ht⟩ := ih hrel (hallowed.2 _ hu) hrest
    have hsystem : m'.system.step (s', s.2) e = some (v', s.2 ++ out) := by
      simp [system, hv']
    exact ⟨t', by rw [System.runFrom, hsystem]; exact hrun, ht⟩

end Machine

end WsnContest.Lib
