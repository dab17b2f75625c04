import WsnContest.Lib.Network

/-! A network whose nodes keep notes of what they meet. The notes decide nothing, so the
runs are those of the network itself; they let a statement speak of the past of a node. -/
namespace WsnContest.Lib.Network

variable {V F O : Type} {S E R : V → Type}

/-- Every node notes what `own` and `got` say of the steps it takes. -/
def noting (N : Network V S E R F) (own : ∀ v, E v → S v → List O)
    (got : ∀ v, R v → F → S v → List O) : Network V (fun v => S v × List O) E R F where
  init := fun v => (N.init v, [])
  handle := fun v e s => (N.handle v e s.1).map fun r => ((r.1, s.2 ++ own v e s.1), r.2)
  receive := fun v r f s =>
    (((N.receive v r f s.1).1, s.2 ++ got v r f s.1), (N.receive v r f s.1).2)

/-- The notes are thrown away. -/
def Config.forget (c : Config (fun v => S v × List O) F) : Config S F where
  node := fun v => (c.node v).1
  log := c.log
  delivered := c.delivered

variable [DecidableEq V]

theorem Config.forget_put (c : Config (fun v => S v × List O) F) (v : V) (s : S v × List O)
    (fs : List F) : (c.put v s fs).forget = c.forget.put v s.1 fs := by
  have hnode : (fun w => ((c.put v s fs).node w).1) = (c.forget.put v s.1 fs).node := by
    funext w
    by_cases hw : w = v
    · subst hw
      rw [c.put_node_self, Config.put_node_self]
    · rw [c.put_node_of_ne s fs hw, Config.put_node_of_ne _ s.1 fs hw]
      rfl
  unfold Config.forget
  rw [hnode]
  rfl

variable {N : Network V S E R F} {own : ∀ v, E v → S v → List O}
  {got : ∀ v, R v → F → S v → List O}

theorem noting_step (c : Config (fun v => S v × List O) F) (e : Event E R) :
    ((N.noting own got).system.step c e).map Config.forget = N.system.step c.forget e := by
  cases e with
  | act v a =>
    have hnode : (c.forget.node v) = (c.node v).1 := rfl
    simp only [system, step, noting, Option.map_map, hnode]
    apply congrArg (fun g => Option.map g _)
    funext r
    exact c.forget_put v _ r.2
  | deliver i v r =>
    have hlog : c.forget.log = c.log := rfl
    simp only [system, step, noting, Option.map_map, hlog]
    apply congrArg (fun g => Option.map g _)
    funext entry
    exact congrArg (Config.mark · i v) (c.forget_put v _ _)

theorem noting_runFrom (es : List (Event E R)) (c : Config (fun v => S v × List O) F) :
    ((N.noting own got).system.runFrom c es).map Config.forget =
      N.system.runFrom c.forget es := by
  induction es generalizing c with
  | nil => rfl
  | cons e es ih =>
    have hstep : ((N.noting own got).system.step c e).map Config.forget =
      N.system.step c.forget e := noting_step c e
    rw [System.runFrom, System.runFrom, ← hstep, Option.map_bind, Option.bind_map]
    apply congrArg
    funext c'
    exact ih c'

/-- The notes decide nothing. -/
theorem noting_run (es : List (Event E R)) :
    ((N.noting own got).system.run es).map Config.forget = N.system.run es :=
  noting_runFrom es _

/-- An assumption that does not look at the notes. -/
theorem noting_reachable {allowed : Config S F → Event E R → Prop}
    {c : Config (fun v => S v × List O) F}
    (h : (N.noting own got).system.Reachable (fun c e => allowed c.forget e) c) :
    N.system.Reachable allowed c.forget := by
  induction h with
  | init => exact .init
  | @step c c' e _ hallowed hstep ih =>
    have hmap : ((N.noting own got).system.step c e).map Config.forget = N.system.step c.forget e :=
      noting_step c e
    rw [hstep] at hmap
    exact ih.step hallowed hmap.symm

theorem notes_step {c c' : Config (fun v => S v × List O) F} {e : Event E R}
    (h : (N.noting own got).system.step c e = some c') (w : V) :
    (c.node w).2 <+: (c'.node w).2 := by
  have hput : ∀ v (s : S v) (new : List O) (fs : List F),
      (c.node w).2 <+: ((c.put v (s, (c.node v).2 ++ new) fs).node w).2 := by
    intro v s new fs
    by_cases hw : w = v
    · subst hw
      rw [c.put_node_self]
      exact List.prefix_append _ _
    · rw [c.put_node_of_ne _ fs hw]
  obtain ⟨v, a, s, fs, -, hhandle, rfl⟩ | ⟨i, v, r, u, f, -, -, rfl⟩ :=
    (N.noting own got).system_step h
  · obtain ⟨⟨t, gs⟩, -, heq⟩ := Option.map_eq_some_iff.mp hhandle
    obtain ⟨rfl, rfl⟩ := Prod.mk.inj heq
    exact hput v t _ gs
  · exact hput v (N.receive v r f (c.node v).1).1 _ (N.receive v r f (c.node v).1).2

/-- What a node has noted stays noted. -/
theorem notes_runFrom {es : List (Event E R)} {c c' : Config (fun v => S v × List O) F}
    (h : (N.noting own got).system.runFrom c es = some c') (w : V) :
    (c.node w).2 <+: (c'.node w).2 := by
  induction es generalizing c with
  | nil =>
    obtain rfl := Option.some.inj h
    exact List.prefix_rfl
  | cons e es ih =>
    obtain ⟨d, hstep, hrest⟩ := Option.bind_eq_some_iff.mp h
    exact (notes_step hstep w).trans (ih hrest)

end WsnContest.Lib.Network
