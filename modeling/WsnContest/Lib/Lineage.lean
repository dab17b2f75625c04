import WsnContest.Lib.Network

/-! What was broadcast in answer to what. A run keeps a second log, in which each broadcast
stands with the delivery that caused it and with what could be seen of its sender just
then. The second log decides nothing; it lets a statement follow one message on its way. -/
namespace WsnContest.Lib.Network

/-- A broadcast, the position of the broadcast it answers, and a view of the sender. -/
structure Sent (V F A : Type) where
  sender : V
  frame : F
  cause : Option ℕ
  view : A

variable {V F A : Type} {S E R : V → Type}

/-- What the medium knows of a broadcast. -/
def Sent.entry (x : Sent V F A) : V × F := (x.sender, x.frame)

section Step
variable (view : ∀ v, S v → A) (c : Config S F)

/-- The broadcast that an event delivers. -/
def causeOf : Event E R → Option ℕ
  | .act _ _ => none
  | .deliver i _ _ => some i

/-- The node at which an event happens. -/
def nodeOf : Event E R → V
  | .act v _ => v
  | .deliver _ v _ => v

/-- The entries of a step that broadcasts `new`. -/
def sentBy (e : Event E R) (new : List (V × F)) : List (Sent V F A) :=
  new.map fun entry => ⟨entry.1, entry.2, causeOf e, view (nodeOf e) (c.node (nodeOf e))⟩

variable [DecidableEq V]

/-- The network with its second log. -/
def tracing (N : Network V S E R F) (view : ∀ v, S v → A) :
    System (Config S F × List (Sent V F A)) (Event E R) where
  init := (N.system.init, [])
  step := fun s e => (N.step s.1 e).map fun c =>
    (c, s.2 ++ sentBy view s.1 e (c.log.drop s.1.log.length))

end Step

variable [DecidableEq V] {N : Network V S E R F} {view : ∀ v, S v → A}
  {allowed : Config S F → Event E R → Prop}

/-- What a step is, by the kind of its event. -/
theorem tracing_step {s s' : Config S F × List (Sent V F A)} {e : Event E R}
    (h : (N.tracing view).step s e = some s') :
    (∃ v a t fs, e = .act v a ∧ N.handle v a (s.1.node v) = some (t, fs) ∧
      s' = (s.1.put v t fs, s.2 ++ fs.map fun f => ⟨v, f, none, view v (s.1.node v)⟩)) ∨
    (∃ i v r u f, e = .deliver i v r ∧ s.1.log[i]? = some (u, f) ∧
      s' = ((s.1.put v (N.receive v r f (s.1.node v)).1 (N.receive v r f (s.1.node v)).2).mark i v,
        s.2 ++ (N.receive v r f (s.1.node v)).2.map
          fun g => ⟨v, g, some i, view v (s.1.node v)⟩)) := by
  obtain ⟨c, hstep, rfl⟩ := Option.map_eq_some_iff.mp h
  obtain ⟨v, a, t, fs, rfl, hhandle, rfl⟩ | ⟨i, v, r, u, f, rfl, hlog, rfl⟩ :=
    N.system_step hstep
  · refine .inl ⟨v, a, t, fs, rfl, hhandle, ?_⟩
    rw [Config.put_log, List.drop_left, sentBy, List.map_map]
    rfl
  · refine .inr ⟨i, v, r, u, f, rfl, hlog, ?_⟩
    rw [Config.mark_log, Config.put_log, List.drop_left, sentBy, List.map_map]
    rfl

/-- The second log decides nothing. -/
theorem tracing_reachable {s : Config S F × List (Sent V F A)}
    (h : (N.tracing view).Reachable (fun s e => allowed s.1 e) s) :
    N.system.Reachable allowed s.1 := by
  induction h with
  | init => exact .init
  | step _ hallowed hs ih =>
    obtain ⟨c, hstep, rfl⟩ := Option.map_eq_some_iff.mp hs
    exact ih.step hallowed hstep

/-- Both logs tell of the same broadcasts. -/
theorem tracing_log {s : Config S F × List (Sent V F A)}
    (h : (N.tracing view).Reachable (fun s e => allowed s.1 e) s) :
    s.2.map Sent.entry = s.1.log := by
  refine h.invariant (P := fun s => s.2.map Sent.entry = s.1.log) rfl ?_
  intro s e s' hs _ hstep
  obtain ⟨v, a, t, fs, -, -, rfl⟩ | ⟨i, v, r, u, f, -, -, rfl⟩ := tracing_step hstep
  · rw [List.map_append, hs, List.map_map]
    rfl
  · rw [List.map_append, hs, List.map_map]
    rfl

/-- `path` follows one message: each broadcast on it answers the one before. -/
def Journey (sent : List (Sent V F A)) (path : List ℕ) : Prop :=
  path.IsChain fun i j => ∃ x, sent[j]? = some x ∧ x.cause = some i

/-- A rule about each broadcast and one about each answer, kept by every step. `Q` is told
what a broadcast was made with and may change as the nodes move; `L` compares a broadcast
with its answer. -/
theorem lineage {Q : Config S F → Sent V F A → Prop} {L : Sent V F A → Sent V F A → Prop}
    (hkeep : ∀ s e s', (N.tracing view).Reachable (fun s e => allowed s.1 e) s →
      allowed s.1 e → (N.tracing view).step s e = some s' → ∀ x ∈ s.2, Q s.1 x → Q s'.1 x)
    (hact : ∀ (s : Config S F × List (Sent V F A)) v a t fs,
      (N.tracing view).Reachable (fun s e => allowed s.1 e) s → allowed s.1 (.act v a) →
      N.handle v a (s.1.node v) = some (t, fs) →
      ∀ f ∈ fs, Q (s.1.put v t fs) ⟨v, f, none, view v (s.1.node v)⟩)
    (hdeliver : ∀ (s : Config S F × List (Sent V F A)) i v r x t fs,
      (N.tracing view).Reachable (fun s e => allowed s.1 e) s → allowed s.1 (.deliver i v r) →
      s.2[i]? = some x → Q s.1 x → N.receive v r x.frame (s.1.node v) = (t, fs) →
      ∀ f ∈ fs, Q ((s.1.put v t fs).mark i v) ⟨v, f, some i, view v (s.1.node v)⟩ ∧
        L x ⟨v, f, some i, view v (s.1.node v)⟩)
    {s : Config S F × List (Sent V F A)}
    (h : (N.tracing view).Reachable (fun s e => allowed s.1 e) s) :
    (∀ x ∈ s.2, Q s.1 x) ∧
      ∀ (j : ℕ) y (i : ℕ), s.2[j]? = some y → y.cause = some i →
        ∃ x, s.2[i]? = some x ∧ L x y := by
  induction h with
  | init => exact ⟨by simp [tracing], by simp [tracing]⟩
  | @step s s' e hreach hallowed hs ih =>
    obtain ⟨hQ, hL⟩ := ih
    have hold : ∀ x ∈ s.2, Q s'.1 x := fun x hx => hkeep s e s' hreach hallowed hs x hx (hQ x hx)
    -- What was known of the old broadcasts stays, and the new ones are looked at one by one.
    have hmore : ∀ new : List (Sent V F A), s'.2 = s.2 ++ new → (∀ y ∈ new, Q s'.1 y) →
        (∀ y ∈ new, ∀ i, y.cause = some i → ∃ x, s.2[i]? = some x ∧ L x y) →
        (∀ x ∈ s'.2, Q s'.1 x) ∧
          ∀ (j : ℕ) y (i : ℕ), s'.2[j]? = some y → y.cause = some i →
            ∃ x, s'.2[i]? = some x ∧ L x y := by
      intro new hs' hnew hlinks
      rw [hs']
      refine ⟨fun x hx => ?_, fun j y i hj hcause => ?_⟩
      · exact (List.mem_append.mp hx).elim (hold x) (hnew x)
      · obtain ⟨x, hx, hlink⟩ : ∃ x, s.2[i]? = some x ∧ L x y := by
          by_cases hlt : j < s.2.length
          · rw [List.getElem?_append_left hlt] at hj
            exact hL j y i hj hcause
          · rw [List.getElem?_append_right (not_lt.mp hlt)] at hj
            exact hlinks y (List.mem_of_getElem? hj) i hcause
        refine ⟨x, ?_, hlink⟩
        rw [List.getElem?_append_left (List.getElem?_eq_some_iff.mp hx).1]
        exact hx
    obtain ⟨v, a, t, fs, rfl, hhandle, rfl⟩ | ⟨i, v, r, u, f, rfl, hlog, rfl⟩ := tracing_step hs
    · refine hmore _ rfl (fun y hy => ?_) fun y hy i hcause => ?_
      · obtain ⟨f, hf, rfl⟩ := List.mem_map.mp hy
        exact hact s v a t fs hreach hallowed hhandle f hf
      · obtain ⟨f, -, rfl⟩ := List.mem_map.mp hy
        cases hcause
    · have hentry := hlog
      rw [← tracing_log hreach, List.getElem?_map] at hentry
      obtain ⟨x, hx, heq⟩ := Option.map_eq_some_iff.mp hentry
      obtain ⟨rfl, rfl⟩ := Prod.mk.inj heq
      have hnew := hdeliver s i v r x _ _ hreach hallowed hx (hQ x (List.mem_of_getElem? hx)) rfl
      refine hmore _ rfl (fun y hy => ?_) fun y hy k hcause => ?_
      · obtain ⟨g, hg, rfl⟩ := List.mem_map.mp hy
        exact (hnew g hg).1
      · obtain ⟨g, hg, rfl⟩ := List.mem_map.mp hy
        obtain rfl : i = k := Option.some.inj hcause
        exact ⟨x, hx, (hnew g hg).2⟩

end WsnContest.Lib.Network
