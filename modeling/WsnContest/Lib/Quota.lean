import WsnContest.Lib.System

/-! How often something happens between two renewals. What a component reports is read
as a sequence of renewals, of spendings, and of reports that are neither. -/
namespace WsnContest.Lib

variable {Output : Type} (renews spends : Output → Bool)

/-- What was spent since the last renewal; `none` while nothing may be spent yet. -/
def spend (n : Option ℕ) (o : Output) : Option ℕ :=
  if renews o then some 0 else if spends o then n.map (· + 1) else n

def spent (n : Option ℕ) (out : List Output) : Option ℕ := out.foldl (spend renews spends) n

/-- Whatever is spent is spent after a renewal, and less than `limit` was spent since. -/
def Affords (limit : ℕ) (n : Option ℕ) : List Output → Prop
  | [] => True
  | o :: out =>
    (spends o = true → ∃ k < limit, n = some k) ∧ Affords limit (spend renews spends n o) out

section Quota
variable {renews spends : Output → Bool} {limit : ℕ} {n : Option ℕ}

@[simp] theorem spent_nil : spent renews spends n [] = n := rfl

@[simp] theorem spent_append (out new : List Output) :
    spent renews spends n (out ++ new) =
      spent renews spends (spent renews spends n out) new := by
  simp [spent, List.foldl_append]

theorem spend_of_neither {o : Output} (hrenews : renews o = false) (hspends : spends o = false) :
    spend renews spends n o = n := by
  simp [spend, hrenews, hspends]

theorem affords_append {out new : List Output} :
    Affords renews spends limit n (out ++ new) ↔
      Affords renews spends limit n out ∧
        Affords renews spends limit (spent renews spends n out) new := by
  induction out generalizing n with
  | nil => simp [Affords]
  | cons o out ih => exact (and_congr_right fun _ => ih).trans and_assoc.symm

/-- Reports that are neither cost nothing. -/
theorem affords_of_neither {out : List Output}
    (h : ∀ o ∈ out, renews o = false ∧ spends o = false) :
    Affords renews spends limit n out ∧ spent renews spends n out = n := by
  induction out with
  | nil => exact ⟨trivial, rfl⟩
  | cons o out ih =>
    obtain ⟨⟨hrenews, hspends⟩, hrest⟩ := List.forall_mem_cons.mp h
    obtain ⟨haffords, hspent⟩ := ih hrest
    have hsame := @spend_of_neither _ renews spends n o hrenews hspends
    refine ⟨⟨by simp [hspends], by rwa [hsame]⟩, ?_⟩
    rw [spent, List.foldl_cons, hsame]
    exact hspent

/-- Without a renewal no more is spent than was left. -/
theorem Affords.count_le {out : List Output} (h : Affords renews spends limit n out)
    (hnone : ∀ o ∈ out, renews o = false) : out.countP spends ≤ limit - n.getD limit := by
  induction out generalizing n with
  | nil => simp
  | cons o out ih =>
    obtain ⟨ho, hrest⟩ := h
    obtain ⟨hrenews, hnone⟩ := List.forall_mem_cons.mp hnone
    have hcount := ih hrest hnone
    cases hspends : spends o with
    | false =>
      rw [spend_of_neither hrenews hspends] at hcount
      simpa [hspends] using hcount
    | true =>
      obtain ⟨k, hk, rfl⟩ := ho hspends
      simp only [spend, hrenews, hspends, if_true, Bool.false_eq_true, if_false, Option.map_some,
        Option.getD_some] at hcount
      simp only [List.countP_cons, hspends, if_true, Option.getD_some]
      omega

/-- Between two renewals no more than the limit is spent. -/
theorem Affords.between {pre mid post : List Output}
    (h : Affords renews spends limit n (pre ++ mid ++ post))
    (hnone : ∀ o ∈ mid, renews o = false) : mid.countP spends ≤ limit := by
  have hmid := (affords_append.mp (affords_append.mp h).1).2
  exact (hmid.count_le hnone).trans (Nat.sub_le _ _)

/-- Before the first renewal nothing is spent. -/
theorem Affords.before {pre post : List Output}
    (h : Affords renews spends limit none (pre ++ post))
    (hnone : ∀ o ∈ pre, renews o = false) : pre.countP spends = 0 := by
  have hcount := (affords_append.mp h).1.count_le hnone
  simpa using hcount

/-- A component whose state knows what it may still spend keeps within the limit. -/
theorem Machine.affords {State Event : Type} {m : Machine State Event Output}
    {allowed : State × List Output → Event → Prop} (Inv : State → Option ℕ → Prop)
    (hinit : Inv m.init n)
    (hstep : ∀ s k e t out, Inv s.1 k → allowed s e → m.step s.1 e = some (t, out) →
      Affords renews spends limit k out ∧ Inv t (spent renews spends k out))
    {s : State × List Output} (h : m.system.Reachable allowed s) :
    Affords renews spends limit n s.2 := by
  have hboth : Affords renews spends limit n s.2 ∧ Inv s.1 (spent renews spends n s.2) := by
    apply Machine.invariant (P := fun s => Affords renews spends limit n s.2 ∧
      Inv s.1 (spent renews spends n s.2)) h ⟨trivial, hinit⟩
    rintro s e t out ⟨haffords, hinv⟩ hallowed hrun
    obtain ⟨hnew, hnext⟩ := hstep s _ e t out hinv hallowed hrun
    refine ⟨affords_append.mpr ⟨haffords, hnew⟩, ?_⟩
    rw [spent_append]
    exact hnext
  exact hboth.1

end Quota

end WsnContest.Lib
