import Mathlib.Data.Nat.Bitwise

/-! Sets of numbers packed into words, the most significant word first. A number beyond
the last bit stands for its remainder. -/
namespace WsnContest.Lib

/-- A bit is set in a word if masking it leaves something. -/
theorem and_mask_ne_zero (x i : ℕ) : x &&& 1 <<< i ≠ 0 ↔ x.testBit i = true := by
  rw [Nat.one_shiftLeft, Nat.and_two_pow]
  cases x.testBit i <;> simp

/-- `n` words of `w` bits. -/
abbrev Bitmap (w n : ℕ) := Vector (Fin (2 ^ w)) n

namespace Bitmap
variable {w n : ℕ} [NeZero n]

/-- The word that a number falls into. -/
def slot (w n : ℕ) [NeZero n] (k : ℕ) : Fin n :=
  ⟨n - 1 - k / w % n, by have hn := Nat.pos_of_neZero n; omega⟩

theorem slot_eq_iff {j k : ℕ} : slot w n j = slot w n k ↔ j / w % n = k / w % n := by
  have hj := Nat.mod_lt (j / w) (Nat.pos_of_neZero n)
  have hk := Nat.mod_lt (k / w) (Nat.pos_of_neZero n)
  rw [slot, slot, Fin.mk.injEq]
  omega

/-- Two numbers share a bit if they differ by whole bitmaps. -/
theorem mod_eq_iff {j k : ℕ} :
    j % (w * n) = k % (w * n) ↔ slot w n j = slot w n k ∧ j % w = k % w := by
  rw [slot_eq_iff]
  constructor
  · intro h
    rw [← Nat.mod_mul_right_div_self, ← Nat.mod_mul_right_div_self k, h,
      ← Nat.mod_mul_right_mod j w n, ← Nat.mod_mul_right_mod k w n, h]
    exact ⟨rfl, rfl⟩
  · rintro ⟨hslot, hbit⟩
    rw [Nat.mod_mul, Nat.mod_mul, hslot, hbit]

/-- The bit of a number. -/
def has (b : Bitmap w n) (k : ℕ) : Bool := b[slot w n k].val.testBit (k % w)

/-- Set the bit of a number. -/
def put (b : Bitmap w n) (k : ℕ) : Bitmap w n :=
  b.set (slot w n k) (Fin.ofNat _ (b[slot w n k].val ||| 1 <<< (k % w)))

/-- No bit is set. -/
def empty : Bitmap w n := Vector.replicate n 0

@[simp] theorem has_empty (k : ℕ) : (empty : Bitmap w n).has k = false := by
  simp [has, empty]

/-- The word a number falls into after its bit is set. -/
theorem val_getElem_put (hw : 0 < w) (b : Bitmap w n) (k : ℕ) :
    (b.put k)[slot w n k].val = b[slot w n k].val ||| 1 <<< (k % w) := by
  have hmask : 1 <<< (k % w) < 2 ^ w := by
    rw [Nat.one_shiftLeft]
    exact Nat.pow_lt_pow_right (by decide) (Nat.mod_lt k hw)
  rw [put, Fin.getElem_fin, Vector.getElem_set_self, Fin.val_ofNat]
  exact Nat.mod_eq_of_lt (Nat.or_lt_two_pow (Fin.isLt _) hmask)

/-- One bit more. -/
theorem has_put (hw : 0 < w) (b : Bitmap w n) (j k : ℕ) :
    (b.put k).has j = true ↔ j % (w * n) = k % (w * n) ∨ b.has j = true := by
  rw [mod_eq_iff, has, has]
  by_cases hslot : slot w n j = slot w n k
  · simp only [hslot, val_getElem_put hw, Nat.testBit_or, Nat.one_shiftLeft,
      Nat.testBit_two_pow, Bool.or_eq_true, decide_eq_true_eq, true_and]
    exact or_comm.trans (or_congr_left eq_comm)
  · have hne : (slot w n k).val ≠ (slot w n j).val := fun h => hslot (Fin.ext h.symm)
    rw [put, Fin.getElem_fin, Vector.getElem_set_ne _ _ hne]
    simp [hslot]

/-- What a list of numbers leaves in the bitmap. -/
theorem has_foldl_put (hw : 0 < w) (b : Bitmap w n) (j : ℕ) (ks : List ℕ) :
    (ks.foldl put b).has j = true ↔ (∃ k ∈ ks, j % (w * n) = k % (w * n)) ∨ b.has j = true := by
  induction ks generalizing b with
  | nil => simp
  | cons k ks ih =>
    simp only [List.foldl_cons, ih, has_put hw, List.mem_cons, exists_eq_or_imp]
    exact or_left_comm.trans or_assoc.symm

end Bitmap
end WsnContest.Lib
