import Mathlib.Combinatorics.SimpleGraph.Connectivity.Connected

/-! What neighbours share, a connected graph shares; what all vertices have, they still have
when one of them moves. -/
namespace WsnContest.Lib

variable {V α : Type} {G : SimpleGraph V}

/-- A value that changes at one vertex keeps a property if it has it there. -/
theorem forall_of_moved {P : V → α → Prop} {x y : V → α} {v : V} (hne : ∀ w, w ≠ v → y w = x w)
    (hv : P v (y v)) (h : ∀ w, P w (x w)) (w : V) : P w (y w) := by
  by_cases hw : w = v
  · rwa [hw]
  · rw [hne w hw]
    exact h w

/-- A property that passes from neighbour to neighbour reaches every vertex that
can be reached. -/
theorem reachable_spread {P : V → Prop} (hadj : ∀ u v, G.Adj u v → P u → P v) {u v : V}
    (h : G.Reachable u v) (hu : P u) : P v := by
  obtain ⟨walk⟩ := h
  induction walk with
  | nil => exact hu
  | cons huv _ ih => exact ih (hadj _ _ huv hu)

/-- Neighbours that have told each other all they know agree, and so does
everyone they can reach. -/
theorem eq_of_adj_le [PartialOrder α] {x : V → α} (hadj : ∀ u v, G.Adj u v → x u ≤ x v)
    {u v : V} (h : G.Reachable u v) : x u = x v :=
  reachable_spread (P := fun w => x u = x w)
    (fun a b hab heq => heq.trans (le_antisymm (hadj a b hab) (hadj b a hab.symm))) h rfl

end WsnContest.Lib
