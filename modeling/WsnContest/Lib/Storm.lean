import Mathlib.Algebra.BigOperators.Group.Finset.Basic
import Mathlib.Algebra.Group.Action.Defs
import Mathlib.Algebra.Order.BigOperators.Group.Finset
import Mathlib.Data.Fintype.BigOperators
import Mathlib.Data.Prod.Lex
import Mathlib.Tactic.Ring
import WsnContest.Lib.Network

/-! Why a broadcast network cannot storm: an answer ranks strictly below the
frame it answers, and what does not rank below lowers a potential of the
nodes. Deliveries still owed are weighted so that an answer to one of them
costs less than the delivery itself. -/
namespace WsnContest.Lib.Network

open Finset

variable {V F : Type} {S E R : V → Type} [Fintype V] [DecidableEq V]

/-- The weight of one receiver's copy of one broadcast, nothing once delivered. -/
def copyWeight (weight : F → ℕ) (log : List (V × F)) (delivered : List (ℕ × V)) (p : ℕ × V) : ℕ :=
  if p ∈ delivered then 0 else (log[p.1]?.elim 0 fun entry => weight entry.2)

/-- The total weight of the deliveries that have not happened yet. -/
def owed (weight : F → ℕ) (log : List (V × F)) (delivered : List (ℕ × V)) : ℕ :=
  ∑ p ∈ range log.length ×ˢ univ, copyWeight weight log delivered p

theorem owed_append_singleton (weight : F → ℕ) (log : List (V × F)) (delivered : List (ℕ × V))
    (entry : V × F) :
    owed weight (log ++ [entry]) delivered ≤
      owed weight log delivered + Fintype.card V * weight entry.2 := by
  have hold : ∀ i ∈ range log.length,
      ∑ v, copyWeight weight (log ++ [entry]) delivered (i, v) =
        ∑ v, copyWeight weight log delivered (i, v) := by
    intro i hi
    refine sum_congr rfl fun v _ => ?_
    simp only [copyWeight, List.getElem?_append_left (mem_range.mp hi)]
  have hnew : ∑ v, copyWeight weight (log ++ [entry]) delivered (log.length, v) ≤
      Fintype.card V * weight entry.2 := by
    calc ∑ v, copyWeight weight (log ++ [entry]) delivered (log.length, v)
        ≤ ∑ _v : V, weight entry.2 := by
          refine sum_le_sum fun v _ => ?_
          simp only [copyWeight]
          split <;> simp
      _ = Fintype.card V * weight entry.2 := by simp
  simp only [owed, sum_product, List.length_append, List.length_singleton, sum_range_succ]
  rw [sum_congr rfl hold]
  omega

theorem owed_append (weight : F → ℕ) (log new : List (V × F)) (delivered : List (ℕ × V)) :
    owed weight (log ++ new) delivered ≤
      owed weight log delivered + Fintype.card V * (new.map fun entry => weight entry.2).sum := by
  induction new generalizing log with
  | nil => simp
  | cons entry new ih =>
    have hfirst := owed_append_singleton weight log delivered entry
    have hrest := ih (log ++ [entry])
    rw [List.append_assoc, List.singleton_append] at hrest
    rw [List.map_cons, List.sum_cons, Nat.mul_add]
    omega

theorem owed_deliver (weight : F → ℕ) {log : List (V × F)} {delivered : List (ℕ × V)}
    {i : ℕ} {u v : V} {f : F} (hlog : log[i]? = some (u, f)) (hnew : (i, v) ∉ delivered) :
    owed weight log (delivered ++ [(i, v)]) + weight f = owed weight log delivered := by
  have hi : i < log.length := (List.getElem?_eq_some_iff.mp hlog).1
  have hmem : (i, v) ∈ range log.length ×ˢ (univ : Finset V) := by simp [hi]
  have hcopy : copyWeight weight log delivered (i, v) = weight f := by
    simp [copyWeight, hnew, hlog]
  have hcopy' : copyWeight weight log (delivered ++ [(i, v)]) (i, v) = 0 := by
    simp [copyWeight]
  have hrest : ∀ p ∈ (range log.length ×ˢ (univ : Finset V)).erase (i, v),
      copyWeight weight log (delivered ++ [(i, v)]) p = copyWeight weight log delivered p := by
    intro p hp
    have hne : p ≠ (i, v) := (mem_erase.mp hp).1
    simp [copyWeight, hne]
  rw [owed, owed, ← add_sum_erase _ _ hmem,
    ← add_sum_erase _ (copyWeight weight log delivered) hmem, hcopy, hcopy', sum_congr rfl hrest]
  ring

/-- A frame of rank `n` weighs more than all receivers' answers to it, when an
answer is at most `width` frames of smaller rank. -/
def rankWeight (V : Type) [Fintype V] (width n : ℕ) : ℕ := (Fintype.card V * width + 1) ^ n

omit [DecidableEq V] in
theorem answers_weigh_less {rank : F → ℕ} {width : ℕ} {f : F} {answers : List F}
    (hwidth : answers.length ≤ width) (hrank : ∀ g ∈ answers, rank g < rank f) :
    Fintype.card V * (answers.map fun g => rankWeight V width (rank g)).sum <
      rankWeight V width (rank f) := by
  cases hr : rank f with
  | zero =>
    have hnil : answers = [] := List.eq_nil_iff_forall_not_mem.mpr fun g hg => by
      simpa [hr] using hrank g hg
    simp [hnil, rankWeight]
  | succ r =>
    set base := Fintype.card V * width + 1 with hbase
    have hpos : 0 < base ^ r := Nat.pow_pos (Nat.succ_pos _)
    have heach : ∀ x ∈ answers.map fun g => rankWeight V width (rank g), x ≤ base ^ r := by
      intro x hx
      obtain ⟨g, hg, rfl⟩ := List.mem_map.mp hx
      exact Nat.pow_le_pow_right (Nat.succ_pos _) (by have := hrank g hg; omega)
    have hsum := List.sum_le_card_nsmul _ _ heach
    rw [List.length_map, smul_eq_mul] at hsum
    calc Fintype.card V * (answers.map fun g => rankWeight V width (rank g)).sum
        ≤ Fintype.card V * (width * base ^ r) := by
          refine Nat.mul_le_mul_left _ (hsum.trans ?_)
          exact Nat.mul_le_mul_right _ hwidth
      _ < Fintype.card V * (width * base ^ r) + base ^ r := Nat.lt_add_of_pos_right hpos
      _ = base * base ^ r := by rw [hbase]; ring
      _ = rankWeight V width (r + 1) := by rw [rankWeight, pow_succ, mul_comm]

/-- The potential of the whole network. -/
def total (potential : ∀ v, S v → ℕ) (node : ∀ v, S v) : ℕ := ∑ v, potential v (node v)

omit [Fintype V] in
/-- A node that does not gain potential, and the others as they were. -/
theorem potential_put_le {potential : ∀ v, S v → ℕ} {c : Config S F} {v : V} {s : S v}
    (fs : List F) (h : potential v s ≤ potential v (c.node v)) (w : V) :
    potential w ((c.put v s fs).node w) ≤ potential w (c.node w) :=
  Config.forall_put_node (P := fun w t => potential w t ≤ potential w (c.node w)) h
    (fun _ _ => le_rfl) fs w

theorem total_put_le {potential : ∀ v, S v → ℕ} {c : Config S F} {v : V} {s : S v} (fs : List F)
    (h : potential v s ≤ potential v (c.node v)) :
    total potential (c.put v s fs).node ≤ total potential c.node := by
  apply sum_le_sum
  exact fun w _ => potential_put_le fs h w

theorem total_put_lt {potential : ∀ v, S v → ℕ} {c : Config S F} {v : V} {s : S v} (fs : List F)
    (h : potential v s < potential v (c.node v)) :
    total potential (c.put v s fs).node < total potential c.node := by
  apply sum_lt_sum
  · exact fun w _ => potential_put_le fs h.le w
  · exact ⟨v, mem_univ v, by simpa using h⟩

/-- First the potential of the nodes, then the deliveries owed. -/
def stormMeasure (potential : ∀ v, S v → ℕ) (rank : F → ℕ) (width : ℕ) (c : Config S F) :
    ℕ ×ₗ ℕ :=
  toLex (total potential c.node,
    owed (fun f => rankWeight V width (rank f)) c.log c.delivered)

variable {potential : ∀ v, S v → ℕ} {rank : F → ℕ} {width : ℕ}

/-- A delivery whose answer ranks below the delivered frame lowers the measure. -/
theorem stormMeasure_deliver {c : Config S F} {i : ℕ} {u v : V} {f : F} {s : S v}
    {answers : List F} (hlog : c.log[i]? = some (u, f)) (hnew : (i, v) ∉ c.delivered)
    (hle : potential v s ≤ potential v (c.node v))
    (hwidth : answers.length ≤ width) (hrank : ∀ g ∈ answers, rank g < rank f) :
    stormMeasure potential rank width ((c.put v s answers).mark i v) <
      stormMeasure potential rank width c := by
  rcases (total_put_le answers hle).lt_or_eq with hlt | heq
  · exact Prod.Lex.toLex_lt_toLex.mpr (.inl hlt)
  · refine Prod.Lex.toLex_lt_toLex.mpr (.inr ⟨heq, ?_⟩)
    have hcost := answers_weigh_less (V := V) hwidth hrank
    have hmark := owed_deliver (fun f => rankWeight V width (rank f)) hlog hnew
    have happend := owed_append (fun f => rankWeight V width (rank f)) c.log
      (answers.map (v, ·)) (c.delivered ++ [(i, v)])
    rw [List.map_map] at happend
    simp only [Config.mark_log, Config.put_log, Config.mark_delivered, Config.put_delivered]
    exact happend.trans_lt (hmark ▸ Nat.add_lt_add_left hcost _)

variable {N : Network V S E R F} {allowed : Config S F → Event E R → Prop}

def IsDelivery : Event E R → Prop
  | .act _ _ => False
  | .deliver _ _ _ => True

/-- A medium that delivers each broadcast at most once to each receiver. An
event that broadcasts either lowers the potential of its node or is a delivery
answered by at most `width` frames of smaller rank. Then only finitely many
deliveries and broadcasts happen, however long the run. -/
theorem finitely_many_broadcasts (potential : ∀ v, S v → ℕ) (rank : F → ℕ) (width : ℕ)
    (hact : ∀ c v a s fs, N.system.Reachable allowed c → allowed c (.act v a) →
      N.handle v a (c.node v) = some (s, fs) →
      potential v s < potential v (c.node v) ∨
        (potential v s ≤ potential v (c.node v) ∧ fs = []))
    (hdeliver : ∀ c i v r u f, N.system.Reachable allowed c → allowed c (.deliver i v r) →
      c.log[i]? = some (u, f) →
      (i, v) ∉ c.delivered ∧
      (potential v (N.receive v r f (c.node v)).1 < potential v (c.node v) ∨
        (potential v (N.receive v r f (c.node v)).1 ≤ potential v (c.node v) ∧
          (N.receive v r f (c.node v)).2.length ≤ width ∧
          ∀ g ∈ (N.receive v r f (c.node v)).2, rank g < rank f)))
    (run : N.system.InfiniteRun allowed) :
    {n | IsDelivery (run.event n)}.Finite ∧
      {n | (run.state (n + 1)).log ≠ (run.state n).log}.Finite := by
  -- A step lowers the measure, or it is a local event that broadcasts nothing.
  have hstep : ∀ c e c', N.system.Reachable allowed c → allowed c e →
      N.system.step c e = some c' →
      stormMeasure potential rank width c' < stormMeasure potential rank width c ∨
        (stormMeasure potential rank width c' ≤ stormMeasure potential rank width c ∧
          ¬ IsDelivery e ∧ c'.log = c.log) := by
    intro c e c' hreach hallowed hs
    obtain ⟨v, a, s, fs, rfl, hhandle, rfl⟩ | ⟨i, v, r, u, f, rfl, hi, rfl⟩ := N.system_step hs
    · rcases hact c v a s fs hreach hallowed hhandle with hlt | ⟨hle, rfl⟩
      · exact .inl (Prod.Lex.toLex_lt_toLex.mpr (.inl (total_put_lt fs hlt)))
      · refine .inr ⟨Prod.Lex.toLex_mono ⟨total_put_le [] hle, ?_⟩, id, by simp⟩
        simp
    · left
      obtain ⟨hnew, hlt | ⟨hle, hwidth, hrank⟩⟩ := hdeliver c i v r u f hreach hallowed hi
      · exact Prod.Lex.toLex_lt_toLex.mpr
          (.inl (total_put_lt (N.receive v r f (c.node v)).2 hlt))
      · exact stormMeasure_deliver hi hnew hle hwidth hrank
  have hle : ∀ c e c', N.system.Reachable allowed c → allowed c e →
      N.system.step c e = some c' →
      stormMeasure potential rank width c' ≤ stormMeasure potential rank width c := by
    intro c e c' hreach hallowed hs
    rcases hstep c e c' hreach hallowed hs with hlt | hsame
    · exact hlt.le
    · exact hsame.1
  constructor
  · apply run.finite_of_rank (stormMeasure potential rank width) (fun _ e => IsDelivery e) hle
    intro c e c' hreach hallowed hs hdelivery
    rcases hstep c e c' hreach hallowed hs with hlt | hsame
    · exact hlt
    · exact absurd hdelivery hsame.2.1
  · refine (run.finite_of_rank (stormMeasure potential rank width)
      (fun c e => ∃ c', N.system.step c e = some c' ∧ c'.log ≠ c.log) hle ?_).subset ?_
    · rintro c e c' hreach hallowed hs ⟨c'', hs', hlog⟩
      obtain rfl : c'' = c' := Option.some.inj (hs'.symm.trans hs)
      rcases hstep c e c'' hreach hallowed hs with hlt | hsame
      · exact hlt
      · exact absurd hsame.2.2 hlog
    · intro n hn
      exact ⟨_, run.next n, hn⟩

end WsnContest.Lib.Network
