import Mathlib.Combinatorics.SimpleGraph.Metric
import WsnContest.Lib.Flood

/-! Rounds of a flood. The sink opens a round; whoever hears of a round for the
first time tells its own rank on, once. Ranks come within one hop of the sink's
distance with each round that all have heard of. -/
namespace WsnContest.Lib

variable {V : Type}

/-- Ranks, the newest round each vertex knows of, who is still to tell of it, and
what was told (a round and a rank) and heard by whom. -/
structure Wave (V : Type) where
  rank : V → ℕ
  round : V → ℕ
  due : V → Prop
  told : V → ℕ → ℕ → Prop
  heard : V → V → ℕ → ℕ → Prop

namespace Wave

/-- All that was told has been heard by all neighbours, and nobody is due. -/
structure Finished (G : SimpleGraph V) (W : Wave V) : Prop where
  heard : ∀ u j m v, W.told u j m → G.Adj u v → W.heard u v j m
  due : ∀ v, ¬ W.due v

/-- After `R` rounds: a vertex at distance `d` is settled from round `d + 1` on,
and from then on it only tells ranks of at most `d`. -/
structure Exact (G : SimpleGraph V) (sink : V) (R : ℕ) (W : Wave V) : Prop where
  told_round : ∀ u j m, W.told u j m → j ≤ R
  round_le : ∀ v, W.round v ≤ R
  sink_round : W.round sink = R
  sink_due : ¬ W.due sink
  passed : ∀ v, 1 ≤ W.round v → W.due v ∨ ∃ m, W.told v (W.round v) m
  heard : ∀ u v j m, W.heard u v j m → j ≤ W.round v ∧ W.rank v ≤ m + 1
  told_rank : ∀ u j m, W.told u j m → G.dist sink u + 1 ≤ j → m ≤ G.dist sink u
  settled : ∀ v, v ≠ sink → G.dist sink v + 1 ≤ R → W.rank v ≤ G.dist sink v

/-- In a connected graph some neighbour is one step closer to the sink. -/
theorem exists_closer {G : SimpleGraph V} (hG : G.Connected) {sink v : V} (hv : v ≠ sink) :
    ∃ u, G.Adj u v ∧ G.dist sink u + 1 = G.dist sink v := by
  obtain ⟨walk, hwalk⟩ := hG.exists_walk_length_eq_dist v sink
  cases walk with
  | nil => exact absurd rfl hv
  | @cons _ u _ hadj rest =>
    refine ⟨u, hadj.symm, le_antisymm ?_ ?_⟩
    · have hle := G.dist_le rest
      rw [SimpleGraph.Walk.length_cons] at hwalk
      rw [G.dist_comm (u := sink), G.dist_comm (u := sink)]
      omega
    · have htriangle := hG.dist_triangle (u := sink) (v := u) (w := v)
      have hone := SimpleGraph.dist_eq_one_iff_adj.mpr hadj.symm
      omega

variable {G : SimpleGraph V} {sink : V} {R : ℕ} {W W' : Wave V}

namespace Exact

theorem round_eq (hw : W.Exact G sink R) (hfin : W.Finished G) (hG : G.Connected) (v : V) :
    W.round v = R := by
  by_cases hR : R = 0
  · have hle := hw.round_le v
    omega
  refine reachable_spread (P := fun v => W.round v = R) (fun u v huv hu => ?_)
    (hG.preconnected sink v) hw.sink_round
  obtain ⟨m, htold⟩ := (hw.passed u (by omega)).resolve_left (hfin.due u)
  have hheard := (hw.heard u v _ m (hfin.heard u _ m v htold huv)).1
  have hle := hw.round_le v
  omega

/-- A finished round settles the vertices one step further out. -/
theorem settle (hw : W.Exact G sink R) (hfin : W.Finished G) (hG : G.Connected) {v : V}
    (hv : v ≠ sink) (hR : G.dist sink v ≤ R) : W.rank v ≤ G.dist sink v := by
  obtain ⟨u, huv, hdist⟩ := exists_closer hG hv
  have hround := hw.round_eq hfin hG u
  obtain ⟨m, htold⟩ := (hw.passed u (by omega)).resolve_left (hfin.due u)
  have hm := hw.told_rank u _ m htold (by omega)
  have hheard := (hw.heard u v _ m (hfin.heard u _ m v htold huv)).2
  omega

theorem open_round (hw : W.Exact G sink R) (hfin : W.Finished G) (hG : G.Connected)
    (hrank : W'.rank = W.rank) (hround : W'.round sink = R + 1)
    (hround_ne : ∀ v, v ≠ sink → W'.round v = W.round v) (hdue : W'.due = W.due)
    (hheard : ∀ u v j m, W'.heard u v j m → W.heard u v j m)
    (htold : ∀ u j m, W'.told u j m ↔ W.told u j m ∨ u = sink ∧ j = R + 1 ∧ m = 0) :
    W'.Exact G sink (R + 1) where
  told_round := by
    intro u j m h
    rcases (htold u j m).mp h with hold | ⟨-, rfl, -⟩
    · exact (hw.told_round u j m hold).trans (Nat.le_succ R)
    · exact le_rfl
  round_le := by
    refine forall_of_moved (P := fun _ r => r ≤ R + 1) hround_ne hround.le ?_
    exact fun v => (hw.round_le v).trans (Nat.le_succ R)
  sink_round := hround
  sink_due := hdue ▸ hw.sink_due
  passed := by
    intro v h
    by_cases hv : v = sink
    · subst hv
      exact .inr ⟨0, (htold _ _ _).mpr (.inr ⟨rfl, hround, rfl⟩)⟩
    · rw [hround_ne v hv] at h ⊢
      rw [hdue]
      exact (hw.passed v h).imp_right fun ⟨m, hm⟩ => ⟨m, (htold _ _ _).mpr (.inl hm)⟩
  heard := by
    intro u v j m h
    obtain ⟨hj, hm⟩ := hw.heard u v j m (hheard u v j m h)
    rw [hrank]
    refine ⟨?_, hm⟩
    by_cases hv : v = sink
    · rw [hv, hround]
      exact (hv ▸ hj).trans ((hw.round_le sink).trans (Nat.le_succ R))
    · rwa [hround_ne v hv]
  told_rank := by
    intro u j m h hj
    rcases (htold u j m).mp h with hold | ⟨-, -, rfl⟩
    · exact hw.told_rank u j m hold hj
    · exact Nat.zero_le _
  settled := by
    intro v hv hR
    rw [hrank]
    exact hw.settle hfin hG hv (by omega)

theorem tell (hw : W.Exact G sink R) {u : V} (hu : W.due u) (hrank : W'.rank = W.rank)
    (hround : W'.round = W.round) (hdue : ∀ v, v ≠ u → W'.due v = W.due v) (hdone : ¬ W'.due u)
    (hheard : ∀ u v j m, W'.heard u v j m → W.heard u v j m)
    (htold : ∀ v j m, W'.told v j m ↔
      W.told v j m ∨ v = u ∧ j = W.round u ∧ m = W.rank u) :
    W'.Exact G sink R where
  told_round := by
    intro v j m h
    rcases (htold v j m).mp h with hold | ⟨-, rfl, -⟩
    · exact hw.told_round v j m hold
    · exact hw.round_le u
  round_le := hround ▸ hw.round_le
  sink_round := hround ▸ hw.sink_round
  sink_due := by
    have hne : sink ≠ u := fun heq => hw.sink_due (heq ▸ hu)
    rw [hdue sink hne]
    exact hw.sink_due
  passed := by
    intro v h
    rw [hround] at h ⊢
    by_cases hv : v = u
    · subst hv
      exact .inr ⟨W.rank v, (htold _ _ _).mpr (.inr ⟨rfl, rfl, rfl⟩)⟩
    · rw [hdue v hv]
      exact (hw.passed v h).imp_right fun ⟨m, hm⟩ => ⟨m, (htold _ _ _).mpr (.inl hm)⟩
  heard := by
    intro w v j m h
    rw [hrank, hround]
    exact hw.heard w v j m (hheard w v j m h)
  told_rank := by
    intro v j m h hj
    rcases (htold v j m).mp h with hold | ⟨rfl, rfl, rfl⟩
    · exact hw.told_rank v j m hold hj
    · -- The vertex has been settled since before the round it tells of.
      have hne : v ≠ sink := fun heq => hw.sink_due (heq ▸ hu)
      exact hw.settled v hne (hj.trans (hw.round_le v))
  settled := hrank ▸ hw.settled

theorem hear (hw : W.Exact G sink R) {u v : V} {j m : ℕ} (hsaid : W.told u j m)
    (hrank : W'.rank v = min (W.rank v) (m + 1)) (hround : W'.round v = max (W.round v) j)
    (hdue : W'.due v ↔ W.due v ∨ W.round v < j)
    (hrank_ne : ∀ w, w ≠ v → W'.rank w = W.rank w)
    (hround_ne : ∀ w, w ≠ v → W'.round w = W.round w)
    (hdue_ne : ∀ w, w ≠ v → W'.due w = W.due w)
    (htold : W'.told = W.told)
    (hheard : ∀ a b k n, W'.heard a b k n → W.heard a b k n ∨ b = v ∧ k = j ∧ n = m) :
    W'.Exact G sink R := by
  have hj := hw.told_round u j m hsaid
  have hle : ∀ w, W'.rank w ≤ W.rank w :=
    forall_of_moved (P := fun w r => r ≤ W.rank w) hrank_ne (hrank.trans_le (min_le_left ..))
      fun _ => le_rfl
  have hgrow : ∀ w, W.round w ≤ W'.round w :=
    forall_of_moved (P := fun w r => W.round w ≤ r) hround_ne
      ((le_max_left ..).trans_eq hround.symm) fun _ => le_rfl
  constructor
  case told_round =>
    rw [htold]
    exact hw.told_round
  case round_le =>
    refine forall_of_moved (P := fun _ r => r ≤ R) hround_ne ?_ hw.round_le
    rw [hround]
    exact max_le (hw.round_le v) hj
  case sink_round =>
    by_cases hsink : sink = v
    · rw [hsink, hround, ← hsink, hw.sink_round]
      exact max_eq_left hj
    · rw [hround_ne sink hsink]
      exact hw.sink_round
  case sink_due =>
    by_cases hsink : sink = v
    · rw [hsink, hdue, ← hsink, hw.sink_round, not_or]
      exact ⟨hw.sink_due, not_lt.mpr hj⟩
    · rw [hdue_ne sink hsink]
      exact hw.sink_due
  case passed =>
    intro w h
    rw [htold]
    by_cases hwv : w = v
    · subst hwv
      rw [hdue]
      by_cases hnew : W.round w < j
      · exact .inl (.inr hnew)
      · rw [hround, max_eq_left (not_lt.mp hnew)] at h ⊢
        exact (hw.passed w h).imp_left .inl
    · rw [hround_ne w hwv] at h ⊢
      rw [hdue_ne w hwv]
      exact hw.passed w h
  case heard =>
    intro a b k n h
    rcases hheard a b k n h with hold | ⟨rfl, rfl, rfl⟩
    · obtain ⟨hk, hn⟩ := hw.heard a b k n hold
      exact ⟨hk.trans (hgrow b), (hle b).trans hn⟩
    · rw [hround, hrank]
      exact ⟨le_max_right .., min_le_right ..⟩
  case told_rank =>
    rw [htold]
    exact hw.told_rank
  case settled => exact fun w hsink hR => (hle w).trans (hw.settled w hsink hR)

end Exact

end Wave

end WsnContest.Lib
