import Mathlib.Combinatorics.SimpleGraph.Metric
import Mathlib.Data.Fintype.Card
import WsnContest.Lib.Flood

/-! Distance-vector routing. Every node has a rank and a next hop, advertises its
rank, and adopts an advertiser that brings it a smaller one. Adverts are never
withdrawn, so that old ones may still be heard. -/
namespace WsnContest.Lib

variable {V : Type}

/-- A walk of `n` links from `u` to `w`. -/
inductive Hops (link : V → V → Prop) : ℕ → V → V → Prop
  | nil {v : V} : Hops link 0 v v
  | snoc {n : ℕ} {u v w : V} : Hops link n u v → link v w → Hops link (n + 1) u w

theorem Hops.mono {link link' : V → V → Prop} (hle : ∀ u v, link u v → link' u v) {n : ℕ}
    {u v : V} (h : Hops link n u v) : Hops link' n u v := by
  induction h with
  | nil => exact .nil
  | snoc _ hlink ih => exact .snoc ih (hle _ _ hlink)

/-- Links of a graph never lead further than they are many. -/
theorem Hops.dist_le {G : SimpleGraph V} {link : V → V → Prop}
    (hle : ∀ u v, link u v → G.Adj u v) {n : ℕ} {u v : V} (h : Hops link n u v) :
    G.dist u v ≤ n := by
  suffices hwalk : ∃ walk : G.Walk u v, walk.length = n by
    obtain ⟨walk, rfl⟩ := hwalk
    exact G.dist_le walk
  induction h with
  | nil => exact ⟨.nil, rfl⟩
  | snoc _ hlink ih =>
    obtain ⟨walk, hlen⟩ := ih
    exact ⟨walk.concat (hle _ _ hlink), by rw [SimpleGraph.Walk.length_concat, hlen]⟩

/-- The vertices that following `next` from a vertex visits until it is at `sink`. -/
inductive Follow (next : V → V → Prop) (sink : V) : V → List V → Prop
  | arrived : Follow next sink sink [sink]
  | hop {v u : V} {path : List V} : v ≠ sink → next v u → Follow next sink u path →
      Follow next sink v (v :: path)

/-- The ranks, who hands on to whom, over which links adverts have come, and
which ranks have been advertised. -/
structure Routes (V : Type) where
  rank : V → ℕ
  next : V → V → Prop
  link : V → V → Prop
  advert : V → ℕ → Prop

namespace Routes

variable [Fintype V]

/-- How many vertices have a route; a rank of `limit` means that there is none. -/
def routed (limit : ℕ) (R : Routes V) : ℕ :=
  (Finset.univ.filter fun v => R.rank v < limit).card

/-- Next hops lead down to the sink, ranks are bounded below by the walk that
brought them and above by the number of vertices with a route. -/
structure Gradient (sink : V) (limit : ℕ) (R : Routes V) : Prop where
  advert_rank : ∀ u m, R.advert u m → u = sink ∨ R.rank u ≤ m
  advert_walk : ∀ u m, R.advert u m → ∃ n ≤ m, Hops R.link n sink u
  advert_routed : ∀ u m, R.advert u m → m ≤ R.routed limit
  rank_pos : ∀ v, R.rank v < limit → 1 ≤ R.rank v
  rank_walk : ∀ v, R.rank v < limit → ∃ n ≤ R.rank v, Hops R.link n sink v
  rank_routed : ∀ v, R.rank v < limit → R.rank v ≤ R.routed limit
  descends : ∀ v, R.rank v < limit →
    ∃ u, R.next v u ∧ R.link u v ∧ (u = sink ∨ R.rank u + 1 ≤ R.rank v)

variable {sink : V} {limit : ℕ} {R R' : Routes V}

theorem routed_le_card : R.routed limit ≤ Fintype.card V :=
  Finset.card_le_univ _

theorem routed_lt_card {v : V} (hv : ¬ R.rank v < limit) : R.routed limit < Fintype.card V :=
  Finset.card_lt_univ_of_notMem (x := v) (by simpa using hv)

theorem routed_congr (hrank : R'.rank = R.rank) : R'.routed limit = R.routed limit := by
  unfold routed
  rw [hrank]

theorem routed_mono (limit : ℕ) (hrank : ∀ v, R'.rank v ≤ R.rank v) :
    R.routed limit ≤ R'.routed limit :=
  Finset.card_le_card <| Finset.monotone_filter_right _ fun v _ hv => (hrank v).trans_lt hv

theorem routed_lt {v : V} (hrank : ∀ w, R'.rank w ≤ R.rank w) (hold : ¬ R.rank v < limit)
    (hnew : R'.rank v < limit) : R.routed limit < R'.routed limit := by
  refine Finset.card_lt_card (Finset.ssubset_iff_of_subset ?_ |>.mpr ⟨v, ?_, ?_⟩)
  · exact Finset.monotone_filter_right _ fun w _ hw => (hrank w).trans_lt hw
  · simpa using hnew
  · simpa using hold

namespace Gradient

theorem unrouted (hrank : ∀ v, ¬ R.rank v < limit) (hadvert : ∀ u m, ¬ R.advert u m) :
    R.Gradient sink limit where
  advert_rank := fun u m h => absurd h (hadvert u m)
  advert_walk := fun u m h => absurd h (hadvert u m)
  advert_routed := fun u m h => absurd h (hadvert u m)
  rank_pos := fun v h => absurd h (hrank v)
  rank_walk := fun v h => absurd h (hrank v)
  rank_routed := fun v h => absurd h (hrank v)
  descends := fun v h => absurd h (hrank v)

/-- The sink may advertise zero, a vertex with a route its rank, and links may be used. -/
theorem advertise (hg : R.Gradient sink limit) (hrank : R'.rank = R.rank)
    (hnext : R'.next = R.next) (hlink : ∀ u v, R.link u v → R'.link u v)
    (hadvert : ∀ u m, R'.advert u m → R.advert u m ∨ (u = sink ∧ m = 0) ∨
      (R.rank u < limit ∧ m = R.rank u)) :
    R'.Gradient sink limit where
  advert_rank := by
    intro u m h
    rw [hrank]
    rcases hadvert u m h with hold | ⟨hu, -⟩ | ⟨-, rfl⟩
    · exact hg.advert_rank u m hold
    · exact .inl hu
    · exact .inr le_rfl
  advert_walk := by
    intro u m h
    rcases hadvert u m h with hold | ⟨rfl, rfl⟩ | ⟨hu, rfl⟩
    · obtain ⟨n, hn, hwalk⟩ := hg.advert_walk u m hold
      exact ⟨n, hn, hwalk.mono hlink⟩
    · exact ⟨0, le_rfl, .nil⟩
    · obtain ⟨n, hn, hwalk⟩ := hg.rank_walk u hu
      exact ⟨n, hn, hwalk.mono hlink⟩
  advert_routed := by
    intro u m h
    rw [routed_congr hrank]
    rcases hadvert u m h with hold | ⟨-, rfl⟩ | ⟨hu, rfl⟩
    · exact hg.advert_routed u m hold
    · exact Nat.zero_le _
    · exact hg.rank_routed u hu
  rank_pos := by
    rw [hrank]
    exact hg.rank_pos
  rank_walk := by
    intro v hv
    rw [hrank] at hv ⊢
    obtain ⟨n, hn, hwalk⟩ := hg.rank_walk v hv
    exact ⟨n, hn, hwalk.mono hlink⟩
  rank_routed := by
    rw [routed_congr hrank, hrank]
    exact hg.rank_routed
  descends := by
    intro v hv
    rw [hrank] at hv ⊢
    obtain ⟨u, hu, huv, hdown⟩ := hg.descends v hv
    exact ⟨u, hnext ▸ hu, hlink u v huv, hdown⟩

/-- A vertex takes up an advert that makes its rank smaller. -/
theorem adopt (hg : R.Gradient sink limit) {u v : V} {m : ℕ} (hadvert : R.advert u m)
    (huv : R.link u v) (hless : m + 1 < R.rank v) (hlimit : m + 1 < limit)
    (hrank : R'.rank v = m + 1) (hnext : R'.next v u)
    (hrank_ne : ∀ w, w ≠ v → R'.rank w = R.rank w)
    (hnext_ne : ∀ w, w ≠ v → R'.next w = R.next w)
    (hlink : R'.link = R.link) (hadverts : R'.advert = R.advert) :
    R'.Gradient sink limit := by
  have hle : ∀ w, R'.rank w ≤ R.rank w :=
    forall_of_moved (P := fun w r => r ≤ R.rank w) hrank_ne (hrank.trans_le hless.le)
      fun _ => le_rfl
  have hcount : m + 1 ≤ R'.routed limit := by
    by_cases hv : R.rank v < limit
    · have hbound := hg.rank_routed v hv
      have hmono := routed_mono limit hle
      omega
    · have hgain := routed_lt hle hv (hrank ▸ hlimit)
      have hbound := hg.advert_routed u m hadvert
      omega
  constructor
  case advert_rank =>
    intro w k h
    rw [hadverts] at h
    exact (hg.advert_rank w k h).imp_right (hle w).trans
  case advert_walk =>
    intro w k h
    rw [hadverts] at h
    rw [hlink]
    exact hg.advert_walk w k h
  case advert_routed =>
    intro w k h
    rw [hadverts] at h
    exact (hg.advert_routed w k h).trans (routed_mono limit hle)
  case rank_pos =>
    refine forall_of_moved (P := fun _ r => r < limit → 1 ≤ r) hrank_ne (fun _ => ?_) hg.rank_pos
    rw [hrank]
    exact Nat.succ_pos m
  case rank_walk =>
    rw [hlink]
    refine forall_of_moved (P := fun w r => r < limit → ∃ n ≤ r, Hops R.link n sink w)
      hrank_ne (fun _ => ?_) hg.rank_walk
    obtain ⟨n, hn, hwalk⟩ := hg.advert_walk u m hadvert
    rw [hrank]
    exact ⟨n + 1, Nat.succ_le_succ hn, hwalk.snoc huv⟩
  case rank_routed =>
    refine forall_of_moved (P := fun _ r => r < limit → r ≤ R'.routed limit)
      hrank_ne (fun _ => ?_) fun w hw => (hg.rank_routed w hw).trans (routed_mono limit hle)
    rw [hrank]
    exact hcount
  case descends =>
    intro w hw
    rw [hlink]
    by_cases hwv : w = v
    · subst hwv
      -- The advertiser's rank has not grown since it advertised.
      have hu := (hg.advert_rank u m hadvert).imp_right (hle u).trans
      refine ⟨u, hnext, huv, hu.imp_right fun hu => ?_⟩
      rw [hrank]
      exact Nat.succ_le_succ hu
    · rw [hrank_ne w hwv] at hw ⊢
      obtain ⟨x, hx, hxw, hdown⟩ := hg.descends w hw
      exact ⟨x, by rwa [hnext_ne w hwv], hxw,
        hdown.imp_right fun hd => (Nat.succ_le_succ (hle x)).trans hd⟩

theorem advert_lt (hg : R.Gradient sink limit) (hcard : Fintype.card V < limit) {u : V} {m : ℕ}
    (h : R.advert u m) : m < limit :=
  (hg.advert_routed u m h).trans_lt (routed_le_card.trans_lt hcard)

theorem advert_succ_lt (hg : R.Gradient sink limit) (hcard : Fintype.card V < limit) {u v : V}
    {m : ℕ} (h : R.advert u m) (hv : ¬ R.rank v < limit) : m + 1 < limit := by
  have hle := hg.advert_routed u m h
  have hlt := routed_lt_card hv
  omega

/-- Next hops never lead in a circle: the rank falls at each one. -/
theorem follow (hg : R.Gradient sink limit) {v : V} (hv : R.rank v < limit) (hne : v ≠ sink) :
    ∃ path, Follow R.next sink v path ∧ path.Nodup ∧ path.length ≤ R.rank v + 1 := by
  suffices h : ∀ r v, R.rank v = r → R.rank v < limit → v ≠ sink →
      ∃ path, Follow R.next sink v path ∧ path.Nodup ∧ path.length ≤ R.rank v + 1 ∧
        ∀ w ∈ path, w = sink ∨ R.rank w ≤ R.rank v by
    obtain ⟨path, hpath, hnodup, hlen, -⟩ := h _ v rfl hv hne
    exact ⟨path, hpath, hnodup, hlen⟩
  intro r
  induction r using Nat.strong_induction_on with
  | _ r ih =>
    rintro v rfl hv hne
    obtain ⟨u, hnext, -, hdown⟩ := hg.descends v hv
    by_cases hu : u = sink
    · subst hu
      have hpos := hg.rank_pos v hv
      refine ⟨[v, u], .hop hne hnext .arrived, by simpa using hne, ?_, ?_⟩
      · simpa using hpos
      · simp
    · have hless := hdown.resolve_left hu
      obtain ⟨path, hpath, hnodup, hlen, hranks⟩ := ih (R.rank u) hless u rfl (by omega) hu
      have hnew : v ∉ path := by
        intro hmem
        rcases hranks v hmem with hsink | hle
        · exact hne hsink
        · omega
      refine ⟨v :: path, .hop hne hnext hpath, List.nodup_cons.mpr ⟨hnew, hnodup⟩, ?_, ?_⟩
      · rw [List.length_cons]
        omega
      · intro w hw
        rcases List.mem_cons.mp hw with rfl | hw
        · exact .inr le_rfl
        · exact (hranks w hw).imp_right fun hle => by omega

end Gradient

end Routes

end WsnContest.Lib
