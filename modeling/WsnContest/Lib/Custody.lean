import Mathlib.Algebra.BigOperators.Group.Finset.Basic
import Mathlib.Algebra.Order.BigOperators.Group.Finset
import WsnContest.Lib.Network

/-! Messages with one addressee. A message is in the custody of the medium from its
broadcast until its addressee has had it; where nothing is sent on but what was taken
over, what has arrived and what is under way never exceed what was brought in. -/
namespace WsnContest.Lib

/-- What no step raises by more than the event is worth is never worth more than the run. -/
theorem System.runFrom_cost {State Event : Type} {sys : System State Event} {P : State → Prop}
    {allowed : State → Event → Prop} {μ : State → ℕ} {costly : Event → Bool}
    (hstep : ∀ s e s', P s → allowed s e → sys.step s e = some s' →
      P s' ∧ μ s' ≤ μ s + if costly e then 1 else 0)
    {s t : State} (hs : P s) (es : List Event)
    (hallowed : sys.AllowedFrom allowed s es) (h : sys.runFrom s es = some t) :
    μ t ≤ μ s + es.countP costly := by
  induction es generalizing s with
  | nil =>
    cases h
    simp
  | cons e es ih =>
    obtain ⟨s', hs', hrest⟩ := Option.bind_eq_some_iff.mp h
    obtain ⟨hkept, hhead⟩ := hstep s e s' hs hallowed.1 hs'
    have htail := ih hkept (hallowed.2 s' hs') hrest
    rw [List.countP_cons]
    omega

namespace Network
open Finset

variable {V F : Type} {S E R : V → Type}

section Custody
variable (heeds : V → F → Bool) (weight : V × F → ℕ)

/-- An addressee of the `i`-th broadcast has had it. -/
def settled (delivered : List (ℕ × V)) (i : ℕ) (f : F) : Bool :=
  delivered.any fun p => p.1 == i && heeds p.2 f

/-- The weight of one message, nothing once it has arrived. -/
def carried (delivered : List (ℕ × V)) (i : ℕ) (entry : V × F) : ℕ :=
  if settled heeds delivered i entry.2 then 0 else weight entry

/-- The weight of the messages that are still under way. -/
def custody (log : List (V × F)) (delivered : List (ℕ × V)) : ℕ :=
  ∑ i ∈ range log.length, log[i]?.elim 0 (carried heeds weight delivered i)

/-- The weight of what a node sends. -/
def load (v : V) (fs : List F) : ℕ := (fs.map fun f => weight (v, f)).sum

variable {heeds weight}

@[simp] theorem load_nil (v : V) : load weight v [] = 0 := rfl

@[simp] theorem load_singleton (v : V) (f : F) : load weight v [f] = weight (v, f) := by
  simp [load]

variable (heeds weight) in
theorem custody_append_singleton (log : List (V × F)) (delivered : List (ℕ × V)) (entry : V × F) :
    custody heeds weight (log ++ [entry]) delivered ≤
      custody heeds weight log delivered + weight entry := by
  have hold : ∀ i ∈ range log.length,
      (log ++ [entry])[i]?.elim 0 (carried heeds weight delivered i) =
        log[i]?.elim 0 (carried heeds weight delivered i) := by
    intro i hi
    rw [List.getElem?_append_left (mem_range.mp hi)]
  have hlast : carried heeds weight delivered log.length entry ≤ weight entry := by
    unfold carried
    split
    · exact Nat.zero_le _
    · exact le_rfl
  unfold custody
  rw [List.length_append, List.length_singleton, sum_range_succ, sum_congr rfl hold,
    List.getElem?_concat_length, Option.elim_some]
  exact Nat.add_le_add_left hlast _

variable (heeds weight) in
theorem custody_append (log : List (V × F)) (delivered : List (ℕ × V)) (v : V) (fs : List F) :
    custody heeds weight (log ++ fs.map (v, ·)) delivered ≤
      custody heeds weight log delivered + load weight v fs := by
  induction fs generalizing log with
  | nil => simp
  | cons f fs ih =>
    have hfirst := custody_append_singleton heeds weight log delivered (v, f)
    have hrest := ih (log ++ [(v, f)])
    rw [List.append_assoc, List.singleton_append] at hrest
    rw [load, List.map_cons, List.map_cons, List.sum_cons]
    rw [load] at hrest
    omega

/-- Lighter messages and more deliveries leave less under way. -/
theorem carried_mono {weight' : V × F → ℕ} {entry : V × F} (hweight : weight' entry ≤ weight entry)
    {delivered delivered' : List (ℕ × V)} (hsub : delivered ⊆ delivered') (i : ℕ) :
    carried heeds weight' delivered' i entry ≤ carried heeds weight delivered i entry := by
  have hsettled : settled heeds delivered i entry.2 = true →
      settled heeds delivered' i entry.2 = true := by
    intro h
    obtain ⟨p, hp, hheeds⟩ := List.any_eq_true.mp h
    exact List.any_eq_true.mpr ⟨p, hsub hp, hheeds⟩
  unfold carried
  split
  · exact Nat.zero_le _
  · next hopen =>
    rw [if_neg fun h => hopen (hsettled h)]
    exact hweight

theorem custody_mono {weight' : V × F → ℕ} {log : List (V × F)}
    (hweight : ∀ entry ∈ log, weight' entry ≤ weight entry) {delivered delivered' : List (ℕ × V)}
    (hsub : delivered ⊆ delivered') :
    custody heeds weight' log delivered' ≤ custody heeds weight log delivered := by
  refine sum_le_sum fun i _ => ?_
  cases hentry : log[i]? with
  | none => exact le_rfl
  | some entry => exact carried_mono (hweight entry (List.mem_of_getElem? hentry)) hsub i

variable (weight) in
/-- The addressee takes a message over that it has not had before. -/
theorem custody_deliver (hunique : ∀ f v w, heeds v f = true → heeds w f = true → v = w)
    {log : List (V × F)} {delivered : List (ℕ × V)} {i : ℕ} {u v : V} {f : F}
    (hlog : log[i]? = some (u, f)) (hheeds : heeds v f = true) (hnew : (i, v) ∉ delivered) :
    custody heeds weight log (delivered ++ [(i, v)]) + weight (u, f) ≤
      custody heeds weight log delivered := by
  have hi : i ∈ range log.length := mem_range.mpr (List.getElem?_eq_some_iff.mp hlog).1
  have hopen : settled heeds delivered i f = false := by
    refine List.any_eq_false.mpr fun p hp hsettles => ?_
    obtain ⟨hpos, hheeds'⟩ := Bool.and_eq_true_iff.mp hsettles
    obtain ⟨j, w⟩ := p
    obtain rfl : j = i := beq_iff_eq.mp hpos
    obtain rfl : w = v := hunique f w v hheeds' hheeds
    exact hnew hp
  have hbefore : carried heeds weight delivered i (u, f) = weight (u, f) := by
    simp [carried, hopen]
  have hafter : carried heeds weight (delivered ++ [(i, v)]) i (u, f) = 0 := by
    simp [carried, settled, hheeds]
  have hrest : ∑ j ∈ (range log.length).erase i,
      log[j]?.elim 0 (carried heeds weight (delivered ++ [(i, v)]) j) ≤
        ∑ j ∈ (range log.length).erase i, log[j]?.elim 0 (carried heeds weight delivered j) := by
    refine sum_le_sum fun j _ => ?_
    cases log[j]? with
    | none => exact le_rfl
    | some entry => exact carried_mono le_rfl (List.subset_append_left _ _) j
  unfold custody
  rw [← add_sum_erase _ _ hi, ← add_sum_erase (range log.length)
    (fun j => log[j]?.elim 0 (carried heeds weight delivered j)) hi, hlog, Option.elim_some,
    Option.elim_some, hbefore, hafter, Nat.zero_add, Nat.add_comm]
  exact Nat.add_le_add_left hrest _

end Custody

variable [DecidableEq V] {N : Network V S E R F} {allowed : Config S F → Event E R → Prop}
  {heeds : V → F → Bool} {weight : V × F → ℕ}

/-- What a node takes over on a delivery is under way no more; what it sends now is. -/
theorem custody_take (hunique : ∀ f v w, heeds v f = true → heeds w f = true → v = w)
    {c : Config S F} {i : ℕ} {u v : V} {f : F} (hlog : c.log[i]? = some (u, f))
    (hnew : 0 < weight (u, f) → heeds v f = true → (i, v) ∉ c.delivered) (s : S v) (fs : List F) :
    custody heeds weight ((c.put v s fs).mark i v).log ((c.put v s fs).mark i v).delivered +
        (if heeds v f then weight (u, f) else 0) ≤
      custody heeds weight c.log c.delivered + load weight v fs := by
  have hsent := custody_append heeds weight c.log (c.delivered ++ [(i, v)]) v fs
  have hle : custody heeds weight c.log (c.delivered ++ [(i, v)]) ≤
      custody heeds weight c.log c.delivered :=
    custody_mono (fun _ _ => le_rfl) (List.subset_append_left _ _)
  rw [Config.mark_log, Config.mark_delivered, Config.put_log, Config.put_delivered]
  by_cases htaken : 0 < weight (u, f) ∧ heeds v f = true
  · have htake := custody_deliver weight hunique hlog htaken.2 (hnew htaken.1 htaken.2)
    rw [if_pos htaken.2]
    omega
  · have hnothing : (if heeds v f then weight (u, f) else 0) = 0 := by
      split
      · next hheeds => exact Nat.eq_zero_of_not_pos fun hpos => htaken ⟨hpos, hheeds⟩
      · rfl
    rw [hnothing]
    omega

/-- What a node keeps of a message (`held`) and what it sends on of it together are no
more than it took over: what the event brings in (`gain`), the weight of the message if one
is delivered to its addressee, and nothing otherwise. -/
theorem custody_step {held : Config S F → ℕ} {gain : ℕ}
    (hunique : ∀ f v w, heeds v f = true → heeds w f = true → v = w)
    {c c' : Config S F} {e : Event E R}
    (hact : ∀ v a s fs, e = .act v a → N.handle v a (c.node v) = some (s, fs) →
      held (c.put v s fs) + load weight v fs ≤ held c + gain)
    (hdeliver : ∀ i v r u f s fs, e = .deliver i v r → c.log[i]? = some (u, f) →
      N.receive v r f (c.node v) = (s, fs) →
      held ((c.put v s fs).mark i v) + load weight v fs ≤
        held c + (if heeds v f then weight (u, f) else 0) ∧
      (0 < weight (u, f) → heeds v f = true → (i, v) ∉ c.delivered))
    (hstep : N.system.step c e = some c') :
    held c' + custody heeds weight c'.log c'.delivered ≤
      held c + custody heeds weight c.log c.delivered + gain := by
  obtain ⟨v, a, s, fs, rfl, hhandle, rfl⟩ | ⟨i, v, r, u, f, rfl, hlog, rfl⟩ := N.system_step hstep
  · have hheld := hact v a s fs rfl hhandle
    have hsent := custody_append heeds weight c.log c.delivered v fs
    simp only [Config.put_log, Config.put_delivered]
    omega
  · generalize hreceive : N.receive v r f (c.node v) = out at hstep ⊢
    obtain ⟨hheld, honce⟩ := hdeliver i v r u f out.1 out.2 rfl hlog hreceive
    have htake := custody_take hunique hlog honce out.1 out.2
    omega

omit [DecidableEq V] in
/-- Where each message of a kind weighs one, the weight of what is sent is their number. -/
theorem load_countP (kind : V × F → Bool) (v : V) (fs : List F) :
    load (fun entry => if kind entry then 1 else 0) v fs = (fs.map (v, ·)).countP kind := by
  induction fs with
  | nil => rfl
  | cons f fs ih =>
    rw [load, List.map_cons, List.sum_cons, List.map_cons, List.countP_cons, ← ih, load]
    exact Nat.add_comm _ _

/-- A node that takes each broadcast at most once takes no more of a kind than were sent. -/
theorem taken_le_sent {v : V} (count : S v → ℕ) {kind : V × F → Bool}
    (hinit : count (N.init v) = 0)
    (hact : ∀ c a s fs, N.system.Reachable allowed c → allowed c (.act v a) →
      N.handle v a (c.node v) = some (s, fs) → count s ≤ count (c.node v))
    (hdeliver : ∀ c i r u f, N.system.Reachable allowed c → allowed c (.deliver i v r) →
      c.log[i]? = some (u, f) →
      count (N.receive v r f (c.node v)).1 ≤
        count (c.node v) + (if kind (u, f) then 1 else 0) ∧ (i, v) ∉ c.delivered)
    {c : Config S F} (h : N.system.Reachable allowed c) :
    count (c.node v) ≤ c.log.countP kind := by
  let heeds : V → F → Bool := fun w _ => w == v
  let weight : V × F → ℕ := fun entry => if kind entry then 1 else 0
  have hunique : ∀ f u w, heeds u f = true → heeds w f = true → u = w := by
    intro f u w hu hw
    rw [beq_iff_eq.mp hu, beq_iff_eq.mp hw]
  have hload : ∀ w (fs : List F), load weight w fs = (fs.map (w, ·)).countP kind := load_countP kind
  suffices hkept :
      count (c.node v) + custody heeds weight c.log c.delivered ≤ c.log.countP kind from
    (Nat.le_add_right _ _).trans hkept
  refine h.invariant_of (P := fun c => count (c.node v) + custody heeds weight c.log c.delivered ≤
    c.log.countP kind) (fun _ hc => hc) ?_ ?_
  · exact (congrArg (· + 0) hinit).le
  intro c e c' hreach hkept hallowed hstep
  obtain ⟨w, a, s, fs, rfl, hhandle, rfl⟩ | ⟨i, w, r, u, f, rfl, hlog, rfl⟩ := N.system_step hstep
  · have hsent := custody_append heeds weight c.log c.delivered w fs
    have hcount : count ((c.put w s fs).node v) ≤ count (c.node v) := by
      by_cases hw : v = w
      · subst hw
        rw [c.put_node_self]
        exact hact c a s fs hreach hallowed hhandle
      · rw [c.put_node_of_ne s fs hw]
    rw [Config.put_log, Config.put_delivered, List.countP_append, ← hload]
    omega
  · generalize hreceive : N.receive w r f (c.node w) = out
    have hgrown : ((c.put w out.1 out.2).mark i w).log = c.log ++ out.2.map (w, ·) := rfl
    have hnew : 0 < weight (u, f) → heeds w f = true → (i, w) ∉ c.delivered := by
      intro _ hw
      obtain rfl := beq_iff_eq.mp hw
      exact (hdeliver c i r u f hreach hallowed hlog).2
    have htake := custody_take hunique hlog hnew out.1 out.2
    have hcount : count (((c.put w out.1 out.2).mark i w).node v) ≤
        count (c.node v) + if heeds w f then weight (u, f) else 0 := by
      rw [Config.mark_node]
      by_cases hw : v = w
      · subst hw
        rw [c.put_node_self, ← hreceive, if_pos (beq_self_eq_true v)]
        exact (hdeliver c i r u f hreach hallowed hlog).1
      · rw [c.put_node_of_ne _ _ hw]
        exact Nat.le_add_right _ _
    rw [hload] at htake
    rw [hgrown] at htake ⊢
    rw [List.countP_append]
    omega

end Network

end WsnContest.Lib
