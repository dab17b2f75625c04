import Mathlib.Logic.Function.Basic
import WsnContest.Lib.System

/-! Programs that share one broadcast radio. Every frame ever broadcast stays
in the log, so that a run may lose, repeat, delay and reorder deliveries; a
stronger medium is an assumption on the delivery steps of the run. -/
namespace WsnContest.Lib

/-- One program per node. `handle` runs a local event and `receive` a frame;
both also return what the node broadcasts meanwhile. The last argument type of
`receive` is what the environment answers to the calls the handler makes. -/
structure Network (V : Type) (S E R : V → Type) (F : Type) where
  init : ∀ v, S v
  handle : ∀ v, E v → S v → Option (S v × List F)
  receive : ∀ v, R v → F → S v → S v × List F

namespace Network

variable {V F : Type} {S E R : V → Type}

/-- Local states, the broadcasts so far and the deliveries so far (an entry is
the position of the frame in the log and its receiver). -/
structure Config (S : V → Type) (F : Type) where
  node : ∀ v, S v
  log : List (V × F)
  delivered : List (ℕ × V)

inductive Event (E R : V → Type) where
  | act (v : V) (e : E v)
  | deliver (i : ℕ) (v : V) (r : R v)

/-- The `i`-th broadcast has reached `v`. -/
def Config.mark (c : Config S F) (i : ℕ) (v : V) : Config S F :=
  { c with delivered := c.delivered ++ [(i, v)] }

@[simp] theorem Config.mark_node (c : Config S F) (i : ℕ) (v : V) :
    (c.mark i v).node = c.node := rfl

@[simp] theorem Config.mark_log (c : Config S F) (i : ℕ) (v : V) : (c.mark i v).log = c.log := rfl

@[simp] theorem Config.mark_delivered (c : Config S F) (i : ℕ) (v : V) :
    (c.mark i v).delivered = c.delivered ++ [(i, v)] := rfl

variable [DecidableEq V]

/-- Node `v` moves to `s` and broadcasts `fs`. -/
def Config.put (c : Config S F) (v : V) (s : S v) (fs : List F) : Config S F where
  node := Function.update c.node v s
  log := c.log ++ fs.map (v, ·)
  delivered := c.delivered

@[simp] theorem Config.put_node_self (c : Config S F) (v : V) (s : S v) (fs : List F) :
    (c.put v s fs).node v = s := by
  simp [Config.put]

/-- A node that stays as it is and broadcasts nothing. -/
theorem Config.put_self (c : Config S F) (v : V) : c.put v (c.node v) [] = c := by
  simp [Config.put]

theorem Config.put_node_of_ne (c : Config S F) {v w : V} (s : S v) (fs : List F) (h : w ≠ v) :
    (c.put v s fs).node w = c.node w := by
  simp [Config.put, h]

/-- What the node that moves keeps, all nodes keep. -/
theorem Config.put_node_congr {α : Type} (g : ∀ w, S w → α) {c : Config S F} {v : V} {s : S v}
    (h : g v s = g v (c.node v)) (fs : List F) (w : V) :
    g w ((c.put v s fs).node w) = g w (c.node w) := by
  by_cases hw : w = v
  · subst hw
    rw [c.put_node_self, h]
  · rw [c.put_node_of_ne s fs hw]

theorem Config.forall_put_node {P : ∀ w, S w → Prop} {c : Config S F} {v : V} {s : S v}
    (hv : P v s) (hother : ∀ w, w ≠ v → P w (c.node w)) (fs : List F) (w : V) :
    P w ((c.put v s fs).node w) := by
  by_cases hw : w = v
  · subst hw
    rwa [c.put_node_self]
  · rw [c.put_node_of_ne s fs hw]
    exact hother w hw

@[simp] theorem Config.put_log (c : Config S F) (v : V) (s : S v) (fs : List F) :
    (c.put v s fs).log = c.log ++ fs.map (v, ·) := rfl

theorem Config.mem_put_log {c : Config S F} {v u : V} {s : S v} {fs : List F} {f : F} :
    (u, f) ∈ (c.put v s fs).log ↔ (u, f) ∈ c.log ∨ u = v ∧ f ∈ fs := by
  rw [c.put_log, List.mem_append, List.mem_map]
  apply or_congr_right
  constructor
  · rintro ⟨g, hg, heq⟩
    cases heq
    exact ⟨rfl, hg⟩
  · rintro ⟨rfl, hf⟩
    exact ⟨f, hf, rfl⟩

theorem Config.put_log_getElem? {c : Config S F} {i : ℕ} {entry : V × F}
    (h : c.log[i]? = some entry) (v : V) (s : S v) (fs : List F) :
    (c.put v s fs).log[i]? = some entry := by
  rw [c.put_log, List.getElem?_append_left (List.getElem?_eq_some_iff.mp h).1]
  exact h

@[simp] theorem Config.put_delivered (c : Config S F) (v : V) (s : S v) (fs : List F) :
    (c.put v s fs).delivered = c.delivered := rfl

/-- A broadcast does not change that every copy delivered is one of an old entry. -/
theorem Config.past_put {c : Config S F} (h : ∀ p ∈ c.delivered, p.1 < c.log.length) (v : V)
    (s : S v) (fs : List F) :
    ∀ p ∈ (c.put v s fs).delivered, p.1 < (c.put v s fs).log.length := by
  intro p hp
  rw [c.put_log, List.length_append]
  exact (h p hp).trans_le (Nat.le_add_right _ _)

/-- Nor does a delivery. -/
theorem Config.past_deliver {c : Config S F} (h : ∀ p ∈ c.delivered, p.1 < c.log.length) {i : ℕ}
    {entry : V × F} (hi : c.log[i]? = some entry) (v : V) (s : S v) (fs : List F) :
    ∀ p ∈ ((c.put v s fs).mark i v).delivered,
      p.1 < ((c.put v s fs).mark i v).log.length := by
  intro p hp
  rcases List.mem_append.mp hp with hold | hlast
  · exact past_put h v s fs p hold
  · rw [List.mem_singleton.mp hlast]
    exact (List.getElem?_eq_some_iff.mp (put_log_getElem? hi v s fs)).1

variable (N : Network V S E R F)

def step (c : Config S F) : Event E R → Option (Config S F)
  | .act v e => (N.handle v e (c.node v)).map fun r => c.put v r.1 r.2
  | .deliver i v r => c.log[i]?.map fun entry =>
      let out := N.receive v r entry.2 (c.node v)
      (c.put v out.1 out.2).mark i v

def system : System (Config S F) (Event E R) where
  init := ⟨N.init, [], []⟩
  step := N.step

theorem system_step_act {c : Config S F} {v : V} {e : E v} {s : S v} {fs : List F}
    (h : N.handle v e (c.node v) = some (s, fs)) :
    N.system.step c (.act v e) = some (c.put v s fs) := by
  simp [system, step, h]

theorem system_step_deliver {c : Config S F} {i : ℕ} {u v : V} {r : R v} {f : F} {s : S v}
    {fs : List F} (hi : c.log[i]? = some (u, f)) (h : N.receive v r f (c.node v) = (s, fs)) :
    N.system.step c (.deliver i v r) = some ((c.put v s fs).mark i v) := by
  simp [system, step, hi, h]

/-- What a step of the network is, by the kind of its event. -/
theorem system_step {c c' : Config S F} {e : Event E R} (h : N.system.step c e = some c') :
    (∃ v a s fs, e = .act v a ∧ N.handle v a (c.node v) = some (s, fs) ∧ c' = c.put v s fs) ∨
    (∃ i v r u f, e = .deliver i v r ∧ c.log[i]? = some (u, f) ∧
      c' = (c.put v (N.receive v r f (c.node v)).1 (N.receive v r f (c.node v)).2).mark i v) := by
  cases e with
  | act v a =>
    obtain ⟨⟨s, fs⟩, hhandle, rfl⟩ := Option.map_eq_some_iff.mp h
    exact .inl ⟨v, a, s, fs, rfl, hhandle, rfl⟩
  | deliver i v r =>
    obtain ⟨⟨u, f⟩, hlog, rfl⟩ := Option.map_eq_some_iff.mp h
    exact .inr ⟨i, v, r, u, f, rfl, hlog, rfl⟩

/-- Every broadcast has reached every receiver that is linked to its sender. -/
def Quiet (link : V → V → Prop) (c : Config S F) : Prop :=
  ∀ i u f v, c.log[i]? = some (u, f) → link u v → (i, v) ∈ c.delivered

omit [DecidableEq V] in
theorem quiet_iff {link : V → V → Prop} {c : Config S F} :
    Quiet link c ↔
      ∀ entry ∈ c.log.zipIdx, ∀ v, link entry.1.1 v → ∃ p ∈ c.delivered, p = (entry.2, v) := by
  simp only [exists_eq_right]
  constructor
  · rintro h ⟨⟨u, f⟩, i⟩ hentry v hlink
    exact h i u f v (List.mem_zipIdx_iff_getElem?.mp hentry) hlink
  · intro h i u f v hlog hlink
    exact h ((u, f), i) (List.mem_zipIdx_iff_getElem?.mpr hlog) v hlink

instance [Fintype V] {link : V → V → Prop} [DecidableRel link] (c : Config S F) :
    Decidable (Quiet link c) :=
  decidable_of_iff _ quiet_iff.symm

variable {N}

/-- An invariant of the nodes that every emitted frame respects and every
delivered frame may rely on. -/
theorem node_invariant {allowed : Config S F → Event E R → Prop}
    {P : ∀ v, S v → Prop} {Q : V → F → Prop}
    (hinit : ∀ v, P v (N.init v))
    (hact : ∀ c v a s fs, P v (c.node v) → allowed c (.act v a) →
      N.handle v a (c.node v) = some (s, fs) → P v s ∧ ∀ f ∈ fs, Q v f)
    (hreceive : ∀ c i v r u f, P v (c.node v) → Q u f → allowed c (.deliver i v r) →
      c.log[i]? = some (u, f) →
      P v (N.receive v r f (c.node v)).1 ∧ ∀ g ∈ (N.receive v r f (c.node v)).2, Q v g)
    {c : Config S F} (h : N.system.Reachable allowed c) :
    (∀ v, P v (c.node v)) ∧ ∀ u f, (u, f) ∈ c.log → Q u f := by
  have hput : ∀ (c : Config S F) v s fs, (∀ w, P w (c.node w)) →
      (∀ u f, (u, f) ∈ c.log → Q u f) → P v s → (∀ f ∈ fs, Q v f) →
      (∀ w, P w ((c.put v s fs).node w)) ∧ ∀ u f, (u, f) ∈ (c.put v s fs).log → Q u f := by
    intro c v s fs hnode hlog hs hfs
    constructor
    · exact Config.forall_put_node hs (fun w _ => hnode w) fs
    · intro u f hmem
      rcases Config.mem_put_log.mp hmem with hold | ⟨rfl, hf⟩
      · exact hlog u f hold
      · exact hfs f hf
  refine h.invariant (P := fun c => (∀ v, P v (c.node v)) ∧ ∀ u f, (u, f) ∈ c.log → Q u f)
    ⟨hinit, by simp [system]⟩ ?_
  rintro c e c' ⟨hnode, hlog⟩ hallowed hstep
  obtain ⟨v, a, s, fs, rfl, hhandle, rfl⟩ | ⟨i, v, r, u, f, rfl, hi, rfl⟩ := N.system_step hstep
  · obtain ⟨hs, hfs⟩ := hact c v a s fs (hnode v) hallowed hhandle
    exact hput c v s fs hnode hlog hs hfs
  · have hQ := hlog u f (List.mem_of_getElem? hi)
    obtain ⟨hs, hfs⟩ := hreceive c i v r u f (hnode v) hQ hallowed hi
    exact hput c v _ _ hnode hlog hs hfs

/-- A party all of whose moves are its own, and are steps of a system, runs as that system. -/
theorem party_reachable {v : V} {I : Type} {sys : System (S v) I}
    {allowed : Config S F → Event E R → Prop} {own : S v → I → Prop} (hinit : N.init v = sys.init)
    (hact : ∀ c a s fs, allowed c (.act v a) → N.handle v a (c.node v) = some (s, fs) →
      s = c.node v ∨ ∃ i, own (c.node v) i ∧ sys.step (c.node v) i = some s)
    (hreceive : ∀ c i r u f, allowed c (.deliver i v r) → c.log[i]? = some (u, f) →
      (N.receive v r f (c.node v)).1 = c.node v ∨
        ∃ i, own (c.node v) i ∧ sys.step (c.node v) i = some (N.receive v r f (c.node v)).1)
    {c : Config S F} (h : N.system.Reachable allowed c) : sys.Reachable own (c.node v) := by
  have hmove : ∀ {s t : S v}, sys.Reachable own s →
      (t = s ∨ ∃ i, own s i ∧ sys.step s i = some t) → sys.Reachable own t := by
    rintro s t hs (rfl | ⟨i, hown, hstep⟩)
    · exact hs
    · exact hs.step hown hstep
  have hstart : sys.Reachable own (N.init v) := hinit ▸ .init
  refine h.invariant (P := fun c => sys.Reachable own (c.node v)) hstart ?_
  intro c e c' hc hallowed hstep
  obtain ⟨w, a, s, fs, rfl, hhandle, rfl⟩ | ⟨i, w, r, u, f, rfl, hi, rfl⟩ := N.system_step hstep
  · by_cases hw : v = w
    · subst hw
      rw [c.put_node_self]
      exact hmove hc (hact c a s fs hallowed hhandle)
    · rw [c.put_node_of_ne s fs hw]
      exact hc
  · rw [Config.mark_node]
    by_cases hw : v = w
    · subst hw
      rw [c.put_node_self]
      exact hmove hc (hreceive c i r u f hallowed hi)
    · rw [c.put_node_of_ne _ _ hw]
      exact hc

/-- What `v` has broadcast, in its order. -/
def logOf (v : V) (log : List (V × F)) : List F :=
  (log.filter fun entry => entry.1 = v).map Prod.snd

theorem mem_logOf {v : V} {f : F} {log : List (V × F)} : f ∈ logOf v log ↔ (v, f) ∈ log := by
  simp [logOf]

theorem logOf_append (v : V) (log : List (V × F)) (w : V) (fs : List F) :
    logOf v (log ++ fs.map (w, ·)) = logOf v log ++ if w = v then fs else [] := by
  unfold logOf
  rw [List.filter_append, List.map_append, List.filter_map, List.map_map]
  apply congrArg
  by_cases hw : w = v
  · simp [hw, Function.comp_def]
  · simp [hw, Function.comp_def]

/-- The state of a party that keeps a record of its broadcasts tells its part of the log. -/
theorem logOf_eq {v : V} {told : S v → List F} {allowed : Config S F → Event E R → Prop}
    (hinit : told (N.init v) = [])
    (hact : ∀ a s t fs, N.handle v a s = some (t, fs) → told t = told s ++ fs)
    (hreceive : ∀ r f s, told (N.receive v r f s).1 = told s ++ (N.receive v r f s).2)
    {c : Config S F} (h : N.system.Reachable allowed c) :
    logOf v c.log = told (c.node v) := by
  have hstart : logOf v N.system.init.log = told (N.init v) := hinit.symm
  refine h.invariant (P := fun c => logOf v c.log = told (c.node v)) hstart ?_
  intro c e c' hc _ hstep
  obtain ⟨w, a, s, fs, rfl, hhandle, rfl⟩ | ⟨i, w, r, u, f, rfl, -, rfl⟩ := N.system_step hstep
  · rw [Config.put_log, logOf_append, hc]
    by_cases hw : w = v
    · subst hw
      rw [if_pos rfl, c.put_node_self, hact a _ _ _ hhandle]
    · rw [if_neg hw, List.append_nil, c.put_node_of_ne s fs (Ne.symm hw)]
  · rw [Config.mark_log, Config.mark_node, Config.put_log, logOf_append, hc]
    by_cases hw : w = v
    · subst hw
      rw [if_pos rfl, c.put_node_self, hreceive]
    · rw [if_neg hw, List.append_nil, c.put_node_of_ne _ _ (Ne.symm hw)]

/-- What was delivered had been broadcast. -/
theorem past_of_reachable {allowed : Config S F → Event E R → Prop} {c : Config S F}
    (h : N.system.Reachable allowed c) : ∀ p ∈ c.delivered, p.1 < c.log.length := by
  refine h.invariant (P := fun c => ∀ p ∈ c.delivered, p.1 < c.log.length) (by simp [system]) ?_
  intro c e c' hc _ hstep
  obtain ⟨v, a, s, fs, rfl, -, rfl⟩ | ⟨i, v, r, u, f, rfl, hlog, rfl⟩ := N.system_step hstep
  · exact Config.past_put hc v s fs
  · exact Config.past_deliver hc hlog v _ _

end Network

end WsnContest.Lib
