import Mathlib.Order.Bounds.Basic
import WsnContest.Gossip.Node
import WsnContest.Lib.Flood
import WsnContest.Lib.Network

/-! The purpose of the gossip, free of either program: every node holds a
number, the root listens, and all should end up with the extremes. -/
namespace WsnContest.Gossip
open Tinyos Lib

variable {V : Type}

/-- Who listens only, and the number of each node. -/
structure Handout (V : Type) where
  root : V
  number : V → Word16

namespace Handout
variable (d : Handout V)

def allNumbers : Set Word16 := Set.range d.number

/-- The numbers of the nodes that speak. -/
def senderNumbers : Set Word16 := {n | ∃ w, w ≠ d.root ∧ d.number w = n}

/-- The pair is the maximum and the minimum of the numbers. -/
def Extremes (numbers : Set Word16) (status : TestSendMsg) : Prop :=
  IsGreatest numbers status.max ∧ IsLeast numbers status.min

/-- The numbers that a node can have heard of: those of the senders and its own. -/
def heard (v : V) : Set Word16 := {n | ∃ w, (w ≠ d.root ∨ w = v) ∧ d.number w = n}

/-- The status covers the node's own number and invents none. -/
structure Knows (v : V) (status : TestSendMsg) : Prop where
  own : ⟨d.number v, d.number v⟩ ≤ status
  max_heard : status.max ∈ d.heard v
  min_heard : status.min ∈ d.heard v

/-- A frame on the air comes from a node other than the root and holds numbers
of such nodes. -/
structure Genuine (u : V) (msg : Message) : Prop where
  sender : u ≠ d.root
  length : msg.length = sizeofTestSendMsg
  max_known : msg.payload.max ∈ d.senderNumbers
  min_known : msg.payload.min ∈ d.senderNumbers

variable {d}

theorem heard_of_sender {v : V} {n : Word16} (h : n ∈ d.senderNumbers) : n ∈ d.heard v := by
  obtain ⟨w, hw, hn⟩ := h
  exact ⟨w, .inl hw, hn⟩

theorem sender_of_heard {v : V} (hv : v ≠ d.root) {n : Word16} (h : n ∈ d.heard v) :
    n ∈ d.senderNumbers := by
  obtain ⟨w, hw | rfl, hn⟩ := h
  · exact ⟨w, hw, hn⟩
  · exact ⟨w, hv, hn⟩

theorem knows_own {v : V} : d.Knows v ⟨d.number v, d.number v⟩ :=
  ⟨le_rfl, ⟨v, .inr rfl, rfl⟩, ⟨v, .inr rfl, rfl⟩⟩

theorem Knows.genuine {v : V} {status : TestSendMsg} (h : d.Knows v status) (hv : v ≠ d.root) :
    d.Genuine v ⟨sizeofTestSendMsg, status⟩ :=
  ⟨hv, rfl, sender_of_heard hv h.max_heard, sender_of_heard hv h.min_heard⟩

theorem Knows.sup {v u : V} {status : TestSendMsg} {msg : Message} (h : d.Knows v status)
    (hmsg : d.Genuine u msg) : d.Knows v (status ⊔ msg.payload) := by
  refine ⟨h.own.trans le_sup_left, ?_, ?_⟩
  · rw [TestSendMsg.sup_max]
    rcases max_choice status.max msg.payload.max with heq | heq <;> rw [heq]
    · exact h.max_heard
    · exact heard_of_sender hmsg.max_known
  · rw [TestSendMsg.sup_min]
    rcases min_choice status.min msg.payload.min with heq | heq <;> rw [heq]
    · exact h.min_heard
    · exact heard_of_sender hmsg.min_known

theorem Knows.receive {v u : V} {s : State} {msg : Message} (h : d.Knows v s.status)
    (hmsg : d.Genuine u msg) (p : Settings) (sent : ErrorT) :
    d.Knows v (receive p sent msg s).1.status := by
  rw [receive_status, if_pos hmsg.length]
  exact h.sup hmsg

/-- Once every sender's status lies within those of its neighbours, all have the
answer: the senders that of the senders, and the root that of everyone. -/
theorem extremes_of_flow {G : SimpleGraph V} {status : V → TestSendMsg}
    (hconnected : (G.induce {v | v ≠ d.root}).Preconnected)
    (hroot : ∃ v, G.Adj v d.root)
    (hknows : ∀ v, d.Knows v (status v))
    (hflow : ∀ u v, u ≠ d.root → G.Adj u v → status u ≤ status v) :
    (∀ v, v ≠ d.root → Extremes d.senderNumbers (status v)) ∧
      Extremes d.allNumbers (status d.root) := by
  have hagree : ∀ u v, u ≠ d.root → v ≠ d.root → status u = status v := by
    intro u v hu hv
    exact eq_of_adj_le (x := fun w : {v // v ∈ {v | v ≠ d.root}} => status w)
      (fun a b hab => hflow a b a.2 hab) (hconnected ⟨u, hu⟩ ⟨v, hv⟩)
  have hcover : ∀ u v, u ≠ d.root → v ≠ d.root → ⟨d.number u, d.number u⟩ ≤ status v :=
    fun u v hu hv => (hknows u).own.trans (hagree u v hu hv).le
  constructor
  · intro v hv
    refine ⟨⟨sender_of_heard hv (hknows v).max_heard, ?_⟩,
      ⟨sender_of_heard hv (hknows v).min_heard, ?_⟩⟩
    · rintro n ⟨u, hu, rfl⟩
      exact (hcover u v hu hv).1
    · rintro n ⟨u, hu, rfl⟩
      exact (hcover u v hu hv).2
  · obtain ⟨v, hadj⟩ := hroot
    have hv : v ≠ d.root := hadj.ne
    have hall : ∀ u, ⟨d.number u, d.number u⟩ ≤ status d.root := by
      intro u
      by_cases hu : u = d.root
      · exact hu ▸ (hknows u).own
      · exact (hcover u v hu hv).trans (hflow v d.root hv hadj)
    obtain ⟨wmax, -, hmax⟩ := (hknows d.root).max_heard
    obtain ⟨wmin, -, hmin⟩ := (hknows d.root).min_heard
    refine ⟨⟨⟨wmax, hmax⟩, ?_⟩, ⟨⟨wmin, hmin⟩, ?_⟩⟩
    · rintro n ⟨u, rfl⟩
      exact (hall u).1
    · rintro n ⟨u, rfl⟩
      exact (hall u).2

/-- What ties the nodes to the medium: the current status of a sender is on the
air unless the node may still owe it, and what was delivered lies within the
status of its receiver. -/
structure Told (d : Handout V) (owes : V → State → Prop)
    (c : Network.Config (fun _ : V => State) Message) : Prop where
  aired : ∀ v, v ≠ d.root → (c.node v).serialReceived = true → ¬ owes v (c.node v) →
    (v, ⟨sizeofTestSendMsg, (c.node v).status⟩) ∈ c.log
  heard : ∀ i v, (i, v) ∈ c.delivered → (c.node v).serialReceived = true ∧
    ∃ u msg, c.log[i]? = some (u, msg) ∧ msg.payload ≤ (c.node v).status

section Told
variable [DecidableEq V] {owes : V → State → Prop}
  {c : Network.Config (fun _ : V => State) Message}

/-- A node that only widens its status, and airs it or owes it after a change,
stays in step with the medium. -/
theorem Told.put (h : d.Told owes c) {v : V} {s : State} {fs : List Message}
    (hair : v ≠ d.root → s.serialReceived = true → ¬ owes v s →
      ⟨sizeofTestSendMsg, s.status⟩ ∈ fs ∨ ((c.node v).serialReceived = true ∧
        ¬ owes v (c.node v) ∧ s.status = (c.node v).status))
    (hgrow : (c.node v).serialReceived = true →
      s.serialReceived = true ∧ (c.node v).status ≤ s.status) :
    d.Told owes (c.put v s fs) := by
  constructor
  · intro w hw hserial howes
    by_cases hwv : w = v
    · subst hwv
      rw [Network.Config.put_node_self] at hserial howes ⊢
      rcases hair hw hserial howes with hnew | ⟨hold, howed, hsame⟩
      · exact Network.Config.mem_put_log.mpr (.inr ⟨rfl, hnew⟩)
      · rw [hsame]
        exact Network.Config.mem_put_log.mpr (.inl (h.aired w hw hold howed))
    · rw [c.put_node_of_ne s fs hwv] at hserial howes ⊢
      exact Network.Config.mem_put_log.mpr (.inl (h.aired w hw hserial howes))
  · intro i w hmem
    obtain ⟨hserial, u, msg, hlog, hle⟩ := h.heard i w hmem
    have hlog' := Network.Config.put_log_getElem? hlog v s fs
    by_cases hwv : w = v
    · subst hwv
      rw [Network.Config.put_node_self]
      obtain ⟨hserial', hgrow'⟩ := hgrow hserial
      exact ⟨hserial', u, msg, hlog', hle.trans hgrow'⟩
    · rw [c.put_node_of_ne s fs hwv]
      exact ⟨hserial, u, msg, hlog', hle⟩

omit [DecidableEq V] in
theorem Told.mark {u v : V} {msg : Message} (h : d.Told owes c) {i : ℕ}
    (hlog : c.log[i]? = some (u, msg)) (hserial : (c.node v).serialReceived = true)
    (hle : msg.payload ≤ (c.node v).status) : d.Told owes (c.mark i v) := by
  refine ⟨h.aired, fun j w hmem => ?_⟩
  rcases List.mem_append.mp hmem with hold | hnew
  · exact h.heard j w hold
  · obtain ⟨rfl, rfl⟩ : j = i ∧ w = v := by simpa using hnew
    exact ⟨hserial, u, msg, hlog, hle⟩

/-- A node that hears a genuine frame stays in step with the medium: it airs a
new status, and an unchanged one it owes only if it did before. -/
theorem Told.receive (h : d.Told owes c) {i : ℕ} {u v : V} {msg : Message} {p : Settings}
    (hlog : c.log[i]? = some (u, msg)) (hgenuine : d.Genuine u msg)
    (hserial : (c.node v).serialReceived = true) (hidle : (c.node v).busyRadio = false)
    (hroot : v ≠ d.root → p.isRoot = false)
    (howes : (receive p .success msg (c.node v)).1.status = (c.node v).status →
      owes v (c.node v) → owes v (receive p .success msg (c.node v)).1) :
    d.Told owes ((c.put v (receive p .success msg (c.node v)).1
      (receive p .success msg (c.node v)).2).mark i v) := by
  refine (h.put (fun hv _ hsaid => ?_) fun hs => ?_).mark
    (Network.Config.put_log_getElem? hlog v _ _) ?_ ?_
  · rcases receive_airs msg hserial (hroot hv) hidle with hair | hsame
    · exact .inl hair
    · exact .inr ⟨hserial, mt (howes hsame) hsaid, hsame⟩
  · exact ⟨by simpa using hs, le_receive_status ..⟩
  · simpa using hserial
  · simp [receive_status, hgenuine.length]

omit [DecidableEq V] in
/-- On a quiet medium the status of a sender that owes nothing has reached its
neighbours. -/
theorem Told.flow {G : SimpleGraph V} (h : d.Told owes c) (hquiet : Network.Quiet G.Adj c)
    {u v : V} (hu : u ≠ d.root) (hserial : (c.node u).serialReceived = true)
    (howes : ¬ owes u (c.node u)) (hadj : G.Adj u v) :
    (c.node u).status ≤ (c.node v).status := by
  obtain ⟨i, hi⟩ := List.getElem?_of_mem (h.aired u hu hserial howes)
  obtain ⟨-, u', msg, hlog, hle⟩ := h.heard i v (hquiet i _ _ v hi hadj)
  obtain ⟨rfl, rfl⟩ : (u, _) = (u', msg) := Option.some.inj (hi.symm.trans hlog)
  exact hle

end Told

end Handout

end WsnContest.Gossip
