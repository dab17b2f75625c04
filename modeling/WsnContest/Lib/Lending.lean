import WsnContest.Lib.System

/-! A component that lends a buffer, say to a radio, which reads it at any time before
it gives it back. What is read is what was lent if nobody writes in between. -/
namespace WsnContest.Lib

/-- A buffer of a component, when it is lent, and which outputs are the loan of a
message and the reading of one. -/
structure Lending (State Output α : Type) where
  content : State → α
  fill : α → State → State
  fill_content : ∀ s, fill (content s) s = s
  lent : State → Prop
  taken? : Output → Option α
  read? : Output → Option α

namespace Lending

variable {State Event Output α : Type} (L : Lending State Output α)

/-- Some content does not survive the step. -/
def Writes (m : Machine State Event Output) (s : State) (e : Event) : Prop :=
  ∃ a, ∃ r ∈ m.step (L.fill a s) e, L.content r.1 ≠ a

/-- The step writes the buffer only while it is not lent. -/
def Spares (m : Machine State Event Output) (s : State) (e : Event) : Prop :=
  L.lent s → ¬ L.Writes m s e

/-- What is read is the message lent last. -/
def Truthful (out : List Output) : Prop :=
  ∀ before o rest a, out = before ++ o :: rest → L.read? o = some a →
    (before.filterMap L.taken?).getLast? = some a

variable {L} {m : Machine State Event Output}

theorem truthful_iff {out : List Output} : L.Truthful out ↔
    InOrder (fun before o => ∀ a, L.read? o = some a →
      (before.filterMap L.taken?).getLast? = some a) out :=
  ⟨fun h before o rest hout a => h before o rest a hout,
    fun h before o rest a hout => h before o rest hout a⟩

theorem truthful_nil : L.Truthful [] := truthful_iff.mpr inOrder_nil

theorem Truthful.append {out : List Output} (h : L.Truthful out) {o : Output}
    (ho : ∀ a, L.read? o = some a → (out.filterMap L.taken?).getLast? = some a) :
    L.Truthful (out ++ [o]) :=
  truthful_iff.mpr ((truthful_iff.mp h).append_one ho)

theorem Truthful.append_silent {out new : List Output} (h : L.Truthful out)
    (hnew : ∀ o ∈ new, L.read? o = none) : L.Truthful (out ++ new) := by
  apply truthful_iff.mpr
  apply (truthful_iff.mp h).append
  intro o ho before a hread
  rw [hnew o ho] at hread
  cases hread

theorem content_of_spares {s : State} {e : Event} {r : State × List Output}
    (hspares : L.Spares m s e) (hlent : L.lent s) (hstep : m.step s e = some r) :
    L.content r.1 = L.content s := by
  by_contra hne
  refine hspares hlent ⟨L.content s, r, ?_, hne⟩
  rw [L.fill_content]
  exact hstep

theorem spares_of_keeps {s : State} {e : Event}
    (h : ∀ a, ∀ r ∈ m.step (L.fill a s) e, L.content r.1 = a) : L.Spares m s e := by
  rintro - ⟨a, r, hr, hne⟩
  exact hne (h a r hr)

/-- A step that leaves `msg` whatever was there. -/
theorem spares_iff_of_overwrites [Nontrivial α] {s : State} {e : Event} {msg : α}
    (h : ∀ a, ∃ r ∈ m.step (L.fill a s) e, L.content r.1 = msg) :
    L.Spares m s e ↔ ¬ L.lent s := by
  obtain ⟨a, ha⟩ := exists_ne msg
  obtain ⟨r, hr, hmsg⟩ := h a
  have hwrites : L.Writes m s e := ⟨a, r, hr, hmsg ▸ ha.symm⟩
  exact ⟨fun hspares hlent => hspares hlent hwrites, fun hfree hlent => absurd hlent hfree⟩

/-- A lent buffer still holds the message that was lent last. -/
structure Kept (L : Lending State Output α) (s : State × List Output) : Prop where
  truthful : L.Truthful s.2
  held : L.lent s.1 → (s.2.filterMap L.taken?).getLast? = some (L.content s.1)

/-- What a step of a lender is: it lends the content it leaves behind, or it lends
nothing; and what is read meanwhile is the content of a lent buffer. -/
inductive Lends (L : Lending State Output α) (s : State) : State → List Output → Prop
  | taken {t : State} {out : List Output} : out.filterMap L.taken? = [L.content t] →
      (∀ o ∈ out, L.read? o = none) → Lends L s t out
  | read {t : State} {o : Output} : L.lent s → L.read? o = some (L.content s) →
      L.taken? o = none → Lends L s t [o]
  | quiet {t : State} {out : List Output} : (L.lent t → L.lent s) →
      out.filterMap L.taken? = [] → (∀ o ∈ out, L.read? o = none) → Lends L s t out

theorem Kept.step {s : State × List Output} (h : Kept L s) {e : Event} {t : State}
    {out : List Output} (hspares : L.Spares m s.1 e) (hstep : m.step s.1 e = some (t, out))
    (hlends : Lends L s.1 t out) : Kept L (t, s.2 ++ out) := by
  cases hlends with
  | taken htaken hsilent =>
    refine ⟨h.truthful.append_silent hsilent, fun _ => ?_⟩
    rw [List.filterMap_append, htaken, List.getLast?_concat]
  | read hlent hread hnone =>
    have hcontent := content_of_spares hspares hlent hstep
    refine ⟨h.truthful.append fun a ha => ?_, fun _ => ?_⟩
    · rw [h.held hlent, ← hread]
      exact ha
    · rw [List.filterMap_append, List.filterMap_cons_none hnone, List.filterMap_nil,
        List.append_nil, h.held hlent, hcontent]
  | quiet hkeeps hnone hsilent =>
    refine ⟨h.truthful.append_silent hsilent, fun hlent => ?_⟩
    rw [List.filterMap_append, hnone, List.append_nil, h.held (hkeeps hlent),
      content_of_spares hspares (hkeeps hlent) hstep]

/-- A run that never writes a lent buffer: every reading is of the message lent last. -/
theorem truthful_of_reachable {allowed : State → Event → Prop} (hinit : ¬ L.lent m.init)
    (hspares : ∀ s e t out, allowed s e → m.step s e = some (t, out) → L.Spares m s e)
    (hlends : ∀ s e t out, allowed s e → m.step s e = some (t, out) → Lends L s t out)
    {s : State × List Output} (h : m.system.Reachable (fun s e => allowed s.1 e) s) :
    L.Truthful s.2 := by
  have hkept : Kept L s := by
    apply Machine.invariant (P := Kept L) h
    · exact ⟨truthful_nil, fun hlent => absurd hlent hinit⟩
    · intro s e t out hs hallowed hrun
      exact hs.step (hspares s.1 e t out hallowed hrun) hrun (hlends s.1 e t out hallowed hrun)
  exact hkept.truthful

/-- In every run the buffer is left alone while it is lent exactly if every step is
`free`, and then what is read is what was lent. -/
def KeptExactlyWhen (L : Lending State Output α) (m : Machine State Event Output)
    (free : State → Event → Prop) : Prop :=
  ∀ es s, m.system.run es = some s →
    (m.system.AllowedFrom (fun s e => L.Spares m s.1 e) m.system.init es ↔
      m.system.AllowedFrom (fun s e => free s.1 e) m.system.init es) ∧
    (m.system.AllowedFrom (fun s e => free s.1 e) m.system.init es → L.Truthful s.2)

theorem kept_exactly_when {free : State → Event → Prop} (hinit : ¬ L.lent m.init)
    (hspares : ∀ s e t out, m.step s e = some (t, out) → (L.Spares m s e ↔ free s e))
    (hlends : ∀ s e t out, m.step s e = some (t, out) → Lends L s t out) :
    L.KeptExactlyWhen m free := by
  intro es s hrun
  constructor
  · apply Machine.allowedFrom_congr (fun _ => True) ?_ es trivial hrun
    intro s e t out _ he
    exact ⟨hspares s.1 e t out he, fun _ => trivial⟩
  · intro hfree
    have hreach := System.reachable_of_run es hfree hrun
    exact truthful_of_reachable hinit
      (fun s e t out hallowed he => (hspares s e t out he).mpr hallowed)
      (fun s e t out _ he => hlends s e t out he) hreach

end Lending

end WsnContest.Lib
