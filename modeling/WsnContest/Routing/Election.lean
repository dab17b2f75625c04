import Mathlib.Data.Fin.VecNotation
import Mathlib.Tactic.FinCases
import WsnContest.Lib.Notes
import WsnContest.Routing.Poll

/-! Who becomes the speaker. An entry of `is_PSP` names a node that has heard a broadcast
data frame, entries are never cleared, and the least entry decides. -/
namespace WsnContest.Routing
open Tinyos Lib

/-- `isSP` finds the own entry set and no smaller one. -/
theorem isSP_iff (tos : Word16) (s : State) :
    isSP tos s = true ↔ s.Marked tos ∧ ∀ i, s.Marked i → tos ≤ i := by
  unfold isSP
  rw [← Fin.find?_eq_find?_finRange]
  cases hfind : Fin.find? s.isPSP with
  | none =>
    have hclear := Fin.find?_eq_none_iff.mp hfind
    simp [State.Marked, hclear]
  | some j =>
    obtain ⟨hset, hleast⟩ := Fin.find?_eq_some_iff.mp hfind
    rw [beq_iff_eq]
    constructor
    · intro htos
      refine ⟨⟨htos ▸ j.isLt, ?_⟩, ?_⟩
      · simpa [htos] using hset
      · rintro i ⟨hi, hmarked⟩
        by_contra hless
        have hlt : (⟨i.val, hi⟩ : Fin pspTableSize) < j := by
          rw [Fin.lt_def, ← htos]
          exact not_le.mp hless
        simp [hleast _ hlt] at hmarked
    · rintro ⟨⟨htos, hmarked⟩, hmin⟩
      apply le_antisymm
      · have hj : j.val < 2 ^ 16 := j.isLt.trans (by decide)
        exact hmin ⟨j.val, hj⟩ ⟨j.isLt, hset⟩
      · by_contra hless
        have hlt : (⟨tos.val, htos⟩ : Fin pspTableSize) < j := not_le.mp hless
        simp [hleast _ hlt] at hmarked

/-- The frames the stack passes on, of those that come in. -/
def passed (tos : Word16) (f : Frame) (s : State) : List Frame :=
  if s.Takes tos f then [f] else []

def passedOwn (tos : Word16) (e : Event) (s : State) : List Frame :=
  match e with
  | .sourceData source destination len bm _ => passed tos ⟨source, destination, len, .beacon bm⟩ s
  | _ => []

/-- The nodes of the routing program, each with the frames its handlers have received. -/
def recorded {V : Type} (id : V → Word16) :
    Network V (fun _ => State × List Frame) (fun _ => Event) (fun _ => Answers) Frame :=
  (routing id).noting (fun v => passedOwn (id v)) (fun v _ => passed (id v))

/-- The records decide nothing: these are the runs of the nodes as they are. -/
theorem recorded_run {V : Type} [DecidableEq V] (id : V → Word16)
    (es : List (Network.Event (fun _ : V => Event) fun _ => Answers)) :
    ((recorded id).system.run es).map Network.Config.forget = (routing id).system.run es :=
  Network.noting_run es

/-- A broadcast data frame was received. -/
def Called (received : List Frame) : Prop := ∃ f ∈ received, f.isCall = true

/-- A control frame was received that names the node `u`. -/
def Told (u : Word16) (received : List Frame) : Prop :=
  ∃ f ∈ received, ∃ cm, f.controlMsg = some cm ∧ cm.nodeid = u

theorem Called.mono {received received' : List Frame} (h : Called received)
    (hsub : received ⊆ received') : Called received' := by
  obtain ⟨f, hf, hcall⟩ := h
  exact ⟨f, hsub hf, hcall⟩

theorem Told.mono {u : Word16} {received received' : List Frame} (h : Told u received)
    (hsub : received ⊆ received') : Told u received' := by
  obtain ⟨f, hf, hcm⟩ := h
  exact ⟨f, hsub hf, hcm⟩

theorem called_append {received new : List Frame} :
    Called (received ++ new) ↔ Called received ∨ Called new := by
  simp [Called, or_and_right, exists_or]

theorem told_append {u : Word16} {received new : List Frame} :
    Told u (received ++ new) ↔ Told u received ∨ Told u new := by
  simp [Told, or_and_right, exists_or]

@[simp] theorem called_singleton {f : Frame} : Called [f] ↔ f.isCall = true := by
  simp [Called]

@[simp] theorem told_singleton {u : Word16} {f : Frame} :
    Told u [f] ↔ ∃ cm ∈ f.controlMsg, cm.nodeid = u := by
  simp [Told]

theorem controlMsg_of_isCall {f : Frame} (h : f.isCall = true) : f.controlMsg = none := by
  obtain ⟨source, destination, len, payload⟩ := f
  cases payload with
  | beacon bm => rfl
  | control cm => simp [Frame.isCall, Frame.isBeacon] at h
  | route rm => rfl

/-- What a node knows follows from what it has received. -/
structure Informed (tos : Word16) (n : State × List Frame) : Prop where
  asleep : n.1.radio = .off → n.2 = []
  called : n.1.type = .psp ↔ Called n.2
  own : n.1.type = .psp → n.1.Marked tos
  told : ∀ u, Told u n.2 → n.1.Marked u
  strays : n.1.strays = []

/-- One step of a node: it sets no entry but its own or one that `names` has, and sends no
other name. -/
structure Canvass (tos : Word16) (names : Word16 → Prop) (n n' : State × List Frame)
    (fs : List Frame) : Prop where
  informed : Informed tos n'
  received : n.2 ⊆ n'.2
  marks : ∀ i, n'.1.Marked i → n.1.Marked i ∨ (i = tos ∧ Called n'.2) ∨ names i
  frames : ∀ g ∈ fs, g.WellFormed ∧
    ∀ cm ∈ g.controlMsg, (cm.nodeid = tos ∧ Called n'.2) ∨ names cm.nodeid

section Step
variable {tos : Word16} {n : State × List Frame}

theorem Informed.still (h : Informed tos n) {t : State} {fs : List Frame}
    (hpoll : t.poll = n.1.poll) (hradio : t.radio = .off → n.1.radio = .off)
    (hframes : ∀ g ∈ fs, g.controlMsg = none ∧ g.WellFormed) {new : List Frame}
    (hnew : n.1.radio = .off → new = []) (hcalled : ¬ Called new) (htold : ∀ u, ¬ Told u new)
    (names : Word16 → Prop) : Canvass tos names n (t, n.2 ++ new) fs where
  informed := by
    have htype : t.type = n.1.type := congrArg Poll.type hpoll
    have hmarked := marked_congr hpoll
    constructor
    · intro hoff
      simp [h.asleep (hradio hoff), hnew (hradio hoff)]
    · rw [htype, called_append, or_iff_left hcalled]
      exact h.called
    · intro hpsp
      exact (hmarked tos).mpr (h.own (htype.symm.trans hpsp))
    · intro u hu
      rw [told_append, or_iff_left (htold u)] at hu
      exact (hmarked u).mpr (h.told u hu)
    · exact (congrArg Poll.strays hpoll).trans h.strays
  received := List.subset_append_left _ _
  marks := fun i hi => .inl ((marked_congr hpoll i).mp hi)
  frames := by
    intro g hg
    obtain ⟨hnone, hwell⟩ := hframes g hg
    simp [hnone, hwell]

/-- One more entry is set, by a frame that calls the node or that names it. -/
theorem Informed.learn (h : Informed tos n) {t : State} {fs new : List Frame} {j : Word16}
    {names : Word16 → Prop} (hradio : t.radio ≠ .off) (hstrays : t.strays = n.1.strays)
    (hmarked : ∀ i, t.Marked i ↔ i = j ∨ n.1.Marked i)
    (htype : t.type = .psp ↔ n.1.type = .psp ∨ Called new) (hcalled : Called new → j = tos)
    (htold : ∀ u, Told u new → u = j) (hj : (j = tos ∧ Called new) ∨ names j)
    (hframes : ∀ g ∈ fs, g.WellFormed ∧ ∀ cm ∈ g.controlMsg, cm.nodeid = j) :
    Canvass tos names n (t, n.2 ++ new) fs := by
  have hj' : (j = tos ∧ Called (n.2 ++ new)) ∨ names j :=
    hj.imp_left fun hown => ⟨hown.1, called_append.mpr (.inr hown.2)⟩
  refine ⟨⟨fun hoff => absurd hoff hradio, ?_, ?_, ?_, hstrays.trans h.strays⟩,
    List.subset_append_left _ _, ?_, ?_⟩
  · rw [htype, called_append, h.called]
  · intro hpsp
    rcases htype.mp hpsp with hbefore | hnow
    · exact (hmarked tos).mpr (.inr (h.own hbefore))
    · exact (hmarked tos).mpr (.inl (hcalled hnow).symm)
  · intro u hu
    rcases told_append.mp hu with hold | hnew
    · exact (hmarked u).mpr (.inr (h.told u hold))
    · exact (hmarked u).mpr (.inl (htold u hnew))
  · intro i hi
    rcases (hmarked i).mp hi with rfl | hold
    · exact .inr hj'
    · exact .inl hold
  · intro g hg
    obtain ⟨hwell, hnames⟩ := hframes g hg
    refine ⟨hwell, fun cm hcm => ?_⟩
    rw [hnames cm hcm]
    exact hj'

theorem passed_of_takes {f : Frame} {s : State} (h : s.Takes tos f) : passed tos f s = [f] :=
  if_pos h

theorem passed_of_not_takes {f : Frame} {s : State} (h : ¬ s.Takes tos f) : passed tos f s = [] :=
  if_neg h

theorem passed_asleep {f : Frame} {s : State} (h : s.radio = .off) : passed tos f s = [] :=
  if_neg fun htaken => by simp [htaken.1] at h

/-- The length of a control frame is right, and the table has room for its name. -/
theorem Informed.hear (h : Informed tos n) (htos : tos.val < pspTableSize) {f : Frame}
    (hf : ∀ cm ∈ f.controlMsg, f.WellFormed ∧ cm.nodeid.val < pspTableSize) (ans : Answers) :
    Canvass tos (fun i => ∃ cm ∈ f.controlMsg, cm.nodeid = i) n
      ((hear tos ans f n.1).1, n.2 ++ passed tos f n.1) (hear tos ans f n.1).2 := by
  have hclock := clock_hear tos n.1 ans f
  have hhearing := hear_hearing tos ans f n.1
  generalize (Routing.hear tos ans f n.1).1 = t, (Routing.hear tos ans f n.1).2 = fs
    at hclock hhearing ⊢
  have hradio : t.radio = n.1.radio := (Prod.mk.inj hclock).2
  have hon : n.1.Takes tos f → t.radio ≠ .off := by
    intro htaken
    simp [hradio, htaken.1]
  cases hhearing with
  | aside hidle hpoll hframes =>
    apply h.still hpoll (fun hoff => hradio ▸ hoff) hframes passed_asleep
    · by_cases htaken : n.1.Takes tos f
      · simp [passed_of_takes htaken, (hidle htaken).1]
      · simp [passed_of_not_takes htaken, Called]
    · intro u
      by_cases htaken : n.1.Takes tos f
      · rw [passed_of_takes htaken, told_singleton]
        rintro ⟨cm, hcm, -⟩
        have hsome : f.controlMsg ≠ none := by simp [Option.mem_def.mp hcm]
        exact (hidle htaken).2 hsome (hf cm hcm).1
      · simp [passed_of_not_takes htaken, Told]
  | called htaken hcall hpoll hframes =>
    have hcalled : Called [f] := called_singleton.mpr hcall
    have htype : t.type = .psp := (congrArg Poll.type hpoll).trans (type_mark _ _)
    rw [passed_of_takes htaken]
    apply h.learn (hon htaken) (j := tos)
    · exact (congrArg Poll.strays hpoll).trans (strays_mark htos _)
    · exact fun i => (marked_congr hpoll i).trans (marked_mark htos _ i)
    · exact iff_of_true htype (.inr hcalled)
    · exact fun _ => rfl
    · simp [controlMsg_of_isCall hcall]
    · exact .inl ⟨rfl, hcalled⟩
    · exact fun g hg => (hframes g hg).symm
  | @told cm htaken hcm hwell hpoll hframes =>
    have hcall : ¬ Called [f] := by
      rw [called_singleton]
      intro hcall
      simp [controlMsg_of_isCall hcall] at hcm
    have htype : t.type = n.1.type := (congrArg Poll.type hpoll).trans (type_mark _ _)
    obtain ⟨-, hlt⟩ := hf cm hcm
    rw [passed_of_takes htaken]
    apply h.learn (hon htaken) (j := cm.nodeid)
    · exact (congrArg Poll.strays hpoll).trans (strays_mark hlt _)
    · exact fun i => (marked_congr hpoll i).trans (marked_mark hlt _ i)
    · rw [htype, or_iff_left hcall]
    · exact fun hcalled => absurd hcalled hcall
    · simp [hcm]
    · exact .inr ⟨cm, hcm, rfl⟩
    · intro g hg
      obtain ⟨-, hcm', hwell'⟩ := hframes g hg
      simp [hcm', hwell']

/-- A node that boots has heard of nobody. -/
theorem Informed.booted (h : Informed tos n) (hoff : n.1.radio = .off) (names : Word16 → Prop) :
    Canvass tos names n (booted tos n.1, n.2 ++ []) [] := by
  have hreceived : n.2 = [] := h.asleep hoff
  have hnot : ¬ Called n.2 := by simp [hreceived, Called]
  have hbefore : n.1.type ≠ .psp := fun hpsp => hnot (h.called.mp hpsp)
  have htype : (Routing.booted tos n.1).type ≠ .psp := by
    unfold Routing.booted
    dsimp only
    split
    · simp
    · exact hbefore
  obtain ⟨type, radio, heq⟩ := booted_eq tos n.1
  rw [heq] at htype ⊢
  rw [List.append_nil]
  refine ⟨⟨?_, ?_, ?_, h.told, h.strays⟩, List.Subset.refl _, fun i hi => .inl hi, by simp⟩
  · exact fun _ => hreceived
  · exact iff_of_false htype hnot
  · exact fun hpsp => absurd hpsp htype

theorem Informed.act (h : Informed tos n) (htos : tos.val < pspTableSize) {e : Event} {t : State}
    {fs : List Frame} (hhandle : handle tos e n.1 = some (t, fs)) :
    Canvass tos (fun _ => False) n (t, n.2 ++ passedOwn tos e n.1) fs := by
  cases handle_polling hhandle with
  | booted hoff => exact h.booted hoff _
  | aside hpoll hradio hframes hsource =>
    have hnone : passedOwn tos e n.1 = [] := by
      cases e with
      | sourceData source destination len bm ans =>
        exact (hsource source destination len bm ans rfl).elim
      | _ => rfl
    rw [hnone]
    apply h.still hpoll ?_ hframes (fun _ => rfl) (by simp [Called]) (by simp [Told])
    intro hoff
    by_contra hon
    exact hradio hon hoff
  | @sourceData source destination len bm ans _ _ hhear =>
    have hstep := h.hear htos (f := ⟨source, destination, len, .beacon bm⟩)
      (by simp [Frame.controlMsg]) ans
    rw [hhear] at hstep
    have hnames : (fun i => ∃ cm ∈ Frame.controlMsg ⟨source, destination, len, .beacon bm⟩,
        cm.nodeid = i) = fun _ => False := by
      funext i
      simp [Frame.controlMsg]
    rw [hnames] at hstep
    exact hstep

end Step

section Run
variable {V : Type} {id : V → Word16}

/-- The nodes of the network with what they have received. -/
abbrev Census (V : Type) := Network.Config (fun _ : V => State × List Frame) Frame

/-- The node `i` has received a broadcast data frame. -/
def Caller (id : V → Word16) (c : Census V) (i : Word16) : Prop :=
  ∃ w, id w = i ∧ Called (c.node w).2

/-- Every entry that is set and every name on the air is that of a node which was called. -/
structure Valid (id : V → Word16) (c : Census V) : Prop where
  informed : ∀ v, Informed (id v) (c.node v)
  marks : ∀ v i, (c.node v).1.Marked i → Caller id c i
  frames : ∀ u f, (u, f) ∈ c.log → ∀ cm ∈ f.controlMsg, f.WellFormed ∧ Caller id c cm.nodeid

variable [DecidableEq V]

theorem Valid.put {c : Census V} (h : Valid id c) {v : V} {n : State × List Frame}
    {fs : List Frame} {names : Word16 → Prop} (hnames : ∀ i, names i → Caller id c i)
    (hv : Canvass (id v) names (c.node v) n fs) : Valid id (c.put v n fs) := by
  have hkeep : ∀ i, Caller id c i → Caller id (c.put v n fs) i := by
    rintro i ⟨w, rfl, hcalled⟩
    refine ⟨w, rfl, ?_⟩
    by_cases hw : w = v
    · subst hw
      rw [c.put_node_self]
      exact hcalled.mono hv.received
    · rwa [c.put_node_of_ne n fs hw]
  have hnew : ∀ i, (i = id v ∧ Called n.2) ∨ names i → Caller id (c.put v n fs) i := by
    rintro i (⟨rfl, hcalled⟩ | hname)
    · exact ⟨v, rfl, (c.put_node_self v n fs).symm ▸ hcalled⟩
    · exact hkeep i (hnames i hname)
  constructor
  · exact Network.Config.forall_put_node (P := fun w n => Informed (id w) n) hv.informed
      (fun w _ => h.informed w) fs
  · intro w i hi
    by_cases hw : w = v
    · subst hw
      rw [c.put_node_self] at hi
      rcases hv.marks i hi with hold | hown
      · exact hkeep i (h.marks w i hold)
      · exact hnew i hown
    · rw [c.put_node_of_ne n fs hw] at hi
      exact hkeep i (h.marks w i hi)
  · intro u f hf cm hcm
    rcases Network.Config.mem_put_log.mp hf with hold | ⟨rfl, hsent⟩
    · exact (h.frames u f hold cm hcm).imp_right (hkeep _)
    · obtain ⟨hwell, hname⟩ := hv.frames f hsent
      exact ⟨hwell, hnew _ (hname cm hcm)⟩

omit [DecidableEq V] in
theorem valid_init : Valid id ⟨fun _ : V => ({}, []), [], []⟩ where
  informed := fun v =>
    { asleep := fun _ => rfl
      called := by simp [Called]
      own := by simp
      told := by simp [Told]
      strays := rfl }
  marks := by simp [State.Marked]
  frames := by simp

theorem valid_of_reachable (hid : ∀ v, (id v).val < pspTableSize) {c : Census V}
    (hreach : (recorded id).system.Reachable System.anyStep c) : Valid id c := by
  apply hreach.invariant (P := Valid id) valid_init
  intro c e c' h _ hstep
  obtain ⟨v, a, n, fs, rfl, hhandle, rfl⟩ | ⟨i, v, ans, u, f, rfl, hi, rfl⟩ :=
    (recorded id).system_step hstep
  · obtain ⟨⟨t, gs⟩, hact, heq⟩ := Option.map_eq_some_iff.mp hhandle
    obtain ⟨rfl, rfl⟩ := Prod.mk.inj heq
    exact h.put (by simp) ((h.informed v).act (hid v) hact)
  · have hlog := h.frames u f (List.mem_of_getElem? hi)
    have hroom : ∀ cm ∈ f.controlMsg, f.WellFormed ∧ cm.nodeid.val < pspTableSize := by
      intro cm hcm
      obtain ⟨hwell, w, hw, -⟩ := hlog cm hcm
      exact ⟨hwell, hw ▸ hid w⟩
    have hput := h.put (fun i ⟨cm, hcm, hname⟩ => hname ▸ (hlog cm hcm).2)
      ((h.informed v).hear (hid v) hroom ans)
    exact ⟨hput.informed, hput.marks, hput.frames⟩

omit [DecidableEq V] in
/-- A smaller name that a node was told keeps it from the role. -/
theorem Valid.outvoted {c : Census V} (h : Valid id c) {v : V} {u : Word16} (hu : u < id v)
    (htold : Told u (c.node v).2) : isSP (id v) (c.node v).1 = false := by
  rw [Bool.eq_false_iff]
  intro helected
  have hleast := ((isSP_iff _ _).mp helected).2 u ((h.informed v).told u htold)
  exact absurd hu (not_lt.mpr hleast)

omit [DecidableEq V] in
/-- Where all potential speakers know of each other, the least of them is elected. -/
theorem Valid.elected_iff {c : Census V} (h : Valid id c)
    (hknown : ∀ v w, (c.node v).1.type = .psp → (c.node w).1.type = .psp → v ≠ w →
      Told (id w) (c.node v).2) {v : V} (hv : (c.node v).1.type = .psp) :
    isSP (id v) (c.node v).1 = true ↔ ∀ w, (c.node w).1.type = .psp → id v ≤ id w := by
  rw [isSP_iff]
  constructor
  · rintro ⟨-, hleast⟩ w hw
    by_cases hvw : v = w
    · rw [hvw]
    · exact hleast (id w) ((h.informed v).told _ (hknown v w hv hw hvw))
  · intro hleast
    refine ⟨(h.informed v).own hv, fun i hi => ?_⟩
    obtain ⟨w, rfl, hcalled⟩ := h.marks v i hi
    exact hleast w ((h.informed w).called.mpr hcalled)

/-- The election is valid, a potential speaker that was told of a smaller one never comes
back, and once all know of each other exactly the least is the speaker. -/
theorem speaker_elected {V : Type} [DecidableEq V] {id : V → Word16}
    (hinj : Function.Injective id) (hid : ∀ v, (id v).val < pspTableSize) {c : Census V}
    (hreach : (recorded id).system.Reachable System.anyStep c) :
    (∀ v i, (c.node v).1.isPSP i = true → ∃ w, (id w).val = i.val ∧ Called (c.node w).2) ∧
    (∀ v u, u < id v → Told u (c.node v).2 → ∀ es c',
      (recorded id).system.runFrom c es = some c' → isSP (id v) (c'.node v).1 = false) ∧
    ((∀ v w, (c.node v).1.type = .psp → (c.node w).1.type = .psp → v ≠ w →
        Told (id w) (c.node v).2) →
      (∃ v, (c.node v).1.type = .psp) →
      ∃ v, (c.node v).1.type = .psp ∧ (∀ w, (c.node w).1.type = .psp → id v ≤ id w) ∧
        ∀ w, (c.node w).1.type = .psp → (isSP (id w) (c.node w).1 = true ↔ w = v)) := by
  have hvalid := valid_of_reachable hid hreach
  refine ⟨?_, ?_, ?_⟩
  · intro v i hi
    have hlt : i.val < 2 ^ 16 := i.isLt.trans (by decide)
    obtain ⟨w, hw, hcalled⟩ := hvalid.marks v ⟨i.val, hlt⟩ ⟨i.isLt, hi⟩
    exact ⟨w, congrArg Fin.val hw, hcalled⟩
  · intro v u hu htold es c' hrun
    have hreach' := System.runFrom_invariant (P := (recorded id).system.Reachable System.anyStep)
      es (fun e _ s s' hs hstep => hs.step trivial hstep) hreach hrun
    exact (valid_of_reachable hid hreach').outvoted hu
      (htold.mono (Network.notes_runFrom hrun v).subset)
  · intro hknown hsome
    obtain ⟨v, hv, hmin⟩ := (InvImage.wf id wellFounded_lt).has_min
      {v | (c.node v).1.type = .psp} hsome
    have hleast : ∀ w, (c.node w).1.type = .psp → id v ≤ id w := fun w hw => not_lt.mp (hmin w hw)
    refine ⟨v, hv, hleast, fun w hw => ?_⟩
    rw [hvalid.elected_iff hknown hw]
    constructor
    · intro hall
      exact hinj (le_antisymm (hall v hv) (hleast w hw))
    · rintro rfl
      exact hleast

end Run

abbrev twoCandidates : Fin 2 → Word16 := ![2, 3]

/-- A source has called both, and they have heard each other. -/
def calledPair : List (Network.Event (fun _ : Fin 2 => Event) fun _ => Answers) :=
  [.act 0 .booted, .act 0 (.startDone .success), .act 1 .booted, .act 1 (.startDone .success),
    .act 0 (.sourceData 100 broadcastAddr sizeofBeaconMsg sample granting),
    .act 1 (.sourceData 100 broadcastAddr sizeofBeaconMsg sample granting),
    .deliver 0 1 granting, .deliver 1 0 granting]

theorem speaker_elected_pair :
    ∃ c, (recorded twoCandidates).system.Reachable System.anyStep c ∧
      ∃ v, (c.node v).1.type = .psp ∧
        (∀ w, (c.node w).1.type = .psp → twoCandidates v ≤ twoCandidates w) ∧
        ∀ w, (c.node w).1.type = .psp →
          (isSP (twoCandidates w) (c.node w).1 = true ↔ w = v) := by
  have hinit : (recorded twoCandidates).system.Reachable System.anyStep _ := .init
  have hreach := System.reachable_of_runFrom hinit calledPair (by decide) rfl
  refine ⟨_, hreach, (speaker_elected (by decide) (by decide) hreach).2.2 ?_ ⟨0, rfl⟩⟩
  intro v w _ _ hne
  fin_cases v <;> fin_cases w
  · exact absurd rfl hne
  · exact ⟨_, .tail _ (.head _), _, rfl, rfl⟩
  · exact ⟨_, .tail _ (.head _), _, rfl, rfl⟩
  · exact absurd rfl hne

end WsnContest.Routing
