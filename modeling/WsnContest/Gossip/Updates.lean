import WsnContest.Gossip.Trace

/-! What becomes of an update. A node that learns something sends it, or leaves it to
`ResendTimer`; only a busy radio starts that timer, a send that failed does not. -/
namespace WsnContest.Gossip
open Tinyos Lib

/-- Something was learnt, and no frame with this status has been accepted since. -/
def Owing (status : TestSendMsg) : List Output → Prop
  | [] => False
  | o :: out => (o = .learnt ∧ .accepted ⟨sizeofTestSendMsg, status⟩ ∉ out) ∨ Owing status out

instance decidableOwing (status : TestSendMsg) : (out : List Output) → Decidable (Owing status out)
  | [] => .isFalse id
  | o :: out =>
    have := decidableOwing status out
    inferInstanceAs (Decidable ((o = .learnt ∧ _ ∉ out) ∨ Owing status out))

/-- After everything learnt the status as it is now has been accepted, or `ResendTimer`
is running. -/
def State.Spread (s : State) (out : List Output) : Prop :=
  ∀ pre post, out = pre ++ .learnt :: post →
    .accepted ⟨sizeofTestSendMsg, s.status⟩ ∈ post ∨ s.resendTimer = true

section Owing
variable {status : TestSendMsg} {out new : List Output}

theorem owing_iff : Owing status out ↔ ∃ pre post, out = pre ++ .learnt :: post ∧
    .accepted ⟨sizeofTestSendMsg, status⟩ ∉ post := by
  induction out with
  | nil => simp [Owing]
  | cons o out ih =>
    rw [Owing, ih]
    constructor
    · rintro (⟨rfl, hnone⟩ | ⟨pre, post, rfl, hnone⟩)
      · exact ⟨[], out, rfl, hnone⟩
      · exact ⟨o :: pre, post, rfl, hnone⟩
    · rintro ⟨pre, post, heq, hnone⟩
      cases pre with
      | nil =>
        obtain ⟨rfl, rfl⟩ := List.cons.inj heq
        exact .inl ⟨rfl, hnone⟩
      | cons o' pre =>
        obtain ⟨-, rfl⟩ := List.cons.inj heq
        exact .inr ⟨pre, post, rfl, hnone⟩

theorem spread_iff {s : State} : s.Spread out ↔ s.resendTimer = true ∨ ¬ Owing s.status out := by
  rw [owing_iff]
  constructor
  · intro hspread
    by_cases htimer : s.resendTimer = true
    · exact .inl htimer
    · right
      rintro ⟨pre, post, heq, hnone⟩
      exact (hspread pre post heq).elim hnone htimer
  · rintro (htimer | hnot) pre post heq
    · exact .inr htimer
    · left
      by_contra hnone
      exact hnot ⟨pre, post, heq, hnone⟩

theorem not_owing_of_not_mem (h : .learnt ∉ out) : ¬ Owing status out := by
  rw [owing_iff]
  rintro ⟨pre, post, rfl, -⟩
  simp at h

theorem owing_append : Owing status (out ++ new) ↔
    (Owing status out ∧ .accepted ⟨sizeofTestSendMsg, status⟩ ∉ new) ∨ Owing status new := by
  induction out with
  | nil => simp [Owing]
  | cons o out ih =>
    rw [List.cons_append, Owing, Owing, ih, List.mem_append, not_or]
    constructor
    · rintro (⟨hlearnt, hout, hnew⟩ | ⟨howing, hnew⟩ | hnew)
      · exact .inl ⟨.inl ⟨hlearnt, hout⟩, hnew⟩
      · exact .inl ⟨.inr howing, hnew⟩
      · exact .inr hnew
    · rintro (⟨⟨hlearnt, hout⟩ | howing, hnew⟩ | hnew)
      · exact .inl ⟨hlearnt, hout, hnew⟩
      · exact .inr (.inl ⟨howing, hnew⟩)
      · exact .inr (.inr hnew)

/-- Nothing is owed any more once the status is accepted. -/
theorem not_owing_accepted {fs : List Message} (h : ⟨sizeofTestSendMsg, status⟩ ∈ fs) :
    ¬ Owing status (out ++ fs.map .accepted) := by
  rw [owing_append, not_or]
  constructor
  · rintro ⟨-, hnone⟩
    exact hnone (List.mem_map_of_mem h)
  · exact not_owing_of_not_mem (by simp)

end Owing

section Steps
variable {p : Settings} {s t : State} {log out : List Output}

theorem State.Spread.keep (h : s.Spread log) (hstatus : t.status = s.status)
    (htimer : s.resendTimer = true → t.resendTimer = true) (hnone : .learnt ∉ out) :
    t.Spread (log ++ out) := by
  rw [spread_iff] at h ⊢
  refine h.imp htimer fun hnot howing => ?_
  rw [hstatus, owing_append, or_iff_left (not_owing_of_not_mem hnone)] at howing
  exact hnot howing.1

theorem spread_of_not_mem (h : .learnt ∉ log) : s.Spread log :=
  spread_iff.mpr (.inr (not_owing_of_not_mem h))

theorem spread_of_not_owing (h : ¬ Owing s.status log) (hstatus : t.status = s.status)
    (hnone : .learnt ∉ out) : t.Spread (log ++ out) := by
  rw [spread_iff, hstatus, owing_append, or_iff_left (not_owing_of_not_mem hnone)]
  exact .inr fun howing => h howing.1

/-- A node that owes its status is quits if the radio is busy, for `ResendTimer` is started
then, or takes the frame, or the timer was running before. -/
theorem sendStatus_spread_iff {sent : ErrorT} (hserial : s.serialReceived = true)
    (hroot : p.isRoot = false) (howing : Owing s.status log) :
    (sendStatus p sent s).1.Spread (log ++ (sendStatus p sent s).2.map .accepted) ↔
      s.busyRadio = true ∨ sent = .success ∨ s.resendTimer = true := by
  have hsending := sendStatus_sending p sent s
  generalize sendStatus p sent s = r at hsending
  cases hsending with
  | silent hsilent => simp [hserial, hroot] at hsilent
  | deferred _ _ hbusy => exact iff_of_true (spread_iff.mpr (.inl rfl)) (.inl hbusy)
  | taken hready hsent =>
    refine iff_of_true (spread_iff.mpr (.inr ?_)) (.inr (.inl hsent))
    exact not_owing_accepted (List.mem_singleton_self _)
  | failed hready hsent =>
    have hidle : s.busyRadio = false := by
      simp only [State.ready, Bool.and_eq_true, Bool.not_eq_true'] at hready
      exact hready.2
    rw [List.map_nil, List.append_nil, spread_iff]
    simp [hidle, hsent, howing]

/-- A send never stops `ResendTimer`. -/
theorem sendStatus_resendTimer (sent : ErrorT) (h : s.resendTimer = true) :
    (sendStatus p sent s).1.resendTimer = true := by
  have hsending := sendStatus_sending p sent s
  generalize sendStatus p sent s = r at hsending
  cases hsending with
  | silent => exact h
  | deferred => rfl
  | taken => exact h
  | failed => exact h

theorem receive_resendTimer (sent : ErrorT) (msg : Message) (h : s.resendTimer = true) :
    (receive p sent msg s).1.resendTimer = true := by
  rw [receive_eq]
  split
  · dsimp only
    split
    · exact sendStatus_resendTimer (s := { s.hear msg.payload with packet := msg }) sent h
    · exact h
  · exact h

/-- The frame says something that the node does not know. -/
def State.learns (msg : Message) (s : State) : Prop :=
  s.serialReceived = true ∧ msg.length = sizeofTestSendMsg ∧
    (s.status.max < msg.payload.max ∨ msg.payload.min < s.status.min)

instance (msg : Message) (s : State) : Decidable (s.learns msg) :=
  inferInstanceAs (Decidable (_ ∧ _ ∧ _))

theorem hears_learns {sent : ErrorT} {msg : Message} (h : s.learns msg) :
    hears p sent msg s = ((sendStatus p sent { s.hear msg.payload with packet := msg }).1,
      [.heard msg.payload, .learnt] ++
        (sendStatus p sent { s.hear msg.payload with packet := msg }).2.map .accepted) := by
  obtain ⟨hserial, hlen, hnews⟩ := h
  have hspeaks : s.speaks p msg.payload = true := by simp [State.speaks, hnews]
  have hne : s.status ⊔ msg.payload ≠ s.status := by
    intro heq
    obtain ⟨hmax, hmin⟩ := sup_eq_left.mp heq
    exact hnews.elim (not_lt.mpr hmax) (not_lt.mpr hmin)
  have hreceive : receive p sent msg s =
      sendStatus p sent { s.hear msg.payload with packet := msg } := by
    rw [receive_eq, if_pos hlen]
    dsimp only
    rw [if_pos hspeaks]
  have hstatus : (receive p sent msg s).1.status = s.status ⊔ msg.payload := by
    rw [receive_status, if_pos hlen]
  unfold hears arrival
  rw [hstatus, if_pos hlen, if_pos ⟨hserial, hne⟩, hreceive]
  rfl

/-- Otherwise a node that has its number stays as it is. -/
theorem hears_same {sent : ErrorT} {msg : Message} (h : ¬ s.learns msg) :
    (s.serialReceived = true → (hears p sent msg s).1.status = s.status) ∧
    (s.resendTimer = true → (hears p sent msg s).1.resendTimer = true) ∧
    .learnt ∉ (hears p sent msg s).2 := by
  have hstatus : s.serialReceived = true → (receive p sent msg s).1.status = s.status := by
    intro hserial
    rw [receive_status]
    split
    · next hlen =>
      have hold : ¬ (s.status.max < msg.payload.max ∨ msg.payload.min < s.status.min) :=
        fun hnews => h ⟨hserial, hlen, hnews⟩
      rw [not_or, not_lt, not_lt] at hold
      exact sup_eq_left.mpr hold
    · rfl
  refine ⟨hstatus, receive_resendTimer sent msg, ?_⟩
  have hnot : ¬ (s.serialReceived = true ∧ (receive p sent msg s).1.status ≠ s.status) :=
    fun hchange => hchange.2 (hstatus hchange.1)
  unfold hears arrival
  rw [if_neg hnot]
  simp only [List.append_nil, List.mem_append, List.mem_map, not_or]
  refine ⟨?_, by simp⟩
  split <;> simp

/-- The update is put off by a busy radio, or taken, or `ResendTimer` is running. -/
def State.Carries (sent : ErrorT) (msg : Message) (s : State) : Prop :=
  s.learns msg → s.busyRadio = true ∨ sent = .success ∨ s.resendTimer = true

/-- What is owed when `ResendTimer` fires is put off by a busy radio, or taken. -/
def Repeats (sent : ErrorT) (s : State × List Output) : Prop :=
  Owing s.1.status s.2 → s.1.busyRadio = true ∨ sent = .success

instance (sent : ErrorT) (msg : Message) (s : State) : Decidable (s.Carries sent msg) :=
  inferInstanceAs (Decidable (_ → _))

instance (sent : ErrorT) (s : State × List Output) : Decidable (Repeats sent s) :=
  inferInstanceAs (Decidable (_ → _))

/-- Only a node that is `ripe` has learnt, and it has spread what it learnt. -/
structure Diligent (ripe : State → Prop) (s : State × List Output) : Prop where
  ripe : .learnt ∈ s.2 → ripe s.1
  spread : s.1.Spread s.2

/-- What a step ends in, and that it loses no update exactly if it is `careful`. -/
structure Judged (ripe : State → Prop) (s : State × List Output) (careful : Prop) : Prop where
  ripe : .learnt ∈ s.2 → ripe s.1
  spread_iff : s.1.Spread s.2 ↔ careful

section Diligent
variable {ripe : State → Prop}

theorem Diligent.judged {s : State × List Output} (h : Diligent ripe s) {careful : Prop}
    (hcareful : careful) : Judged ripe s careful :=
  ⟨h.ripe, iff_of_true h.spread hcareful⟩

theorem Diligent.still (hs : Diligent ripe (s, log)) (hripe : ripe s → ripe t)
    (hstatus : t.status = s.status) (htimer : s.resendTimer = true → t.resendTimer = true)
    (hnone : .learnt ∉ out) : Diligent ripe (t, log ++ out) := by
  refine ⟨fun hlearnt => ?_, hs.spread.keep hstatus htimer hnone⟩
  exact hripe (hs.ripe ((List.mem_append.mp hlearnt).resolve_right hnone))

/-- A node that has learnt nothing owes nothing. -/
theorem Diligent.fresh (hs : Diligent ripe (s, log)) (hnot : ¬ ripe s) (hnone : .learnt ∉ out) :
    Diligent ripe (t, log ++ out) := by
  have hlog : .learnt ∉ log ++ out := by
    rw [List.mem_append, not_or]
    exact ⟨fun hlearnt => hnot (hs.ripe hlearnt), hnone⟩
  exact ⟨fun hlearnt => absurd hlearnt hlog, spread_of_not_mem hlog⟩

theorem Diligent.hears_judged (hs : Diligent ripe (s, log)) (hroot : p.isRoot = false)
    {sent : ErrorT} {msg : Message} (hserial : ripe s ↔ s.serialReceived = true)
    (hripe : ripe s → ripe (hears p sent msg s).1) :
    Judged ripe ((hears p sent msg s).1, log ++ (hears p sent msg s).2)
      (s.Carries sent msg) := by
  by_cases hlearns : s.learns msg
  · have howing : Owing ({ s.hear msg.payload with packet := msg } : State).status
        (log ++ [.heard msg.payload, .learnt]) := by
      rw [owing_append]
      exact .inr (.inr (.inl ⟨rfl, List.not_mem_nil⟩))
    have hiff := @sendStatus_spread_iff p { s.hear msg.payload with packet := msg } _ sent
      hlearns.1 hroot howing
    have hout := @hears_learns p s sent msg hlearns
    have hspread : (hears p sent msg s).1.Spread (log ++ (hears p sent msg s).2) ↔
        s.busyRadio = true ∨ sent = .success ∨ s.resendTimer = true := by
      rw [hout, ← List.append_assoc]
      exact hiff
    constructor
    · exact fun _ => hripe (hserial.mpr hlearns.1)
    · exact hspread.trans ⟨fun h _ => h, fun hcarries => hcarries hlearns⟩
  · obtain ⟨hstatus, htimer, hnone⟩ := @hears_same p s sent msg hlearns
    have hcarries : s.Carries sent msg := fun h => absurd h hlearns
    by_cases hnow : ripe s
    · exact (hs.still hripe (hstatus (hserial.mp hnow)) htimer hnone).judged hcarries
    · exact (hs.fresh hnow hnone).judged hcarries

/-- `ResendTimer` stops when it fires. -/
theorem Diligent.resend_judged (hs : Diligent ripe (s, log)) (hroot : p.isRoot = false)
    {sent : ErrorT} (hserial : ripe s → s.serialReceived = true)
    (hripe : ripe s → ripe (sendStatus p sent { s with resendTimer := false }).1) :
    Judged ripe ((sendStatus p sent { s with resendTimer := false }).1,
        log ++ (sendStatus p sent { s with resendTimer := false }).2.map .accepted)
      (Repeats sent (s, log)) := by
  constructor
  · intro hlearnt
    exact hripe (hs.ripe ((List.mem_append.mp hlearnt).resolve_right (by simp)))
  by_cases howing : Owing s.status log
  · have hlearnt : .learnt ∈ log := by
      by_contra hnone
      exact not_owing_of_not_mem hnone howing
    have hiff := @sendStatus_spread_iff p { s with resendTimer := false } log sent
      (hserial (hs.ripe hlearnt)) hroot howing
    have hfalse : ¬ ({ s with resendTimer := false } : State).resendTimer = true := nofun
    rw [or_iff_left hfalse] at hiff
    exact hiff.trans ⟨fun h _ => h, fun hrepeats => hrepeats howing⟩
  · refine iff_of_true ?_ fun h => absurd h howing
    exact spread_of_not_owing (s := { s with resendTimer := false }) howing
      (sendStatus_status ..) (by simp)

/-- A run of steps that are judged. -/
theorem judged_run {E : Type} {m : Machine State E Output}
    {careful : State × List Output → E → Prop} (hinit : Diligent ripe m.system.init)
    (hstep : ∀ s log e t out, Diligent ripe (s, log) → m.step s e = some (t, out) →
      Judged ripe (t, log ++ out) (careful (s, log) e))
    (es : List E) {s : State × List Output} (hrun : m.system.run es = some s) :
    m.system.Always (fun s => s.1.Spread s.2) m.system.init es ↔
      m.system.AllowedFrom careful m.system.init es := by
  apply Machine.always_iff_allowedFrom (Diligent ripe) (fun _ hs => hs.spread) ?_ es hinit hrun
  intro s e t out hs he
  have hjudged := hstep s.1 s.2 e t out hs he
  exact ⟨fun hcareful => ⟨hjudged.ripe, hjudged.spread_iff.mpr hcareful⟩, hjudged.spread_iff.mp⟩

end Diligent

end Steps

end WsnContest.Gossip

namespace WsnContest.BiDaXiao
open Tinyos Gossip Lib

/-- The step loses no update. -/
def Careful (s : State × List Output) : NodeEvent Event → Prop
  | .heard sent msg => s.1.Carries sent msg
  | .own (.resendTimerFired sent) => Repeats sent s
  | .own (.startDone _) | .own .milliTimerFired | .own (.sendTimerFired _)
  | .own (.sendDone _) | .own (.serialReceive ..) => True

instance (s : State × List Output) : (e : NodeEvent Event) → Decidable (Careful s e)
  | .heard sent msg => inferInstanceAs (Decidable (s.1.Carries sent msg))
  | .own (.resendTimerFired sent) => inferInstanceAs (Decidable (Repeats sent s))
  | .own (.startDone _) | .own .milliTimerFired | .own (.sendTimerFired _)
  | .own (.sendDone _) | .own (.serialReceive ..) => .isTrue trivial

def HasNumber (s : State) : Prop := s.serialReceived = true

theorem careful_step {p : Settings} (hroot : p.isRoot = false) {s t : State}
    {log out : List Output} (hs : Diligent HasNumber (s, log)) {e : NodeEvent Event}
    (h : nodeStep p s e = some (t, out)) :
    Judged HasNumber (t, log ++ out) (Careful (s, log) e) := by
  cases nodeStep_effect h with
  | startDone err =>
    obtain ⟨milliTimer, heq⟩ := startDone_eq err s
    rw [heq]
    refine Diligent.judged ?_ trivial
    exact hs.still id rfl id (by simp)
  | ticked =>
    obtain ⟨timeCount, stableCount, resultSent, heq⟩ := milliTimerFired_eq p s
    rw [heq]
    refine Diligent.judged ?_ trivial
    exact hs.still id rfl id (by simp [ticking])
  | sendTimerFired sent =>
    refine Diligent.judged (hs.still ?_ (by simp) ?_ (by simp)) trivial
    · simp [HasNumber]
    · exact sendStatus_resendTimer (s := { s with sendTimer := none }) sent
  | resendTimerFired sent => exact hs.resend_judged hroot id (by simp [HasNumber])
  | sendDone err =>
    refine Diligent.judged (hs.still ?_ ?_ ?_ (by simp)) trivial
    · unfold sendDone HasNumber
      dsimp only
      split <;> exact id
    · unfold sendDone
      dsimp only
      split <;> rfl
    · unfold sendDone
      dsimp only
      split
      · exact id
      · exact fun _ => rfl
  | numbered rcm hserial =>
    refine Diligent.judged (hs.fresh ?_ (by simp)) trivial
    simp [HasNumber, hserial]
  | ignored => exact Diligent.judged (hs.still id rfl id (by simp)) trivial
  | heard sent msg =>
    refine hs.hears_judged hroot Iff.rfl fun hserial => ?_
    exact (receive_serialReceived p sent msg s).trans hserial

end WsnContest.BiDaXiao

namespace WsnContest.MinMax
open Tinyos Gossip Lib

/-- The step loses no update. -/
def Careful (s : State × List Output) : NodeEvent Event → Prop
  | .heard sent msg => s.1.Carries sent msg
  | .own (.resendTimerFired sent) => Repeats sent s
  | .own (.startDone ..) | .own .milliTimerFired | .own (.sendDone _)
  | .own (.serialReceive ..) => True

instance (s : State × List Output) : (e : NodeEvent Event) → Decidable (Careful s e)
  | .heard sent msg => inferInstanceAs (Decidable (s.1.Carries sent msg))
  | .own (.resendTimerFired sent) => inferInstanceAs (Decidable (Repeats sent s))
  | .own (.startDone ..) | .own .milliTimerFired | .own (.sendDone _)
  | .own (.serialReceive ..) => .isTrue trivial

/-- The start sets the status too; after it a node that has its number keeps it. -/
def Serving (s : State) : Prop := s.serialReceived = true ∧ s.milliTimer = true

section Steps
variable {sim : Bool} {p : Settings} {s t : State} {log out : List Output}

theorem nodeStep_own {e : Event} (h : nodeStep sim p s (.own e) = some (t, out)) :
    ∃ fs, handle sim p e s = some (t, fs) ∧ out = notes p s t e ++ fs.map .accepted ∧
      ∀ err sent, e = .startDone err sent → s.milliTimer = false := by
  have hpair : ∀ {e : Event}, (handle sim p e s).map
        (fun r => (r.1, notes p s r.1 e ++ r.2.map .accepted)) = some (t, out) →
      ∃ fs, handle sim p e s = some (t, fs) ∧ out = notes p s t e ++ fs.map .accepted := by
    intro e h
    obtain ⟨⟨u, fs⟩, hhandle, hpair⟩ := Option.map_eq_some_iff.mp h
    obtain ⟨rfl, rfl⟩ := Prod.mk.inj hpair
    exact ⟨fs, hhandle, rfl⟩
  cases e with
  | startDone err sent =>
    obtain ⟨hoff, hrun⟩ := Option.ite_none_right_eq_some.mp h
    obtain ⟨fs, hhandle, hout⟩ := hpair hrun
    exact ⟨fs, hhandle, hout, fun _ _ _ => hoff⟩
  | milliTimerFired =>
    obtain ⟨fs, hhandle, hout⟩ := hpair h
    exact ⟨fs, hhandle, hout, by simp⟩
  | resendTimerFired sent =>
    obtain ⟨fs, hhandle, hout⟩ := hpair h
    exact ⟨fs, hhandle, hout, by simp⟩
  | sendDone err =>
    obtain ⟨fs, hhandle, hout⟩ := hpair h
    exact ⟨fs, hhandle, hout, by simp⟩
  | serialReceive len rcm sent =>
    obtain ⟨fs, hhandle, hout⟩ := hpair (e := .serialReceive len rcm sent) h
    exact ⟨fs, hhandle, hout, by simp⟩

theorem learnt_numbering (s t : State) : .learnt ∉ numbering s t := by
  unfold numbering
  split
  · simp
  · simp

theorem learnt_notes (e : Event) (fs : List Message) :
    .learnt ∉ notes p s t e ++ fs.map Output.accepted := by
  rw [List.mem_append, not_or]
  refine ⟨?_, by simp⟩
  cases e with
  | milliTimerFired => simp [notes, ticking]
  | startDone err sent => exact learnt_numbering s t
  | serialReceive len rcm sent => exact learnt_numbering s t
  | resendTimerFired sent => simp [notes]
  | sendDone err => simp [notes]

theorem diligent_unmoved (hs : Diligent Serving (s, log)) (h : Unmoved s t)
    (hnone : .learnt ∉ out) : Diligent Serving (t, log ++ out) := by
  refine hs.still (fun hserving => ?_) h.status (fun htimer => ?_) hnone
  · exact ⟨h.serialReceived.trans hserving.1, h.milliTimer.trans hserving.2⟩
  · exact h.resendTimer.trans htimer

theorem careful_step (hroot : p.isRoot = false) (hs : Diligent Serving (s, log))
    {e : NodeEvent Event} (h : nodeStep sim p s e = some (t, out)) :
    Judged Serving (t, log ++ out) (Careful (s, log) e) := by
  cases e with
  | heard sent msg =>
    obtain ⟨hon, hpair⟩ := Option.ite_none_right_eq_some.mp h
    obtain ⟨rfl, rfl⟩ := Prod.mk.inj (Option.some.inj hpair)
    apply hs.hears_judged hroot (and_iff_left hon)
    intro hserving
    exact ⟨(receive_serialReceived p sent msg s).trans hserving.1,
      (receive_milliTimer p sent msg s).trans hserving.2⟩
  | own e =>
    obtain ⟨fs, hhandle, rfl, hstart⟩ := nodeStep_own h
    have hnone := learnt_notes (p := p) (s := s) (t := t) e fs
    have hcases := handle_cases hhandle
    cases e with
    | startDone err sent =>
      refine (hs.fresh (fun hserving => ?_) hnone).judged trivial
      exact absurd hserving.2 (by simp [hstart err sent rfl])
    | milliTimerFired =>
      obtain ⟨_, he, _⟩ | ⟨_, _, he, _⟩ | ⟨_, he, _⟩ | ⟨-, hunmoved⟩ := hcases
      · cases he
      · cases he
      · cases he
      · exact (diligent_unmoved hs hunmoved hnone).judged trivial
    | resendTimerFired sent =>
      obtain ⟨-, hrun⟩ := Option.ite_none_right_eq_some.mp hhandle
      have hjudged := @Diligent.resend_judged p s log Serving hs hroot sent
        (fun hserving => hserving.1) (by simp [Serving])
      rw [show sendStatus p sent _ = (t, fs) from Option.some.inj hrun] at hjudged
      exact hjudged
    | sendDone err =>
      obtain ⟨_, he, _⟩ | ⟨_, _, he, _⟩ | ⟨_, he, _⟩ | ⟨-, hunmoved⟩ := hcases
      · cases he
      · cases he
      · cases he
      · exact (diligent_unmoved hs hunmoved hnone).judged trivial
    | serialReceive len rcm sent =>
      obtain ⟨_, he, _⟩ | ⟨_, _, he, hserial, _⟩ | ⟨_, he, _⟩ | ⟨-, hunmoved⟩ := hcases
      · cases he
      · refine (hs.fresh (fun hserving => ?_) hnone).judged trivial
        exact absurd hserving.1 (by simp [hserial])
      · cases he
      · exact (diligent_unmoved hs hunmoved hnone).judged trivial

end Steps

end WsnContest.MinMax

namespace WsnContest.Gossip
open Tinyos Lib

/-- In both programs, at every node but the root, no update is ever lost exactly if every
step of the run is careful. -/
theorem updates_kept_iff (sim : Bool) (tosNodeId : Word16) :
    ((BiDaXiao.settings tosNodeId).isRoot = false → ∀ es s,
      (BiDaXiao.machine tosNodeId).system.run es = some s →
      ((BiDaXiao.machine tosNodeId).system.Always (fun s => s.1.Spread s.2)
          (BiDaXiao.machine tosNodeId).system.init es ↔
        (BiDaXiao.machine tosNodeId).system.AllowedFrom BiDaXiao.Careful
          (BiDaXiao.machine tosNodeId).system.init es)) ∧
    ((MinMax.settings sim tosNodeId).isRoot = false → ∀ es s,
      (MinMax.machine sim tosNodeId).system.run es = some s →
      ((MinMax.machine sim tosNodeId).system.Always (fun s => s.1.Spread s.2)
          (MinMax.machine sim tosNodeId).system.init es ↔
        (MinMax.machine sim tosNodeId).system.AllowedFrom MinMax.Careful
          (MinMax.machine sim tosNodeId).system.init es)) := by
  constructor
  · intro hroot es s hrun
    have hinit : Diligent BiDaXiao.HasNumber (BiDaXiao.machine tosNodeId).system.init :=
      ⟨nofun, spread_of_not_mem List.not_mem_nil⟩
    apply judged_run hinit ?_ es hrun
    intro s log e t out hs hstep
    exact BiDaXiao.careful_step hroot hs hstep
  · intro hroot es s hrun
    have hinit : Diligent MinMax.Serving (MinMax.machine sim tosNodeId).system.init :=
      ⟨nofun, spread_of_not_mem List.not_mem_nil⟩
    apply judged_run hinit ?_ es hrun
    intro s log e t out hs hstep
    exact MinMax.careful_step hroot hs hstep

/-- A node of `BiDaXiao` has its number, and the send that says so is out. -/
def announced : List (NodeEvent BiDaXiao.Event) :=
  [.own (.startDone .success), .own (.serialReceive sizeofTestSerialMsg ⟨7, 5⟩),
    .own (.sendTimerFired .success)]

/-- The same in `min_max`. -/
def announcedPlain : List (NodeEvent MinMax.Event) :=
  [.own (.startDone .success .success),
    .own (.serialReceive sizeofTestSerialMsg ⟨7, 5⟩ .success)]

def update (sent : ErrorT) {E : Type} : NodeEvent E :=
  .heard sent ⟨sizeofTestSendMsg, ⟨12, 12⟩⟩

theorem updates_kept_taken :
    (BiDaXiao.machine 7).system.Always (fun s => s.1.Spread s.2)
        (BiDaXiao.machine 7).system.init (announced ++ [update .success]) ∧
      (MinMax.machine false 7).system.Always (fun s => s.1.Spread s.2)
        (MinMax.machine false 7).system.init (announcedPlain ++ [update .success]) :=
  ⟨((updates_kept_iff false 7).1 (by decide) _ _ rfl).mpr (by decide),
    ((updates_kept_iff false 7).2 (by decide) _ _ rfl).mpr (by decide)⟩

/-- An update that comes while the first frame is out meets `EBUSY`; nothing resends it,
not even after the `sendDone` of that frame. -/
theorem second_update_lost :
    (∃ s, (BiDaXiao.machine 7).system.run
        (announced ++ [update .ebusy, .own (.sendDone .success)]) = some s ∧
      s.1.status = ⟨12, 5⟩ ∧ ¬ s.1.Spread s.2) ∧
    ∃ s, (MinMax.machine false 7).system.run
        (announcedPlain ++ [update .ebusy, .own (.sendDone .success)]) = some s ∧
      s.1.status = ⟨12, 5⟩ ∧ ¬ s.1.Spread s.2 := by
  refine ⟨⟨_, rfl, rfl, ?_⟩, ⟨_, rfl, rfl, ?_⟩⟩
  · rw [spread_iff]
    decide
  · rw [spread_iff]
    decide

end WsnContest.Gossip
