import WsnContest.Routing.Data
import WsnContest.Routing.Election

/-! What the election is for. Of all the nodes that hear a packet of a source one passes it
on; which one that is does not change as long as no further node hears a source. -/
namespace WsnContest.Routing
open Tinyos Lib

section Nodes
variable {tos : Word16} {s : State}

/-- A potential speaker that is called again elects as it did before. -/
theorem isSP_announce (htos : tos.val < pspTableSize) (hown : s.Marked tos) (sent : ErrorT) :
    isSP tos (announce tos sent s).1 = isSP tos s := by
  have hmarked : ∀ i, (announce tos sent s).1.Marked i ↔ s.Marked i := by
    intro i
    rw [marked_congr (poll_announce tos s sent), marked_mark htos]
    constructor
    · rintro (rfl | hold)
      · exact hown
      · exact hold
    · exact .inr
  rw [Bool.eq_iff_iff, isSP_iff, isSP_iff, hmarked]
  simp only [hmarked]

theorem type_announce (sent : ErrorT) : (announce tos sent s).1.type = .psp :=
  (congrArg Poll.type (poll_announce tos s sent)).trans (type_mark _ _)

/-- A node that has announced itself before does not do so again. -/
theorem announce_locked (hlocked : s.locked = true) (sent : ErrorT) :
    (announce tos sent s).1.busy = s.busy ∧
      (announce tos sent s).1.curNexthopNodeId = s.curNexthopNodeId := by
  obtain ⟨isPSP, strays, hmark⟩ := mark_eq { s with type := .psp } tos
  unfold announce
  rw [hmark]
  simp [hlocked, State.fill]

/-- What is called passes the data on by the gate of its new state. -/
theorem hear_call {f : Frame} (hcall : f.isCall = true) (htaken : s.Takes tos f)
    (ans : Answers) : ∃ bm, f.payload = .beacon bm ∧ dataFrames (hear tos ans f s).2 =
      dataFrames
        (forward tos broadcastAddr bm ans.dataSent (announce tos ans.controlSent s).1).2 := by
  obtain ⟨source, destination, len, payload⟩ := f
  simp only [Frame.isCall, Bool.and_eq_true, beq_iff_eq] at hcall
  obtain ⟨⟨hbeacon, rfl⟩, rfl⟩ := hcall
  obtain ⟨bm, rfl⟩ := isBeacon_iff.mp hbeacon
  refine ⟨bm, rfl, ?_⟩
  rw [hear_of_takes htaken]
  dsimp only
  rw [dataReceive_snd, spread_broadcast, dataFrames_append, announce_data, List.nil_append]

/-- A potential speaker that is not elected keeps what it hears to itself. -/
theorem hear_outvoted {f : Frame} (hcall : f.isCall = true) (htos : tos.val < pspTableSize)
    (hown : s.Marked tos) (houtvoted : isSP tos s = false) (ans : Answers) :
    dataFrames (hear tos ans f s).2 = [] := by
  by_cases htaken : s.Takes tos f
  · obtain ⟨bm, -, hdata⟩ := hear_call hcall htaken ans
    rw [hdata]
    refine (forward_data tos _ broadcastAddr bm ans.dataSent).resolve_right ?_
    rintro ⟨-, helected | hnor, -⟩
    · rw [isSP_announce htos hown, houtvoted] at helected
      cases helected
    · rw [type_announce] at hnor
      cases hnor
  · rw [hear_of_not_takes htaken]
    rfl

/-- The speaker passes it on, if it is free to send. -/
theorem hear_elected {f : Frame} (hcall : f.isCall = true) (htos : tos.val < pspTableSize)
    (hown : s.Marked tos) (helected : isSP tos s = true) (hradio : s.radio = .on)
    (hbusy : s.busy = false) (hlocked : s.locked = true) {ans : Answers}
    (hsent : ans.dataSent = .success) :
    dataFrames (hear tos ans f s).2 = [airedBy tos s.curNexthopNodeId f.payload] := by
  have hcast : f.destination = broadcastAddr := by
    simp only [Frame.isCall, Bool.and_eq_true, beq_iff_eq] at hcall
    exact hcall.1.2
  obtain ⟨bm, hpayload, hdata⟩ := hear_call hcall ⟨hradio, .inr hcast⟩ ans
  obtain ⟨hidle, hnext⟩ : (announce tos ans.controlSent s).1.busy = s.busy ∧ _ :=
    announce_locked hlocked ans.controlSent
  have hspeaks := (isSP_announce htos hown ans.controlSent).trans helected
  rw [hdata, hpayload, ← hnext]
  generalize (announce tos ans.controlSent s).1 = t at hidle hspeaks
  rw [hbusy] at hidle
  have hgate : isSP tos (t.fill (.beacon bm)) = true := hspeaks
  unfold forward
  dsimp only
  rw [if_pos (by simp [hgate, hidle]), if_pos hsent]
  rfl

end Nodes

section Network
variable {V : Type} {id : V → Word16}

/-- Only nodes that are potential speakers already hear the packets of a source. -/
def Closed (id : V → Word16) (c : Census V) :
    Network.Event (fun _ : V => Event) (fun _ => Answers) → Prop
  | .act w e => Called (passedOwn (id w) e (c.node w).1) → (c.node w).1.type = .psp
  | .deliver i w _ => ∀ entry ∈ c.log[i]?,
      Called (passed (id w) entry.2 (c.node w).1) → (c.node w).1.type = .psp

variable [DecidableEq V] {c c' : Census V}

/-- The potential speakers stay the same. -/
theorem closed_step (hid : ∀ v, (id v).val < pspTableSize)
    (hreach : (recorded id).system.Reachable System.anyStep c)
    {e : Network.Event (fun _ : V => Event) (fun _ => Answers)} (hclosed : Closed id c e)
    (hstep : (recorded id).system.step c e = some c') (w : V) :
    (c'.node w).1.type = .psp ↔ (c.node w).1.type = .psp := by
  have hbefore := ((valid_of_reachable hid hreach).informed w).called
  have hafter := ((valid_of_reachable hid (hreach.step trivial hstep)).informed w).called
  rw [hafter, hbefore]
  have hnew : ∀ v (s : State) (new : List Frame) (fs : List Frame),
      (Called new → Called (c.node v).2) →
      (Called ((c.put v (s, (c.node v).2 ++ new) fs).node w).2 ↔ Called (c.node w).2) := by
    intro v s new fs hold
    by_cases hw : w = v
    · subst hw
      rw [c.put_node_self, called_append]
      exact or_iff_left_of_imp hold
    · rw [c.put_node_of_ne _ fs hw]
  have hpsp : ∀ v, (c.node v).1.type = .psp → Called (c.node v).2 := fun v =>
    ((valid_of_reachable hid hreach).informed v).called.mp
  obtain ⟨v, a, n, fs, rfl, hhandle, rfl⟩ | ⟨i, v, ans, u, f, rfl, hlog, rfl⟩ :=
    (recorded id).system_step hstep
  · obtain ⟨⟨t, gs⟩, -, hpair⟩ := Option.map_eq_some_iff.mp hhandle
    obtain ⟨rfl, rfl⟩ := Prod.mk.inj hpair
    exact hnew v t _ gs fun hcalled => hpsp v (hclosed hcalled)
  · exact hnew v _ _ [] fun hcalled => hpsp v (hclosed (u, f) hlog hcalled)

/-- All potential speakers know of each other, and `v` has the least id of them. -/
structure Speaks (id : V → Word16) (v : V) (c : Census V) : Prop where
  reach : (recorded id).system.Reachable System.anyStep c
  known : ∀ u w, (c.node u).1.type = .psp → (c.node w).1.type = .psp → u ≠ w →
    Told (id w) (c.node u).2
  candidate : (c.node v).1.type = .psp
  least : ∀ w, (c.node w).1.type = .psp → id v ≤ id w

omit [DecidableEq V] in
theorem exists_least (id : V → Word16) (hsome : ∃ v, (c.node v).1.type = .psp) :
    ∃ v, (c.node v).1.type = .psp ∧ ∀ w, (c.node w).1.type = .psp → id v ≤ id w := by
  obtain ⟨v, hv, hmin⟩ := (InvImage.wf id wellFounded_lt).has_min
    {v | (c.node v).1.type = .psp} hsome
  exact ⟨v, hv, fun w hw => not_lt.mp (hmin w hw)⟩

theorem Speaks.step (hid : ∀ v, (id v).val < pspTableSize) {v : V} (h : Speaks id v c)
    {e : Network.Event (fun _ : V => Event) (fun _ => Answers)} (hclosed : Closed id c e)
    (hstep : (recorded id).system.step c e = some c') : Speaks id v c' := by
  have hsame := closed_step hid h.reach hclosed hstep
  refine ⟨h.reach.step trivial hstep, fun u w hu hw hne => ?_, (hsame v).mpr h.candidate, ?_⟩
  · refine (h.known u w ((hsame u).mp hu) ((hsame w).mp hw) hne).mono ?_
    exact (Network.notes_step hstep u).subset
  · exact fun w hw => h.least w ((hsame w).mp hw)

theorem Speaks.marked (hid : ∀ v, (id v).val < pspTableSize) {v w : V} (h : Speaks id v c)
    (hw : (c.node w).1.type = .psp) : (c.node w).1.Marked (id w) :=
  ((valid_of_reachable hid h.reach).informed w).own hw

theorem Speaks.outvoted (hinj : Function.Injective id) (hid : ∀ v, (id v).val < pspTableSize)
    {v w : V} (h : Speaks id v c) (hw : (c.node w).1.type = .psp) (hne : w ≠ v) :
    isSP (id w) (c.node w).1 = false := by
  rw [Bool.eq_false_iff]
  intro helected
  have hall := ((valid_of_reachable hid h.reach).elected_iff h.known hw).mp helected
  exact hne (hinj (le_antisymm (hall v h.candidate) (h.least w hw)))

theorem Speaks.elected (hid : ∀ v, (id v).val < pspTableSize) {v : V} (h : Speaks id v c) :
    isSP (id v) (c.node v).1 = true :=
  ((valid_of_reachable hid h.reach).elected_iff h.known h.candidate).mpr h.least

/-- Once all potential speakers know of each other, and as long as no other node hears a
source, one and the same of them passes on what they all hear: the others are silent, and it
sends a copy to its next hop whenever it is free to. -/
theorem speaker_alone_forwards (hinj : Function.Injective id)
    (hid : ∀ v, (id v).val < pspTableSize)
    (hreach : (recorded id).system.Reachable System.anyStep c)
    (hknown : ∀ v w, (c.node v).1.type = .psp → (c.node w).1.type = .psp → v ≠ w →
      Told (id w) (c.node v).2) (hsome : ∃ v, (c.node v).1.type = .psp) :
    ∃ v, (c.node v).1.type = .psp ∧ ∀ es c', (recorded id).system.AllowedFrom (Closed id) c es →
      (recorded id).system.runFrom c es = some c' → ∀ f ans, f.isCall = true →
        (∀ w, (c'.node w).1.type = .psp → w ≠ v →
          dataFrames (hear (id w) ans f (c'.node w).1).2 = []) ∧
        ((c'.node v).1.radio = .on → (c'.node v).1.busy = false → (c'.node v).1.locked = true →
          ans.dataSent = .success → dataFrames (hear (id v) ans f (c'.node v).1).2 =
            [airedBy (id v) (c'.node v).1.curNexthopNodeId f.payload]) := by
  obtain ⟨v, hv, hleast⟩ := exists_least id hsome
  have hspeaks : Speaks id v c := ⟨hreach, hknown, hv, hleast⟩
  clear hreach hknown hsome hleast
  refine ⟨v, hv, fun es => ?_⟩
  clear hv
  induction es generalizing c with
  | nil =>
    rintro c' - hrun f ans hcall
    obtain rfl := Option.some.inj hrun
    refine ⟨fun w hw hne => ?_, fun hradio hbusy hlocked hsent => ?_⟩
    · exact hear_outvoted hcall (hid w) (hspeaks.marked hid hw)
        (hspeaks.outvoted hinj hid hw hne) ans
    · exact hear_elected hcall (hid v) (hspeaks.marked hid hspeaks.candidate)
        (hspeaks.elected hid) hradio hbusy hlocked hsent
  | cons e es ih =>
    intro c' hallowed hrun
    obtain ⟨b, hstep, hrest⟩ := Option.bind_eq_some_iff.mp hrun
    exact ih (hspeaks.step hid hallowed.1 hstep) c' (hallowed.2 b hstep) hrest

end Network

/-- The frame by which a source calls. -/
def sourceCall : Frame := ⟨100, broadcastAddr, sizeofBeaconMsg, .beacon sample⟩

/-- Both have been called and know of each other; the radio is done with their names. -/
theorem speaker_alone_forwards_pair : ∃ c : Census (Fin 2), ∃ v,
    dataFrames (hear (twoCandidates v) granting sourceCall (c.node v).1).2 =
      [airedBy (twoCandidates v) 0 (.beacon sample)] ∧
    ∀ w, w ≠ v → dataFrames (hear (twoCandidates w) granting sourceCall (c.node w).1).2 = [] := by
  have hinit : (recorded twoCandidates).system.Reachable System.anyStep _ := .init
  have hreach := System.reachable_of_runFrom hinit calledPair (by decide) rfl
  obtain ⟨v, -, hruns⟩ := speaker_alone_forwards (by decide) (by decide) hreach (by
    intro v w _ _ hne
    fin_cases v <;> fin_cases w
    · exact absurd rfl hne
    · exact ⟨_, .tail _ (.head _), _, rfl, rfl⟩
    · exact ⟨_, .tail _ (.head _), _, rfl, rfl⟩
    · exact absurd rfl hne) ⟨0, rfl⟩
  have hidle : ∀ (c : Census (Fin 2)) w,
      Closed twoCandidates c (.act w (.sendDone .control .success)) :=
    fun _ _ ⟨_, hmem, _⟩ => (nomatch hmem)
  have hclosed : ∀ c, (recorded twoCandidates).system.AllowedFrom (Closed twoCandidates) c
      [.act 0 (.sendDone .control .success), .act 1 (.sendDone .control .success)] :=
    fun c => ⟨hidle c 0, fun d _ => ⟨hidle d 1, fun _ _ => trivial⟩⟩
  obtain ⟨hothers, hspeaker⟩ := hruns _ _ (hclosed _) rfl sourceCall granting rfl
  refine ⟨_, v, ?_, fun w hw => hothers w ?_ hw⟩
  · refine (hspeaker ?_ ?_ ?_ rfl).trans ?_ <;> fin_cases v <;> rfl
  · fin_cases w <;> rfl

end WsnContest.Routing
