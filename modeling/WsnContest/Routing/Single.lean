import WsnContest.Routing.Conservation
import WsnContest.Routing.Speaker

/-! What the election saves. However many nodes hear a packet of a source, only the one
copy that the speaker takes over sets out for the sink. -/
namespace WsnContest.Routing
open Tinyos Lib

section Network
variable {V : Type} [DecidableEq V] {id : V → Word16}

/-- Sources speak to everybody, none but the potential speakers there are hear them, and no
node gets a data frame twice. -/
structure Settled (id : V → Word16) (c : Census V)
    (e : Network.Event (fun _ : V => Event) (fun _ => Answers)) : Prop where
  closed : Closed id c e
  once : DataOnce c.forget e
  calls : ∀ v source destination len bm ans,
    e = .act v (.sourceData source destination len bm ans) →
      Frame.isCall ⟨source, destination, len, .beacon bm⟩ = true

/-- A source gives the node `v` the packet `k` of the source `n`. -/
def bringsTo (v : V) (n k : Word16)
    (e : Network.Event (fun _ : V => Event) (fun _ => Answers)) : Bool :=
  match e with
  | .act w _ => w == v && brings n k e
  | .deliver .. => false

/-- A potential speaker that is not elected does nothing with the packets of a source. -/
theorem Speaks.wasted (hinj : Function.Injective id) (hid : ∀ v, (id v).val < pspTableSize)
    {v w : V} {c : Census V} (h : Speaks id v c) (hne : w ≠ v) {f : Frame}
    (hcall : f.isCall = true) (hclosed : (c.node w).1.Takes (id w) f → (c.node w).1.type = .psp)
    (ans : Answers) :
    dataFrames (hear (id w) ans f (c.node w).1).2 = [] ∧
      (hear (id w) ans f (c.node w).1).1.recvData = (c.node w).1.recvData := by
  by_cases htaken : (c.node w).1.Takes (id w) f
  · have hpsp := hclosed htaken
    have hcarriage := hear_carriage (id w) ans f (c.node w).1
    refine ⟨hear_outvoted hcall (hid w) (h.marked hid hpsp) (h.outvoted hinj hid hpsp hne) ans, ?_⟩
    refine hcarriage.printed.resolve_right ?_
    rintro ⟨-, -, hdst, -⟩
    rw [hpsp] at hdst
    cases hdst
  · rw [hear_of_not_takes htaken]
    exact ⟨rfl, rfl⟩

/-- Only what comes to the speaker counts. -/
theorem Speaks.act_conserves (hinj : Function.Injective id)
    (hid : ∀ v, (id v).val < pspTableSize) {v w : V} {c : Census V} (h : Speaks id v c) (sink : V)
    {a : Event} (hsettled : Settled id c (.act w a)) {t : State} {fs : List Frame}
    (hhandle : handle (id w) a (c.node w).1 = some (t, fs)) (n k : Word16) :
    printed sink n k (c.forget.put w t fs) + Network.load (counts n k) w fs ≤
      printed sink n k c.forget + if bringsTo v n k (.act w a) then 1 else 0 := by
  have hreach : (routing id).system.Reachable System.anyStep c.forget :=
    Network.noting_reachable h.reach
  by_cases hne : w = v
  · subst hne
    have hworth : bringsTo w n k (.act w a) = brings n k (.act w a) := by simp [bringsTo]
    rw [hworth]
    exact Routing.act_conserves (discreet_of_reachable sink hinj hreach) hhandle n k
  · have hidle : dataFrames fs = [] ∧ t.recvData = (c.node w).1.recvData := by
      rcases handle_carriage hhandle with ⟨source, destination, len, bm, ans, rfl, -⟩ |
        ⟨-, hnone, hsame⟩
      · have hcall := hsettled.calls w source destination len bm ans rfl
        have hwasted := h.wasted hinj hid hne hcall (fun htaken => hsettled.closed ?_) ans
        · rwa [Option.some.inj hhandle] at hwasted
        · change Called (passed _ _ _)
          rw [passed, if_pos htaken]
          exact called_singleton.mpr hcall
      · exact ⟨hnone, hsame⟩
    exact (idle_conserves hidle.1 hidle.2 n k).trans (Nat.le_add_right _ _)

/-- Once all potential speakers know of each other, and as long as no other node hears a
source: of each packet, no more copies and lines come to be than the speaker has been given. -/
theorem one_copy_a_hearing (hinj : Function.Injective id) (hid : ∀ v, (id v).val < pspTableSize)
    {c : Census V} (hreach : (recorded id).system.Reachable System.anyStep c)
    (hknown : ∀ v w, (c.node v).1.type = .psp → (c.node w).1.type = .psp → v ≠ w →
      Told (id w) (c.node v).2) (hsome : ∃ v, (c.node v).1.type = .psp) :
    ∃ v, (c.node v).1.type = .psp ∧ ∀ es c', (recorded id).system.AllowedFrom (Settled id) c es →
      (recorded id).system.runFrom c es = some c' → ∀ sink n k,
        printed sink n k c'.forget + underway id n k c'.forget ≤
          printed sink n k c.forget + underway id n k c.forget + es.countP (bringsTo v n k) := by
  obtain ⟨v, hv, hleast⟩ := exists_least id hsome
  have hspeaks : Speaks id v c := ⟨hreach, hknown, hv, hleast⟩
  have hcast : ∀ w, id w ≠ broadcastAddr := by
    intro w heq
    have hbound := hid w
    rw [heq] at hbound
    exact absurd hbound (by decide)
  refine ⟨v, hv, fun es c' hallowed hrun sink n k => ?_⟩
  refine System.runFrom_cost (P := Speaks id v)
    (μ := fun d => printed sink n k d.forget + underway id n k d.forget) ?_ hspeaks es hallowed hrun
  intro d e d' hd hsettled hstep
  have hplain : (routing id).system.Reachable System.anyStep d.forget :=
    Network.noting_reachable hd.reach
  have hforget : (routing id).system.step d.forget e = some d'.forget := by
    rw [← Network.noting_step]
    exact congrArg (Option.map _) hstep
  refine ⟨hd.step hid hsettled.closed hstep, ?_⟩
  refine conserved_step hinj sink hcast hplain hsettled.once ?_ hforget
  rintro w a t fs rfl hhandle
  exact hd.act_conserves hinj hid sink hsettled hhandle n k

end Network

/-- Two nodes are free again, and both hear the packet of a source. -/
def heardTwice {V : Type} (v w : V) : List (Network.Event (fun _ : V => Event) fun _ => Answers) :=
  [.act v (.sendDone .control .success), .act w (.sendDone .control .success),
    .act v (.sourceData 100 broadcastAddr sizeofBeaconMsg sample granting),
    .act w (.sourceData 100 broadcastAddr sizeofBeaconMsg sample granting)]

theorem one_copy_a_hearing_pair : ∃ c c' : Census (Fin 2), ∃ v u w,
    (heardTwice u w).countP (brings 100 7) = 2 ∧
      (heardTwice u w).countP (bringsTo v 100 7) = 1 ∧
      underway twoCandidates 100 7 c'.forget = 1 ∧
      printed u 100 7 c'.forget + underway twoCandidates 100 7 c'.forget ≤
        printed u 100 7 c.forget + underway twoCandidates 100 7 c.forget +
          (heardTwice u w).countP (bringsTo v 100 7) := by
  have hinit : (recorded twoCandidates).system.Reachable System.anyStep _ := .init
  have hreach := System.reachable_of_runFrom hinit calledPair (by decide) rfl
  obtain ⟨v, -, hruns⟩ := one_copy_a_hearing (by decide) (by decide) hreach (by
    intro v w _ _ hne
    fin_cases v <;> fin_cases w
    · exact absurd rfl hne
    · exact ⟨_, .tail _ (.head _), _, rfl, rfl⟩
    · exact ⟨_, .tail _ (.head _), _, rfl, rfl⟩
    · exact absurd rfl hne) ⟨0, rfl⟩
  have hidle : ∀ (c : Census (Fin 2)) w,
      Settled twoCandidates c (.act w (.sendDone .control .success)) := fun _ _ =>
    ⟨fun ⟨_, hmem, _⟩ => (nomatch hmem), trivial, by simp⟩
  have hcalls : ∀ (c : Census (Fin 2)) w, (c.node w).1.type = .psp → Settled twoCandidates c
      (.act w (.sourceData 100 broadcastAddr sizeofBeaconMsg sample granting)) := by
    intro c w hpsp
    refine ⟨fun _ => hpsp, trivial, ?_⟩
    intro v source destination len bm ans heq
    cases heq
    rfl
  refine ⟨_, _, v, 0, 1, rfl, ?_, ?_, hruns (heardTwice 0 1) _ ⟨hidle _ 0, fun c hc => ⟨hidle _ 1,
    fun d hd => ⟨hcalls d 0 ?_, fun e he => ⟨hcalls e 1 ?_, fun _ _ => trivial⟩⟩⟩⟩ rfl 0 100 7⟩
  · fin_cases v <;> rfl
  · rfl
  · cases hc
    cases hd
    rfl
  · cases hc
    cases hd
    cases he
    rfl

end WsnContest.Routing
