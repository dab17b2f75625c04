import Mathlib.Logic.Relation
import WsnContest.Car.Driver

/-! `CarP` never wedges. Whatever is called and received, a busy driver always has
an outstanding request, a running timer or a posted task to look forward to, and
none of these can lead anywhere but back to the idle state. -/
namespace WsnContest.CarP
open Tinyos Lib

/-- Somebody will wake the driver up, and it will give the UART back. -/
structure Awake (s : State) : Prop where
  sending : s.isSend = true → s.requested = true ∨ s.timer1 = true ∨ s.recvTaskPosted = true
  owning : s.owner = true → s.timer1 = true ∨ s.recvTaskPosted = true

/-- The driver wants nothing and holds nothing. -/
structure Idle (s : State) : Prop where
  isSend : s.isSend = false
  owner : s.owner = false
  requested : s.requested = false
  timer1 : s.timer1 = false
  recvTaskPosted : s.recvTaskPosted = false

theorem awake_init : Awake {} := by
  constructor <;> simp

/-- Received bytes may stop the timer, but then they post the task. -/
theorem Heard.awake {s t : State} (h : Heard s t) (hs : Awake s) : Awake t := by
  constructor
  · intro hsend
    rw [h.isSend] at hsend
    rw [h.requested]
    rcases h.wake with ⟨htimer, hposted⟩ | ⟨-, -, hposted⟩
    · rw [htimer, hposted]
      exact hs.sending hsend
    · exact .inr (.inr hposted)
  · intro howner
    rw [h.owner] at howner
    rcases h.wake with ⟨htimer, hposted⟩ | ⟨-, -, hposted⟩
    · rw [htimer, hposted]
      exact hs.owning howner
    · exact .inr hposted

theorem awake_effect {s t : State} {e : Event} {out : List Output} (h : Effect s e t out)
    (hs : Awake s) : Awake t := by
  cases h with
  | start => exact ⟨hs.sending, hs.owning⟩
  | stop => exact ⟨by simp, hs.owning⟩
  | accepted hready => exact ⟨fun _ => .inl rfl, hs.owning⟩
  | refused hready ht => exact ht.awake ⟨hs.sending, hs.owning⟩
  | granted hrequested howner ht =>
    split
    · exact ⟨fun _ => .inr (.inl rfl), fun _ => .inl rfl⟩
    · exact ⟨by simp [clearSend], by simp [clearSend, release]⟩
  | rxDone ht => exact ht.awake hs
  | timer1Fired htimer ht => exact ht.awake ⟨fun _ => .inr (.inr rfl), fun _ => .inr rfl⟩
  | recvTask hposted hisStart hisSend howner hrequested hcarCommand hcmdlength htimer =>
    exact ⟨by simp [hisSend], by simp [howner]⟩

theorem awake_of_reachable {s : State × List Output}
    (h : machine.system.Reachable System.anyStep s) : Awake s.1 := by
  apply Machine.invariant (P := fun s => Awake s.1) h awake_init
  intro s e t out hs _ hrun
  exact awake_effect (step_effect hrun) hs

/-- The events that come by themselves. -/
def Event.wakesUp : Event → Bool
  | .granted _ | .timer1Fired _ | .recvTask _ => true
  | .start | .stop | .command _ _ | .rxDone _ => false

def Wake (s t : State) : Prop := ∃ e out, Event.wakesUp e = true ∧ step s e = some (t, out)

theorem wake_of_posted {s : State} (h : s.recvTaskPosted = true) :
    ∃ t, Wake s t ∧ t.isSend = false ∧ t.owner = false ∧ t.timer1 = false ∧
      t.recvTaskPosted = false ∧ t.requested = s.requested := by
  obtain ⟨-, hisSend, howner, hrequested, -, -, htimer⟩ :=
    recvTask_state [] { s with recvTaskPosted := false }
  refine ⟨(recvTask [] { s with recvTaskPosted := false }).1,
    ⟨.recvTask [], (recvTask [] { s with recvTaskPosted := false }).2, rfl, ?_⟩,
    hisSend, howner, htimer, rfl, hrequested⟩
  exact if_pos h

theorem wake_settles {s : State} (h : s.timer1 = true ∨ s.recvTaskPosted = true) :
    ∃ t, Relation.ReflTransGen Wake s t ∧ t.isSend = false ∧ t.owner = false ∧
      t.timer1 = false ∧ t.recvTaskPosted = false ∧ t.requested = s.requested := by
  rcases h with htimer | hposted
  · have hfired : Wake s (timer1Fired [] { s with timer1 := false }) :=
      ⟨.timer1Fired [], [], rfl, if_pos htimer⟩
    obtain ⟨t, hwake, hrest⟩ :=
      wake_of_posted (s := timer1Fired [] { s with timer1 := false }) rfl
    exact ⟨t, (Relation.ReflTransGen.single hfired).tail hwake, hrest⟩
  · obtain ⟨t, hwake, hrest⟩ := wake_of_posted hposted
    exact ⟨t, .single hwake, hrest⟩

/-- From any state that is awake the driver can become idle by itself. -/
theorem wake_idle {s : State} (hs : Awake s) :
    ∃ t, Relation.ReflTransGen Wake s t ∧ Idle t := by
  obtain ⟨t, hst, howner, htimer, hposted, hsend⟩ : ∃ t, Relation.ReflTransGen Wake s t ∧
      t.owner = false ∧ t.timer1 = false ∧ t.recvTaskPosted = false ∧
      (t.isSend = true → t.requested = true) := by
    by_cases hdue : s.timer1 = true ∨ s.recvTaskPosted = true
    · obtain ⟨t, hst, hisSend, howner, htimer, hposted, -⟩ := wake_settles hdue
      exact ⟨t, hst, howner, htimer, hposted, by simp [hisSend]⟩
    · refine ⟨s, .refl, ?_, ?_, ?_, fun hsend => (hs.sending hsend).resolve_right hdue⟩
      · exact Bool.eq_false_iff.mpr fun howner => hdue (hs.owning howner)
      · exact Bool.eq_false_iff.mpr fun htimer => hdue (.inl htimer)
      · exact Bool.eq_false_iff.mpr fun hposted => hdue (.inr hposted)
  cases hrequested : t.requested with
  | false =>
    have hisSend : t.isSend = false :=
      Bool.eq_false_iff.mpr fun hbusy => by simp [hsend hbusy] at hrequested
    exact ⟨t, hst, hisSend, howner, hrequested, htimer, hposted⟩
  | true =>
    set u := { t with requested := false, owner := true } with hu
    have hgrant : Wake t (granted [] u).1 := by
      refine ⟨.granted [], (granted [] u).2, rfl, if_pos ?_⟩
      simp [hrequested, howner]
    by_cases hquery : t.cmdlength = 4
    · -- the grant of a query starts the timer, and all begins anew without a request
      have hgranted : granted [] u = ({ u with timer1 := true }, _) := if_pos hquery
      rw [hgranted] at hgrant
      obtain ⟨v, huv, hisSend, howner', htimer', hposted', hrequested'⟩ :=
        wake_settles (s := { u with timer1 := true }) (.inl rfl)
      exact ⟨v, (hst.tail hgrant).trans huv, hisSend, howner', hrequested', htimer', hposted'⟩
    · have hgranted : granted [] u = (clearSend (release u), _) := if_neg hquery
      rw [hgranted] at hgrant
      exact ⟨_, hst.tail hgrant, rfl, rfl, rfl, htimer, hposted⟩

abbrev Run := machine.system.InfiniteRun System.anyStep

/-- A posted task runs, a timer that nobody stops fires, and an outstanding
request is granted if the UART keeps being free. -/
structure Fair (run : Run) : Prop where
  task : ∀ n, (run.state n).1.recvTaskPosted = true → ∃ m ≥ n, ∃ irqs, run.event m = .recvTask irqs
  timer : ∀ n, (∀ m ≥ n, (run.state m).1.timer1 = true) →
    ∃ m ≥ n, ∃ irqs, run.event m = .timer1Fired irqs
  grant : ∀ n, (run.state n).1.requested = true →
    (∀ k, ∃ m ≥ k, (run.state m).1.owner = false) → ∃ m ≥ n, ∃ irqs, run.event m = .granted irqs

theorem run_effect (run : Run) (n : ℕ) :
    ∃ out, Effect (run.state n).1 (run.event n) (run.state (n + 1)).1 out := by
  obtain ⟨t, out, hstep, hnext⟩ := machine.system_step (run.next n)
  rw [hnext]
  exact ⟨out, step_effect hstep⟩

/-- A running timer stops only in favour of the task. -/
theorem timer1_effect {s t : State} {e : Event} {out : List Output} (h : Effect s e t out)
    (htimer : s.timer1 = true) :
    t.timer1 = true ∨ t.recvTaskPosted = true ∨ s.recvTaskPosted = true := by
  have hheard : ∀ {u : State}, Heard u t → u.timer1 = true →
      t.timer1 = true ∨ t.recvTaskPosted = true ∨ s.recvTaskPosted = true := fun hu hrun =>
    hu.wake.elim (fun hsame => .inl (hsame.1.trans hrun)) fun hwoken =>
      .inr (.inl hwoken.2.2)
  cases h with
  | start | stop | accepted _ => exact .inl htimer
  | refused hready ht => exact hheard ht htimer
  | @granted irqs u hrequested howner ht =>
    split
    · exact .inl rfl
    · have hheard := heard_rxAll irqs { s with requested := false, owner := true }
      rw [← ht] at hheard
      exact hheard.wake.elim (fun hsame => .inl (hsame.1.trans htimer)) fun hwoken =>
        .inr (.inl hwoken.2.2)
  | rxDone ht => exact hheard ht htimer
  | timer1Fired _ ht =>
    exact .inr (.inl (ht.wake.elim (fun hsame => hsame.2) fun hwoken => hwoken.2.2))
  | recvTask hposted _ _ _ _ _ _ _ => exact .inr (.inr hposted)

section Liveness
variable {run : Run} (hfair : Fair run) {n : ℕ}
include hfair

/-- What the task lets go of cannot be held for ever while the task is posted. -/
theorem never_posted (held : State → Prop)
    (hfree : ∀ t, t.isSend = false → t.owner = false → ¬ held t)
    (hheld : ∀ m ≥ n, held (run.state m).1) :
    ∀ m ≥ n, (run.state m).1.recvTaskPosted = false := by
  intro m hm
  refine Bool.eq_false_iff.mpr fun hposted => ?_
  obtain ⟨k, hk, irqs, hevent⟩ := hfair.task m hposted
  obtain ⟨out, heffect⟩ := run_effect run k
  rw [hevent] at heffect
  cases heffect with
  | recvTask _ _ hisSend howner _ _ _ _ =>
    exact hfree _ hisSend howner (hheld (k + 1) (by omega))

/-- While the task is not posted, no timer runs, for it would fire and post it. -/
theorem never_timed (hposted : ∀ m ≥ n, (run.state m).1.recvTaskPosted = false) :
    ∀ m ≥ n, (run.state m).1.timer1 = false := by
  intro m hm
  refine Bool.eq_false_iff.mpr fun htimer => ?_
  have hruns : ∀ k ≥ m, (run.state k).1.timer1 = true := by
    intro k hk
    induction k, hk using Nat.le_induction with
    | base => exact htimer
    | succ k hk ih =>
      obtain ⟨out, heffect⟩ := run_effect run k
      rcases timer1_effect heffect ih with hon | hnow | hbefore
      · exact hon
      · simp [hposted (k + 1) (by omega)] at hnow
      · simp [hposted k (by omega)] at hbefore
  obtain ⟨k, hk, irqs, hevent⟩ := hfair.timer m hruns
  obtain ⟨out, heffect⟩ := run_effect run k
  rw [hevent] at heffect
  cases heffect with
  | timer1Fired _ ht =>
    have hpost := ht.wake.elim (fun hsame => hsame.2) fun hwoken => hwoken.2.2
    simp [hposted (k + 1) (by omega)] at hpost

theorem owner_released : ∃ m ≥ n, (run.state m).1.owner = false := by
  by_contra hnever
  have howner : ∀ m ≥ n, (run.state m).1.owner = true := fun m hm =>
    Bool.of_not_eq_false fun h => hnever ⟨m, hm, h⟩
  have hposted := never_posted hfair (fun s => s.owner = true) (by simp) howner
  rcases (awake_of_reachable (run.reachable n)).owning (howner n le_rfl) with htimer | htask
  · simp [never_timed hfair hposted n le_rfl] at htimer
  · simp [hposted n le_rfl] at htask

theorem isSend_cleared : ∃ m ≥ n, (run.state m).1.isSend = false := by
  by_contra hnever
  have hsend : ∀ m ≥ n, (run.state m).1.isSend = true := fun m hm =>
    Bool.of_not_eq_false fun h => hnever ⟨m, hm, h⟩
  have hposted := never_posted hfair (fun s => s.isSend = true) (by simp_all) hsend
  have htimer := never_timed hfair hposted
  have hrequested : (run.state n).1.requested = true := by
    have hwake := (awake_of_reachable (run.reachable n)).sending (hsend n le_rfl)
    simpa [hposted n le_rfl, htimer n le_rfl] using hwake
  obtain ⟨k, hk, irqs, hevent⟩ := hfair.grant n hrequested fun _ => owner_released hfair
  obtain ⟨out, heffect⟩ := run_effect run k
  have hsend' := hsend (k + 1) (by omega)
  have htimer' := htimer (k + 1) (by omega)
  rw [hevent] at heffect
  generalize (run.state (k + 1)).1 = t at heffect hsend' htimer'
  cases heffect with
  | granted _ _ ht =>
    split at hsend' <;> simp_all [clearSend]

end Liveness

/-- In every reachable state a busy driver has an outstanding request, a running
timer or a posted task to wake it and can become idle by itself, and in every
fair run it keeps freeing the UART and accepting commands. -/
theorem driver_never_wedges :
    (∀ s, machine.system.Reachable System.anyStep s →
      (s.1.isSend = true →
        s.1.requested = true ∨ s.1.timer1 = true ∨ s.1.recvTaskPosted = true) ∧
      (s.1.owner = true → s.1.timer1 = true ∨ s.1.recvTaskPosted = true) ∧
      ∃ t, Relation.ReflTransGen Wake s.1 t ∧ Idle t) ∧
    ∀ run : Run, Fair run → ∀ n,
      (∃ m ≥ n, (run.state m).1.owner = false) ∧ ∃ m ≥ n, (run.state m).1.isSend = false := by
  refine ⟨fun s hreach => ?_, fun run hfair n => ?_⟩
  · have hawake := awake_of_reachable hreach
    exact ⟨hawake.sending, hawake.owning, wake_idle hawake⟩
  · exact ⟨owner_released hfair, isSend_cleared hfair⟩

/-- A query whose reader stays silent. -/
def silentQuery : ℕ → Event
  | 0 => .start
  | 1 => .command (.quiryReader 7) []
  | 2 => .granted []
  | 3 => .timer1Fired []
  | _ => .recvTask []

/-- How far the query is. -/
inductive Phase (s : State) : ℕ → Prop
  | idle (hrequested : s.requested = false) (htimer : s.timer1 = false)
      (hposted : s.recvTaskPosted = false) (hsend : s.isSend = false)
      (howner : s.owner = false) : Phase s 0
  | started (hrequested : s.requested = false) (htimer : s.timer1 = false)
      (hposted : s.recvTaskPosted = false) (hsend : s.isSend = false)
      (howner : s.owner = false) (hstart : s.isStart = true) : Phase s 1
  | asked (hrequested : s.requested = true) (htimer : s.timer1 = false)
      (hposted : s.recvTaskPosted = false) (howner : s.owner = false)
      (hlength : s.cmdlength = 4) : Phase s 2
  | waiting (hrequested : s.requested = false) (htimer : s.timer1 = true)
      (hposted : s.recvTaskPosted = false) : Phase s 3
  | late (hrequested : s.requested = false) (htimer : s.timer1 = false)
      (hposted : s.recvTaskPosted = true) : Phase s 4

theorem Phase.next {s : State} {k : ℕ} (h : Phase s k) :
    ∃ t out, step s (silentQuery k) = some (t, out) ∧ Phase t ((k + 1) % 5) := by
  cases h with
  | idle hrequested htimer hposted hsend howner =>
    exact ⟨_, _, rfl, .started hrequested htimer hposted hsend howner rfl⟩
  | started hrequested htimer hposted hsend howner hstart =>
    have hready : (s.isStart && !s.isSend) = true := by simp [hstart, hsend]
    have hasked : quiryReader 7 [] s =
        (request { prepare 4 s with
          isSend := true
          carCommand := ((prepare 4 s).carCommand.set 2 Op.quiryReader).set 3 7 }, .success) :=
      if_pos hready
    refine ⟨(quiryReader 7 [] s).1, _, rfl, ?_⟩
    rw [hasked]
    exact .asked rfl htimer hposted howner rfl
  | asked hrequested htimer hposted howner hlength =>
    have hfree : (s.requested && !s.owner) = true := by simp [hrequested, howner]
    have hgranted : granted [] { s with requested := false, owner := true } =
        ({ s with requested := false, owner := true, timer1 := true },
          [.wrote (s.carCommand.take s.cmdlength)]) := if_pos hlength
    refine ⟨(granted [] { s with requested := false, owner := true }).1, _, if_pos hfree, ?_⟩
    rw [hgranted]
    exact .waiting rfl rfl hposted
  | waiting hrequested htimer hposted =>
    exact ⟨_, _, if_pos htimer, .late hrequested rfl rfl⟩
  | late hrequested htimer hposted =>
    exact ⟨_, _, if_pos hposted, .idle hrequested rfl rfl rfl rfl⟩

theorem Phase.of_posted {s : State} {k : ℕ} (h : Phase s k) (hposted : s.recvTaskPosted = true) :
    k = 4 := by
  cases h with
  | late => rfl
  | _ => simp_all

theorem Phase.of_requested {s : State} {k : ℕ} (h : Phase s k) (hrequested : s.requested = true) :
    k = 2 := by
  cases h with
  | asked => rfl
  | _ => simp_all

/-- A reader that never answers is asked over and over. -/
theorem driver_never_wedges_asked :
    ∃ run : Run, (∀ n, run.event n = silentQuery (n % 5)) ∧
      ∀ n, (∃ m ≥ n, (run.state m).1.owner = false) ∧ ∃ m ≥ n, (run.state m).1.isSend = false := by
  obtain ⟨run, hevent, hphase⟩ : ∃ run : Run, (∀ n, run.event n = silentQuery (n % 5)) ∧
      ∀ n, Phase (run.state n).1 (n % 5) := by
    apply System.InfiniteRun.exists_scripted (Q := fun n (s : State × List Output) =>
      Phase s.1 (n % 5))
    · exact .idle rfl rfl rfl rfl rfl
    · intro n s hs
      obtain ⟨t, out, hstep, hnext⟩ := hs.next
      refine ⟨trivial, (t, s.2 ++ out), ?_, ?_⟩
      · simp [Machine.system, machine, hstep]
      · rwa [Nat.mod_add_mod] at hnext
  have hfair : Fair run := by
    refine ⟨fun n hposted => ⟨n, le_rfl, [], ?_⟩, fun n _ => ⟨5 * n + 3, by omega, [], ?_⟩,
      fun n hrequested _ => ⟨n, le_rfl, [], ?_⟩⟩
    · rw [hevent, (hphase n).of_posted hposted]
      rfl
    · rw [hevent, Nat.mul_add_mod]
      rfl
    · rw [hevent, (hphase n).of_requested hrequested]
      rfl
  exact ⟨run, hevent, driver_never_wedges.2 run hfair⟩

end WsnContest.CarP
