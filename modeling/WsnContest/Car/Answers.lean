import WsnContest.Car.Parser

/-! One answer for each query. Whether a grant waits for the reader is decided by
the length last set, not by the command that was accepted, and any frame that is
completed posts the task that answers: so a refused call can make a drive command
answer or leave a query without one, and so can a reader that speaks unasked. -/
namespace WsnContest.CarP
open Tinyos Lib

def Output.isQuery : Output → Bool
  | .accepted (.quiryReader _) => true
  | _ => false

def Output.isAnswer : Output → Bool
  | .readDone _ _ => true
  | _ => false

/-- How often `QuiryReader` returned `SUCCESS`. -/
def queries (out : List Output) : ℕ := out.countP Output.isQuery

/-- How often `readDone` was signalled. -/
def answers (out : List Output) : ℕ := out.countP Output.isAnswer

/-- `readDone` answers the one open query, and nothing is accepted while one is open. -/
def Answering (pre : List Output) : Output → Prop
  | .accepted _ => queries pre = answers pre
  | .readDone _ _ => queries pre = answers pre + 1
  | _ => True

/-- The driver is free and nothing will wake it. -/
structure Settled (s : State) : Prop where
  isSend : s.isSend = false
  requested : s.requested = false
  timer1 : s.timer1 = false
  recvTaskPosted : s.recvTaskPosted = false

/-- The accepted command that waits is a query. -/
def querying (s : State) : Bool := s.carCommand.getD 2 0 = Op.quiryReader

/-- Every answer is that of a query, and none is missing once the driver settles. -/
structure Answered (s : State × List Output) : Prop where
  inOrder : InOrder Answering s.2
  settled : Settled s.1 → answers s.2 = queries s.2

/-- The driver is not stopped; at a grant the length last set is four exactly if the
waiting command is a query; and no frame is completed while a drive command is sent or
`recvTask` runs. -/
def Heeded (s : State × List Output) : Event → Prop
  | .stop => False
  | .granted irqs =>
    (s.1.cmdlength = 4 ↔ querying s.1 = true) ∧
      (querying s.1 = false →
        completes irqs { s.1 with requested := false, owner := true } = false)
  | .recvTask irqs =>
    completesThrough irqs 0 recvTaskSteps { s.1 with recvTaskPosted := false } = false
  | _ => True

section Counts
variable (out : List Output) (o : Output)

@[simp] theorem queries_append_one :
    queries (out ++ [o]) = queries out + if o.isQuery then 1 else 0 := by
  simp [queries, List.countP_append, List.countP_cons]

@[simp] theorem answers_append_one :
    answers (out ++ [o]) = answers out + if o.isAnswer then 1 else 0 := by
  simp [answers, List.countP_append, List.countP_cons]

end Counts

/-- The driver and its outputs agree on whether a query is open. -/
structure Balanced (s : State × List Output) : Prop where
  framed : Framed s.1.carCommand
  idle : s.1.isSend = false → s.1.requested = false ∧ s.1.owner = false
  waking : s.1.timer1 = true ∨ s.1.recvTaskPosted = true → s.1.owner = true
  owning : s.1.owner = true → s.1.requested = false ∧ queries s.2 = answers s.2 + 1
  waiting : s.1.requested = true →
    queries s.2 = answers s.2 + if querying s.1 then 1 else 0
  free : s.1.requested = false → s.1.owner = false → queries s.2 = answers s.2
  inOrder : InOrder Answering s.2

theorem balanced_init : Balanced machine.system.init := by
  refine ⟨⟨1, 0, 0, rfl⟩, ?_, ?_, ?_, ?_, ?_, inOrder_nil⟩ <;> decide

section Steps
variable {s : State × List Output} (h : Balanced s)
include h

theorem Balanced.still (howner : s.1.owner = false) :
    s.1.timer1 = false ∧ s.1.recvTaskPosted = false := by
  have hasleep := mt h.waking (by simp [howner])
  simpa using hasleep

theorem Balanced.hear {t : State} (ht : Heard s.1 t) : Balanced (t, s.2) := by
  refine ⟨ht.carCommand ▸ h.framed, ?_, ht.waking h.waking, ?_, ?_, ?_, h.inOrder⟩
  · rw [ht.isSend, ht.requested, ht.owner]
    exact h.idle
  · rw [ht.owner, ht.requested]
    exact h.owning
  · rw [querying, ht.requested, ht.carCommand]
    exact h.waiting
  · rw [ht.requested, ht.owner]
    exact h.free

/-- An output that is neither a query nor an answer. -/
theorem Balanced.append {o : Output} (hquery : o.isQuery = false) (hanswer : o.isAnswer = false)
    (ho : Answering s.2 o) : Balanced (s.1, s.2 ++ [o]) := by
  have hqueries : queries (s.2 ++ [o]) = queries s.2 := by simp [hquery]
  have hanswers : answers (s.2 ++ [o]) = answers s.2 := by simp [hanswer]
  refine ⟨h.framed, h.idle, h.waking, ?_, ?_, ?_, h.inOrder.append_one ho⟩ <;>
    simp only [hqueries, hanswers]
  · exact h.owning
  · exact h.waiting
  · exact h.free

theorem Balanced.accepted {c : Command} (hready : s.1.ready = true) :
    Balanced ({ s.1 with
      isSend := true, requested := true, cmdlength := c.length
      carCommand := c.fill s.1.carCommand }, s.2 ++ [.accepted c]) := by
  have hsend : s.1.isSend = false := by
    simp only [State.ready, Bool.and_eq_true, Bool.not_eq_true'] at hready
    exact hready.2
  obtain ⟨hrequested, howner⟩ := h.idle hsend
  have hclosed := h.free hrequested howner
  obtain ⟨hframed, hop, -⟩ := framed_fill h.framed c
  have hkind : (Output.accepted c).isQuery = decide (c.op = Op.quiryReader) := by
    cases c <;> rfl
  refine ⟨hframed, ?_, h.waking, ?_, ?_, ?_, h.inOrder.append_one hclosed⟩ <;>
    simp only [howner, queries_append_one, answers_append_one, querying, hop, hkind, hclosed]
  · simp
  · simp
  · simp [Output.isAnswer]
  · simp

theorem Balanced.granted {irqs : List Rx} (hrequested : s.1.requested = true)
    (howner : s.1.owner = false) (hallowed : Heeded s (.granted irqs)) {t : State}
    (ht : t = rxAll irqs { s.1 with requested := false, owner := true }) :
    Balanced (if s.1.cmdlength = 4 then { t with timer1 := true } else clearSend (release t),
      s.2 ++ [.wrote (s.1.carCommand.take s.1.cmdlength)]) := by
  obtain ⟨hlength, hquiet⟩ := hallowed
  have hheard := heard_rxAll irqs { s.1 with requested := false, owner := true }
  have hposted := rxAll_posted irqs { s.1 with requested := false, owner := true }
  rw [← ht] at hheard hposted
  have hstill := h.still howner
  have hwaiting := h.waiting hrequested
  have hbusy : s.1.isSend = true :=
    Bool.of_not_eq_false fun hsend => by simp [(h.idle hsend).1] at hrequested
  cases hquery : querying s.1 with
  | true =>
    rw [hquery, if_pos rfl] at hwaiting
    rw [if_pos (hlength.mpr hquery)]
    have hopen : Balanced ({ t with timer1 := true }, s.2) := by
      refine ⟨hheard.carCommand ▸ h.framed, ?_, ?_, ?_, ?_, ?_, h.inOrder⟩ <;>
        simp only [hheard.isSend, hheard.owner, hheard.requested]
      · simp [hbusy]
      · simp
      · exact fun _ => ⟨trivial, hwaiting⟩
      · simp
      · simp
    exact hopen.append rfl rfl trivial
  | false =>
    rw [hquery, if_neg (by simp)] at hwaiting
    rw [if_neg (mt hlength.mp (by simp [hquery]))]
    have hsilent : t.timer1 = false ∧ t.recvTaskPosted = false := by
      have hnone : t.recvTaskPosted = false := by
        rw [hposted, hquiet hquery, Bool.or_false]
        exact hstill.2
      rcases hheard.wake with ⟨htimer, -⟩ | ⟨-, -, hwoken⟩
      · exact ⟨htimer.trans hstill.1, hnone⟩
      · simp [hwoken] at hnone
    have hclosed : Balanced (clearSend (release t), s.2) := by
      refine ⟨hheard.carCommand ▸ h.framed, ?_, ?_, ?_, ?_, ?_, h.inOrder⟩ <;>
        simp only [clearSend, release, hheard.requested, hsilent]
      · simp
      · simp
      · simp
      · simp
      · exact fun _ _ => hwaiting
    exact hclosed.append rfl rfl trivial

theorem Balanced.recvTask {irqs : List (List Rx)} {state : ErrorT} {data : Word16} {t : State}
    (heffect : Effect s.1 (.recvTask irqs) t [.readDone state data])
    (hquiet : t.recvTaskPosted = false) : Balanced (t, s.2 ++ [.readDone state data]) := by
  cases heffect with
  | recvTask hposted hisStart hisSend howner hrequested hcarCommand hcmdlength htimer =>
    obtain ⟨hnone, hopen⟩ := h.owning (h.waking (.inr hposted))
    refine ⟨hcarCommand ▸ h.framed, ?_, ?_, ?_, ?_, ?_, h.inOrder.append_one hopen⟩ <;>
      simp only [hrequested, hnone, howner, htimer, hquiet, queries_append_one,
        answers_append_one, hopen]
    · simp
    · simp
    · simp
    · simp
    · simp [Output.isQuery, Output.isAnswer]

end Steps

theorem balanced_step {s : State × List Output} {e : Event} {t : State} {out : List Output}
    (h : Balanced s) (hallowed : Heeded s e) (hstep : step s.1 e = some (t, out)) :
    Balanced (t, s.2 ++ out) := by
  have heffect := step_effect hstep
  cases heffect with
  | start =>
    have hstarted : Balanced ({ s.1 with isStart := true }, s.2) :=
      ⟨h.framed, h.idle, h.waking, h.owning, h.waiting, h.free, h.inOrder⟩
    exact hstarted.append rfl rfl trivial
  | stop => exact hallowed.elim
  | accepted hready => exact h.accepted hready
  | @refused c irqs _ hready ht =>
    have hprepared : Balanced (prepare c.length s.1, s.2) := by
      have hstamp := framed_stamp h.framed
      refine ⟨?_, h.idle, h.waking, h.owning, ?_, h.free, h.inOrder⟩ <;>
        simp only [prepare, querying, hstamp]
      · exact h.framed
      · exact h.waiting
    exact (hprepared.hear ht).append rfl rfl trivial
  | granted hrequested howner ht => exact h.granted hrequested howner hallowed ht
  | rxDone ht =>
    rw [List.append_nil]
    exact h.hear ht
  | timer1Fired htimer ht =>
    have hfired : Balanced ({ s.1 with
        statetag := .fail, timer1 := false, recvTaskPosted := true }, s.2) :=
      ⟨h.framed, h.idle, fun _ => h.waking (.inl htimer), h.owning, h.waiting, h.free, h.inOrder⟩
    rw [List.append_nil]
    exact hfired.hear ht
  | @recvTask irqs t state data =>
    have heffect := step_effect hstep
    obtain ⟨-, hrun⟩ := Option.ite_none_right_eq_some.mp hstep
    have ht : (CarP.recvTask irqs { s.1 with recvTaskPosted := false }).1 = t :=
      congrArg Prod.fst (Option.some.inj hrun)
    apply h.recvTask heffect
    rw [← ht, recvTask_posted, Bool.false_or]
    exact hallowed

theorem balanced_of_reachable {s : State × List Output}
    (h : machine.system.Reachable Heeded s) : Balanced s := by
  apply Machine.invariant (P := Balanced) h balanced_init
  intro s e t out hs hallowed hrun
  exact balanced_step hs hallowed hrun

theorem answered_of_reachable {s : State × List Output}
    (h : machine.system.Reachable Heeded s) : Answered s := by
  have hbalanced := balanced_of_reachable h
  refine ⟨hbalanced.inOrder, fun hsettled => ?_⟩
  have howner : s.1.owner = false := (hbalanced.idle hsettled.isSend).2
  exact (hbalanced.free hsettled.requested howner).symm

/-- Heeded steps lead from here to a wrong answer or count. -/
def Breaks (s : State × List Output) : Prop :=
  ∃ es t, machine.system.AllowedFrom Heeded s es ∧ machine.system.runFrom s es = some t ∧
    ¬ Answered t

theorem Breaks.of_step {s s' : State × List Output} {e : Event} (hallowed : Heeded s e)
    (hstep : machine.system.step s e = some s') (h : Breaks s') : Breaks s := by
  obtain ⟨es, t, hrest, hrun, ht⟩ := h
  refine ⟨e :: es, t, ⟨hallowed, fun u hu => ?_⟩, ?_, ht⟩
  · rwa [Option.some.inj (hu.symm.trans hstep)]
  · rw [System.runFrom, hstep]
    exact hrun

theorem Breaks.of_not_answered {s : State × List Output} (h : ¬ Answered s) : Breaks s :=
  ⟨[], s, trivial, rfl, h⟩

section Violations
variable {s : State × List Output}

theorem not_answered_of_output {t : State} {out : List Output} {o : Output}
    (ho : ¬ Answering out o) : ¬ Answered (t, out ++ [o]) := fun h => ho (h.inOrder out o [] rfl)

/-- A posted task answers although no query is open. -/
theorem breaks_of_posted (hposted : s.1.recvTaskPosted = true)
    (hclosed : queries s.2 = answers s.2) : Breaks s := by
  obtain ⟨_, state, data, -, heq⟩ := recvTask_heard [] { s.1 with recvTaskPosted := false }
  have hstep : machine.system.step s (.recvTask []) =
      some ((recvTask [] { s.1 with recvTaskPosted := false }).1,
        s.2 ++ [.readDone state data]) := by
    simp only [Machine.system, machine, step, hposted, if_true, Option.map_some, heq]
  apply Breaks.of_step (e := .recvTask []) rfl hstep
  apply Breaks.of_not_answered
  apply not_answered_of_output
  simp [Answering, hclosed]

theorem breaks_of_timer1 (htimer : s.1.timer1 = true) (hclosed : queries s.2 = answers s.2) :
    Breaks s := by
  have hstep : machine.system.step s (.timer1Fired []) =
      some (timer1Fired [] { s.1 with timer1 := false }, s.2) := by
    simp [Machine.system, machine, step, htimer]
  exact Breaks.of_step (e := .timer1Fired []) trivial hstep (breaks_of_posted rfl hclosed)

/-- A free driver takes the next command before the open query is answered. -/
theorem breaks_of_free (hsend : s.1.isSend = false) (hopen : queries s.2 = answers s.2 + 1) :
    Breaks s := by
  have hready : State.ready { s.1 with isStart := true } = true := by simp [State.ready, hsend]
  have hstart : machine.system.step s .start =
      some ({ s.1 with isStart := true }, s.2 ++ [.startDone .success]) := rfl
  have hpause : machine.system.step ({ s.1 with isStart := true }, s.2 ++ [.startDone .success])
      (.command .pause []) = some ((call .pause [] { s.1 with isStart := true }).1,
        s.2 ++ [.startDone .success] ++ [.accepted .pause]) := by
    simp [Machine.system, machine, step, call_ready hready]
  apply Breaks.of_step (e := .start) trivial hstart
  apply Breaks.of_step (e := .command .pause []) trivial hpause
  apply Breaks.of_not_answered
  apply not_answered_of_output
  simp [Answering, Output.isQuery, Output.isAnswer, hopen]

end Violations

theorem Balanced.breaks_granted {s : State × List Output} (h : Balanced s) {irqs : List Rx}
    (hrequested : s.1.requested = true) (howner : s.1.owner = false) {t : State}
    (ht : t = rxAll irqs { s.1 with requested := false, owner := true })
    (hnot : ¬ Heeded s (.granted irqs)) :
    Breaks (if s.1.cmdlength = 4 then { t with timer1 := true } else clearSend (release t),
      s.2 ++ [.wrote (s.1.carCommand.take s.1.cmdlength)]) := by
  have hheard := heard_rxAll irqs { s.1 with requested := false, owner := true }
  have hposted := rxAll_posted irqs { s.1 with requested := false, owner := true }
  rw [← ht] at hheard hposted
  have hwaiting := h.waiting hrequested
  cases hquery : querying s.1 with
  | true =>
    -- The query is sent as a drive command and the driver is free at once.
    have hlong : s.1.cmdlength ≠ 4 := fun hlength =>
      hnot ⟨by simp [hlength, hquery], by simp [hquery]⟩
    have hopen : queries (s.2 ++ [.wrote (s.1.carCommand.take s.1.cmdlength)]) =
        answers (s.2 ++ [.wrote (s.1.carCommand.take s.1.cmdlength)]) + 1 := by
      simpa [hquery, Output.isQuery, Output.isAnswer] using hwaiting
    rw [if_neg hlong]
    cases hfilled : completes irqs { s.1 with requested := false, owner := true } with
    | true => exact breaks_of_free rfl hopen
    | false =>
      apply Breaks.of_not_answered
      intro hanswered
      have hsilent : t.recvTaskPosted = false := by
        rw [hposted, hfilled, Bool.or_false]
        exact (h.still howner).2
      have htimer : t.timer1 = false := by
        rcases hheard.wake with ⟨htimer, -⟩ | ⟨-, htimer, -⟩
        · exact htimer.trans (h.still howner).1
        · exact htimer
      have hcount := hanswered.settled ⟨rfl, hheard.requested, htimer, hsilent⟩
      exact absurd (hcount.trans hopen) (Nat.succ_ne_self _).symm
  | false =>
    have hclosed : queries (s.2 ++ [.wrote (s.1.carCommand.take s.1.cmdlength)]) =
        answers (s.2 ++ [.wrote (s.1.carCommand.take s.1.cmdlength)]) := by
      simpa [hquery, Output.isQuery, Output.isAnswer] using hwaiting
    by_cases hlength : s.1.cmdlength = 4
    · rw [if_pos hlength]
      exact breaks_of_timer1 rfl hclosed
    · rw [if_neg hlength]
      have hfilled : completes irqs { s.1 with requested := false, owner := true } = true := by
        by_contra hquiet
        exact hnot ⟨by simp [hlength, hquery], fun _ => Bool.eq_false_iff.mpr hquiet⟩
      refine breaks_of_posted ?_ hclosed
      change t.recvTaskPosted = true
      rw [hposted, hfilled, Bool.or_true]

/-- After any other step than these a wrong answer or count may follow, the driver not
being stopped. -/
theorem Balanced.breaks {s : State × List Output} (h : Balanced s) {e : Event} {t : State}
    {out : List Output} (hstep : step s.1 e = some (t, out)) (hstop : e ≠ .stop)
    (hnot : ¬ Heeded s e) : Breaks (t, s.2 ++ out) := by
  have heffect := step_effect hstep
  cases heffect with
  | start | accepted | refused | rxDone | timer1Fired => exact absurd trivial hnot
  | stop => exact absurd rfl hstop
  | granted hrequested howner ht => exact h.breaks_granted hrequested howner ht hnot
  | @recvTask irqs t state data hposted hisStart hisSend howner hrequested =>
    obtain ⟨-, hopen⟩ := h.owning (h.waking (.inr hposted))
    obtain ⟨-, hrun⟩ := Option.ite_none_right_eq_some.mp hstep
    have ht : (CarP.recvTask irqs { s.1 with recvTaskPosted := false }).1 = t :=
      congrArg Prod.fst (Option.some.inj hrun)
    apply breaks_of_posted
    · rw [← ht, recvTask_posted, Bool.false_or]
      exact Bool.of_not_eq_false hnot
    · simp [Output.isQuery, Output.isAnswer, hopen]

/-- In every run of heeded steps each `readDone` answers the one query that is open,
nothing is accepted in between, and a settled driver has answered as often as it was
asked; and after any other step, short of a stop, heeded ones may lead to the contrary. -/
theorem one_answer_per_query {s : State × List Output}
    (h : machine.system.Reachable Heeded s) :
    Answered s ∧ ∀ e s', machine.system.step s e = some s' → e ≠ .stop →
      (Heeded s e ↔ ¬ Breaks s') := by
  refine ⟨answered_of_reachable h, fun e s' hstep hstop => ⟨?_, ?_⟩⟩
  · rintro hallowed ⟨es, t, hrest, hrun, ht⟩
    exact ht (answered_of_reachable (System.reachable_of_runFrom (h.step hallowed hstep) es
      hrest hrun))
  · intro hkept
    by_contra hnot
    obtain ⟨t, out, hrun, rfl⟩ := machine.system_step hstep
    exact hkept ((balanced_of_reachable h).breaks hrun hstop hnot)

/-- The reader's frame comes in while the query is sent, and a drive command is
refused before it is read. -/
theorem one_answer_per_query_refused :
    ∃ s, machine.system.Reachable Heeded s ∧ Settled s.1 ∧ queries s.2 = 1 ∧
      answers s.2 = 1 := by
  have hinit : machine.system.Reachable Heeded _ := .init
  have hstart := hinit.step (e := Event.start) trivial rfl
  have hquery := hstart.step (e := Event.command (.quiryReader 100) []) trivial rfl
  have hgrant := hquery.step
    (e := Event.granted [⟨255, 0⟩, ⟨255, 0⟩, ⟨0, 0⟩, ⟨0, 0⟩, ⟨0, 0⟩, ⟨0, 0⟩, ⟨0, 0⟩, ⟨5, 0⟩])
    ⟨by decide, by decide⟩ rfl
  have hpause := hgrant.step (e := Event.command .pause []) trivial rfl
  have htask := hpause.step (e := Event.recvTask []) (by decide : completesThrough _ _ _ _ = _) rfl
  refine ⟨_, htask, ⟨rfl, rfl, rfl, rfl⟩, by decide, ?_⟩
  exact ((one_answer_per_query htask).1.settled ⟨rfl, rfl, rfl, rfl⟩).trans (by decide)

/-- A query that is refused makes the waiting drive command answer. -/
theorem refused_query_answers :
    ∃ s, machine.system.Reachable (fun _ e => e ≠ Event.stop) s ∧ Settled s.1 ∧
      queries s.2 = 0 ∧ answers s.2 = 1 := by
  have hinit : machine.system.Reachable (fun _ e => e ≠ Event.stop) _ := .init
  have hstart := hinit.step (e := Event.start) (by decide) rfl
  have hangle := hstart.step (e := Event.command (.angle 2800) []) (by decide) rfl
  have hquery := hangle.step (e := Event.command (.quiryReader 100) []) (by decide) rfl
  have hgrant := hquery.step (e := Event.granted []) (by decide) rfl
  have htimer := hgrant.step (e := Event.timer1Fired []) (by decide) rfl
  have htask := htimer.step (e := Event.recvTask []) (by decide) rfl
  exact ⟨_, htask, ⟨rfl, rfl, rfl, rfl⟩, by decide, by decide⟩

end WsnContest.CarP
