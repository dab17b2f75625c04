import WsnContest.Lib.Quota
import WsnContest.Gossip.Trace

/-! How often a stale frame is answered. `stale_count` also counts the frames that are no
longer answered, in sixteen bits: a wrap starts the answers again. -/
namespace WsnContest.Gossip
open Tinyos Lib

/-- What is watched of a node: its status changed, or `Receive.receive` called
`sendStatus` for a frame strictly inside it. -/
inductive Mark where
  | changed
  | answered
  deriving DecidableEq, Repr

def changes (s t : State) : List Mark := if t.status = s.status then [] else [.changed]

/-- The frame is strictly inside the status. -/
def stale (msg : Message) (s : State) : Bool :=
  msg.length = sizeofTestSendMsg && msg.payload.inside s.status

def answers (p : Settings) (msg : Message) (s : State) : List Mark :=
  if stale msg s && s.speaks p msg.payload then [.answered] else []

/-- A node that hears any frame at any time, and handles its own events by `handle`. -/
def watched {E : Type} (p : Settings) (handle : E → State → Option (State × List Message)) :
    Machine State (NodeEvent E) Mark where
  init := {}
  step s
    | .own e => (handle e s).map fun r => (r.1, changes s r.1)
    | .heard sent msg =>
      let t := (receive p sent msg s).1
      some (t, answers p msg s ++ changes s t)

/-- The counter does not wrap. -/
def CountsStale {E : Type} (s : State × List Mark) : NodeEvent E → Prop
  | .heard _ msg => stale msg s.1 = true → s.1.staleCount ≠ 0xffff
  | .own _ => True

instance {E : Type} (s : State × List Mark) : (e : NodeEvent E) → Decidable (CountsStale s e)
  | .heard _ msg => inferInstanceAs (Decidable (stale msg s.1 = true → s.1.staleCount ≠ 0xffff))
  | .own _ => .isTrue trivial

/-- No stretch of the marks without a change holds more answers than the threshold. -/
def AnswersBounded (p : Settings) (marks : List Mark) : Prop :=
  ∀ pre mid post, marks = pre ++ mid ++ post → .changed ∉ mid →
    mid.count .answered ≤ p.staleCountThd.val

/-- The answers since the last change are among the frames counted. -/
def Answered (p : Settings) (s : State) : Option ℕ → Prop
  | none => False
  | some n => n ≤ s.staleCount.val ∧ n ≤ p.staleCountThd.val

section Steps
variable {p : Settings} {s : State} {msg : Message}

theorem changes_of_eq {t : State} (h : t.status = s.status) : changes s t = [] := if_pos h

theorem le_of_inside {rm status : TestSendMsg} (h : rm.inside status = true) : rm ≤ status := by
  simp only [TestSendMsg.inside, Bool.and_eq_true, decide_eq_true_eq] at h
  exact ⟨h.1.le, h.2.le⟩

/-- A frame that the status covers moves neither end of it. -/
theorem not_news {rm status : TestSendMsg} (h : rm ≤ status) :
    ¬ (status.max < rm.max ∨ rm.min < status.min) :=
  not_or.mpr ⟨not_lt.mpr h.1, not_lt.mpr h.2⟩

/-- A stale frame is counted, and answered while the counter is low. -/
theorem receive_stale (h : stale msg s = true) (sent : ErrorT) :
    (receive p sent msg s).1.status = s.status ∧
    (receive p sent msg s).1.staleCount = s.staleCount + 1 ∧
    answers p msg s = if s.staleCount < p.staleCountThd then [.answered] else [] := by
  obtain ⟨hlen, hin⟩ : msg.length = sizeofTestSendMsg ∧ msg.payload.inside s.status = true := by
    simpa [stale] using h
  have hle := le_of_inside hin
  have hnews := not_news hle
  refine ⟨?_, ?_, ?_⟩
  · rw [receive_status, if_pos hlen, sup_eq_left.mpr hle]
  · rw [receive_staleCount, if_pos hlen, State.hear]
    simp only [if_neg hnews, hin, if_true]
  · simp [answers, h, State.speaks, hin, hnews]

/-- Any other frame is not, and the counter only falls with a change. -/
theorem receive_fresh (h : stale msg s = false) (sent : ErrorT) :
    answers p msg s = [] ∧
    ((receive p sent msg s).1.status = s.status →
      (receive p sent msg s).1.staleCount = s.staleCount) := by
  refine ⟨by simp [answers, h], fun hstatus => ?_⟩
  rw [receive_staleCount]
  split
  · next hlen =>
    have hin : msg.payload.inside s.status = false := by simpa [stale, hlen] using h
    have hle : msg.payload ≤ s.status := by
      rw [receive_status, if_pos hlen] at hstatus
      exact sup_eq_left.mp hstatus
    simp [State.hear, not_news hle, hin]
  · rfl

/-- A step without an answer. -/
theorem changes_affords {k : Option ℕ} (h : Answered p s k) {t : State}
    (hcount : t.status = s.status → t.staleCount = s.staleCount) :
    Affords (· == .changed) (· == .answered) p.staleCountThd.val k (changes s t) ∧
      Answered p t (spent (· == .changed) (· == .answered) k (changes s t)) := by
  by_cases hsame : t.status = s.status
  · rw [changes_of_eq hsame, spent_nil]
    refine ⟨trivial, ?_⟩
    unfold Answered
    rw [hcount hsame]
    exact h
  · rw [changes, if_neg hsame]
    exact ⟨⟨nofun, trivial⟩, Nat.zero_le _, Nat.zero_le _⟩

/-- A stale frame that does not wrap the counter. -/
theorem stale_affords {k : Option ℕ} (h : Answered p s k) (hcount : s.staleCount ≠ 0xffff)
    {t : State} (ht : t.staleCount = s.staleCount + 1) :
    let marks := if s.staleCount < p.staleCountThd then [Mark.answered] else []
    Affords (· == .changed) (· == .answered) p.staleCountThd.val k marks ∧
      Answered p t (spent (· == .changed) (· == .answered) k marks) := by
  cases k with
  | none => exact h.elim
  | some n =>
    obtain ⟨hn, hlimit⟩ := h
    have hgrow : t.staleCount.val = s.staleCount.val + 1 := by
      have hne : s.staleCount.val ≠ 65535 := fun heq => hcount (Fin.ext heq)
      have hlt := s.staleCount.isLt
      rw [ht]
      exact Fin.val_add_one_of_lt' (by omega)
    dsimp only
    split
    · next hlow =>
      have hless : s.staleCount.val < p.staleCountThd.val := hlow
      have hnext : n + 1 ≤ t.staleCount.val ∧ n + 1 ≤ p.staleCountThd.val := by omega
      exact ⟨⟨fun _ => ⟨n, by omega, rfl⟩, trivial⟩, hnext⟩
    · have hnext : n ≤ t.staleCount.val ∧ n ≤ p.staleCountThd.val := by omega
      exact ⟨trivial, hnext⟩

variable {E : Type} {handle : E → State → Option (State × List Message)}

/-- Where only the radio touches the counter, answers are bounded as long as it does not
wrap. -/
theorem watched_bounded
    (hhandle : ∀ e s t fs, handle e s = some (t, fs) → t.staleCount = s.staleCount)
    {s : State × List Mark} (h : (watched p handle).system.Reachable CountsStale s) :
    AnswersBounded p s.2 := by
  have hinit : Answered p (watched p handle).init (some 0) := ⟨Nat.zero_le _, Nat.zero_le _⟩
  have haffords : Affords (· == .changed) (· == .answered) p.staleCountThd.val (some 0) s.2 := by
    apply Machine.affords (Answered p) hinit ?_ h
    intro s k e t out hs hallowed hstep
    cases e with
    | own e =>
      obtain ⟨⟨u, fs⟩, hrun, hpair⟩ := Option.map_eq_some_iff.mp hstep
      cases hpair
      exact changes_affords hs fun _ => hhandle e s.1 u fs hrun
    | heard sent msg =>
      cases hstep
      cases hstale : stale msg s.1 with
      | true =>
        obtain ⟨hstatus, hcount, hanswers⟩ := receive_stale (p := p) hstale sent
        rw [changes_of_eq hstatus, List.append_nil, hanswers]
        exact stale_affords hs (hallowed hstale) hcount
      | false =>
        obtain ⟨hanswers, hcount⟩ := receive_fresh (p := p) hstale sent
        rw [hanswers]
        exact changes_affords hs hcount
  intro pre mid post heq hnone
  apply (heq ▸ haffords).between
  intro o ho
  exact beq_false_of_ne fun hchanged => hnone (hchanged ▸ ho)

/-- Stale frames are answered up to the threshold, and counted up to the wrap. -/
theorem stale_frames (n : ℕ) {out : List Mark} (h : stale msg s = true)
    (hn : s.staleCount.val + n ≤ 2 ^ 16) :
    ∃ t, (watched p handle).system.runFrom (s, out) (List.replicate n (.heard .success msg)) =
        some (t, out ++ List.replicate (min n (p.staleCountThd.val - s.staleCount.val)) .answered) ∧
      t.status = s.status ∧ t.staleCount.val = (s.staleCount.val + n) % 2 ^ 16 := by
  induction n with
  | zero => exact ⟨s, by simp [System.runFrom], rfl, (Nat.mod_eq_of_lt s.staleCount.isLt).symm⟩
  | succ n ih =>
    obtain ⟨t, hrun, hstatus, hcount⟩ := ih (by omega)
    have hstale : stale msg t = true := by rwa [stale, hstatus]
    obtain ⟨hstatus', hcount', hanswers⟩ := receive_stale (p := p) hstale .success
    have hone : ((1 : Word16) : ℕ) = 1 := rfl
    refine ⟨(receive p .success msg t).1, ?_, hstatus'.trans hstatus, ?_⟩
    · rw [List.replicate_succ', System.runFrom_append, hrun, Option.bind_some, System.runFrom,
        Machine.system, watched]
      dsimp only
      rw [Option.map_some, Option.bind_some, changes_of_eq hstatus', List.append_nil, hanswers,
        System.runFrom, List.append_assoc]
      congr 3
      split
      · next hlow =>
        have hless : t.staleCount.val < p.staleCountThd.val := hlow
        rw [← List.replicate_succ']
        congr 1
        omega
      · next hhigh =>
        have hmore : p.staleCountThd.val ≤ t.staleCount.val := not_lt.mp hhigh
        rw [List.append_nil]
        congr 1
        omega
    · rw [hcount', Fin.val_add, hcount, hone]
      omega

/-- After the wrap one more is answered. -/
theorem answered_again {s : State × List Mark}
    (hreach : (watched p handle).system.Reachable System.anyStep s) (h : stale msg s.1 = true)
    (hzero : s.1.staleCount = 0) (hthd : 0 < p.staleCountThd) :
    ∃ t, (watched p handle).system.Reachable System.anyStep t ∧
      t.2 = s.2 ++ List.replicate (p.staleCountThd.val + 1) .answered ∧
      ¬ AnswersBounded p t.2 := by
  have hval : s.1.staleCount.val = 0 := congrArg Fin.val hzero
  have hpos : 0 < p.staleCountThd.val := hthd
  have hlt := p.staleCountThd.isLt
  obtain ⟨n, hn⟩ : ∃ n, n = 2 ^ 16 := ⟨_, rfl⟩
  obtain ⟨t, hrun, hstatus, hcount⟩ := @stale_frames p s.1 msg _ handle n s.2 h (by omega)
  have hstale : stale msg t = true := by rwa [stale, hstatus]
  obtain ⟨u, hlast, -, -⟩ := @stale_frames p t msg _ handle 1
    (s.2 ++ List.replicate (min n (p.staleCountThd.val - s.1.staleCount.val)) .answered) hstale
    (by omega)
  have hwrapped := System.reachable_of_runFrom hreach _ (System.allowedFrom_any _ _ _) hrun
  have hanswers : min n (p.staleCountThd.val - s.1.staleCount.val) +
      min 1 (p.staleCountThd.val - t.staleCount.val) = p.staleCountThd.val + 1 := by omega
  rw [List.append_assoc, List.replicate_append_replicate, hanswers] at hlast
  refine ⟨_, System.reachable_of_runFrom hwrapped _ (System.allowedFrom_any _ _ _) hlast, rfl, ?_⟩
  intro hbounded
  have hmore := hbounded s.2 (List.replicate (p.staleCountThd.val + 1) .answered) []
    (List.append_nil _).symm (by simp)
  rw [List.count_replicate_self] at hmore
  omega

end Steps

end WsnContest.Gossip

namespace WsnContest.BiDaXiao
open Tinyos Gossip Lib

theorem handle_staleCount {p : Settings} (e : Event) (s t : State) (fs : List Message)
    (h : handle p e s = some (t, fs)) : t.staleCount = s.staleCount := by
  cases e with
  | startDone err =>
    cases h
    obtain ⟨milliTimer, heq⟩ := startDone_eq err s
    rw [heq]
  | milliTimerFired =>
    obtain ⟨-, hrun⟩ := Option.ite_none_right_eq_some.mp h
    cases hrun
    obtain ⟨timeCount, stableCount, resultSent, heq⟩ := milliTimerFired_eq p s
    rw [heq]
  | sendTimerFired sent =>
    obtain ⟨-, hrun⟩ := Option.ite_none_right_eq_some.mp h
    obtain rfl : _ = t := congrArg Prod.fst (Option.some.inj hrun)
    exact sendStatus_staleCount ..
  | resendTimerFired sent =>
    obtain ⟨-, hrun⟩ := Option.ite_none_right_eq_some.mp h
    obtain rfl : _ = t := congrArg Prod.fst (Option.some.inj hrun)
    exact sendStatus_staleCount ..
  | sendDone err =>
    obtain ⟨-, hrun⟩ := Option.ite_none_right_eq_some.mp h
    cases hrun
    obtain ⟨resendTimer, heq⟩ := sendDone_eq err { s with outstanding := s.outstanding - 1 }
    rw [heq]
  | serialReceive len rcm =>
    cases h
    rw [serialReceive_eq]
    split
    · rfl
    · rfl

/-- The node with the id `tosNodeId`, watched. -/
abbrev watchedNode (tosNodeId : Word16) : Machine State (NodeEvent Event) Mark :=
  watched (settings tosNodeId) (handle (settings tosNodeId))

end WsnContest.BiDaXiao

namespace WsnContest.MinMax
open Tinyos Gossip Lib

theorem handle_staleCount {sim : Bool} {p : Settings} (e : Event) (s t : State)
    (fs : List Message) (h : handle sim p e s = some (t, fs)) : t.staleCount = s.staleCount := by
  cases e with
  | startDone err sent =>
    obtain rfl : (startDone sim p err sent s).1 = t := congrArg Prod.fst (Option.some.inj h)
    by_cases herr : err = .success
    · rw [herr, startDone_success]
      split
      · exact sendStatus_staleCount ..
      · rfl
    · rw [startDone, if_neg herr]
  | milliTimerFired =>
    obtain ⟨-, hrun⟩ := Option.ite_none_right_eq_some.mp h
    cases hrun
    unfold milliTimerFired milliTick
    dsimp only
    split
    · rfl
    · rfl
  | resendTimerFired sent =>
    obtain ⟨-, hrun⟩ := Option.ite_none_right_eq_some.mp h
    obtain rfl : _ = t := congrArg Prod.fst (Option.some.inj hrun)
    exact sendStatus_staleCount ..
  | sendDone err =>
    obtain ⟨-, hrun⟩ := Option.ite_none_right_eq_some.mp h
    cases hrun
    rfl
  | serialReceive len rcm sent =>
    obtain rfl : (serialReceive p len rcm sent s).1 = t := congrArg Prod.fst (Option.some.inj h)
    rw [serialReceive_eq]
    split
    · exact sendStatus_staleCount ..
    · rfl

/-- The node with the id `tosNodeId`, watched. -/
abbrev watchedNode (sim : Bool) (tosNodeId : Word16) : Machine State (NodeEvent Event) Mark :=
  watched (settings sim tosNodeId) (handle sim (settings sim tosNodeId))

end WsnContest.MinMax

namespace WsnContest.Gossip
open Tinyos Lib

/-- While `stale_count` does not wrap, both programs answer no more than `STALE_COUNT_THD`
stale frames between two changes of the status. -/
theorem stale_answers_bounded (sim : Bool) (tosNodeId : Word16) (s : State × List Mark) :
    ((BiDaXiao.watchedNode tosNodeId).system.Reachable CountsStale s →
      AnswersBounded (BiDaXiao.settings tosNodeId) s.2) ∧
    ((MinMax.watchedNode sim tosNodeId).system.Reachable CountsStale s →
      AnswersBounded (MinMax.settings sim tosNodeId) s.2) :=
  ⟨fun h => watched_bounded BiDaXiao.handle_staleCount h,
    fun h => watched_bounded MinMax.handle_staleCount h⟩

/-- The first frames that a node with the number 5 hears widen its status to `(9, 1)`. -/
def widening {E : Type} (e : E) : List (NodeEvent E) :=
  [.own e, .heard .success ⟨sizeofTestSendMsg, ⟨9, 1⟩⟩]

/-- The frame `(5, 3)` again and again. -/
def repeating {E : Type} (n : ℕ) : List (NodeEvent E) :=
  List.replicate n (.heard .success ⟨sizeofTestSendMsg, ⟨5, 3⟩⟩)

theorem stale_answers_bounded_widening :
    (∃ s, (BiDaXiao.watchedNode 7).system.run
        (widening (.serialReceive sizeofTestSerialMsg ⟨7, 5⟩) ++ repeating 3) = some s ∧
      s.2 = [.changed, .changed, .answered] ∧ AnswersBounded (BiDaXiao.settings 7) s.2) ∧
    ∃ s, (MinMax.watchedNode true 5).system.run
        (widening (.startDone .success .success) ++ repeating 3) = some s ∧
      s.2 = [.changed, .changed, .answered, .answered] ∧
        AnswersBounded (MinMax.settings true 5) s.2 :=
  ⟨⟨_, rfl, by decide, (stale_answers_bounded true 7 _).1
      (System.reachable_of_run (widening (.serialReceive sizeofTestSerialMsg ⟨7, 5⟩) ++
        repeating 3) (by decide) rfl)⟩,
    _, rfl, by decide, (stale_answers_bounded true 5 _).2
      (System.reachable_of_run (widening (.startDone .success .success) ++ repeating 3)
        (by decide) rfl)⟩

/-- The frame 65536 times, and once more: `stale_count` is zero again, and the answer goes
out again though the status never changed. -/
theorem stale_answers_wrap :
    (∃ s, (BiDaXiao.watchedNode 7).system.Reachable System.anyStep s ∧
      s.2 = [.changed, .changed, .answered, .answered] ∧
        ¬ AnswersBounded (BiDaXiao.settings 7) s.2) ∧
    ∃ s, (MinMax.watchedNode true 5).system.Reachable System.anyStep s ∧
      s.2 = [.changed, .changed, .answered, .answered, .answered] ∧
        ¬ AnswersBounded (MinMax.settings true 5) s.2 := by
  let node := BiDaXiao.watchedNode 7
  let node' := MinMax.watchedNode true 5
  have hinit : node.system.Reachable System.anyStep node.system.init := .init
  have hinit' : node'.system.Reachable System.anyStep node'.system.init := .init
  have hnumber := System.reachable_of_runFrom hinit
    (widening (.serialReceive sizeofTestSerialMsg ⟨7, 5⟩)) (System.allowedFrom_any _ _ _) rfl
  have hstart := System.reachable_of_runFrom hinit'
    (widening (.startDone .success .success)) (System.allowedFrom_any _ _ _) rfl
  constructor
  · exact @answered_again _ ⟨sizeofTestSendMsg, ⟨5, 3⟩⟩ _ _ _ hnumber (by decide) rfl (by decide)
  · exact @answered_again _ ⟨sizeofTestSendMsg, ⟨5, 3⟩⟩ _ _ _ hstart (by decide) rfl (by decide)

end WsnContest.Gossip
