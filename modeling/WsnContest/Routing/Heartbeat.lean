import WsnContest.Routing.Buffer

/-! The beacons of the sink. `Timer0` runs once and is started again only by a beacon
that was sent, so one beacon that finds the node busy, or the radio unwilling, is the
last. -/
namespace WsnContest.Routing
open Tinyos Lib

/-- Once the radio has started, the next beacon is due. -/
def Beating (s : State × List Output) : Prop :=
  s.1.radio = .on → s.1.timer0.isSome

/-- `Timer0` fires only while the node is not busy and its beacon is accepted. -/
def Rearming (s : State × List Output) : NodeEvent → Prop
  | .own (.timer0Fired sent) => s.1.busy = false ∧ sent = .success
  | .own .booted | .own (.startDone _) | .own (.timer1Fired _) | .own (.sendDone _ _)
  | .own (.sourceData ..) | .heard _ _ | .transmit => True

instance (s : State × List Output) : (e : NodeEvent) → Decidable (Rearming s e)
  | .own (.timer0Fired sent) => inferInstanceAs (Decidable (s.1.busy = false ∧ sent = .success))
  | .own .booted | .own (.startDone _) | .own (.timer1Fired _) | .own (.sendDone _ _)
  | .own (.sourceData ..) | .heard _ _ | .transmit => .isTrue trivial

/-- The timer runs exactly while the radio is on, which finds the node a destination. -/
structure Awake (s : State) : Prop where
  type : s.radio = .starting → s.type = .dst
  timer : s.timer0.isSome ↔ s.radio = .on

section Steps
variable {s : State}

theorem timer0Fired_timer0 (sent : ErrorT) :
    (timer0Fired recvNodeId sent { s with timer0 := none }).1.radio = s.radio ∧
    ((timer0Fired recvNodeId sent { s with timer0 := none }).1.timer0.isSome ↔
      s.busy = false ∧ sent = .success) := by
  unfold timer0Fired
  rw [if_pos rfl]
  dsimp only [busy_fill]
  cases hbusy : s.busy with
  | true => exact ⟨rfl, by simp [State.fill]⟩
  | false =>
    by_cases hsent : sent = .success
    · simp [hsent, State.amSend, State.fill]
    · simp [hsent, State.amSend, State.fill]

theorem Awake.keep (hs : Awake s) {t : State} (hclock : t.clock = s.clock)
    (htype : s.radio = .starting → t.type = s.type) : Awake t := by
  obtain ⟨htimer, hradio⟩ := Prod.mk.inj hclock
  have htimer : t.timer0 = s.timer0 := htimer
  have hradio : t.radio = s.radio := hradio
  constructor
  · intro hstarting
    rw [hradio] at hstarting
    exact (htype hstarting).trans (hs.type hstarting)
  · rw [htimer, hradio]
    exact hs.timer

/-- Before the radio is on, no frame reaches a handler. -/
theorem Awake.hear (hs : Awake s) (ans : Answers) (f : Frame) :
    Awake (hear recvNodeId ans f s).1 := by
  apply hs.keep (clock_hear recvNodeId s ans f)
  intro hstarting
  rw [Routing.hear, if_neg (by simp [hstarting])]

/-- A firing that does not send leaves the node without a timer. -/
theorem Awake.fired (hs : Awake s) (htimer : s.timer0.isSome) (sent : ErrorT) :
    (s.busy = false ∧ sent = .success →
      Awake (timer0Fired recvNodeId sent { s with timer0 := none }).1) ∧
    (((timer0Fired recvNodeId sent { s with timer0 := none }).1.radio = .on →
        (timer0Fired recvNodeId sent { s with timer0 := none }).1.timer0.isSome) →
      s.busy = false ∧ sent = .success) := by
  obtain ⟨hradio, hstarted⟩ := @timer0Fired_timer0 s sent
  have hon : s.radio = .on := hs.timer.mp htimer
  constructor
  · intro hrearming
    refine ⟨fun hstarting => ?_, ?_⟩
    · rw [hradio, hon] at hstarting
      cases hstarting
    · exact iff_of_true (hstarted.mpr hrearming) (hradio.trans hon)
  · intro hbeating
    exact hstarted.mp (hbeating (hradio.trans hon))

/-- Exactly the steps that start the timer again keep the beacons going. -/
theorem Awake.step (hs : Awake s) {e : NodeEvent} {t : State} {out : List Output}
    (h : nodeStep recvNodeId s e = some (t, out)) (log : List Output) :
    (Rearming (s, log) e → Awake t) ∧
      ((t.radio = .on → t.timer0.isSome) → Rearming (s, log) e) := by
  cases nodeStep_dispatch h with
  | booted hoff =>
    refine ⟨fun _ => ⟨fun _ => rfl, ?_⟩, fun _ => trivial⟩
    have htimer : ¬ s.timer0.isSome := by
      rw [hs.timer, hoff]
      decide
    simpa [booted] using htimer
  | startDone hstarting =>
    refine ⟨fun _ => ?_, fun _ => trivial⟩
    unfold startDone
    split
    · have hdst : s.type = .dst := hs.type hstarting
      constructor
      · simp [hdst]
      · simp [hdst]
    · exact hs
  | timer0Fired htimer => exact hs.fired htimer _
  | @timer1Fired sent =>
    refine ⟨fun _ => ?_, fun _ => trivial⟩
    apply hs.keep (clock_timer1Fired recvNodeId { s with timer1 := none } sent)
    obtain ⟨packet, pending, heq⟩ := timer1Fired_eq recvNodeId { s with timer1 := none } sent
    rw [heq]
    exact fun _ => rfl
  | sendDone => exact ⟨fun _ => hs.keep rfl fun _ => rfl, fun _ => trivial⟩
  | sourceData => exact ⟨fun _ => hs.hear _ _, fun _ => trivial⟩
  | heard => exact ⟨fun _ => hs.hear _ _, fun _ => trivial⟩
  | transmit => exact ⟨fun _ => hs, fun _ => trivial⟩

/-- A timer that was not started again stays so. -/
theorem silent_step {e : NodeEvent} {t : State} {out : List Output}
    (h : nodeStep recvNodeId s e = some (t, out)) (hs : s.clock = (none, .on)) :
    t.clock = (none, .on) := by
  obtain ⟨htimer, hon⟩ := Prod.mk.inj hs
  have htimer : s.timer0 = none := htimer
  have hon : s.radio = .on := hon
  cases nodeStep_dispatch h with
  | booted hoff => simp [hon] at hoff
  | startDone hstarting => simp [hon] at hstarting
  | timer0Fired hdue => simp [htimer] at hdue
  | timer1Fired =>
    exact (clock_timer1Fired recvNodeId { s with timer1 := none } _).trans hs
  | sendDone => exact hs
  | sourceData => exact (clock_hear ..).trans hs
  | heard => exact (clock_hear ..).trans hs
  | transmit => exact hs

end Steps

/-- No run of node 1 brings a beacon timer back that has stopped. -/
theorem silent_for_ever (es : List NodeEvent) {s t : State × List Output}
    (hs : s.1.clock = (none, .on)) (hrun : (machine recvNodeId).system.runFrom s es = some t) :
    t.1.clock = (none, .on) := by
  apply Machine.runFrom_invariant (P := fun s => s.1.clock = (none, .on)) es ?_ hs hrun
  intro e _ s t out hsilent he
  exact silent_step he hsilent

/-- In every run of node 1 the next beacon is due at all times exactly if each firing of
`Timer0` finds the node not busy and its beacon accepted. -/
theorem beacon_never_dies_iff (es : List NodeEvent) {s : State × List Output}
    (hrun : (machine recvNodeId).system.run es = some s) :
    (machine recvNodeId).system.Always Beating (machine recvNodeId).system.init es ↔
      (machine recvNodeId).system.AllowedFrom Rearming (machine recvNodeId).system.init es := by
  have hinit : Awake (machine recvNodeId).system.init.1 := ⟨nofun, by decide⟩
  apply Machine.always_iff_allowedFrom (fun s => Awake s.1) (fun _ hs => hs.timer.mpr) ?_ es
    hinit hrun
  intro s e t out hs he
  exact hs.step he s.2

/-- The sink boots, and its first two beacons are sent. -/
def twoBeacons : List NodeEvent :=
  [.own .booted, .own (.startDone .success), .own (.timer0Fired .success),
    .own (.sendDone .route .success), .own (.timer0Fired .success)]

theorem beacon_never_dies_twice :
    (machine recvNodeId).system.Always Beating (machine recvNodeId).system.init twoBeacons :=
  (beacon_never_dies_iff twoBeacons rfl).mpr (by decide)

/-- A broadcast data frame makes node 1 send a control frame; its beacon falls due
before that is out, and there is never another. -/
theorem beacon_dies :
    ∃ s, (machine recvNodeId).system.run [.own .booted, .own (.startDone .success),
        .heard granting (airedBy 9 broadcastAddr (.beacon sample)),
        .own (.timer0Fired .success)] = some s ∧ ¬ Beating s := by
  refine ⟨_, rfl, fun hbeating => ?_⟩
  exact absurd (hbeating rfl) (by decide)

end WsnContest.Routing
