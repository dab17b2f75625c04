import WsnContest.Gossip.MinMax
import WsnContest.Lib.Storm

/-! `min_max` cannot storm. A node answers a frame because the frame widens its
status, which happens finitely often, or because the frame lies strictly inside
it; the answer is then strictly wider than the question. The stale counter,
which wraps, plays no part in it. -/
namespace WsnContest.MinMax
open Tinyos Gossip Lib

variable {V : Type}

abbrev Config (V : Type) := Network.Config (fun _ : V => State) Message
abbrev NetEvent (V : Type) := Network.Event (fun _ : V => Event) (fun _ : V => ErrorT)

/-- The radio accepts the send the handler may call. -/
def Event.accepted : Event → Prop
  | .startDone _ sent | .resendTimerFired sent | .serialReceive _ _ sent => sent = .success
  | .milliTimerFired | .sendDone _ => True

/-- Every send is accepted, a radio starts at most once, and a broadcast is
delivered at most once to each other node. Any delivery may be left out. -/
def onceOnly (c : Config V) : NetEvent V → Prop
  | .act v e => e.accepted ∧
      ∀ sent, e = .startDone .success sent → (c.node v).milliTimer = false
  | .deliver i v sent => sent = .success ∧ (i, v) ∉ c.delivered ∧ ∀ f, c.log[i]? ≠ some (v, f)

instance : (e : Event) → Decidable e.accepted
  | .startDone _ sent | .resendTimerFired sent | .serialReceive _ _ sent =>
    inferInstanceAs (Decidable (sent = .success))
  | .milliTimerFired | .sendDone _ => .isTrue trivial

/-- The start of a radio, and no other event. -/
def Event.isStart : Event → Bool
  | .startDone err _ => err = .success
  | _ => false

instance [DecidableEq V] (c : Config V) : (e : NetEvent V) → Decidable (onceOnly c e)
  | .act v e =>
    have : Decidable (∀ sent, e = .startDone .success sent → (c.node v).milliTimer = false) :=
      decidable_of_iff (e.isStart = true → (c.node v).milliTimer = false) (by
        cases e <;> simp [Event.isStart])
    inferInstanceAs (Decidable (e.accepted ∧ _))
  | .deliver i v sent =>
    have : Decidable (∀ f, c.log[i]? ≠ some (v, f)) :=
      decidable_of_iff (c.log[i]?.map Prod.fst ≠ some v) (by simp)
    inferInstanceAs (Decidable (sent = .success ∧ (i, v) ∉ c.delivered ∧ _))

/-- What accepted sends never change. -/
def Idle (s : State) : Prop := s.busyRadio = false ∧ s.resendTimer = false

/-- How often the node may still set its status anew. -/
def setupsLeft (s : State) : ℕ :=
  (!s.milliTimer).toNat + (!s.serialReceived).toNat

/-- A new number outweighs all the room a status can have. -/
def potential (s : State) : ℕ := setupsLeft s * 2 ^ 17 + s.status.room

theorem potential_lt_of_setupsLeft {s s' : State} (h : setupsLeft s' < setupsLeft s) :
    potential s' < potential s := by
  have := s'.status.room_lt
  unfold potential
  omega

@[simp] theorem setupsLeft_sendStatus (p : Settings) (sent : ErrorT) (s : State) :
    setupsLeft (sendStatus p sent s).1 = setupsLeft s := by
  simp [setupsLeft]

theorem idle_sendStatus {p : Settings} {s : State} (h : Idle s) :
    Idle (sendStatus p .success s).1 := by
  obtain ⟨hbusy, htimer⟩ := h
  obtain ⟨hbusy', htimer'⟩ := sendStatus_success_idle p hbusy
  exact ⟨hbusy', htimer'.trans htimer⟩

theorem idle_receive {p : Settings} {msg : Message} {s : State} (h : Idle s) :
    Idle (receive p .success msg s).1 := by
  obtain ⟨hbusy, htimer⟩ := h
  obtain ⟨hbusy', htimer'⟩ := receive_success_idle (p := p) msg hbusy
  exact ⟨hbusy', htimer'.trans htimer⟩

/-- A local event with an accepted send keeps the node idle; it uses up a setup,
or it sends nothing and leaves the potential alone. -/
theorem handle_accepted {sim : Bool} {p : Settings} {e : Event} {s s' : State}
    {fs : List Message} (hidle : Idle s) (he : e.accepted)
    (hstart : ∀ sent, e = .startDone .success sent → s.milliTimer = false)
    (h : handle sim p e s = some (s', fs)) :
    Idle s' ∧ (potential s' < potential s ∨ (potential s' ≤ potential s ∧ fs = [])) := by
  obtain ⟨sent, rfl, hcase⟩ | ⟨rcm, sent, rfl, hserial, rfl, rfl⟩ | ⟨sent, rfl, htimer, -⟩ |
    ⟨rfl, hsame⟩ := handle_cases h
  · obtain rfl : sent = .success := he
    have hfresh := hstart _ rfl
    have hsetups : setupsLeft (started sim p s) < setupsLeft s := by
      cases hsim : sim <;> cases hserial : s.serialReceived <;>
        simp [setupsLeft, started, hfresh, hserial]
    obtain ⟨-, rfl, rfl⟩ | ⟨-, rfl, rfl⟩ := hcase
    · exact ⟨hidle, .inl (potential_lt_of_setupsLeft hsetups)⟩
    · refine ⟨idle_sendStatus hidle, .inl (potential_lt_of_setupsLeft ?_)⟩
      simpa only [setupsLeft_sendStatus] using hsetups
  · obtain rfl : sent = .success := he
    refine ⟨idle_sendStatus hidle, .inl (potential_lt_of_setupsLeft ?_)⟩
    rw [setupsLeft_sendStatus]
    simp [setupsLeft, hserial, numbered]
  · rw [hidle.2] at htimer
    exact absurd htimer (by decide)
  · refine ⟨⟨hsame.busyRadio hidle.1, hsame.resendTimer.trans hidle.2⟩, .inr ⟨?_, rfl⟩⟩
    simp only [potential, setupsLeft, hsame.milliTimer, hsame.serialReceived, hsame.status]
    exact le_rfl

/-- A received frame widens the status, or its answer is strictly wider than it. -/
theorem receive_potential (p : Settings) (msg : Message) (s : State) :
    potential (receive p .success msg s).1 < potential s ∨
      (potential (receive p .success msg s).1 ≤ potential s ∧
        (receive p .success msg s).2.length ≤ 1 ∧
        ∀ g ∈ (receive p .success msg s).2, g.payload.room < msg.payload.room) := by
  have hsetups : setupsLeft (receive p .success msg s).1 = setupsLeft s := by
    simp [setupsLeft]
  have hle : potential (receive p .success msg s).1 ≤ potential s := by
    unfold potential
    have := TestSendMsg.room_anti (le_receive_status p .success msg s)
    rw [hsetups]
    omega
  by_cases hlen : msg.length = sizeofTestSendMsg
  · by_cases hspeaks : s.speaks p msg.payload = true
    · rcases lt_or_inside_of_speaks hspeaks with hnews | ⟨hinside, hsame⟩
      · left
        have hroom := TestSendMsg.room_strictAnti hnews
        unfold potential
        rw [hsetups, receive_status, if_pos hlen]
        omega
      · refine .inr ⟨hle, length_receive_le p .success msg s, fun g hg => ?_⟩
        obtain ⟨rfl, -, -⟩ := mem_receive hg
        rw [receive_status, if_pos hlen, hsame]
        exact TestSendMsg.room_inside hinside
    · right
      simp [hle, receive_silent (.inr (Bool.eq_false_iff.mpr hspeaks))]
  · right
    simp [hle, receive_silent (.inl hlen)]

variable [DecidableEq V] {sim : Bool} {tosNodeId : V → Word16}

theorem idle_of_reachable {c : Config V}
    (h : (network sim tosNodeId).system.Reachable onceOnly c) (v : V) : Idle (c.node v) := by
  refine (Network.node_invariant (P := fun _ s => Idle s) (Q := fun _ _ => True) ?_ ?_ ?_ h).1 v
  · exact fun _ => ⟨rfl, rfl⟩
  · intro c v e s fs hidle hallowed hhandle
    exact ⟨(handle_accepted hidle hallowed.1 hallowed.2 hhandle).1, fun _ _ => trivial⟩
  · rintro c i v sent u msg hidle - ⟨rfl, -⟩ -
    exact ⟨idle_receive hidle, fun _ _ => trivial⟩

/-- However the frames are delivered, lost and reordered, a finite network makes
finitely many deliveries and broadcasts. -/
theorem gossip_cannot_storm [Fintype V] (sim : Bool) (tosNodeId : V → Word16)
    (run : (network sim tosNodeId).system.InfiniteRun onceOnly) :
    {n | Network.IsDelivery (run.event n)}.Finite ∧
      {n | (run.state (n + 1)).log ≠ (run.state n).log}.Finite := by
  refine Network.finitely_many_broadcasts (fun _ => potential) (fun msg => msg.payload.room) 1
    ?_ ?_ run
  · intro c v e s fs hreach hallowed hhandle
    exact (handle_accepted (idle_of_reachable hreach v) hallowed.1 hallowed.2 hhandle).2
  · rintro c i v sent u msg - ⟨rfl, hnew, -⟩ -
    exact ⟨hnew, receive_potential _ msg (c.node v)⟩

def nodeIds (v : Bool) : Word16 := if v then 2 else 1

/-- Two nodes get a number each and tell each other. -/
def gossiping : List (NetEvent Bool) :=
  [.act false (.startDone .success .success), .act true (.startDone .success .success),
    .act false (.serialReceive sizeofTestSerialMsg ⟨0, 9⟩ .success), .deliver 0 true .success,
    .act true (.serialReceive sizeofTestSerialMsg ⟨0, 3⟩ .success), .deliver 1 false .success]

/-- A serial frame that is too short. -/
def noise : NetEvent Bool := .act false (.serialReceive 0 ⟨0, 0⟩ .success)

theorem gossip_cannot_storm_pair :
    ∃ run : (network false nodeIds).system.InfiniteRun onceOnly,
      (∃ n, (run.state n).log.length = 3) ∧ {n | Network.IsDelivery (run.event n)}.Finite ∧
        {n | (run.state (n + 1)).log ≠ (run.state n).log}.Finite := by
  have hruns : ((network false nodeIds).system.run gossiping).isSome = true := by decide +kernel
  have hlength : ∀ c ∈ (network false nodeIds).system.run gossiping, c.log.length = 3 := by
    decide +kernel
  obtain ⟨c, hrun⟩ := Option.isSome_iff_exists.mp hruns
  have hnoise : (network false nodeIds).system.step c noise = some c := by
    have hstep := (network false nodeIds).system_step_act (c := c) (v := false)
      (e := .serialReceive 0 ⟨0, 0⟩ .success) rfl
    exact hstep.trans (congrArg some (c.put_self false))
  have hallowed : onceOnly c noise := ⟨rfl, fun _ he => nomatch he⟩
  obtain ⟨run, hreplay⟩ := System.InfiniteRun.exists_replay (by decide +kernel) hrun hallowed hnoise
  refine ⟨run, ⟨gossiping.length, ?_⟩, gossip_cannot_storm false nodeIds run⟩
  have hlast := (hreplay gossiping.length).2
  rw [List.take_length] at hlast
  exact hlength _ hlast

end WsnContest.MinMax
