import WsnContest.Lib.Network
import WsnContest.Routing.Effects

/-! The route protocol among the other things a node does: which handlers touch
the route table, which frames carry a beacon, and the network of the nodes. -/
namespace WsnContest.Routing
open Tinyos Lib

/-- The variables that only the route protocol writes. -/
structure Table where
  metric : Word16
  nexthop : Word16
  id : Word16
  cnt : Word16
  timer1 : Option ℕ

def State.table (s : State) : Table :=
  ⟨s.curMetric, s.curNexthopNodeId, s.curId, s.cnt, s.timer1⟩

/-- What a beacon leaves of the table. -/
def Table.hear (rm : RouteMsg) (ans : Answers) (t : Table) : Table where
  metric := if t.metric > rm.metric + 1 then rm.metric + 1 else t.metric
  nexthop := if t.metric > rm.metric + 1 then rm.nodeid else t.nexthop
  id := if t.id < rm.id then rm.id else t.id
  cnt := t.cnt
  timer1 := if t.id < rm.id then some (ans.rand32.val % 100) else t.timer1

namespace Table
variable {t : Table} {rm : RouteMsg} {ans : Answers}

/-- Unless the addition wraps, the better of the two metrics stays. -/
theorem hear_metric (h : (rm.metric + 1).val = rm.metric.val + 1) :
    (t.hear rm ans).metric.val = min t.metric.val (rm.metric.val + 1) := by
  unfold hear
  dsimp only
  by_cases hless : t.metric > rm.metric + 1
  · have hlt : rm.metric.val + 1 < t.metric.val := h ▸ hless
    rw [if_pos hless, h]
    omega
  · have hge : ¬ rm.metric.val + 1 < t.metric.val := h ▸ hless
    rw [if_neg hless]
    omega

theorem hear_id : (t.hear rm ans).id.val = max t.id.val rm.id.val := by
  unfold hear
  dsimp only
  by_cases hnew : t.id < rm.id
  · rw [if_pos hnew]
    exact (max_eq_right (Fin.le_def.mp hnew.le)).symm
  · rw [if_neg hnew]
    exact (max_eq_left (Fin.le_def.mp (not_lt.mp hnew))).symm

/-- Only a newer beacon starts the timer, and none stops it. -/
theorem hear_timer1 :
    (t.hear rm ans).timer1.isSome ↔ t.timer1.isSome ∨ t.id.val < rm.id.val := by
  unfold hear
  by_cases hnew : t.id < rm.id
  · simp [hnew, Fin.lt_def.mp hnew]
  · have hold : ¬ t.id.val < rm.id.val := hnew
    simp [hnew, hold]

end Table

def Frame.routeMsg (f : Frame) : Option RouteMsg :=
  match f.payload with
  | .route rm => some rm
  | _ => none

@[simp] theorem routeMsg_airedBy_route (tos addr : Word16) (rm : RouteMsg) :
    (airedBy tos addr (.route rm)).routeMsg = some rm := rfl

section Frame
variable (m : Msg) (i : Word16) (s : State)

@[simp] theorem busy_fill : (s.fill m).busy = s.busy := rfl

@[simp] theorem table_mark : (s.mark i).table = s.table := by
  obtain ⟨isPSP, strays, heq⟩ := mark_eq s i
  rw [heq]
  rfl

end Frame

/-- A handler that keeps out of the route protocol. -/
structure Aside (s : State) (r : State × List Frame) : Prop where
  table : r.1.table = s.table
  frames : ∀ f ∈ r.2, f.routeMsg = none

theorem announce_aside (tos : Word16) (sent : ErrorT) (s : State) :
    Aside s (announce tos sent s) := by
  refine ⟨?_, fun f hf => ?_⟩
  · obtain ⟨packet, busy, pending, locked, heq⟩ := announce_eq tos s sent
    rw [heq]
    exact table_mark tos { s with type := .psp }
  · rw [announce_frames tos s sent f hf]
    rfl

theorem forward_aside (tos destination : Word16) (bm : BeaconMsg) (sent : ErrorT) (s : State) :
    Aside s (forward tos destination bm sent s) := by
  refine ⟨?_, fun f hf => ?_⟩
  · obtain ⟨packet, busy, pending, heq⟩ := forward_eq tos s destination bm sent
    rw [heq]
    rfl
  · rw [forward_frames tos s destination bm sent f hf]
    rfl

theorem Aside.trans {s : State} {r q : State × List Frame} (h : Aside s r) (h' : Aside r.1 q) :
    Aside s (q.1, r.2 ++ q.2) where
  table := h'.table.trans h.table
  frames := by
    intro f hf
    rcases List.mem_append.mp hf with hf | hf
    · exact h.frames f hf
    · exact h'.frames f hf

theorem Aside.refl (s : State) : Aside s (s, []) :=
  ⟨rfl, by simp⟩

theorem spread_aside (tos destination : Word16) (len : Word8) (bm : BeaconMsg) (ans : Answers)
    (s : State) : Aside s (spread tos destination len bm ans s) := by
  unfold spread
  split
  case isFalse => exact .refl s
  case isTrue =>
    have hfirst : Aside s
        (if destination = broadcastAddr then announce tos ans.controlSent s else (s, [])) := by
      split
      · exact announce_aside ..
      · exact .refl s
    exact hfirst.trans (forward_aside tos destination bm ans.dataSent _)

@[simp] theorem table_report (tos source destination : Word16) (bm : BeaconMsg) (s : State) :
    (report tos source destination bm s).table = s.table := by
  obtain ⟨recvData, heq⟩ := report_eq tos s source destination bm
  rw [heq]
  rfl

theorem dataReceive_aside (tos source destination : Word16) (len : Word8) (bm : BeaconMsg)
    (ans : Answers) (s : State) :
    Aside s (dataReceive tos source destination len bm ans s) where
  table := (table_report ..).trans (spread_aside tos destination len bm ans s).table
  frames := (spread_aside tos destination len bm ans s).frames

theorem controlReceive_aside (tos : Word16) (len : Word8) (cm : ControlMsg) (ans : Answers)
    (s : State) : Aside s (controlReceive tos len cm ans s) := by
  refine ⟨?_, fun f hf => ?_⟩
  · by_cases hlen : len = sizeofControlMsg
    · subst hlen
      obtain ⟨packet, busy, pending, heq⟩ := controlReceive_eq tos s cm ans
      rw [heq]
      exact table_mark cm.nodeid s
    · rw [controlReceive, if_neg hlen]
  · rw [(controlReceive_frames tos s len cm ans f hf).2]
    rfl

theorem getPayload_routeMsg (packet : Packet) : packet.getPayload sizeofRouteMsg ≠ none := by
  simp [Packet.getPayload, sizeofRouteMsg, toshDataLength]

theorem routeReceive_eq (rm : RouteMsg) (ans : Answers) (s : State) :
    routeReceive sizeofRouteMsg rm ans s =
      { s with
        curMetric := (s.table.hear rm ans).metric
        curNexthopNodeId := (s.table.hear rm ans).nexthop
        curId := (s.table.hear rm ans).id
        timer1 := (s.table.hear rm ans).timer1 } := by
  unfold routeReceive
  rw [if_pos ⟨rfl, getPayload_routeMsg _⟩]
  unfold Table.hear State.table
  by_cases hless : s.curMetric > rm.metric + 1 <;> by_cases hid : s.curId < rm.id <;>
    simp [hless, hid]

theorem routeReceive_table (rm : RouteMsg) (ans : Answers) (s : State) :
    (routeReceive sizeofRouteMsg rm ans s).table = s.table.hear rm ans := by
  rw [routeReceive_eq]
  rfl

theorem hear_aside (tos : Word16) (ans : Answers) (f : Frame) (s : State)
    (h : f.routeMsg = none) : Aside s (hear tos ans f s) := by
  obtain ⟨source, destination, len, payload⟩ := f
  unfold hear
  split
  case isFalse => exact .refl s
  case isTrue =>
    cases payload with
    | beacon bm => exact dataReceive_aside ..
    | control cm => exact controlReceive_aside ..
    | route rm => cases h

/-- A beacon is handled, or the stack keeps it from the handler. -/
theorem hear_beacon {f : Frame} {rm : RouteMsg} (hrm : f.routeMsg = some rm) (tos : Word16)
    (ans : Answers) (s : State) :
    hear tos ans f s = (routeReceive f.length rm ans s, []) ∨ hear tos ans f s = (s, []) := by
  obtain ⟨source, destination, len, payload⟩ := f
  unfold hear
  split
  case isFalse => exact .inr rfl
  case isTrue =>
    cases payload with
    | beacon bm => cases hrm
    | control cm => cases hrm
    | route rm' =>
      cases hrm
      exact .inl rfl

theorem hear_route {s : State} (hon : s.radio = .on) (tos source : Word16) (ans : Answers)
    (rm : RouteMsg) :
    hear tos ans (airedBy source broadcastAddr (.route rm)) s =
      (routeReceive sizeofRouteMsg rm ans s, []) :=
  if_pos ⟨hon, .inr rfl⟩

section Timers
variable (tos : Word16) (sent err : ErrorT) (s : State)

/-- The boot sets the type and the radio and nothing else. -/
theorem booted_eq : ∃ type radio, booted tos s = { s with type := type, radio := radio } := by
  unfold booted
  dsimp only
  split
  · exact ⟨_, _, rfl⟩
  · exact ⟨_, _, rfl⟩

/-- The start of the radio may start a timer too. -/
theorem startDone_eq : ∃ radio timer0,
    startDone err s = { s with radio := radio, timer0 := timer0 } := by
  unfold startDone
  dsimp only
  split
  · split
    · exact ⟨_, _, rfl⟩
    · exact ⟨_, _, rfl⟩
  · exact ⟨_, _, rfl⟩

theorem booted_busy : (booted tos s).busy = s.busy := by
  obtain ⟨type, radio, heq⟩ := booted_eq tos s
  rw [heq]

theorem startDone_busy : (startDone err s).busy = s.busy := by
  obtain ⟨radio, timer0, heq⟩ := startDone_eq err s
  rw [heq]

/-- Only the sink sends beacons of its own. -/
theorem timer0Fired_of_ne {tos : Word16} (htos : tos ≠ recvNodeId) :
    timer0Fired tos sent s = (s, []) :=
  if_neg htos

theorem timer0Fired_frames :
    ∀ f ∈ (timer0Fired tos sent s).2, ∃ rm, f = airedBy tos broadcastAddr (.route rm) := by
  unfold timer0Fired
  dsimp only
  split
  · split
    · split
      · exact fun f hf => ⟨_, List.mem_singleton.mp hf⟩
      · simp
    · simp
  · simp

/-- The relay of a beacon does not mark the packet as taken. -/
theorem timer1Fired_busy : (timer1Fired tos sent s).1.busy = s.busy := by
  obtain ⟨packet, pending, heq⟩ := timer1Fired_eq tos s sent
  rw [heq]

theorem timer1Fired_frames :
    ∀ f ∈ (timer1Fired tos sent s).2, ∃ rm, f = airedBy tos broadcastAddr (.route rm) := by
  unfold timer1Fired
  dsimp only
  split
  · dsimp only
    split
    · exact fun f hf => ⟨_, List.mem_singleton.mp hf⟩
    · simp
  · simp

end Timers

/-- Which handler an event calls, and when it can come. -/
inductive Dispatch (tos : Word16) (s : State) : Event → State → List Frame → Prop
  | booted : s.radio = .off → Dispatch tos s .booted (booted tos s) []
  | startDone {err : ErrorT} : s.radio = .starting →
      Dispatch tos s (.startDone err) (startDone err s) []
  | timer0Fired {sent : ErrorT} {s' : State} {fs : List Frame} : s.timer0.isSome →
      timer0Fired tos sent { s with timer0 := none } = (s', fs) →
      Dispatch tos s (.timer0Fired sent) s' fs
  | timer1Fired {sent : ErrorT} {s' : State} {fs : List Frame} : s.timer1.isSome →
      timer1Fired tos sent { s with timer1 := none } = (s', fs) →
      Dispatch tos s (.timer1Fired sent) s' fs
  | sendDone {am : AmId} {err : ErrorT} : am ∈ s.pending →
      Dispatch tos s (.sendDone am err) (sendDone { s with pending := s.pending.erase am }) []
  | sourceData {source destination : Word16} {len : Word8} {bm : BeaconMsg} {ans : Answers}
      {s' : State} {fs : List Frame} :
      hear tos ans ⟨source, destination, len, .beacon bm⟩ s = (s', fs) →
      Dispatch tos s (.sourceData source destination len bm ans) s' fs

theorem handle_dispatch {tos : Word16} {e : Event} {s s' : State} {fs : List Frame}
    (h : handle tos e s = some (s', fs)) : Dispatch tos s e s' fs := by
  cases e with
  | booted =>
    obtain ⟨hoff, hrun⟩ := Option.ite_none_right_eq_some.mp h
    obtain ⟨rfl, rfl⟩ := Prod.mk.inj (Option.some.inj hrun)
    exact .booted hoff
  | startDone err =>
    obtain ⟨hstarting, hrun⟩ := Option.ite_none_right_eq_some.mp h
    obtain ⟨rfl, rfl⟩ := Prod.mk.inj (Option.some.inj hrun)
    exact .startDone hstarting
  | timer0Fired sent =>
    obtain ⟨htimer, hrun⟩ := Option.ite_none_right_eq_some.mp h
    exact .timer0Fired htimer (Option.some.inj hrun)
  | timer1Fired sent =>
    obtain ⟨htimer, hrun⟩ := Option.ite_none_right_eq_some.mp h
    exact .timer1Fired htimer (Option.some.inj hrun)
  | sendDone am err =>
    obtain ⟨ham, hrun⟩ := Option.ite_none_right_eq_some.mp h
    obtain ⟨rfl, rfl⟩ := Prod.mk.inj (Option.some.inj hrun)
    exact .sendDone ham
  | sourceData source destination len bm ans => exact .sourceData (Option.some.inj h)

/-- What an event at a node means for the route protocol. -/
inductive Outcome (tos : Word16) (e : Event) (s : State) : State → List Frame → Prop
  | aside {s' : State} {fs : List Frame} : Aside s (s', fs) → Outcome tos e s s' fs
  | beacon {s' : State} : tos = recvNodeId → e = .timer0Fired .success →
      s'.table = { s.table with id := s.cnt, cnt := s.cnt + 1 } →
      Outcome tos e s s' [airedBy tos broadcastAddr (.route ⟨s.cnt, tos, 0⟩)]
  | relay {s' : State} : e = .timer1Fired .success → s.timer1.isSome → s.busy = false →
      s'.table = { s.table with timer1 := none } →
      Outcome tos e s s' [airedBy tos broadcastAddr (.route ⟨s.curId, tos, s.curMetric⟩)]
  | dropped {s' : State} {sent : ErrorT} : e = .timer1Fired sent → s.timer1.isSome →
      (s.busy = true ∨ sent ≠ .success) → s'.table = { s.table with timer1 := none } →
      Outcome tos e s s' []

theorem timer0Fired_outcome (tos : Word16) (sent : ErrorT) (s : State) :
    Outcome tos (.timer0Fired sent) s (timer0Fired tos sent { s with timer0 := none }).1
      (timer0Fired tos sent { s with timer0 := none }).2 := by
  unfold timer0Fired
  dsimp only
  split
  case isFalse => exact .aside ⟨rfl, by simp⟩
  case isTrue htos =>
    split
    case isFalse => exact .aside ⟨rfl, by simp⟩
    case isTrue =>
      split
      case isFalse => exact .aside ⟨rfl, by simp⟩
      case isTrue hsent =>
        subst hsent
        exact .beacon htos rfl rfl

theorem timer1Fired_outcome {s : State} (htimer : s.timer1.isSome) (tos : Word16)
    (sent : ErrorT) :
    Outcome tos (.timer1Fired sent) s (timer1Fired tos sent { s with timer1 := none }).1
      (timer1Fired tos sent { s with timer1 := none }).2 := by
  unfold timer1Fired
  dsimp only
  split
  case isFalse hbusy =>
    rw [busy_fill, Bool.not_eq_true, Bool.not_eq_false'] at hbusy
    exact .dropped rfl htimer (.inl hbusy) rfl
  case isTrue hidle =>
    rw [busy_fill, Bool.not_eq_true'] at hidle
    dsimp only
    split
    case isFalse hsent => exact .dropped rfl htimer (.inr hsent) rfl
    case isTrue hsent =>
      subst hsent
      exact .relay rfl htimer hidle rfl

theorem handle_outcome {tos : Word16} {e : Event} {s s' : State} {fs : List Frame}
    (h : handle tos e s = some (s', fs)) : Outcome tos e s s' fs := by
  cases handle_dispatch h with
  | booted =>
    obtain ⟨type, radio, heq⟩ := booted_eq tos s
    refine .aside ⟨?_, by simp⟩
    change (booted tos s).table = s.table
    rw [heq]
    rfl
  | @startDone err =>
    obtain ⟨radio, timer0, heq⟩ := startDone_eq err s
    refine .aside ⟨?_, by simp⟩
    change (startDone err s).table = s.table
    rw [heq]
    rfl
  | @timer0Fired sent _ _ _ hrun =>
    have houtcome := timer0Fired_outcome tos sent s
    rwa [hrun] at houtcome
  | @timer1Fired sent _ _ htimer hrun =>
    have houtcome := timer1Fired_outcome htimer tos sent
    rwa [hrun] at houtcome
  | sendDone => exact .aside ⟨rfl, by simp⟩
  | @sourceData source destination len bm ans _ _ hrun =>
    have haside := hear_aside tos ans ⟨source, destination, len, .beacon bm⟩ s rfl
    rw [hrun] at haside
    exact .aside haside

/-- The nodes of the routing program, node `v` with the id `id v`. A frame goes out as it was
handed to `AMSend.send`, which the one packet of a node does not ensure (`packet_kept_iff`);
`air` has the frames that the radios read. Of a run in which a store falls behind a table,
with ids of 255 and more, C defines the part before it. -/
def routing {V : Type} (id : V → Word16) :
    Network V (fun _ => State) (fun _ => Event) (fun _ => Answers) Frame where
  init := fun _ => {}
  handle := fun v => handle (id v)
  receive := fun v => hear (id v)

end WsnContest.Routing
