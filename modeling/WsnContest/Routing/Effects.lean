import WsnContest.Routing.Node

/-! Which variables of `SimpleRoutingC` a handler writes and what frames it hands over.
All other variables are as they were, whatever the handler found. -/
namespace WsnContest.Routing
open Tinyos

section Handlers
variable (tos : Word16) (s : State)

theorem mark_eq (i : Word16) :
    ∃ isPSP strays, s.mark i = { s with isPSP := isPSP, strays := strays } := by
  unfold State.mark
  split
  · exact ⟨_, _, rfl⟩
  · exact ⟨_, _, rfl⟩

@[simp] theorem busy_mark (i : Word16) : (s.mark i).busy = s.busy := by
  obtain ⟨isPSP, strays, heq⟩ := mark_eq s i
  rw [heq]

@[simp] theorem locked_mark (i : Word16) : (s.mark i).locked = s.locked := by
  obtain ⟨isPSP, strays, heq⟩ := mark_eq s i
  rw [heq]

@[simp] theorem type_mark (i : Word16) : (s.mark i).type = s.type := by
  obtain ⟨isPSP, strays, heq⟩ := mark_eq s i
  rw [heq]

@[simp] theorem curMetric_mark (i : Word16) : (s.mark i).curMetric = s.curMetric := by
  obtain ⟨isPSP, strays, heq⟩ := mark_eq s i
  rw [heq]

theorem forward_eq (destination : Word16) (bm : BeaconMsg) (sent : ErrorT) :
    ∃ packet busy pending, (forward tos destination bm sent s).1 =
      { s with packet := packet, busy := busy, pending := pending } := by
  unfold forward
  dsimp only
  split
  · split
    · exact ⟨_, _, _, rfl⟩
    · exact ⟨_, _, _, rfl⟩
  · exact ⟨_, _, _, rfl⟩

theorem forward_frames (destination : Word16) (bm : BeaconMsg) (sent : ErrorT) :
    ∀ g ∈ (forward tos destination bm sent s).2,
      g = airedBy tos s.curNexthopNodeId (.beacon bm) := by
  unfold forward
  dsimp only
  split
  · split
    · exact fun g hg => List.mem_singleton.mp hg
    · simp
  · simp

theorem announce_eq (sent : ErrorT) :
    ∃ packet busy pending locked, (announce tos sent s).1 =
      { ({ s with type := .psp }.mark tos) with
        packet := packet, busy := busy, pending := pending, locked := locked } := by
  unfold announce
  dsimp only
  split
  · split
    · exact ⟨_, _, _, _, rfl⟩
    · exact ⟨_, _, _, _, rfl⟩
  · exact ⟨_, _, _, _, rfl⟩

theorem announce_frames (sent : ErrorT) :
    ∀ g ∈ (announce tos sent s).2,
      g = airedBy tos broadcastAddr (.control ⟨tos, s.curMetric⟩) := by
  have hmetric : ({ s with type := .psp }.mark tos).curMetric = s.curMetric := curMetric_mark ..
  unfold announce
  dsimp only
  rw [hmetric]
  split
  · split
    · exact fun g hg => List.mem_singleton.mp hg
    · simp
  · simp

theorem report_eq (source destination : Word16) (bm : BeaconMsg) :
    ∃ recvData, report tos source destination bm s = { s with recvData := recvData } := by
  unfold report
  split
  · exact ⟨_, rfl⟩
  · exact ⟨_, rfl⟩

theorem controlReceive_eq (cm : ControlMsg) (ans : Answers) :
    ∃ packet busy pending, (controlReceive tos sizeofControlMsg cm ans s).1 =
      { s.mark cm.nodeid with packet := packet, busy := busy, pending := pending } := by
  unfold controlReceive
  rw [if_pos rfl]
  dsimp only
  split
  · split
    · split
      · exact ⟨_, _, _, rfl⟩
      · exact ⟨_, _, _, rfl⟩
    · exact ⟨_, _, _, rfl⟩
  · exact ⟨_, _, _, rfl⟩

theorem controlReceive_frames (len : Word8) (cm : ControlMsg) (ans : Answers) :
    ∀ g ∈ (controlReceive tos len cm ans s).2, s.type = .psp ∧
      g = airedBy tos broadcastAddr (.control cm) := by
  unfold controlReceive
  dsimp only
  rw [type_mark]
  split
  · split
    case isTrue hpsp =>
      split
      · split
        · exact fun g hg => ⟨hpsp, List.mem_singleton.mp hg⟩
        · simp
      · simp
    case isFalse => simp
  · simp

theorem routeReceive_fields (len : Word8) (rm : RouteMsg) (ans : Answers) :
    ∃ metric nexthop id timer1, routeReceive len rm ans s =
      { s with curMetric := metric, curNexthopNodeId := nexthop, curId := id,
               timer1 := timer1 } := by
  unfold routeReceive
  dsimp only
  split
  · split
    · split
      · exact ⟨_, _, _, _, rfl⟩
      · exact ⟨_, _, _, _, rfl⟩
    · split
      · exact ⟨_, _, _, _, rfl⟩
      · exact ⟨_, _, _, _, rfl⟩
  · exact ⟨_, _, _, _, rfl⟩

theorem timer0Fired_eq (sent : ErrorT) :
    ∃ packet busy curId cnt timer0 pending, (timer0Fired tos sent s).1 =
      { s with packet := packet, busy := busy, curId := curId, cnt := cnt, timer0 := timer0,
               pending := pending } := by
  unfold timer0Fired
  dsimp only
  split
  · split
    · split
      · exact ⟨_, _, _, _, _, _, rfl⟩
      · exact ⟨_, _, _, _, _, _, rfl⟩
    · exact ⟨_, _, _, _, _, _, rfl⟩
  · exact ⟨_, _, _, _, _, _, rfl⟩

theorem timer1Fired_eq (sent : ErrorT) :
    ∃ packet pending, (timer1Fired tos sent s).1 =
      { s with packet := packet, pending := pending } := by
  unfold timer1Fired
  dsimp only
  split
  · exact ⟨_, _, rfl⟩
  · exact ⟨_, _, rfl⟩

/-- The clock of the beacons; no frame that is heard touches it. -/
def State.clock (s : State) : Option ℕ × Radio := (s.timer0, s.radio)

@[simp] theorem clock_mark (i : Word16) : (s.mark i).clock = s.clock := by
  obtain ⟨isPSP, strays, heq⟩ := mark_eq s i
  rw [heq]
  rfl

theorem clock_announce (sent : ErrorT) : (announce tos sent s).1.clock = s.clock := by
  obtain ⟨packet, busy, pending, locked, heq⟩ := announce_eq tos s sent
  rw [heq]
  exact clock_mark { s with type := .psp } tos

theorem clock_forward (destination : Word16) (bm : BeaconMsg) (sent : ErrorT) :
    (forward tos destination bm sent s).1.clock = s.clock := by
  obtain ⟨packet, busy, pending, heq⟩ := forward_eq tos s destination bm sent
  rw [heq]
  rfl

theorem clock_spread (destination : Word16) (len : Word8) (bm : BeaconMsg) (ans : Answers) :
    (spread tos destination len bm ans s).1.clock = s.clock := by
  unfold spread
  split
  · refine (clock_forward tos _ destination bm ans.dataSent).trans ?_
    split
    · exact clock_announce tos s ans.controlSent
    · rfl
  · rfl

theorem clock_report (source destination : Word16) (bm : BeaconMsg) :
    (report tos source destination bm s).clock = s.clock := by
  obtain ⟨recvData, heq⟩ := report_eq tos s source destination bm
  rw [heq]
  rfl

theorem clock_controlReceive (len : Word8) (cm : ControlMsg) (ans : Answers) :
    (controlReceive tos len cm ans s).1.clock = s.clock := by
  by_cases hlen : len = sizeofControlMsg
  · subst hlen
    obtain ⟨packet, busy, pending, heq⟩ := controlReceive_eq tos s cm ans
    rw [heq]
    exact clock_mark s cm.nodeid
  · rw [controlReceive, if_neg hlen]

theorem clock_routeReceive (len : Word8) (rm : RouteMsg) (ans : Answers) :
    (routeReceive len rm ans s).clock = s.clock := by
  obtain ⟨metric, nexthop, id, timer1, heq⟩ := routeReceive_fields s len rm ans
  rw [heq]
  rfl

theorem clock_hear (ans : Answers) (f : Frame) : (hear tos ans f s).1.clock = s.clock := by
  obtain ⟨source, destination, len, payload⟩ := f
  unfold hear
  split
  · cases payload with
    | beacon bm => exact (clock_report ..).trans (clock_spread tos s destination len bm ans)
    | control cm => exact clock_controlReceive tos s len cm ans
    | route rm => exact clock_routeReceive s len rm ans
  · rfl

theorem clock_timer1Fired (sent : ErrorT) : (timer1Fired tos sent s).1.clock = s.clock := by
  obtain ⟨packet, pending, heq⟩ := timer1Fired_eq tos s sent
  rw [heq]
  rfl

end Handlers

end WsnContest.Routing
