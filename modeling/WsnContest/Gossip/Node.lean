import Mathlib.Order.Lattice
import WsnContest.Tinyos

/-! What the two min/max programs share: the node's variables, `sendStatus`,
`Receive.receive` and the one-second timer. A node keeps the largest and the
smallest number it has heard of and broadcasts the pair. -/
namespace WsnContest.Gossip
open Tinyos

/-- `test_send_msg_t`. -/
structure TestSendMsg where
  max : Word16
  min : Word16
  deriving DecidableEq, Repr

/-- `test_serial_msg_t`. -/
structure TestSerialMsg where
  ID : Word16
  number : Word16
  deriving DecidableEq, Repr

def sizeofTestSendMsg : Word8 := 4
def sizeofTestSerialMsg : Word8 := 4

/-- `TOSH_DATA_LENGTH` of the two makefiles. -/
def toshDataLength : Word8 := 127

/-- A `message_t`: the payload length of its header, and the first four bytes
of its payload read as a `test_send_msg_t`. -/
structure Message where
  length : Word8
  payload : TestSendMsg
  deriving DecidableEq, Repr

/-- `getPayload` answers `NULL` for a payload that does not fit. -/
def Message.getPayload (msg : Message) (len : Word8) : Option TestSendMsg :=
  if len ≤ toshDataLength then some msg.payload else none

/-- The constants in which the two programs differ, and the node's id. -/
structure Settings where
  tosNodeId : Word16
  rootNodeId : Word16
  staleCountThd : Word16

def Settings.isRoot (p : Settings) : Bool := p.tosNodeId == p.rootNodeId

/-- The variables of `RadioToLedsC`, the timers that are running, and how many
accepted sends still owe their `sendDone`. -/
structure State where
  busyRadio : Bool := false
  packet : Message := ⟨0, ⟨0, 0⟩⟩
  sendCount : Word16 := 0
  selfNumber : Word16 := 0
  selfId : Word16 := 0
  staleCount : Word16 := 0
  serialReceived : Bool := false
  timeCount : Word16 := 0
  statusStableCount : Word16 := 0
  resultSent : Bool := false
  status : TestSendMsg := ⟨0, 0⟩
  lastStatus : TestSendMsg := ⟨1, 1⟩
  milliTimer : Bool := false
  resendTimer : Bool := false
  /-- The delay with which `SendTimer` was started. -/
  sendTimer : Option ℕ := none
  outstanding : ℕ := 0
  deriving DecidableEq, Repr

/-- `AMSend.send` of `packet` with result `sent`: unless the previous send is
still pending the payload length is set; an accepted send owes a `sendDone`. -/
def State.amSend (sent : ErrorT) (s : State) : State :=
  { s with
    packet := if sent = .ebusy then s.packet else { s.packet with length := sizeofTestSendMsg }
    outstanding := if sent = .success then s.outstanding + 1 else s.outstanding }

/-- `sendStatus`, with the frames the radio accepts as they are at the call. -/
def sendStatus (p : Settings) (sent : ErrorT) (s : State) : State × List Message :=
  if s.serialReceived && !p.isRoot then
    if !s.busyRadio then
      match s.packet.getPayload sizeofTestSendMsg with
      | none => ({ s with resendTimer := true }, [])
      | some _ =>
        let s := { s with packet := { s.packet with payload := s.status } }
        let s := s.amSend sent
        let frames := if sent = .success then [s.packet] else []
        -- `SUCCESS` is zero: the branch below is the one of a send that failed.
        if sent.toBool then
          ({ s with sendCount := s.sendCount + 1, busyRadio := true }, frames)
        else (s, frames)
    else ({ s with resendTimer := true }, [])
  else (s, [])

/-- The frame lies strictly inside what the node knows. -/
def TestSendMsg.inside (rm status : TestSendMsg) : Bool :=
  rm.max < status.max && status.min < rm.min

theorem sendStatus_fst (p : Settings) (sent : ErrorT) (s : State) :
    ∃ packet sendCount busyRadio resendTimer outstanding, (sendStatus p sent s).1 =
      { s with
        packet := packet, sendCount := sendCount, busyRadio := busyRadio
        resendTimer := resendTimer, outstanding := outstanding } := by
  unfold sendStatus State.amSend
  split
  · split
    · split
      · exact ⟨_, _, _, _, _, rfl⟩
      · dsimp only
        split <;> exact ⟨_, _, _, _, _, rfl⟩
    · exact ⟨_, _, _, _, _, rfl⟩
  · exact ⟨_, _, _, _, _, rfl⟩

section Frame
variable (p : Settings) (sent : ErrorT) (s : State)

@[simp] theorem sendStatus_status : (sendStatus p sent s).1.status = s.status := by
  obtain ⟨_, _, _, _, _, h⟩ := sendStatus_fst p sent s
  rw [h]

@[simp] theorem sendStatus_serialReceived :
    (sendStatus p sent s).1.serialReceived = s.serialReceived := by
  obtain ⟨_, _, _, _, _, h⟩ := sendStatus_fst p sent s
  rw [h]

@[simp] theorem sendStatus_selfNumber :
    (sendStatus p sent s).1.selfNumber = s.selfNumber := by
  obtain ⟨_, _, _, _, _, h⟩ := sendStatus_fst p sent s
  rw [h]

@[simp] theorem sendStatus_milliTimer :
    (sendStatus p sent s).1.milliTimer = s.milliTimer := by
  obtain ⟨_, _, _, _, _, h⟩ := sendStatus_fst p sent s
  rw [h]

@[simp] theorem sendStatus_sendTimer :
    (sendStatus p sent s).1.sendTimer = s.sendTimer := by
  obtain ⟨_, _, _, _, _, h⟩ := sendStatus_fst p sent s
  rw [h]

@[simp] theorem sendStatus_staleCount :
    (sendStatus p sent s).1.staleCount = s.staleCount := by
  obtain ⟨_, _, _, _, _, h⟩ := sendStatus_fst p sent s
  rw [h]

end Frame

/-- Only a node that has its number and is not the root sends, and it sends its
status in a frame of the right length. -/
theorem mem_sendStatus {p : Settings} {sent : ErrorT} {s : State} {f : Message}
    (h : f ∈ (sendStatus p sent s).2) :
    f = ⟨sizeofTestSendMsg, s.status⟩ ∧ s.serialReceived = true ∧ p.isRoot = false := by
  unfold sendStatus State.amSend at h
  split at h
  case isFalse => simp at h
  case isTrue hsends =>
    split at h
    case isFalse => simp at h
    case isTrue =>
      split at h
      case h_1 => simp at h
      case h_2 =>
        have hf : sent = .success ∧ f = ⟨sizeofTestSendMsg, s.status⟩ := by
          dsimp only at h
          split at h <;> split at h <;> simp_all
        exact ⟨hf.2, by simpa using hsends⟩

theorem sendStatus_packet (p : Settings) (sent : ErrorT) (s : State) :
    (sendStatus p sent s).1.packet = s.packet ∨
      s.serialReceived = true ∧ (sendStatus p sent s).1.packet.payload = s.status := by
  unfold sendStatus State.amSend
  split
  case isFalse => exact .inl rfl
  case isTrue hsends =>
    have hserial : s.serialReceived = true := by
      rw [Bool.and_eq_true] at hsends
      exact hsends.1
    split
    case isFalse => exact .inl rfl
    case isTrue =>
      split
      case h_1 => exact .inl rfl
      case h_2 =>
        refine .inr ⟨hserial, ?_⟩
        dsimp only
        split <;> split <;> rfl

theorem length_sendStatus_le (p : Settings) (sent : ErrorT) (s : State) :
    (sendStatus p sent s).2.length ≤ 1 := by
  unfold sendStatus
  split
  · split
    · split
      · simp
      · dsimp only
        split <;> split <;> simp
    · simp
  · simp

theorem sendStatus_silent {p : Settings} {s : State}
    (h : s.serialReceived = false ∨ p.isRoot = true) (sent : ErrorT) :
    sendStatus p sent s = (s, []) := by
  unfold sendStatus
  rw [if_neg]
  rcases h with h | h <;> simp [h]

/-- An accepted send of an idle radio puts the status on the air and, `SUCCESS`
being zero, leaves `busy_radio` alone. -/
theorem sendStatus_success {p : Settings} {s : State} (hserial : s.serialReceived = true)
    (hroot : p.isRoot = false) (hbusy : s.busyRadio = false) :
    sendStatus p .success s =
      ({ s with
          packet := ⟨sizeofTestSendMsg, s.status⟩, outstanding := s.outstanding + 1 },
        [⟨sizeofTestSendMsg, s.status⟩]) := by
  simp [sendStatus, State.amSend, hserial, hroot, hbusy, Message.getPayload, sizeofTestSendMsg,
    toshDataLength, ErrorT.toBool, ErrorT.code]

theorem sendStatus_airs {p : Settings} {s : State} (hserial : s.serialReceived = true)
    (hroot : p.isRoot = false) (hbusy : s.busyRadio = false) :
    ⟨sizeofTestSendMsg, s.status⟩ ∈ (sendStatus p .success s).2 := by
  simp [sendStatus_success hserial hroot hbusy]

theorem sendStatus_success_idle (p : Settings) {s : State} (hbusy : s.busyRadio = false) :
    (sendStatus p .success s).1.busyRadio = false ∧
      (sendStatus p .success s).1.resendTimer = s.resendTimer := by
  cases hserial : s.serialReceived
  · simp [sendStatus_silent (.inl hserial), hbusy]
  · cases hroot : p.isRoot
    · simp [sendStatus_success hserial hroot hbusy, hbusy]
    · simp [sendStatus_silent (.inr hroot), hbusy]

theorem sendStatus_busy {p : Settings} {s : State} (hserial : s.serialReceived = true)
    (hroot : p.isRoot = false) (hbusy : s.busyRadio = true) (sent : ErrorT) :
    sendStatus p sent s = ({ s with resendTimer := true }, []) := by
  simp [sendStatus, hserial, hroot, hbusy]

/-- A send that failed is the one that takes the radio. -/
theorem sendStatus_failed {p : Settings} {s : State} (hserial : s.serialReceived = true)
    (hroot : p.isRoot = false) (hbusy : s.busyRadio = false) {sent : ErrorT}
    (hsent : sent ≠ .success) :
    ∃ packet, sendStatus p sent s =
      ({ s with packet := packet, sendCount := s.sendCount + 1, busyRadio := true }, []) := by
  have hfailed : sent.toBool = true := by
    cases hcode : sent.toBool with
    | true => rfl
    | false => exact absurd (ErrorT.toBool_eq_false.mp hcode) hsent
  refine ⟨if sent = .ebusy then ⟨s.packet.length, s.status⟩
    else ⟨sizeofTestSendMsg, s.status⟩, ?_⟩
  simp [sendStatus, State.amSend, hserial, hroot, hbusy, Message.getPayload, sizeofTestSendMsg,
    toshDataLength, hfailed, hsent]

/-- `sendStatus` calls `AMSend.send`. -/
def State.ready (p : Settings) (s : State) : Bool :=
  s.serialReceived && !p.isRoot && !s.busyRadio

/-- All that `sendStatus` can do. -/
inductive Sending (p : Settings) (sent : ErrorT) (s : State) : State × List Message → Prop
  | silent : s.serialReceived = false ∨ p.isRoot = true → Sending p sent s (s, [])
  | deferred : s.serialReceived = true → p.isRoot = false → s.busyRadio = true →
      Sending p sent s ({ s with resendTimer := true }, [])
  | taken : s.ready p = true → sent = .success →
      Sending p sent s
        ({ s with
            packet := ⟨sizeofTestSendMsg, s.status⟩, outstanding := s.outstanding + 1 },
          [⟨sizeofTestSendMsg, s.status⟩])
  | failed {packet : Message} : s.ready p = true → sent ≠ .success →
      Sending p sent s
        ({ s with packet := packet, sendCount := s.sendCount + 1, busyRadio := true }, [])

theorem sendStatus_sending (p : Settings) (sent : ErrorT) (s : State) :
    Sending p sent s (sendStatus p sent s) := by
  cases hserial : s.serialReceived with
  | false =>
    rw [sendStatus_silent (.inl hserial)]
    exact .silent (.inl hserial)
  | true =>
    cases hroot : p.isRoot with
    | true =>
      rw [sendStatus_silent (.inr hroot)]
      exact .silent (.inr hroot)
    | false =>
      cases hbusy : s.busyRadio with
      | true =>
        rw [sendStatus_busy hserial hroot hbusy]
        exact .deferred hserial hroot hbusy
      | false =>
        have hready : s.ready p = true := by simp [State.ready, hserial, hroot, hbusy]
        by_cases hsent : sent = .success
        · subst hsent
          rw [sendStatus_success hserial hroot hbusy]
          exact .taken hready rfl
        · obtain ⟨packet, heq⟩ := sendStatus_failed hserial hroot hbusy hsent
          rw [heq]
          exact .failed hready hsent

/-- `Receive.receive`; `sent` answers the `AMSend.send` it may call. -/
def receive (p : Settings) (sent : ErrorT) (msg : Message) (s : State) : State × List Message :=
  let s := { s with packet := msg }
  if msg.length = sizeofTestSendMsg then
    let rm := msg.payload
    let answer := rm.inside s.status && s.staleCount < p.staleCountThd
    let s := if rm.inside s.status then { s with staleCount := s.staleCount + 1 } else s
    let newMax := s.status.max < rm.max
    let s := if newMax then
      { s with status := { s.status with max := rm.max }, staleCount := 0 } else s
    let newMin := rm.min < s.status.min
    let s := if newMin then
      { s with status := { s.status with min := rm.min }, staleCount := 0 } else s
    if answer || newMax || newMin then sendStatus p sent s else (s, [])
  else (s, [])

/-- Pairs are ordered by the interval they span; the join covers both. -/
instance : SemilatticeSup TestSendMsg where
  le a b := a.max ≤ b.max ∧ b.min ≤ a.min
  le_refl a := ⟨le_rfl, le_rfl⟩
  le_trans _ _ _ h₁ h₂ := ⟨h₁.1.trans h₂.1, h₂.2.trans h₁.2⟩
  le_antisymm a b h₁ h₂ := by
    cases a
    cases b
    exact congrArg₂ _ (le_antisymm h₁.1 h₂.1) (le_antisymm h₂.2 h₁.2)
  sup a b := ⟨Max.max a.max b.max, Min.min a.min b.min⟩
  le_sup_left _ _ := ⟨le_max_left .., min_le_left ..⟩
  le_sup_right _ _ := ⟨le_max_right .., min_le_right ..⟩
  sup_le _ _ _ h₁ h₂ := ⟨max_le h₁.1 h₂.1, le_min h₁.2 h₂.2⟩

theorem TestSendMsg.le_def {a b : TestSendMsg} : a ≤ b ↔ a.max ≤ b.max ∧ b.min ≤ a.min := Iff.rfl

@[simp] theorem TestSendMsg.sup_max (a b : TestSendMsg) : (a ⊔ b).max = a.max ⊔ b.max := rfl
@[simp] theorem TestSendMsg.sup_min (a b : TestSendMsg) : (a ⊔ b).min = a.min ⊓ b.min := rfl

/-- What a frame of the right length leaves behind, before any answer. -/
def State.hear (rm : TestSendMsg) (s : State) : State :=
  { s with
    status := s.status ⊔ rm
    staleCount :=
      if s.status.max < rm.max ∨ rm.min < s.status.min then 0
      else if rm.inside s.status then s.staleCount + 1 else s.staleCount }

/-- The frame is news, or it is stale and the node still answers stale frames. -/
def State.speaks (p : Settings) (rm : TestSendMsg) (s : State) : Bool :=
  (rm.inside s.status && s.staleCount < p.staleCountThd) ||
    (s.status.max < rm.max || rm.min < s.status.min)

theorem receive_eq (p : Settings) (sent : ErrorT) (msg : Message) (s : State) :
    receive p sent msg s =
      if msg.length = sizeofTestSendMsg then
        let t := { s.hear msg.payload with packet := msg }
        if s.speaks p msg.payload then sendStatus p sent t else (t, [])
      else ({ s with packet := msg }, []) := by
  unfold receive State.hear State.speaks
  split
  case isFalse => rfl
  case isTrue =>
    have hstatus : s.status ⊔ msg.payload =
        ⟨if s.status.max < msg.payload.max then msg.payload.max else s.status.max,
          if msg.payload.min < s.status.min then msg.payload.min else s.status.min⟩ := by
      rw [← max_def_lt, ← min_def_lt, min_comm]
      rfl
    by_cases hmax : s.status.max < msg.payload.max <;>
      by_cases hmin : msg.payload.min < s.status.min <;>
      by_cases hin : msg.payload.inside s.status = true <;>
      simp [hmax, hmin, hin, hstatus]

/-- What is left for the pair to grow. -/
def TestSendMsg.room (a : TestSendMsg) : ℕ := (2 ^ 16 - 1 - a.max.val) + a.min.val

theorem TestSendMsg.room_lt (a : TestSendMsg) : a.room < 2 ^ 17 := by
  have := a.max.isLt
  have := a.min.isLt
  unfold room
  omega

theorem TestSendMsg.room_anti {a b : TestSendMsg} (h : a ≤ b) : b.room ≤ a.room := by
  obtain ⟨hmax, hmin⟩ := h
  rw [Fin.le_def] at hmax hmin
  unfold room
  omega

theorem TestSendMsg.room_strictAnti {a b : TestSendMsg} (h : a < b) : b.room < a.room := by
  refine lt_of_le_of_ne (room_anti h.le) fun heq => h.not_ge ?_
  have hle := h.le
  rw [le_def, Fin.le_def, Fin.le_def] at hle ⊢
  have := b.max.isLt
  unfold room at heq
  omega

theorem TestSendMsg.room_inside {rm status : TestSendMsg} (h : rm.inside status = true) :
    status.room < rm.room := by
  simp only [inside, Bool.and_eq_true, decide_eq_true_eq, Fin.lt_def] at h
  have := status.max.isLt
  unfold room
  omega

section Receive
variable (p : Settings) (sent : ErrorT) (msg : Message) (s : State)

theorem receive_keeps :
    (receive p sent msg s).1.serialReceived = s.serialReceived ∧
    (receive p sent msg s).1.selfNumber = s.selfNumber ∧
    (receive p sent msg s).1.milliTimer = s.milliTimer ∧
    (receive p sent msg s).1.sendTimer = s.sendTimer := by
  rw [receive_eq]
  split
  · dsimp only
    split <;> simp [State.hear]
  · simp

theorem receive_fst :
    ∃ packet sendCount busyRadio resendTimer outstanding staleCount status,
      (receive p sent msg s).1 =
        { s with
          packet := packet, sendCount := sendCount, busyRadio := busyRadio
          resendTimer := resendTimer, outstanding := outstanding
          staleCount := staleCount, status := status } := by
  rw [receive_eq]
  split
  · dsimp only
    split
    · obtain ⟨_, _, _, _, _, heq⟩ := sendStatus_fst p sent { s.hear msg.payload with packet := msg }
      rw [heq]
      exact ⟨_, _, _, _, _, _, _, rfl⟩
    · exact ⟨_, _, _, _, _, _, _, rfl⟩
  · exact ⟨_, _, _, _, _, _, _, rfl⟩

@[simp] theorem receive_serialReceived :
    (receive p sent msg s).1.serialReceived = s.serialReceived :=
  (receive_keeps p sent msg s).1

@[simp] theorem receive_selfNumber : (receive p sent msg s).1.selfNumber = s.selfNumber :=
  (receive_keeps p sent msg s).2.1

@[simp] theorem receive_milliTimer : (receive p sent msg s).1.milliTimer = s.milliTimer :=
  (receive_keeps p sent msg s).2.2.1

@[simp] theorem receive_sendTimer : (receive p sent msg s).1.sendTimer = s.sendTimer :=
  (receive_keeps p sent msg s).2.2.2

/-- A frame of the right length is joined to the status, any other is ignored. -/
theorem receive_status :
    (receive p sent msg s).1.status =
      if msg.length = sizeofTestSendMsg then s.status ⊔ msg.payload else s.status := by
  rw [receive_eq]
  split
  · dsimp only
    split <;> simp [State.hear]
  · rfl

/-- So is its count. -/
theorem receive_staleCount :
    (receive p sent msg s).1.staleCount =
      if msg.length = sizeofTestSendMsg then (s.hear msg.payload).staleCount
      else s.staleCount := by
  rw [receive_eq]
  split
  · dsimp only
    split <;> simp
  · rfl

theorem le_receive_status : s.status ≤ (receive p sent msg s).1.status := by
  rw [receive_status]
  split
  · exact le_sup_left
  · exact le_rfl

variable {p sent msg s}

theorem mem_receive {f : Message} (h : f ∈ (receive p sent msg s).2) :
    f = ⟨sizeofTestSendMsg, (receive p sent msg s).1.status⟩ ∧ s.serialReceived = true ∧
      p.isRoot = false := by
  have hfst := sendStatus_status p sent { s.hear msg.payload with packet := msg }
  rw [receive_eq] at h ⊢
  split at h
  case isFalse => simp at h
  case isTrue hlen =>
    dsimp only at h
    split at h
    case isFalse => simp at h
    case isTrue hspeaks =>
      obtain ⟨hf, hserial, hroot⟩ := mem_sendStatus h
      refine ⟨?_, hserial, hroot⟩
      simp [hlen, hspeaks, hf]

theorem receive_packet (p : Settings) (sent : ErrorT) (msg : Message) (s : State) :
    (receive p sent msg s).1.packet = msg ∨ s.serialReceived = true ∧
      (receive p sent msg s).1.packet.payload = (receive p sent msg s).1.status := by
  have hpacket := sendStatus_packet p sent { s.hear msg.payload with packet := msg }
  have hstatus := sendStatus_status p sent { s.hear msg.payload with packet := msg }
  rw [receive_eq]
  split
  · dsimp only
    split
    · rw [hstatus]
      exact hpacket
    · exact .inl rfl
  · exact .inl rfl

theorem length_receive_le (p : Settings) (sent : ErrorT) (msg : Message) (s : State) :
    (receive p sent msg s).2.length ≤ 1 := by
  rw [receive_eq]
  split
  · dsimp only
    split
    · exact length_sendStatus_le ..
    · simp
  · simp

theorem receive_silent (h : msg.length ≠ sizeofTestSendMsg ∨ s.speaks p msg.payload = false) :
    (receive p sent msg s).2 = [] := by
  rw [receive_eq]
  split
  · next hlen =>
    have hspeaks := h.resolve_left (not_not.mpr hlen)
    simp [hspeaks]
  · rfl

theorem speaks_of_not_le {rm : TestSendMsg} (h : ¬ rm ≤ s.status) : s.speaks p rm = true := by
  rw [TestSendMsg.le_def, not_and_or, not_le, not_le] at h
  simp [State.speaks, h]

/-- A node that speaks either learnt something or was asked by a frame strictly
inside its status. -/
theorem lt_or_inside_of_speaks {rm : TestSendMsg} (h : s.speaks p rm = true) :
    s.status < s.status ⊔ rm ∨ (rm.inside s.status = true ∧ s.status ⊔ rm = s.status) := by
  by_cases hle : rm ≤ s.status
  · right
    refine ⟨?_, sup_eq_left.mpr hle⟩
    simp only [State.speaks, Bool.or_eq_true, Bool.and_eq_true, decide_eq_true_eq] at h
    rcases h with h | h
    · exact h.1
    · obtain h | h : s.status.max < rm.max ∨ rm.min < s.status.min := by simpa using h
      · exact absurd hle.1 (not_le.mpr h)
      · exact absurd hle.2 (not_le.mpr h)
  · exact .inl (left_lt_sup.mpr hle)

/-- With an idle radio and every send accepted, a node that speaks broadcasts
its new status. -/
theorem receive_success (hserial : s.serialReceived = true) (hroot : p.isRoot = false)
    (hbusy : s.busyRadio = false) (hlen : msg.length = sizeofTestSendMsg)
    (hspeaks : s.speaks p msg.payload = true) :
    (receive p .success msg s).2 = [⟨sizeofTestSendMsg, s.status ⊔ msg.payload⟩] := by
  have ht := sendStatus_success (p := p) (s := { s.hear msg.payload with packet := msg })
    hserial hroot hbusy
  rw [receive_eq, if_pos hlen]
  dsimp only
  rw [if_pos hspeaks, ht]
  rfl

/-- A received frame leaves the status as it was, or the new status is aired. -/
theorem receive_airs (msg : Message) (hserial : s.serialReceived = true) (hroot : p.isRoot = false)
    (hbusy : s.busyRadio = false) :
    ⟨sizeofTestSendMsg, (receive p .success msg s).1.status⟩ ∈ (receive p .success msg s).2 ∨
      (receive p .success msg s).1.status = s.status := by
  by_cases hlen : msg.length = sizeofTestSendMsg
  · rw [receive_status, if_pos hlen]
    by_cases hle : msg.payload ≤ s.status
    · exact .inr (sup_eq_left.mpr hle)
    · simp [receive_success hserial hroot hbusy hlen (speaks_of_not_le hle)]
  · exact .inr (by rw [receive_status, if_neg hlen])

theorem receive_success_idle (msg : Message) (hbusy : s.busyRadio = false) :
    (receive p .success msg s).1.busyRadio = false ∧
      (receive p .success msg s).1.resendTimer = s.resendTimer := by
  rw [receive_eq]
  split
  · dsimp only
    split
    · exact sendStatus_success_idle p (s := { s.hear msg.payload with packet := msg }) hbusy
    · exact ⟨hbusy, rfl⟩
  · exact ⟨hbusy, rfl⟩

end Receive

/-- The common part of `MilliTimer.fired`: the new state and whether the root
has a result to print. The clock stands still on a tick whose status is stable. -/
def milliTick (p : Settings) (stableThd endTime : Word16) (s : State) : State × Bool :=
  let stable := stableThd ≤ s.statusStableCount && p.isRoot
  let s := if stable then s else { s with timeCount := s.timeCount + 1 }
  let due := stable || (endTime ≤ s.timeCount && p.isRoot)
  let same := s.lastStatus.max = s.status.max && s.lastStatus.min = s.status.min
  ({ s with
      statusStableCount := if same then s.statusStableCount + 1 else 0
      lastStatus := s.status }, due)

end WsnContest.Gossip
