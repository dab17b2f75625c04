import WsnContest.Lib.System
import WsnContest.Tinyos

/-! `BeaconC` of `more_official`, the data source: it numbers its packets, sends the next
one when the last is done, and stops after `TOTAL_SEND_COUNT` of them. -/
namespace WsnContest.Beacon
open Tinyos Lib

def totalSendCount : Word16 := 300

/-- `TOSH_DATA_LENGTH` of the makefile. -/
def toshDataLength : Word8 := 114

structure BeaconMsg where
  nodeid : Word16
  counter : Word16
  data : Vector Word8 40
  deriving DecidableEq, Repr

def sizeofBeaconMsg : Word8 := 44

/-- `Packet.getPayload` answers `NULL` for a payload that does not fit. -/
def getPayload (pkt : MessageBuffer BeaconMsg) (len : Word8) : Option BeaconMsg :=
  if len ≤ toshDataLength then some pkt.payload else none

/-- The variables of the component, and whether `Timer0` runs. -/
structure State where
  counter : Word16 := 0
  pkt : MessageBuffer BeaconMsg := { payload := ⟨0, 0, Vector.replicate 40 0⟩ }
  busy : Bool := false
  timer0 : Bool := false
  deriving DecidableEq, Repr

/-- What is seen of the node: the radio has started, or a frame was accepted. -/
inductive Output where
  | started
  | accepted (msg : BeaconMsg)
  deriving DecidableEq, Repr

/-- `AMControl.startDone`; after an error `AMControl.start` is called again. -/
def startDone (err : ErrorT) (s : State) : State × List Output :=
  if err = .success then ({ s with timer0 := true }, [.started]) else (s, [])

/-- The loop that fills `data`. -/
def fillData (data : Vector Word8 40) : Vector Word8 40 :=
  (List.finRange 40).foldl (fun data (i : Fin 40) => data.set i.val (Fin.ofNat _ (i.val + 1))) data

/-- `Timer0.fired`. -/
def timer0Fired (tosNodeId : Word16) (sent : ErrorT) (s : State) : State × List Output :=
  if !s.busy then
    match getPayload s.pkt sizeofBeaconMsg with
    | none => (s, [])
    | some btrpkt =>
      let btrpkt := { btrpkt with nodeid := tosNodeId }
      let btrpkt := { btrpkt with counter := s.counter }
      let btrpkt := { btrpkt with data := fillData btrpkt.data }
      let pkt : MessageBuffer BeaconMsg := { s.pkt with payload := btrpkt }
      let s := { s with pkt := pkt.send sizeofBeaconMsg sent }
      if sent = .success then ({ s with busy := true }, [.accepted btrpkt]) else (s, [])
  else (s, [])

/-- `AMSend.sendDone`, which comes for `pkt` only. -/
def sendDone (s : State) : Option State :=
  s.pkt.done.map fun pkt =>
    let s := { s with pkt := pkt, counter := s.counter + 1, busy := false }
    if s.counter < totalSendCount then { s with timer0 := true } else s

/-- `sent` answers the `AMSend.send` that the handler may call; the error that a
`sendDone` reports is not looked at. -/
inductive Event where
  | startDone (err : ErrorT)
  | timer0Fired (sent : ErrorT)
  | sendDone (err : ErrorT)
  deriving DecidableEq, Repr

/-- The timer runs once each time it is started. -/
def step (tosNodeId : Word16) (s : State) : Event → Option (State × List Output)
  | .startDone err => some (startDone err s)
  | .timer0Fired sent =>
    if s.timer0 then some (timer0Fired tosNodeId sent { s with timer0 := false }) else none
  | .sendDone _ => (sendDone s).map fun s => (s, [])

def machine (tosNodeId : Word16) : Machine State Event Output where
  init := {}
  step := step tosNodeId

/-- The radio is started once. -/
def Once (s : State × List Output) : Event → Prop
  | .startDone err => err = .success → .started ∉ s.2
  | .timer0Fired _ | .sendDone _ => True

instance (s : State × List Output) : (e : Event) → Decidable (Once s e)
  | .startDone err => inferInstanceAs (Decidable (err = .success → .started ∉ s.2))
  | .timer0Fired _ | .sendDone _ => .isTrue trivial

/-- The `i`-th packet of the node. -/
def packet (tosNodeId : Word16) (i : ℕ) : BeaconMsg :=
  ⟨tosNodeId, Fin.ofNat _ i, Vector.ofFn fun j => Fin.ofNat _ (j.val + 1)⟩

/-- The packets that `AMSend.send` has accepted. -/
def acceptedMsgs (out : List Output) : List BeaconMsg :=
  out.filterMap fun
    | .accepted msg => some msg
    | .started => none

/-- A loop that assigns to elements leaves what was assigned to each of them. -/
theorem foldl_set_getElem {α : Type} {n : ℕ} (f : Fin n → α) (l : List (Fin n)) (v : Vector α n)
    (j : ℕ) (hj : j < n) :
    (l.foldl (fun v (i : Fin n) => v.set i.val (f i)) v)[j] =
      if ⟨j, hj⟩ ∈ l then f ⟨j, hj⟩ else v[j] := by
  induction l generalizing v with
  | nil => simp
  | cons i l ih =>
    rw [List.foldl_cons, ih, Vector.getElem_set]
    by_cases hmem : (⟨j, hj⟩ : Fin n) ∈ l
    · simp [hmem]
    · by_cases hi : i.val = j
      · subst hi
        simp
      · have hne : (⟨j, hj⟩ : Fin n) ≠ i := fun h => hi (by rw [← h])
        simp [hmem, hi, hne]

theorem fillData_eq (data : Vector Word8 40) :
    fillData data = Vector.ofFn fun j => Fin.ofNat _ (j.val + 1) := by
  apply Vector.ext
  intro j hj
  have hassigned := foldl_set_getElem
    (fun j : Fin 40 => (Fin.ofNat (2 ^ 8) (j.val + 1) : Word8)) (List.finRange 40) data j hj
  rw [if_pos (List.mem_finRange _)] at hassigned
  rw [fillData, hassigned, Vector.getElem_ofFn]

/-- The counter, the timer, the frame in flight and what was accepted belong together. -/
structure Numbered (tosNodeId : Word16) (s : State × List Output) : Prop where
  accepted : acceptedMsgs s.2 =
    (List.range (s.1.counter.val + if s.1.busy then 1 else 0)).map (packet tosNodeId)
  limit : s.1.counter.val + (if s.1.busy then 1 else 0) ≤ totalSendCount.val
  outstanding : s.1.pkt.outstanding = if s.1.busy then 1 else 0
  onAir : ∀ p ∈ s.1.pkt.onAir, p = (sizeofBeaconMsg, packet tosNodeId s.1.counter.val)
  timer : s.1.timer0 = true →
    s.1.busy = false ∧ s.1.counter < totalSendCount ∧ .started ∈ s.2
  fresh : .started ∉ s.2 → s.1.busy = false ∧ s.1.counter = 0

section Steps
variable {tosNodeId : Word16} {s : State × List Output}

/-- A firing of an idle node: the next packet is written and offered to the radio. -/
theorem timer0Fired_idle (sent : ErrorT) {s : State} (hbusy : s.busy = false) :
    timer0Fired tosNodeId sent s =
      if sent = .success then
        ({ s with
            pkt := ⟨packet tosNodeId s.counter.val, sizeofBeaconMsg, s.pkt.outstanding + 1⟩
            busy := true }, [.accepted (packet tosNodeId s.counter.val)])
      else
        ({ s with pkt := ⟨packet tosNodeId s.counter.val,
            if sent = .ebusy then s.pkt.length else sizeofBeaconMsg, s.pkt.outstanding⟩ }, []) := by
  have hback : Fin.ofNat (2 ^ 16) s.counter.val = s.counter := Fin.ofNat_val_eq_self _
  have hpayload : getPayload s.pkt sizeofBeaconMsg = some s.pkt.payload := if_pos (by decide)
  unfold timer0Fired packet
  rw [hbusy, hpayload, hback]
  by_cases hsent : sent = .success
  · simp [hsent, MessageBuffer.send, fillData_eq]
  · simp [hsent, MessageBuffer.send, fillData_eq]

theorem Numbered.fire (h : Numbered tosNodeId s) (htimer : s.1.timer0 = true) (sent : ErrorT) :
    Numbered tosNodeId ((timer0Fired tosNodeId sent { s.1 with timer0 := false }).1,
      s.2 ++ (timer0Fired tosNodeId sent { s.1 with timer0 := false }).2) := by
  obtain ⟨hbusy, hroom, hstarted⟩ := h.timer htimer
  have haccepted := h.accepted
  have hidle := h.outstanding
  rw [if_neg (by simp [hbusy]), Nat.add_zero] at haccepted
  rw [if_neg (by simp [hbusy])] at hidle
  rw [timer0Fired_idle sent (s := { s.1 with timer0 := false }) hbusy]
  split
  · have hmore : acceptedMsgs (s.2 ++ [.accepted (packet tosNodeId s.1.counter.val)]) =
        acceptedMsgs s.2 ++ [packet tosNodeId s.1.counter.val] := by simp [acceptedMsgs]
    refine ⟨?_, hroom, ?_, fun p hp => ?_, nofun, fun hnone => ?_⟩
    · rw [hmore, haccepted, if_pos rfl, List.range_succ, List.map_append, List.map_singleton]
    · simp [hidle]
    · exact (MessageBuffer.onAir_eq hp).2
    · exact absurd (List.mem_append_left _ hstarted) hnone
  · rw [List.append_nil]
    refine ⟨h.accepted, h.limit, h.outstanding, fun p hp => ?_, nofun, h.fresh⟩
    exact absurd hidle (MessageBuffer.onAir_eq hp).1

theorem Numbered.sendDone (h : Numbered tosNodeId s) {t : State} (hdone : sendDone s.1 = some t) :
    Numbered tosNodeId (t, s.2) := by
  obtain ⟨pkt, hpkt, rfl⟩ := Option.map_eq_some_iff.mp hdone
  obtain ⟨hout, rfl⟩ := MessageBuffer.done_eq hpkt
  have hbusy : s.1.busy = true := by
    by_contra hbusy
    exact hout (h.outstanding.trans (if_neg hbusy))
  have hone := h.outstanding
  have haccepted := h.accepted
  have hlimit := h.limit
  rw [if_pos hbusy] at hone haccepted hlimit
  have hroom : s.1.counter.val + 1 ≤ 300 := hlimit
  have hnext : (s.1.counter + 1).val = s.1.counter.val + 1 := Fin.val_add_one_of_lt' (by omega)
  have hstarted : .started ∈ s.2 := by
    by_contra hnone
    exact absurd (h.fresh hnone).1 (by simp [hbusy])
  have hended : Numbered tosNodeId ({ s.1 with
      pkt := { s.1.pkt with outstanding := s.1.pkt.outstanding - 1 }
      counter := s.1.counter + 1, busy := false, timer0 := false }, s.2) := by
    refine ⟨?_, ?_, ?_, fun p hp => ?_, nofun, fun hnone => absurd hstarted hnone⟩
    · simpa [hnext] using haccepted
    · rw [hnext]
      exact hroom
    · simp [hone]
    · exact absurd (by simp [hone]) (MessageBuffer.onAir_eq hp).1
  dsimp only
  split
  · next hless =>
    exact ⟨hended.accepted, hended.limit, hended.outstanding, hended.onAir,
      fun _ => ⟨rfl, hless, hstarted⟩, hended.fresh⟩
  · have hstill : s.1.timer0 = false := by
      by_contra htimer
      have hidle := (h.timer (by simpa using htimer)).1
      simp [hbusy] at hidle
    exact ⟨hended.accepted, hended.limit, hended.outstanding, hended.onAir,
      fun htimer => absurd (hstill.symm.trans htimer) (by simp), hended.fresh⟩

theorem numbered_step (h : Numbered tosNodeId s) {e : Event} {t : State} {out : List Output}
    (honce : Once s e) (hstep : step tosNodeId s.1 e = some (t, out)) :
    Numbered tosNodeId (t, s.2 ++ out) := by
  cases e with
  | startDone err =>
    have hrun : startDone err s.1 = (t, out) := Option.some.inj hstep
    unfold startDone at hrun
    split at hrun
    · next herr =>
      obtain ⟨hbusy, hzero⟩ := h.fresh (honce herr)
      cases hrun
      have hsame : acceptedMsgs (s.2 ++ [.started]) = acceptedMsgs s.2 := by simp [acceptedMsgs]
      refine ⟨hsame.trans h.accepted, h.limit, h.outstanding, h.onAir, fun _ => ?_, fun hnone => ?_⟩
      · exact ⟨hbusy, by rw [hzero]; decide, by simp⟩
      · exact absurd (List.mem_append_right _ (List.mem_singleton_self _)) hnone
    · cases hrun
      rw [List.append_nil]
      exact h
  | timer0Fired sent =>
    obtain ⟨htimer, hpair⟩ := Option.ite_none_right_eq_some.mp hstep
    have hfired := h.fire htimer sent
    rwa [show timer0Fired tosNodeId sent { s.1 with timer0 := false } = (t, out) from
      Option.some.inj hpair] at hfired
  | sendDone err =>
    obtain ⟨u, hdone, hpair⟩ := Option.map_eq_some_iff.mp hstep
    cases hpair
    rw [List.append_nil]
    exact h.sendDone hdone

theorem numbered_of_reachable (h : (machine tosNodeId).system.Reachable Once s) :
    Numbered tosNodeId s := by
  apply Machine.invariant (P := Numbered tosNodeId) h
  · exact ⟨rfl, Nat.zero_le _, rfl, fun p hp => absurd hp (Option.not_mem_none p),
      fun hoff => absurd hoff Bool.false_ne_true, fun _ => ⟨rfl, rfl⟩⟩
  · exact fun _ _ _ _ hs honce hstep => numbered_step hs honce hstep

/-- While a frame is in flight nothing but its `sendDone` happens to the packet. -/
theorem Numbered.unwritten (h : Numbered tosNodeId s) (hout : s.1.pkt.outstanding ≠ 0) {e : Event}
    {t : State} {out : List Output} (hstep : step tosNodeId s.1 e = some (t, out)) :
    t.pkt.payload = s.1.pkt.payload ∧ t.pkt.length = s.1.pkt.length := by
  cases e with
  | startDone err =>
    have hrun : startDone err s.1 = (t, out) := Option.some.inj hstep
    unfold startDone at hrun
    split at hrun
    · cases hrun
      exact ⟨rfl, rfl⟩
    · cases hrun
      exact ⟨rfl, rfl⟩
  | timer0Fired sent =>
    obtain ⟨htimer, -⟩ := Option.ite_none_right_eq_some.mp hstep
    have hidle := h.outstanding
    rw [(h.timer htimer).1] at hidle
    exact absurd hidle hout
  | sendDone err =>
    obtain ⟨u, hdone, hpair⟩ := Option.map_eq_some_iff.mp hstep
    obtain ⟨pkt, hpkt, rfl⟩ := Option.map_eq_some_iff.mp hdone
    obtain ⟨-, rfl⟩ := MessageBuffer.done_eq hpkt
    cases hpair
    dsimp only
    split
    · exact ⟨rfl, rfl⟩
    · exact ⟨rfl, rfl⟩

end Steps

/-- If the radio is started once, the accepted packets are numbered from zero without gap
or repeat, there are no more than `TOTAL_SEND_COUNT`, the radio reads the last of them,
and nothing is written while it does. -/
theorem packets_numbered {tosNodeId : Word16} {s : State × List Output}
    (h : (machine tosNodeId).system.Reachable Once s) :
    (∀ (i : ℕ) (msg : BeaconMsg), (acceptedMsgs s.2)[i]? = some msg →
      msg.nodeid = tosNodeId ∧ msg.counter.val = i ∧
      ∀ (j : ℕ) (hj : j < 40), msg.data[j].val = j + 1) ∧
    (acceptedMsgs s.2).length ≤ totalSendCount.val ∧
    (∀ p ∈ s.1.pkt.onAir, p.1 = sizeofBeaconMsg ∧ (acceptedMsgs s.2).getLast? = some p.2) ∧
    (s.1.pkt.outstanding ≠ 0 → ∀ e t out, step tosNodeId s.1 e = some (t, out) →
      t.pkt.payload = s.1.pkt.payload ∧ t.pkt.length = s.1.pkt.length) := by
  have hnumbered : Numbered tosNodeId s := numbered_of_reachable h
  have hlength : (acceptedMsgs s.2).length = s.1.counter.val + if s.1.busy then 1 else 0 := by
    rw [hnumbered.accepted, List.length_map, List.length_range]
  have hlimit : (acceptedMsgs s.2).length ≤ 300 := hlength ▸ hnumbered.limit
  refine ⟨fun i msg hmsg => ?_, hlimit, fun p hp => ?_, fun hout e t out hstep => ?_⟩
  · have hi : i < (acceptedMsgs s.2).length := (List.getElem?_eq_some_iff.mp hmsg).1
    rw [hnumbered.accepted, List.getElem?_map, List.getElem?_range (by omega)] at hmsg
    obtain rfl := Option.some.inj hmsg
    refine ⟨rfl, ?_, fun j hj => ?_⟩
    · rw [packet, Fin.val_ofNat]
      omega
    · rw [packet, Vector.getElem_ofFn, Fin.val_ofNat]
      dsimp only
      omega
  · have hair := hnumbered.onAir p hp
    have hbusy : s.1.busy = true := by
      by_contra hbusy
      exact (MessageBuffer.onAir_eq hp).1 (hnumbered.outstanding.trans (if_neg hbusy))
    have haccepted := hnumbered.accepted
    rw [if_pos hbusy, List.range_succ, List.map_append, List.map_singleton] at haccepted
    rw [hair, haccepted, List.getLast?_concat]
    exact ⟨rfl, rfl⟩
  · exact hnumbered.unwritten hout hstep

/-- A first start of the radio may fail, and a send that ends in an error still counts. -/
theorem packets_numbered_start :
    ∃ s, (machine 7).system.run [.startDone .fail, .startDone .success, .timer0Fired .success,
        .sendDone .fail, .timer0Fired .success] = some s ∧
      (acceptedMsgs s.2).map (fun msg => (msg.nodeid, msg.counter)) = [(7, 0), (7, 1)] ∧
      (acceptedMsgs s.2).length ≤ totalSendCount.val := by
  have hinit : (machine 7).system.Reachable Once (machine 7).system.init := .init
  have hreach := System.reachable_of_runFrom hinit [.startDone .fail, .startDone .success,
    .timer0Fired .success, .sendDone .fail, .timer0Fired .success] (by decide) rfl
  exact ⟨_, rfl, by decide, (packets_numbered hreach).2.1⟩

end WsnContest.Beacon
