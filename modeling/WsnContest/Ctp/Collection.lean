import WsnContest.Lib.System
import WsnContest.Official.Beacon

/-! `SimpleCollectionC` of `more_ctp`: nodes 2 and 44 pass the packets of the data source
on to the collection protocol. `busy` is cleared only by a send that ends well. -/
namespace WsnContest.Collection
open Tinyos Lib
open Beacon (BeaconMsg sizeofBeaconMsg)

/-- The variables of the component that are in use, and how many accepted sends of
`AMControlSend` still owe their `sendDone`. -/
structure State where
  routingPacket : MessageBuffer BeaconMsg := { payload := ⟨0, 0, Vector.replicate 40 0⟩ }
  busy : Bool := false
  controlSent : Bool := false
  controlOutstanding : ℕ := 0
  deriving DecidableEq, Repr

/-- What the collection protocol answers: whether `getPayload` finds room, and the
result of `RoutingSend.send`. -/
structure Answers where
  payload : Bool
  sent : ErrorT
  deriving DecidableEq, Repr

/-- `AMControlSend.sendDone`; the program never calls `AMControlSend.send`. -/
def controlSendDone (err : ErrorT) (s : State) : State :=
  if err = .success then { s with busy := false, controlSent := true } else s

/-- `RoutingSend.sendDone`; the error branch is left to be done. -/
def routingSendDone (err : ErrorT) (s : State) : State :=
  if err = .success then { s with busy := false } else s

/-- `AMDataReceive.receive`, with the packet that `RoutingSend.send` accepts, if any. -/
def dataReceive (tosNodeId : Word16) (ans : Answers) (len : Word8) (bm : BeaconMsg) (s : State) :
    State × List BeaconMsg :=
  if len = sizeofBeaconMsg then
    if tosNodeId = 2 || tosNodeId = 44 then
      if !s.busy && ans.payload then
        let bmToSend : MessageBuffer BeaconMsg := { s.routingPacket with payload := bm }
        let s := { s with routingPacket := bmToSend.send sizeofBeaconMsg ans.sent }
        if ans.sent = .success then ({ s with busy := true }, [bm]) else (s, [])
      else (s, [])
    else (s, [])
  else (s, [])

inductive Event where
  | dataReceive (ans : Answers) (len : Word8) (bm : BeaconMsg)
  | routingSendDone (err : ErrorT)
  | controlSendDone (err : ErrorT)
  deriving DecidableEq, Repr

/-- A `sendDone` answers an accepted send. -/
def step (tosNodeId : Word16) (s : State) : Event → Option (State × List BeaconMsg)
  | .dataReceive ans len bm => some (dataReceive tosNodeId ans len bm s)
  | .routingSendDone err => s.routingPacket.done.map fun routingPacket =>
      (routingSendDone err { s with routingPacket := routingPacket }, [])
  | .controlSendDone err =>
    if s.controlOutstanding ≠ 0 then
      some (controlSendDone err { s with controlOutstanding := s.controlOutstanding - 1 }, [])
    else none

/-- The reports are the packets that are passed on. -/
def machine (tosNodeId : Word16) : Machine State Event BeaconMsg where
  init := {}
  step := step tosNodeId

/-- `busy` has its end in sight, and a node that may forward can be brought to forward
any packet. -/
structure Live (tosNodeId : Word16) (s : State × List BeaconMsg) : Prop where
  owed : s.1.busy = true → s.1.routingPacket.outstanding ≠ 0 ∨ s.1.controlOutstanding ≠ 0
  forwards : tosNodeId = 2 ∨ tosNodeId = 44 → ∀ bm, ∃ es t,
    (machine tosNodeId).system.runFrom s es = some t ∧ t.2 = s.2 ++ [bm]

/-- No send that was accepted ends in an error. -/
def EndsWell (_ : State × List BeaconMsg) : Event → Prop
  | .routingSendDone err | .controlSendDone err => err = .success
  | .dataReceive .. => True

instance (s : State × List BeaconMsg) : (e : Event) → Decidable (EndsWell s e)
  | .routingSendDone err | .controlSendDone err => inferInstanceAs (Decidable (err = .success))
  | .dataReceive .. => .isTrue trivial

/-- The flag is up exactly while a packet is under way, and no control message ever is. -/
structure Matched (s : State) : Prop where
  outstanding : s.routingPacket.outstanding = if s.busy then 1 else 0
  control : s.controlOutstanding = 0

section Steps
variable {tosNodeId : Word16} {s : State}

/-- An idle node that may forward takes any packet the protocol takes. -/
theorem dataReceive_idle (hnode : tosNodeId = 2 ∨ tosNodeId = 44) (hbusy : s.busy = false)
    (bm : BeaconMsg) :
    dataReceive tosNodeId ⟨true, .success⟩ sizeofBeaconMsg bm s =
      ({ s with
          routingPacket := ⟨bm, sizeofBeaconMsg, s.routingPacket.outstanding + 1⟩
          busy := true }, [bm]) := by
  simp [dataReceive, hnode, hbusy, MessageBuffer.send]

/-- What an accepted send owes can come, and come well; the node is idle then. -/
theorem live_of_owed {log : List BeaconMsg}
    (h : s.busy = true → s.routingPacket.outstanding ≠ 0 ∨ s.controlOutstanding ≠ 0) :
    Live tosNodeId (s, log) := by
  refine ⟨h, fun hnode bm => ?_⟩
  let taken : Event := .dataReceive ⟨true, .success⟩ sizeofBeaconMsg bm
  have hidle : ∀ u : State, u.busy = false →
      ∃ t, (machine tosNodeId).system.runFrom (u, log) [taken] = some t ∧ t.2 = log ++ [bm] := by
    intro u hu
    have hstep : (machine tosNodeId).system.step (u, log) taken =
        some ((dataReceive tosNodeId ⟨true, .success⟩ sizeofBeaconMsg bm u).1,
          log ++ (dataReceive tosNodeId ⟨true, .success⟩ sizeofBeaconMsg bm u).2) := rfl
    rw [dataReceive_idle hnode hu] at hstep
    exact ⟨_, by rw [System.runFrom, hstep]; rfl, rfl⟩
  cases hbusy : s.busy with
  | false =>
    obtain ⟨t, hrun, ht⟩ := hidle s hbusy
    exact ⟨_, t, hrun, ht⟩
  | true =>
    rcases h hbusy with hrouting | hcontrol
    · obtain ⟨t, hrun, ht⟩ := hidle { s with
        routingPacket := { s.routingPacket with
          outstanding := s.routingPacket.outstanding - 1 }
        busy := false } rfl
      refine ⟨[.routingSendDone .success, taken], t, ?_, ht⟩
      rw [← hrun]
      simp [System.runFrom, Machine.system, machine, step, MessageBuffer.done, hrouting,
        routingSendDone]
    · obtain ⟨t, hrun, ht⟩ := hidle { s with
        controlOutstanding := s.controlOutstanding - 1
        busy := false, controlSent := true } rfl
      refine ⟨[.controlSendDone .success, taken], t, ?_, ht⟩
      rw [← hrun]
      simp [System.runFrom, Machine.system, machine, step, hcontrol, controlSendDone]

/-- The three ways of a received packet. -/
inductive Receipt (tosNodeId : Word16) (bm : BeaconMsg) (s : State) :
    State × List BeaconMsg → Prop
  | ignored : Receipt tosNodeId bm s (s, [])
  | refused {length : Word8} (hbusy : s.busy = false) :
      Receipt tosNodeId bm s
        ({ s with routingPacket := ⟨bm, length, s.routingPacket.outstanding⟩ }, [])
  | passedOn (hnode : tosNodeId = 2 ∨ tosNodeId = 44) (hbusy : s.busy = false) :
      Receipt tosNodeId bm s
        ({ s with
            routingPacket := ⟨bm, sizeofBeaconMsg, s.routingPacket.outstanding + 1⟩
            busy := true }, [bm])

theorem dataReceive_receipt (ans : Answers) (len : Word8) (bm : BeaconMsg) (s : State) :
    Receipt tosNodeId bm s (dataReceive tosNodeId ans len bm s) := by
  unfold dataReceive
  split
  · split
    · next hnode =>
      split
      · next hfree =>
        obtain ⟨hbusy, -⟩ : s.busy = false ∧ ans.payload = true := by simpa using hfree
        by_cases hsent : ans.sent = .success
        · simp only [MessageBuffer.send, hsent, if_pos]
          exact .passedOn (by simpa using hnode) hbusy
        · simp only [MessageBuffer.send, if_neg hsent]
          exact .refused hbusy
      · exact .ignored
    · exact .ignored
  · exact .ignored

/-- A step that ends no send badly keeps flag and packet together; any other leaves the
flag up with nothing under way. -/
theorem matched_step (h : Matched s) {log : List BeaconMsg} {e : Event} {t : State}
    {out : List BeaconMsg} (hstep : step tosNodeId s e = some (t, out)) :
    (EndsWell (s, log) e → Matched t) ∧
      (¬ EndsWell (s, log) e →
        t.busy = true ∧ t.routingPacket.outstanding = 0 ∧ t.controlOutstanding = 0) := by
  cases e with
  | dataReceive ans len bm =>
    refine ⟨fun _ => ?_, fun hbad => absurd trivial hbad⟩
    have hreceipt := @dataReceive_receipt tosNodeId ans len bm s
    rw [show dataReceive tosNodeId ans len bm s = (t, out) from Option.some.inj hstep]
      at hreceipt
    cases hreceipt with
    | ignored => exact h
    | refused hbusy => exact ⟨h.outstanding, h.control⟩
    | passedOn hnode hbusy =>
      have hidle := h.outstanding
      rw [hbusy] at hidle
      exact ⟨by simpa using hidle, h.control⟩
  | routingSendDone err =>
    obtain ⟨routingPacket, hdone, hpair⟩ := Option.map_eq_some_iff.mp hstep
    obtain ⟨hout, rfl⟩ := MessageBuffer.done_eq hdone
    cases hpair
    have hbusy : s.busy = true := by
      by_contra hbusy
      exact hout (h.outstanding.trans (if_neg hbusy))
    have hone : s.routingPacket.outstanding = 1 := h.outstanding.trans (if_pos hbusy)
    constructor
    · intro herr
      have hsuccess : err = .success := herr
      constructor
      · simp [routingSendDone, hsuccess, hone]
      · simp [routingSendDone, hsuccess, h.control]
    · intro herr
      have hfailed : err ≠ .success := herr
      simp [routingSendDone, hfailed, hbusy, hone, h.control]
  | controlSendDone err =>
    obtain ⟨hcontrol, -⟩ := Option.ite_none_right_eq_some.mp hstep
    exact absurd h.control hcontrol

/-- Once the flag is up with nothing under way, nothing is ever passed on again. -/
theorem silenced_for_ever {log : List BeaconMsg} (hbusy : s.busy = true)
    (hout : s.routingPacket.outstanding = 0) (hcontrol : s.controlOutstanding = 0)
    (es : List Event) {t : State × List BeaconMsg}
    (hrun : (machine tosNodeId).system.runFrom (s, log) es = some t) : t = (s, log) := by
  apply Machine.runFrom_invariant (P := fun u => u = (s, log)) es ?_ rfl hrun
  rintro e - u t out rfl hstep
  cases e with
  | dataReceive ans len bm =>
    have hreceipt := @dataReceive_receipt tosNodeId ans len bm s
    rw [show dataReceive tosNodeId ans len bm s = (t, out) from Option.some.inj hstep]
      at hreceipt
    cases hreceipt with
    | ignored => exact congrArg (s, ·) (List.append_nil log)
    | refused hidle => exact absurd (hbusy.symm.trans hidle) (by simp)
    | passedOn hnode hidle => exact absurd (hbusy.symm.trans hidle) (by simp)
  | routingSendDone err =>
    obtain ⟨routingPacket, hdone, -⟩ := Option.map_eq_some_iff.mp hstep
    exact absurd hout (MessageBuffer.done_eq hdone).1
  | controlSendDone err =>
    obtain ⟨howed, -⟩ := Option.ite_none_right_eq_some.mp hstep
    exact absurd hcontrol howed

end Steps

/-- Along every run the flag is up only while a send is under way, and a node that may
forward can still be brought to, exactly if no accepted send ends in an error. -/
theorem recovers_iff {tosNodeId : Word16} (es : List Event) {t : State × List BeaconMsg}
    (hrun : (machine tosNodeId).system.run es = some t) :
    (machine tosNodeId).system.Always (Live tosNodeId) (machine tosNodeId).system.init es ↔
      (machine tosNodeId).system.AllowedFrom EndsWell (machine tosNodeId).system.init es := by
  apply Machine.always_iff_allowedFrom (fun s => Matched s.1) ?_ ?_ es ⟨rfl, rfl⟩ hrun
  · intro s hmatched
    apply live_of_owed
    intro hbusy
    left
    rw [hmatched.outstanding, if_pos hbusy]
    exact one_ne_zero
  · intro s e t out hmatched hstep
    have heffect := @matched_step tosNodeId s.1 hmatched s.2 e t out hstep
    refine ⟨heffect.1, fun hlive => ?_⟩
    by_contra hbad
    obtain ⟨hbusy, hout, hcontrol⟩ := heffect.2 hbad
    rcases hlive.owed hbusy with howed | howed
    · exact howed hout
    · exact howed hcontrol

/-- A refused send, a packet of the wrong size and a packet that comes too early do no
harm. -/
theorem recovers_refused :
    (machine 44).system.Always (Live 44) (machine 44).system.init
      [.dataReceive ⟨true, .fail⟩ 44 ⟨7, 0, Vector.replicate 40 1⟩,
        .dataReceive ⟨true, .success⟩ 43 ⟨7, 0, Vector.replicate 40 1⟩,
        .dataReceive ⟨true, .success⟩ 44 ⟨7, 1, Vector.replicate 40 1⟩,
        .dataReceive ⟨true, .success⟩ 44 ⟨7, 2, Vector.replicate 40 1⟩,
        .routingSendDone .success] :=
  (recovers_iff _ rfl).mpr (by decide)

/-- One packet that the protocol took and could not deliver silences node 2. -/
theorem silenced_by_failed_send :
    ∃ s, (machine 2).system.run [.dataReceive ⟨true, .success⟩ 44 ⟨7, 0, Vector.replicate 40 1⟩,
        .routingSendDone .fail] = some s ∧
      s.1.busy = true ∧ ¬ Live 2 s ∧
      ∀ es t, (machine 2).system.runFrom s es = some t → t.2 = s.2 := by
  refine ⟨_, rfl, rfl, fun hlive => ?_, fun es t hrun => ?_⟩
  · exact absurd (hlive.owed rfl) (by decide)
  · rw [silenced_for_ever rfl rfl rfl es hrun]

end WsnContest.Collection
