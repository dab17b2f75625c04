import WsnContest.Car.Node
import WsnContest.Car.PcNode
import WsnContest.Car.Relay
import WsnContest.Lib.Lending

/-! The transmit buffers of the car system. Each program fills its buffer before it
looks whether the radio still has it, and the flag that should keep it away is only
set by a send that failed. What goes out is what was sent as long as no further
message comes in the meantime. -/
namespace WsnContest.Car
open Tinyos Lib

instance : Nontrivial TestCarMsg := ⟨⟨0, 0⟩, ⟨1, 0⟩, by decide⟩

instance : Nontrivial TestDataMsg := ⟨⟨0, 0⟩, ⟨1, 0⟩, by decide⟩

/-- A buffer that a send which is answered by `sent` may have lent. -/
theorem lent_send {α : Type} {b : MessageBuffer α} {sent : ErrorT} (size : Word8)
    (h : sent ≠ .success) (hlent : (b.send size sent).outstanding ≠ 0) : b.outstanding ≠ 0 := by
  rwa [MessageBuffer.send_outstanding_of_ne size h] at hlent

namespace PcNode

def takenMsg? : Output → Option TestCarMsg
  | .handed msg .success => some msg
  | _ => none

def readMsg? : Output → Option TestCarMsg
  | .aired _ msg => some msg
  | _ => none

/-- `packet`, from the accepted send to its `sendDone`. -/
def lending : Lending State Output TestCarMsg where
  content s := s.packet.payload
  fill a s := { s with packet := { s.packet with payload := a } }
  fill_content _ := rfl
  lent s := s.packet.outstanding ≠ 0
  taken? := takenMsg?
  read? := readMsg?

/-- No command comes over the serial line while the radio has the packet. -/
def Free (s : State) : Event → Prop
  | .receive len _ _ => len = sizeofTestCarMsg → s.packet.outstanding = 0
  | _ => True

instance (s : State) : (e : Event) → Decidable (Free s e)
  | .receive len _ _ =>
    inferInstanceAs (Decidable (len = sizeofTestCarMsg → s.packet.outstanding = 0))
  | .transmit | .sendDone => .isTrue trivial

theorem takenMsg?_failed {sent : ErrorT} (h : sent ≠ .success) (msg : TestCarMsg) :
    takenMsg? (.handed msg sent) = none := by
  cases sent with
  | success => exact absurd rfl h
  | _ => rfl

theorem lends {s t : State} {e : Event} {out : List Output}
    (h : machine.step s e = some (t, out)) : lending.Lends s t out := by
  cases e with
  | receive len rcm sent =>
    obtain ⟨rfl, rfl⟩ := Prod.mk.inj (Option.some.inj h)
    by_cases hlen : len = sizeofTestCarMsg
    · subst hlen
      rw [if_pos rfl]
      by_cases hsent : sent = .success
      · subst hsent
        refine .taken ?_ (by simp [lending, readMsg?])
        simp [lending, takenMsg?, receive_packet]
      · refine .quiet ?_ (by simp [lending, takenMsg?_failed hsent]) (by simp [lending, readMsg?])
        intro hlent
        simp only [lending, receive_packet] at hlent
        exact lent_send sizeofTestCarMsg hsent hlent
    · rw [receive_otherSize rcm sent hlen, if_neg hlen]
      exact .quiet id rfl (by simp)
  | transmit =>
    obtain ⟨p, hair, hpair⟩ := Option.map_eq_some_iff.mp h
    obtain ⟨rfl, rfl⟩ := Prod.mk.inj hpair
    obtain ⟨hout, rfl⟩ := MessageBuffer.onAir_eq hair
    exact .read hout rfl rfl
  | sendDone =>
    obtain ⟨u, hdone, hpair⟩ := Option.map_eq_some_iff.mp h
    obtain ⟨rfl, rfl⟩ := Prod.mk.inj hpair
    exact .quiet (fun _ => (sendDone_eq hdone).1) rfl (by simp)

/-- Exactly the commands of the serial line write the packet. -/
theorem spares_iff (s : State) (e : Event) : lending.Spares machine s e ↔ Free s e := by
  cases e with
  | receive len rcm sent =>
    by_cases hlen : len = sizeofTestCarMsg
    · subst hlen
      have hpayload : ∀ a, lending.content
          (receive sent sizeofTestCarMsg rcm (lending.fill a s)) = rcm := fun a =>
        congrArg MessageBuffer.payload (receive_packet rcm sent)
      have hover : lending.Spares machine s (.receive sizeofTestCarMsg rcm sent) ↔
          ¬ lending.lent s :=
        Lending.spares_iff_of_overwrites fun a => ⟨_, rfl, hpayload a⟩
      rw [hover]
      simp [Free, lending]
    · refine iff_of_true (Lending.spares_of_keeps ?_) fun heq => absurd heq hlen
      intro a r hr
      obtain rfl := Option.some.inj hr
      rw [receive_otherSize rcm sent hlen]
      rfl
  | transmit =>
    refine iff_of_true (Lending.spares_of_keeps ?_) trivial
    intro a r hr
    obtain ⟨p, -, rfl⟩ := Option.map_eq_some_iff.mp hr
    rfl
  | sendDone =>
    refine iff_of_true (Lending.spares_of_keeps ?_) trivial
    intro a r hr
    obtain ⟨u, hdone, rfl⟩ := Option.map_eq_some_iff.mp hr
    exact (sendDone_eq hdone).2

theorem packet_kept : lending.KeptExactlyWhen machine Free :=
  Lending.kept_exactly_when (by simp [machine, lending]) (fun s e _ _ _ => spares_iff s e)
    fun _ _ _ _ => lends

end PcNode

namespace Relay

def readMsg? : Output → Option TestCarMsg
  | .aired _ msg => some msg
  | _ => none

def takenMsg? : Output → Option TestCarMsg
  | .handed msg .success => some msg
  | _ => none

def dataTakenMsg? : Output → Option TestDataMsg
  | .dataHanded msg .success => some msg
  | _ => none

def dataReadMsg? : Output → Option TestDataMsg
  | .dataAired _ msg => some msg
  | _ => none

/-- `car_packet`, from the accepted send to its `sendDone`. -/
def lending : Lending State Output TestCarMsg where
  content s := s.carPacket.payload
  fill a s := { s with carPacket := { s.carPacket with payload := a } }
  fill_content _ := rfl
  lent s := s.carPacket.outstanding ≠ 0
  taken? := takenMsg?
  read? := readMsg?

/-- `data_packet`, likewise. -/
def dataLending : Lending State Output TestDataMsg where
  content s := s.dataPacket.payload
  fill a s := { s with dataPacket := { s.dataPacket with payload := a } }
  fill_content _ := rfl
  lent s := s.dataPacket.outstanding ≠ 0
  taken? := dataTakenMsg?
  read? := dataReadMsg?

/-- No new command comes while the radio has the packet. -/
def Free (s : State) : Event → Prop
  | .receive len rm _ => len = sizeofTestCarMsg → threshold rm s < rm.seq →
      s.carPacket.outstanding = 0
  | _ => True

/-- No reading comes while the radio has the packet. -/
def DataFree (s : State) : Event → Prop
  | .dataReceive len _ _ => len = sizeofTestDataMsg → s.dataPacket.outstanding = 0
  | _ => True

section Sent
variable {sent : ErrorT} (h : sent ≠ .success)
include h

theorem takenMsg?_failed (msg : TestCarMsg) : takenMsg? (.handed msg sent) = none := by
  cases sent with
  | success => exact absurd rfl h
  | _ => rfl

theorem dataTakenMsg?_failed (msg : TestDataMsg) : dataTakenMsg? (.dataHanded msg sent) = none := by
  cases sent with
  | success => exact absurd rfl h
  | _ => rfl

end Sent

section Receive
variable {s : State} {rm : TestCarMsg} (sent : ErrorT)

theorem receive_lends (len : Word8) :
    lending.Lends s (receive sent len rm s) (seen sent len rm s) := by
  by_cases hlen : len = sizeofTestCarMsg
  · subst hlen
    by_cases hnew : threshold rm s < rm.seq
    · cases hbusy : s.busyRadio with
      | true =>
        rw [receive_busy sent hnew hbusy]
        refine .quiet id ?_ ?_ <;> simp [seen, hnew, hbusy]
      | false =>
        rw [receive_idle sent hnew hbusy]
        have hseen : seen sent sizeofTestCarMsg rm s = [.handed rm sent] := by
          simp [seen, hnew, hbusy]
        rw [hseen]
        by_cases hsent : sent = .success
        · subst hsent
          exact .taken rfl (by simp [lending, readMsg?])
        · refine .quiet (lent_send sizeofTestCarMsg hsent) ?_ (by simp [lending, readMsg?])
          simp [lending, takenMsg?_failed hsent]
    · rw [receive_old sent hnew]
      refine .quiet id ?_ ?_ <;> simp [seen, hnew, lending, takenMsg?, readMsg?]
  · rw [receive_otherSize sent hlen]
    refine .quiet id ?_ ?_ <;> simp [seen, hlen]

theorem receive_dataLends (len : Word8) :
    dataLending.Lends s (receive sent len rm s) (seen sent len rm s) := by
  have hpacket : (receive sent len rm s).dataPacket = s.dataPacket := receive_dataPacket ..
  refine .quiet ?_ ?_ ?_
  · simp only [dataLending, hpacket]
    exact id
  · unfold seen
    split
    · split
      · split <;> rfl
      · rfl
    · rfl
  · unfold seen
    split
    · split
      · split <;> simp [dataLending, dataReadMsg?]
      · simp [dataLending, dataReadMsg?]
    · simp

theorem dataReceive_dataLends (len : Word8) (rm : TestDataMsg) :
    dataLending.Lends s (dataReceive sent len rm s) (dataSeen sent len rm s) := by
  by_cases hlen : len = sizeofTestDataMsg
  · subst hlen
    cases hbusy : s.busyRadio with
    | true =>
      rw [dataReceive_busy sent hbusy]
      refine .quiet id ?_ ?_ <;> simp [dataSeen, hbusy]
    | false =>
      rw [dataReceive_idle sent hbusy]
      have hseen : dataSeen sent sizeofTestDataMsg rm s = [.dataHanded rm sent] := by
        simp [dataSeen, hbusy]
      rw [hseen]
      by_cases hsent : sent = .success
      · subst hsent
        exact .taken rfl (by simp [dataLending, dataReadMsg?])
      · refine .quiet (lent_send sizeofTestDataMsg hsent) ?_ (by simp [dataLending, dataReadMsg?])
        simp [dataLending, dataTakenMsg?_failed hsent]
  · rw [dataReceive_otherSize sent hlen]
    refine .quiet id ?_ ?_ <;> simp [dataSeen, hlen]

theorem dataReceive_lends (len : Word8) (rm : TestDataMsg) :
    lending.Lends s (dataReceive sent len rm s) (dataSeen sent len rm s) := by
  have hpacket := dataReceive_carPacket sent len rm s
  refine .quiet ?_ ?_ ?_
  · simp only [lending, hpacket]
    exact id
  · unfold dataSeen
    split <;> rfl
  · unfold dataSeen
    split <;> simp [lending, readMsg?]

end Receive

theorem lends {s t : State} {e : Event} {out : List Output}
    (h : machine.step s e = some (t, out)) : lending.Lends s t out := by
  cases step_effect h with
  | @receive len rm sent => exact receive_lends sent len
  | @dataReceive len rm sent => exact dataReceive_lends sent len rm
  | transmit hout => exact .read hout rfl rfl
  | sendDone hout => exact .quiet (fun _ => hout) rfl (by simp)
  | dataTransmit | dataSendDone => exact .quiet id rfl (by simp [lending, readMsg?])

theorem dataLends {s t : State} {e : Event} {out : List Output}
    (h : machine.step s e = some (t, out)) : dataLending.Lends s t out := by
  cases step_effect h with
  | @receive len rm sent => exact receive_dataLends sent len
  | @dataReceive len rm sent => exact dataReceive_dataLends sent len rm
  | dataTransmit hout => exact .read hout rfl rfl
  | dataSendDone hout => exact .quiet (fun _ => hout) rfl (by simp)
  | transmit | sendDone => exact .quiet id rfl (by simp [dataLending, dataReadMsg?])

theorem done_payload {s t : State} {out : List Output} {e : Event}
    (he : e = .transmit ∨ e = .dataTransmit ∨ e = .sendDone ∨ e = .dataSendDone)
    (h : machine.step s e = some (t, out)) :
    t.carPacket.payload = s.carPacket.payload ∧ t.dataPacket.payload = s.dataPacket.payload := by
  cases step_effect h with
  | receive | dataReceive => simp at he
  | transmit | dataTransmit => exact ⟨rfl, rfl⟩
  | sendDone _ hpayload => exact ⟨hpayload, rfl⟩
  | dataSendDone _ hpayload => exact ⟨rfl, hpayload⟩

/-- Exactly the commands that pass the filter write `car_packet`. -/
theorem spares_iff (s : State) (e : Event) : lending.Spares machine s e ↔ Free s e := by
  cases e with
  | receive len rm sent =>
    by_cases hpasses : len = sizeofTestCarMsg ∧ threshold rm s < rm.seq
    · obtain ⟨rfl, hnew⟩ := hpasses
      have hover : lending.Spares machine s (.receive sizeofTestCarMsg rm sent) ↔
          ¬ lending.lent s :=
        Lending.spares_iff_of_overwrites fun a =>
          ⟨_, rfl, receive_payload (s := lending.fill a s) sent hnew⟩
      rw [hover]
      simp [Free, lending, hnew]
    · refine iff_of_true (Lending.spares_of_keeps ?_) fun hlen hnew => absurd ⟨hlen, hnew⟩ hpasses
      intro a r hr
      obtain rfl := Option.some.inj hr
      exact congrArg MessageBuffer.payload
        (receive_carPacket (s := lending.fill a s) sent hpasses)
  | dataReceive len rm sent =>
    refine iff_of_true (Lending.spares_of_keeps ?_) trivial
    intro a r hr
    obtain rfl := Option.some.inj hr
    exact congrArg MessageBuffer.payload (dataReceive_carPacket sent len rm (lending.fill a s))
  | _ =>
    refine iff_of_true (Lending.spares_of_keeps ?_) trivial
    intro a r hr
    exact (done_payload (by simp) hr).1

theorem dataSpares_iff (s : State) (e : Event) :
    dataLending.Spares machine s e ↔ DataFree s e := by
  cases e with
  | dataReceive len rm sent =>
    by_cases hlen : len = sizeofTestDataMsg
    · subst hlen
      have hover : dataLending.Spares machine s (.dataReceive sizeofTestDataMsg rm sent) ↔
          ¬ dataLending.lent s :=
        Lending.spares_iff_of_overwrites fun a =>
          ⟨_, rfl, dataReceive_payload sent rm (dataLending.fill a s)⟩
      rw [hover]
      simp [DataFree, dataLending]
    · refine iff_of_true (Lending.spares_of_keeps ?_) fun heq => absurd heq hlen
      intro a r hr
      obtain rfl := Option.some.inj hr
      dsimp only
      rw [dataReceive_otherSize sent hlen]
      rfl
  | receive len rm sent =>
    refine iff_of_true (Lending.spares_of_keeps ?_) trivial
    intro a r hr
    obtain rfl := Option.some.inj hr
    exact congrArg MessageBuffer.payload (receive_dataPacket sent len rm (dataLending.fill a s))
  | _ =>
    refine iff_of_true (Lending.spares_of_keeps ?_) trivial
    intro a r hr
    exact (done_payload (by simp) hr).2

theorem carPacket_kept : lending.KeptExactlyWhen machine Free :=
  Lending.kept_exactly_when (by simp [machine, lending]) (fun s e _ _ _ => spares_iff s e)
    fun _ _ _ _ => lends

theorem dataPacket_kept : dataLending.KeptExactlyWhen machine DataFree :=
  Lending.kept_exactly_when (by simp [machine, dataLending]) (fun s e _ _ _ => dataSpares_iff s e)
    fun _ _ _ _ => dataLends

end Relay

end WsnContest.Car

namespace WsnContest.CarNode
open Tinyos Lib Car

/-- What happens at the node, and the radio that reads its packet. -/
inductive RadioInput where
  | input (i : Input)
  | transmit
  deriving DecidableEq, Repr

inductive RadioOutput where
  | output (o : Output)
  | aired (len : Word8) (msg : TestDataMsg)
  deriving DecidableEq, Repr

def radioMachine : Machine State RadioInput RadioOutput where
  init := machine.init
  step
    | s, .input i => (machine.step s i).map fun r => (r.1, r.2.map .output)
    | s, .transmit => s.packet.onAir.map fun p => (s, [.aired p.1 p.2])

def takenMsg? : RadioOutput → Option TestDataMsg
  | .output (.handed msg .success) => some msg
  | _ => none

def readMsg? : RadioOutput → Option TestDataMsg
  | .aired _ msg => some msg
  | _ => none

/-- `packet`, from the accepted send to its `sendDone`. -/
def lending : Lending State RadioOutput TestDataMsg where
  content s := s.packet.payload
  fill a s := { s with packet := { s.packet with payload := a } }
  fill_content _ := rfl
  lent s := s.packet.outstanding ≠ 0
  taken? := takenMsg?
  read? := readMsg?

/-- No reading is reported or repeated while the radio has the packet. -/
def Free (s : State) : RadioInput → Prop
  | .input (.event (.resendTimerFired _)) => s.resendCount < resendCnt → s.packet.outstanding = 0
  | .input (.event (.recvTask irqs _)) => ∀ car data,
      CarP.step s.car (.recvTask irqs) = some (car, [.readDone .success data]) →
      s.packet.outstanding = 0
  | _ => True

/-- Nothing is done about the radio. -/
structure Offline (s : State) (r : State × List Output) : Prop where
  packet : r.1.packet = s.packet
  handed : ∀ msg sent, .handed msg sent ∉ r.2

namespace Offline
variable {s : State} {r : State × List Output}

theorem refl (s : State) : Offline s (s, []) := ⟨rfl, by simp⟩

theorem callCar (c : CarP.Command) (irqs : List (List CarP.Rx)) (s : State) :
    Offline s (CarNode.callCar c irqs s) :=
  ⟨rfl, by simp [CarNode.callCar]⟩

theorem quiry (tag : Word8) (irqs : List (List CarP.Rx)) (s : State) :
    Offline s (CarNode.quiry tag irqs s) :=
  ⟨rfl, by simp [CarNode.quiry, CarNode.callCar]⟩

theorem obey (cmd : Word16) (irqs : List (List CarP.Rx)) (s : State) :
    Offline s (CarNode.obey cmd irqs s) := by
  unfold CarNode.obey
  split
  case h_1 | h_2 => exact callCar _ irqs s
  case h_3 | h_4 =>
    split
    · exact refl s
    · exact ⟨rfl, by simp [CarNode.callCar]⟩
  case h_5 => exact ⟨rfl, by simp [CarNode.callCar]⟩
  case h_21 => exact ⟨rfl, by simp⟩
  case h_22 => exact refl s
  all_goals exact quiry _ irqs s

end Offline

/-- Outputs that neither lend the packet nor read it. -/
def Silent (out : List RadioOutput) : Prop :=
  ∀ o ∈ out, takenMsg? o = none ∧ readMsg? o = none

theorem Silent.taken {out : List RadioOutput} (h : Silent out) :
    out.filterMap takenMsg? = [] :=
  List.filterMap_eq_nil_iff.mpr fun o ho => (h o ho).1

theorem silent_of_not_handed {out : List Output} (h : ∀ msg sent, .handed msg sent ∉ out) :
    Silent (out.map .output) := by
  intro o ho
  obtain ⟨o', ho', rfl⟩ := List.mem_map.mp ho
  refine ⟨?_, rfl⟩
  cases o' with
  | handed msg sent => exact absurd ho' (h msg sent)
  | driver o | obeyed msg => rfl

theorem Offline.lends {s : State} {r : State × List Output} (h : Offline s r) :
    lending.Lends s r.1 (r.2.map .output) := by
  have hsilent := silent_of_not_handed h.handed
  refine .quiet ?_ hsilent.taken fun o ho => (hsilent o ho).2
  simp only [lending, h.packet]
  exact id

theorem takenMsg?_failed {sent : ErrorT} (h : sent ≠ .success) (msg : TestDataMsg) :
    takenMsg? (.output (.handed msg sent)) = none := by
  cases sent with
  | success => exact absurd rfl h
  | _ => rfl

theorem sendData_payload (sent : ErrorT) (s : State) :
    (sendData sent s).1.packet.payload = ⟨s.id, s.currentData⟩ := by
  unfold sendData
  dsimp only
  split
  · split <;> rfl
  · rfl

theorem sendData_lends {before : List RadioOutput} (h : Silent before) (sent : ErrorT)
    (s : State) :
    lending.Lends s (sendData sent s).1 (before ++ (sendData sent s).2.map .output) := by
  have hread : ∀ o ∈ before, lending.read? o = none := fun o ho => (h o ho).2
  cases hbusy : s.busyRadio with
  | true =>
    have hout : (sendData sent s).2 = [] := by simp [sendData, hbusy]
    have hpacket : (sendData sent s).1.packet.outstanding = s.packet.outstanding := by
      simp [sendData, hbusy]
    rw [hout, List.map_nil, List.append_nil]
    refine .quiet ?_ h.taken hread
    simp only [lending, hpacket]
    exact id
  | false =>
    have hpair : (sendData sent s).2 = [.handed ⟨s.id, s.currentData⟩ sent] ∧
        (sendData sent s).1.packet =
          { s.packet with payload := TestDataMsg.mk s.id s.currentData }.send
            sizeofTestDataMsg sent := by
      unfold sendData
      cases sent.toBool <;> simp [hbusy]
    rw [hpair.1]
    have hreads : ∀ o ∈ before ++ [RadioOutput.output (.handed ⟨s.id, s.currentData⟩ sent)],
        lending.read? o = none := by
      intro o ho
      rcases List.mem_append.mp ho with hfirst | hlast
      · exact hread o hfirst
      · rw [List.mem_singleton.mp hlast]
        rfl
    by_cases hsent : sent = .success
    · subst hsent
      refine .taken ?_ hreads
      simp only [lending, List.map_cons, List.map_nil, List.filterMap_append, h.taken, hpair.2]
      rfl
    · refine .quiet ?_ ?_ hreads
      · simp only [lending, hpair.2]
        exact lent_send sizeofTestDataMsg hsent
      · simp [lending, h.taken, takenMsg?_failed hsent]

theorem lends_congr {s s' t : State} {out : List RadioOutput} (hpacket : s'.packet = s.packet)
    (h : lending.Lends s' t out) : lending.Lends s t out := by
  cases h with
  | taken htaken hread => exact .taken htaken hread
  | read hlent hread htaken =>
    simp only [lending, hpacket] at hlent hread
    exact .read hlent hread htaken
  | quiet hlent htaken hread =>
    refine .quiet (fun ht => ?_) htaken hread
    have hs' := hlent ht
    simpa only [lending, hpacket] using hs'

/-- The reading that a step makes the node send. -/
inductive Reports (s : State) : Input → State → ErrorT → List Output → Prop
  | again {sent : ErrorT} : s.resendCount < resendCnt →
      Reports s (.event (.resendTimerFired sent)) { s with resendCount := s.resendCount + 1 }
        sent []
  | reading {irqs : List (List CarP.Rx)} {sent : ErrorT} {car : CarP.State} {data : Word16} :
      CarP.step s.car (.recvTask irqs) = some (car, [.readDone .success data]) →
      Reports s (.event (.recvTask irqs sent))
        { s with car := car, currentData := data, resendCount := 0 } sent
        [.driver (.readDone .success data)]

/-- A step sends a reading, ends a send, or is not about the radio. -/
theorem step_cases {s : State} {i : Input} {r : State × List Output}
    (h : machine.step s i = some r) :
    (∃ s' sent before, Reports s i s' sent before ∧
      r = ((sendData sent s').1, before ++ (sendData sent s').2)) ∨
    (∃ packet, i = .event .sendDone ∧ s.packet.done = some packet ∧
      r = ({ s with packet := packet, busyRadio := false }, [])) ∨
    Offline s r := by
  obtain ⟨t, out⟩ := r
  cases step_effect h with
  | ignored hstale => exact .inr (.inr (.refl s))
  | @obeyed len rm irqs hlen hseq =>
    have hobey := Offline.obey rm.cmd irqs { s with seq := rm.seq }
    refine .inr (.inr ⟨hobey.packet, fun msg sent hmem => ?_⟩)
    rcases List.mem_cons.mp hmem with heq | hrest
    · cases heq
    · exact hobey.handed msg sent hrest
  | radioFailed herr => exact .inr (.inr (.refl s))
  | started => exact .inr (.inr ⟨rfl, by simp [carStartDone, callCar]⟩)
  | @resendTimerFired sent htimer =>
    unfold resendTimerFired
    dsimp only
    split
    · next hagain => exact .inl ⟨_, sent, [], .again hagain, rfl⟩
    · exact .inr (.inr ⟨rfl, by simp⟩)
  | @sendDone packet hdone => exact .inr (.inl ⟨packet, rfl, hdone, rfl⟩)
  | granted hcar => exact .inr (.inr ⟨rfl, by simp⟩)
  | rxDone => exact .inr (.inr ⟨rfl, by simp⟩)
  | timer1Fired hcar => exact .inr (.inr ⟨rfl, by simp⟩)
  | @recvTask irqs sent car state data hcar =>
    unfold readDone
    split
    · next hstate =>
      subst hstate
      exact .inl ⟨_, sent, _, .reading hcar, rfl⟩
    · exact .inr (.inr ⟨rfl, by simp⟩)

theorem Reports.packet {s s' : State} {i : Input} {sent : ErrorT} {before : List Output}
    (h : Reports s i s' sent before) : s'.packet = s.packet ∧ Silent (before.map .output) := by
  cases h with
  | again => exact ⟨rfl, by simp [Silent]⟩
  | reading => exact ⟨rfl, by simp [Silent, takenMsg?, readMsg?]⟩

theorem lends {s t : State} {i : RadioInput} {out : List RadioOutput}
    (h : radioMachine.step s i = some (t, out)) : lending.Lends s t out := by
  cases i with
  | transmit =>
    obtain ⟨p, hair, hpair⟩ := Option.map_eq_some_iff.mp h
    obtain ⟨rfl, rfl⟩ := Prod.mk.inj hpair
    obtain ⟨hout, rfl⟩ := MessageBuffer.onAir_eq hair
    exact .read hout rfl rfl
  | input i =>
    obtain ⟨r, hrun, hpair⟩ := Option.map_eq_some_iff.mp h
    obtain ⟨rfl, rfl⟩ := Prod.mk.inj hpair
    obtain ⟨s', sent, before, hreports, rfl⟩ | ⟨packet, -, hdone, rfl⟩ | hoffline := step_cases hrun
    · obtain ⟨hpacket, hsilent⟩ := hreports.packet
      rw [List.map_append]
      exact lends_congr hpacket (sendData_lends hsilent sent s')
    · obtain ⟨hout, -⟩ := MessageBuffer.done_eq hdone
      exact .quiet (fun _ => hout) rfl (by simp)
    · exact hoffline.lends

theorem free_iff {s : State} {i : Input} {r : State × List Output}
    (h : machine.step s i = some r) :
    Free s (.input i) ↔
      ((∃ s' sent before, Reports s i s' sent before) → s.packet.outstanding = 0) := by
  constructor
  · rintro hfree ⟨s', sent, before, hreports⟩
    cases hreports with
    | again hcount => exact hfree hcount
    | reading hcar => exact hfree _ _ hcar
  · intro hquiet
    cases i with
    | frame len rm irqs => trivial
    | event e =>
      cases e with
      | resendTimerFired sent => exact fun hcount => hquiet ⟨_, _, _, .again hcount⟩
      | recvTask irqs sent => exact fun car data hcar => hquiet ⟨_, _, _, .reading hcar⟩
      | _ => trivial

theorem Reports.fill {s s' : State} {i : Input} {sent : ErrorT} {before : List Output}
    (h : Reports s i s' sent before) (a : TestDataMsg) :
    Reports (lending.fill a s) i (lending.fill a s') sent before := by
  cases h with
  | again hcount => exact .again hcount
  | reading hcar => exact .reading hcar

theorem Reports.overwrites {s s' : State} {i : Input} {sent : ErrorT} {before : List Output}
    (h : Reports s i s' sent before) {r : State × List Output} (hrun : machine.step s i = some r)
    (a : TestDataMsg) : ∃ q ∈ radioMachine.step (lending.fill a s) (.input i),
      lending.content q.1 = ⟨s'.id, s'.currentData⟩ := by
  cases h with
  | @again sent hcount =>
    obtain ⟨htimer, -⟩ := Option.ite_none_right_eq_some.mp hrun
    refine ⟨_, congrArg (Option.map _) (if_pos htimer), ?_⟩
    simp only [resendTimerFired, lending, hcount, ↓reduceIte]
    exact sendData_payload sent _
  | @reading irqs sent car data hcar =>
    exact ⟨_, congrArg (Option.map _) (congrArg (Option.map _) hcar), sendData_payload sent _⟩

/-- Exactly the inputs that report a reading write the packet. -/
theorem spares_iff {s t : State} {i : RadioInput} {out : List RadioOutput}
    (h : radioMachine.step s i = some (t, out)) :
    lending.Spares radioMachine s i ↔ Free s i := by
  cases i with
  | transmit =>
    refine iff_of_true (Lending.spares_of_keeps ?_) trivial
    intro a r hr
    obtain ⟨p, -, rfl⟩ := Option.map_eq_some_iff.mp hr
    rfl
  | input i =>
    obtain ⟨r, hrun, -⟩ := Option.map_eq_some_iff.mp h
    rw [free_iff hrun]
    by_cases hreports : ∃ s' sent before, Reports s i s' sent before
    · obtain ⟨s', sent, before, hreport⟩ := hreports
      have hover : lending.Spares radioMachine s (.input i) ↔ ¬ lending.lent s :=
        Lending.spares_iff_of_overwrites (hreport.overwrites hrun)
      rw [hover, forall_prop_of_true ⟨s', sent, before, hreport⟩]
      exact not_not
    · refine iff_of_true (Lending.spares_of_keeps ?_) fun hsome => absurd hsome hreports
      intro a q hq
      obtain ⟨q, hstep, rfl⟩ := Option.map_eq_some_iff.mp hq
      obtain ⟨s', sent, before, hreport, -⟩ | ⟨packet, -, hdone, rfl⟩ | hoffline :=
        step_cases hstep
      · exact absurd ⟨_, _, _, hreport.fill s.packet.payload⟩ hreports
      · obtain ⟨-, rfl⟩ := MessageBuffer.done_eq hdone
        rfl
      · exact congrArg MessageBuffer.payload hoffline.packet

theorem packet_kept : lending.KeptExactlyWhen radioMachine Free :=
  Lending.kept_exactly_when (by simp [radioMachine, machine, booted, lending])
    (fun _ _ _ _ => spares_iff) fun _ _ _ _ => lends

end WsnContest.CarNode

namespace WsnContest.Car
open Tinyos Lib

/-- A program, the buffer it lends and the steps that leave it alone while it is lent. -/
structure Lender where
  State : Type
  Event : Type
  Output : Type
  Message : Type
  machine : Machine State Event Output
  lending : Lending State Output Message
  free : State → Event → Prop

/-- The transmit buffers of the car system. -/
inductive Buffer where
  | pcNodePacket | carPacket | dataPacket | carNodePacket
  deriving DecidableEq, Repr

def Buffer.lender : Buffer → Lender
  | .pcNodePacket => ⟨_, _, _, _, PcNode.machine, PcNode.lending, PcNode.Free⟩
  | .carPacket => ⟨_, _, _, _, Relay.machine, Relay.lending, Relay.Free⟩
  | .dataPacket => ⟨_, _, _, _, Relay.machine, Relay.dataLending, Relay.DataFree⟩
  | .carNodePacket => ⟨_, _, _, _, CarNode.radioMachine, CarNode.lending, CarNode.Free⟩

theorem lender_kept (b : Buffer) :
    b.lender.lending.KeptExactlyWhen b.lender.machine b.lender.free := by
  cases b with
  | pcNodePacket => exact PcNode.packet_kept
  | carPacket => exact Relay.carPacket_kept
  | dataPacket => exact Relay.dataPacket_kept
  | carNodePacket => exact CarNode.packet_kept

/-- In every run no step writes the buffer while the radio has it exactly if no further
message for it comes meanwhile, and then every frame that goes out is the message whose
send was accepted last. -/
theorem buffers_kept (b : Buffer) (es : List b.lender.Event)
    {s : b.lender.State × List b.lender.Output}
    (hrun : b.lender.machine.system.run es = some s) :
    (b.lender.machine.system.AllowedFrom
        (fun s e => b.lender.lending.Spares b.lender.machine s.1 e)
        b.lender.machine.system.init es ↔
      b.lender.machine.system.AllowedFrom (fun s e => b.lender.free s.1 e)
        b.lender.machine.system.init es) ∧
    (b.lender.machine.system.AllowedFrom (fun s e => b.lender.free s.1 e)
        b.lender.machine.system.init es → b.lender.lending.Truthful s.2) :=
  lender_kept b es s hrun

/-- Two commands, the second after the `sendDone` of the first. -/
def unhurried : List PcNode.Event :=
  [.receive sizeofTestCarMsg ⟨1, Cmd.w_.code⟩ .success, .transmit, .sendDone,
    .receive sizeofTestCarMsg ⟨2, Cmd.a_.code⟩ .success, .transmit, .sendDone]

theorem buffers_kept_unhurried :
    ∃ s, PcNode.machine.system.run unhurried = some s ∧ PcNode.lending.Truthful s.2 := by
  have hfree : PcNode.machine.system.AllowedFrom (fun s e => PcNode.Free s.1 e)
      PcNode.machine.system.init unhurried := by decide
  exact ⟨_, rfl, (buffers_kept .pcNodePacket unhurried rfl).2 hfree⟩

/-- The second command, which the radio refuses, goes out in place of the first. -/
theorem second_command_overwrites :
    ∃ s, PcNode.machine.system.run [.receive sizeofTestCarMsg ⟨1, Cmd.w_.code⟩ .success,
        .receive sizeofTestCarMsg ⟨2, Cmd.a_.code⟩ .ebusy, .transmit] = some s ∧
      s.2 = [.handed ⟨1, Cmd.w_.code⟩ .success, .handed ⟨2, Cmd.a_.code⟩ .ebusy,
        .aired sizeofTestCarMsg ⟨2, Cmd.a_.code⟩] ∧
      ¬ PcNode.lending.Truthful s.2 := by
  refine ⟨_, rfl, by decide, fun htruthful => ?_⟩
  have hlast := htruthful [.handed ⟨1, Cmd.w_.code⟩ .success, .handed ⟨2, Cmd.a_.code⟩ .ebusy]
    (.aired sizeofTestCarMsg ⟨2, Cmd.a_.code⟩) [] ⟨2, Cmd.a_.code⟩ rfl rfl
  revert hlast
  decide

end WsnContest.Car
