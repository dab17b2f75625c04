import WsnContest.Gossip.BiDaXiao
import WsnContest.Gossip.MinMax

/-! One node of the gossip, whatever the others send: it hears any frame at any time,
and its runs keep a record of what it heard, learnt, sent and printed. -/
namespace WsnContest.Gossip
open Tinyos Lib

inductive NodeEvent (E : Type) where
  | own (e : E)
  | heard (sent : ErrorT) (msg : Message)
  deriving DecidableEq, Repr

inductive Output where
  /-- A frame of the right length came in. -/
  | heard (rm : TestSendMsg)
  /-- It changed the status of a node that has its number. -/
  | learnt
  | accepted (f : Message)
  | numbered (number : Word16)
  /-- The result, and whether it is printed because the status was stable. -/
  | printed (result : TestSendMsg) (stable : Bool)
  | ticked (status : TestSendMsg)
  deriving DecidableEq, Repr

/-- What a step says of the number of the node. -/
def numbering (s t : State) : List Output :=
  if s.serialReceived = false ∧ t.serialReceived = true then [.numbered t.selfNumber] else []

/-- What a tick says; it looks at the result before it looks at the status. -/
def ticking (stableThd : Word16) (result : Option TestSendMsg) (s : State) : List Output :=
  result.toList.map (.printed · (stableThd ≤ s.statusStableCount)) ++ [.ticked s.status]

/-- What a frame says that came in. -/
def arrival (msg : Message) (s t : State) : List Output :=
  (if msg.length = sizeofTestSendMsg then [.heard msg.payload] else []) ++
    if s.serialReceived = true ∧ t.status ≠ s.status then [.learnt] else []

def hears (p : Settings) (sent : ErrorT) (msg : Message) (s : State) : State × List Output :=
  ((receive p sent msg s).1,
    arrival msg s (receive p sent msg s).1 ++ (receive p sent msg s).2.map .accepted)

end WsnContest.Gossip

namespace WsnContest.BiDaXiao
open Tinyos Gossip Lib

def notes (p : Settings) (s t : State) : Event → List Output
  | .milliTimerFired => ticking statusStableTimeThdSec (milliTimerFired p s).2 s
  | .serialReceive .. => numbering s t
  | .startDone _ | .sendTimerFired _ | .resendTimerFired _ | .sendDone _ => []

def nodeStep (p : Settings) (s : State) : NodeEvent Event → Option (State × List Output)
  | .own e => (handle p e s).map fun r => (r.1, notes p s r.1 e ++ r.2.map .accepted)
  | .heard sent msg => some (hears p sent msg s)

/-- The node with the id `tosNodeId`. -/
def machine (tosNodeId : Word16) : Machine State (NodeEvent Event) Output where
  init := {}
  step := nodeStep (settings tosNodeId)

theorem startDone_eq (err : ErrorT) (s : State) :
    ∃ milliTimer, startDone err s = { s with milliTimer := milliTimer } := by
  unfold startDone
  split
  · exact ⟨_, rfl⟩
  · exact ⟨_, rfl⟩

theorem sendDone_eq (err : ErrorT) (s : State) :
    ∃ resendTimer, sendDone err s = { s with busyRadio := false, resendTimer := resendTimer } := by
  unfold sendDone
  dsimp only
  split
  · exact ⟨_, rfl⟩
  · exact ⟨_, rfl⟩

theorem milliTimerFired_eq (p : Settings) (s : State) :
    ∃ timeCount stableCount resultSent, (milliTimerFired p s).1 =
      { s with
        timeCount := timeCount, statusStableCount := stableCount
        resultSent := resultSent, lastStatus := s.status } := by
  unfold milliTimerFired milliTick
  dsimp only
  split
  · split <;> exact ⟨_, _, _, rfl⟩
  · split <;> exact ⟨_, _, _, rfl⟩

/-- What an event leads to, and when it can come. -/
inductive Effect (p : Settings) (s : State) : NodeEvent Event → State → List Output → Prop
  | startDone (err : ErrorT) : Effect p s (.own (.startDone err)) (startDone err s) []
  | ticked : s.milliTimer = true →
      Effect p s (.own .milliTimerFired) (milliTimerFired p s).1
        (ticking statusStableTimeThdSec (milliTimerFired p s).2 s)
  | sendTimerFired (sent : ErrorT) : s.sendTimer.isSome →
      Effect p s (.own (.sendTimerFired sent)) (sendStatus p sent { s with sendTimer := none }).1
        ((sendStatus p sent { s with sendTimer := none }).2.map .accepted)
  | resendTimerFired (sent : ErrorT) : s.resendTimer = true →
      Effect p s (.own (.resendTimerFired sent))
        (sendStatus p sent { s with resendTimer := false }).1
        ((sendStatus p sent { s with resendTimer := false }).2.map .accepted)
  | sendDone (err : ErrorT) : s.outstanding ≠ 0 →
      Effect p s (.own (.sendDone err))
        (sendDone err { s with outstanding := s.outstanding - 1 }) []
  | numbered (rcm : TestSerialMsg) : s.serialReceived = false →
      Effect p s (.own (.serialReceive sizeofTestSerialMsg rcm)) (numbered p rcm s)
        [.numbered rcm.number]
  | ignored (len : Word8) (rcm : TestSerialMsg) :
      ¬ (len = sizeofTestSerialMsg ∧ s.serialReceived = false) →
      Effect p s (.own (.serialReceive len rcm)) s []
  | heard (sent : ErrorT) (msg : Message) :
      Effect p s (.heard sent msg) (hears p sent msg s).1 (hears p sent msg s).2

theorem nodeStep_effect {p : Settings} {s t : State} {e : NodeEvent Event} {out : List Output}
    (h : nodeStep p s e = some (t, out)) : Effect p s e t out := by
  cases e with
  | heard sent msg =>
    obtain ⟨rfl, rfl⟩ := Prod.mk.inj (Option.some.inj h)
    exact .heard sent msg
  | own e =>
    obtain ⟨⟨u, fs⟩, hhandle, hpair⟩ := Option.map_eq_some_iff.mp h
    obtain ⟨rfl, rfl⟩ := Prod.mk.inj hpair
    cases e with
    | startDone err =>
      obtain ⟨rfl, rfl⟩ := Prod.mk.inj (Option.some.inj hhandle)
      exact .startDone err
    | milliTimerFired =>
      obtain ⟨htimer, hrun⟩ := Option.ite_none_right_eq_some.mp hhandle
      obtain ⟨rfl, rfl⟩ := Prod.mk.inj (Option.some.inj hrun)
      simpa [notes] using Effect.ticked htimer
    | sendTimerFired sent =>
      obtain ⟨htimer, hrun⟩ := Option.ite_none_right_eq_some.mp hhandle
      have heffect := Effect.sendTimerFired (p := p) sent htimer
      rwa [show sendStatus p sent _ = (u, fs) from Option.some.inj hrun] at heffect
    | resendTimerFired sent =>
      obtain ⟨htimer, hrun⟩ := Option.ite_none_right_eq_some.mp hhandle
      have heffect := Effect.resendTimerFired (p := p) sent htimer
      rwa [show sendStatus p sent _ = (u, fs) from Option.some.inj hrun] at heffect
    | sendDone err =>
      obtain ⟨hout, hrun⟩ := Option.ite_none_right_eq_some.mp hhandle
      obtain ⟨rfl, rfl⟩ := Prod.mk.inj (Option.some.inj hrun)
      exact .sendDone err hout
    | serialReceive len rcm =>
      obtain ⟨rfl, rfl⟩ := Prod.mk.inj (Option.some.inj hhandle)
      rw [notes, serialReceive_eq]
      split
      · next hfirst =>
        obtain ⟨rfl, hserial⟩ := hfirst
        simpa [numbering, BiDaXiao.numbered, hserial] using Effect.numbered (p := p) rcm hserial
      · next hlater => simpa [numbering] using Effect.ignored (p := p) len rcm hlater

end WsnContest.BiDaXiao

namespace WsnContest.MinMax
open Tinyos Gossip Lib

def notes (p : Settings) (s t : State) : Event → List Output
  | .milliTimerFired => ticking statusStableTimeThdSec (milliTimerFired p s).2 s
  | .startDone .. | .serialReceive .. => numbering s t
  | .resendTimerFired _ | .sendDone _ => []

/-- The radio starts once, and hears nothing before. -/
def nodeStep (sim : Bool) (p : Settings) (s : State) :
    NodeEvent Event → Option (State × List Output)
  | .own (.startDone err sent) =>
    if s.milliTimer = false then
      (handle sim p (.startDone err sent) s).map fun r =>
        (r.1, notes p s r.1 (.startDone err sent) ++ r.2.map .accepted)
    else none
  | .own e => (handle sim p e s).map fun r => (r.1, notes p s r.1 e ++ r.2.map .accepted)
  | .heard sent msg => if s.milliTimer = true then some (hears p sent msg s) else none

/-- The node with the id `tosNodeId`. -/
def machine (sim : Bool) (tosNodeId : Word16) : Machine State (NodeEvent Event) Output where
  init := {}
  step := nodeStep sim (settings sim tosNodeId)

end WsnContest.MinMax
