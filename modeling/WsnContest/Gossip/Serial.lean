import WsnContest.Lib.System
import WsnContest.Gossip.MinMax
import WsnContest.Gossip.BiDaXiao

/-! The serial line of the two gossip programs. What `SerialReceive.receive` hands back is
the buffer that the driver fills next, and a frame of the right length that comes after the
node has its number gets nothing back: there the handler ends without a `return`. -/
namespace WsnContest.Gossip
open Tinyos Lib

/-- A frame that the driver hands over in `bufPtr`; `sent` answers the `AMSend.send` that
the handler of `min_max` may call. -/
structure SerialFrame (Buf : Type) where
  bufPtr : Buf
  len : Word8
  rcm : TestSerialMsg
  sent : ErrorT
  deriving DecidableEq, Repr

/-- The value of `SerialReceive.receive`, the same in both programs; `none` where it runs
off its end. -/
def serialReturn {Buf : Type} (bufPtr : Buf) (len : Word8) (s : State) : Option Buf :=
  if len ≠ sizeofTestSerialMsg then some bufPtr
  else if !s.serialReceived then some bufPtr
  else none

/-- A call of `SerialReceive.receive`, with the node's variables around it. -/
structure SerialCall (Buf : Type) where
  frame : SerialFrame Buf
  returned : Option Buf
  before : State
  after : State
  deriving DecidableEq, Repr

/-- A program as its serial line sees it: what a frame does to the node, and what else
happens there. A number is taken once, and nothing takes it back. -/
structure SerialLine (Own : Type) where
  receive : Word8 → TestSerialMsg → ErrorT → State → State
  own : Own → State → Option State
  idle : ∀ {len : Word8} (rcm : TestSerialMsg) (sent : ErrorT) {s : State},
    len ≠ sizeofTestSerialMsg ∨ s.serialReceived = true → receive len rcm sent s = s
  assigned : ∀ (rcm : TestSerialMsg) (sent : ErrorT) (s : State),
    (receive sizeofTestSerialMsg rcm sent s).serialReceived = true
  kept : ∀ {e : Own} {s s' : State}, own e s = some s' → s.serialReceived = true →
    s'.serialReceived = true

/-- What reaches the node: a serial frame, or an event of its own. -/
inductive SerialEvent (Buf Own : Type) where
  | serial (frame : SerialFrame Buf)
  | own (e : Own)
  deriving DecidableEq, Repr

namespace SerialLine
variable {Buf Own : Type} (line : SerialLine Own)

/-- The call that a frame causes. -/
def call (frame : SerialFrame Buf) (s : State) : SerialCall Buf where
  frame := frame
  returned := serialReturn frame.bufPtr frame.len s
  before := s
  after := line.receive frame.len frame.rcm frame.sent s

/-- The node with the calls of its handler. -/
def machine (Buf : Type) : Machine State (SerialEvent Buf Own) (SerialCall Buf) where
  init := {}
  step := fun s e =>
    match e with
    | .serial frame => some ((line.call frame s).after, [line.call frame s])
    | .own e => (line.own e s).map fun s' => (s', [])

end SerialLine

/-- The frame has the length that the handler wants. -/
def SerialFrame.fits {Buf : Type} (frame : SerialFrame Buf) : Prop :=
  frame.len = sizeofTestSerialMsg

/-- Every call has handed back the buffer it was given. -/
def Returned {Buf : Type} (log : List (SerialCall Buf)) : Prop :=
  ∀ c ∈ log, c.returned = some c.frame.bufPtr

/-- Only the first frame that fits has changed the node. -/
def SingleShot {Buf : Type} (log : List (SerialCall Buf)) : Prop :=
  InOrder (fun pre c => c.after ≠ c.before → c.frame.fits ∧ ∀ d ∈ pre, ¬ d.frame.fits) log

/-- No frame that fits arrives at a node that has its number. -/
def Unassigned {Buf Own : Type} (s : State × List (SerialCall Buf)) (e : SerialEvent Buf Own) :
    Prop :=
  ∀ frame, e = .serial frame → frame.fits → s.1.serialReceived = false

theorem serialReturn_eq_some {Buf : Type} {bufPtr : Buf} {len : Word8} {s : State} :
    serialReturn bufPtr len s = some bufPtr ↔
      (len = sizeofTestSerialMsg → s.serialReceived = false) := by
  unfold serialReturn
  by_cases hlen : len = sizeofTestSerialMsg <;> cases s.serialReceived <;> simp [hlen]

theorem returned_append {Buf : Type} {log : List (SerialCall Buf)} {c : SerialCall Buf} :
    Returned (log ++ [c]) ↔ Returned log ∧ c.returned = some c.frame.bufPtr := by
  simp only [Returned, List.forall_mem_append, List.forall_mem_singleton]

namespace SerialLine
variable {Buf Own : Type} {line : SerialLine Own}

/-- What holds of a node and of the calls it has answered, whatever came. -/
structure Once (s : State × List (SerialCall Buf)) : Prop where
  assigned : ∀ c ∈ s.2, c.frame.fits → s.1.serialReceived = true
  single : SingleShot s.2

theorem once_nil (s : State) : Once ((s, []) : State × List (SerialCall Buf)) :=
  ⟨by simp, inOrder_nil⟩

/-- A call is one more of which only the first that fits has changed the node. -/
theorem Once.call {s : State × List (SerialCall Buf)} (h : Once s) (frame : SerialFrame Buf) :
    Once ((line.call frame s.1).after, s.2 ++ [line.call frame s.1]) := by
  have hidle : ¬ frame.fits ∨ s.1.serialReceived = true → (line.call frame s.1).after = s.1 :=
    line.idle frame.rcm frame.sent
  constructor
  · intro c hc hfits
    rcases List.mem_append.mp hc with hold | hnew
    · have hserial := h.assigned c hold hfits
      rw [hidle (.inr hserial)]
      exact hserial
    · cases List.mem_singleton.mp hnew
      change (line.receive frame.len frame.rcm frame.sent s.1).serialReceived = true
      rw [show frame.len = sizeofTestSerialMsg from hfits]
      exact line.assigned frame.rcm frame.sent s.1
  · refine h.single.append_one fun hchanged => ⟨?_, fun d hd hfits => ?_⟩
    · by_contra hfits
      exact hchanged (hidle (.inl hfits))
    · exact hchanged (hidle (.inr (h.assigned d hd hfits)))

/-- What else happens at the node is no call. -/
theorem Once.own {s : State × List (SerialCall Buf)} (h : Once s) {e : Own} {s' : State}
    (he : line.own e s.1 = some s') : Once (s', s.2) :=
  ⟨fun c hc hfits => line.kept he (h.assigned c hc hfits), h.single⟩

theorem machine_step_cases {e : SerialEvent Buf Own} {s t : State} {out : List (SerialCall Buf)}
    (h : (line.machine Buf).step s e = some (t, out)) :
    (∃ frame, e = .serial frame ∧ t = (line.call frame s).after ∧ out = [line.call frame s]) ∨
      (∃ o, e = .own o ∧ line.own o s = some t ∧ out = []) := by
  cases e with
  | serial frame =>
    cases h
    exact .inl ⟨frame, rfl, rfl, rfl⟩
  | own o =>
    obtain ⟨s', ho, hpair⟩ := Option.map_eq_some_iff.mp h
    cases hpair
    exact .inr ⟨o, rfl, ho, rfl⟩

theorem Once.step {e : SerialEvent Buf Own} {s : State × List (SerialCall Buf)} {t : State}
    {out : List (SerialCall Buf)} (h : Once s)
    (hstep : (line.machine Buf).step s.1 e = some (t, out)) : Once (t, s.2 ++ out) := by
  rcases machine_step_cases hstep with ⟨frame, rfl, rfl, rfl⟩ | ⟨o, rfl, ho, rfl⟩
  · exact h.call frame
  · rw [List.append_nil]
    exact h.own ho

/-- Whatever comes, from whatever state, the number is taken from the first frame that
fits or not at all. -/
theorem single_shot {s : State} {t : State × List (SerialCall Buf)}
    {es : List (SerialEvent Buf Own)}
    (h : (line.machine Buf).system.runFrom (s, []) es = some t) : SingleShot t.2 := by
  have honce : Once t := Machine.runFrom_invariant es (P := Once)
    (fun _ _ _ _ _ hs hstep => hs.step hstep) (once_nil s) h
  exact honce.single

/-- The buffers come back for exactly as long as no frame that fits comes to a node that
has its number. -/
theorem safe_iff {s : State} {t : State × List (SerialCall Buf)}
    {es : List (SerialEvent Buf Own)}
    (h : (line.machine Buf).system.runFrom (s, []) es = some t) :
    (line.machine Buf).system.Always (fun u => Returned u.2 ∧ SingleShot u.2) (s, []) es ↔
      (line.machine Buf).system.AllowedFrom Unassigned (s, []) es := by
  apply Machine.always_iff_allowedFrom (fun u => Returned u.2 ∧ Once u)
    (fun u hu => ⟨hu.1, hu.2.single⟩) ?_ es ⟨by simp [Returned], once_nil s⟩ h
  rintro u e v out ⟨hreturned, honce⟩ hstep
  have hnext := honce.step hstep
  rcases machine_step_cases hstep with ⟨frame, rfl, rfl, rfl⟩ | ⟨o, rfl, ho, rfl⟩
  · have hcall : (line.call frame u.1).returned = some frame.bufPtr ↔
        (frame.fits → u.1.serialReceived = false) := serialReturn_eq_some
    constructor
    · intro hallowed
      exact ⟨returned_append.mpr ⟨hreturned, hcall.mpr (hallowed frame rfl)⟩, hnext⟩
    · rintro ⟨hall, -⟩ frame' hframe
      cases hframe
      exact hcall.mp (returned_append.mp hall).2
  · constructor
    · intro _
      exact ⟨by simpa using hreturned, hnext⟩
    · rintro - frame hframe
      cases hframe

end SerialLine

/-- What happens at a node besides its serial frames. -/
inductive Own (Event : Type) where
  | event (e : Event)
  | heard (sent : ErrorT) (msg : Message)
  deriving DecidableEq, Repr

section Own
variable {Event : Type} {handle : Event → State → Option (State × List Message)}
  {isSerial : Event → Bool} {p : Settings}

/-- One of them, as the program handles it. -/
def ownStep (handle : Event → State → Option (State × List Message)) (isSerial : Event → Bool)
    (p : Settings) (e : Own Event) (s : State) : Option State :=
  match e with
  | .event e => if isSerial e then none else (handle e s).map Prod.fst
  | .heard sent msg => some (receive p sent msg s).1

theorem ownStep_kept
    (hkept : ∀ {e : Event} {s s' : State} {fs : List Message}, handle e s = some (s', fs) →
      s.serialReceived = true → s'.serialReceived = true)
    {e : Own Event} {s s' : State} (h : ownStep handle isSerial p e s = some s')
    (hserial : s.serialReceived = true) : s'.serialReceived = true := by
  cases e with
  | event e =>
    simp only [ownStep, Option.ite_none_left_eq_some, Option.map_eq_some_iff] at h
    obtain ⟨-, ⟨t, fs⟩, hhandle, rfl⟩ := h
    exact hkept hhandle hserial
  | heard sent msg =>
    cases h
    rwa [receive_serialReceived]

end Own
end WsnContest.Gossip

namespace WsnContest.MinMax
open Tinyos Gossip

theorem handle_kept {sim : Bool} {p : Settings} {e : Event} {s s' : State} {fs : List Message}
    (h : handle sim p e s = some (s', fs)) (hserial : s.serialReceived = true) :
    s'.serialReceived = true := by
  rcases handle_cases h with ⟨sent, -, ⟨-, rfl, -⟩ | ⟨-, rfl, -⟩⟩ | ⟨rcm, sent, -, -, rfl, -⟩ |
    ⟨sent, -, -, rfl, -⟩ | ⟨-, hmoved⟩
  · simp [started, hserial]
  · simp [started, hserial]
  · simp [numbered]
  · simpa using hserial
  · rwa [hmoved.serialReceived]

def Event.isSerial : Event → Bool
  | .serialReceive .. => true
  | .startDone .. | .milliTimerFired | .resendTimerFired _ | .sendDone _ => false

/-- The serial line of `min_max`. -/
def serialLine (sim : Bool) (tosNodeId : Word16) : SerialLine (Own Event) where
  receive len rcm sent s := (serialReceive (settings sim tosNodeId) len rcm sent s).1
  own := ownStep (handle sim (settings sim tosNodeId)) Event.isSerial (settings sim tosNodeId)
  idle := by
    intro len rcm sent s h
    rw [serialReceive_eq, if_neg (by simpa [← not_and_or, imp_iff_not_or] using h)]
  assigned := by
    intro rcm sent s
    rw [serialReceive_eq]
    split
    · simp [numbered]
    · next hnot => simpa using hnot
  kept := ownStep_kept handle_kept

end WsnContest.MinMax

namespace WsnContest.BiDaXiao
open Tinyos Gossip

theorem handle_kept {p : Settings} {e : Event} {s s' : State} {fs : List Message}
    (h : handle p e s = some (s', fs)) (hserial : s.serialReceived = true) :
    s'.serialReceived = true := by
  rcases handle_cases h with ⟨rcm, -, -, rfl, -⟩ | ⟨sent, t, -, hfired, rfl, -⟩ | ⟨-, hmoved⟩
  · rfl
  · rwa [sendStatus_serialReceived, hfired.serialReceived]
  · rwa [hmoved.serialReceived]

def Event.isSerial : Event → Bool
  | .serialReceive .. => true
  | .startDone _ | .milliTimerFired | .sendTimerFired _ | .resendTimerFired _ | .sendDone _ => false

/-- The serial line of `BiDaXiao`, whose handler sends nothing. -/
def serialLine (tosNodeId : Word16) : SerialLine (Own Event) where
  receive len rcm _ s := serialReceive (settings tosNodeId) len rcm s
  own := ownStep (handle (settings tosNodeId)) Event.isSerial (settings tosNodeId)
  idle := by
    intro len rcm _ s h
    rw [serialReceive_eq, if_neg (by simpa [← not_and_or, imp_iff_not_or] using h)]
  assigned := by
    intro rcm _ s
    rw [serialReceive_eq]
    split
    · rfl
    · next hnot => simpa using hnot
  kept := ownStep_kept handle_kept

end WsnContest.BiDaXiao

namespace WsnContest.Gossip
open Tinyos Lib

/-- The two programs; `min_max` is built with `SIM` or without. -/
inductive Program where
  | minMax (sim : Bool)
  | biDaXiao
  deriving DecidableEq, Repr

abbrev Program.Event : Program → Type
  | .minMax _ => MinMax.Event
  | .biDaXiao => BiDaXiao.Event

def Program.serialLine (program : Program) (tosNodeId : Word16) :
    SerialLine (Own program.Event) :=
  match program with
  | .minMax sim => MinMax.serialLine sim tosNodeId
  | .biDaXiao => BiDaXiao.serialLine tosNodeId

/-- A node of the program with the calls of its `SerialReceive.receive`. -/
def Program.serial (program : Program) (tosNodeId : Word16) (Buf : Type) :
    System (State × List (SerialCall Buf)) (SerialEvent Buf (Own program.Event)) :=
  ((program.serialLine tosNodeId).machine Buf).system

/-- In every run from every state, the driver gets its buffers back and the number is
assigned once, if and only if no frame that fits comes to a node that has its number; and
however it goes on, the number is assigned once. -/
theorem serial_returned_iff {Buf : Type} (program : Program) (tosNodeId : Word16) (s : State)
    (es : List (SerialEvent Buf (Own program.Event))) (t : State × List (SerialCall Buf))
    (hrun : (program.serial tosNodeId Buf).runFrom (s, []) es = some t) :
    ((program.serial tosNodeId Buf).Always (fun u => Returned u.2 ∧ SingleShot u.2) (s, []) es ↔
        (program.serial tosNodeId Buf).AllowedFrom Unassigned (s, []) es) ∧ SingleShot t.2 :=
  ⟨SerialLine.safe_iff hrun, SerialLine.single_shot hrun⟩

/-- The first number of a node. -/
theorem serial_returned_iff_first :
    (Program.biDaXiao.serial 3 ℕ).Always (fun u => Returned u.2 ∧ SingleShot u.2) ({}, [])
      [.serial ⟨0, sizeofTestSerialMsg, ⟨3, 7⟩, .fail⟩] :=
  (serial_returned_iff .biDaXiao 3 {} _ _ rfl).1.mpr ⟨fun _ _ _ => rfl, fun _ _ => trivial⟩

/-- The PC sends the number again. -/
theorem serial_not_returned :
    (∃ t, (Program.biDaXiao.serial 3 ℕ).runFrom ({}, [])
        [.serial ⟨0, sizeofTestSerialMsg, ⟨3, 7⟩, .fail⟩,
          .serial ⟨0, sizeofTestSerialMsg, ⟨3, 7⟩, .fail⟩] = some t ∧ ¬ Returned t.2) ∧
      ∃ t, ((Program.minMax false).serial 3 ℕ).runFrom ({}, [])
        [.serial ⟨0, sizeofTestSerialMsg, ⟨3, 7⟩, .fail⟩,
          .serial ⟨0, sizeofTestSerialMsg, ⟨3, 7⟩, .fail⟩] = some t ∧ ¬ Returned t.2 := by
  refine ⟨⟨_, rfl, fun h => ?_⟩, ⟨_, rfl, fun h => ?_⟩⟩
  · exact absurd (h _ (List.mem_cons_of_mem _ (List.mem_singleton_self _))) (by decide)
  · exact absurd (h _ (List.mem_cons_of_mem _ (List.mem_singleton_self _))) (by decide)

end WsnContest.Gossip
