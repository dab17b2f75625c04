import WsnContest.Routing.Network

/-! The one `packet` of a routing node. Three senders share it and one flag; every
handler writes its message before it looks at the flag, a broadcast data frame makes
a node write two messages in a row, and the relay of a beacon never sets the flag.
What goes out is what was sent as long as none of this meets a send that is out. The radio
reads the packet whole and between two handlers. -/
namespace WsnContest.Routing
open Tinyos Lib

/-- `packet` and the accepted sends that still owe their `sendDone`. -/
structure Buffer where
  packet : Packet
  pending : List AmId

def State.buffer (s : State) : Buffer := ⟨s.packet, s.pending⟩

/-- A message is written over `packet`, and sent if the handler finds the way free. -/
structure Attempt where
  msg : Msg
  addr : Word16
  free : Bool
  sent : ErrorT

namespace Attempt

def accepted (a : Attempt) : Bool := a.free && decide (a.sent = .success)

def apply (a : Attempt) (b : Buffer) : Buffer :=
  let packet := { b.packet with data := a.msg.bytes ++ b.packet.data.drop a.msg.size.val }
  if a.free then
    { packet := { packet with
        type := a.msg.am
        destination := a.addr
        length := if a.sent = .ebusy then packet.length else a.msg.size }
      pending := if a.sent = .success then a.msg.am :: b.pending else b.pending }
  else { b with packet := packet }

def frame? (tos : Word16) (a : Attempt) : Option Frame :=
  if a.accepted then some (airedBy tos a.addr a.msg) else none

end Attempt

def applyAll (as : List Attempt) (b : Buffer) : Buffer := as.foldl (fun b a => a.apply b) b

/-- Nothing is written while a send is out. -/
def Disciplined : List Attempt → Buffer → Prop
  | [], _ => True
  | a :: as, b => b.pending = [] ∧ Disciplined as (a.apply b)

/-- The radio finds this message if it reads the packet now. -/
structure Holds (b : Buffer) (m : Msg) : Prop where
  type : b.packet.type = m.am
  length : b.packet.length = m.size
  data : b.packet.data.take m.size.val = m.bytes

section Attempts
variable {a : Attempt} {b : Buffer}

theorem Attempt.apply_pending :
    (a.apply b).pending = if a.accepted then a.msg.am :: b.pending else b.pending := by
  unfold apply accepted
  cases a.free with
  | false => simp
  | true =>
    by_cases hsent : a.sent = .success
    · simp [hsent]
    · simp [hsent]

theorem Attempt.apply_holds (h : a.accepted = true) : Holds (a.apply b) a.msg := by
  obtain ⟨hfree, hsent⟩ : a.free = true ∧ a.sent = .success := by simpa [accepted] using h
  have hbytes : (a.msg.bytes ++ b.packet.data.drop a.msg.size.val).take a.msg.size.val =
      a.msg.bytes := by
    rw [← a.msg.length_bytes]
    exact List.take_left
  unfold apply
  rw [if_pos hfree]
  exact ⟨rfl, by simp [hsent], hbytes⟩

@[simp] theorem applyAll_nil : applyAll [] b = b := rfl

@[simp] theorem applyAll_cons (as : List Attempt) :
    applyAll (a :: as) b = applyAll as (a.apply b) := rfl

theorem applyAll_append (as bs : List Attempt) :
    applyAll (as ++ bs) b = applyAll bs (applyAll as b) := by
  simp [applyAll, List.foldl_append]

theorem disciplined_append (as bs : List Attempt) :
    Disciplined (as ++ bs) b ↔ Disciplined as b ∧ Disciplined bs (applyAll as b) := by
  induction as generalizing b with
  | nil => simp [Disciplined]
  | cons a as ih => simp only [List.cons_append, Disciplined, applyAll_cons, ih, and_assoc]

/-- The frames of the accepted sends are the sends that are out. -/
theorem pending_applyAll (tos : Word16) (as : List Attempt) :
    (applyAll as b).pending =
      ((as.filterMap (Attempt.frame? tos)).map fun f => f.payload.am).reverse ++ b.pending := by
  induction as generalizing b with
  | nil => rfl
  | cons a as ih =>
    rw [applyAll_cons, ih, Attempt.apply_pending]
    cases haccepted : a.accepted with
    | false => simp [Attempt.frame?, haccepted]
    | true => simp [Attempt.frame?, haccepted, airedBy]

theorem length_pending_applyAll (as : List Attempt) (hb : b.pending.length ≤ 1)
    (h : Disciplined as b) : (applyAll as b).pending.length ≤ 1 := by
  induction as generalizing b with
  | nil => exact hb
  | cons a as ih =>
    obtain ⟨hnone, hrest⟩ := h
    refine ih ?_ hrest
    rw [Attempt.apply_pending, hnone]
    split <;> simp

/-- While a send is out, the packet holds the message of the last frame sent. -/
def Held (b : Buffer) (frames : List Frame) : Prop :=
  b.pending ≠ [] → ∃ f, frames.getLast? = some f ∧ Holds b f.payload

theorem held_applyAll (tos : Word16) (as : List Attempt) {frames : List Frame}
    (hb : Held b frames) (h : Disciplined as b) :
    Held (applyAll as b) (frames ++ as.filterMap (Attempt.frame? tos)) := by
  induction as generalizing b frames with
  | nil => simpa using hb
  | cons a as ih =>
    obtain ⟨hnone, hrest⟩ := h
    have hnext : Held (a.apply b) (frames ++ (a.frame? tos).toList) := by
      intro hout
      rw [Attempt.apply_pending, hnone] at hout
      cases haccepted : a.accepted with
      | false => simp [haccepted] at hout
      | true =>
        refine ⟨airedBy tos a.addr a.msg, ?_, Attempt.apply_holds haccepted⟩
        simp [Attempt.frame?, haccepted]
    have hall := ih hnext hrest
    rw [List.append_assoc] at hall
    cases hframe : a.frame? tos with
    | none =>
      rw [List.filterMap_cons_none hframe]
      simpa [hframe] using hall
    | some f =>
      rw [List.filterMap_cons_some hframe]
      simpa [hframe] using hall

end Attempts

/-- A handler does to the packet what these attempts do; if it `marks`, it sets `busy`
when one of them is accepted. -/
structure Handles (tos : Word16) (marks : Bool) (s : State) (as : List Attempt)
    (r : State × List Frame) : Prop where
  buffer : r.1.buffer = applyAll as s.buffer
  frames : r.2 = as.filterMap (Attempt.frame? tos)
  busy : r.1.busy = (s.busy || (marks && !r.2.isEmpty))

section Handlers
variable {tos : Word16} {marks : Bool} {s : State}

theorem Handles.none {r : State × List Frame} (hbuffer : r.1.buffer = s.buffer)
    (hbusy : r.1.busy = s.busy) (hframes : r.2 = []) : Handles tos marks s [] r :=
  ⟨hbuffer, hframes, by simp [hbusy, hframes]⟩

theorem Handles.congr {t : State} {as : List Attempt} {r : State × List Frame}
    (h : Handles tos marks t as r) (hbuffer : t.buffer = s.buffer) (hbusy : t.busy = s.busy) :
    Handles tos marks s as r :=
  ⟨hbuffer ▸ h.buffer, h.frames, hbusy ▸ h.busy⟩

theorem Handles.append {as bs : List Attempt} {r q : State × List Frame}
    (h : Handles tos true s as r) (h' : Handles tos true r.1 bs q) :
    Handles tos true s (as ++ bs) (q.1, r.2 ++ q.2) := by
  refine ⟨?_, ?_, ?_⟩
  · rw [applyAll_append, ← h.buffer]
    exact h'.buffer
  · rw [List.filterMap_append, ← h.frames, ← h'.frames]
  · rw [h'.busy, h.busy]
    cases r.2 <;> cases q.2 <;> simp

/-- The shape of every handler that sends: write, look, send, set the flag. -/
theorem handles_attempt (m : Msg) (addr : Word16) (sent : ErrorT) (free : Bool)
    (mark : State → State) (hbuffer : ∀ t, (mark t).buffer = t.buffer)
    (hbusy : ∀ t, (mark t).busy = (t.busy || marks)) :
    Handles tos marks s [⟨m, addr, free, sent⟩]
      (if free then
        if sent = .success then
          (mark ((s.fill m).amSend m addr sent), [airedBy tos addr m])
        else ((s.fill m).amSend m addr sent, [])
      else (s.fill m, [])) := by
  cases free with
  | false => exact ⟨rfl, rfl, by simp⟩
  | true =>
    simp only [if_true]
    split
    · next hsent =>
      subst hsent
      refine ⟨hbuffer _, rfl, ?_⟩
      rw [hbusy]
      simp [State.amSend]
    · next hsent =>
      refine ⟨rfl, ?_, ?_⟩
      · simp [Attempt.frame?, Attempt.accepted, hsent]
      · simp [State.amSend]

end Handlers

/-- The attempts of `AMDataReceive.receive` at a broadcast. -/
def announceAttempts (tos : Word16) (sent : ErrorT) (s : State) : List Attempt :=
  [⟨.control ⟨tos, s.curMetric⟩, broadcastAddr, !s.busy && !s.locked, sent⟩]

/-- Its attempts at every well-formed data frame. -/
def forwardAttempts (tos destination : Word16) (bm : BeaconMsg) (sent : ErrorT) (s : State) :
    List Attempt :=
  [⟨.beacon bm, s.curNexthopNodeId, !s.busy && (isSP tos s || s.type == .nor) &&
    (destination == tos || destination == broadcastAddr), sent⟩]

def spreadAttempts (tos destination : Word16) (len : Word8) (bm : BeaconMsg) (ans : Answers)
    (s : State) : List Attempt :=
  if len = sizeofBeaconMsg then
    if destination = broadcastAddr then
      announceAttempts tos ans.controlSent s ++
        forwardAttempts tos destination bm ans.dataSent (announce tos ans.controlSent s).1
    else forwardAttempts tos destination bm ans.dataSent s
  else []

def controlAttempts (len : Word8) (cm : ControlMsg) (ans : Answers) (s : State) : List Attempt :=
  if len = sizeofControlMsg ∧ s.type = .psp then
    [⟨.control ⟨cm.nodeid, cm.metric⟩, broadcastAddr, !s.busy, ans.controlSent⟩]
  else []

def hearAttempts (tos : Word16) (ans : Answers) (f : Frame) (s : State) : List Attempt :=
  if s.radio = .on ∧ (f.destination = tos ∨ f.destination = broadcastAddr) then
    match f.payload with
    | .beacon bm => spreadAttempts tos f.destination f.length bm ans s
    | .control cm => controlAttempts f.length cm ans s
    | .route _ => []
  else []

section Handlers
variable (tos : Word16) (s : State)

@[simp] theorem buffer_mark (i : Word16) : (s.mark i).buffer = s.buffer := by
  obtain ⟨isPSP, strays, heq⟩ := mark_eq s i
  rw [heq]
  rfl

theorem announce_handles (sent : ErrorT) :
    Handles tos true s (announceAttempts tos sent s) (announce tos sent s) := by
  have hbuffer : ({ s with type := .psp }.mark tos).buffer = s.buffer := buffer_mark ..
  have hbusy : ({ s with type := .psp }.mark tos).busy = s.busy := busy_mark ..
  have hlocked : ({ s with type := .psp }.mark tos).locked = s.locked := locked_mark ..
  have hmetric : ({ s with type := .psp }.mark tos).curMetric = s.curMetric := curMetric_mark ..
  refine Handles.congr ?_ hbuffer hbusy
  unfold announce announceAttempts
  generalize { s with type := NodeType.psp }.mark tos = t at hbuffer hbusy hlocked hmetric ⊢
  rw [← hmetric, ← hbusy, ← hlocked]
  exact handles_attempt (.control ⟨tos, t.curMetric⟩) broadcastAddr sent (!t.busy && !t.locked)
    (fun t => { t with locked := true, busy := true }) (fun _ => rfl) (by simp)

theorem forward_handles (destination : Word16) (bm : BeaconMsg) (sent : ErrorT) :
    Handles tos true s (forwardAttempts tos destination bm sent s)
      (forward tos destination bm sent s) :=
  handles_attempt (.beacon bm) s.curNexthopNodeId sent _ (fun t => { t with busy := true })
    (fun _ => rfl) (by simp)

theorem spread_handles (destination : Word16) (len : Word8) (bm : BeaconMsg) (ans : Answers) :
    Handles tos true s (spreadAttempts tos destination len bm ans s)
      (spread tos destination len bm ans s) := by
  unfold spread spreadAttempts
  split
  · split
    · exact (announce_handles tos s ans.controlSent).append (forward_handles tos _ _ _ _)
    · exact forward_handles tos s destination bm ans.dataSent
  · exact .none rfl rfl rfl

theorem dataReceive_handles (source destination : Word16) (len : Word8) (bm : BeaconMsg)
    (ans : Answers) :
    Handles tos true s (spreadAttempts tos destination len bm ans s)
      (dataReceive tos source destination len bm ans s) := by
  have hspread := spread_handles tos s destination len bm ans
  have hreport : ∀ t : State, (report tos source destination bm t).buffer = t.buffer ∧
      (report tos source destination bm t).busy = t.busy := by
    intro t
    obtain ⟨recvData, heq⟩ := report_eq tos t source destination bm
    rw [heq]
    exact ⟨rfl, rfl⟩
  obtain ⟨hbuffer, hbusy⟩ := hreport (spread tos destination len bm ans s).1
  exact ⟨hbuffer.trans hspread.buffer, hspread.frames, hbusy.trans hspread.busy⟩

theorem controlReceive_handles (len : Word8) (cm : ControlMsg) (ans : Answers) :
    Handles tos true s (controlAttempts len cm ans s) (controlReceive tos len cm ans s) := by
  have hbuffer := buffer_mark s cm.nodeid
  have hbusy := busy_mark s cm.nodeid
  have htype := type_mark s cm.nodeid
  unfold controlReceive controlAttempts
  by_cases hlen : len = sizeofControlMsg
  · refine Handles.congr ?_ hbuffer hbusy
    generalize s.mark cm.nodeid = t at hbuffer hbusy htype ⊢
    rw [if_pos hlen, ← htype, ← hbusy]
    dsimp only
    by_cases hpsp : t.type = .psp
    · rw [if_pos hpsp, if_pos ⟨hlen, hpsp⟩]
      exact handles_attempt (.control ⟨cm.nodeid, cm.metric⟩) broadcastAddr ans.controlSent _
        (fun t => { t with busy := true }) (fun _ => rfl) (by simp)
    · rw [if_neg hpsp, if_neg (fun h => hpsp h.2)]
      exact .none rfl rfl rfl
  · rw [if_neg hlen, if_neg (fun h => hlen h.1)]
    exact .none rfl rfl rfl

theorem routeReceive_handles (len : Word8) (rm : RouteMsg) (ans : Answers) :
    Handles tos true s [] (routeReceive len rm ans s, []) := by
  obtain ⟨metric, nexthop, id, timer1, heq⟩ := routeReceive_fields s len rm ans
  rw [heq]
  exact .none rfl rfl rfl

theorem hear_handles (ans : Answers) (f : Frame) :
    Handles tos true s (hearAttempts tos ans f s) (hear tos ans f s) := by
  obtain ⟨source, destination, len, payload⟩ := f
  unfold hear hearAttempts
  split
  · cases payload with
    | beacon bm => exact dataReceive_handles tos s source destination len bm ans
    | control cm => exact controlReceive_handles tos s len cm ans
    | route rm => exact routeReceive_handles tos s len rm ans
  · exact .none rfl rfl rfl

theorem timer0Fired_handles (sent : ErrorT) :
    Handles tos true s
      (if tos = recvNodeId then [⟨.route ⟨s.cnt, tos, 0⟩, broadcastAddr, !s.busy, sent⟩] else [])
      (timer0Fired tos sent { s with timer0 := none }) := by
  unfold timer0Fired
  dsimp only
  split
  · exact Handles.congr (t := { s with timer0 := none })
      (handles_attempt (.route ⟨s.cnt, tos, 0⟩) broadcastAddr sent (!s.busy)
        (fun t => { t with
          busy := true
          curId := s.cnt
          cnt := s.cnt + 1
          timer0 := some (if s.cnt + 1 ≤ 29 then 500 else 3000) })
        (fun _ => rfl) (by simp)) rfl rfl
  · exact .none rfl rfl rfl

theorem timer1Fired_handles (sent : ErrorT) :
    Handles tos false s
      [⟨.route ⟨s.curId, tos, s.curMetric⟩, broadcastAddr, !s.busy, sent⟩]
      (timer1Fired tos sent { s with timer1 := none }) := by
  have hattempt : Handles tos false { s with timer1 := none } _ _ :=
    handles_attempt (.route ⟨s.curId, tos, s.curMetric⟩) broadcastAddr sent (!s.busy) id
      (fun _ => rfl) (by simp)
  refine Handles.congr (t := { s with timer1 := none }) ?_ rfl rfl
  unfold timer1Fired
  dsimp only [busy_fill]
  by_cases hsent : sent = .success
  · simp only [if_pos hsent] at hattempt ⊢
    exact hattempt
  · simp only [if_neg hsent] at hattempt ⊢
    exact hattempt

end Handlers

/-- What happens at a node: its own events, the frames of others, and the radio that
reads the packet for a send that is out. -/
inductive NodeEvent where
  | own (e : Event)
  | heard (ans : Answers) (f : Frame)
  | transmit
  deriving DecidableEq, Repr

inductive Output where
  | handed (f : Frame)
  | aired (type : AmId) (bytes : List Word8)
  deriving DecidableEq, Repr

def nodeStep (tos : Word16) (s : State) : NodeEvent → Option (State × List Output)
  | .own e => (handle tos e s).map fun r => (r.1, r.2.map .handed)
  | .heard ans f => some ((hear tos ans f s).1, (hear tos ans f s).2.map .handed)
  | .transmit =>
    if s.pending ≠ [] then
      some (s, [.aired s.packet.type (s.packet.data.take s.packet.length.val)])
    else none

/-- The node with the id `tos`. -/
def machine (tos : Word16) : Machine State NodeEvent Output where
  init := {}
  step := nodeStep tos

/-- What a node does to `packet` at an event. -/
def attempts (tos : Word16) (s : State) : NodeEvent → List Attempt
  | .own (.timer0Fired sent) =>
    if tos = recvNodeId then [⟨.route ⟨s.cnt, tos, 0⟩, broadcastAddr, !s.busy, sent⟩] else []
  | .own (.timer1Fired sent) =>
    [⟨.route ⟨s.curId, tos, s.curMetric⟩, broadcastAddr, !s.busy, sent⟩]
  | .own (.sourceData source destination len bm ans) =>
    hearAttempts tos ans ⟨source, destination, len, .beacon bm⟩ s
  | .heard ans f => hearAttempts tos ans f s
  | .own .booted | .own (.startDone _) | .own (.sendDone _ _) | .transmit => []

/-- The step leaves the packet alone while a send is out, and the flag is set then. -/
structure Proper (tos : Word16) (s : State) (e : NodeEvent) : Prop where
  disciplined : Disciplined (attempts tos s e) s.buffer
  busy : ∀ r ∈ nodeStep tos s e, r.1.pending ≠ [] → r.1.busy = true

/-- A frame whose handler writes the packet comes in while the node is not busy, and at
a broadcast data frame no control frame is sent. -/
def HeardFree (tos : Word16) (ans : Answers) (f : Frame) (s : State) : Prop :=
  s.radio = .on ∧ (f.destination = tos ∨ f.destination = broadcastAddr) →
    match f.payload with
    | .beacon _ => f.length = sizeofBeaconMsg → s.busy = false ∧
        (f.destination = broadcastAddr → s.locked = true ∨ ans.controlSent ≠ .success)
    | .control _ => f.length = sizeofControlMsg ∧ s.type = .psp → s.busy = false
    | .route _ => True

/-- The steps that respect the packet: `Timer0` fires at the sink only while it is not
busy, `Timer1` neither while the node is busy nor so that its send is accepted. -/
def Reserved (tos : Word16) (s : State) : NodeEvent → Prop
  | .own (.timer0Fired _) => tos = recvNodeId → s.busy = false
  | .own (.timer1Fired sent) => s.busy = false ∧ sent ≠ .success
  | .own (.sourceData source destination len bm ans) =>
    HeardFree tos ans ⟨source, destination, len, .beacon bm⟩ s
  | .heard ans f => HeardFree tos ans f s
  | .own .booted | .own (.startDone _) | .own (.sendDone _ _) | .transmit => True

instance (tos : Word16) (ans : Answers) (s : State) :
    (f : Frame) → Decidable (HeardFree tos ans f s)
  | ⟨_, destination, len, .beacon _⟩ => inferInstanceAs (Decidable
      (s.radio = .on ∧ (destination = tos ∨ destination = broadcastAddr) →
        len = sizeofBeaconMsg → s.busy = false ∧
          (destination = broadcastAddr → s.locked = true ∨ ans.controlSent ≠ .success)))
  | ⟨_, destination, len, .control _⟩ => inferInstanceAs (Decidable
      (s.radio = .on ∧ (destination = tos ∨ destination = broadcastAddr) →
        len = sizeofControlMsg ∧ s.type = .psp → s.busy = false))
  | ⟨_, _, _, .route _⟩ => .isTrue fun _ => trivial

instance (tos : Word16) (s : State) : (e : NodeEvent) → Decidable (Reserved tos s e)
  | .own (.timer0Fired _) => inferInstanceAs (Decidable (tos = recvNodeId → s.busy = false))
  | .own (.timer1Fired sent) => inferInstanceAs (Decidable (s.busy = false ∧ sent ≠ .success))
  | .own (.sourceData source destination len bm ans) =>
    inferInstanceAs (Decidable (HeardFree tos ans ⟨source, destination, len, .beacon bm⟩ s))
  | .heard ans f => inferInstanceAs (Decidable (HeardFree tos ans f s))
  | .own .booted | .own (.startDone _) | .own (.sendDone _ _) | .transmit => .isTrue trivial

/-- Which handler a step of the node calls, and when it can. -/
inductive NodeDispatch (tos : Word16) (s : State) : NodeEvent → State → List Output → Prop
  | booted (hoff : s.radio = .off) : NodeDispatch tos s (.own .booted) (booted tos s) []
  | startDone {err : ErrorT} (hstarting : s.radio = .starting) :
      NodeDispatch tos s (.own (.startDone err)) (startDone err s) []
  | timer0Fired {sent : ErrorT} (htimer : s.timer0.isSome) :
      NodeDispatch tos s (.own (.timer0Fired sent))
        (timer0Fired tos sent { s with timer0 := none }).1
        ((timer0Fired tos sent { s with timer0 := none }).2.map .handed)
  | timer1Fired {sent : ErrorT} (htimer : s.timer1.isSome) :
      NodeDispatch tos s (.own (.timer1Fired sent))
        (timer1Fired tos sent { s with timer1 := none }).1
        ((timer1Fired tos sent { s with timer1 := none }).2.map .handed)
  | sendDone {am : AmId} {err : ErrorT} (ham : am ∈ s.pending) :
      NodeDispatch tos s (.own (.sendDone am err))
        (sendDone { s with pending := s.pending.erase am }) []
  | sourceData {source destination : Word16} {len : Word8} {bm : BeaconMsg} {ans : Answers} :
      NodeDispatch tos s (.own (.sourceData source destination len bm ans))
        (hear tos ans ⟨source, destination, len, .beacon bm⟩ s).1
        ((hear tos ans ⟨source, destination, len, .beacon bm⟩ s).2.map .handed)
  | heard {ans : Answers} {f : Frame} :
      NodeDispatch tos s (.heard ans f) (hear tos ans f s).1 ((hear tos ans f s).2.map .handed)
  | transmit (hout : s.pending ≠ []) :
      NodeDispatch tos s .transmit s
        [.aired s.packet.type (s.packet.data.take s.packet.length.val)]

theorem nodeStep_dispatch {tos : Word16} {s t : State} {e : NodeEvent} {out : List Output}
    (h : nodeStep tos s e = some (t, out)) : NodeDispatch tos s e t out := by
  cases e with
  | own e =>
    obtain ⟨⟨u, fs⟩, hhandle, hpair⟩ := Option.map_eq_some_iff.mp h
    obtain ⟨rfl, rfl⟩ := Prod.mk.inj hpair
    cases handle_dispatch hhandle with
    | booted hoff => exact .booted hoff
    | startDone hstarting => exact .startDone hstarting
    | timer0Fired htimer hrun =>
      obtain ⟨rfl, rfl⟩ := Prod.mk.inj hrun
      exact .timer0Fired htimer
    | timer1Fired htimer hrun =>
      obtain ⟨rfl, rfl⟩ := Prod.mk.inj hrun
      exact .timer1Fired htimer
    | sendDone ham => exact .sendDone ham
    | sourceData hrun =>
      obtain ⟨rfl, rfl⟩ := Prod.mk.inj hrun
      exact .sourceData
  | heard ans f =>
    obtain ⟨rfl, rfl⟩ := Prod.mk.inj (Option.some.inj h)
    exact .heard
  | transmit =>
    obtain ⟨hout, hpair⟩ := Option.ite_none_right_eq_some.mp h
    obtain ⟨rfl, rfl⟩ := Prod.mk.inj (Option.some.inj hpair)
    exact .transmit hout

/-- What an event does to the packet, the flag and the sends that are out. -/
inductive NodeEffect (tos : Word16) (s : State) : NodeEvent → State → List Output → Prop
  | handled {e : NodeEvent} {t : State} {fs : List Frame}
      (he : ∀ sent, e ≠ .own (.timer1Fired sent))
      (h : Handles tos true s (attempts tos s e) (t, fs)) :
      NodeEffect tos s e t (fs.map .handed)
  | relayed {sent : ErrorT} {t : State} {fs : List Frame}
      (h : Handles tos false s (attempts tos s (.own (.timer1Fired sent))) (t, fs)) :
      NodeEffect tos s (.own (.timer1Fired sent)) t (fs.map .handed)
  | sendDone {am : AmId} {err : ErrorT} (ham : am ∈ s.pending) :
      NodeEffect tos s (.own (.sendDone am err))
        (sendDone { s with pending := s.pending.erase am }) []
  | transmit (hout : s.pending ≠ []) :
      NodeEffect tos s .transmit s
        [.aired s.packet.type (s.packet.data.take s.packet.length.val)]

theorem nodeStep_effect {tos : Word16} {s t : State} {e : NodeEvent} {out : List Output}
    (h : nodeStep tos s e = some (t, out)) : NodeEffect tos s e t out := by
  cases nodeStep_dispatch h with
  | booted =>
    obtain ⟨type, radio, heq⟩ := booted_eq tos s
    refine @NodeEffect.handled tos s _ _ [] (by simp) (.none ?_ (booted_busy tos s) rfl)
    change (booted tos s).buffer = s.buffer
    rw [heq]
    rfl
  | @startDone err =>
    obtain ⟨radio, timer0, heq⟩ := startDone_eq err s
    refine @NodeEffect.handled tos s _ _ [] (by simp) (.none ?_ (startDone_busy err s) rfl)
    change (startDone err s).buffer = s.buffer
    rw [heq]
    rfl
  | timer0Fired => exact .handled (by simp) (timer0Fired_handles tos s _)
  | timer1Fired => exact .relayed (timer1Fired_handles tos s _)
  | sendDone ham => exact .sendDone ham
  | sourceData => exact .handled (by simp) (hear_handles tos s _ _)
  | heard => exact .handled (by simp) (hear_handles tos s _ _)
  | transmit hout => exact .transmit hout

/-- The flag tells whether a send is out, and at most one is. -/
structure Tidy (s : State) : Prop where
  busy : s.busy = true ↔ s.pending ≠ []
  one : s.pending.length ≤ 1

section Discipline
variable {tos : Word16} {s : State}

theorem Tidy.idle (h : Tidy s) : s.pending = [] ↔ s.busy = false := by
  rw [← Bool.not_eq_true, h.busy, not_not]

/-- A handler that sets the flag keeps it true to the sends that are out. -/
theorem Handles.tidy {as : List Attempt} {r : State × List Frame}
    (h : Handles tos true s as r) (hs : Tidy s) (hdisciplined : Disciplined as s.buffer) :
    Tidy r.1 := by
  have hpending : r.1.pending = (r.2.map fun f => f.payload.am).reverse ++ s.pending := by
    rw [h.frames]
    exact (congrArg Buffer.pending h.buffer).trans (pending_applyAll tos as)
  refine ⟨?_, ?_⟩
  · rw [h.busy, hpending]
    cases hframes : r.2 with
    | nil => simpa using hs.busy
    | cons f fs => simp
  · have hone := length_pending_applyAll as hs.one hdisciplined
    rw [← h.buffer] at hone
    exact hone

theorem spread_disciplined (hs : Tidy s) (destination : Word16) (bm : BeaconMsg)
    (ans : Answers) :
    Disciplined (spreadAttempts tos destination sizeofBeaconMsg bm ans s) s.buffer ↔
      s.busy = false ∧
        (destination = broadcastAddr → s.locked = true ∨ ans.controlSent ≠ .success) := by
  rw [spreadAttempts, if_pos rfl]
  by_cases hbroadcast : destination = broadcastAddr
  · -- the data frame is written after the control frame was sent
    rw [if_pos hbroadcast, disciplined_append, ← hs.idle]
    simp only [announceAttempts, forwardAttempts, Disciplined, and_true, applyAll_cons,
      applyAll_nil, hbroadcast, forall_const]
    refine and_congr_right fun hnone => ?_
    have hidle : s.busy = false := hs.idle.mp hnone
    have hbuffer : s.buffer.pending = [] := hnone
    rw [Attempt.apply_pending, hbuffer]
    cases hlocked : s.locked <;> by_cases hsent : ans.controlSent = .success <;>
      simp [Attempt.accepted, hidle, hsent]
  · rw [if_neg hbroadcast, ← hs.idle]
    simp [forwardAttempts, Disciplined, hbroadcast, State.buffer]

theorem hear_disciplined (hs : Tidy s) (ans : Answers) (f : Frame) :
    Disciplined (hearAttempts tos ans f s) s.buffer ↔ HeardFree tos ans f s := by
  obtain ⟨source, destination, len, payload⟩ := f
  unfold hearAttempts HeardFree
  by_cases hreceived : s.radio = .on ∧ (destination = tos ∨ destination = broadcastAddr)
  · rw [if_pos hreceived, forall_prop_of_true hreceived]
    cases payload with
    | beacon bm =>
      dsimp only
      by_cases hlen : len = sizeofBeaconMsg
      · subst hlen
        rw [forall_prop_of_true rfl]
        exact spread_disciplined hs destination bm ans
      · simp [spreadAttempts, hlen, Disciplined]
    | control cm =>
      dsimp only
      rw [controlAttempts, ← hs.idle]
      split
      · next h => simp [Disciplined, h, State.buffer]
      · next h => simp [Disciplined, h]
    | route rm => exact iff_of_true trivial trivial
  · rw [if_neg hreceived]
    exact iff_of_true trivial fun h => absurd h hreceived

theorem disciplined_iff (hs : Tidy s) {e : NodeEvent}
    (he : ∀ sent, e ≠ .own (.timer1Fired sent)) :
    Disciplined (attempts tos s e) s.buffer ↔ Reserved tos s e := by
  cases e with
  | own e =>
    cases e with
    | timer0Fired sent =>
      simp only [attempts, Reserved, ← hs.idle]
      split
      · next htos => simp [Disciplined, htos, State.buffer]
      · next htos => simp [Disciplined, htos]
    | timer1Fired sent => exact absurd rfl (he sent)
    | sourceData source destination len bm ans => exact hear_disciplined hs ans _
    | booted | startDone | sendDone => exact iff_of_true trivial trivial
  | heard ans f => exact hear_disciplined hs ans f
  | transmit => exact iff_of_true trivial trivial

/-- In a tidy node these are the proper steps, and they keep it tidy. -/
theorem proper_iff (hs : Tidy s) {e : NodeEvent} {t : State} {out : List Output}
    (h : nodeStep tos s e = some (t, out)) :
    (Proper tos s e ↔ Reserved tos s e) ∧ (Reserved tos s e → Tidy t) := by
  have hbusy : Tidy t → ∀ r ∈ nodeStep tos s e, r.1.pending ≠ [] → r.1.busy = true := by
    intro ht r hr
    rw [← Option.some.inj (h.symm.trans hr)]
    exact ht.busy.mpr
  have heffect := nodeStep_effect h
  cases heffect with
  | handled he hhandles =>
    have hiff : Disciplined (attempts tos s _) s.buffer ↔ Reserved tos s _ :=
      disciplined_iff hs he
    have htidy : Reserved tos s e → Tidy t := fun hreserved =>
      hhandles.tidy hs (hiff.mpr hreserved)
    refine ⟨⟨fun hproper => hiff.mp hproper.disciplined, fun hreserved => ?_⟩, htidy⟩
    exact ⟨hiff.mpr hreserved, hbusy (htidy hreserved)⟩
  | @relayed sent t fs hhandles =>
    have hflag : t.busy = s.busy := by simpa using hhandles.busy
    have hpending : t.pending = if (!s.busy && decide (sent = .success)) then
        .route :: s.pending else s.pending :=
      (congrArg Buffer.pending hhandles.buffer).trans Attempt.apply_pending
    have hfree : s.pending = [] ↔ s.busy = false := hs.idle
    have htidy : Reserved tos s (.own (.timer1Fired sent)) → Tidy t := by
      rintro ⟨hidle, hsent⟩
      have hnone : t.pending = [] := by simp [hpending, hsent, hfree.mpr hidle]
      exact ⟨by simp [hflag, hidle, hnone], by simp [hnone]⟩
    refine ⟨⟨fun hproper => ?_, fun hreserved => ?_⟩, htidy⟩
    · have hidle : s.busy = false := hfree.mp hproper.disciplined.1
      refine ⟨hidle, fun hsent => ?_⟩
      have hset := hproper.busy _ h (by simp [hpending, hidle, hsent])
      simp [hflag, hidle] at hset
    · exact ⟨⟨hfree.mpr hreserved.1, trivial⟩, hbusy (htidy hreserved)⟩
  | @sendDone am err ham =>
    have hone : (s.pending.erase am).length = 0 := by
      rw [List.length_erase_of_mem ham]
      have hle := hs.one
      omega
    have htidy : Tidy (sendDone { s with pending := s.pending.erase am }) :=
      ⟨by simp [Routing.sendDone, List.length_eq_zero_iff.mp hone], hone.le.trans (by omega)⟩
    exact ⟨iff_of_true ⟨trivial, hbusy htidy⟩ trivial, fun _ => htidy⟩
  | transmit hout => exact ⟨iff_of_true ⟨trivial, hbusy hs⟩ trivial, fun _ => hs⟩

end Discipline

def Output.frame? : Output → Option Frame
  | .handed f => some f
  | .aired _ _ => none

/-- The frames handed to the senders. -/
def frames (out : List Output) : List Frame := out.filterMap Output.frame?

/-- What goes out is of the type and payload of the frame handed over last. -/
def Faithful (pre : List Output) : Output → Prop
  | .handed _ => True
  | .aired type bytes => ∃ f, (frames pre).getLast? = some f ∧ type = f.payload.am ∧
      bytes = f.payload.bytes

@[simp] theorem frames_handed (fs : List Frame) : frames (fs.map .handed) = fs := by
  rw [frames, List.filterMap_map]
  exact List.filterMap_some

theorem frames_append_handed (out : List Output) (fs : List Frame) :
    frames (out ++ fs.map .handed) = frames out ++ fs := by
  rw [frames, List.filterMap_append]
  exact congrArg (frames out ++ ·) (frames_handed fs)

theorem inOrder_handed {out : List Output} (h : InOrder Faithful out) (fs : List Frame) :
    InOrder Faithful (out ++ fs.map .handed) := by
  apply h.append
  intro o ho pre
  obtain ⟨f, -, rfl⟩ := List.mem_map.mp ho
  trivial

/-- The packet still holds what the last accepted send was given. -/
structure Kept (s : State × List Output) : Prop where
  tidy : Tidy s.1
  held : Held s.1.buffer (frames s.2)
  inOrder : InOrder Faithful s.2

theorem kept_init (tos : Word16) : Kept (machine tos).system.init :=
  ⟨⟨by simp [Machine.system, machine], by simp [Machine.system, machine]⟩,
    fun hout => absurd rfl hout, inOrder_nil⟩

theorem kept_step {tos : Word16} {s : State × List Output} (hs : Kept s) {e : NodeEvent}
    (hreserved : Reserved tos s.1 e) {t : State} {out : List Output}
    (h : nodeStep tos s.1 e = some (t, out)) : Kept (t, s.2 ++ out) := by
  obtain ⟨hproper, htidy⟩ := proper_iff hs.tidy h
  have hdisciplined := (hproper.mpr hreserved).disciplined
  have hhandled : ∀ {marks : Bool} {fs : List Frame},
      Handles tos marks s.1 (attempts tos s.1 e) (t, fs) → out = fs.map .handed →
      Kept (t, s.2 ++ out) := by
    rintro marks fs hhandles rfl
    have hheld := held_applyAll tos _ hs.held hdisciplined
    rw [← hhandles.buffer, ← hhandles.frames] at hheld
    refine ⟨htidy hreserved, ?_, inOrder_handed hs.inOrder fs⟩
    rw [frames_append_handed]
    exact hheld
  have heffect := nodeStep_effect h
  cases heffect with
  | handled he hhandles => exact hhandled hhandles rfl
  | relayed hhandles => exact hhandled hhandles rfl
  | sendDone ham =>
    rw [List.append_nil]
    refine ⟨htidy hreserved, fun hout => ?_, hs.inOrder⟩
    exact absurd ((htidy hreserved).busy.mpr hout) (by simp [sendDone])
  | transmit hout =>
    obtain ⟨f, hlast, hholds⟩ := hs.held hout
    have hbytes : s.1.packet.data.take s.1.packet.length.val = f.payload.bytes := by
      have hlength : s.1.packet.length = f.payload.size := hholds.length
      rw [hlength]
      exact hholds.data
    refine ⟨hs.tidy, ?_, hs.inOrder.append_one ⟨f, hlast, hholds.type, hbytes⟩⟩
    have hframes : frames (s.2 ++ [.aired s.1.packet.type
        (s.1.packet.data.take s.1.packet.length.val)]) = frames s.2 := by
      simp [frames, Output.frame?]
    rw [hframes]
    exact hs.held

/-- In every run the flag is set and the packet left alone while a send is out exactly
if every step respects the packet, and then what goes out is what was sent. -/
theorem packet_kept_iff (tos : Word16) (es : List NodeEvent) {s : State × List Output}
    (hrun : (machine tos).system.run es = some s) :
    ((machine tos).system.AllowedFrom (fun s e => Proper tos s.1 e) (machine tos).system.init es ↔
      (machine tos).system.AllowedFrom (fun s e => Reserved tos s.1 e)
        (machine tos).system.init es) ∧
    ((machine tos).system.AllowedFrom (fun s e => Reserved tos s.1 e)
        (machine tos).system.init es → InOrder Faithful s.2) := by
  constructor
  · apply Machine.allowedFrom_congr (fun s => Tidy s.1) ?_ es (kept_init tos).tidy hrun
    intro s e t out hs he
    exact proper_iff hs he
  · intro hreserved
    have hreach := System.reachable_of_run es hreserved hrun
    have hkept : Kept s := by
      apply Machine.invariant (P := Kept) hreach (kept_init tos)
      intro s e t out hs hallowed he
      exact kept_step hs hallowed he
    exact hkept.inOrder

/-- A data frame of a source. -/
def sample : BeaconMsg := ⟨100, 7, Vector.replicate 40 0⟩

def granting : Answers := ⟨.success, .success, 0⟩

/-- Node 2 learns a route and forwards a data frame; the relay of the beacon finds no
room at the radio. -/
def forwarding : List NodeEvent :=
  [.own .booted, .own (.startDone .success),
    .heard granting (airedBy 1 broadcastAddr (.route ⟨1, 1, 0⟩)),
    .own (.timer1Fired .ebusy), .heard granting (airedBy 9 2 (.beacon sample)), .transmit,
    .own (.sendDone .beacon .success)]

theorem packet_kept_forwarding :
    ∃ s, (machine 2).system.run forwarding = some s ∧
      frames s.2 = [airedBy 2 1 (.beacon sample)] ∧ InOrder Faithful s.2 := by
  exact ⟨_, rfl, by decide, (packet_kept_iff 2 forwarding rfl).2 (by decide)⟩

/-- A broadcast data frame makes node 2 send a control frame, and is written over it
before the radio reads it. -/
theorem beacon_over_control :
    ∃ s, (machine 2).system.Reachable System.anyStep s ∧
      s.2 = [.handed (airedBy 2 broadcastAddr (.control ⟨2, 0xffff⟩)),
        .aired .control [0, 100, 0, 7]] ∧ ¬ InOrder Faithful s.2 := by
  have hinit : (machine 2).system.Reachable System.anyStep _ := .init
  have hboot := hinit.step (e := NodeEvent.own .booted) trivial rfl
  have hstart := hboot.step (e := NodeEvent.own (.startDone .success)) trivial rfl
  have hheard := hstart.step
    (e := NodeEvent.heard granting (airedBy 9 broadcastAddr (.beacon sample))) trivial rfl
  have haired := hheard.step (e := NodeEvent.transmit) trivial rfl
  refine ⟨_, haired, by decide, fun horder => ?_⟩
  obtain ⟨f, hlast, -, hbytes⟩ := horder
    [.handed (airedBy 2 broadcastAddr (.control ⟨2, 0xffff⟩))] (.aired .control [0, 100, 0, 7]) []
    (by decide)
  obtain rfl : airedBy 2 broadcastAddr (.control ⟨2, 0xffff⟩) = f := Option.some.inj hlast
  exact absurd hbytes (by decide)

end WsnContest.Routing
