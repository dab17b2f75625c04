import WsnContest.Car.Node

/-! Readings and their tags. The tag of a query key is noted whether or not the
driver takes the query, and goes out with whatever reading is sent next: the
pairing holds as long as no other tag is noted while a reading is awaited or still
being repeated, and as long as the reader speaks only when it is asked. -/
namespace WsnContest.CarNode
open Tinyos Lib Car
open CarP (Rx Command Framed Heard)

/-- The tag as it is sent. -/
def label (tag : Word8) : Word16 := Fin.ofNat _ tag.val

/-- The accepted query that waits for its grant, the one the reader was asked
last, and the answers: label and data of every query that ended in success. -/
structure Exchange where
  waiting : Option Word8 := none
  asked : Option Word16 := none
  done : List (Word16 × Word16) := []
  deriving DecidableEq, Repr

/-- A query has been asked when its own four bytes were written, and is answered
by the next `readDone`. -/
def Exchange.note (x : Exchange) : Output → Exchange
  | .driver (.accepted (.quiryReader tag)) => { x with waiting := some tag }
  | .driver (.accepted _) => { x with waiting := none }
  | .driver (.wrote bytes) =>
    { x with
      waiting := none
      asked := (x.waiting.filter fun tag => bytes = (Command.quiryReader tag).encode).map label }
  | .driver (.readDone state data) =>
    { x with
      asked := none
      done := if state = .success then x.done ++ (x.asked.map (·, data)).toList else x.done }
  | .driver _ | .obeyed _ | .handed _ _ => x

def exchange (out : List Output) : Exchange := out.foldl Exchange.note {}

/-- Every reading handed to the radio is the answer to an earlier query for its tag. -/
def Paired (out : List Output) : Prop :=
  ∀ pre msg sent post, out = pre ++ .handed msg sent :: post →
    (msg.id, msg.data) ∈ (exchange pre).done

@[simp] theorem exchange_append_one (out : List Output) (o : Output) :
    exchange (out ++ [o]) = (exchange out).note o := by
  simp [exchange]

/-- Of the outputs only what is handed to the radio has to be in order. -/
theorem paired_iff {out : List Output} : Paired out ↔
    InOrder (fun pre o => ∀ msg sent, o = .handed msg sent →
      (msg.id, msg.data) ∈ (exchange pre).done) out := by
  constructor
  · rintro h pre o post heq msg sent rfl
    exact h pre msg sent post heq
  · intro h pre msg sent post heq
    exact h pre (.handed msg sent) post heq msg sent rfl

theorem paired_nil : Paired [] := paired_iff.mpr inOrder_nil

theorem paired_append_one {out : List Output} {o : Output} (h : Paired out)
    (ho : ∀ msg sent, o = .handed msg sent → (msg.id, msg.data) ∈ (exchange out).done) :
    Paired (out ++ [o]) :=
  paired_iff.mpr ((paired_iff.mp h).append_one ho)

/-- The tag a key asks for. -/
def Cmd.tag? : Cmd → Option Word8
  | ._1 => some 100 | ._2 => some 101 | ._3 => some 102 | ._4 => some 103 | ._5 => some 104
  | ._6 => some 105 | ._7 => some 106 | ._8 => some 107 | ._9 => some 108 | ._A => some 109
  | ._B => some 110 | ._C => some 111 | ._D => some 112 | ._E => some 113 | ._F => some 114
  | .w_ | .a_ | .s_ | .d_ | .__ | .r_ => none

def tagOf (cmd : Word16) : Option Word8 := (Cmd.ofCode? cmd).bind Cmd.tag?

theorem obey_query {cmd : Word16} {tag : Word8} (h : tagOf cmd = some tag)
    (irqs : List (List Rx)) (s : State) : obey cmd irqs s = quiry tag irqs s := by
  obtain ⟨c, hc, htag⟩ := Option.bind_eq_some_iff.mp h
  unfold obey
  rw [hc]
  cases c <;> cases htag <;> rfl

/-- The keys and events after which a wrong pair can be on its way are left out: a
query key may note another tag only when the driver is free and the last reading
has been repeated often enough, and may not come between a drive command and its
grant; the reader's frames end while it is asked; and the counter of repetitions
does not wrap. -/
def Undisturbed (s : State × List Output) : Input → Prop
  | .frame len rm _ => len = sizeofTestCarMsg → s.1.seq < rm.seq →
      ∀ tag ∈ tagOf rm.cmd,
        (label tag = s.1.id ∨ s.1.car.isSend = false ∧ resendCnt ≤ s.1.resendCount) ∧
        (s.1.car.requested = true → s.1.car.carCommand.getD 2 0 = CarP.Op.quiryReader)
  | .event (.resendTimerFired _) => s.1.resendCount ≠ 0xffff
  | .event (.granted irqs) => s.1.car.cmdlength ≠ 4 →
      (CarP.rxAll irqs { s.1.car with requested := false, owner := true }).recvTaskPosted = false
  | .event (.recvTask irqs _) =>
      (CarP.recvTask irqs { s.1.car with recvTaskPosted := false }).1.recvTaskPosted = false
  | .event _ => True

instance (s : State × List Output) : (e : Input) → Decidable (Undisturbed s e)
  | .frame len rm _ => inferInstanceAs (Decidable (len = sizeofTestCarMsg → s.1.seq < rm.seq →
      ∀ tag ∈ tagOf rm.cmd,
        (label tag = s.1.id ∨ s.1.car.isSend = false ∧ resendCnt ≤ s.1.resendCount) ∧
        (s.1.car.requested = true → s.1.car.carCommand.getD 2 0 = CarP.Op.quiryReader)))
  | .event (.resendTimerFired _) => inferInstanceAs (Decidable (s.1.resendCount ≠ 0xffff))
  | .event (.granted irqs) => inferInstanceAs (Decidable (s.1.car.cmdlength ≠ 4 →
      (CarP.rxAll irqs { s.1.car with requested := false, owner := true }).recvTaskPosted = false))
  | .event (.recvTask irqs _) => inferInstanceAs (Decidable
      ((CarP.recvTask irqs { s.1.car with recvTaskPosted := false }).1.recvTaskPosted = false))
  | .event (.startDone _) | .event .sendDone | .event (.rxDone _) | .event (.timer1Fired _) =>
    .isTrue trivial

/-- The driver, the noted tag and the exchange so far belong together. -/
structure Tied (s : State) (x : Exchange) : Prop where
  framed : Framed s.car.carCommand
  idle : s.car.isSend = false → s.car.requested = false ∧ s.car.owner = false
  waking : s.car.timer1 = true ∨ s.car.recvTaskPosted = true → s.car.owner = true
  owning : s.car.owner = true → s.car.requested = false ∧ x.asked = some s.id
  driving : s.car.requested = true → s.car.carCommand.getD 2 0 ≠ CarP.Op.quiryReader →
    s.car.cmdlength = 7 ∧ x.waiting = none
  asking : s.car.requested = true → s.car.carCommand.getD 2 0 = CarP.Op.quiryReader →
    ∃ tag, x.waiting = some tag ∧ label tag = s.id ∧
      s.car.carCommand.take 4 = (Command.quiryReader tag).encode
  length : s.car.requested = true → s.car.cmdlength = 4 ∨ s.car.cmdlength = 7
  repeating : s.resendCount < resendCnt → (s.id, s.currentData) ∈ x.done

/-- The state and everything it has output are in order. -/
structure Ordered (s : State × List Output) : Prop where
  tied : Tied s.1 (exchange s.2)
  paired : Paired s.2

section Steps
variable {s : State} {x : Exchange}

theorem Tied.congr (h : Tied s x) {t : State} (hcar : t.car = s.car) (hid : t.id = s.id)
    (hdata : t.currentData = s.currentData) (hcount : t.resendCount = s.resendCount) :
    Tied t x := by
  constructor <;> simp only [hcar, hid, hdata, hcount]
  · exact h.framed
  · exact h.idle
  · exact h.waking
  · exact h.owning
  · exact h.driving
  · exact h.asking
  · exact h.length
  · exact h.repeating

theorem Tied.hear (h : Tied s x) {car : CarP.State} (ht : Heard s.car car) :
    Tied { s with car := car } x := by
  refine ⟨ht.carCommand ▸ h.framed, ?_, ht.waking h.waking, ?_, ?_, ?_, ?_, h.repeating⟩
  · rw [ht.isSend, ht.requested, ht.owner]
    exact h.idle
  · rw [ht.owner, ht.requested]
    exact h.owning
  · rw [ht.requested, ht.carCommand, ht.cmdlength]
    exact h.driving
  · rw [ht.requested, ht.carCommand]
    exact h.asking
  · rw [ht.requested, ht.cmdlength]
    exact h.length

/-- The length may change while a query waits, and to seven while anything does. -/
theorem Tied.prepare (h : Tied s x) (c : Command)
    (hlength : s.car.requested = true → s.car.carCommand.getD 2 0 ≠ CarP.Op.quiryReader →
      c.length = 7) : Tied { s with car := CarP.prepare c.length s.car } x := by
  have hstamp := CarP.framed_stamp h.framed
  refine ⟨?_, h.idle, h.waking, h.owning, ?_, ?_, ?_, h.repeating⟩ <;>
    simp only [CarP.prepare, hstamp]
  · exact h.framed
  · exact fun hrequested hop => ⟨hlength hrequested hop, (h.driving hrequested hop).2⟩
  · exact h.asking
  · intro _
    cases c with
    | quiryReader tag => exact .inl rfl
    | _ => exact .inr rfl

/-- A tag may be noted if it is the old one, or if nothing is awaited or repeated. -/
theorem Tied.relabel (h : Tied s x) {tag : Word16}
    (hfree : tag = s.id ∨ s.car.isSend = false ∧ resendCnt ≤ s.resendCount) :
    Tied { s with id := tag } x := by
  rcases hfree with rfl | ⟨hsend, hcount⟩
  · exact h.congr rfl rfl rfl rfl
  · obtain ⟨hrequested, howner⟩ := h.idle hsend
    refine ⟨h.framed, h.idle, h.waking, ?_, h.driving, ?_, h.length, ?_⟩
    · simp [howner]
    · simp [hrequested]
    · exact fun hlt => absurd hlt (not_lt.mpr hcount)

theorem Tied.drive (h : Tied s x) {c : Command} (hlength : c.length = 7)
    (hready : s.car.ready = true) :
    Tied { s with car := { s.car with
      isSend := true, requested := true, cmdlength := c.length
      carCommand := c.fill s.car.carCommand } } { x with waiting := none } := by
  have hidle : s.car.requested = false ∧ s.car.owner = false := by
    apply h.idle
    simp only [CarP.State.ready, Bool.and_eq_true, Bool.not_eq_true'] at hready
    exact hready.2
  obtain ⟨hframed, hop, -⟩ := CarP.framed_fill h.framed c
  have hdrive : c.op ≠ CarP.Op.quiryReader := by
    intro hquery
    have hfour := CarP.length_of_op c
    rw [if_pos hquery, hlength] at hfour
    exact absurd hfour (by decide)
  refine ⟨hframed, ?_, h.waking, ?_, ?_, ?_, ?_, h.repeating⟩ <;> dsimp only
  · simp
  · simp [hidle.2]
  · exact fun _ _ => ⟨hlength, rfl⟩
  · exact fun _ hquery => absurd (hop.symm.trans hquery) hdrive
  · exact fun _ => .inr hlength

theorem Tied.query (h : Tied s x) {tag : Word8} (hready : s.car.ready = true)
    (hfree : label tag = s.id ∨ resendCnt ≤ s.resendCount) :
    Tied { s with
      id := label tag
      car := { s.car with
        isSend := true, requested := true, cmdlength := (Command.quiryReader tag).length
        carCommand := (Command.quiryReader tag).fill s.car.carCommand } }
      { x with waiting := some tag } := by
  have hidle : s.car.requested = false ∧ s.car.owner = false := by
    apply h.idle
    simp only [CarP.State.ready, Bool.and_eq_true, Bool.not_eq_true'] at hready
    exact hready.2
  obtain ⟨hframed, hop, htake⟩ := CarP.framed_fill h.framed (.quiryReader tag)
  refine ⟨hframed, ?_, h.waking, ?_, ?_, ?_, ?_, ?_⟩ <;> dsimp only
  · simp
  · simp [hidle.2]
  · exact fun _ hdrive => absurd hop hdrive
  · exact fun _ _ => ⟨tag, rfl, rfl, htake⟩
  · exact fun _ => .inl rfl
  · intro hcount
    rcases hfree with hsame | hover
    · rw [hsame]
      exact h.repeating hcount
    · exact absurd hcount (not_lt.mpr hover)

theorem Tied.granted (h : Tied s x) {irqs : List Rx} (hrequested : s.car.requested = true)
    (howner : s.car.owner = false) {car : CarP.State}
    (hcar : car = CarP.rxAll irqs { s.car with requested := false, owner := true })
    (hquiet : s.car.cmdlength ≠ 4 → car.recvTaskPosted = false) :
    Tied { s with car := if s.car.cmdlength = 4 then { car with timer1 := true }
        else CarP.clearSend (CarP.release car) }
      (x.note (.driver (.wrote (s.car.carCommand.take s.car.cmdlength)))) := by
  have hheard := CarP.heard_rxAll irqs { s.car with requested := false, owner := true }
  rw [← hcar] at hheard
  have hstill : ¬ (s.car.timer1 = true ∨ s.car.recvTaskPosted = true) := by
    intro hwake
    simp [h.waking hwake] at howner
  by_cases hlength : s.car.cmdlength = 4
  · -- four bytes are sent for a query only
    have hquery : s.car.carCommand.getD 2 0 = CarP.Op.quiryReader := by
      by_contra hop
      obtain ⟨hseven, -⟩ := h.driving hrequested hop
      exact absurd (hlength.symm.trans hseven) (by decide)
    obtain ⟨tag, hwaiting, hlabel, htake⟩ := h.asking hrequested hquery
    rw [if_pos hlength, hlength]
    refine ⟨?_, ?_, ?_, ?_, ?_, ?_, ?_, h.repeating⟩ <;>
      simp only [hheard.requested, hheard.owner, hheard.carCommand]
    · exact h.framed
    · intro hsend
      rw [hheard.isSend] at hsend
      simp [(h.idle hsend).1] at hrequested
    · simp
    · simp [Exchange.note, hwaiting, htake, hlabel]
    · simp
    · simp
    · simp
  · rw [if_neg hlength]
    have hsilent : car.timer1 = false ∧ car.recvTaskPosted = false := by
      have hposted := hquiet hlength
      rcases hheard.wake with ⟨htimer, -⟩ | ⟨-, -, hwoken⟩
      · exact ⟨by simpa [htimer] using fun ht => hstill (.inl ht), hposted⟩
      · simp [hwoken] at hposted
    refine ⟨?_, ?_, ?_, ?_, ?_, ?_, ?_, h.repeating⟩ <;>
      simp only [CarP.clearSend, CarP.release, hheard.requested, hheard.carCommand, hsilent]
    · exact h.framed
    all_goals simp

theorem Tied.recvTask (h : Tied s x) {irqs : List (List Rx)} {state : ErrorT} {data : Word16}
    {car : CarP.State} {out : List CarP.Output}
    (hstep : CarP.step s.car (.recvTask irqs) = some (car, out))
    (hquiet : car.recvTaskPosted = false) (hout : out = [.readDone state data]) :
    Tied { s with
      car := car
      currentData := if state = .success then data else s.currentData
      resendCount := if state = .success then 0 else s.resendCount }
      (x.note (.driver (.readDone state data))) ∧
    (state = .success → (s.id, data) ∈ (x.note (.driver (.readDone state data))).done) := by
  subst hout
  have heffect := CarP.step_effect hstep
  cases heffect with
  | recvTask hposted _ hisSend howner hrequested hcarCommand hcmdlength htimer =>
    obtain ⟨hnone, hasked⟩ := h.owning (h.waking (.inr hposted))
    have hdone : state = .success →
        (s.id, data) ∈ (x.note (.driver (.readDone state data))).done := by
      rintro rfl
      simp [Exchange.note, hasked]
    refine ⟨⟨?_, ?_, ?_, ?_, ?_, ?_, ?_, ?_⟩, hdone⟩ <;>
      simp only [hcarCommand, hrequested, hnone, howner, htimer, hquiet]
    · exact h.framed
    · simp
    · simp
    · simp
    · simp
    · simp
    · simp
    · by_cases hstate : state = .success
      · simpa [hstate] using fun _ => hstate ▸ hdone hstate
      · simpa [hstate, Exchange.note] using h.repeating

end Steps

section Runs
variable {s : State × List Output}

theorem Ordered.congr (h : Ordered s) {t : State} (hcar : t.car = s.1.car) (hid : t.id = s.1.id)
    (hdata : t.currentData = s.1.currentData) (hcount : t.resendCount = s.1.resendCount) :
    Ordered (t, s.2) :=
  ⟨h.tied.congr hcar hid hdata hcount, h.paired⟩

theorem Ordered.append (h : Ordered s) {t : State} {o : CarP.Output}
    (ht : Tied t ((exchange s.2).note (.driver o))) : Ordered (t, s.2 ++ [.driver o]) := by
  refine ⟨?_, paired_append_one h.paired fun msg sent ho => nomatch ho⟩
  rw [exchange_append_one]
  exact ht

theorem Ordered.callCar (h : Ordered s) {c : Command} (hlength : c.length = 7)
    (irqs : List (List Rx)) :
    Ordered ((callCar c irqs s.1).1, s.2 ++ (callCar c irqs s.1).2) := by
  unfold CarNode.callCar
  dsimp only
  cases hready : s.1.car.ready with
  | true =>
    rw [CarP.call_ready hready]
    apply h.append
    have hnote : (exchange s.2).note (.driver (.accepted c)) =
        { exchange s.2 with waiting := none } := by
      cases c with
      | quiryReader tag => cases hlength
      | _ => rfl
    rw [if_pos rfl, hnote]
    exact h.tied.drive hlength hready
  | false =>
    obtain ⟨herror, hheard⟩ := CarP.call_refused c irqs hready
    rw [herror]
    exact h.append ((h.tied.prepare c fun _ _ => hlength).hear hheard)

theorem Ordered.quiry (h : Ordered s) {tag : Word8} (irqs : List (List Rx))
    (hfree : label tag = s.1.id ∨ s.1.car.isSend = false ∧ resendCnt ≤ s.1.resendCount)
    (hdrive : s.1.car.requested = true →
      s.1.car.carCommand.getD 2 0 = CarP.Op.quiryReader) :
    Ordered ((quiry tag irqs s.1).1, s.2 ++ (quiry tag irqs s.1).2) := by
  unfold CarNode.quiry CarNode.callCar
  dsimp only
  cases hready : s.1.car.ready with
  | true =>
    rw [CarP.call_ready hready]
    exact h.append (h.tied.query hready (hfree.imp_right And.right))
  | false =>
    obtain ⟨herror, hheard⟩ := CarP.call_refused (.quiryReader tag) irqs hready
    rw [herror]
    refine h.append (((h.tied.prepare (.quiryReader tag) ?_).hear hheard).relabel ?_)
    · exact fun hrequested hop => absurd (hdrive hrequested) hop
    · exact hfree.imp_right fun hover => ⟨hheard.isSend.trans hover.1, hover.2⟩

theorem Ordered.sendData (h : Ordered s) (sent : ErrorT)
    (hdone : (s.1.id, s.1.currentData) ∈ (exchange s.2).done) :
    Ordered ((sendData sent s.1).1, s.2 ++ (sendData sent s.1).2) := by
  obtain ⟨packet, busyRadio, out, heq, hout⟩ := sendData_eq sent s.1
  rw [heq]
  rcases hout with rfl | rfl
  · refine ⟨?_, paired_append_one h.paired fun msg sent' ho => ?_⟩
    · rw [exchange_append_one]
      exact h.tied.congr rfl rfl rfl rfl
    · obtain ⟨rfl, -⟩ := Output.handed.inj ho
      exact hdone
  · rw [List.append_nil]
    exact h.congr rfl rfl rfl rfl

theorem Ordered.obey (h : Ordered s) {cmd : Word16} (hcmd : tagOf cmd = none)
    (irqs : List (List Rx)) :
    Ordered ((obey cmd irqs s.1).1, s.2 ++ (obey cmd irqs s.1).2) := by
  have hnil : ∀ {t : State}, Ordered (t, s.2) → Ordered (t, s.2 ++ []) := by
    intro t ht
    rwa [List.append_nil]
  have hangle : ∀ a, Ordered ((CarNode.callCar (.angle a) irqs { s.1 with angle := a }).1,
      s.2 ++ (CarNode.callCar (.angle a) irqs { s.1 with angle := a }).2) := fun a =>
    (h.congr (t := { s.1 with angle := a }) rfl rfl rfl rfl).callCar rfl irqs
  have htag : ∀ c, Cmd.ofCode? cmd = some c → Cmd.tag? c = none := by
    intro c hc
    simpa [tagOf, hc] using hcmd
  unfold CarNode.obey
  split
  case h_1 | h_2 => exact h.callCar rfl irqs
  case h_3 | h_4 =>
    split
    · exact hnil h
    · exact hangle _
  case h_5 =>
    have hpause := h.callCar (c := .pause) rfl irqs
    have hturn := (hpause.congr
      (t := { (CarNode.callCar .pause irqs s.1).1 with angle := midAngle })
      rfl rfl rfl rfl).callCar (c := .angle midAngle) rfl irqs
    rw [List.append_assoc] at hturn
    exact hturn
  case h_21 => exact hnil (h.congr rfl rfl rfl rfl)
  case h_22 => exact hnil h
  all_goals exact absurd (htag _ ‹_›) (by simp [Cmd.tag?])

theorem Ordered.started (h : Ordered s) :
    Ordered ((carStartDone { s.1 with car := { s.1.car with isStart := true } }).1,
      s.2 ++ .driver (.startDone .success) ::
        (carStartDone { s.1 with car := { s.1.car with isStart := true } }).2) := by
  have hstart : Ordered ({ s.1 with car := { s.1.car with isStart := true } },
      s.2 ++ [.driver (.startDone .success)]) :=
    h.append ⟨h.tied.framed, h.tied.idle, h.tied.waking, h.tied.owning, h.tied.driving,
      h.tied.asking, h.tied.length, h.tied.repeating⟩
  have hleft := hstart.callCar (c := .initLeftServo leftServo) rfl []
  have hright := hleft.callCar (c := .initRightServo rightServo) rfl []
  have hmid := hright.callCar (c := .initMidServo midAngle) rfl []
  simp only [List.append_assoc] at hmid
  exact hmid

/-- A fresh command is obeyed. -/
theorem Ordered.obeyed (h : Ordered s) {len : Word8} {rm : TestCarMsg} {irqs : List (List Rx)}
    (hlen : len = sizeofTestCarMsg) (hseq : s.1.seq < rm.seq)
    (hallowed : Undisturbed s (.frame len rm irqs)) :
    Ordered ((CarNode.obey rm.cmd irqs { s.1 with seq := rm.seq }).1,
      s.2 ++ .obeyed rm :: (CarNode.obey rm.cmd irqs { s.1 with seq := rm.seq }).2) := by
  have hobeyed : Ordered ({ s.1 with seq := rm.seq }, s.2 ++ [.obeyed rm]) := by
    refine ⟨?_, paired_append_one h.paired fun msg sent ho => nomatch ho⟩
    rw [exchange_append_one]
    exact h.tied.congr rfl rfl rfl rfl
  rw [List.append_cons]
  cases htag : tagOf rm.cmd with
  | none => exact hobeyed.obey htag irqs
  | some tag =>
    obtain ⟨hfree, hdrive⟩ := hallowed hlen hseq tag htag
    rw [obey_query htag]
    exact hobeyed.quiry irqs hfree hdrive

theorem Ordered.resendTimerFired (h : Ordered s) (sent : ErrorT)
    (hcount : s.1.resendCount ≠ 0xffff) :
    Ordered ((resendTimerFired sent s.1).1, s.2 ++ (resendTimerFired sent s.1).2) := by
  have hgrow : s.1.resendCount < s.1.resendCount + 1 :=
    Fin.lt_add_one_iff.mpr (lt_of_le_of_ne (Fin.le_last _) hcount)
  have hticked : Ordered ({ s.1 with resendCount := s.1.resendCount + 1 }, s.2) :=
    ⟨⟨h.tied.framed, h.tied.idle, h.tied.waking, h.tied.owning, h.tied.driving, h.tied.asking,
      h.tied.length, fun hlt => h.tied.repeating (hgrow.trans hlt)⟩, h.paired⟩
  unfold CarNode.resendTimerFired
  dsimp only
  split
  · next hagain => exact hticked.sendData sent (h.tied.repeating hagain)
  · rw [List.append_nil]
    exact hticked

theorem Ordered.recvTask (h : Ordered s) {irqs : List (List Rx)} (sent : ErrorT)
    {car : CarP.State} {state : ErrorT} {data : Word16}
    (hstep : CarP.step s.1.car (.recvTask irqs) = some (car, [.readDone state data]))
    (hquiet : car.recvTaskPosted = false) :
    Ordered ((readDone state data sent { s.1 with car := car }).1,
      s.2 ++ .driver (.readDone state data) ::
        (readDone state data sent { s.1 with car := car }).2) := by
  obtain ⟨htied, hdone⟩ := h.tied.recvTask hstep hquiet rfl
  have hread := h.append htied
  rw [List.append_cons]
  unfold CarNode.readDone
  by_cases hstate : state = .success
  · subst hstate
    have hmem : (s.1.id, data) ∈ (exchange (s.2 ++ [.driver (.readDone .success data)])).done := by
      rw [exchange_append_one]
      exact hdone rfl
    exact hread.sendData sent hmem
  · simp only [hstate, ↓reduceIte, List.append_nil] at hread ⊢
    exact hread

end Runs

theorem ordered_init : Ordered machine.system.init := by
  refine ⟨⟨⟨1, 0, 0, rfl⟩, ?_, ?_, ?_, ?_, ?_, ?_, ?_⟩, paired_nil⟩ <;> decide

theorem ordered_step {s : State × List Output} {t : State} {e : Input} {out : List Output}
    (h : Ordered s) (hallowed : Undisturbed s e) (hstep : machine.step s.1 e = some (t, out)) :
    Ordered (t, s.2 ++ out) := by
  cases step_effect hstep with
  | ignored hstale =>
    rw [List.append_nil]
    exact h
  | obeyed hlen hseq => exact h.obeyed hlen hseq hallowed
  | radioFailed herr =>
    rw [List.append_nil]
    exact h
  | started => exact h.started
  | @resendTimerFired sent htimer => exact h.resendTimerFired sent hallowed
  | sendDone hdone =>
    rw [List.append_nil]
    exact h.congr rfl rfl rfl rfl
  | granted hcar =>
    cases CarP.step_effect hcar with
    | granted hrequested howner ht =>
      apply h.append
      apply h.tied.granted hrequested howner ht
      intro hlength
      rw [ht]
      exact hallowed hlength
  | @rxDone b =>
    rw [List.append_nil]
    exact ⟨h.tied.hear (CarP.heard_rxDone b s.1.car), h.paired⟩
  | timer1Fired hcar =>
    cases CarP.step_effect hcar with
    | timer1Fired htimer ht =>
      have howner := h.tied.waking (.inl htimer)
      have hposted : Tied { s.1 with car := { s.1.car with
          statetag := .fail, timer1 := false, recvTaskPosted := true } } (exchange s.2) :=
        ⟨h.tied.framed, h.tied.idle, fun _ => howner, h.tied.owning, h.tied.driving,
          h.tied.asking, h.tied.length, h.tied.repeating⟩
      rw [List.append_nil]
      exact ⟨hposted.hear ht, h.paired⟩
  | @recvTask irqs sent car state data hcar =>
    apply h.recvTask sent hcar
    obtain ⟨-, hrun⟩ := Option.ite_none_right_eq_some.mp hcar
    have hsame := congrArg Prod.fst (Option.some.inj hrun)
    dsimp only at hsame
    rw [← hsame]
    exact hallowed

/-- In an undisturbed run every reading handed to the radio, at first or again,
carries the tag of an accepted query that it answered. -/
theorem readings_paired {s : State × List Output}
    (h : machine.system.Reachable Undisturbed s) : Paired s.2 := by
  have hordered : Ordered s := by
    apply Machine.invariant (P := Ordered) h ordered_init
    intro s e t out hs hallowed hrun
    exact ordered_step hs hallowed hrun
  exact hordered.paired

/-- The reader answers 5 for tag 100. -/
def answered : List Input :=
  [.event (.startDone .success), .event (.granted []), .frame sizeofTestCarMsg ⟨1, Cmd._1.code⟩ [],
    .event (.granted [⟨255, 0⟩, ⟨255, 0⟩, ⟨0, 0⟩, ⟨0, 0⟩]), .event (.rxDone ⟨0, 0⟩),
    .event (.rxDone ⟨0, 0⟩), .event (.rxDone ⟨0, 0⟩), .event (.rxDone ⟨5, 0⟩),
    .event (.recvTask [] .success)]

theorem readings_paired_answered :
    ∃ s, machine.system.run answered = some s ∧
      s.2.getLast? = some (.handed ⟨100, 5⟩ .success) ∧ Paired s.2 :=
  ⟨_, rfl, by decide, readings_paired (System.reachable_of_run answered (by decide +kernel) rfl)⟩

/-- The next query key relabels the reading that is still being repeated. -/
theorem next_query_relabels :
    ∃ s, machine.system.Reachable System.anyStep s ∧
      s.2.getLast? = some (.handed ⟨101, 5⟩ .success) ∧
      (exchange s.2).done = [(100, 5)] ∧ ¬ Paired s.2 := by
  have hinit : machine.system.Reachable System.anyStep _ := .init
  have hread := System.reachable_of_runFrom hinit answered (by decide) rfl
  have hquery := hread.step (e := .frame sizeofTestCarMsg ⟨2, Cmd._2.code⟩ []) trivial rfl
  have hresent := hquery.step (e := .event (.resendTimerFired .success)) trivial rfl
  refine ⟨_, hresent, by decide, by decide, fun hpaired => ?_⟩
  have hmem := hpaired _ ⟨101, 5⟩ .success [] rfl
  revert hmem
  decide

end WsnContest.CarNode
