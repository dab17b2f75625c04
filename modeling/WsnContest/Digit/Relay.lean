import Mathlib.Algebra.Order.BigOperators.Group.Finset
import WsnContest.Lib.Notes
import WsnContest.Digit.Source

/-! `RadioToLedsC` of `digit_stupid_broadcast`: every node shows its part of the digit on
its LEDs and floods the frame. `received_counts` should tell which counts have gone out,
but it is set in the branch of a send that failed. -/
namespace WsnContest.Digit
open Tinyos

/-- A `message_t`: the payload length of its header, and the first three bytes of its
payload read as a `test_send_msg_t`. -/
structure Message where
  length : Word8
  payload : TestSendMsg
  deriving DecidableEq, Repr

end WsnContest.Digit

namespace WsnContest.Digit.RadioToLeds
open Tinyos Lib

/-- `PATTERN`: for every digit four words of sixteen nodes each. -/
def pattern : List (List Word16) :=
  [[0x0, 0x7f, 0x9027, 0xf800],
    [0x0, 0x0, 0x1fe0, 0x0],
    [0x0, 0x78, 0x9224, 0xf800],
    [0x0, 0x7f, 0x9224, 0x8800],
    [0x0, 0x7f, 0x8207, 0x8000],
    [0x0, 0x4f, 0x9227, 0x8800],
    [0x0, 0x4f, 0x9227, 0xf800],
    [0x0, 0x7f, 0x9004, 0x0],
    [0x0, 0x7f, 0x9227, 0xf800],
    [0x0, 0x7f, 0x9227, 0x8800]]

structure Leds where
  led0 : Bool := false
  led1 : Bool := false
  led2 : Bool := false
  deriving DecidableEq, Repr

/-- The variables of the component, its LEDs, and how many accepted sends still owe
their `sendDone`. -/
structure State where
  busy : Bool := false
  packet : Message := ⟨0, ⟨0, 0, 0⟩⟩
  receivedCounts : Word8 → Word8 := fun _ => 0
  sendCount : Word16 := 0
  leds : Leds := {}
  outstanding : ℕ := 0

/-- `Boot.booted`. -/
def booted (s : State) : State := { s with receivedCounts := fun _ => 0 }

/-- The bit of the node in the pattern of the digit; `beyond` is what memory holds past
the end of `PATTERN`. -/
def lit (tosNodeId : Word16) (number : Word8) (beyond : Word16) : Bool :=
  let frag := match pattern[number.val]? with
    | some words => words.getD (3 - tosNodeId.val / 16 % 4) 0
    | none => beyond
  frag.val.testBit (tosNodeId.val % 16)

/-- The LEDs by the color of the digit. -/
def shine (on : Bool) (color : Word8) : Leds :=
  if color.val % 4 = 0 then ⟨on, false, false⟩
  else if color.val % 4 = 1 then ⟨false, on, false⟩
  else if color.val % 4 = 2 then ⟨false, false, on⟩
  else ⟨on, on, on⟩

/-- What is seen of the node: the frames of the right length that it hears while it is not
busy, with what `AMSend.send` answers if it is called; the frames it gives to `AMSend.send`,
with the result; and those it leaves because their count has been relayed already. -/
inductive Output where
  | heard (rm : TestSendMsg) (sent : ErrorT)
  | handed (rm : TestSendMsg) (sent : ErrorT)
  | relayed (rm : TestSendMsg)
  deriving DecidableEq, Repr

/-- What the environment answers to a reception. -/
structure Answers where
  sent : ErrorT
  beyond : Word16 := 0

/-- `Receive.receive`. `SUCCESS` is zero: the inner branch is the one of a send that
failed. -/
def receive (tosNodeId : Word16) (ans : Answers) (msg : Message) (s : State) :
    State × List Output :=
  let s := { s with packet := msg }
  if msg.length = sizeofTestSendMsg then
    let rm := msg.payload
    let s := { s with leds := shine (lit tosNodeId rm.number ans.beyond) rm.color }
    if !s.busy then
      if s.receivedCounts rm.count = 0 then
        let s := if ans.sent = .success then { s with outstanding := s.outstanding + 1 } else s
        if ans.sent.toBool then
          ({ s with
              receivedCounts := Function.update s.receivedCounts rm.count 1
              sendCount := s.sendCount + 1
              busy := true }, [.heard rm ans.sent, .handed rm ans.sent])
        else (s, [.heard rm ans.sent, .handed rm ans.sent])
      else (s, [.heard rm ans.sent, .relayed rm])
    else (s, [])
  else (s, [])

/-- `AMSend.sendDone`. -/
def sendDone (s : State) : State := { s with busy := false }

/-- What happens at a node besides the frames of its neighbours: a frame of the source,
the radio reading the packet of an accepted send, and the end of that send. -/
inductive Event where
  | heard (ans : Answers) (msg : Message)
  | transmit
  | sendDone

def handle (tosNodeId : Word16) (e : Event) (s : State) : Option (State × List Message) :=
  match e with
  | .heard ans msg => some ((receive tosNodeId ans msg s).1, [])
  | .transmit => if s.outstanding ≠ 0 then some (s, [s.packet]) else none
  | .sendDone =>
    if s.outstanding ≠ 0 then
      some (RadioToLeds.sendDone { s with outstanding := s.outstanding - 1 }, [])
    else none

/-- The nodes of a deployment around one radio. -/
def network {V : Type} (tosNodeId : V → Word16) :
    Network V (fun _ => State) (fun _ => Event) (fun _ => Answers) Message where
  init _ := booted {}
  handle v e s := handle (tosNodeId v) e s
  receive v ans msg s := ((receive (tosNodeId v) ans msg s).1, [])

/-- What a node notes of its own events. -/
def own (tosNodeId : Word16) (e : Event) (s : State) : List Output :=
  match e with
  | .heard ans msg => (receive tosNodeId ans msg s).2
  | .transmit | .sendDone => []

/-- The same network, with what is seen of each node. -/
def watched {V : Type} (tosNodeId : V → Word16) :
    Network V (fun _ => State × List Output) (fun _ => Event) (fun _ => Answers) Message :=
  (network tosNodeId).noting (fun v e s => own (tosNodeId v) e s)
    fun v ans msg s => (receive (tosNodeId v) ans msg s).2

def takenCount? : Output → Option Word8
  | .handed rm .success => some rm.count
  | .heard _ _ | .handed _ _ | .relayed _ => none

/-- The counts of the frames that `AMSend.send` has accepted. -/
def taken (out : List Output) : List Word8 := out.filterMap takenCount?

def answer? (k : Word8) : Output → Option ErrorT
  | .heard rm sent => if rm.count = k then some sent else none
  | .handed _ _ | .relayed _ => none

/-- The answers that come with the frames of one count, in the order they are heard. -/
def answers (k : Word8) (out : List Output) : List ErrorT := out.filterMap (answer? k)

/-- A count that is heard twice is accepted the first time and refused the second. -/
def Lucky : List ErrorT → Prop
  | [] | [_] => True
  | a :: b :: _ => a = .success ∧ b ≠ .success

instance : (sents : List ErrorT) → Decidable (Lucky sents)
  | [] | [_] => .isTrue trivial
  | a :: b :: _ => inferInstanceAs (Decidable (a = .success ∧ b ≠ .success))

/-- The count of a frame that comes in has not been heard, but for what came in while the
node was busy. -/
def Fresh (s : State × List Output) (msg : Message) : Prop :=
  msg.length = sizeofTestSendMsg → s.1.busy = false → answers msg.payload.count s.2 = []

/-- The count of a frame that comes in has not been heard, or the answers are right for it. -/
def Spares (s : State × List Output) (ans : Answers) (msg : Message) : Prop :=
  msg.length = sizeofTestSendMsg → s.1.busy = false →
    Lucky (answers msg.payload.count s.2 ++ [ans.sent])

instance (s : State × List Output) (msg : Message) : Decidable (Fresh s msg) :=
  inferInstanceAs (Decidable (_ → _ → _ = _))

instance (s : State × List Output) (ans : Answers) (msg : Message) :
    Decidable (Spares s ans msg) :=
  inferInstanceAs (Decidable (_ → _ → Lucky _))

theorem Fresh.spares {s : State × List Output} {msg : Message} (h : Fresh s msg) (ans : Answers) :
    Spares s ans msg := by
  intro hlen hbusy
  rw [h hlen hbusy]
  trivial

/-- What a reception does to the table of counts, and what is seen of it. -/
inductive Reception (ans : Answers) (msg : Message) (s : State) : State → List Output → Prop
  | passed {t : State} (ht : t.receivedCounts = s.receivedCounts)
      (hdeaf : msg.length = sizeofTestSendMsg → s.busy = true) : Reception ans msg s t []
  | relayed {t : State} (ht : t.receivedCounts = s.receivedCounts)
      (hlen : msg.length = sizeofTestSendMsg) (hbusy : s.busy = false)
      (hmark : s.receivedCounts msg.payload.count ≠ 0) :
      Reception ans msg s t [.heard msg.payload ans.sent, .relayed msg.payload]
  | taken {t : State} (ht : t.receivedCounts = s.receivedCounts)
      (hlen : msg.length = sizeofTestSendMsg) (hbusy : s.busy = false)
      (hnew : s.receivedCounts msg.payload.count = 0) (hsent : ans.sent = .success) :
      Reception ans msg s t [.heard msg.payload ans.sent, .handed msg.payload ans.sent]
  | failed {t : State} (ht : t.receivedCounts =
        Function.update s.receivedCounts msg.payload.count 1)
      (hlen : msg.length = sizeofTestSendMsg) (hbusy : s.busy = false)
      (hnew : s.receivedCounts msg.payload.count = 0) (hsent : ans.sent ≠ .success) :
      Reception ans msg s t [.heard msg.payload ans.sent, .handed msg.payload ans.sent]

theorem receive_reception (tosNodeId : Word16) (ans : Answers) (msg : Message) (s : State) :
    Reception ans msg s (receive tosNodeId ans msg s).1 (receive tosNodeId ans msg s).2 := by
  unfold receive
  dsimp only
  split
  · next hlen =>
    cases hbusy : s.busy with
    | true => exact .passed rfl fun _ => hbusy
    | false =>
      simp only [Bool.not_false, ↓reduceIte]
      split
      · next hnew =>
        by_cases hsent : ans.sent = .success
        · have hzero : ans.sent.toBool = false := ErrorT.toBool_eq_false.mpr hsent
          simp only [if_pos hsent, hzero, Bool.false_eq_true, ↓reduceIte]
          exact .taken rfl hlen hbusy hnew hsent
        · have hfailed : ans.sent.toBool = true :=
            Bool.of_not_eq_false fun hzero => hsent (ErrorT.toBool_eq_false.mp hzero)
          simp only [hsent, hfailed, ↓reduceIte]
          exact .failed rfl hlen hbusy hnew hsent
      · next hmark => exact .relayed rfl hlen hbusy hmark
  · next hlen => exact .passed rfl fun h => absurd h hlen

/-- Nothing was accepted twice, and what was left as relayed had been accepted. -/
structure Once (out : List Output) : Prop where
  once : (taken out).Nodup
  relayed : InOrder (fun pre o => ∀ rm, o = .relayed rm → rm.count ∈ taken pre) out

/-- What has become of one count: its entry of the table, whether it was accepted, and the
answers that came with it. A second frame is only right after a first that was accepted. -/
inductive Row (mark : Word8) (accepted : Prop) : List ErrorT → Prop
  | unheard (hmark : mark = 0) (hacc : ¬ accepted) : Row mark accepted []
  | sentOnce (hmark : mark = 0) (hacc : accepted) : Row mark accepted [.success]
  | refused {e : ErrorT} (hmark : mark ≠ 0) (hacc : ¬ accepted) (he : e ≠ .success) :
      Row mark accepted [e]
  | relayed {e : ErrorT} {rest : List ErrorT} (hmark : mark ≠ 0) (hacc : accepted)
      (he : e ≠ .success) : Row mark accepted (.success :: e :: rest)

/-- The table of a node, told by what the node has heard. -/
structure Tallied (s : State × List Output) : Prop where
  once : Once s.2
  row : ∀ k, Row (s.1.receivedCounts k) (k ∈ taken s.2) (answers k s.2)

section Row
variable {mark : Word8} {accepted : Prop} {sents : List ErrorT}

/-- A frame whose count is marked is left, as it should be if the count was accepted. -/
theorem Row.lucky_leave (h : Row mark accepted sents) (hmark : mark ≠ 0) (a : ErrorT) :
    Lucky (sents ++ [a]) ↔ accepted := by
  cases h with
  | unheard hzero _ | sentOnce hzero _ => exact absurd hzero hmark
  | refused _ hacc he => exact iff_of_false (fun hlucky => he hlucky.1) hacc
  | relayed _ hacc he => exact iff_of_true ⟨rfl, he⟩ hacc

/-- A frame whose count is not marked is accepted, as it should be if no other was. -/
theorem Row.lucky_accept (h : Row mark accepted sents) (hmark : mark = 0) :
    Lucky (sents ++ [.success]) ↔ ¬ accepted := by
  cases h with
  | unheard _ hacc => exact iff_of_true trivial hacc
  | sentOnce _ hacc => exact iff_of_false (fun hlucky => hlucky.2 rfl) (not_not.mpr hacc)
  | refused hne _ _ | relayed hne _ _ => exact absurd hmark hne

theorem Row.lucky_fail (h : Row mark accepted sents) (hmark : mark = 0) {e : ErrorT}
    (he : e ≠ .success) : Lucky (sents ++ [e]) := by
  cases h with
  | unheard _ _ => trivial
  | sentOnce _ _ => exact ⟨rfl, he⟩
  | refused hne _ _ | relayed hne _ _ => exact absurd hmark hne

theorem Row.leave (h : Row mark accepted sents) (hmark : mark ≠ 0) (hacc : accepted)
    (a : ErrorT) : Row mark accepted (sents ++ [a]) := by
  cases h with
  | unheard hzero _ | sentOnce hzero _ => exact absurd hzero hmark
  | refused _ hnot _ => exact absurd hacc hnot
  | relayed _ _ he => exact .relayed hmark hacc he

theorem Row.accept (h : Row mark accepted sents) (hmark : mark = 0) (hnot : ¬ accepted)
    {accepted' : Prop} (hacc : accepted') : Row mark accepted' (sents ++ [.success]) := by
  cases h with
  | unheard _ _ => exact .sentOnce hmark hacc
  | sentOnce _ hold => exact absurd hold hnot
  | refused hne _ _ | relayed hne _ _ => exact absurd hmark hne

/-- A send that fails marks the count, whether or not it was accepted before. -/
theorem Row.fail (h : Row mark accepted sents) (hmark : mark = 0) {e : ErrorT}
    (he : e ≠ .success) : Row 1 accepted (sents ++ [e]) := by
  cases h with
  | unheard _ hacc => exact .refused (by decide) hacc he
  | sentOnce _ hacc => exact .relayed (by decide) hacc he
  | refused hne _ _ | relayed hne _ _ => exact absurd hmark hne

end Row

section Once
variable {out : List Output} {rm : TestSendMsg} {sent : ErrorT}

theorem taken_heard (o : Output) :
    taken (out ++ [.heard rm sent, o]) = taken out ++ (takenCount? o).toList := by
  unfold taken
  rw [List.filterMap_append]
  apply congrArg
  rw [List.filterMap_cons, List.filterMap_cons]
  cases takenCount? o <;> rfl

theorem takenCount?_handed : takenCount? (.handed rm sent) =
    if sent = .success then some rm.count else none := by
  cases sent <;> rfl

theorem inOrder_heard {o : Output} :
    InOrder (fun pre o => ∀ rm, o = .relayed rm → rm.count ∈ taken pre)
        (out ++ [.heard rm sent, o]) ↔
      InOrder (fun pre o => ∀ rm, o = .relayed rm → rm.count ∈ taken pre) out ∧
        ∀ rm', o = .relayed rm' → rm'.count ∈ taken out := by
  have hheard : taken (out ++ [.heard rm sent]) = taken out := by simp [taken, takenCount?]
  rw [List.append_cons, inOrder_append_one, inOrder_append_one, hheard]
  exact and_congr_left fun _ => and_iff_left fun _ ho => (nomatch ho)

theorem once_leave : Once (out ++ [.heard rm sent, .relayed rm]) ↔
    Once out ∧ rm.count ∈ taken out := by
  have htaken : taken (out ++ [.heard rm sent, .relayed rm]) = taken out :=
    (taken_heard _).trans (List.append_nil _)
  constructor
  · rintro ⟨honce, hrelayed⟩
    obtain ⟨hold, hlast⟩ := inOrder_heard.mp hrelayed
    exact ⟨⟨htaken ▸ honce, hold⟩, hlast rm rfl⟩
  · rintro ⟨⟨honce, hrelayed⟩, hmem⟩
    refine ⟨htaken ▸ honce, inOrder_heard.mpr ⟨hrelayed, fun rm' ho => ?_⟩⟩
    obtain rfl := Output.relayed.inj ho
    exact hmem

theorem once_accept : Once (out ++ [.heard rm sent, .handed rm .success]) ↔
    Once out ∧ rm.count ∉ taken out := by
  have htaken : taken (out ++ [.heard rm sent, .handed rm .success]) =
      taken out ++ [rm.count] := taken_heard _
  constructor
  · rintro ⟨honce, hrelayed⟩
    rw [htaken, List.nodup_append] at honce
    obtain ⟨hold, -, hdisjoint⟩ := honce
    exact ⟨⟨hold, (inOrder_heard.mp hrelayed).1⟩, fun hmem =>
      hdisjoint _ hmem _ (List.mem_singleton_self _) rfl⟩
  · rintro ⟨⟨honce, hrelayed⟩, hnew⟩
    refine ⟨?_, inOrder_heard.mpr ⟨hrelayed, fun _ ho => (nomatch ho)⟩⟩
    rw [htaken, ← List.concat_eq_append]
    exact honce.concat hnew

theorem once_fail {e : ErrorT} (he : e ≠ .success) :
    Once (out ++ [.heard rm sent, .handed rm e]) ↔ Once out := by
  have htaken : taken (out ++ [.heard rm sent, .handed rm e]) = taken out := by
    rw [taken_heard, takenCount?_handed, if_neg he]
    exact List.append_nil _
  constructor
  · rintro ⟨honce, hrelayed⟩
    exact ⟨htaken ▸ honce, (inOrder_heard.mp hrelayed).1⟩
  · rintro ⟨honce, hrelayed⟩
    exact ⟨htaken ▸ honce, inOrder_heard.mpr ⟨hrelayed, fun _ ho => (nomatch ho)⟩⟩

end Once

theorem answers_heard {out : List Output} {rm : TestSendMsg} {sent : ErrorT} {o : Output}
    (ho : ∀ k, answer? k o = none) (k : Word8) :
    answers k (out ++ [.heard rm sent, o]) =
      answers k out ++ if rm.count = k then [sent] else [] := by
  unfold answers
  rw [List.filterMap_append]
  apply congrArg
  rw [List.filterMap_cons, List.filterMap_cons, ho]
  by_cases hk : rm.count = k
  · simp [answer?, hk]
  · simp [answer?, hk]

section Nodes
variable {s : State × List Output} {t : State}

theorem Tallied.congr (h : Tallied s) (ht : t.receivedCounts = s.1.receivedCounts) :
    Tallied (t, s.2) :=
  ⟨h.once, fun k => ht ▸ h.row k⟩

/-- A frame is heard: only the row of its count may change. -/
theorem Tallied.hear (h : Tallied s) {rm : TestSendMsg} {sent : ErrorT} {o : Output}
    (ho : ∀ k, answer? k o = none) (honce : Once (s.2 ++ [.heard rm sent, o]))
    (hmarks : ∀ k, k ≠ rm.count → t.receivedCounts k = s.1.receivedCounts k)
    (htakes : ∀ k, k ≠ rm.count → k ∉ takenCount? o)
    (hrow : Row (t.receivedCounts rm.count) (rm.count ∈ taken (s.2 ++ [.heard rm sent, o]))
      (answers rm.count s.2 ++ [sent])) :
    Tallied (t, s.2 ++ [.heard rm sent, o]) := by
  refine ⟨honce, fun k => ?_⟩
  change Row (t.receivedCounts k) _ _
  rw [answers_heard ho]
  by_cases hk : k = rm.count
  · rw [hk, if_pos rfl]
    exact hrow
  · have hsame : k ∈ taken (s.2 ++ [.heard rm sent, o]) ↔ k ∈ taken s.2 := by
      rw [taken_heard, List.mem_append, Option.mem_toList]
      exact or_iff_left (htakes k hk)
    rw [if_neg (Ne.symm hk), List.append_nil, hmarks k hk, hsame]
    exact h.row k

/-- A reception is right exactly if the frame is new or the answers are right for it, and
then the table still tells what the node has heard. -/
theorem Tallied.reception (h : Tallied s) {ans : Answers} {msg : Message} {new : List Output}
    (hreception : Reception ans msg s.1 t new) :
    (Once (s.2 ++ new) ↔ Spares s ans msg) ∧ (Once (s.2 ++ new) → Tallied (t, s.2 ++ new)) := by
  have hrow := h.row msg.payload.count
  cases hreception with
  | passed ht hdeaf =>
    rw [List.append_nil]
    have hspares : Spares s ans msg := fun hlen hbusy =>
      absurd (hdeaf hlen) (Bool.eq_false_iff.mp hbusy)
    exact ⟨iff_of_true h.once hspares, fun _ => h.congr ht⟩
  | relayed ht hlen hbusy hmark =>
    have hspares : Spares s ans msg ↔ msg.payload.count ∈ taken s.2 := by
      rw [← hrow.lucky_leave hmark ans.sent]
      exact ⟨fun hs => hs hlen hbusy, fun hs _ _ => hs⟩
    rw [once_leave, hspares]
    refine ⟨and_iff_right h.once, fun ⟨honce, hmem⟩ => ?_⟩
    refine h.hear (fun _ => rfl) (once_leave.mpr ⟨honce, hmem⟩) (fun k _ => congrFun ht k)
      (fun k _ hk => nomatch hk) ?_
    rw [ht, taken_heard, takenCount?, Option.toList_none, List.append_nil]
    exact hrow.leave hmark hmem ans.sent
  | taken ht hlen hbusy hnew hsent =>
    have hspares : Spares s ans msg ↔ msg.payload.count ∉ taken s.2 := by
      rw [← hrow.lucky_accept hnew, ← hsent]
      exact ⟨fun hs => hs hlen hbusy, fun hs _ _ => hs⟩
    rw [hsent, once_accept, hspares]
    refine ⟨and_iff_right h.once, fun ⟨honce, hfresh⟩ => ?_⟩
    refine h.hear (fun _ => rfl) (once_accept.mpr ⟨honce, hfresh⟩) (fun k _ => congrFun ht k)
      (fun k hk hmem => hk (Option.some.inj hmem).symm) ?_
    rw [ht]
    refine hrow.accept hnew hfresh ?_
    rw [taken_heard]
    exact List.mem_append_right _ (List.mem_singleton_self _)
  | failed ht hlen hbusy hnew hsent =>
    have hspares : Spares s ans msg := fun _ _ => hrow.lucky_fail hnew hsent
    rw [once_fail hsent]
    refine ⟨iff_of_true h.once hspares, fun honce => ?_⟩
    refine h.hear (fun _ => rfl) ((once_fail hsent).mpr honce) (fun k hk => ?_)
      (fun k _ hk => ?_) ?_
    · rw [ht, Function.update_of_ne hk]
    · rw [takenCount?_handed, if_neg hsent] at hk
      cases hk
    · rw [ht, Function.update_self, taken_heard, takenCount?_handed, if_neg hsent,
        Option.toList_none, List.append_nil]
      exact hrow.fail hnew hsent

end Nodes

section Network
variable {V : Type} [DecidableEq V] {tosNodeId : V → Word16}

/-- The frame that comes in with a step: at which node, and with what answers. -/
def comesIn (c : Network.Config (fun _ : V => State × List Output) Message) :
    Network.Event (fun _ : V => Event) (fun _ => Answers) → Option (V × Answers × Message)
  | .act v (.heard ans msg) => some (v, ans, msg)
  | .act _ .transmit | .act _ .sendDone => none
  | .deliver i v ans => c.log[i]?.map fun entry => (v, ans, entry.2)

/-- Each node hears each count at most once while it is not busy. -/
def HeardOnce (c : Network.Config (fun _ : V => State × List Output) Message)
    (e : Network.Event (fun _ : V => Event) (fun _ => Answers)) : Prop :=
  ∀ p ∈ comesIn c e, Fresh (c.node p.1) p.2.2

/-- A node hears a count again only after a first frame whose send succeeded, and then the
send of the second fails. -/
def Spared (c : Network.Config (fun _ : V => State × List Output) Message)
    (e : Network.Event (fun _ : V => Event) (fun _ => Answers)) : Prop :=
  ∀ p ∈ comesIn c e, Spares (c.node p.1) p.2.1 p.2.2

instance (c : Network.Config (fun _ : V => State × List Output) Message)
    (e : Network.Event (fun _ : V => Event) (fun _ => Answers)) : Decidable (HeardOnce c e) :=
  inferInstanceAs (Decidable (∀ p ∈ comesIn c e, Fresh (c.node p.1) p.2.2))

instance (c : Network.Config (fun _ : V => State × List Output) Message)
    (e : Network.Event (fun _ : V => Event) (fun _ => Answers)) : Decidable (Spared c e) :=
  inferInstanceAs (Decidable (∀ p ∈ comesIn c e, Spares (c.node p.1) p.2.1 p.2.2))

/-- Every node has each count accepted at most once, and leaves a frame as relayed only
after that. -/
def RelaysOnce [Fintype V]
    (c : Network.Config (fun _ : V => State × List Output) Message) : Prop :=
  (∀ v, (taken (c.node v).2).Nodup ∧
    ∀ pre rm post, (c.node v).2 = pre ++ .relayed rm :: post → rm.count ∈ taken pre) ∧
  ∀ k, ∑ v, (taken (c.node v).2).count k ≤ Fintype.card V

/-- A step with a frame is a reception at its node; no other step touches a table. -/
theorem watched_step {c c' : Network.Config (fun _ : V => State × List Output) Message}
    {e : Network.Event (fun _ : V => Event) (fun _ => Answers)}
    (hstep : (watched tosNodeId).system.step c e = some c') :
    (∃ v ans msg t new, comesIn c e = some (v, ans, msg) ∧
      Reception ans msg (c.node v).1 t new ∧
      c'.node = Function.update c.node v (t, (c.node v).2 ++ new)) ∨
    (comesIn c e = none ∧ ∃ v t, t.receivedCounts = (c.node v).1.receivedCounts ∧
      c'.node = Function.update c.node v (t, (c.node v).2)) := by
  obtain ⟨v, a, s, fs, rfl, hhandle, rfl⟩ | ⟨i, v, ans, u, msg, rfl, hlog, rfl⟩ :=
    (watched tosNodeId).system_step hstep
  · obtain ⟨⟨t, gs⟩, hrun, hpair⟩ := Option.map_eq_some_iff.mp hhandle
    obtain ⟨rfl, rfl⟩ := Prod.mk.inj hpair
    have hquiet : ∀ (t : State) (fs : List Message),
        (c.put v (t, (c.node v).2 ++ []) fs).node =
          Function.update c.node v (t, (c.node v).2) := fun t fs => by
      rw [List.append_nil]
      rfl
    cases a with
    | heard ans msg =>
      obtain ⟨rfl, -⟩ := Prod.mk.inj (Option.some.inj hrun)
      exact .inl ⟨v, ans, msg, _, _, rfl, receive_reception (tosNodeId v) ans msg _, rfl⟩
    | transmit =>
      obtain ⟨-, hsame⟩ := Option.ite_none_right_eq_some.mp hrun
      obtain ⟨rfl, -⟩ := Prod.mk.inj (Option.some.inj hsame)
      exact .inr ⟨rfl, v, _, rfl, hquiet _ _⟩
    | sendDone =>
      obtain ⟨-, hdone⟩ := Option.ite_none_right_eq_some.mp hrun
      obtain ⟨rfl, -⟩ := Prod.mk.inj (Option.some.inj hdone)
      refine .inr ⟨rfl, v, _, ?_, hquiet _ _⟩
      rfl
  · have hcomes : comesIn c (.deliver i v ans) = some (v, ans, msg) := by
      simp [comesIn, hlog]
    exact .inl ⟨v, ans, msg, _, _, hcomes, receive_reception (tosNodeId v) ans msg _, rfl⟩

variable {c c' : Network.Config (fun _ : V => State × List Output) Message}
  {e : Network.Event (fun _ : V => Event) (fun _ => Answers)}

theorem tallied_step (htallied : ∀ v, Tallied (c.node v)) (hspared : Spared c e)
    (hstep : (watched tosNodeId).system.step c e = some c') : ∀ v, Tallied (c'.node v) := by
  obtain ⟨v, ans, msg, t, new, hcomes, hreception, hnode⟩ | ⟨-, v, t, ht, hnode⟩ :=
    watched_step hstep
  · rw [hnode, Function.forall_update_iff c.node fun _ s => Tallied s]
    obtain ⟨hiff, hnext⟩ := (htallied v).reception hreception
    exact ⟨hnext (hiff.mpr (hspared _ hcomes)), fun w _ => htallied w⟩
  · rw [hnode, Function.forall_update_iff c.node fun _ s => Tallied s]
    exact ⟨(htallied v).congr ht, fun w _ => htallied w⟩

theorem spared_of_once (htallied : ∀ v, Tallied (c.node v))
    (hstep : (watched tosNodeId).system.step c e = some c') (honce : ∀ v, Once (c'.node v).2) :
    Spared c e := by
  intro p hp
  obtain ⟨v, ans, msg, t, new, hcomes, hreception, hnode⟩ | ⟨hnone, -⟩ := watched_step hstep
  · obtain rfl := Option.some.inj (hp.symm.trans hcomes)
    have hlast := honce v
    rw [hnode, Function.update_self] at hlast
    exact ((htallied v).reception hreception).1.mp hlast
  · cases hp.symm.trans hnone

omit [DecidableEq V] in
theorem relaysOnce_iff [Fintype V] : RelaysOnce c ↔ ∀ v, Once (c.node v).2 := by
  constructor
  · intro h v
    exact ⟨(h.1 v).1, fun pre o post heq rm ho => (h.1 v).2 pre rm post (ho ▸ heq)⟩
  · intro h
    refine ⟨fun v => ⟨(h v).once, fun pre rm post heq => ?_⟩, fun k => ?_⟩
    · exact (h v).relayed pre (.relayed rm) post heq rm rfl
    · have hone : ∀ v ∈ Finset.univ, (taken (c.node v).2).count k ≤ 1 := fun v _ =>
        List.nodup_iff_count_le_one.mp (h v).once k
      simpa using Finset.sum_le_card_nsmul Finset.univ _ 1 hone

end Network

/-- If every node hears every count once, every node has each count accepted at most once
and leaves a frame as relayed only after that, in a network of any size that loses, repeats
and reorders as it likes. Where a count is heard again this is so exactly if the first send
succeeded and the second fails, against the branch that marks the count. -/
theorem digit_relayed_once {V : Type} [DecidableEq V] [Fintype V] {tosNodeId : V → Word16}
    {es : List (Network.Event (fun _ : V => Event) (fun _ => Answers))}
    {c : Network.Config (fun _ : V => State × List Output) Message}
    (hrun : (watched tosNodeId).system.run es = some c) :
    ((watched tosNodeId).system.AllowedFrom HeardOnce (watched tosNodeId).system.init es →
      (watched tosNodeId).system.Always RelaysOnce (watched tosNodeId).system.init es) ∧
    ((watched tosNodeId).system.Always RelaysOnce (watched tosNodeId).system.init es ↔
      (watched tosNodeId).system.AllowedFrom Spared (watched tosNodeId).system.init es) := by
  have hinit : ∀ v, Tallied ((watched tosNodeId).system.init.node v) := fun v =>
    ⟨⟨List.nodup_nil, inOrder_nil⟩, fun k => .unheard rfl List.not_mem_nil⟩
  have hexact : (watched tosNodeId).system.Always RelaysOnce
      (watched tosNodeId).system.init es ↔
      (watched tosNodeId).system.AllowedFrom Spared (watched tosNodeId).system.init es := by
    refine System.always_iff_allowedFrom
      (fun c e c' (htallied : ∀ v, Tallied (c.node v)) hspared hstep =>
        tallied_step htallied hspared hstep) ?_ ?_ es hinit hrun
    · exact fun c htallied => relaysOnce_iff.mpr fun v => (htallied v).once
    · exact fun c e c' htallied hstep honce =>
        spared_of_once htallied hstep (relaysOnce_iff.mp honce)
  refine ⟨fun hheard => hexact.mpr (System.AllowedFrom.mono ?_ hheard), hexact⟩
  exact fun c e hheard p hp => (hheard p hp).spares p.2.1

/-- Two digits go from one node to the next. In another run the first comes twice more, and
is left at last. -/
theorem digit_relayed_once_pair :
    ((watched fun v : Bool => if v then 11 else 12).system.Always RelaysOnce
        (watched fun v : Bool => if v then 11 else 12).system.init
        [.act false (.heard ⟨.success, 0⟩ ⟨3, ⟨9, 2, 0⟩⟩), .act false .transmit,
          .act false (.heard ⟨.success, 0⟩ ⟨3, ⟨8, 1, 1⟩⟩), .act false .transmit,
          .deliver 1 true ⟨.success, 0⟩, .deliver 0 true ⟨.ebusy, 0⟩,
          .deliver 1 true ⟨.success, 0⟩]) ∧
      (watched fun v : Bool => if v then 11 else 12).system.Always RelaysOnce
        (watched fun v : Bool => if v then 11 else 12).system.init
        [.act false (.heard ⟨.success, 0⟩ ⟨3, ⟨9, 2, 0⟩⟩), .act false .transmit,
          .deliver 0 true ⟨.success, 0⟩, .deliver 0 true ⟨.ebusy, 0⟩, .act true .sendDone,
          .deliver 0 true ⟨.success, 0⟩] := by
  refine ⟨(digit_relayed_once rfl).1 ?_, (digit_relayed_once rfl).2.mpr ?_⟩
  · decide +kernel
  · decide +kernel

/-- A node passes the same frame on twice, and leaves another that it has never passed on. -/
theorem digit_relayed_twice :
    (∃ c, (watched fun _ : Unit => 11).system.run
        [.act () (.heard ⟨.success, 0⟩ ⟨3, ⟨9, 2, 0⟩⟩), .act () .sendDone,
          .act () (.heard ⟨.success, 0⟩ ⟨3, ⟨9, 2, 0⟩⟩)] = some c ∧
      taken (c.node ()).2 = [0, 0]) ∧
    ∃ c, (watched fun _ : Unit => 11).system.run
        [.act () (.heard ⟨.success, 0⟩ ⟨3, ⟨9, 2, 0⟩⟩),
          .act () (.heard ⟨.ebusy, 0⟩ ⟨3, ⟨8, 1, 1⟩⟩), .act () .sendDone,
          .act () (.heard ⟨.success, 0⟩ ⟨3, ⟨8, 1, 1⟩⟩)] = some c ∧
      (c.node ()).2.getLast? = some (.relayed ⟨8, 1, 1⟩) ∧ 1 ∉ taken (c.node ()).2 :=
  ⟨⟨_, rfl, by decide⟩, _, rfl, by decide, by decide⟩

end WsnContest.Digit.RadioToLeds
