import WsnContest.Lib.System
import WsnContest.Tinyos

/-! `SerialToRadioC`, node 0 of the digit contest: on a timer, or when the PC asks for it,
it broadcasts the next digit with its color and its number. The digit and the color are
looked up with the number that is left in the packet, before the new one is written. -/
namespace WsnContest.Digit
open Tinyos

/-- `test_send_msg_t`. -/
structure TestSendMsg where
  number : Word8
  color : Word8
  count : Word8
  deriving DecidableEq, Repr

def sizeofTestSendMsg : Word8 := 3

end WsnContest.Digit

namespace WsnContest.Digit.SerialToRadio
open Tinyos Lib

def sendCntSum : Word8 := 30
def numberArray : List Word8 := [9, 8, 7, 6, 5, 4, 3, 2, 1, 0]
def colorArray : List Word8 := [2, 1, 0]

/-- The variables of the component, and whether `Timer0` runs. -/
structure State where
  busy : Bool := false
  packet : MessageBuffer TestSendMsg := { payload := ⟨0, 0, 0⟩ }
  serialMsg : TestSendMsg := ⟨0, 0, 0⟩
  count : Word8 := 0
  timer0 : Bool := false
  deriving DecidableEq, Repr

/-- `Boot.booted`. -/
def booted (s : State) : State := { s with timer0 := true }

/-- `Timer0.fired`, with the frame that `AMSend.send` accepts, if any. -/
def timer0Fired (sent : ErrorT) (s : State) : State × List TestSendMsg :=
  let send := s.packet.payload
  let send := { send with number := numberArray.getD (send.count.val % 10) 0 }
  let send := { send with color := colorArray.getD (send.count.val % 3) 0 }
  let send := { send with count := s.count }
  let s := { s with packet := { s.packet with payload := send } }
  if !s.busy && s.count < sendCntSum then
    let s := { s with packet := s.packet.send sizeofTestSendMsg sent }
    if sent = .success then
      ({ s with count := s.count + 1, busy := true, timer0 := true }, [send])
    else (s, [])
  else (s, [])

/-- `AMSend.sendDone`. -/
def sendDone (s : State) : Option State :=
  s.packet.done.map fun packet => { s with packet := packet, busy := false }

/-- `SerialReceive.receive`, which looks at neither the length nor the contents. -/
def serialReceive (msg : TestSendMsg) (s : State) : State :=
  { s with serialMsg := msg, timer0 := true }

/-- `sent` answers the `AMSend.send` that the handler may call. -/
inductive Event where
  | timer0Fired (sent : ErrorT)
  | sendDone
  | serialReceive (msg : TestSendMsg)
  deriving DecidableEq, Repr

/-- The timer runs once each time it is started. -/
def step (s : State) : Event → Option (State × List TestSendMsg)
  | .timer0Fired sent =>
    if s.timer0 then some (timer0Fired sent { s with timer0 := false }) else none
  | .sendDone => (sendDone s).map fun s => (s, [])
  | .serialReceive msg => some (serialReceive msg s, [])

/-- Its reports are the accepted frames. -/
def machine : Machine State Event TestSendMsg where
  init := booted {}
  step := step

/-- The `k`-th digit of the contest. -/
def digit (k : ℕ) : TestSendMsg :=
  ⟨numberArray.getD (k % 10) 0, colorArray.getD (k % 3) 0, Fin.ofNat _ k⟩

/-- The digits were accepted in their order, no more than there are, and what the radio
may be reading is the last of them. -/
structure Counts (s : State × List TestSendMsg) : Prop where
  accepted : s.2 = (List.range s.2.length).map digit
  onAir : ∀ p ∈ s.1.packet.onAir, p = (sizeofTestSendMsg, digit (s.2.length - 1))
  limit : s.2.length ≤ sendCntSum.val

/-- The timer fires while nothing is in flight, and an accepted frame finds its own
number in the packet, where an earlier attempt has left it. -/
def Prepared (s : State × List TestSendMsg) : Event → Prop
  | .timer0Fired sent => s.1.packet.outstanding = 0 ∧
      (sent = .success → s.1.count < sendCntSum → s.1.packet.payload.count = s.1.count)
  | .sendDone | .serialReceive _ => True

instance (s : State × List TestSendMsg) : (e : Event) → Decidable (Prepared s e)
  | .timer0Fired sent => inferInstanceAs (Decidable (s.1.packet.outstanding = 0 ∧
      (sent = .success → s.1.count < sendCntSum → s.1.packet.payload.count = s.1.count)))
  | .sendDone | .serialReceive _ => .isTrue trivial

/-- The counters, whatever the digits. -/
structure Tallied (s : State × List TestSendMsg) : Prop where
  count : s.1.count.val = s.2.length
  limit : s.2.length ≤ sendCntSum.val
  outstanding : s.1.packet.outstanding = if s.1.busy then 1 else 0
  behind : s.1.packet.payload.count ≤ s.1.count
  begun : s.1.busy = true → s.2 ≠ []

section Steps
variable {s : State × List TestSendMsg}

/-- What the timer writes before it asks whether it may send. -/
def written (s : State) : TestSendMsg :=
  ⟨numberArray.getD (s.packet.payload.count.val % 10) 0,
    colorArray.getD (s.packet.payload.count.val % 3) 0, s.count⟩

/-- The three ways of a firing. -/
inductive Firing (sent : ErrorT) (s : State) : State × List TestSendMsg → Prop
  | held (hheld : s.busy = true ∨ sendCntSum ≤ s.count) :
      Firing sent s ({ s with packet := { s.packet with payload := written s } }, [])
  | accepted (hbusy : s.busy = false) (hcount : s.count < sendCntSum) (hsent : sent = .success) :
      Firing sent s
        ({ s with
            packet := ⟨written s, sizeofTestSendMsg, s.packet.outstanding + 1⟩
            count := s.count + 1, busy := true, timer0 := true }, [written s])
  | refused {length : Word8} (hbusy : s.busy = false) (hcount : s.count < sendCntSum)
      (hsent : sent ≠ .success) :
      Firing sent s
        ({ s with packet := ⟨written s, length, s.packet.outstanding⟩ }, [])

theorem timer0Fired_firing (sent : ErrorT) (s : State) : Firing sent s (timer0Fired sent s) := by
  have hwritten : timer0Fired sent s =
      if !s.busy && s.count < sendCntSum then
        let packet : MessageBuffer TestSendMsg := { s.packet with payload := written s }
        if sent = .success then
          ({ s with
              packet := packet.send sizeofTestSendMsg sent
              count := s.count + 1, busy := true, timer0 := true }, [written s])
        else ({ s with packet := packet.send sizeofTestSendMsg sent }, [])
      else ({ s with packet := { s.packet with payload := written s } }, []) := rfl
  rw [hwritten]
  split
  · next hguard =>
    obtain ⟨hbusy, hcount⟩ : s.busy = false ∧ s.count < sendCntSum := by simpa using hguard
    dsimp only
    split
    · next hsent =>
      subst hsent
      exact .accepted hbusy hcount rfl
    · next hsent =>
      simp only [MessageBuffer.send, if_neg hsent]
      exact .refused hbusy hcount hsent
  · next hguard =>
    apply Firing.held
    by_cases hbusy : s.busy = true
    · exact .inl hbusy
    · right
      simpa [hbusy] using hguard

theorem tallied_step (h : Tallied s) {e : Event} {t : State} {out : List TestSendMsg}
    (hstep : step s.1 e = some (t, out)) : Tallied (t, s.2 ++ out) := by
  cases e with
  | timer0Fired sent =>
    obtain ⟨-, hpair⟩ := Option.ite_none_right_eq_some.mp hstep
    have hfiring := timer0Fired_firing sent { s.1 with timer0 := false }
    rw [show timer0Fired sent { s.1 with timer0 := false } = (t, out) from
      Option.some.inj hpair] at hfiring
    cases hfiring with
    | held hheld =>
      rw [List.append_nil]
      exact ⟨h.count, h.limit, h.outstanding, le_rfl, h.begun⟩
    | accepted hbusy hcount hsent =>
      have hlt : s.1.count.val < 30 := hcount
      have hnext : (s.1.count + 1).val = s.1.count.val + 1 :=
        Fin.val_add_one_of_lt' (by omega)
      have hidle : s.1.packet.outstanding = 0 := by
        rw [h.outstanding]
        exact if_neg (by simpa using hbusy)
      refine ⟨?_, ?_, ?_, ?_, by simp⟩
      · simp only [List.length_append, List.length_singleton, hnext, h.count]
      · simp only [List.length_append, List.length_singleton, ← h.count]
        exact hlt
      · simp [hidle]
      · exact Fin.le_def.mpr (by simp only [written, hnext]; omega)
    | refused hbusy hcount hsent =>
      rw [List.append_nil]
      exact ⟨h.count, h.limit, h.outstanding, le_rfl, h.begun⟩
  | sendDone =>
    obtain ⟨u, hdone, hpair⟩ := Option.map_eq_some_iff.mp hstep
    obtain ⟨packet, hpacket, rfl⟩ := Option.map_eq_some_iff.mp hdone
    cases hpair
    obtain ⟨hout, rfl⟩ := MessageBuffer.done_eq hpacket
    have hone := h.outstanding
    rw [List.append_nil]
    refine ⟨h.count, h.limit, ?_, h.behind, nofun⟩
    cases hbusy : s.1.busy with
    | true => simp [hone, hbusy]
    | false => simp [hone, hbusy]
  | serialReceive msg =>
    cases hstep
    rw [List.append_nil]
    exact ⟨h.count, h.limit, h.outstanding, h.behind, h.begun⟩

/-- The digit and the color together tell the numbers of the contest apart. -/
theorem lookup_injective : ∀ a < 30, ∀ b < 30,
    numberArray.getD (a % 10) 0 = numberArray.getD (b % 10) 0 →
    colorArray.getD (a % 3) 0 = colorArray.getD (b % 3) 0 → a = b := by
  decide

/-- What is written is the next digit exactly if its number was in the packet before. -/
theorem written_eq_digit_iff (h : Tallied s) (hcount : s.1.count < sendCntSum) :
    written s.1 = digit s.2.length ↔ s.1.packet.payload.count = s.1.count := by
  have hlt : s.1.count.val < 30 := hcount
  have hbehind : s.1.packet.payload.count.val ≤ s.1.count.val := h.behind
  rw [← h.count]
  constructor
  · intro hsame
    have hnumber := congrArg TestSendMsg.number hsame
    have hcolor := congrArg TestSendMsg.color hsame
    exact Fin.ext (lookup_injective _ (by omega) _ (by omega) hnumber hcolor)
  · intro hsame
    have hback : Fin.ofNat (2 ^ 8) s.1.count.val = s.1.count := Fin.ofNat_val_eq_self _
    rw [written, digit, hsame, hback]

/-- Where nothing is in flight, only the accepted frames matter. -/
theorem counts_of_idle {t : State} {out : List TestSendMsg} (hidle : t.packet.outstanding = 0)
    (haccepted : out = (List.range out.length).map digit) (hlimit : out.length ≤ sendCntSum.val) :
    Counts (t, out) := by
  refine ⟨haccepted, fun p hp => ?_, hlimit⟩
  exact absurd hidle (MessageBuffer.onAir_eq hp).1

/-- A firing that may not send harms a frame in flight, and nothing else. -/
theorem counts_held (h : Counts s) (htallied : Tallied s) (sent : ErrorT) {t : State}
    (hheld : s.1.busy = true ∨ sendCntSum ≤ s.1.count)
    (ht : t.packet = { s.1.packet with payload := written s.1 }) :
    Counts (t, s.2) ↔ Prepared s (.timer0Fired sent) := by
  by_cases hidle : s.1.packet.outstanding = 0
  · have hstill : t.packet.outstanding = 0 := by rw [ht, hidle]
    refine iff_of_true (counts_of_idle hstill h.accepted h.limit) ⟨hidle, fun _ hcount => ?_⟩
    rcases hheld with hbusy | hover
    · have hone := htallied.outstanding
      rw [hidle, if_pos hbusy] at hone
      cases hone
    · exact absurd hcount (not_lt.mpr hover)
  · -- the frame in flight gets the next number
    refine iff_of_false (fun hcounts => ?_) fun hprepared => hidle hprepared.1
    have honAir : t.packet.onAir = some (s.1.packet.length, written s.1) := by
      rw [ht]
      exact if_pos hidle
    have hnumber := congrArg (fun p => p.2.count.val) (hcounts.onAir _ honAir)
    have hbusy : s.1.busy = true := by
      by_contra hbusy
      exact hidle (htallied.outstanding.trans (if_neg hbusy))
    have hsome := List.length_pos_iff.mpr (htallied.begun hbusy)
    have hlimit : s.2.length ≤ 30 := h.limit
    simp only [written, digit, htallied.count, Fin.val_ofNat] at hnumber
    omega

/-- A frame that is accepted is the next digit, or the count is broken. -/
theorem counts_accepted (h : Counts s) (htallied : Tallied s) {t : State}
    (hbusy : s.1.busy = false) (hcount : s.1.count < sendCntSum)
    (ht : t.packet = ⟨written s.1, sizeofTestSendMsg, s.1.packet.outstanding + 1⟩) :
    Counts (t, s.2 ++ [written s.1]) ↔ Prepared s (.timer0Fired .success) := by
  have hidle : s.1.packet.outstanding = 0 :=
    htallied.outstanding.trans (if_neg (by simpa using hbusy))
  have hprepared : Prepared s (.timer0Fired .success) ↔ s.1.packet.payload.count = s.1.count :=
    ⟨fun hall => hall.2 rfl hcount, fun hsame => ⟨hidle, fun _ _ => hsame⟩⟩
  rw [hprepared, ← written_eq_digit_iff htallied hcount]
  have hlength : (s.2 ++ [written s.1]).length = s.2.length + 1 := by simp
  have hrange : (List.range (s.2 ++ [written s.1]).length).map digit =
      s.2 ++ [digit s.2.length] := by
    rw [hlength, List.range_succ, List.map_append, ← h.accepted, List.map_singleton]
  constructor
  · intro hcounts
    have hsame := hcounts.accepted.trans hrange
    exact List.singleton_inj.mp (List.append_cancel_left hsame)
  · intro hlast
    refine ⟨?_, fun p hp => ?_, ?_⟩
    · exact (congrArg (fun f => s.2 ++ [f]) hlast).trans hrange.symm
    · dsimp only at hp
      rw [ht] at hp
      obtain ⟨-, rfl⟩ := MessageBuffer.onAir_eq hp
      simp [hlast]
    · have hless : s.1.count.val < 30 := hcount
      have hsame := htallied.count
      have hroom : s.2.length + 1 ≤ 30 := by omega
      exact hlength.trans_le hroom

theorem counts_step (h : Counts s) (htallied : Tallied s) {e : Event} {t : State}
    {out : List TestSendMsg} (hstep : step s.1 e = some (t, out)) :
    Counts (t, s.2 ++ out) ↔ Prepared s e := by
  have hafter := tallied_step htallied hstep
  cases e with
  | timer0Fired sent =>
    obtain ⟨-, hpair⟩ := Option.ite_none_right_eq_some.mp hstep
    have hfiring := timer0Fired_firing sent { s.1 with timer0 := false }
    rw [show timer0Fired sent { s.1 with timer0 := false } = (t, out) from
      Option.some.inj hpair] at hfiring
    cases hfiring with
    | held hheld =>
      rw [List.append_nil]
      exact counts_held h htallied sent hheld rfl
    | accepted hbusy hcount hsent =>
      subst hsent
      exact counts_accepted h htallied hbusy hcount rfl
    | refused hbusy hcount hsent =>
      have hidle : s.1.packet.outstanding = 0 :=
        htallied.outstanding.trans (if_neg (by simpa using hbusy))
      rw [List.append_nil]
      refine iff_of_true (counts_of_idle hidle h.accepted h.limit) ⟨hidle, ?_⟩
      exact fun hsuccess => absurd hsuccess hsent
  | sendDone =>
    obtain ⟨u, hdone, hpair⟩ := Option.map_eq_some_iff.mp hstep
    obtain ⟨packet, hpacket, rfl⟩ := Option.map_eq_some_iff.mp hdone
    cases hpair
    rw [List.append_nil] at hafter ⊢
    exact iff_of_true (counts_of_idle hafter.outstanding h.accepted h.limit) trivial
  | serialReceive msg =>
    cases hstep
    rw [List.append_nil]
    exact iff_of_true ⟨h.accepted, h.onAir, h.limit⟩ trivial

end Steps

theorem tallied_init : Tallied machine.system.init := by
  refine ⟨rfl, by decide, rfl, le_rfl, nofun⟩

theorem counts_init : Counts machine.system.init :=
  counts_of_idle rfl rfl (by decide)

/-- Along every run the source counts correctly exactly if every firing of the timer is
prepared. -/
theorem source_counts_iff (es : List Event) {t : State × List TestSendMsg}
    (hrun : machine.system.run es = some t) :
    machine.system.Always Counts machine.system.init es ↔
      machine.system.AllowedFrom Prepared machine.system.init es := by
  apply Machine.always_iff_allowedFrom (fun s => Counts s ∧ Tallied s) (fun _ h => h.1) ?_ es
    ⟨counts_init, tallied_init⟩ hrun
  rintro s e t out ⟨hcounts, htallied⟩ hstep
  have hiff := counts_step hcounts htallied hstep
  exact ⟨fun hprepared => ⟨hiff.mpr hprepared, tallied_step htallied hstep⟩, hiff.mp⟩

/-- The second digit is right if a first attempt to send it has failed. -/
theorem source_counts_second :
    machine.system.Always Counts machine.system.init
      [.timer0Fired .success, .sendDone, .timer0Fired .ebusy, .serialReceive ⟨0, 0, 0⟩,
        .timer0Fired .success, .sendDone] :=
  (source_counts_iff _ rfl).mpr (by decide)

/-- Without that it is the first one again under the next number, and a timer that fires
too early changes the number of a frame in flight. -/
theorem source_repeats_digit :
    (∃ s, machine.system.run [.timer0Fired .success, .sendDone, .timer0Fired .success] = some s ∧
      s.2 = [⟨9, 2, 0⟩, ⟨9, 2, 1⟩] ∧ digit 1 = ⟨8, 1, 1⟩ ∧ ¬ Counts s) ∧
    ∃ s, machine.system.run [.timer0Fired .success, .serialReceive ⟨0, 0, 0⟩,
        .timer0Fired .ebusy] = some s ∧
      s.2 = [⟨9, 2, 0⟩] ∧ s.1.packet.onAir = some (3, ⟨9, 2, 1⟩) ∧ ¬ Counts s := by
  refine ⟨⟨_, rfl, rfl, by decide, fun h => ?_⟩, _, rfl, rfl, rfl, fun h => ?_⟩
  · exact absurd h.accepted (by decide)
  · exact absurd (h.onAir _ rfl) (by decide)

end WsnContest.Digit.SerialToRadio
