import Mathlib.Algebra.GroupWithZero.Nat
import Mathlib.Order.Fin.Basic

/-! The parts of TinyOS that every program of the repository rests on. -/
namespace WsnContest.Tinyos

abbrev Word8 := Fin (2 ^ 8)
abbrev Word16 := Fin (2 ^ 16)
abbrev Word32 := Fin (2 ^ 32)

/-- Numerals of a word type rest on its width being positive. -/
instance word8NeZero : NeZero (2 ^ 8) := ⟨by decide⟩
instance word16NeZero : NeZero (2 ^ 16) := ⟨by decide⟩
instance word32NeZero : NeZero (2 ^ 32) := ⟨by decide⟩

/-- `error_t`, in the order of its numeric values. -/
inductive ErrorT where
  | success | fail | esize | ecancel | eoff | ebusy | einval | eretry | ereserve | ealready
  | enomem | enoack
  deriving DecidableEq, Repr

/-- The value C sees; `SUCCESS` is zero. -/
def ErrorT.code : ErrorT → ℕ
  | .success => 0 | .fail => 1 | .esize => 2 | .ecancel => 3 | .eoff => 4 | .ebusy => 5
  | .einval => 6 | .eretry => 7 | .ereserve => 8 | .ealready => 9 | .enomem => 10
  | .enoack => 11

/-- The value of `error_t` used as a C condition. -/
def ErrorT.toBool (e : ErrorT) : Bool := e.code != 0

/-- A condition on a result therefore holds exactly when the call failed. -/
theorem ErrorT.toBool_eq_false {e : ErrorT} : e.toBool = false ↔ e = .success := by
  cases e <;> simp [toBool, code]

/-- The two bytes of an `nx_uint16_t` or `nx_int16_t` as it travels. -/
def netBytes (w : Word16) : List Word8 :=
  [⟨w.val / 2 ^ 8, Nat.div_lt_of_lt_mul w.isLt⟩, ⟨w.val % 2 ^ 8, Nat.mod_lt _ (by decide)⟩]

def broadcastAddr : Word16 := 0xffff

/-- A `message_t` that a program hands to its `AMSend`: the payload, the length in
the header, and how many accepted sends still owe their `sendDone`. -/
structure MessageBuffer (α : Type) where
  payload : α
  length : Word8 := 0
  outstanding : ℕ := 0
  deriving DecidableEq, Repr

namespace MessageBuffer
variable {α : Type}

/-- `AMSend.send` with result `sent`; only `EBUSY` leaves the header alone. -/
def send (size : Word8) (sent : ErrorT) (b : MessageBuffer α) : MessageBuffer α :=
  { b with
    length := if sent = .ebusy then b.length else size
    outstanding := if sent = .success then b.outstanding + 1 else b.outstanding }

/-- `sendDone` answers an accepted send. -/
def done (b : MessageBuffer α) : Option (MessageBuffer α) :=
  if b.outstanding ≠ 0 then some { b with outstanding := b.outstanding - 1 } else none

/-- What the radio puts on the air if it reads the buffer now. -/
def onAir (b : MessageBuffer α) : Option (Word8 × α) :=
  if b.outstanding ≠ 0 then some (b.length, b.payload) else none

@[simp] theorem send_payload (size : Word8) (sent : ErrorT) (b : MessageBuffer α) :
    (b.send size sent).payload = b.payload := rfl

theorem send_outstanding_success (size : Word8) (b : MessageBuffer α) :
    (b.send size .success).outstanding = b.outstanding + 1 := rfl

theorem send_outstanding_of_ne (size : Word8) {sent : ErrorT} (h : sent ≠ .success)
    (b : MessageBuffer α) : (b.send size sent).outstanding = b.outstanding :=
  if_neg h

theorem done_eq {b b' : MessageBuffer α} (h : b.done = some b') :
    b.outstanding ≠ 0 ∧ b' = { b with outstanding := b.outstanding - 1 } := by
  obtain ⟨hout, hsome⟩ := Option.ite_none_right_eq_some.mp h
  exact ⟨hout, (Option.some.inj hsome).symm⟩

theorem onAir_eq {b : MessageBuffer α} {p : Word8 × α} (h : b.onAir = some p) :
    b.outstanding ≠ 0 ∧ p = (b.length, b.payload) := by
  obtain ⟨hout, hsome⟩ := Option.ite_none_right_eq_some.mp h
  exact ⟨hout, (Option.some.inj hsome).symm⟩

end MessageBuffer

end WsnContest.Tinyos
