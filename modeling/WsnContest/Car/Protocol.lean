import WsnContest.Tinyos

/-! What travels between the programs of the car: commands from the PC over
relays to the car, and readings back. -/
namespace WsnContest.Car
open Tinyos

/-- The commands of `test_car_msg.h`. -/
inductive Cmd where
  | w_ | a_ | s_ | d_ | __
  | _1 | _2 | _3 | _4 | _5 | _6 | _7 | _8 | _9 | _A | _B | _C | _D | _E | _F
  | r_
  deriving DecidableEq, Repr

namespace Cmd

/-- The enumeration in its order. -/
def all : List Cmd :=
  [w_, a_, s_, d_, __, _1, _2, _3, _4, _5, _6, _7, _8, _9, _A, _B, _C, _D, _E, _F, r_]

def code (c : Cmd) : Word16 := Fin.ofNat _ (all.idxOf c)

def ofCode? (w : Word16) : Option Cmd := all.find? fun c => c.code = w

theorem ofCode?_code (c : Cmd) : ofCode? c.code = some c := by
  cases c <;> decide

end Cmd

/-- `test_car_msg_t`. -/
structure TestCarMsg where
  seq : Word32
  cmd : Word16
  deriving DecidableEq, Repr

/-- `test_data_msg_t`. -/
structure TestDataMsg where
  id : Word16
  data : Word16
  deriving DecidableEq, Repr

def sizeofTestCarMsg : Word8 := 6
def sizeofTestDataMsg : Word8 := 4

/-- A message with its length: on the serial line, or on the radio with one of the
two message types. -/
inductive Frame where
  | serial (len : Word8) (msg : TestCarMsg)
  | car (len : Word8) (msg : TestCarMsg)
  | data (len : Word8) (msg : TestDataMsg)
  deriving DecidableEq, Repr

end WsnContest.Car
