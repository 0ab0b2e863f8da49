import Mathlib

/-! The C++ integer types of at most 64 bits, as the MessagePack encoder
instantiates its templates with them. A value of a type is an integer in the
type's range; an integral conversion wraps modulo `2 ^ bits`. -/
namespace DdTrace.Msgpack

/-- The integer types that `pack_integer` and `push_number_big_endian` are
instantiated with; `char`, `short`, `long` and the rest share these widths. -/
inductive IntegerType
  | int8 | int16 | int32 | int64
  | uint8 | uint16 | uint32 | uint64
  deriving DecidableEq, Repr

namespace IntegerType

@[simp] def size : IntegerType → Nat
  | int8 | uint8 => 1
  | int16 | uint16 => 2
  | int32 | uint32 => 4
  | int64 | uint64 => 8

def isSigned : IntegerType → Bool
  | int8 | int16 | int32 | int64 => true
  | uint8 | uint16 | uint32 | uint64 => false

def makeUnsigned : IntegerType → IntegerType
  | int8 | uint8 => uint8
  | int16 | uint16 => uint16
  | int32 | uint32 => uint32
  | int64 | uint64 => uint64


def min : IntegerType → Int
  | int8 => -128
  | int16 => -32768
  | int32 => -2147483648
  | int64 => -9223372036854775808
  | uint8 | uint16 | uint32 | uint64 => 0

def max : IntegerType → Int
  | int8 => 127
  | int16 => 32767
  | int32 => 2147483647
  | int64 => 9223372036854775807
  | uint8 => 255
  | uint16 => 65535
  | uint32 => 4294967295
  | uint64 => 18446744073709551615

def Value (T : IntegerType) := {v : Int // T.min ≤ v ∧ v ≤ T.max}

/-- The integral conversion to `T`, both `static_cast` and the implicit one of
an argument: the value modulo `2 ^ bits`, read as two's complement when `T` is
signed. -/
def wrap (T : IntegerType) (v : Int) : Int :=
  if T.isSigned ∧ T.max < v % 2 ^ (8 * T.size) then v % 2 ^ (8 * T.size) - 2 ^ (8 * T.size)
  else v % 2 ^ (8 * T.size)

theorem wrap_mem (T : IntegerType) (v : Int) : T.min ≤ T.wrap v ∧ T.wrap v ≤ T.max := by
  cases T <;> simp only [wrap, min, max, isSigned, size, Nat.reduceMul, Int.reducePow, Bool.false_eq_true, false_and, true_and, ↓reduceIte] <;> (try split_ifs) <;> omega

def cast (T : IntegerType) (v : Int) : T.Value := ⟨T.wrap v, T.wrap_mem v⟩

theorem wrap_of_mem {T : IntegerType} {v : Int} (h : T.min ≤ v ∧ v ≤ T.max) :
    T.wrap v = v := by
  cases T <;> simp only [wrap, min, max, isSigned, size, Nat.reduceMul, Int.reducePow, Bool.false_eq_true, false_and, true_and, ↓reduceIte] at h ⊢ <;> (try split_ifs) <;> omega

@[simp] theorem cast_val_of_mem {T : IntegerType} (v : T.Value) : (T.cast v.val).val = v.val :=
  wrap_of_mem v.property

theorem wrap_makeUnsigned (T : IntegerType) (v : Int) :
    T.makeUnsigned.wrap v = v % 2 ^ (8 * T.size) := by
  cases T <;> simp [wrap, makeUnsigned, isSigned, size]

end IntegerType

end DdTrace.Msgpack
