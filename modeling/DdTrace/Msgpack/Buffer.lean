import DdTrace.Msgpack.IntegerType

/-! The output buffer of the MessagePack encoder. The encoder appends to a
`Buffer&` and may throw midway, so a computation on the buffer is an `EStateM`
whose error result still carries the buffer as it was at the throw. -/
namespace DdTrace.Msgpack

abbrev Buffer := List UInt8

/-- `std::out_of_range`, with the text `what()` returns. -/
structure OutOfRange where
  what : String
  deriving DecidableEq, Repr

abbrev Pack := EStateM OutOfRange Buffer

def pushBack (c : UInt8) : Pack Unit := modify fun buffer => buffer ++ [c]

def append (buf : List UInt8) : Pack Unit := modify fun buffer => buffer ++ buf

def push (range : List UInt8) : Pack Unit := modify fun buffer => buffer ++ range

@[simp] theorem run_bind {α β : Type} (x : Pack α) (f : α → Pack β) (buffer : Buffer) :
    (x >>= f).run buffer =
      match x.run buffer with
      | .ok a buffer' => (f a).run buffer'
      | .error e buffer' => .error e buffer' := by
  show EStateM.bind x f buffer = _
  unfold EStateM.bind EStateM.run
  cases x buffer <;> rfl

@[simp] theorem run_throw {α : Type} (e : OutOfRange) (buffer : Buffer) :
    (throw e : Pack α).run buffer = .error e buffer := rfl

@[simp] theorem run_pure {α : Type} (a : α) (buffer : Buffer) :
    (pure a : Pack α).run buffer = .ok a buffer := rfl

@[simp] theorem pushBack_run (c : UInt8) (buffer : Buffer) :
    (pushBack c).run buffer = .ok () (buffer ++ [c]) := rfl

@[simp] theorem append_run (buf : List UInt8) (buffer : Buffer) :
    (append buf).run buffer = .ok () (buffer ++ buf) := rfl

@[simp] theorem push_run (range : List UInt8) (buffer : Buffer) :
    (push range).run buffer = .ok () (buffer ++ range) := rfl

theorem toNat_ofNat_byte (n : Nat) : (UInt8.ofNat n).toNat = n % 256 := rfl

/-- `static_cast<char>`: the byte the buffer stores for an integer. -/
def toChar (v : Int) : UInt8 := UInt8.ofNat (v % 256).toNat

@[simp] theorem toNat_toChar (v : Int) : (toChar v).toNat = (v % 256).toNat := by
  rw [toChar, toNat_ofNat_byte]
  omega

/-- The number a byte string denotes read most significant byte first,
`Σ bᵢ · 256 ^ (w - 1 - i)`. -/
def bigEndian (bytes : List UInt8) : Nat :=
  bytes.foldl (fun acc b => 256 * acc + b.toNat) 0

@[simp] theorem bigEndian_append_byte (bytes : List UInt8) (b : UInt8) :
    bigEndian (bytes ++ [b]) = 256 * bigEndian bytes + b.toNat := by
  simp [bigEndian, List.foldl_append]

/-- The array `buf` that the loop of `push_number_big_endian` fills: byte `i`
is `(value >> (8 * ((size - 1) - i))) & 0xFF`. -/
def bigEndianBytes (size value : Nat) : List UInt8 :=
  (List.range size).map fun i => UInt8.ofNat ((value >>> (8 * ((size - 1) - i))) &&& 0xFF)

@[simp] theorem length_bigEndianBytes (size value : Nat) :
    (bigEndianBytes size value).length = size := by
  simp [bigEndianBytes]

theorem bigEndianBytes_succ (size value : Nat) :
    bigEndianBytes (size + 1) value =
      bigEndianBytes size (value / 256) ++ [UInt8.ofNat (value % 256)] := by
  simp only [bigEndianBytes, List.range_succ, List.map_append, List.map_cons, List.map_nil,
    Nat.add_sub_cancel, Nat.sub_self, Nat.mul_zero, Nat.shiftRight_zero]
  congr 1
  · refine List.map_congr_left fun i hi => ?_
    have hi : i < size := List.mem_range.mp hi
    have hshift : 8 * (size - i) = 8 * (size - 1 - i) + 8 := by omega
    rw [hshift, Nat.shiftRight_eq_div_pow, Nat.shiftRight_eq_div_pow, Nat.div_div_eq_div_mul,
      Nat.pow_add, Nat.mul_comm]
  · exact congrArg (fun n => [UInt8.ofNat n]) (Nat.and_pow_two_sub_one_eq_mod value 8)

theorem bigEndian_bigEndianBytes (size value : Nat) :
    bigEndian (bigEndianBytes size value) = value % 2 ^ (8 * size) := by
  induction size generalizing value with
  | zero => simp [bigEndian, bigEndianBytes, Nat.mod_one]
  | succ size ih =>
    have hpow : 2 ^ (8 * (size + 1)) = 256 * 2 ^ (8 * size) := by
      rw [Nat.mul_succ, Nat.pow_add, Nat.mul_comm]
    rw [bigEndianBytes_succ, bigEndian_append_byte, ih, toNat_ofNat_byte, hpow, Nat.mod_mul,
      Nat.mod_mod]
    omega

/-- `push_number_big_endian`: the bytes of `integer` converted to the unsigned
type of its width, most significant first. -/
def pushNumberBigEndian (T : IntegerType) (integer : T.Value) : Pack Unit :=
  let value := (T.makeUnsigned.cast integer.val).val.toNat
  append (bigEndianBytes T.size value)

theorem pushNumberBigEndian_run (T : IntegerType) (integer : T.Value) (buffer : Buffer) :
    (pushNumberBigEndian T integer).run buffer =
      .ok () (buffer ++ bigEndianBytes T.size (integer.val % 2 ^ (8 * T.size)).toNat) := by
  simp [pushNumberBigEndian, IntegerType.cast, IntegerType.wrap_makeUnsigned]

theorem pushNumberBigEndian_cast_run (T : IntegerType) (v : Int) (h : T.min ≤ v ∧ v ≤ T.max)
    (buffer : Buffer) :
    (pushNumberBigEndian T (T.cast v)).run buffer =
      .ok () (buffer ++ bigEndianBytes T.size (v % 2 ^ (8 * T.size)).toNat) := by
  rw [pushNumberBigEndian_run]
  simp [IntegerType.cast, IntegerType.wrap_of_mem h]

theorem pushNumberBigEndian_ofNat_run (T : IntegerType) (n : Nat) (hT : T.min = 0)
    (h : (n : Int) ≤ T.max) (buffer : Buffer) :
    (pushNumberBigEndian T (T.cast n)).run buffer = .ok () (buffer ++ bigEndianBytes T.size n) := by
  rw [pushNumberBigEndian_cast_run T n ⟨by omega, h⟩]
  cases T <;> simp only [IntegerType.min, IntegerType.max, IntegerType.size] at hT h ⊢ <;>
    first | omega | (congr; omega)

theorem pushNumberBigEndian_bigEndian (T : IntegerType) (integer : T.Value) (buffer : Buffer) :
    ∃ bytes, (pushNumberBigEndian T integer).run buffer = .ok () (buffer ++ bytes) ∧
      bytes.length = T.size ∧ (bigEndian bytes : Int) = integer.val % 2 ^ (8 * T.size) := by
  refine ⟨_, pushNumberBigEndian_run T integer buffer, length_bigEndianBytes _ _, ?_⟩
  have hpos : 0 < 2 ^ (8 * T.size) := Nat.two_pow_pos _
  have hcast : ((2 ^ (8 * T.size) : Nat) : Int) = 2 ^ (8 * T.size) := by push_cast; rfl
  have h0 : 0 ≤ integer.val % 2 ^ (8 * T.size) := Int.emod_nonneg _ (by omega)
  have h1 : integer.val % 2 ^ (8 * T.size) < 2 ^ (8 * T.size) := Int.emod_lt_of_pos _ (by omega)
  rw [bigEndian_bigEndianBytes, Nat.mod_eq_of_lt (by omega)]
  exact Int.toNat_of_nonneg h0

end DdTrace.Msgpack
