import DdTrace.Msgpack.Buffer

/-! The packing functions of `msgpack.h`. Each one picks a type prefix byte
by comparing its argument against the limits of the C++ integer types, then
appends the prefix and a big-endian payload; the sized ones throw
`std::out_of_range` past `2 ^ 32 - 1`. -/
namespace DdTrace.Msgpack

/-! `pack_type`: the prefix bytes this encoder writes. `EXT8`, `EXT16`,
`EXT32` and `FLOAT` are declared by the source but never written. -/
namespace PackType

def fixMap : UInt8 := 0x80
def fixArray : UInt8 := 0x90
def fixStr : UInt8 := 0xA0
def nil : UInt8 := 0xC0
def false : UInt8 := 0xC2
def true : UInt8 := 0xC3
def bin8 : UInt8 := 0xC4
def bin16 : UInt8 := 0xC5
def bin32 : UInt8 := 0xC6
def double : UInt8 := 0xCB
def uint8 : UInt8 := 0xCC
def uint16 : UInt8 := 0xCD
def uint32 : UInt8 := 0xCE
def uint64 : UInt8 := 0xCF
def int8 : UInt8 := 0xD0
def int16 : UInt8 := 0xD1
def int32 : UInt8 := 0xD2
def int64 : UInt8 := 0xD3
def str8 : UInt8 := 0xD9
def str16 : UInt8 := 0xDA
def str32 : UInt8 := 0xDB
def array16 : UInt8 := 0xDC
def array32 : UInt8 := 0xDD
def map16 : UInt8 := 0xDE
def map32 : UInt8 := 0xDF
def negativeFixnum : UInt8 := 0xE0

end PackType

/-- A fixed-size format keeps its count in the low bits its prefix leaves
clear, so the `|` of the source adds. -/
theorem toNat_or_toChar (p : UInt8) (v : Int) (bound : Nat) (hb : bound ≤ 256)
    (hp : ∀ m < bound, p.toNat ||| m = p.toNat + m) (hv : 0 ≤ v ∧ v < bound) :
    (p ||| toChar v).toNat = p.toNat + v.toNat := by
  rw [show (p ||| toChar v).toNat = p.toNat ||| (toChar v).toNat from BitVec.toNat_or .., toNat_toChar,
    Int.emod_eq_of_lt hv.1 (by omega)]
  exact hp _ (by omega)

/-- The maximum is appended with `message += max`, which resolves to `operator+=(char)`: one
character, `max` modulo 256. -/
def makeOverflowMessage (type : String) (actual max : Nat) : String :=
  "Cannot msgpack encode " ++ type ++ " of size " ++ toString actual ++
    ", which exceeds the protocol maximum of " ++ (Char.ofNat (max % 256)).toString ++ "."

/-- Every pack call checks against the 32-bit maximum, which the message spells as the one
character `0xFF`, never as `4294967295`. -/
theorem makeOverflowMessage_uint32Max (type : String) (actual : Nat) :
    makeOverflowMessage type actual 4294967295 = "Cannot msgpack encode " ++ type ++ " of size " ++
      toString actual ++ ", which exceeds the protocol maximum of \xff." := by
  simp only [makeOverflowMessage, String.append_assoc]
  rfl

def packNil : Pack Unit := pushBack PackType.nil

@[simp] theorem packNil_run (buffer : Buffer) :
    packNil.run buffer = .ok () (buffer ++ [PackType.nil]) := rfl

def packNegative (value : IntegerType.int64.Value) : Pack Unit :=
  if -32 ≤ value.val then
    pushBack (PackType.negativeFixnum ||| toChar (value.val + 32))
  else if IntegerType.int8.min ≤ value.val then do
    pushBack PackType.int8
    pushBack (toChar value.val)
  else if IntegerType.int16.min ≤ value.val then do
    pushBack PackType.int16
    pushNumberBigEndian .int16 (IntegerType.int16.cast value.val)
  else if IntegerType.int32.min ≤ value.val then do
    pushBack PackType.int32
    pushNumberBigEndian .int32 (IntegerType.int32.cast value.val)
  else if IntegerType.int64.min ≤ value.val then do
    pushBack PackType.int64
    pushNumberBigEndian .int64 (IntegerType.int64.cast value.val)
  else pure ()

theorem packNegative_run (value : IntegerType.int64.Value) (buffer : Buffer) :
    (packNegative value).run buffer =
      if -32 ≤ value.val then
        .ok () (buffer ++ [PackType.negativeFixnum ||| toChar (value.val + 32)])
      else if -128 ≤ value.val then .ok () (buffer ++ [PackType.int8, toChar value.val])
      else if -32768 ≤ value.val then
        .ok () (buffer ++ PackType.int16 :: bigEndianBytes 2 (value.val % 65536).toNat)
      else if -2147483648 ≤ value.val then
        .ok () (buffer ++ PackType.int32 :: bigEndianBytes 4 (value.val % 4294967296).toNat)
      else
        .ok () (buffer ++ PackType.int64 ::
          bigEndianBytes 8 (value.val % 18446744073709551616).toNat) := by
  have hv := value.property
  simp only [IntegerType.min, IntegerType.max] at hv
  unfold packNegative
  simp only [IntegerType.min]
  split_ifs <;> (try omega) <;>
    simp (disch := simp only [IntegerType.min, IntegerType.max] <;> omega)
      [pushNumberBigEndian_cast_run]

def packNonnegative (value : IntegerType.uint64.Value) : Pack Unit :=
  if value.val ≤ 0x7F then
    pushBack (toChar value.val)
  else if value.val ≤ IntegerType.uint8.max then do
    pushBack PackType.uint8
    pushBack (toChar value.val)
  else if value.val ≤ IntegerType.uint16.max then do
    pushBack PackType.uint16
    pushNumberBigEndian .uint16 (IntegerType.uint16.cast value.val)
  else if value.val ≤ IntegerType.uint32.max then do
    pushBack PackType.uint32
    pushNumberBigEndian .uint32 (IntegerType.uint32.cast value.val)
  else if value.val ≤ IntegerType.uint64.max then do
    pushBack PackType.uint64
    pushNumberBigEndian .uint64 (IntegerType.uint64.cast value.val)
  else pure ()

theorem packNonnegative_run (value : IntegerType.uint64.Value) (buffer : Buffer) :
    (packNonnegative value).run buffer =
      if value.val ≤ 127 then .ok () (buffer ++ [toChar value.val])
      else if value.val ≤ 255 then .ok () (buffer ++ [PackType.uint8, toChar value.val])
      else if value.val ≤ 65535 then
        .ok () (buffer ++ PackType.uint16 :: bigEndianBytes 2 value.val.toNat)
      else if value.val ≤ 4294967295 then
        .ok () (buffer ++ PackType.uint32 :: bigEndianBytes 4 value.val.toNat)
      else .ok () (buffer ++ PackType.uint64 :: bigEndianBytes 8 value.val.toNat) := by
  have hv := value.property
  simp only [IntegerType.min, IntegerType.max] at hv
  unfold packNonnegative
  simp only [IntegerType.max]
  split_ifs <;> (try omega) <;>
    simp (disch := simp only [IntegerType.min, IntegerType.max] <;> omega)
      [pushNumberBigEndian_cast_run] <;> congr <;> omega

/-- `pack_integer<T>`: the argument is converted to `std::int64_t` or
`std::uint64_t` by the calls. -/
def packInteger (T : IntegerType) (value : T.Value) : Pack Unit :=
  if value.val < 0 then packNegative (IntegerType.int64.cast value.val)
  else packNonnegative (IntegerType.uint64.cast value.val)

theorem IntegerType.Value.range {T : IntegerType} (value : T.Value) :
    -9223372036854775808 ≤ value.val ∧ value.val ≤ 18446744073709551615 := by
  have h := value.property
  cases T <;> simp only [IntegerType.min, IntegerType.max] at h <;> omega

theorem int64_cast_of_neg {T : IntegerType} (value : T.Value) (h : value.val < 0) :
    (IntegerType.int64.cast value.val).val = value.val :=
  IntegerType.wrap_of_mem (T := .int64) (by
    have := value.range
    simp only [IntegerType.min, IntegerType.max]; omega)

theorem uint64_cast_of_nonneg {T : IntegerType} (value : T.Value) (h : ¬value.val < 0) :
    (IntegerType.uint64.cast value.val).val = value.val :=
  IntegerType.wrap_of_mem (T := .uint64) (by
    have := value.range
    simp only [IntegerType.min, IntegerType.max]; omega)

/-- A `double`, kept as the IEEE-754 binary64 pattern that the union in
`pack_double` reads through its `as_integer` member. -/
structure Double where
  bits : UInt64
  deriving DecidableEq, Repr

def Double.asInteger (value : Double) : IntegerType.uint64.Value :=
  ⟨value.bits.toNat, by
    have := value.bits.toNat_lt_size
    simp only [IntegerType.min, IntegerType.max, UInt64.size] at *
    omega⟩

/-- `pack_double` on every target but ARM OABI, whose word swap is not modelled. -/
def packDouble (value : Double) : Pack Unit := do
  pushBack PackType.double
  pushNumberBigEndian .uint64 value.asInteger

@[simp] theorem packDouble_run (value : Double) (buffer : Buffer) :
    (packDouble value).run buffer =
      .ok () (buffer ++ PackType.double :: bigEndianBytes 8 value.bits.toNat) := by
  have h := value.bits.toNat_lt_size
  simp only [UInt64.size] at h
  simp only [packDouble, run_bind, pushBack_run, pushNumberBigEndian_run, Double.asInteger,
    IntegerType.size, List.append_assoc, List.singleton_append]
  congr
  omega

def packBool (value : Bool) : Pack Unit :=
  if value then pushBack PackType.true else pushBack PackType.false

@[simp] theorem packBool_run (value : Bool) (buffer : Buffer) :
    (packBool value).run buffer =
      .ok () (buffer ++ [if value then PackType.true else PackType.false]) := by
  cases value <;> rfl

def packStr (range : List UInt8) : Pack Unit :=
  let size := range.length
  if size < 32 then do
    pushBack (PackType.fixStr ||| toChar size)
    push range
  else if size ≤ IntegerType.uint8.max then do
    pushBack PackType.str8
    pushBack (toChar size)
    push range
  else if size ≤ IntegerType.uint16.max then do
    pushBack PackType.str16
    pushNumberBigEndian .uint16 (IntegerType.uint16.cast size)
    push range
  else if size ≤ IntegerType.uint32.max then do
    pushBack PackType.str32
    pushNumberBigEndian .uint32 (IntegerType.uint32.cast size)
    push range
  else
    throw ⟨makeOverflowMessage "string" size IntegerType.uint32.max.toNat⟩

theorem packStr_run (range : List UInt8) (buffer : Buffer) :
    (packStr range).run buffer =
      if range.length < 32 then .ok () (buffer ++ (PackType.fixStr ||| toChar range.length) :: range)
      else if range.length ≤ 255 then .ok () (buffer ++ PackType.str8 :: toChar range.length :: range)
      else if range.length ≤ 65535 then
        .ok () (buffer ++ PackType.str16 :: (bigEndianBytes 2 range.length ++ range))
      else if range.length ≤ 4294967295 then
        .ok () (buffer ++ PackType.str32 :: (bigEndianBytes 4 range.length ++ range))
      else .error ⟨makeOverflowMessage "string" range.length 4294967295⟩ buffer := by
  unfold packStr
  simp only [IntegerType.max, apply_ite (fun m : Pack Unit => m.run buffer)]
  simp +contextual (disch := simp only [IntegerType.min, IntegerType.max] <;> omega)
    [pushNumberBigEndian_ofNat_run]

/-- `pack_str(Buffer&, const char*)`: the range is the C string up to its
terminating NUL. -/
def packStrOfCString (cstr : List UInt8) : Pack Unit :=
  packStr (cstr.takeWhile (· ≠ 0))

def packBin (range : List UInt8) : Pack Unit :=
  let size := range.length
  if size ≤ IntegerType.uint8.max then do
    pushBack PackType.bin8
    pushBack (toChar size)
    push range
  else if size ≤ IntegerType.uint16.max then do
    pushBack PackType.bin16
    pushNumberBigEndian .uint16 (IntegerType.uint16.cast size)
    push range
  else if size ≤ IntegerType.uint32.max then do
    pushBack PackType.bin32
    pushNumberBigEndian .uint32 (IntegerType.uint32.cast size)
    push range
  else
    throw ⟨makeOverflowMessage "binary" size IntegerType.uint32.max.toNat⟩

theorem packBin_run (range : List UInt8) (buffer : Buffer) :
    (packBin range).run buffer =
      if range.length ≤ 255 then .ok () (buffer ++ PackType.bin8 :: toChar range.length :: range)
      else if range.length ≤ 65535 then
        .ok () (buffer ++ PackType.bin16 :: (bigEndianBytes 2 range.length ++ range))
      else if range.length ≤ 4294967295 then
        .ok () (buffer ++ PackType.bin32 :: (bigEndianBytes 4 range.length ++ range))
      else .error ⟨makeOverflowMessage "binary" range.length 4294967295⟩ buffer := by
  unfold packBin
  simp only [IntegerType.max, apply_ite (fun m : Pack Unit => m.run buffer)]
  simp +contextual (disch := simp only [IntegerType.min, IntegerType.max] <;> omega)
    [pushNumberBigEndian_ofNat_run]

/-- The body `pack_array` and `pack_map` share: a fixed-size prefix up to 15,
then a 16-bit and a 32-bit count. -/
def packContainer (fix prefix16 prefix32 : UInt8) (type : String) (size : Nat) : Pack Unit :=
  if size ≤ 15 then
    pushBack (fix ||| toChar size)
  else if size ≤ IntegerType.uint16.max then do
    pushBack prefix16
    pushNumberBigEndian .uint16 (IntegerType.uint16.cast size)
  else if size ≤ IntegerType.uint32.max then do
    pushBack prefix32
    pushNumberBigEndian .uint32 (IntegerType.uint32.cast size)
  else
    throw ⟨makeOverflowMessage type size IntegerType.uint32.max.toNat⟩

theorem packContainer_run (fix prefix16 prefix32 : UInt8) (type : String) (size : Nat)
    (buffer : Buffer) :
    (packContainer fix prefix16 prefix32 type size).run buffer =
      if size ≤ 15 then .ok () (buffer ++ [fix ||| toChar size])
      else if size ≤ 65535 then .ok () (buffer ++ prefix16 :: bigEndianBytes 2 size)
      else if size ≤ 4294967295 then .ok () (buffer ++ prefix32 :: bigEndianBytes 4 size)
      else .error ⟨makeOverflowMessage type size 4294967295⟩ buffer := by
  unfold packContainer
  simp only [IntegerType.max, apply_ite (fun m : Pack Unit => m.run buffer)]
  simp +contextual (disch := simp only [IntegerType.min, IntegerType.max] <;> omega)
    [pushNumberBigEndian_ofNat_run]

def packArray (size : Nat) : Pack Unit :=
  packContainer PackType.fixArray PackType.array16 PackType.array32 "array" size

def packMap (size : Nat) : Pack Unit :=
  packContainer PackType.fixMap PackType.map16 PackType.map32 "map" size

/-- `m`, given a size `n`, throws exactly when `n` exceeds `2 ^ 32 - 1`, and a
throw leaves the buffer as it was. -/
def ThrowsPastUInt32 (m : Pack Unit) (n : Nat) : Prop :=
  ∀ buffer, match m.run buffer with
    | .ok _ _ => n ≤ 4294967295
    | .error _ buffer' => 4294967295 < n ∧ buffer' = buffer

theorem packContainer_throwsPastUInt32 (fix prefix16 prefix32 : UInt8) (type : String)
    (size : Nat) : ThrowsPastUInt32 (packContainer fix prefix16 prefix32 type size) size := by
  intro buffer
  rw [packContainer_run]
  split_ifs <;> first | omega | exact ⟨by omega, rfl⟩

theorem pack_throws_iff_too_large (range : List UInt8) (size : Nat) :
    ThrowsPastUInt32 (packStr range) range.length ∧ ThrowsPastUInt32 (packBin range) range.length ∧
      ThrowsPastUInt32 (packArray size) size ∧ ThrowsPastUInt32 (packMap size) size := by
  refine ⟨fun buffer => ?_, fun buffer => ?_, packContainer_throwsPastUInt32 _ _ _ _ _,
    packContainer_throwsPastUInt32 _ _ _ _ _⟩
  · rw [packStr_run]
    split_ifs <;> first | omega | exact ⟨by omega, rfl⟩
  · rw [packBin_run]
    split_ifs <;> first | omega | exact ⟨by omega, rfl⟩

end DdTrace.Msgpack
