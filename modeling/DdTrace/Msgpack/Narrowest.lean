import DdTrace.Msgpack.Pack

/-! The MessagePack formats the encoder chooses among, as the specification
lists them, and the fact that the encoder always picks the narrowest one that
can hold the value or the count. -/
namespace DdTrace.Msgpack

inductive IntFormat
  | positiveFixnum | negativeFixnum
  | uint8 | uint16 | uint32 | uint64
  | int8 | int16 | int32 | int64
  deriving DecidableEq, Repr

namespace IntFormat

/-- The values the format represents. -/
def Holds : IntFormat → Int → Prop
  | positiveFixnum, v => 0 ≤ v ∧ v ≤ 127
  | negativeFixnum, v => -32 ≤ v ∧ v ≤ -1
  | uint8, v => 0 ≤ v ∧ v ≤ 255
  | uint16, v => 0 ≤ v ∧ v ≤ 65535
  | uint32, v => 0 ≤ v ∧ v ≤ 4294967295
  | uint64, v => 0 ≤ v ∧ v ≤ 18446744073709551615
  | int8, v => -128 ≤ v ∧ v ≤ 127
  | int16, v => -32768 ≤ v ∧ v ≤ 32767
  | int32, v => -2147483648 ≤ v ∧ v ≤ 2147483647
  | int64, v => -9223372036854775808 ≤ v ∧ v ≤ 9223372036854775807

/-- Bytes a value takes in the format, prefix included. -/
def length : IntFormat → Nat
  | positiveFixnum | negativeFixnum => 1
  | uint8 | int8 => 2
  | uint16 | int16 => 3
  | uint32 | int32 => 5
  | uint64 | int64 => 9

def narrowestLength (v : Int) : Nat :=
  if -32 ≤ v ∧ v ≤ 127 then 1
  else if -128 ≤ v ∧ v ≤ 255 then 2
  else if -32768 ≤ v ∧ v ≤ 65535 then 3
  else if -2147483648 ≤ v ∧ v ≤ 4294967295 then 5
  else 9

theorem narrowestLength_le (f : IntFormat) (v : Int) (h : f.Holds v) : narrowestLength v ≤ f.length := by
  unfold narrowestLength
  split_ifs <;> cases f <;> simp only [Holds, length] at h ⊢ <;> omega

theorem exists_holds_narrowestLength (v : Int)
    (hv : -9223372036854775808 ≤ v ∧ v ≤ 18446744073709551615) :
    ∃ f : IntFormat, f.Holds v ∧ narrowestLength v = f.length := by
  unfold narrowestLength
  split_ifs
  · by_cases h : 0 ≤ v
    · exact ⟨positiveFixnum, by simp only [Holds]; omega, rfl⟩
    · exact ⟨negativeFixnum, by simp only [Holds]; omega, rfl⟩
  · by_cases h : 0 ≤ v
    · exact ⟨uint8, by simp only [Holds]; omega, rfl⟩
    · exact ⟨int8, by simp only [Holds]; omega, rfl⟩
  · by_cases h : 0 ≤ v
    · exact ⟨uint16, by simp only [Holds]; omega, rfl⟩
    · exact ⟨int16, by simp only [Holds]; omega, rfl⟩
  · by_cases h : 0 ≤ v
    · exact ⟨uint32, by simp only [Holds]; omega, rfl⟩
    · exact ⟨int32, by simp only [Holds]; omega, rfl⟩
  · by_cases h : 0 ≤ v
    · exact ⟨uint64, by simp only [Holds]; omega, rfl⟩
    · exact ⟨int64, by simp only [Holds]; omega, rfl⟩

end IntFormat

/-- `m` appends the encoding of `v` in a format that holds `v` and is no longer
than any other format that does. -/
def WritesNarrowestInt (m : Pack Unit) (v : Int) : Prop :=
  ∀ buffer, ∃ bytes, m.run buffer = .ok () (buffer ++ bytes) ∧
    (∃ f : IntFormat, f.Holds v ∧ bytes.length = f.length) ∧
    ∀ f : IntFormat, f.Holds v → bytes.length ≤ f.length

/-- A header format of a sized family: its first byte, the width of the count
field after it (zero for the fixed formats, whose count sits in the first
byte) and the largest count it holds. -/
structure HeaderFormat where
  first : UInt8
  width : Nat
  capacity : Nat

namespace HeaderFormat

def length (f : HeaderFormat) : Nat := 1 + f.width

/-- `header` is the header of format `f` for the count `n`: a fixed format adds
the count to its first byte, the others write it big-endian after it. -/
def IsHeader (f : HeaderFormat) (n : Nat) (header : List UInt8) : Prop :=
  ∃ first field, header = first :: field ∧ field.length = f.width ∧
    if f.width = 0 then first.toNat = f.first.toNat + n else first = f.first ∧ bigEndian field = n

end HeaderFormat

def strFormats : List HeaderFormat := [⟨0xA0, 0, 31⟩, ⟨0xD9, 1, 255⟩, ⟨0xDA, 2, 65535⟩, ⟨0xDB, 4, 4294967295⟩]
def binFormats : List HeaderFormat := [⟨0xC4, 1, 255⟩, ⟨0xC5, 2, 65535⟩, ⟨0xC6, 4, 4294967295⟩]
def arrayFormats : List HeaderFormat := [⟨0x90, 0, 15⟩, ⟨0xDC, 2, 65535⟩, ⟨0xDD, 4, 4294967295⟩]
def mapFormats : List HeaderFormat := [⟨0x80, 0, 15⟩, ⟨0xDE, 2, 65535⟩, ⟨0xDF, 4, 4294967295⟩]

/-- `m` appends, for the count `n`, the header of the shortest format of
`family` that holds `n`, then `payload`. -/
def WritesNarrowestHeader (family : List HeaderFormat) (m : Pack Unit) (n : Nat)
    (payload : List UInt8) : Prop :=
  ∀ buffer, ∃ f ∈ family, ∃ header, n ≤ f.capacity ∧ f.IsHeader n header ∧
    m.run buffer = .ok () (buffer ++ header ++ payload) ∧
    ∀ g ∈ family, n ≤ g.capacity → f.length ≤ g.length

theorem writesNarrowestInt_of_length (m : Pack Unit) (v : Int)
    (hv : -9223372036854775808 ≤ v ∧ v ≤ 18446744073709551615)
    (h : ∀ buffer, ∃ bytes, m.run buffer = .ok () (buffer ++ bytes) ∧
      bytes.length = IntFormat.narrowestLength v) : WritesNarrowestInt m v := by
  intro buffer
  obtain ⟨bytes, hrun, hlen⟩ := h buffer
  obtain ⟨f, hf, hflen⟩ := IntFormat.exists_holds_narrowestLength v hv
  exact ⟨bytes, hrun, ⟨f, hf, hlen.trans hflen⟩,
    fun g hg => hlen ▸ IntFormat.narrowestLength_le g v hg⟩

theorem packInteger_writesNarrowestInt (T : IntegerType) (value : T.Value) :
    WritesNarrowestInt (packInteger T value) value.val := by
  refine writesNarrowestInt_of_length _ _ value.range fun buffer => ?_
  unfold packInteger
  by_cases hneg : value.val < 0
  case' pos => rw [if_pos hneg, packNegative_run, int64_cast_of_neg value hneg]
  case' neg => rw [if_neg hneg, packNonnegative_run, uint64_cast_of_nonneg value hneg]
  all_goals
    split_ifs <;> refine ⟨_, rfl, ?_⟩ <;>
      simp (disch := omega) only [List.length_cons, List.length_nil, length_bigEndianBytes,
        IntFormat.narrowestLength, if_pos, if_neg]

theorem packStr_writesNarrowestHeader (range : List UInt8) (h : range.length ≤ 4294967295) :
    WritesNarrowestHeader strFormats (packStr range) range.length range := by
  intro buffer
  rw [packStr_run]
  split_ifs
  · refine ⟨⟨0xA0, 0, 31⟩, by simp [strFormats], [PackType.fixStr ||| toChar range.length],
      by dsimp only; omega, ⟨_, [], rfl, rfl, ?_⟩, by simp, by simp [strFormats, HeaderFormat.length]⟩
    exact toNat_or_toChar PackType.fixStr range.length 32 (by omega) (by decide) (by omega)
  · refine ⟨⟨0xD9, 1, 255⟩, by simp [strFormats], [PackType.str8, toChar range.length],
      by dsimp only; omega, ⟨_, _, rfl, rfl, rfl, ?_⟩, by simp,
      by simp [strFormats, HeaderFormat.length]; omega⟩
    simp [bigEndian]; omega
  · refine ⟨⟨0xDA, 2, 65535⟩, by simp [strFormats], PackType.str16 :: bigEndianBytes 2 range.length,
      by dsimp only; omega, ⟨_, _, rfl, by simp, rfl, ?_⟩, by simp,
      by simp [strFormats, HeaderFormat.length]; omega⟩
    simp [bigEndian_bigEndianBytes]; omega
  · refine ⟨⟨0xDB, 4, 4294967295⟩, by simp [strFormats],
      PackType.str32 :: bigEndianBytes 4 range.length, by dsimp only; omega,
      ⟨_, _, rfl, by simp, rfl, ?_⟩, by simp, by simp [strFormats, HeaderFormat.length]; omega⟩
    simp [bigEndian_bigEndianBytes]; omega

theorem packBin_writesNarrowestHeader (range : List UInt8) (h : range.length ≤ 4294967295) :
    WritesNarrowestHeader binFormats (packBin range) range.length range := by
  intro buffer
  rw [packBin_run]
  split_ifs
  · refine ⟨⟨0xC4, 1, 255⟩, by simp [binFormats], [PackType.bin8, toChar range.length],
      by dsimp only; omega, ⟨_, _, rfl, rfl, rfl, ?_⟩, by simp,
      by simp [binFormats, HeaderFormat.length]⟩
    simp [bigEndian]; omega
  · refine ⟨⟨0xC5, 2, 65535⟩, by simp [binFormats], PackType.bin16 :: bigEndianBytes 2 range.length,
      by dsimp only; omega, ⟨_, _, rfl, by simp, rfl, ?_⟩, by simp,
      by simp [binFormats, HeaderFormat.length]; omega⟩
    simp [bigEndian_bigEndianBytes]; omega
  · refine ⟨⟨0xC6, 4, 4294967295⟩, by simp [binFormats],
      PackType.bin32 :: bigEndianBytes 4 range.length, by dsimp only; omega,
      ⟨_, _, rfl, by simp, rfl, ?_⟩, by simp, by simp [binFormats, HeaderFormat.length]; omega⟩
    simp [bigEndian_bigEndianBytes]; omega

theorem packContainer_writesNarrowestHeader (fix prefix16 prefix32 : UInt8) (type : String)
    (size : Nat) (h : size ≤ 4294967295) (hfix : ∀ m < 16, fix.toNat ||| m = fix.toNat + m) :
    WritesNarrowestHeader [⟨fix, 0, 15⟩, ⟨prefix16, 2, 65535⟩, ⟨prefix32, 4, 4294967295⟩]
      (packContainer fix prefix16 prefix32 type size) size [] := by
  intro buffer
  rw [packContainer_run]
  split_ifs
  · refine ⟨⟨fix, 0, 15⟩, by simp, [fix ||| toChar size], by dsimp only; omega,
      ⟨_, [], rfl, rfl, ?_⟩, by simp, by simp [HeaderFormat.length]⟩
    exact toNat_or_toChar fix size 16 (by omega) hfix (by omega)
  · refine ⟨⟨prefix16, 2, 65535⟩, by simp, prefix16 :: bigEndianBytes 2 size,
      by dsimp only; omega, ⟨_, _, rfl, by simp, rfl, ?_⟩, by simp,
      by simp [HeaderFormat.length]; omega⟩
    simp [bigEndian_bigEndianBytes]; omega
  · refine ⟨⟨prefix32, 4, 4294967295⟩, by simp, prefix32 :: bigEndianBytes 4 size,
      by dsimp only; omega, ⟨_, _, rfl, by simp, rfl, ?_⟩, by simp,
      by simp [HeaderFormat.length]; omega⟩
    simp [bigEndian_bigEndianBytes]; omega

theorem pack_narrowest_format :
    (∀ (T T' : IntegerType) (value : T.Value) (value' : T'.Value),
      value.val = value'.val → packInteger T value = packInteger T' value') ∧
    (∀ (T : IntegerType) (value : T.Value), WritesNarrowestInt (packInteger T value) value.val) ∧
    (∀ range : List UInt8, range.length ≤ 4294967295 →
      WritesNarrowestHeader strFormats (packStr range) range.length range ∧
      WritesNarrowestHeader binFormats (packBin range) range.length range) ∧
    (∀ size ≤ 4294967295,
      WritesNarrowestHeader arrayFormats (packArray size) size [] ∧
      WritesNarrowestHeader mapFormats (packMap size) size []) := by
  refine ⟨fun T T' value value' h => ?_, packInteger_writesNarrowestInt,
    fun range h => ⟨packStr_writesNarrowestHeader range h, packBin_writesNarrowestHeader range h⟩,
    fun size h => ⟨packContainer_writesNarrowestHeader _ _ _ _ size h (by decide),
      packContainer_writesNarrowestHeader _ _ _ _ size h (by decide)⟩⟩
  simp only [packInteger, h]

end DdTrace.Msgpack
