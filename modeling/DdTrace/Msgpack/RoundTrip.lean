import DdTrace.Msgpack.Pack
import DdTrace.Msgpack.Decode

/-! Every packing function appends bytes that the MessagePack decoder reads
back as the token of its argument, whatever precedes and follows them; so any
sequence of calls writes a stream the decoder reads back whole. -/
namespace DdTrace.Msgpack

theorem readUInt_one (first : UInt8) (rest : List UInt8) :
    readUInt 1 (first :: rest) = some (first.toNat, rest) := by
  simp [readUInt, bigEndian]

theorem packInteger_readsAs (T : IntegerType) (value : T.Value) (buffer : Buffer) :
    ∃ bytes, (packInteger T value).run buffer = .ok () (buffer ++ bytes) ∧
      ReadsAs bytes (.int value.val) := by
  have hrange := value.range
  unfold packInteger
  split_ifs with hneg
  · rw [packNegative_run, int64_cast_of_neg value hneg]
    split_ifs
    · refine ⟨_, rfl, List.cons_ne_nil _ _, fun rest => ?_⟩
      have hbyte := toNat_or_toChar PackType.negativeFixnum (value.val + 32) 32 (by omega) (by decide) (by omega)
      rw [show PackType.negativeFixnum.toNat = 224 from rfl] at hbyte
      rw [List.singleton_append, decodeToken_negativeFixnum _ (by omega), hbyte]
      congr 3
      omega
    all_goals
      refine ⟨_, rfl, List.cons_ne_nil _ _, fun rest => ?_⟩
      rw [List.cons_append, decodeToken_format _ (by decide)]
      unfold decodeFormat
      simp only [PackType.int8, PackType.int16, PackType.int32, PackType.int64, UInt8.toNat_ofNat,
        readInt, toSigned, Nat.reduceMul, Nat.add_one_sub_one, Nat.reducePow, Int.reducePow,
        List.singleton_append, readUInt_one, toNat_toChar, readUInt_bigEndianBytes,
        Option.map_some', Int.ofNat_emod, Int.ofNat_toNat, Nat.cast_ofNat, Option.some.injEq,
        Prod.mk.injEq, Token.int.injEq, and_true]
      split_ifs <;> omega
  · rw [packNonnegative_run, uint64_cast_of_nonneg value hneg]
    split_ifs
    · refine ⟨_, rfl, List.cons_ne_nil _ _, fun rest => ?_⟩
      rw [List.singleton_append, decodeToken_positiveFixnum _ (by simp; omega)]
      simp
      omega
    all_goals
      refine ⟨_, rfl, List.cons_ne_nil _ _, fun rest => ?_⟩
      rw [List.cons_append, decodeToken_format _ (by decide)]
      unfold decodeFormat
      simp only [PackType.uint8, PackType.uint16, PackType.uint32, PackType.uint64,
        UInt8.toNat_ofNat, List.singleton_append, readUInt_one, toNat_toChar, readUInt_bigEndianBytes,
        Nat.reduceMul, Nat.reducePow, Option.map_some', Int.ofNat_emod, Int.ofNat_toNat,
        Nat.cast_ofNat, Option.some.injEq, Prod.mk.injEq, Token.int.injEq, and_true]
      omega
theorem readSized_bigEndianBytes (width : Nat) (bytes rest : List UInt8)
    (h : bytes.length < 2 ^ (8 * width)) :
    readSized width (bigEndianBytes width bytes.length ++ (bytes ++ rest)) = some (bytes, rest) := by
  simp [readSized, readUInt_bigEndianBytes, Nat.mod_eq_of_lt h, readBytes_append]

theorem readSized_one (bytes rest : List UInt8) (h : bytes.length ≤ 255) :
    readSized 1 (toChar bytes.length :: (bytes ++ rest)) = some (bytes, rest) := by
  have hcount : ((bytes.length : Int) % 256).toNat = bytes.length := by omega
  simp [readSized, readUInt_one, hcount, readBytes_append]

theorem packStr_readsAs (range : List UInt8) (h : range.length ≤ 4294967295) (buffer : Buffer) :
    ∃ bytes, (packStr range).run buffer = .ok () (buffer ++ bytes) ∧ ReadsAs bytes (.str range) := by
  rw [packStr_run]
  split_ifs
  · refine ⟨_, rfl, List.cons_ne_nil _ _, fun rest => ?_⟩
    have hbyte := toNat_or_toChar PackType.fixStr range.length 32 (by omega) (by decide) (by omega)
    rw [show PackType.fixStr.toNat = 0xA0 from rfl] at hbyte
    rw [List.cons_append, decodeToken_fixStr _ (by omega), hbyte]
    simp [readBytes_append]
  all_goals
    refine ⟨_, rfl, List.cons_ne_nil _ _, fun rest => ?_⟩
    rw [List.cons_append, decodeToken_format _ (by decide)]
    unfold decodeFormat
    simp (disch := first | omega | (simp only [Nat.reduceMul, Nat.reducePow]; omega))
      [PackType.str8, PackType.str16, PackType.str32, readSized_one,
      readSized_bigEndianBytes]

theorem packBin_readsAs (range : List UInt8) (h : range.length ≤ 4294967295) (buffer : Buffer) :
    ∃ bytes, (packBin range).run buffer = .ok () (buffer ++ bytes) ∧ ReadsAs bytes (.bin range) := by
  rw [packBin_run]
  split_ifs
  all_goals
    refine ⟨_, rfl, List.cons_ne_nil _ _, fun rest => ?_⟩
    rw [List.cons_append, decodeToken_format _ (by decide)]
    unfold decodeFormat
    simp (disch := first | omega | (simp only [Nat.reduceMul, Nat.reducePow]; omega))
      [PackType.bin8, PackType.bin16, PackType.bin32, readSized_one,
      readSized_bigEndianBytes]

/-- `pack_array` and `pack_map` write bytes the decoder reads back as the container's token,
from how it reads the container's fixed prefix (at `base`) and its 16- and 32-bit prefixes. -/
theorem packContainer_readsAs {fix prefix16 prefix32 : UInt8} {token : Nat → Token} (base : Nat)
    (hbase : fix.toNat = base) (hor : ∀ m < 16, base ||| m = base + m)
    (hfix : ∀ first rest, base ≤ first.toNat ∧ first.toNat < base + 16 →
      decodeToken (first :: rest) = some (token (first.toNat - base), rest))
    (h16 : ∀ rest, decodeToken (prefix16 :: rest) =
      (readUInt 2 rest).map fun (count, rest) => (token count, rest))
    (h32 : ∀ rest, decodeToken (prefix32 :: rest) =
      (readUInt 4 rest).map fun (count, rest) => (token count, rest))
    (type : String) (size : Nat) (h : size ≤ 4294967295) (buffer : Buffer) :
    ∃ bytes, (packContainer fix prefix16 prefix32 type size).run buffer = .ok () (buffer ++ bytes) ∧
      ReadsAs bytes (token size) := by
  rw [packContainer_run]
  split_ifs
  · refine ⟨_, rfl, List.cons_ne_nil _ _, fun rest => ?_⟩
    have hbyte := toNat_or_toChar fix size 16 (by omega) (hbase ▸ hor) (by omega)
    rw [hbase] at hbyte
    rw [List.singleton_append, hfix _ _ (by omega), hbyte]
    simp
  all_goals
    refine ⟨_, rfl, List.cons_ne_nil _ _, fun rest => ?_⟩
    simp only [List.cons_append, h16, h32, readUInt_bigEndianBytes, Option.map_some',
      Option.some.injEq, Prod.mk.injEq, and_true]
    congr 1
    omega

/-- One call of the encoder's interface, with its arguments. -/
inductive Call
  | packNil
  | packBool (value : Bool)
  | packInteger (T : IntegerType) (value : T.Value)
  | packDouble (value : Double)
  | packStr (range : List UInt8)
  | packBin (range : List UInt8)
  | packArray (size : Nat)
  | packMap (size : Nat)

def Call.pack : Call → Pack Unit
  | .packNil => Msgpack.packNil
  | .packBool value => Msgpack.packBool value
  | .packInteger T value => Msgpack.packInteger T value
  | .packDouble value => Msgpack.packDouble value
  | .packStr range => Msgpack.packStr range
  | .packBin range => Msgpack.packBin range
  | .packArray size => Msgpack.packArray size
  | .packMap size => Msgpack.packMap size

/-- The token a reader of the stream should see for the call. -/
def Call.token : Call → Token
  | .packNil => .nil
  | .packBool value => .bool value
  | .packInteger _ value => .int value.val
  | .packDouble value => .float64 value.bits
  | .packStr range => .str range
  | .packBin range => .bin range
  | .packArray size => .array size
  | .packMap size => .map size

def Call.WithinLimits : Call → Prop
  | .packStr range | .packBin range => range.length ≤ 4294967295
  | .packArray size | .packMap size => size ≤ 4294967295
  | .packNil | .packBool _ | .packInteger _ _ | .packDouble _ => True

theorem Call.pack_readsAs (call : Call) (h : call.WithinLimits) (buffer : Buffer) :
    ∃ bytes, call.pack.run buffer = .ok () (buffer ++ bytes) ∧ ReadsAs bytes call.token := by
  cases call with
  | packNil =>
    exact ⟨_, packNil_run buffer, List.cons_ne_nil _ _, fun rest =>
      decodeToken_format rest (by decide)⟩
  | packBool value =>
    refine ⟨_, packBool_run value buffer, List.cons_ne_nil _ _, fun rest => ?_⟩
    cases value <;> exact decodeToken_format rest (by decide)
  | packInteger T value => exact packInteger_readsAs T value buffer
  | packDouble value =>
    refine ⟨_, packDouble_run value buffer, List.cons_ne_nil _ _, fun rest => ?_⟩
    rw [List.cons_append, decodeToken_format _ (by decide)]
    have hbits : UInt64.ofNat value.bits.toNat = value.bits := by
      apply UInt64.eq_of_toBitVec_eq
      simp [UInt64.toNat, UInt64.ofNat, BitVec.ofNat_toNat]
    unfold decodeFormat
    simp [PackType.double, readUInt_bigEndianBytes,
      Nat.mod_eq_of_lt value.bits.toNat_lt_size, hbits, Call.token]
  | packStr range => exact packStr_readsAs range h buffer
  | packBin range => exact packBin_readsAs range h buffer
  | packArray size =>
    refine packContainer_readsAs 0x90 (by decide) (by decide) (fun _ => decodeToken_fixArray)
      (fun rest => ?_) (fun rest => ?_) _ size h buffer <;>
      exact (decodeToken_format rest (by decide)).trans rfl
  | packMap size =>
    refine packContainer_readsAs 0x80 (by decide) (by decide) (fun _ => decodeToken_fixMap)
      (fun rest => ?_) (fun rest => ?_) _ size h buffer <;>
      exact (decodeToken_format rest (by decide)).trans rfl

def packAll (calls : List Call) : Pack Unit := calls.forM Call.pack

theorem packAll_chunks (calls : List Call) (h : ∀ call ∈ calls, call.WithinLimits)
    (buffer : Buffer) :
    ∃ chunks : List (List UInt8 × Token), chunks.map Prod.snd = calls.map Call.token ∧
      (∀ chunk ∈ chunks, ReadsAs chunk.1 chunk.2) ∧
      (packAll calls).run buffer = .ok () (buffer ++ (chunks.map Prod.fst).flatten) := by
  induction calls generalizing buffer with
  | nil => exact ⟨[], rfl, by simp, by simp [packAll]⟩
  | cons call calls ih =>
    obtain ⟨bytes, hrun, hreads⟩ := call.pack_readsAs (h call (List.mem_cons_self _ _)) buffer
    obtain ⟨chunks, htokens, hchunks, hrest⟩ :=
      ih (fun c hc => h c (List.mem_cons_of_mem _ hc)) (buffer ++ bytes)
    refine ⟨(bytes, call.token) :: chunks, by simp [htokens], ?_, ?_⟩
    · simpa [hreads] using hchunks
    · simp only [packAll, List.forM_cons] at hrest ⊢
      simp [hrun, hrest]

theorem packAll_decode (calls : List Call) (h : ∀ call ∈ calls, call.WithinLimits)
    (buffer : Buffer) :
    ∃ bytes, (packAll calls).run buffer = .ok () (buffer ++ bytes) ∧
      decode bytes = some (calls.map Call.token) := by
  obtain ⟨chunks, htokens, hchunks, hrun⟩ := packAll_chunks calls h buffer
  exact ⟨_, hrun, htokens ▸ decode_flatten chunks hchunks⟩

theorem packAll_decode_nil_array_str :
    (∀ call ∈ [Call.packNil, .packArray 2, .packStr [104, 105]], call.WithinLimits) ∧
    ∃ bytes, (packAll [Call.packNil, .packArray 2, .packStr [104, 105]]).run [] = .ok () ([] ++ bytes) ∧
      decode bytes = some [.nil, .array 2, .str [104, 105]] :=
  have h : ∀ call ∈ [Call.packNil, .packArray 2, .packStr [104, 105]], call.WithinLimits := by
    simp [Call.WithinLimits]
  ⟨h, packAll_decode _ h []⟩

theorem Call.pack_throws (call : Call) (h : ¬ call.WithinLimits) (buffer : Buffer) :
    ∃ e, call.pack.run buffer = .error e buffer := by
  cases call <;> simp only [Call.WithinLimits, not_true_eq_false, not_le] at h <;>
    simp only [Call.pack, packStr_run, packBin_run, Msgpack.packArray, Msgpack.packMap,
      packContainer_run] <;>
    split_ifs <;> first | exact ⟨_, rfl⟩ | omega

theorem packAll_throws_at_first_oversized (pre : List Call) (call : Call) (post : List Call)
    (hpre : ∀ c ∈ pre, c.WithinLimits) (hcall : ¬ call.WithinLimits) (buffer : Buffer) :
    ∃ e bytes, (packAll (pre ++ call :: post)).run buffer = .error e (buffer ++ bytes) ∧
      decode bytes = some (pre.map Call.token) := by
  obtain ⟨chunks, htokens, hchunks, hrun⟩ := packAll_chunks pre hpre buffer
  obtain ⟨e, he⟩ := call.pack_throws hcall (buffer ++ (chunks.map Prod.fst).flatten)
  refine ⟨e, _, ?_, htokens ▸ decode_flatten chunks hchunks⟩
  simp only [packAll, List.forM_append, List.forM_cons] at hrun ⊢
  simp [hrun, he]

theorem packAll_throws_at_first_oversized_array :
    (∀ c ∈ [Call.packNil], c.WithinLimits) ∧ ¬ (Call.packArray 4294967296).WithinLimits ∧
      ∃ e bytes, (packAll ([Call.packNil] ++ Call.packArray 4294967296 :: [.packBool true])).run [] =
        .error e ([] ++ bytes) ∧ decode bytes = some ([Call.packNil].map Call.token) :=
  have hpre : ∀ c ∈ [Call.packNil], c.WithinLimits := by simp [Call.WithinLimits]
  have hcall : ¬ (Call.packArray 4294967296).WithinLimits := by simp [Call.WithinLimits]
  ⟨hpre, hcall, packAll_throws_at_first_oversized _ _ _ hpre hcall []⟩

end DdTrace.Msgpack
