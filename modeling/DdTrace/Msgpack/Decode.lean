import DdTrace.Msgpack.Buffer

/-! A MessagePack decoder written from the format table of the MessagePack
specification, independently of the encoder: it is what the agent reading the
payload sees, and the encoder is proved against it. -/
namespace DdTrace.Msgpack

inductive Token
  | nil
  | bool (value : Bool)
  | int (value : Int)
  | float32 (bits : UInt32)
  | float64 (bits : UInt64)
  | str (bytes : List UInt8)
  | bin (bytes : List UInt8)
  | array (count : Nat)
  | map (count : Nat)
  | ext (type : Int) (data : List UInt8)
  deriving DecidableEq, Repr

def readUInt (width : Nat) (input : List UInt8) : Option (Nat × List UInt8) :=
  if width ≤ input.length then some (bigEndian (input.take width), input.drop width) else none

theorem readUInt_bigEndianBytes (width value : Nat) (rest : List UInt8) :
    readUInt width (bigEndianBytes width value ++ rest) = some (value % 2 ^ (8 * width), rest) := by
  simp [readUInt, bigEndian_bigEndianBytes]

def readBytes (count : Nat) (input : List UInt8) : Option (List UInt8 × List UInt8) :=
  if count ≤ input.length then some (input.take count, input.drop count) else none

theorem readBytes_append (bytes rest : List UInt8) :
    readBytes bytes.length (bytes ++ rest) = some (bytes, rest) := by
  simp [readBytes]

/-- The two's complement reading of a `width`-byte number. -/
def toSigned (width value : Nat) : Int :=
  if value < 2 ^ (8 * width - 1) then value else value - 2 ^ (8 * width)

def readInt (width : Nat) (input : List UInt8) : Option (Int × List UInt8) :=
  (readUInt width input).map fun (value, rest) => (toSigned width value, rest)

/-- A `width`-byte length, then that many bytes. -/
def readSized (width : Nat) (input : List UInt8) : Option (List UInt8 × List UInt8) := do
  let (count, rest) ← readUInt width input
  readBytes count rest

/-- An extension type byte, then `count` bytes of data. -/
def readExt (count : Nat) (input : List UInt8) : Option (Token × List UInt8) := do
  let (type, rest) ← readInt 1 input
  let (data, rest) ← readBytes count rest
  pure (.ext type data, rest)

/-- The formats whose first byte lies in `0xC0 ... 0xDF`; `0xC1` is never used. -/
def decodeFormat (first : Nat) (input : List UInt8) : Option (Token × List UInt8) :=
  match first with
  | 0xC0 => some (.nil, input)
  | 0xC2 => some (.bool false, input)
  | 0xC3 => some (.bool true, input)
  | 0xC4 => (readSized 1 input).map fun (bytes, rest) => (.bin bytes, rest)
  | 0xC5 => (readSized 2 input).map fun (bytes, rest) => (.bin bytes, rest)
  | 0xC6 => (readSized 4 input).map fun (bytes, rest) => (.bin bytes, rest)
  | 0xC7 => (readUInt 1 input).bind fun (count, rest) => readExt count rest
  | 0xC8 => (readUInt 2 input).bind fun (count, rest) => readExt count rest
  | 0xC9 => (readUInt 4 input).bind fun (count, rest) => readExt count rest
  | 0xCA => (readUInt 4 input).map fun (bits, rest) => (.float32 (UInt32.ofNat bits), rest)
  | 0xCB => (readUInt 8 input).map fun (bits, rest) => (.float64 (UInt64.ofNat bits), rest)
  | 0xCC => (readUInt 1 input).map fun (value, rest) => (.int value, rest)
  | 0xCD => (readUInt 2 input).map fun (value, rest) => (.int value, rest)
  | 0xCE => (readUInt 4 input).map fun (value, rest) => (.int value, rest)
  | 0xCF => (readUInt 8 input).map fun (value, rest) => (.int value, rest)
  | 0xD0 => (readInt 1 input).map fun (value, rest) => (.int value, rest)
  | 0xD1 => (readInt 2 input).map fun (value, rest) => (.int value, rest)
  | 0xD2 => (readInt 4 input).map fun (value, rest) => (.int value, rest)
  | 0xD3 => (readInt 8 input).map fun (value, rest) => (.int value, rest)
  | 0xD4 => readExt 1 input
  | 0xD5 => readExt 2 input
  | 0xD6 => readExt 4 input
  | 0xD7 => readExt 8 input
  | 0xD8 => readExt 16 input
  | 0xD9 => (readSized 1 input).map fun (bytes, rest) => (.str bytes, rest)
  | 0xDA => (readSized 2 input).map fun (bytes, rest) => (.str bytes, rest)
  | 0xDB => (readSized 4 input).map fun (bytes, rest) => (.str bytes, rest)
  | 0xDC => (readUInt 2 input).map fun (count, rest) => (.array count, rest)
  | 0xDD => (readUInt 4 input).map fun (count, rest) => (.array count, rest)
  | 0xDE => (readUInt 2 input).map fun (count, rest) => (.map count, rest)
  | 0xDF => (readUInt 4 input).map fun (count, rest) => (.map count, rest)
  | _ => none

def decodeToken : List UInt8 → Option (Token × List UInt8)
  | [] => none
  | first :: input =>
    if first.toNat < 0x80 then some (.int first.toNat, input)
    else if first.toNat < 0x90 then some (.map (first.toNat - 0x80), input)
    else if first.toNat < 0xA0 then some (.array (first.toNat - 0x90), input)
    else if first.toNat < 0xC0 then
      (readBytes (first.toNat - 0xA0) input).map fun (bytes, rest) => (.str bytes, rest)
    else if first.toNat < 0xE0 then decodeFormat first.toNat input
    else some (.int (first.toNat - 256), input)

section DecodeToken

variable {first : UInt8} (rest : List UInt8)

theorem decodeToken_positiveFixnum (h : first.toNat < 0x80) :
    decodeToken (first :: rest) = some (.int first.toNat, rest) := by
  rw [decodeToken, if_pos h]

theorem decodeToken_fixMap (h : 0x80 ≤ first.toNat ∧ first.toNat < 0x90) :
    decodeToken (first :: rest) = some (.map (first.toNat - 0x80), rest) := by
  simp (disch := omega) only [decodeToken, if_pos, if_neg]

theorem decodeToken_fixArray (h : 0x90 ≤ first.toNat ∧ first.toNat < 0xA0) :
    decodeToken (first :: rest) = some (.array (first.toNat - 0x90), rest) := by
  simp (disch := omega) only [decodeToken, if_pos, if_neg]

theorem decodeToken_fixStr (h : 0xA0 ≤ first.toNat ∧ first.toNat < 0xC0) :
    decodeToken (first :: rest) =
      (readBytes (first.toNat - 0xA0) rest).map fun (bytes, rest) => (.str bytes, rest) := by
  simp (disch := omega) only [decodeToken, if_pos, if_neg]

theorem decodeToken_format (h : 0xC0 ≤ first.toNat ∧ first.toNat < 0xE0) :
    decodeToken (first :: rest) = decodeFormat first.toNat rest := by
  simp (disch := omega) only [decodeToken, if_pos, if_neg]

theorem decodeToken_negativeFixnum (h : 0xE0 ≤ first.toNat) :
    decodeToken (first :: rest) = some (.int (first.toNat - 256), rest) := by
  simp (disch := omega) only [decodeToken, if_pos, if_neg]

end DecodeToken

/-- Tokens until the input is used up; `fuel` bounds their number. -/
def decodeTokens : Nat → List UInt8 → Option (List Token)
  | _, [] => some []
  | 0, _ :: _ => none
  | fuel + 1, first :: input => do
    let (token, rest) ← decodeToken (first :: input)
    let tokens ← decodeTokens fuel rest
    pure (token :: tokens)

def decode (input : List UInt8) : Option (List Token) := decodeTokens input.length input

/-- `bytes` hold exactly one token, `token`: the decoder reads it from them
whatever follows. -/
def ReadsAs (bytes : List UInt8) (token : Token) : Prop :=
  bytes ≠ [] ∧ ∀ rest, decodeToken (bytes ++ rest) = some (token, rest)

theorem decodeTokens_flatten (chunks : List (List UInt8 × Token))
    (h : ∀ chunk ∈ chunks, ReadsAs chunk.1 chunk.2) (fuel : Nat) (hfuel : chunks.length ≤ fuel) :
    decodeTokens fuel (chunks.map Prod.fst).flatten = some (chunks.map Prod.snd) := by
  induction chunks generalizing fuel with
  | nil => cases fuel <;> rfl
  | cons chunk chunks ih =>
    obtain ⟨bytes, token⟩ := chunk
    obtain ⟨hne, hread⟩ := h _ (List.mem_cons_self _ _)
    obtain ⟨fuel, rfl⟩ : ∃ f, fuel = f + 1 := ⟨fuel - 1, by simp at hfuel; omega⟩
    obtain ⟨first, bytes, rfl⟩ := List.exists_cons_of_ne_nil hne
    have hrest := ih (fun c hc => h c (List.mem_cons_of_mem _ hc)) fuel (by simpa using hfuel)
    have hfirst := hread (chunks.map Prod.fst).flatten
    simp only [List.cons_append] at hfirst
    simp only [List.map_cons, List.flatten_cons, List.cons_append, decodeTokens, List.append_eq,
      hfirst, Option.bind_eq_bind, Option.some_bind, hrest]
    rfl

theorem decode_flatten (chunks : List (List UInt8 × Token))
    (h : ∀ chunk ∈ chunks, ReadsAs chunk.1 chunk.2) :
    decode (chunks.map Prod.fst).flatten = some (chunks.map Prod.snd) := by
  refine decodeTokens_flatten chunks h _ ?_
  induction chunks with
  | nil => simp
  | cons chunk chunks ih =>
    have hne := (h chunk (List.mem_cons_self _ _)).1
    have := ih (fun c hc => h c (List.mem_cons_of_mem _ hc))
    have : 0 < chunk.1.length := List.length_pos.mpr hne
    simp only [List.map_cons, List.flatten_cons, List.length_append, List.length_cons]
    omega

end DdTrace.Msgpack
