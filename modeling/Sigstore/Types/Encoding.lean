import Sigstore.Checks
import Sigstore.Types.Json
import Sigstore.Types.Text

/-!
# Encodings

The errors of `sigstore-types`, and its encoded types (`encoding.rs`, `hash.rs`): base64 bytes,
digests in hexadecimal, key hints, log indices. The encoders and parsers they rest on are
third-party packages: `Codec` holds them as parameters.
-/

namespace Sigstore.Types

open Checks

/-- Errors of the types. -/
inductive Error where
  | invalidMediaType (msg : String)
  | invalidCheckpoint (msg : String)
  | validation (msg : String)
  | invalidEncoding (msg : String)
  deriving DecidableEq, Repr

/-- The text of an error. -/
def Error.display : Error → String
  | invalidMediaType msg => s!"Invalid media type: {msg}"
  | invalidCheckpoint msg => s!"Invalid checkpoint format: {msg}"
  | validation msg => s!"Validation error: {msg}"
  | invalidEncoding msg => s!"Invalid encoding: {msg}"

/-- The encoders and parsers taken from outside, with the texts of their errors. -/
structure Codec where
  base64Encode : Bytes → String
  base64DecodeBytes : Bytes → Except String Bytes
  /-- The JSON parser: the value of a text, with the members of objects in the order of the text. -/
  parseJson : String → Except String Json
  /-- What a typed error in a JSON text reads, with its position in the text. -/
  jsonError : String → DeError → String
  hexError : String → String
  utf8Error : Bytes → String

/-- The string that bytes encode in UTF-8. -/
def decodeUtf8 (bs : Bytes) : Option String := String.fromUTF8? (ByteArray.mk bs.toArray)

/-- Text is decoded from its bytes. -/
theorem decodeUtf8_utf8Bytes (s : String) : decodeUtf8 (utf8Bytes s) = some s := by
  have hbytes : ByteArray.mk (utf8Bytes s).toArray = s.toUTF8 := by
    rw [utf8Bytes, Array.toArray_toList]
  have hvalid : s.toUTF8.IsValidUTF8 := s.isValidUTF8
  rw [decodeUtf8, hbytes, String.fromUTF8?, dif_pos hvalid]
  rfl

namespace Codec

variable (C : Codec)

/-- The bytes that a string encodes in base64. -/
def base64Decode (s : String) : Except String Bytes := C.base64DecodeBytes (utf8Bytes s)

/-- `String::from_utf8`. -/
def fromUtf8 (bs : Bytes) : Except String String := okOr (decodeUtf8 bs) (C.utf8Error bs)

/-- `serde_json::from_str` at a type. -/
def fromJson {α : Type} (de : Json.De α) (text : String) : Except String α := do
  let v ← C.parseJson text
  (de v).mapError (C.jsonError text)

/-- `from_base64` of a base64 type. -/
def fromBase64 (s : String) : Except Error Bytes :=
  (C.base64Decode s).mapError fun e => .invalidEncoding s!"invalid base64: {e}"

/-- The deserialization of a base64 type. -/
def deBase64 : Json.De Bytes := fun v => do
  let s ← Json.deString v
  (C.fromBase64 s).mapError fun e => .custom e.display

/-- The deserialization of `Vec<u8>` with `base64_bytes`. -/
def deBase64Bytes : Json.De Bytes := fun v => do
  let s ← Json.deString v
  (C.base64Decode s).mapError .custom

/-- `Sha256Hash::try_from_slice`. -/
def sha256FromSlice (bs : Bytes) : Except Error Sha256Hash :=
  (Sha256Hash.tryFromSlice bs).mapError .invalidEncoding

/-- `Sha256Hash::from_hex`. -/
def sha256FromHex (s : String) : Except Error Sha256Hash := do
  let bs ← okOr (hexDecode s) (.invalidEncoding s!"invalid hex: {C.hexError s}")
  sha256FromSlice bs

end Codec

/-- `HashAlgorithm::from_str_flexible`. -/
def hashAlgorithmFromStr (s : String) : Option HashAlgorithm :=
  match String.ofList (s.toList.map Char.toLower) with
  | "sha256" | "sha2_256" | "sha-256" => some .sha2256
  | "sha384" | "sha2_384" | "sha-384" => some .sha2384
  | "sha512" | "sha2_512" | "sha-512" => some .sha2512
  | _ => none

def deHashAlgorithm : Json.De HashAlgorithm := fun v => do
  let s ← Json.deString v
  okOr (hashAlgorithmFromStr s) (.custom s!"unknown hash algorithm: {s}")

/-- A hash algorithm in Rust's debug format. -/
def hashAlgorithmDebug : HashAlgorithm → String
  | .sha2256 => "Sha2256"
  | .sha2384 => "Sha2384"
  | .sha2512 => "Sha2512"

/-- The first four bytes of a key's identifier. -/
structure KeyHint where
  bytes : Bytes
  length_bytes : bytes.length = 4
  deriving DecidableEq

/-- A key hint from a slice, which must have 4 bytes. -/
def KeyHint.tryFromSlice (bs : Bytes) : Except Error KeyHint :=
  if h : bs.length = 4 then .ok ⟨bs, h⟩
  else .error (.validation s!"key hint must be exactly 4 bytes, got {bs.length}")

/-- `u64::try_from` on a signed integer. -/
def tryU64 (i : Int64) : Option UInt64 := if 0 ≤ i then some i.toUInt64 else none

/-- A number that `u64::try_from` converts keeps its value. A negative number is not converted. -/
theorem toNat_of_tryU64 {i : Int64} {u : UInt64} (h : tryU64 i = some u) :
    (u.toNat : Int) = i.toInt := by
  unfold tryU64 at h
  split at h
  · next hle =>
    cases h
    have hint : 0 ≤ i.toInt := Int64.le_iff_toInt_le.1 hle
    have hbits : i.toInt = i.toBitVec.toInt := rfl
    have hnat : i.toUInt64.toNat = i.toBitVec.toNat := rfl
    have hlt := i.toBitVec.isLt
    rw [hbits, BitVec.toInt_eq_toNat_cond] at hint ⊢
    rw [hnat]
    split at hint
    · next hhalf => rw [if_pos hhalf]
    · omega
  · cases h

/-- A transparency log index. -/
structure LogIndex where
  value : Int64
  deriving DecidableEq

/-- The index as an unsigned integer, unless it is negative. -/
def LogIndex.asU64 (i : LogIndex) : Option UInt64 := tryU64 i.value

/-- The decoded bytes of a log's base64 key identifier. -/
def decodeLogKeyId (C : Codec) (keyId : String) : Except Error Bytes :=
  (C.base64Decode keyId).mapError fun e => .invalidEncoding s!"invalid base64 in log key id: {e}"

/-- A log's identifier in hexadecimal, as the V1 API of Rekor has it. -/
structure HexLogId where
  text : String
  deriving DecidableEq

namespace HexLogId

variable (C : Codec)

/-- The bytes of the identifier. -/
def decode (id : HexLogId) : Except Error Bytes :=
  okOr (hexDecode id.text) (.invalidEncoding s!"invalid hex: {C.hexError id.text}")

/-- The identifier in base64, as bundles have it. -/
def toBase64 (id : HexLogId) : Except Error String := do
  let bytes ← id.decode C
  return C.base64Encode bytes

end HexLogId

end Sigstore.Types
