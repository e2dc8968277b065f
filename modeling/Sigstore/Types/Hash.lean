import Mathlib.Data.List.Basic

/-!
# Bytes and digests

Byte strings, the hash algorithms of the bundle format, and the fixed-size SHA-256 digest of
`sigstore-types`.
-/

namespace Sigstore

abbrev Bytes := List UInt8

/-- Supported hash algorithms. -/
inductive HashAlgorithm where
  | sha2256
  | sha2384
  | sha2512
  deriving DecidableEq, Repr

/-- Digest size in bytes. -/
def HashAlgorithm.digestSize : HashAlgorithm → Nat
  | sha2256 => 32
  | sha2384 => 48
  | sha2512 => 64

def hexDigit (n : Nat) : Char := Char.ofNat (if n < 10 then 48 + n else 87 + n)

/-- Lower-case hexadecimal, two digits a byte. -/
def hexEncode (bs : Bytes) : String :=
  String.ofList (bs.flatMap fun b => [hexDigit (b.toNat / 16), hexDigit (b.toNat % 16)])

/-- The value of a hexadecimal digit of either case. -/
def hexValue (c : Char) : Option Nat :=
  if '0' ≤ c ∧ c ≤ '9' then some (c.toNat - 48)
  else if 'a' ≤ c ∧ c ≤ 'f' then some (c.toNat - 87)
  else if 'A' ≤ c ∧ c ≤ 'F' then some (c.toNat - 55)
  else none

/-- The bytes of pairs of hexadecimal digits; `none` for an odd length or any other character. -/
def hexPairs : List Char → Option Bytes
  | [] => some []
  | [_] => none
  | c :: d :: l => do
    let hi ← hexValue c
    let lo ← hexValue d
    let rest ← hexPairs l
    return UInt8.ofNat (16 * hi + lo) :: rest

def hexDecode (s : String) : Option Bytes := hexPairs s.toList

/-- A hexadecimal digit has its value and is in lower case. -/
theorem hexDigit_lower {n : Nat} (h : n < 16) :
    hexValue (hexDigit n) = some n ∧ (hexDigit n).toLower = hexDigit n := by
  have hall : ∀ n : Fin 16, hexValue (hexDigit n) = some n.val ∧
      (hexDigit n).toLower = hexDigit n := by decide
  exact hall ⟨n, h⟩

/-- Encoded bytes are decoded to themselves. Each byte is two characters, the high half first, which
the decoder takes off together. -/
theorem hexDecode_hexEncode (bs : Bytes) : hexDecode (hexEncode bs) = some bs := by
  rw [hexDecode, hexEncode, String.toList_ofList]
  induction bs with
  | nil => rfl
  | cons b bs ih =>
    have hlt : b.toNat < 256 := b.toNat_lt
    have hhigh := (hexDigit_lower (n := b.toNat / 16) (by omega)).1
    have hlow := (hexDigit_lower (n := b.toNat % 16) (by omega)).1
    rw [List.flatMap_cons, List.cons_append, List.cons_append, List.nil_append, hexPairs, hhigh,
      hlow, ih]
    show some (UInt8.ofNat (16 * (b.toNat / 16) + b.toNat % 16) :: bs) = _
    rw [Nat.div_add_mod, UInt8.ofNat_toNat]

/-- Hexadecimal texts that are written are in lower case. -/
theorem toLower_hexEncode (bs : Bytes) :
    (hexEncode bs).toList.map Char.toLower = (hexEncode bs).toList := by
  rw [hexEncode, String.toList_ofList]
  induction bs with
  | nil => rfl
  | cons b bs ih =>
    have hlt : b.toNat < 256 := b.toNat_lt
    have hhigh := (hexDigit_lower (n := b.toNat / 16) (by omega)).2
    have hlow := (hexDigit_lower (n := b.toNat % 16) (by omega)).2
    rw [List.flatMap_cons, List.map_append, ih, List.map_cons, List.map_cons, hhigh, hlow]
    rfl

/-- A SHA-256 digest: 32 bytes. -/
structure Sha256Hash where
  bytes : Bytes
  length_bytes : bytes.length = 32
  deriving DecidableEq

namespace Sha256Hash

@[ext] theorem ext {a b : Sha256Hash} (h : a.bytes = b.bytes) : a = b := by
  cases a; cases b; cases h; rfl

/-- A digest from a slice, which must have 32 bytes. -/
def tryFromSlice (bs : Bytes) : Except String Sha256Hash :=
  if h : bs.length = 32 then .ok ⟨bs, h⟩
  else .error s!"SHA-256 hash must be 32 bytes, got {bs.length}"

/-- A hash is read back from its bytes. -/
theorem tryFromSlice_bytes (h : Sha256Hash) : tryFromSlice h.bytes = .ok h :=
  dif_pos h.length_bytes

def toHex (h : Sha256Hash) : String := hexEncode h.bytes

end Sha256Hash

end Sigstore
