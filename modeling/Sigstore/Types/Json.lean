import Sigstore.BTreeMap
import Sigstore.Types.Hash

/-!
# JSON values

JSON values as `serde_json` holds them, the accessors the code uses on them, and the derived
deserialization of typed values out of them. The members of an object are in the key order of
`serde_json::Map`, or, where a typed value is read straight from a text, in the order of the text.
The parser from text to values is a third-party package and a parameter of what needs it.
-/

namespace Sigstore

/-- The bytes of a string. -/
def utf8Bytes (s : String) : Bytes := s.toUTF8.data.toList

/-- A text is encoded character by character. -/
theorem utf8Bytes_eq_flatMap (s : String) :
    utf8Bytes s = s.toList.flatMap String.utf8EncodeChar := by
  rw [utf8Bytes, String.toUTF8, ← String.utf8Encode_toList, List.utf8Encode]
  simp

theorem utf8Bytes_append (s t : String) : utf8Bytes (s ++ t) = utf8Bytes s ++ utf8Bytes t := by
  simp only [utf8Bytes_eq_flatMap, String.toList_append, List.flatMap_append]

/-- Different texts have different bytes. -/
theorem utf8Bytes_injective : Function.Injective utf8Bytes := by
  intro s t h
  rw [← String.toByteArray_inj]
  exact ByteArray.ext (Array.toList_inj.1 h)

/-- The bytes of a string of ASCII characters are these characters. -/
theorem mem_utf8Bytes {s : String} {x : UInt8} (h : x ∈ utf8Bytes s)
    (hascii : ∀ c ∈ s.toList, c.utf8Size = 1) : ∃ c ∈ s.toList, x = c.val.toUInt8 := by
  rw [utf8Bytes_eq_flatMap] at h
  obtain ⟨c, hc, hx⟩ := List.mem_flatMap.1 h
  rw [String.utf8EncodeChar_eq_singleton (hascii c hc)] at hx
  exact ⟨c, hc, List.mem_singleton.1 hx⟩

/-- A string of ASCII characters has as many bytes as characters. -/
theorem length_utf8Bytes {s : String} (h : ∀ c ∈ s.toList, c.utf8Size = 1) :
    (utf8Bytes s).length = s.toList.length := by
  rw [utf8Bytes_eq_flatMap, List.length_flatMap,
    List.map_congr_left fun c hc => (String.length_utf8EncodeChar c).trans (h c hc)]
  simp

/-- A JSON number: an unsigned or a negative integer that fits 64 bits, or any other number. -/
inductive JsonNumber where
  | posInt (n : UInt64)
  | negInt (i : Int64)
  | float (text : String)
  deriving DecidableEq

inductive Json where
  | null
  | bool (b : Bool)
  | number (n : JsonNumber)
  | string (s : String)
  | array (items : List Json)
  | object (members : List (String × Json))

/-- What a typed deserialization found wrong; the texts are `serde`'s. -/
inductive DeError where
  | missingField (name : String)
  | duplicateField (name : String)
  | invalidType (expected : String)
  | invalidLength
  | custom (msg : String)
  deriving DecidableEq

namespace Json

/-- The members of an object. -/
def asObject : Json → Option (List (String × Json))
  | object members => some members
  | _ => none

/-- The member of an object. -/
def get (name : String) : Json → Option Json
  | object members => members.lookup name
  | _ => none

def asStr : Json → Option String
  | string s => some s
  | _ => none

/-! ## Deserialization -/

abbrev De (α : Type) := Json → Except DeError α

def deValue : De Json := .ok

def deString : De String
  | string s => .ok s
  | _ => .error (.invalidType "a string")

def deBool : De Bool
  | bool b => .ok b
  | _ => .error (.invalidType "a boolean")

def deU64 : De UInt64
  | number (.posInt n) => .ok n
  | _ => .error (.invalidType "u64")

/-- An optional value, where `null` stands for its absence. -/
def deOption {α : Type} (de : De α) : De (Option α)
  | null => .ok none
  | v => (de v).map some

def deVec {α : Type} (de : De α) : De (List α)
  | array items => items.mapM de
  | _ => .error (.invalidType "a sequence")

def deEntries {α : Type} (de : De α) : List (String × Json) → Except DeError (List (String × α))
  | [] => .ok []
  | (k, v) :: l => do
    let a ← de v
    let rest ← deEntries de l
    return (k, a) :: rest

def deMap {α : Type} (de : De α) : De (BTreeMap String α)
  | object members => (deEntries de members).map BTreeMap.ofList
  | _ => .error (.invalidType "a map")

/-- A required field of a struct that is deserialized from a map. -/
def field {α : Type} (members : List (String × Json)) (name : String) (de : De α) :
    Except DeError α :=
  match members.lookup name with
  | some v => de v
  | none => .error (.missingField name)

/-- A field with a default. -/
def fieldOr {α : Type} (members : List (String × Json)) (name : String) (default : α) (de : De α) :
    Except DeError α :=
  match members.lookup name with
  | some v => de v
  | none => .ok default

/-- A struct with flattened extras, which is deserialized from a map only. -/
def deStruct {α : Type} (f : List (String × Json) → Except DeError α) : De α
  | object members => f members
  | _ => .error (.invalidType "a map")

/-- A derived struct with the fields `names`, in declaration order: from a map that has none of them
twice, or from the sequence of their values. -/
def deRecord {α : Type} (names : List String) (f : List (String × Json) → Except DeError α) : De α
  | object members =>
    match names.find? fun name => 1 < (members.filter fun p => p.1 = name).length with
    | some name => .error (.duplicateField name)
    | none => f members
  | array items =>
    if items.length = names.length then f (names.zip items) else .error .invalidLength
  | _ => .error (.invalidType "a struct")

end Json

end Sigstore
