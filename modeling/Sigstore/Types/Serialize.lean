import Mathlib.Data.List.Nodup
import Sigstore.Types.Encoding

/-!
# Serialization

The derived serialization of `serde`, against the deserialization of `Json`: structs with fields
that are skipped, sequences, and structs with a flattened enum, which have the variant's name among
their own members. A struct is read back field by field, where each field is (`deRecord_record`,
`deRecordFrom_record`, `deFlatten_record`).
-/

namespace Sigstore

open Checks

namespace Json

/-- The members for the fields of a struct that are not skipped. -/
def present (fields : List (String × Option Json)) : List (String × Json) :=
  fields.filterMap fun field => field.2.map fun v => (field.1, v)

/-- A derived struct with the fields that are not skipped, in declaration order. -/
def record (fields : List (String × Option Json)) : Json := .object (present fields)

/-- A sequence. -/
def serVec {α : Type} (ser : α → Json) (l : List α) : Json := .array (l.map ser)

/-! ## Deserialization with defaults and flattened enums -/

section
variable {α : Type}

/-- The first of the names that is the key of more than one member. -/
def duplicate (names : List String) (members : List (String × Json)) : Option String :=
  names.find? fun name => 1 < (members.filter fun p => p.1 = name).length

/-- A derived struct whose fields after the `required` first have defaults: from a sequence, these
may be left out. -/
def deRecordFrom (required : Nat) (names : List String)
    (f : List (String × Json) → Except DeError α) : De α
  | object members =>
    match duplicate names members with
    | some name => .error (.duplicateField name)
    | none => f members
  | array items =>
    if required ≤ items.length ∧ items.length ≤ names.length then f (names.zip items)
    else .error .invalidLength
  | _ => .error (.invalidType "a struct")

/-- A derived struct with the fields `names` and a flattened rest of its members, from a map only.
-/
def deFlatten (names : List String)
    (f : List (String × Json) → List (String × Json) → Except DeError α) : De α
  | object members =>
    match duplicate names members with
    | some name => .error (.duplicateField name)
    | none => f members (members.filter fun p => p.1 ∉ names)
  | _ => .error (.invalidType "a map")

/-- An enum out of flattened members: the first of them that is named as a variant. -/
def deVariant (name : String) (variants : List (String × De α)) (rest : List (String × Json)) :
    Except DeError α :=
  match rest.findSome? fun p => (variants.lookup p.1).map fun de => de p.2 with
  | some result => result
  | none => .error (.custom s!"no variant of enum {name} found in flattened data")

/-- A field where `null` stands for its default. -/
def deNullAsDefault (default : α) (de : De α) : De α := fun v => do
  return (← deOption de v).getD default

/-- An integer in a string. -/
def deStringI64 : De Int64 := fun v => do
  let s ← deString v
  okOr (parseI64 s) (.custom s!"invalid integer: {s}")

def serStringI64 (i : Int64) : Json := .string (toString i.toInt)

end

/-! ## Structs are read back -/

section
variable {α β : Type} {fields : List (String × Option Json)}

/-- The first field is written where it is there, before the others. -/
theorem present_cons {name : String} {o : Option Json} :
    present ((name, o) :: fields) = (o.map (name, ·)).toList ++ present fields := by
  cases o <;> rfl

/-- A member that is written has the name of a field. -/
theorem mem_keys_of_mem_present {p : String × Json} (h : p ∈ present fields) :
    p.1 ∈ fields.map Prod.fst := by
  obtain ⟨field, hfield, hp⟩ := List.mem_filterMap.1 h
  obtain ⟨v, -, rfl⟩ := Option.map_eq_some_iff.1 hp
  exact List.mem_map_of_mem hfield

/-- The value of a field, unless it is skipped. A field that is skipped is absent, which its reader
takes for the default. -/
theorem lookup_present (h : (fields.map Prod.fst).Nodup) (name : String) :
    (present fields).lookup name = (fields.lookup name).join := by
  induction fields with
  | nil => rfl
  | cons field l ih =>
    obtain ⟨key, o⟩ := field
    obtain ⟨hkey, hnodup⟩ := List.nodup_cons.1 h
    rw [present_cons]
    by_cases heq : name = key
    · subst heq
      have hrest : (present l).lookup name = none := by
        rw [List.lookup_eq_none_iff]
        intro p hp
        simpa using fun hname : name = p.1 => hkey (hname ▸ mem_keys_of_mem_present hp)
      cases o with
      | none => simp [hrest]
      | some v => simp
    · have hne : (name == key) = false := by simpa using heq
      cases o with
      | none => simpa [List.lookup_cons, hne] using ih hnodup
      | some v => simpa [List.lookup_cons, hne] using ih hnodup

/-- No name is written twice. The reader refuses a member that comes twice, so that this is part of
reading back. -/
theorem filter_key_le (h : (fields.map Prod.fst).Nodup) (name : String) :
    ((present fields).filter fun p => p.1 = name).length ≤ 1 := by
  induction fields with
  | nil => simp [present]
  | cons field l ih =>
    obtain ⟨key, o⟩ := field
    obtain ⟨hkey, hnodup⟩ := List.nodup_cons.1 h
    rw [present_cons, List.filter_append, List.length_append]
    by_cases heq : key = name
    · subst heq
      have hrest : (present l).filter (fun p => p.1 = key) = [] := by
        rw [List.filter_eq_nil_iff]
        intro p hp hname
        exact hkey (of_decide_eq_true hname ▸ mem_keys_of_mem_present hp)
      rw [hrest]
      cases o <;> simp
    · have hhead : ((o.map (key, ·)).toList.filter fun p => p.1 = name) = [] := by
        cases o <;> simp [heq]
      rw [hhead]
      simpa using ih hnodup

/-- A struct has no member twice. -/
theorem duplicate_present (h : (fields.map Prod.fst).Nodup) (names : List String) :
    duplicate names (present fields) = none := by
  rw [duplicate, List.find?_eq_none]
  intro name _
  simpa using filter_key_le h name

/-- A struct is read from the members that were written for it: no field occurs twice. -/
theorem deRecord_record (h : (fields.map Prod.fst).Nodup) (names : List String)
    (f : List (String × Json) → Except DeError α) :
    deRecord names f (record fields) = f (present fields) := by
  have hdup := duplicate_present h names
  unfold duplicate at hdup
  simp only [deRecord, record, hdup]

/-- A struct of which some fields may be missing from an array is read from the members that were
written for it. -/
theorem deRecordFrom_record (h : (fields.map Prod.fst).Nodup) (required : Nat)
    (names : List String) (f : List (String × Json) → Except DeError α) :
    deRecordFrom required names f (record fields) = f (present fields) := by
  simp only [deRecordFrom, record, duplicate_present h names]

/-- A struct with a flattened field is read from the members that were written for it, and that
field from those of them that are not the struct's own. -/
theorem deFlatten_record (h : (fields.map Prod.fst).Nodup) (names : List String)
    (f : List (String × Json) → List (String × Json) → Except DeError α) :
    deFlatten names f (record fields) =
      f (present fields) ((present fields).filter fun p => p.1 ∉ names) := by
  simp only [deFlatten, record, duplicate_present h names]

/-- A field that is not skipped. -/
theorem field_present (h : (fields.map Prod.fst).Nodup) {name : String} {v : Json} (de : De α)
    (hfield : fields.lookup name = some (some v)) : field (present fields) name de = de v := by
  rw [field, lookup_present h, hfield]
  rfl

/-- A field with a default, which is skipped where it is absent. -/
theorem fieldOr_present (h : (fields.map Prod.fst).Nodup) {name : String} {o : Option Json}
    (default : α) (de : De α) (hfield : fields.lookup name = some o) :
    fieldOr (present fields) name default de = o.elim (.ok default) de := by
  rw [fieldOr, lookup_present h, hfield]
  cases o <;> rfl

/-- The elements of a sequence are read back where each is. -/
theorem deVec_serVec {de : De α} {ser : α → Json} {l : List α} (h : ∀ a ∈ l, de (ser a) = .ok a) :
    deVec de (serVec ser l) = .ok l := by
  show (l.map ser).mapM de = .ok l
  induction l with
  | nil => rfl
  | cons a l ih =>
    rw [List.map_cons, List.mapM_cons, h a List.mem_cons_self,
      ih fun b hb => h b (List.mem_cons_of_mem a hb)]
    rfl

/-- A number is read back from its decimal string. -/
@[simp] theorem deStringI64_ser (i : Int64) : deStringI64 (serStringI64 i) = .ok i := by
  show okOr (parseI64 (toString i.toInt)) _ = .ok i
  rw [parseI64_toString]
  rfl

end

end Json

/-! ## Base64 -/

namespace Types.Codec

variable (C : Codec)

/-- Standard base64: bytes are decoded from their text, which has four characters for every three
bytes and is padded where the bytes do not come in threes. -/
structure LawfulBase64 : Prop where
  decode_encode : ∀ bs, C.base64Decode (C.base64Encode bs) = .ok bs
  length_encode : ∀ bs, (utf8Bytes (C.base64Encode bs)).length = 4 * ((bs.length + 2) / 3)
  padded : ∀ bs, bs.length % 3 ≠ 0 → '=' ∈ (C.base64Encode bs).toList

/-- The serialization of a base64 type. -/
def serBase64 (bs : Bytes) : Json := .string (C.base64Encode bs)

variable {C}

/-- Bytes are read back from their base64 text. -/
theorem deBase64_ser (hC : C.LawfulBase64) (bs : Bytes) :
    C.deBase64 (C.serBase64 bs) = .ok bs := by
  show ((C.base64Decode (C.base64Encode bs)).mapError _).mapError _ = .ok bs
  rw [hC.decode_encode]
  rfl

end Types.Codec

end Sigstore
