import Sigstore.Rekor.Body

/-!
# The formats of entry bodies

A body is parsed as the type that the given kind and version name, from its member `spec` alone
(`fromJsonText_cases`). The five types require different members of `spec`, so that a body which has
those of one type only is not parsed as another (`type_eq_of_writtenAs`).
-/

namespace Sigstore.Rekor

open Checks Types Json

/-- The types of bodies. -/
inductive BodyType where
  | hashedRekordV001
  | hashedRekordV002
  | dsseV001
  | dsseV002
  | intotoV002
  deriving DecidableEq, Repr

namespace BodyType

def kind : BodyType → String
  | hashedRekordV001 => "hashedrekord"
  | hashedRekordV002 => "hashedrekord"
  | dsseV001 => "dsse"
  | dsseV002 => "dsse"
  | intotoV002 => "intoto"

def version : BodyType → String
  | hashedRekordV001 => "0.0.1"
  | hashedRekordV002 => "0.0.2"
  | dsseV001 => "0.0.1"
  | dsseV002 => "0.0.2"
  | intotoV002 => "0.0.2"

/-- The members of `spec`. -/
def specMembers : BodyType → List String
  | hashedRekordV001 => ["data", "signature"]
  | hashedRekordV002 => ["hashedRekordV002"]
  | dsseV001 => ["envelopeHash", "payloadHash", "signatures"]
  | dsseV002 => ["dsseV002"]
  | intotoV002 => ["content"]

/-- No type's members are all members of another type. -/
theorem eq_of_specMembers_subset {s t : BodyType} (h : ∀ name ∈ s.specMembers,
    name ∈ t.specMembers) : s = t := by
  revert h
  cases s <;> cases t <;> decide

end BodyType

/-- The type of a parsed body. -/
def RekorEntryBody.type : RekorEntryBody → BodyType
  | .hashedRekordV001 _ => .hashedRekordV001
  | .hashedRekordV002 _ => .hashedRekordV002
  | .dsseV001 _ => .dsseV001
  | .dsseV002 _ => .dsseV002
  | .intotoV002 _ => .intotoV002

/-- The `spec` of a body is an object with members of a type's format only. -/
def WrittenAs (t : BodyType) (body : Json) : Prop :=
  ∃ members spec, body = .object members ∧ members.lookup "spec" = some (.object spec) ∧
    ∀ p ∈ spec, p.1 ∈ t.specMembers

/-- Bodies with the same members `spec`, whatever other members they have. -/
def SameSpec (members members' : List (String × Json)) : Prop :=
  members.filter (fun p => p.1 = "spec") = members'.filter fun p => p.1 = "spec"

/-! ## Members -/

section
variable {α : Type}

/-- A struct that is read from an object is read from its members. Members of names that the struct
does not have are passed over. -/
theorem deRecord_object {names : List String} {f : List (String × Json) → Except DeError α}
    {members : List (String × Json)} {a : α} (h : deRecord names f (.object members) = .ok a) :
    f members = .ok a := by
  unfold deRecord at h
  split at h
  · next heq =>
    cases heq
    split at h
    · cases h
    · exact h
  · next heq => cases heq
  · next hobject _ => exact absurd rfl (hobject members)

/-- A field that is required and read is there. -/
theorem field_eq_ok {members : List (String × Json)} {name : String} {de : De α} {a : α} :
    field members name de = .ok a ↔ ∃ v, members.lookup name = some v ∧ de v = .ok a := by
  unfold field
  cases members.lookup name with
  | none => simp
  | some v => simp

/-- A member that is found is one of the object. -/
theorem mem_of_lookup {members : List (String × Json)} {name : String} {v : Json}
    (h : members.lookup name = some v) : (name, v) ∈ members := by
  obtain ⟨l, r, rfl, -⟩ := List.lookup_eq_some_iff.1 h
  exact List.mem_append_right _ (List.mem_cons_self ..)

/-- A field that is read is one of the object. -/
theorem mem_of_field {members : List (String × Json)} {name : String} {de : De α} {a : α}
    (h : field members name de = .ok a) : ∃ p ∈ members, p.1 = name := by
  obtain ⟨v, hlookup, -⟩ := field_eq_ok.1 h
  exact ⟨(name, v), mem_of_lookup hlookup, rfl⟩

/-- Only the members of a name are looked up under it. -/
theorem lookup_filter_key (members : List (String × Json)) (name : String) :
    (members.filter fun p => p.1 = name).lookup name = members.lookup name := by
  induction members with
  | nil => rfl
  | cons p l ih =>
    obtain ⟨key, v⟩ := p
    by_cases hname : key = name
    · simp [hname]
    · have hne : (name == key) = false := by simpa using fun h : name = key => hname h.symm
      simp [hname, List.lookup_cons, hne, ih]

/-- A struct with the field `spec` reads that member alone. -/
theorem deOnly_spec {de : De α} {members members' : List (String × Json)}
    (h : SameSpec members members') :
    deOnly "spec" de (.object members) = deOnly "spec" de (.object members') := by
  have hlookup : members.lookup "spec" = members'.lookup "spec" := by
    rw [← lookup_filter_key members, ← lookup_filter_key members']
    exact congrArg _ h
  simp only [deOnly, deRecord, List.find?_cons, List.find?_nil, field, hlookup]
  rw [show members.filter (fun p => p.1 = "spec") = members'.filter fun p => p.1 = "spec" from h]

end

/-! ## Parsing -/

section
variable {C : Codec} {kind version text : String} {body : RekorEntryBody}

/-- A body is parsed as JSON and read as the struct of its type. The text for the error, `what`,
does not matter. -/
theorem parseBody_eq_ok {α : Type} {what : String} {de : De α} {wrap : α → RekorEntryBody} :
    parseBody C what de wrap text = .ok body ↔
      ∃ v a, C.parseJson text = .ok v ∧ de v = .ok a ∧ wrap a = body := by
  have hjson : ∀ a, C.fromJson de text = .ok a ↔
      ∃ v, C.parseJson text = .ok v ∧ de v = .ok a := by
    simp only [Codec.fromJson, bind_eq_ok, mapError_eq_ok, implies_true]
  unfold parseBody
  constructor
  · intro h
    split at h
    · next a hread =>
      obtain ⟨v, hparse, hde⟩ := (hjson a).1 hread
      exact ⟨v, a, hparse, hde, Except.ok.inj h⟩
    · cases h
  · rintro ⟨v, a, hparse, hde, rfl⟩
    rw [(hjson a).2 ⟨v, hparse, hde⟩]

/-- The parser that a kind and a version choose is that of a type, which reads the members that the
type requires out of `spec`. -/
theorem fromJsonText_cases (C : Codec) (kind version : String) :
    (∃ t : BodyType, t.kind = kind ∧ t.version = version ∧
      ∃ (α : Type) (what : String) (spec : De α) (wrap : α → RekorEntryBody),
        (∀ text, fromJsonText C kind version text =
          parseBody C what (deOnly "spec" spec) wrap text) ∧
        (∀ a, (wrap a).type = t) ∧
        ∀ members a, spec (.object members) = .ok a →
          ∀ name ∈ t.specMembers, ∃ p ∈ members, p.1 = name) ∨
    ∀ text, ∃ e, fromJsonText C kind version text = .error e := by
  unfold fromJsonText
  split
  · refine .inl ⟨.hashedRekordV001, rfl, rfl, _, _, _, _, fun _ => rfl, fun _ => rfl, ?_⟩
    intro members a h
    have h := deRecord_object h
    simp only [bind_eq_ok] at h
    obtain ⟨_, hdata, _, hsignature, -⟩ := h
    simp only [BodyType.specMembers, List.forall_mem_cons, List.not_mem_nil, false_imp_iff,
      implies_true, and_true]
    exact ⟨mem_of_field hdata, mem_of_field hsignature⟩
  · refine .inl ⟨.hashedRekordV002, rfl, rfl, _, _, _, _, fun _ => rfl, fun _ => rfl, ?_⟩
    intro members a h
    simp only [BodyType.specMembers, List.forall_mem_cons, List.not_mem_nil, false_imp_iff,
      implies_true, and_true]
    exact mem_of_field (deRecord_object h)
  · refine .inl ⟨.dsseV001, rfl, rfl, _, _, _, _, fun _ => rfl, fun _ => rfl, ?_⟩
    intro members a h
    have h := deRecord_object h
    simp only [bind_eq_ok] at h
    obtain ⟨_, henvelope, _, hpayload, _, hsignatures, -⟩ := h
    simp only [BodyType.specMembers, List.forall_mem_cons, List.not_mem_nil, false_imp_iff,
      implies_true, and_true]
    exact ⟨mem_of_field henvelope, mem_of_field hpayload, mem_of_field hsignatures⟩
  · refine .inl ⟨.dsseV002, rfl, rfl, _, _, _, _, fun _ => rfl, fun _ => rfl, ?_⟩
    intro members a h
    simp only [BodyType.specMembers, List.forall_mem_cons, List.not_mem_nil, false_imp_iff,
      implies_true, and_true]
    exact mem_of_field (deRecord_object h)
  · refine .inl ⟨.intotoV002, rfl, rfl, _, _, _, _, fun _ => rfl, fun _ => rfl, ?_⟩
    intro members a h
    simp only [BodyType.specMembers, List.forall_mem_cons, List.not_mem_nil, false_imp_iff,
      implies_true, and_true]
    exact mem_of_field (deRecord_object h)
  · exact .inr fun text => ⟨_, rfl⟩

/-- A parsed body has the type of the given kind and version. -/
theorem type_of_fromJsonText (h : fromJsonText C kind version text = .ok body) :
    body.type.kind = kind ∧ body.type.version = version := by
  rcases fromJsonText_cases C kind version with
    ⟨t, hkind, hversion, α, what, spec, wrap, hparser, htype, -⟩ | herror
  · rw [hparser] at h
    obtain ⟨_, a, -, -, rfl⟩ := parseBody_eq_ok.1 h
    rw [htype]
    exact ⟨hkind, hversion⟩
  · obtain ⟨e, he⟩ := herror text
    cases h.symm.trans he

/-- A body that is written in the format of a type is parsed as that type only. The members that the
other types require are not all among those of this format. -/
theorem type_eq_of_writtenAs {t : BodyType} {v : Json}
    (h : fromJsonText C kind version text = .ok body) (hparse : C.parseJson text = .ok v)
    (hwritten : WrittenAs t v) : body.type = t := by
  obtain ⟨members, spec, rfl, hlookup, honly⟩ := hwritten
  rcases fromJsonText_cases C kind version with
    ⟨s, -, -, α, what, de, wrap, hparser, htype, hmembers⟩ | herror
  · rw [hparser] at h
    obtain ⟨v, a, hv, hread, rfl⟩ := parseBody_eq_ok.1 h
    cases hparse.symm.trans hv
    obtain ⟨v, hv, hspec⟩ := field_eq_ok.1 (deRecord_object hread)
    cases hlookup.symm.trans hv
    rw [htype]
    refine BodyType.eq_of_specMembers_subset fun name hname => ?_
    obtain ⟨p, hp, rfl⟩ := hmembers spec a hspec name hname
    exact honly p hp
  · obtain ⟨e, he⟩ := herror text
    cases h.symm.trans he

/-- Members other than `spec` are not read. All five structs of bodies have the one field, whatever
the rest of the text is. -/
theorem fromJsonText_of_sameSpec {text' : String} {members members' : List (String × Json)}
    (h : fromJsonText C kind version text = .ok body)
    (hparse : C.parseJson text = .ok (.object members))
    (hparse' : C.parseJson text' = .ok (.object members')) (hsame : SameSpec members members') :
    fromJsonText C kind version text' = .ok body := by
  rcases fromJsonText_cases C kind version with
    ⟨t, -, -, α, what, de, wrap, hparser, -⟩ | herror
  · rw [hparser] at h ⊢
    obtain ⟨v, a, hv, hread, hwrap⟩ := parseBody_eq_ok.1 h
    cases hparse.symm.trans hv
    rw [deOnly_spec hsame] at hread
    exact parseBody_eq_ok.2 ⟨_, a, hparse', hread, hwrap⟩
  · obtain ⟨e, he⟩ := herror text
    cases h.symm.trans he

end

end Sigstore.Rekor
