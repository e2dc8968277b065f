import Mathlib.Data.List.Forall2
import Mathlib.Data.List.Nodup
import Sigstore.Delimited
import Sigstore.Tuf.Metadata

/-!
# Canonical JSON is injective up to member order

The signatures of a metadata file cover the canonical bytes of its `signed` value. Two values have
the same canonical bytes if and only if they are equal up to the order of object members
(`toCanonicalBytes_inj`). A text does not tell how long its values are, so the argument is on texts
that go on after a value: no text begins with two values, unless these are equal up to member order
(`readBack`). It is by induction on one of them: the first byte tells the constructor, and the items
of an array and the members of an object are read one by one.
-/

namespace Sigstore

open Checks Delimited

/-! ## Values -/

namespace JsonNumber

/-- `Number::as_i64`. -/
def asI64 : JsonNumber → Option Int64
  | posInt n => if n ≤ 0x7fffffffffffffff then some n.toInt64 else none
  | negInt i => some i
  | float _ => none

/-- `Number::as_u64`. -/
def asU64 : JsonNumber → Option UInt64
  | posInt n => some n
  | negInt _ => none
  | float _ => none

/-- `serde_json` holds an integer from zero on as unsigned. -/
def IsNumber : JsonNumber → Prop
  | negInt i => i.toInt < 0
  | _ => True

end JsonNumber

namespace Json

/-- A value as `serde_json` builds it: no object has two members of one name. -/
inductive IsValue : Json → Prop where
  | null : IsValue null
  | bool (b : Bool) : IsValue (bool b)
  | number {n : JsonNumber} (isNumber : n.IsNumber) : IsValue (number n)
  | string (s : String) : IsValue (string s)
  | array {items : List Json} (isValue : ∀ v ∈ items, IsValue v) : IsValue (array items)
  | object {members : List (String × Json)} (nodup : (members.map Prod.fst).Nodup)
    (isValue : ∀ p ∈ members, IsValue p.2) : IsValue (object members)

/-- The number occurs in the value, at any depth. -/
inductive Contains (n : JsonNumber) : Json → Prop where
  | number : Contains n (number n)
  | item {items : List Json} {v : Json} (mem : v ∈ items) (contains : Contains n v) :
    Contains n (array items)
  | member {members : List (String × Json)} {p : String × Json} (mem : p ∈ members)
    (contains : Contains n p.2) : Contains n (object members)

/-- Equal up to the order of object members, at any depth. -/
inductive EqualUpToOrder : Json → Json → Prop where
  | null : EqualUpToOrder null null
  | bool (b : Bool) : EqualUpToOrder (bool b) (bool b)
  | number (n : JsonNumber) : EqualUpToOrder (number n) (number n)
  | string (s : String) : EqualUpToOrder (string s) (string s)
  | array {items items' : List Json} (length : items.length = items'.length)
    (values : ∀ (i : Nat) v v', items[i]? = some v → items'[i]? = some v' → EqualUpToOrder v v') :
    EqualUpToOrder (array items) (array items')
  | object {members members' : List (String × Json)}
    (names : (members.map Prod.fst).Perm (members'.map Prod.fst))
    (values : ∀ k v v', (k, v) ∈ members → (k, v') ∈ members' → EqualUpToOrder v v') :
    EqualUpToOrder (object members) (object members')

/-- Induction on a value, with the items of an array and the values of an object. The recursor has
four motives, of which the lists and the pairs are only means. -/
@[elab_as_elim] theorem induction {P : Json → Prop} (null : P null) (bool : ∀ b, P (bool b))
    (number : ∀ n, P (number n)) (string : ∀ s, P (string s))
    (array : ∀ items, (∀ v ∈ items, P v) → P (array items))
    (object : ∀ members, (∀ p ∈ members, P p.2) → P (object members)) (v : Json) : P v := by
  refine @Json.rec P (fun items => ∀ v ∈ items, P v) (fun members => ∀ p ∈ members, P p.2)
    (fun p => P p.2) null bool number string array object ?_ ?_ ?_ ?_ (fun _ _ h => h) v
  · intro v hv
    cases hv
  · intro v items hv hitems
    exact List.forall_mem_cons.2 ⟨hv, hitems⟩
  · intro p hp
    cases hp
  · intro p members hp hmembers
    exact List.forall_mem_cons.2 ⟨hp, hmembers⟩

end Json

/-- A JSON value of `serde_json`. -/
def Value := { v : Json // v.IsValue }

/-! ## Strings and numbers -/

/-- The byte can occur in a number. -/
def IsNumberByte (x : UInt8) : Prop := x = 0x2d ∨ (0x30 ≤ x ∧ x ≤ 0x39)

instance (x : UInt8) : Decidable (IsNumberByte x) :=
  inferInstanceAs (Decidable (x = 0x2d ∨ (0x30 ≤ x ∧ x ≤ 0x39)))

/-- Different integers have different decimal texts. A sign is not a digit, so that texts of numbers
on two sides of zero differ in their first character, and on one side the digits decide. -/
theorem toString_int_injective {z z' : Int} (h : toString z = toString z') : z = z' := by
  have hchars := congrArg String.toList h
  rw [toList_toString_int, toList_toString_int] at hchars
  have hminus : ∀ (n : Nat) (l : List Char), Nat.toDigits 10 n ≠ '-' :: l := by
    intro n l hn
    have := isDigit_of_mem_digits (hn ▸ List.mem_cons_self .. : '-' ∈ Nat.toDigits 10 n)
    exact absurd this (by decide)
  split at hchars <;> split at hchars
  · have := toDigits_injective (List.append_cancel_left hchars)
    omega
  · exact absurd hchars.symm (hminus _ _)
  · exact absurd hchars (hminus _ _)
  · have := toDigits_injective (List.append_cancel_left hchars)
    omega

/-- An integer is written with the bytes of a number only, and with one at least. This is what
separates a number from what comes after it in an array or an object. -/
theorem isNumberByte_of_mem {z : Int} {x : UInt8} (h : x ∈ utf8Bytes (toString z)) :
    IsNumberByte x := by
  have hchar : ∀ c ∈ (toString z).toList, c = '-' ∨ c.isDigit = true := by
    intro c hc
    rw [toList_toString_int] at hc
    rcases List.mem_append.1 hc with hc | hc
    · split at hc
      · exact .inl (List.mem_singleton.1 hc)
      · cases hc
    · exact .inr (isDigit_of_mem_digits hc)
  obtain ⟨c, hc, rfl⟩ := mem_utf8Bytes h fun c hc => by
    rcases hchar c hc with rfl | hc
    · rfl
    · exact utf8Size_of_isDigit hc
  rcases hchar c hc with rfl | hc
  · exact .inl rfl
  · exact .inr (toUInt8_of_isDigit hc)

/-- The integer that a number is. -/
def JsonNumber.value : JsonNumber → Option Int
  | posInt n => some n.toNat
  | negInt i => some i.toInt
  | float _ => none

/-- Two numbers of `serde_json` with one integer value are the same number: negative ones are stored
as such and all others without a sign. -/
theorem JsonNumber.value_inj {n m : JsonNumber} (hn : n.IsNumber) (hm : m.IsNumber) {z : Int}
    (h : n.value = some z) (h' : m.value = some z) : n = m := by
  cases n with
  | posInt n =>
    cases h
    cases m with
    | posInt m => rw [UInt64.toNat_inj.1 (Int.ofNat.inj (Option.some.inj h')).symm]
    | negInt i =>
      have hvalue : i.toInt = (n.toNat : Int) := Option.some.inj h'
      have hneg : i.toInt < 0 := hm
      omega
    | float => cases h'
  | negInt i =>
    cases h
    cases m with
    | posInt m =>
      have hvalue : (m.toNat : Int) = i.toInt := Option.some.inj h'
      have hneg : i.toInt < 0 := hn
      omega
    | negInt j => rw [Int64.toInt_inj.1 (Option.some.inj h')]
    | float => cases h'
  | float => cases h

namespace Tuf

/-- A number that is encoded is an integer, written in decimal. -/
theorem encodeNumber_ok {n : JsonNumber} {b : Bytes} (h : encodeNumber n = .ok b) :
    ∃ z, n.value = some z ∧ b = utf8Bytes (toString z) := by
  cases n with
  | posInt n =>
    cases h
    exact ⟨_, rfl, rfl⟩
  | negInt i =>
    cases h
    exact ⟨_, rfl, rfl⟩
  | float => cases h

/-- A number below 2^63 keeps its value as a signed one. -/
theorem toInt_toInt64 {n : UInt64} (h : n ≤ 0x7fffffffffffffff) : n.toInt64.toInt = n.toNat := by
  have hle : n.toNat ≤ 0x7fffffffffffffff := UInt64.le_iff_toNat_le.1 h
  show n.toBitVec.toInt = n.toBitVec.toNat
  apply BitVec.toInt_eq_toNat_of_lt
  show 2 * n.toNat < 2 ^ 64
  omega

/-- The three cases of the source: a number that is neither `i64` nor `u64` is refused. The order
matters: a number that fits both types is written as an `i64`, with the same text. -/
theorem encodeNumber_eq (n : JsonNumber) : encodeNumber n =
    match n.asI64 with
    | some i => .ok (utf8Bytes (toString i.toInt))
    | none =>
      match n.asU64 with
      | some u => .ok (utf8Bytes (toString u.toNat))
      | none => .error .nonIntegerNumber := by
  cases n with
  | posInt n =>
    by_cases hle : n ≤ 0x7fffffffffffffff
    · simp only [JsonNumber.asI64, if_pos hle, encodeNumber, toInt_toInt64 hle]
      rfl
    · simp only [JsonNumber.asI64, if_neg hle, JsonNumber.asU64, encodeNumber]
  | negInt i => rfl
  | float => rfl

/-! ## The pieces of a text -/

/-- Two strings that are written at the beginning of one text are equal, and so is what follows
them: the quote that ends a string is escaped inside it. -/
theorem encodeString_append_inj {k k' : String} {s t : Bytes}
    (h : encodeString k ++ s = encodeString k' ++ t) : k = k' ∧ s = t := by
  have hescaped : (utf8Bytes k).flatMap (escape 0x5c 0x22) ++ 0x22 :: s =
      (utf8Bytes k').flatMap (escape 0x5c 0x22) ++ 0x22 :: t := by
    have htail := (List.cons.inj h).2
    rw [List.append_eq, List.append_eq, List.append_assoc, List.append_assoc] at htail
    exact htail
  obtain ⟨hbytes, rfl⟩ := escaped_append_inj (by decide) hescaped
  exact ⟨utf8Bytes_injective hbytes, rfl⟩

/-- The bytes of an item. -/
def Encodes (v : Json) (b : Bytes) : Prop := toCanonicalBytes v = .ok b

/-- The bytes of a member's value, under the member's name. -/
def EncodesMember (p : String × Json) (q : String × Bytes) : Prop :=
  p.1 = q.1 ∧ toCanonicalBytes p.2 = .ok q.2

/-- The items of an array are encoded one by one. The encoder stops at the first item that it
refuses, so that success is success at every item. -/
theorem encodeItems_ok {items : List Json} {bs : List Bytes} :
    encodeItems items = .ok bs ↔ List.Forall₂ Encodes items bs := by
  induction items generalizing bs with
  | nil =>
    rw [encodeItems, List.forall₂_nil_left_iff]
    exact ⟨fun h => (Except.ok.inj h).symm, fun h => by rw [h]⟩
  | cons v items ih =>
    rw [encodeItems, List.forall₂_cons_left_iff]
    constructor
    · intro h
      obtain ⟨b, hb, h⟩ := bind_eq_ok.1 h
      obtain ⟨bs, hbs, rfl⟩ := map_eq_ok.1 h
      exact ⟨b, bs, hb, ih.1 hbs, rfl⟩
    · rintro ⟨b, bs, hb, hbs, rfl⟩
      rw [hb, ih.2 hbs]
      rfl

/-- The members of an object are encoded one by one. The names are not looked at here; their order
and their duplicates are the business of the map that takes the pairs. -/
theorem encodeMembers_ok {members : List (String × Json)} {ps : List (String × Bytes)} :
    encodeMembers members = .ok ps ↔ List.Forall₂ EncodesMember members ps := by
  induction members generalizing ps with
  | nil =>
    rw [encodeMembers, List.forall₂_nil_left_iff]
    exact ⟨fun h => (Except.ok.inj h).symm, fun h => by rw [h]⟩
  | cons p members ih =>
    obtain ⟨k, v⟩ := p
    rw [encodeMembers, List.forall₂_cons_left_iff]
    constructor
    · intro h
      obtain ⟨b, hb, h⟩ := bind_eq_ok.1 h
      obtain ⟨ps, hps, rfl⟩ := map_eq_ok.1 h
      exact ⟨(k, b), ps, ⟨rfl, hb⟩, ih.1 hps, rfl⟩
    · rintro ⟨⟨k', b⟩, ps, ⟨rfl, hb⟩, hps, rfl⟩
      rw [hb, ih.2 hps]
      rfl

/-- Encoding the members keeps their names. -/
theorem keys_encodeMembers {members : List (String × Json)} {ps : List (String × Bytes)}
    (h : List.Forall₂ EncodesMember members ps) : ps.map Prod.fst = members.map Prod.fst := by
  induction h with
  | nil => rfl
  | cons hp _ ih => rw [List.map_cons, List.map_cons, ih, hp.1]

/-- A member as it is written. -/
def memberText (q : String × Bytes) : Bytes := encodeString q.1 ++ 0x3a :: q.2

/-- Two members that are written at the beginning of one text have the same name, and their values
begin at the same place. -/
theorem memberText_append_inj {q r : String × Bytes} {s t : Bytes}
    (h : memberText q ++ s = memberText r ++ t) : q.1 = r.1 ∧ q.2 ++ s = r.2 ++ t := by
  rw [memberText, memberText, List.append_assoc, List.append_assoc] at h
  obtain ⟨hname, hrest⟩ := encodeString_append_inj h
  exact ⟨hname, (List.cons.inj hrest).2⟩

/-! ## Reading a value back -/

/-- The constructor of a value. -/
inductive Kind where
  | null | bool | number | string | array | object

def kind : Json → Kind
  | .null => .null
  | .bool _ => .bool
  | .number _ => .number
  | .string _ => .string
  | .array _ => .array
  | .object _ => .object

/-- The constructor that a first byte announces. -/
def kindOf (x : UInt8) : Option Kind :=
  if x = 0x6e then some .null
  else if x = 0x74 ∨ x = 0x66 then some .bool
  else if IsNumberByte x then some .number
  else if x = 0x22 then some .string
  else if x = 0x5b then some .array
  else if x = 0x7b then some .object
  else none

/-- A digit or a minus sign announces a number. -/
theorem kindOf_number {x : UInt8} (h : IsNumberByte x) : kindOf x = some .number := by
  rw [kindOf, if_neg, if_neg, if_pos h]
  · rintro (rfl | rfl)
    · exact absurd h (by decide)
    · exact absurd h (by decide)
  · rintro rfl
    exact absurd h (by decide)

/-- A number has at least one digit. -/
theorem utf8Bytes_toString_ne_nil (z : Int) : utf8Bytes (toString z) ≠ [] := by
  intro h
  have hempty : toString z = "" := utf8Bytes_injective h
  have hchars := toList_toString_int z
  rw [hempty] at hchars
  exact Nat.toDigits_ne_nil (List.append_eq_nil_iff.1 hchars.symm).2

/-- The first byte of a value's text tells its constructor. It tells apart whatever is not of one
constructor, before anything is known of the rest of the text. -/
theorem toCanonicalBytes_head {v : Json} {b : Bytes} (h : toCanonicalBytes v = .ok b) :
    ∃ x b', b = x :: b' ∧ kindOf x = some (kind v) := by
  cases v with
  | null =>
    cases h
    exact ⟨_, _, rfl, rfl⟩
  | bool f =>
    cases f with
    | false =>
      cases h
      exact ⟨_, _, rfl, rfl⟩
    | true =>
      cases h
      exact ⟨_, _, rfl, rfl⟩
  | number n =>
    obtain ⟨z, -, rfl⟩ := encodeNumber_ok h
    obtain ⟨x, b', hb⟩ := List.exists_cons_of_ne_nil (utf8Bytes_toString_ne_nil z)
    refine ⟨x, b', hb, kindOf_number (isNumberByte_of_mem (z := z) ?_)⟩
    rw [hb]
    exact List.mem_cons_self ..
  | string s =>
    cases h
    exact ⟨_, _, rfl, rfl⟩
  | array items =>
    rw [toCanonicalBytes, map_eq_ok] at h
    obtain ⟨bs, -, rfl⟩ := h
    exact ⟨_, _, rfl, rfl⟩
  | object members =>
    rw [toCanonicalBytes, map_eq_ok] at h
    obtain ⟨ps, -, rfl⟩ := h
    exact ⟨_, _, rfl, rfl⟩

/-- What is not the end of an array or of an object begins a value. -/
theorem head_ne_close {v : Json} {b : Bytes} (h : Encodes v b) :
    ∃ x b', b = x :: b' ∧ x ≠ 0x5d := by
  obtain ⟨x, b', rfl, hkind⟩ := toCanonicalBytes_head h
  refine ⟨x, b', rfl, ?_⟩
  rintro rfl
  cases hkind

/-- An element of the first of two related lists has a related one at its place in the second. -/
theorem getElem?_of_forall₂ {α β : Type} {R : α → β → Prop} {l : List α} {l' : List β}
    (h : List.Forall₂ R l l') {i : Nat} {a : α} (ha : l[i]? = some a) :
    ∃ b, l'[i]? = some b ∧ R a b := by
  induction h generalizing i with
  | nil => cases ha
  | cons hab _ ih =>
    cases i with
    | zero =>
      cases ha
      exact ⟨_, rfl, hab⟩
    | succ i => exact ih ha

/-- An element of the second of two related lists is related to one of the first. -/
theorem exists_of_mem_forall₂ {α β : Type} {R : α → β → Prop} {l : List α} {l' : List β}
    (h : List.Forall₂ R l l') {b : β} (hb : b ∈ l') : ∃ a ∈ l, R a b := by
  induction h with
  | nil => cases hb
  | cons hab _ ih =>
    rcases List.mem_cons.1 hb with rfl | hb
    · exact ⟨_, List.mem_cons_self .., hab⟩
    · obtain ⟨a, ha, hab⟩ := ih hb
      exact ⟨a, List.mem_cons_of_mem _ ha, hab⟩

/-- Texts that begin with two values begin with values of one constructor. -/
theorem kind_eq {v w : Json} {b c s t : Bytes} (hb : toCanonicalBytes v = .ok b)
    (hc : toCanonicalBytes w = .ok c) (h : b ++ s = c ++ t) : kind v = kind w := by
  obtain ⟨x, b', rfl, hx⟩ := toCanonicalBytes_head hb
  obtain ⟨y, c', rfl, hy⟩ := toCanonicalBytes_head hc
  obtain rfl : x = y := (List.cons.inj h).1
  exact Option.some.inj (hx.symm.trans hy)

/-- No text begins with the value and with another one, each followed by the end or by what cannot
go on in a number, unless these are equal up to member order. -/
def ReadBack (v : Json) : Prop :=
  ∀ w, w.IsValue → ∀ b c, Encodes v b → Encodes w c → ∀ s t, Stops IsNumberByte s →
    Stops IsNumberByte t → b ++ s = c ++ t → v.EqualUpToOrder w ∧ b = c

/-- A number is read back: it ends where no more digits follow. The hypothesis on what follows is
needed here only: a digit that followed would be taken for one of the number's. -/
theorem ReadBack.number {n : JsonNumber} (hn : n.IsNumber) : ReadBack (.number n) := by
  intro w hw b c hb hc s t hs ht h
  have hkind := kind_eq hb hc h
  cases hw with
  | number hm =>
    obtain ⟨z, hz, rfl⟩ := encodeNumber_ok hb
    obtain ⟨z', hz', rfl⟩ := encodeNumber_ok hc
    have hbytes := unambiguous_of_forall (fun x => isNumberByte_of_mem)
      (fun x => isNumberByte_of_mem) s t hs ht h
    obtain rfl := toString_int_injective (utf8Bytes_injective hbytes)
    rw [JsonNumber.value_inj hn hm hz hz']
    exact ⟨.number _, rfl⟩
  | null => cases hkind
  | bool => cases hkind
  | string => cases hkind
  | array => cases hkind
  | object => cases hkind

/-- Arrays are read back where their items are. An item is followed by a comma or the closing
bracket, neither of which is a byte of a number. -/
theorem ReadBack.array {items : List Json} (ih : ∀ v ∈ items, ReadBack v) :
    ReadBack (.array items) := by
  intro w hw b c hb hc s t hs ht h
  have hkind := kind_eq hb hc h
  cases hw with
  | @array items' hitems' =>
    rw [Encodes, toCanonicalBytes, map_eq_ok] at hb hc
    obtain ⟨bs, hbs, rfl⟩ := hb
    obtain ⟨cs, hcs, rfl⟩ := hc
    rw [encodeItems_ok] at hbs hcs
    have hjoined : joined 0x2c bs ++ 0x5d :: s = joined 0x2c cs ++ 0x5d :: t := by
      have htail := (List.cons.inj h).2
      rw [List.append_eq, List.append_eq, List.append_assoc, List.append_assoc] at htail
      exact htail
    have hwords : ∀ b ∈ bs, ∀ c ∈ cs, Unambiguous IsNumberByte b c := by
      intro b hb c hc s t hs ht h
      obtain ⟨v, hv, hvb⟩ := exists_of_mem_forall₂ hbs hb
      obtain ⟨w, hw, hwc⟩ := exists_of_mem_forall₂ hcs hc
      exact (ih v hv w (hitems' w hw) b c hvb hwc s t hs ht h).2
    have hheads : ∀ {items bs}, List.Forall₂ Encodes items bs →
        ∀ b ∈ bs, ∃ x b', b = x :: b' ∧ x ≠ 0x5d := by
      intro items bs hbs b hb
      obtain ⟨v, -, hvb⟩ := exists_of_mem_forall₂ hbs hb
      exact head_ne_close hvb
    obtain ⟨rfl, -⟩ := joined_append_inj (p := IsNumberByte) (by decide) (by decide) (by decide)
      hwords (hheads hbs) (hheads hcs) hjoined
    refine ⟨.array (hbs.length_eq.trans hcs.length_eq.symm) fun i v v' hv hv' => ?_, rfl⟩
    obtain ⟨b, hb, hvb⟩ := getElem?_of_forall₂ hbs hv
    obtain ⟨c, hc, hvc⟩ := getElem?_of_forall₂ hcs hv'
    obtain rfl : b = c := Option.some.inj (hb.symm.trans hc)
    exact (ih v (List.mem_of_getElem? hv) v' (hitems' v' (List.mem_of_getElem? hv')) b b hvb hvc
      [] [] .nil .nil rfl).1
  | null => cases hkind
  | bool => cases hkind
  | number => cases hkind
  | string => cases hkind
  | object => cases hkind

/-- The value of a member is written under its name. -/
theorem exists_mem_encodeMembers {members : List (String × Json)} {ps : List (String × Bytes)}
    (h : List.Forall₂ EncodesMember members ps) {k : String} {v : Json} (hv : (k, v) ∈ members) :
    ∃ b, (k, b) ∈ ps ∧ Encodes v b := by
  obtain ⟨⟨k', b⟩, hb, rfl, hvb⟩ := exists_of_mem_forall₂ h.flip hv
  exact ⟨b, hb, hvb⟩

/-- The entries of an object's text are the names and the texts of its members. Names that came
twice would leave the value of the last one only; a parsed object has none. -/
theorem mem_entries_encodeMembers {members : List (String × Json)} {ps : List (String × Bytes)}
    (hnodup : (members.map Prod.fst).Nodup) (h : List.Forall₂ EncodesMember members ps)
    {k : String} {b : Bytes} :
    (k, b) ∈ (BTreeMap.ofList ps).entries ↔ ∃ v, (k, v) ∈ members ∧ Encodes v b := by
  have hperm : (BTreeMap.ofList ps).entries.Perm ps :=
    BTreeMap.entries_ofList_perm (by rwa [keys_encodeMembers h])
  rw [hperm.mem_iff]
  constructor
  · intro hb
    obtain ⟨⟨k', v⟩, hp, rfl, hv⟩ := exists_of_mem_forall₂ h hb
    exact ⟨v, hp, hv⟩
  · rintro ⟨v, hv, hvb⟩
    obtain ⟨c, hc, hvc⟩ := exists_mem_encodeMembers h hv
    cases hvb.symm.trans hvc
    exact hc

/-- A name has one value. -/
theorem value_unique {members : List (String × Json)} (hnodup : (members.map Prod.fst).Nodup)
    {k : String} {v w : Json} (hv : (k, v) ∈ members) (hw : (k, w) ∈ members) : v = w :=
  (Prod.mk.inj (List.inj_on_of_nodup_map hnodup hv hw rfl)).2

/-- Objects are read back where their values are. The names come in the order of their bytes in both
texts, so that the entries can be compared one after the other. -/
theorem ReadBack.object {members : List (String × Json)} (hnodup : (members.map Prod.fst).Nodup)
    (ih : ∀ p ∈ members, ReadBack p.2) : ReadBack (.object members) := by
  intro w hw b c hb hc s t hs ht h
  have hkind := kind_eq hb hc h
  cases hw with
  | @object members' hnodup' hvalues' =>
    rw [Encodes, toCanonicalBytes, map_eq_ok] at hb hc
    obtain ⟨ps, hps, rfl⟩ := hb
    obtain ⟨qs, hqs, rfl⟩ := hc
    rw [encodeMembers_ok] at hps hqs
    have hjoined : joined 0x2c ((BTreeMap.ofList ps).entries.map memberText) ++ 0x7d :: s =
        joined 0x2c ((BTreeMap.ofList qs).entries.map memberText) ++ 0x7d :: t := by
      have htail := (List.cons.inj h).2
      rw [List.append_eq, List.append_eq, List.append_assoc, List.append_assoc] at htail
      exact htail
    have hwords : ∀ b ∈ (BTreeMap.ofList ps).entries.map memberText,
        ∀ c ∈ (BTreeMap.ofList qs).entries.map memberText, Unambiguous IsNumberByte b c := by
      intro b hb c hc s t hs ht h
      obtain ⟨⟨k, b⟩, hkb, rfl⟩ := List.mem_map.1 hb
      obtain ⟨⟨k', c⟩, hkc, rfl⟩ := List.mem_map.1 hc
      obtain ⟨v, hv, hvb⟩ := (mem_entries_encodeMembers hnodup hps).1 hkb
      obtain ⟨v', hv', hvc⟩ := (mem_entries_encodeMembers hnodup' hqs).1 hkc
      obtain ⟨rfl, hrest⟩ := memberText_append_inj h
      rw [(ih _ hv v' (hvalues' _ hv') b c hvb hvc s t hs ht hrest).2]
    have hheads : ∀ qs : List (String × Bytes), ∀ b ∈ qs.map memberText,
        ∃ x b', b = x :: b' ∧ x ≠ 0x7d := by
      intro qs b hb
      obtain ⟨q, -, rfl⟩ := List.mem_map.1 hb
      exact ⟨_, _, rfl, by decide⟩
    obtain ⟨htexts, -⟩ := joined_append_inj (p := IsNumberByte) (by decide) (by decide)
      (by decide) hwords (hheads _) (hheads _) hjoined
    have hentries : (BTreeMap.ofList ps).entries = (BTreeMap.ofList qs).entries := by
      refine List.map_injective_iff.2 (fun q r hqr => ?_) htexts
      obtain ⟨hname, htext⟩ := memberText_append_inj (congrArg (· ++ []) hqr)
      exact Prod.ext hname (List.append_cancel_right htext)
    refine ⟨.object ?_ fun k v v' hv hv' => ?_, ?_⟩
    · rw [← keys_encodeMembers hps, ← keys_encodeMembers hqs]
      refine List.Perm.map _ (.trans (BTreeMap.entries_ofList_perm ?_).symm ?_)
      · rwa [keys_encodeMembers hps]
      · rw [hentries]
        exact BTreeMap.entries_ofList_perm (by rwa [keys_encodeMembers hqs])
    · obtain ⟨b, -, hvb⟩ := exists_mem_encodeMembers hps hv
      obtain ⟨w, hw, hwb⟩ := (mem_entries_encodeMembers hnodup' hqs).1
        (hentries ▸ (mem_entries_encodeMembers hnodup hps).2 ⟨v, hv, hvb⟩)
      rw [value_unique hnodup' hv' hw]
      exact (ih _ hv w (hvalues' _ hw) b b hvb hwb [] [] .nil .nil rfl).1
    · rw [joinMembers, joinMembers, hentries]
  | null => cases hkind
  | bool => cases hkind
  | number => cases hkind
  | string => cases hkind
  | array => cases hkind

/-- Every value is read back. The induction hypothesis is about values of any shape, since the
second value is not known to have the constructor of the first. -/
theorem readBack (v : Json) (hv : v.IsValue) : ReadBack v := by
  induction v using Json.induction with
  | null =>
    intro w hw b c hb hc s t hs ht h
    have hkind := kind_eq hb hc h
    cases w with
    | null =>
      cases hb
      cases hc
      exact ⟨.null, rfl⟩
    | _ => cases hkind
  | bool f =>
    intro w hw b c hb hc s t hs ht h
    have hkind := kind_eq hb hc h
    cases w with
    | bool g =>
      cases f <;> cases g <;> cases hb <;> cases hc
      · exact ⟨.bool _, rfl⟩
      · exact absurd (List.cons.inj h).1 (by decide)
      · exact absurd (List.cons.inj h).1 (by decide)
      · exact ⟨.bool _, rfl⟩
    | _ => cases hkind
  | number n =>
    cases hv with
    | number hn => exact .number hn
  | string k =>
    intro w hw b c hb hc s t hs ht h
    have hkind := kind_eq hb hc h
    cases w with
    | string k' =>
      cases hb
      cases hc
      obtain ⟨rfl, -⟩ := encodeString_append_inj h
      exact ⟨.string _, rfl⟩
    | _ => cases hkind
  | array items ih =>
    cases hv with
    | array hitems => exact .array fun v hv => ih v hv (hitems v hv)
  | object members ih =>
    cases hv with
    | object hnodup hvalues => exact .object hnodup fun p hp => ih p hp (hvalues p hp)

/-! ## Member order does not matter -/

/-- Objects that are equal up to order have the same entries in their texts. Both inclusions, and
sorted lists without duplicates, make the texts the same. -/
theorem entries_encodeMembers_subset {members members' : List (String × Json)}
    {ps qs : List (String × Bytes)} (hps : List.Forall₂ EncodesMember members ps)
    (hqs : List.Forall₂ EncodesMember members' qs)
    (hnames : members.map Prod.fst ⊆ members'.map Prod.fst)
    (hvalues : ∀ k v v' b c, (k, v) ∈ members → (k, v') ∈ members' → Encodes v b → Encodes v' c →
      b = c) : ps ⊆ qs := by
  rintro ⟨k, b⟩ hb
  obtain ⟨⟨k', v⟩, hv, rfl, hvb⟩ := exists_of_mem_forall₂ hps hb
  obtain ⟨⟨k'', v'⟩, hv', rfl⟩ := List.mem_map.1 (hnames (List.mem_map_of_mem hv))
  obtain ⟨c, hc, hvc⟩ := exists_mem_encodeMembers hqs hv'
  rw [hvalues _ v v' b c hv hv' hvb hvc]
  exact hc

/-- Values that are equal up to member order have the same bytes. The derivation that the values are
equal is followed, with two encodings at every step. -/
theorem encodes_congr {v w : Json} (h : v.EqualUpToOrder w) (hv : v.IsValue) (hw : w.IsValue)
    {b c : Bytes} (hb : Encodes v b) (hc : Encodes w c) : b = c := by
  induction h generalizing b c with
  | null => exact Except.ok.inj (hb.symm.trans hc)
  | bool => exact Except.ok.inj (hb.symm.trans hc)
  | number => exact Except.ok.inj (hb.symm.trans hc)
  | string => exact Except.ok.inj (hb.symm.trans hc)
  | @array items items' hlength _ ih =>
    rw [Encodes, toCanonicalBytes, map_eq_ok] at hb hc
    obtain ⟨bs, hbs, rfl⟩ := hb
    obtain ⟨cs, hcs, rfl⟩ := hc
    rw [encodeItems_ok] at hbs hcs
    cases hv with
    | array hitems =>
      cases hw with
      | array hitems' =>
        have heq : bs = cs := by
          refine List.ext_getElem (hbs.length_eq.symm.trans (hlength.trans hcs.length_eq)) ?_
          intro i hi hi'
          have hv := List.getElem?_eq_getElem (hbs.length_eq ▸ hi)
          have hv' := List.getElem?_eq_getElem (hcs.length_eq ▸ hi')
          obtain ⟨b, hb, hvb⟩ := getElem?_of_forall₂ hbs hv
          obtain ⟨c, hc, hvc⟩ := getElem?_of_forall₂ hcs hv'
          rw [List.getElem?_eq_getElem hi] at hb
          rw [List.getElem?_eq_getElem hi'] at hc
          cases hb
          cases hc
          exact ih i _ _ hv hv' (hitems _ (List.getElem_mem _)) (hitems' _ (List.getElem_mem _))
            hvb hvc
        rw [heq]
  | @object members members' hnames _ ih =>
    rw [Encodes, toCanonicalBytes, map_eq_ok] at hb hc
    obtain ⟨ps, hps, rfl⟩ := hb
    obtain ⟨qs, hqs, rfl⟩ := hc
    rw [encodeMembers_ok] at hps hqs
    cases hv with
    | object hnodup hvalues =>
      cases hw with
      | object hnodup' hvalues' =>
        have hkeys : (ps.map Prod.fst).Nodup := by rwa [keys_encodeMembers hps]
        have hkeys' : (qs.map Prod.fst).Nodup := by rwa [keys_encodeMembers hqs]
        have hsame : ∀ k v v' b c, (k, v) ∈ members → (k, v') ∈ members' → Encodes v b →
            Encodes v' c → b = c := fun k v v' b c hv hv' hvb hvc =>
          ih k v v' hv hv' (hvalues _ hv) (hvalues' _ hv') hvb hvc
        have hperm : ps.Perm qs := by
          refine (List.perm_ext_iff_of_nodup (List.Nodup.of_map _ hkeys)
            (List.Nodup.of_map _ hkeys')).2 fun q => ?_
          exact ⟨fun hq => entries_encodeMembers_subset hps hqs hnames.subset hsame hq,
            fun hq => entries_encodeMembers_subset hqs hps hnames.symm.subset
              (fun k v v' b c hv hv' hvb hvc => (hsame k v' v c b hv' hv hvc hvb).symm) hq⟩
        rw [joinMembers, joinMembers, BTreeMap.entries_ofList_congr hkeys hperm]

/-! ## Which values have canonical bytes -/

/-- The number is an `i64` or a `u64`. -/
def IsInteger (n : JsonNumber) : Prop := n.asI64 ≠ none ∨ n.asU64 ≠ none

/-- Exactly the integers have an encoding. -/
theorem exists_encodes_number {n : JsonNumber} : (∃ b, Encodes (.number n) b) ↔ IsInteger n := by
  rw [IsInteger]
  simp only [Encodes, toCanonicalBytes, encodeNumber_eq]
  split
  · next hi => simp [hi]
  · next hi =>
    split
    · next hu => simp [hu]
    · next hu => simp [hi, hu]

/-- There is a related list exactly where there is a related element for every element. It turns the
success of an encoder over a list into its success at the elements. -/
theorem exists_forall₂ {α β : Type} {R : α → β → Prop} {l : List α} :
    (∃ l', List.Forall₂ R l l') ↔ ∀ a ∈ l, ∃ b, R a b := by
  induction l with
  | nil => simp
  | cons a l ih =>
    rw [List.forall_mem_cons, ← ih]
    constructor
    · rintro ⟨l', h⟩
      obtain ⟨b, l', hab, hl', -⟩ := List.forall₂_cons_left_iff.1 h
      exact ⟨⟨b, hab⟩, l', hl'⟩
    · rintro ⟨⟨b, hab⟩, l', hl'⟩
      exact ⟨b :: l', .cons hab hl'⟩

/-- A value has canonical bytes where all its numbers are integers. A number is the only value that
the encoder refuses, so that the arrays and objects around it fail with it. -/
theorem exists_encodes (v : Json) : (∃ b, Encodes v b) ↔ ∀ n, v.Contains n → IsInteger n := by
  induction v using Json.induction with
  | null => exact iff_of_true ⟨_, rfl⟩ nofun
  | bool f =>
    refine iff_of_true ?_ nofun
    cases f with
    | false => exact ⟨_, rfl⟩
    | true => exact ⟨_, rfl⟩
  | string s => exact iff_of_true ⟨_, rfl⟩ nofun
  | number n =>
    rw [exists_encodes_number]
    constructor
    · intro hn m hm
      cases hm
      exact hn
    · exact fun h => h n .number
  | array items ih =>
    have hitems : (∃ b, Encodes (.array items) b) ↔ ∀ v ∈ items, ∃ b, Encodes v b := by
      rw [← exists_forall₂]
      simp only [Encodes, toCanonicalBytes, map_eq_ok, encodeItems_ok]
      constructor
      · rintro ⟨b, bs, hbs, -⟩
        exact ⟨bs, hbs⟩
      · rintro ⟨bs, hbs⟩
        exact ⟨_, bs, hbs, rfl⟩
    rw [hitems]
    constructor
    · intro h n hn
      cases hn with
      | item hv hn => exact (ih _ hv).1 (h _ hv) n hn
    · exact fun h v hv => (ih v hv).2 fun n hn => h n (.item hv hn)
  | object members ih =>
    have hmembers : (∃ b, Encodes (.object members) b) ↔
        ∀ p ∈ members, ∃ q, EncodesMember p q := by
      rw [← exists_forall₂]
      simp only [Encodes, toCanonicalBytes, map_eq_ok, encodeMembers_ok]
      constructor
      · rintro ⟨b, ps, hps, -⟩
        exact ⟨ps, hps⟩
      · rintro ⟨ps, hps⟩
        exact ⟨_, ps, hps, rfl⟩
    rw [hmembers]
    constructor
    · intro h n hn
      cases hn with
      | member hp hn =>
        obtain ⟨q, -, hq⟩ := h _ hp
        exact (ih _ hp).1 ⟨_, hq⟩ n hn
    · intro h p hp
      obtain ⟨b, hb⟩ := (ih p hp).2 fun n hn => h n (.member hp hn)
      exact ⟨(p.1, b), rfl, hb⟩

/-- **Canonical JSON is injective up to member order.** It is refused exactly where the value
contains a number that is neither `i64` nor `u64`, and two values that have canonical bytes have the
same ones if and only if they are equal up to the order of object members. -/
theorem toCanonicalBytes_inj (v w : Value) :
    ((∃ e, toCanonicalBytes v.1 = .error e) ↔
      ∃ n, v.1.Contains n ∧ n.asI64 = none ∧ n.asU64 = none) ∧
    (∀ b c, toCanonicalBytes v.1 = .ok b → toCanonicalBytes w.1 = .ok c →
      (b = c ↔ v.1.EqualUpToOrder w.1)) := by
  constructor
  · have hfails : (∃ e, toCanonicalBytes v.1 = .error e) ↔ ¬ ∃ b, Encodes v.1 b := by
      unfold Encodes
      cases toCanonicalBytes v.1 with
      | error e => simp
      | ok b => simp
    rw [hfails, exists_encodes]
    simp only [IsInteger, not_forall, not_or, not_not, exists_prop]
  · intro b c hb hc
    constructor
    · rintro rfl
      exact (readBack v.1 v.2 w.1 w.2 b b hb hc [] [] .nil .nil rfl).1
    · exact fun h => encodes_congr h v.2 w.2 hb hc

end Tuf

end Sigstore
