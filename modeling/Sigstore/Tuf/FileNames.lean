import Sigstore.Tuf.Canonical
import Sigstore.Tuf.Moves

/-!
# Names of files

The client chooses the names under which it asks for files and stores them. A delegated role's name
is percent-encoded, which different roles survive (`encodeRole_injective`), and the names of
metadata files are not those of target files (`ne_target`).
-/

namespace Sigstore.Tuf

/-! ## Percent-encoding -/

/-- The characters that a byte of a role name is written as. -/
def encodeByte (b : UInt8) : List Char :=
  if isUnreserved b then [Char.ofNat b.toNat]
  else ['%', upperHexDigit (b.toNat / 16), upperHexDigit (b.toNat % 16)]

/-- A role's name is encoded byte by byte. -/
theorem toList_encodeRole (role : String) :
    (encodeRole role).toList = (utf8Bytes role).flatMap encodeByte := String.toList_ofList

/-- A byte is the number of the character with its number. -/
theorem toNat_ofNat_byte (b : UInt8) : (Char.ofNat b.toNat).toNat = b.toNat := by
  have hlt : b.toNat < 256 := b.toNat_lt
  have hvalid : b.toNat.isValidChar := .inl (by omega)
  rw [Char.ofNat, dif_pos hvalid]
  rfl

/-- A character that stands for a byte stands for an unreserved one. -/
theorem ofNat_byte_eq {b : UInt8} {c : Char} (h : Char.ofNat b.toNat = c) :
    b = UInt8.ofNat c.toNat := by
  rw [← h, toNat_ofNat_byte, UInt8.ofNat_toNat]

/-- Different values below 16 have different hexadecimal digits. -/
theorem upperHexDigit_inj {m n : Nat} (hm : m < 16) (hn : n < 16)
    (h : upperHexDigit m = upperHexDigit n) : m = n := by
  have hall : ∀ m n : Fin 16, upperHexDigit m = upperHexDigit n → m = n := by decide
  exact Fin.mk.inj (hall ⟨m, hm⟩ ⟨n, hn⟩ h)

/-- Two bytes that are written at the beginning of one text are equal, and so is what follows them:
an unreserved byte is no percent sign, and after a percent sign there are two digits. -/
theorem encodeByte_append_inj {b b' : UInt8} {s t : List Char}
    (h : encodeByte b ++ s = encodeByte b' ++ t) : b = b' ∧ s = t := by
  -- the percent sign is reserved
  have hpercent : ∀ {b : UInt8}, isUnreserved b = true → Char.ofNat b.toNat ≠ '%' := by
    intro b hb hc
    rw [ofNat_byte_eq hc] at hb
    exact absurd hb (by decide)
  unfold encodeByte at h
  split at h
  · next hb =>
    split at h
    · obtain ⟨hc, hrest⟩ := List.cons.inj h
      rw [ofNat_byte_eq hc, toNat_ofNat_byte, UInt8.ofNat_toNat]
      exact ⟨rfl, hrest⟩
    · exact absurd (List.cons.inj h).1 (hpercent hb)
  · split at h
    · next hb' => exact absurd (List.cons.inj h).1.symm (hpercent hb')
    · have hlt : b.toNat < 256 := b.toNat_lt
      have hlt' : b'.toNat < 256 := b'.toNat_lt
      obtain ⟨hhigh, hrest⟩ := List.cons.inj (List.cons.inj h).2
      obtain ⟨hlow, hrest⟩ := List.cons.inj hrest
      have hhigh := upperHexDigit_inj (by omega) (by omega) hhigh
      have hlow := upperHexDigit_inj (by omega) (by omega) hlow
      exact ⟨UInt8.toNat_inj.1 (by omega), hrest⟩

/-- Every byte is written with at least one character. -/
theorem encodeByte_ne_nil (b : UInt8) : encodeByte b ≠ [] := by
  unfold encodeByte
  split
  · exact List.cons_ne_nil _ _
  · exact List.cons_ne_nil _ _

/-- Different roles have different encoded names. An unreserved byte stands for itself and is no
percent sign, and an encoded one has exactly two digits after the sign, so that a name can be read
from the left. -/
theorem encodeRole_injective : Function.Injective encodeRole := by
  have hinj : ∀ bs bs' : Bytes, bs.flatMap encodeByte = bs'.flatMap encodeByte → bs = bs' := by
    intro bs
    induction bs with
    | nil =>
      intro bs' h
      cases bs' with
      | nil => rfl
      | cons b bs' =>
        rw [List.flatMap_cons] at h
        exact absurd (List.append_eq_nil_iff.1 h.symm).1 (encodeByte_ne_nil b)
    | cons b bs ih =>
      intro bs' h
      cases bs' with
      | nil =>
        rw [List.flatMap_cons] at h
        exact absurd (List.append_eq_nil_iff.1 h).1 (encodeByte_ne_nil b)
      | cons b' bs' =>
        rw [List.flatMap_cons, List.flatMap_cons] at h
        obtain ⟨rfl, hrest⟩ := encodeByte_append_inj h
        rw [ih bs' hrest]
  intro role role' h
  have hchars := congrArg String.toList h
  rw [toList_encodeRole, toList_encodeRole] at hchars
  exact utf8Bytes_injective (hinj _ _ hchars)

/-- A slash is encoded. The name of a role cannot leave the directory of the store, nor name a file
of another directory. -/
theorem slash_not_mem_encodeRole (role : String) : '/' ∉ (encodeRole role).toList := by
  rw [toList_encodeRole, List.mem_flatMap]
  rintro ⟨b, -, hmem⟩
  unfold encodeByte at hmem
  split at hmem
  · next hb =>
    rw [ofNat_byte_eq (List.mem_singleton.1 hmem).symm] at hb
    exact absurd hb (by decide)
  · have hdigit : ∀ n : Fin 16, upperHexDigit n ≠ '/' := by decide
    have hlt : b.toNat < 256 := b.toNat_lt
    rcases List.mem_cons.1 hmem with h | hmem
    · exact absurd h (by decide)
    · rcases List.mem_cons.1 hmem with h | hmem
      · exact hdigit ⟨b.toNat / 16, by omega⟩ h.symm
      · exact hdigit ⟨b.toNat % 16, by omega⟩ (List.mem_singleton.1 hmem).symm

/-! ## Metadata files and target files -/

/-- A version is written in digits. -/
theorem isDigit_of_mem_version {v : UInt64} {c : Char} (h : c ∈ (toString v).toList) :
    c.isDigit = true := by
  have hdigits : (toString v).toList = Nat.toDigits 10 v.toNat := Nat.toList_repr
  rw [hdigits] at h
  exact isDigit_of_mem_digits h

/-- A name that begins with a version begins with a digit. -/
theorem head_versioned (v : UInt64) (rest : String) :
    ∃ c, (toString v ++ rest).toList.head? = some c ∧ c.isDigit = true := by
  have hdigits : (toString v).toList = Nat.toDigits 10 v.toNat := Nat.toList_repr
  obtain ⟨c, cs, hcons⟩ := List.exists_cons_of_ne_nil (Nat.toDigits_ne_nil (n := v.toNat) (b := 10))
  refine ⟨c, ?_, isDigit_of_mem_digits (n := v.toNat) (by rw [hcons]; exact List.mem_cons_self ..)⟩
  rw [String.toList_append, hdigits, hcons]
  rfl

/-- The names of the root's history begin with a letter. -/
theorem head_rootHistory (v : UInt64) :
    (s!"root_history/{v}.root.json").toList.head? = some 'r' := by
  have hlist : (s!"root_history/{v}.root.json").toList =
      "root_history/".toList ++ ((toString v).toList ++ ".root.json".toList) := by
    rw [← String.toList_append, ← String.toList_append, ← String.append_assoc]
    rfl
  have hhead : "root_history/".toList = 'r' :: "oot_history/".toList := by decide
  rw [hlist, hhead]
  rfl

/-- A name that begins with a version is not one that begins with another character. -/
theorem versioned_ne {v : UInt64} {rest name : String} {c : Char} (hc : c.isDigit = false)
    (hname : name.toList.head? = some c) : toString v ++ rest ≠ name := by
  rintro rfl
  obtain ⟨d, hd, hdigit⟩ := head_versioned v rest
  cases hname.symm.trans hd
  exact absurd (hc.symm.trans hdigit) Bool.false_ne_true

/-- A name that starts with another character, or that has no slash, is not a target's. -/
theorem ne_target_of_toList {name : String} (path : String)
    (h : name.toList.head? ≠ some 't' ∨ '/' ∉ name.toList) : name ≠ s!"targets/{path}" := by
  rintro rfl
  have hlist : (s!"targets/{path}").toList = "targets/".toList ++ path.toList :=
    String.toList_append
  rw [hlist] at h
  rcases h with h | h
  · exact h rfl
  · exact h (List.mem_append_left _ (by decide))

/-- The name of a metadata file is not that of a target file. The names of metadata files have no
directory but `root_history`, and `targets/` is another one. -/
theorem ne_target {name : String}
    (h : RootFile name ∨ name = "timestamp.json" ∨ SnapshotFile name ∨ name = "targets.json" ∨
      RoleFile name) (path : String) : name ≠ s!"targets/{path}" := by
  rcases h with (rfl | ⟨v, rfl⟩) | rfl | (rfl | ⟨v, rfl⟩) | rfl | ⟨role, rfl⟩
  · exact ne_target_of_toList path (.inr (by decide))
  · refine ne_target_of_toList path (.inl ?_)
    rw [head_rootHistory]
    intro h
    exact absurd (Option.some.inj h) (by decide)
  · exact ne_target_of_toList path (.inr (by decide))
  · exact ne_target_of_toList path (.inr (by decide))
  · refine ne_target_of_toList path (.inr ?_)
    have hlist : (s!"{v}.snapshot.json").toList =
        (toString v).toList ++ ".snapshot.json".toList := String.toList_append
    rw [hlist, List.mem_append]
    rintro (h | h)
    · exact absurd (isDigit_of_mem_version h) (by decide)
    · exact absurd h (by decide)
  · exact ne_target_of_toList path (.inr (by decide))
  · refine ne_target_of_toList path (.inr ?_)
    have hlist : (s!"{encodeRole role}.json").toList =
        (encodeRole role).toList ++ ".json".toList := String.toList_append
    rw [hlist, List.mem_append]
    rintro (h | h)
    · exact slash_not_mem_encodeRole role h
    · exact absurd h (by decide)

end Sigstore.Tuf
