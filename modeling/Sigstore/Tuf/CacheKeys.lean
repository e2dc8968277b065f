import Sigstore.Tuf.Cached

/-!
# The keys of cached files

The file of a delegated role is stored under the encoded name of the role, next to the files of the
top-level roles. A role name of unreserved characters is its own encoding, so a role that is named
like a versioned snapshot has the snapshot's key, and no other role has another file's key
(`storedApart_iff`).
-/

namespace Sigstore.Tuf

open Checks StateAction

/-! ## Names that are their own encoding -/

/-- The character is written as it is. -/
def Plain (c : Char) : Prop := (String.utf8EncodeChar c).flatMap encodeByte = [c]

instance (c : Char) : Decidable (Plain c) :=
  inferInstanceAs (Decidable ((String.utf8EncodeChar c).flatMap encodeByte = [c]))

/-- Digits are not escaped. -/
theorem Plain.of_isDigit {c : Char} (h : c.isDigit = true) : Plain c := by
  obtain ⟨hlow, hhigh⟩ := Char.isDigit_iff_toNat.1 h
  have hall : ∀ n : Fin 10, Plain (Char.ofNat (48 + n)) := by decide
  have hlow : 48 ≤ c.toNat := hlow
  have hhigh : c.toNat ≤ 57 := hhigh
  have hvalue : Char.ofNat (48 + (c.toNat - 48)) = c := by
    rw [Nat.add_sub_cancel' hlow, Char.ofNat_toNat]
  rw [← hvalue]
  exact hall ⟨c.toNat - 48, by omega⟩

/-- A name of plain characters is its own encoding. The name is encoded byte by byte, and these are
the bytes that are left alone. -/
theorem encodeRole_of_plain {role : String} (h : ∀ c ∈ role.toList, Plain c) :
    encodeRole role = role := by
  have hchars : ∀ cs : List Char, (∀ c ∈ cs, Plain c) →
      (cs.flatMap String.utf8EncodeChar).flatMap encodeByte = cs := by
    intro cs hcs
    induction cs with
    | nil => rfl
    | cons c cs ih =>
      rw [List.flatMap_cons, List.flatMap_append, hcs c (List.mem_cons_self ..),
        ih fun d hd => hcs d (List.mem_cons_of_mem _ hd)]
      rfl
  rw [← String.toList_inj, toList_encodeRole, utf8Bytes_eq_flatMap]
  exact hchars _ h

/-- The name of the file of a versioned snapshot, without its extension. -/
def versionedSnapshot (v : UInt64) : String := s!"{v}.snapshot"

/-- A role that is named as a version of the snapshot has nothing to escape in its name. -/
theorem encodeRole_versionedSnapshot (v : UInt64) :
    encodeRole (versionedSnapshot v) = versionedSnapshot v := by
  refine encodeRole_of_plain fun c hc => ?_
  rw [versionedSnapshot, String.toList_append] at hc
  rcases List.mem_append.1 hc with hc | hc
  · exact .of_isDigit (isDigit_of_mem_version hc)
  · have hchars : (toString ".snapshot").toList =
        ['.', 's', 'n', 'a', 'p', 's', 'h', 'o', 't'] := by decide
    rw [hchars] at hc
    simp only [List.mem_cons, List.not_mem_nil, or_false] at hc
    rcases hc with rfl | rfl | rfl | rfl | rfl | rfl | rfl | rfl | rfl <;> decide

/-- A role that is named like a versioned snapshot has the snapshot's key. -/
theorem roleFileName_versionedSnapshot (v : UInt64) :
    roleFileName (versionedSnapshot v) = s!"{v}.snapshot.json" := by
  rw [roleFileName, encodeRole_versionedSnapshot]
  exact String.append_assoc

/-! ## Other files -/

/-- The keys of the files that are not of delegated roles. -/
inductive OtherFile : String → Prop where
  | root {name : String} (file : RootFile name) : OtherFile name
  | timestamp : OtherFile "timestamp.json"
  | snapshot {name : String} (file : SnapshotFile name) : OtherFile name
  | targets : OtherFile "targets.json"
  | target (path : String) : OtherFile s!"targets/{path}"

section
variable {E : ClientEnv} {R : Repository}

/-- A refresh writes other files only. -/
theorem refresh_writesOther (now : Int) :
    Does E.toEnv (fun c => c.OfRoot ∨ c.OfTopLevel) (fun name _ => OtherFile name)
      (refresh E R now) := by
  refine (refresh_does E R now).mono (fun _ => id) fun name _ h => ?_
  rcases h with h | rfl | h | rfl
  · exact .root h
  · exact .timestamp
  · exact .snapshot h
  · exact .targets

/-- A download writes other files only. -/
theorem downloadTarget_writesOther (target : TargetFile) (targetPath : String) :
    Does E.toEnv (fun _ => False) (fun name _ => OtherFile name)
      (downloadTarget E R target targetPath) := by
  refine (downloadTarget_does E R target targetPath).mono (fun _ => id) fun name bytes h => ?_
  rw [h.1]
  exact .target targetPath

end

/-- The key of a delegated role is no other file's and no other role's, and loading the role leaves
what is stored under other keys as it is. -/
structure StoredApart (role : String) : Prop where
  ne_other : ∀ name, OtherFile name → roleFileName role ≠ name
  ne_role : ∀ role', role' ≠ role → roleFileName role' ≠ roleFileName role
  keeps : ∀ (E : ClientEnv) (R : Repository) (delegator : String) (now : Int) (u : Updater)
    (name : String), OtherFile name ∨ (∃ role', role' ≠ role ∧ name = roleFileName role') →
    (loadRole E R role delegator now u).2.stored name = u.stored name

/-- The key of a delegated role that is another file's is that of a versioned snapshot. The other
files have the names of top-level roles, or a slash in their names. -/
theorem OtherFile.eq_roleFileName {role name : String} (hrole : isTopLevelRole role = false)
    (h : OtherFile name) (hname : roleFileName role = name) :
    ∃ v : UInt64, role = versionedSnapshot v := by
  -- the plain names are the names of roles, which are encoded differently
  have hplain : ∀ other : String, isTopLevelRole other = true → encodeRole other = other →
      name ≠ other ++ ".json" := by
    intro other htop hself h
    have heq : roleFileName role = roleFileName other := by
      rw [hname, h, roleFileName, hself]
      rfl
    rw [roleFileName_injective heq, htop] at hrole
    cases hrole
  cases h with
  | root file =>
    exact absurd (hname ▸ file) (not_rootFile_roleFileName (.inr hrole))
  | timestamp => exact absurd rfl (hplain "timestamp" (by decide) (by decide))
  | snapshot file =>
    rcases file with rfl | ⟨v, rfl⟩
    · exact absurd rfl (hplain "snapshot" (by decide) (by decide))
    · exact ⟨v, roleFileName_injective (hname.trans (roleFileName_versionedSnapshot v).symm)⟩
  | targets => exact absurd rfl (hplain "targets" (by decide) (by decide))
  | target path =>
    exact absurd hname (ne_target (.inr (.inr (.inr (.inr ⟨role, rfl⟩)))) path)

/-- A delegated role is stored apart from all other files exactly when it is not named like a
versioned snapshot. -/
theorem storedApart_iff {role : String} (hrole : isTopLevelRole role = false) :
    StoredApart role ↔ ¬ ∃ v : UInt64, role = s!"{v}.snapshot" := by
  constructor
  · rintro hapart ⟨v, rfl⟩
    exact hapart.ne_other _ (.snapshot (.inr ⟨v, rfl⟩)) (roleFileName_versionedSnapshot v)
  · intro hname
    have hother : ∀ name, OtherFile name → roleFileName role ≠ name := fun name h heq =>
      hname (h.eq_roleFileName hrole heq)
    have hdistinct : ∀ role', role' ≠ role → roleFileName role' ≠ roleFileName role :=
      fun role' h heq => h (roleFileName_injective heq)
    refine ⟨hother, hdistinct, fun E R delegator now u name h => ?_⟩
    refine ((loadRole_does E R role delegator now u).store.stored name).resolve_right ?_
    rintro ⟨bytes, -, rfl⟩
    rcases h with h | ⟨role', hne, heq⟩
    · exact hother _ h rfl
    · exact hdistinct role' hne heq.symm

/-- A role named `5.snapshot` overwrites the snapshot of version 5. Both files have the name
`5.snapshot.json`, since the name of the role is its own encoding. -/
theorem storedApart_fails : ¬ ∀ role, isTopLevelRole role = false → StoredApart role := by
  intro h
  refine (h "5.snapshot" (by decide)).ne_other "5.snapshot.json" (.snapshot (.inr ⟨5, ?_⟩)) ?_
  · decide
  · decide

/-- A role named `2.root` is stored apart. Root files that the client adopts are kept in a directory
of their own. -/
theorem storedApart_root : StoredApart "2.root" := by
  refine (storedApart_iff (by decide)).2 ?_
  rintro ⟨v, h⟩
  have hlength := congrArg String.length h
  rw [String.length_append] at hlength
  have hroot : "2.root".length = 6 := by decide
  have hsnapshot : (toString ".snapshot").length = 9 := by decide
  omega

end Sigstore.Tuf
