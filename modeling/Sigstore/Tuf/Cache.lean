import Sigstore.Tuf.Trusted

/-!
# Repositories and stores

Where the client gets its files from and where it keeps them: the configuration and the repository
of `transport.rs`, and the stores of `cache.rs`. A repository and a store stand for what they answer
during one call of the client, which asks a repository for a file at most once.
-/

namespace Sigstore.Tuf

open Checks

/-- The limits of the client. -/
structure UpdaterConfig where
  rootMaxLength : UInt64 := 512000
  timestampMaxLength : UInt64 := 16384
  snapshotMaxLength : UInt64 := 2000000
  targetsMaxLength : UInt64 := 5000000
  targetMaxLength : UInt64 := 50000000
  maxRootRotations : UInt64 := 32
  maxDelegations : UInt32 := 32

/-- A source of metadata and target files. A file that is not there is `none`. -/
structure Repository where
  fetchMetadata : String → UInt64 → Except Error (Option Bytes)
  fetchTarget : String → UInt64 → Except Error (Option Bytes)

/-- A repository returns no more bytes than it was allowed to. -/
structure Repository.Bounded (R : Repository) : Prop where
  metadata : ∀ name maxLength bytes, R.fetchMetadata name maxLength = .ok (some bytes) →
    ¬ UInt64.ofNat bytes.length > maxLength
  target : ∀ path maxLength bytes, R.fetchTarget path maxLength = .ok (some bytes) →
    ¬ UInt64.ofNat bytes.length > maxLength

/-- A store of files by name. `writable` tells which writes succeed; a write that fails leaves the
store as it is. -/
structure MetadataStore where
  contents : String → Option Bytes
  writable : String → Bytes → Bool

namespace MetadataStore

/-- Nothing is stored and every write succeeds. -/
def empty : MetadataStore := { contents := fun _ => none, writable := fun _ _ => true }

/-- Load a previously stored file. -/
def load (s : MetadataStore) (name : String) : Option Bytes := s.contents name

/-- Persist a file. The client does not look at whether this succeeds. -/
def store (s : MetadataStore) (name : String) (bytes : Bytes) : MetadataStore :=
  if s.writable name bytes then
    { s with contents := fun n => if n = name then some bytes else s.contents n }
  else s

/-- Storing does not change whether the store is writable. -/
@[simp] theorem writable_store (s : MetadataStore) (name : String) (bytes : Bytes) :
    (s.store name bytes).writable = s.writable := by
  unfold store
  split <;> rfl

/-- A file is what was written last under its name. -/
theorem load_store_self {s : MetadataStore} {name : String} {bytes : Bytes}
    (h : s.writable name bytes = true) : (s.store name bytes).load name = some bytes := by
  rw [store, if_pos h]
  exact if_pos rfl

/-- Storing under one name leaves the files of other names alone. -/
theorem load_store_of_ne (s : MetadataStore) {name other : String} (bytes : Bytes)
    (h : other ≠ name) : (s.store name bytes).load other = s.load other := by
  unfold store
  split
  · exact if_neg h
  · rfl

/-- After a write, a file is the one that was there or the one that was written. -/
theorem load_store_cases (s : MetadataStore) (name : String) (bytes : Bytes) (other : String) :
    (s.store name bytes).load other = s.load other ∨
    (other = name ∧ (s.store name bytes).load other = some bytes) := by
  by_cases hname : other = name
  · subst hname
    by_cases hwritable : s.writable other bytes = true
    · exact .inr ⟨rfl, load_store_self hwritable⟩
    · rw [store, if_neg hwritable]
      exact .inl rfl
  · exact .inl (load_store_of_ne s bytes hname)

/-- A file that is there after a write was there, or is the one that was written. -/
theorem load_store_some {s : MetadataStore} {name other : String} {bytes found : Bytes}
    (h : (s.store name bytes).load other = some found) :
    s.load other = some found ∨ (other = name ∧ found = bytes) := by
  rcases s.load_store_cases name bytes other with heq | ⟨hname, heq⟩
  · exact .inl (heq.symm.trans h)
  · exact .inr ⟨hname, (Option.some.inj (heq.symm.trans h)).symm⟩

end MetadataStore

/-- Read a stored file of bounded length. -/
def StoreRepository.read (store : MetadataStore) (name : String) (maxLength : UInt64) :
    Except Error (Option Bytes) :=
  match store.load name with
  | some bytes =>
    if UInt64.ofNat bytes.length > maxLength then
      .error (.transport s!"cached {name} exceeds max length {maxLength}")
    else .ok (some bytes)
  | none => .ok none

/-- A store as a repository. -/
def StoreRepository.new (store : MetadataStore) : Repository :=
  { fetchMetadata := StoreRepository.read store
    fetchTarget := fun path => StoreRepository.read store s!"targets/{path}" }

end Sigstore.Tuf
