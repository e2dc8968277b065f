import Sigstore.Tuf.Seeding

/-!
# Walking the root chain

The client adopts roots from its store and then from the repository, each one the successor of the
last (`Successors`). Both loops adopt a chain root by root (`adoptCachedRoots_chain`,
`refreshRootLoop_chain`). The second one reaches the end of the chain only where it can ask for one
version more than the chain has (`rootChain_iff`).
-/

namespace Sigstore.Tuf

open Checks StateAction TrustedMetadataSet

/-! ## Chains of roots -/

section
variable (E : Env)

/-- Successors of a root with their files, of consecutive versions. -/
inductive Successors : Metadata Root → List (Bytes × Metadata Root) → Prop
  | nil {root} : Successors root []
  | cons {root bytes next chain} : Succeeds E root bytes next →
      next.signed.version.toNat = root.signed.version.toNat + 1 → Successors next chain →
      Successors root ((bytes, next) :: chain)

end

/-- The last root of a chain. -/
def lastRoot (root : Metadata Root) : List (Bytes × Metadata Root) → Metadata Root
  | [] => root
  | (_, next) :: chain => lastRoot next chain

/-- What is trusted after the adoption of a root. -/
def TrustedMetadataSet.ofRoot (root : Metadata Root) : TrustedMetadataSet :=
  { root := root, timestamp := none, snapshot := none, targets := BTreeMap.empty }

/-- What is trusted after the adoption of a chain. -/
def adoptTrusted (s : TrustedMetadataSet) (chain : List (Bytes × Metadata Root)) :
    TrustedMetadataSet := chain.foldl (fun _ p => ofRoot p.2) s

/-- The updater after it has adopted a root and written it through to the store. -/
def Updater.adopt (u : Updater) (p : Bytes × Metadata Root) : Updater :=
  { u with
    trusted := ofRoot p.2
    store := u.store.map fun st =>
      (st.store s!"root_history/{p.2.signed.version}.root.json" p.1).store "root.json" p.1 }

/-- The updater after it has adopted a chain, root by root. -/
def Updater.adoptAll (u : Updater) (chain : List (Bytes × Metadata Root)) : Updater :=
  chain.foldl Updater.adopt u

section
variable {E : Env} {root : Metadata Root} {chain : List (Bytes × Metadata Root)}

/-- A chain of roots that succeed one another can be cut in two. -/
theorem Successors.of_append {cached : List (Bytes × Metadata Root)}
    (h : Successors E root (cached ++ chain)) :
    Successors E root cached ∧ Successors E (lastRoot root cached) chain := by
  induction cached generalizing root with
  | nil => exact ⟨.nil, h⟩
  | cons p cached ih =>
    cases h with
    | cons hnext hversion hrest =>
      obtain ⟨hcached, hchain⟩ := ih hrest
      exact ⟨.cons hnext hversion hcached, hchain⟩

/-- The versions of a chain go up one by one. -/
theorem Successors.version_last (h : Successors E root chain) :
    (lastRoot root chain).signed.version.toNat = root.signed.version.toNat + chain.length := by
  induction h with
  | nil => rfl
  | cons _ hversion _ ih =>
    rw [lastRoot, ih, hversion, List.length_cons]
    omega

/-- The beginning of a chain of successors is one. -/
theorem Successors.take (h : Successors E root chain) (n : Nat) :
    Successors E root (chain.take n) := by
  rw [← List.take_append_drop n chain] at h
  exact h.of_append.1

/-- After the adoption of a chain its last root is trusted. -/
theorem root_adoptTrusted (s : TrustedMetadataSet) :
    (adoptTrusted s chain).root = lastRoot s.root chain := by
  induction chain generalizing s with
  | nil => rfl
  | cons p chain ih => exact ih (ofRoot p.2)

/-- After the adoption of a chain by an updater its last root is trusted. -/
theorem root_adoptAll (u : Updater) :
    (u.adoptAll chain).trusted.root = lastRoot u.trusted.root chain := by
  induction chain generalizing u with
  | nil => rfl
  | cons p chain ih => exact ih (u.adopt p)

/-- A version that does not wrap around has a next one, with and without overflow checks. -/
theorem nextVersion_of_toNat {v w : UInt64} (h : w = v + 1) (hversion : w.toNat = v.toNat + 1) :
    nextVersion E v = .ok w := by
  rw [nextVersion, if_neg, h]
  rintro ⟨-, hwrap⟩
  rw [h, hwrap] at hversion
  exact absurd hversion (Nat.succ_ne_zero _).symm

/-- A successor is accepted. -/
theorem updateRoot_of_succeeds {s : TrustedMetadataSet} {bytes : Bytes} {next : Metadata Root}
    (h : Succeeds E s.root bytes next)
    (hversion : next.signed.version.toNat = s.root.signed.version.toNat + 1) :
    s.updateRoot E bytes = (.ok (), ofRoot next) := by
  have hnext := nextVersion_of_toNat (E := E) h.version hversion
  have hcheck : checkRoot E s bytes = .ok next := by
    simp only [checkRoot, bind_eq_ok, mapError_eq_ok, rejectIf_eq_ok, pure_eq_ok]
    exact ⟨next, h.parsed, _, hnext, (), not_not.2 rfl, (), h.signed, (), h.selfSigned, rfl⟩
  rw [updateRoot, hcheck]
  rfl

/-- Only a successor is accepted. -/
theorem updateRoot_of_not_succeeds {s : TrustedMetadataSet} {bytes : Bytes}
    (h : ∀ next, ¬ Succeeds E s.root bytes next) : ∃ e, s.updateRoot E bytes = (.error e, s) := by
  rw [updateRoot]
  cases hcheck : checkRoot E s bytes with
  | error e => exact ⟨e, rfl⟩
  | ok next => exact absurd (checkRoot_ok E hcheck).1 (h next)

end

/-! ## The loops -/

section
variable {E : ClientEnv} {R : Repository} {u : Updater} {chain : List (Bytes × Metadata Root)}

/-- The repository has the roots of the chain under their versions, and no next one. -/
structure ServesChain (R : Repository) (maxLength : UInt64) (root : Metadata Root)
    (chain : List (Bytes × Metadata Root)) : Prop where
  found : ∀ p ∈ chain,
    R.fetchMetadata s!"{p.2.signed.version}.root.json" maxLength = .ok (some p.1)
  notFound : R.fetchMetadata s!"{(lastRoot root chain).signed.version + 1}.root.json" maxLength =
    .ok none

/-- The store has the roots of the chain in its history, and no next one. -/
structure HasChain (E : Env) (st : MetadataStore) (root : Metadata Root)
    (chain : List (Bytes × Metadata Root)) : Prop where
  found : ∀ p ∈ chain, st.load s!"root_history/{p.2.signed.version}.root.json" = some p.1
  noNext : ∀ bytes next,
    st.load s!"root_history/{(lastRoot root chain).signed.version + 1}.root.json" = some bytes →
    ¬ Succeeds E (lastRoot root chain) bytes next

/-- A turn of the walk adopts a root that the repository has. The name that is asked for is the
version that the root has, as a successor's number is the next one. -/
theorem refreshRootLoop_some {count : Nat} {p : Bytes × Metadata Root}
    (hfetch : R.fetchMetadata s!"{p.2.signed.version}.root.json" u.config.rootMaxLength =
      .ok (some p.1))
    (hupdate : u.trusted.updateRoot E.toEnv p.1 = (.ok (), ofRoot p.2)) :
    refreshRootLoop E R (count + 1) p.2.signed.version u =
      refreshRootLoop E R count (p.2.signed.version + 1) (u.adopt p) := by
  have hread : (gets (·.config) : Client UpdaterConfig) u = (.ok u.config, u) := rfl
  have hcheck : check (R.fetchMetadata s!"{p.2.signed.version}.root.json"
      u.config.rootMaxLength) u = (.ok (some p.1), u) := by
    rw [hfetch]
    rfl
  have hadopt : update (·.updateRoot E.toEnv p.1) u =
      (.ok (), { u with trusted := ofRoot p.2 }) := by
    simp only [update, onPart, hupdate]
  rw [refreshRootLoop, bind_of_ok hread, bind_of_ok hcheck]
  dsimp only
  have hput : ∀ name bytes (v : Updater), cachePut name bytes v =
      (.ok (), { v with store := v.store.map (·.store name bytes) }) := fun _ _ _ => rfl
  rw [bind_of_ok hadopt, bind_of_ok (hput _ _ _), bind_of_ok (hput _ _ _), Updater.adopt,
    Option.map_map]
  rfl

/-- The walk ends well where the repository has no next root. -/
theorem refreshRootLoop_notFound {count : Nat} {next : UInt64}
    (hfetch : R.fetchMetadata s!"{next}.root.json" u.config.rootMaxLength = .ok none) :
    refreshRootLoop E R (count + 1) next u = (.ok (), u) := by
  have hread : (gets (·.config) : Client UpdaterConfig) u = (.ok u.config, u) := rfl
  have hcheck : check (R.fetchMetadata s!"{next}.root.json" u.config.rootMaxLength) u =
      (.ok none, u) := by
    rw [hfetch]
    rfl
  rw [refreshRootLoop, bind_of_ok hread, bind_of_ok hcheck]
  rfl

/-- How a walk ends that has used up its versions. -/
def exceeded (u : Updater) : Abort :=
  .error (.transport
    s!"exceeded {u.config.maxRootRotations} root rotations without reaching the latest root")

/-- The walk fails where it is out of rotations, even if there is no next root to fetch. -/
theorem refreshRootLoop_zero {next : UInt64} :
    refreshRootLoop E R 0 next u = (.error (exceeded u), u) := rfl

/-- The walk adopts the chain root by root. It comes to the end of the chain where it may ask for
one version more than the chain has. -/
theorem refreshRootLoop_chain (count : Nat)
    (hchain : Successors E.toEnv u.trusted.root chain)
    (hserves : ServesChain R u.config.rootMaxLength u.trusted.root chain) :
    refreshRootLoop E R count (u.trusted.root.signed.version + 1) u =
      if chain.length < count then (.ok (), u.adoptAll chain)
      else (.error (exceeded u), u.adoptAll (chain.take count)) := by
  induction chain generalizing u count with
  | nil =>
    cases count with
    | zero => exact refreshRootLoop_zero
    | succ count => exact refreshRootLoop_notFound hserves.notFound
  | cons p chain ih =>
    cases count with
    | zero => exact refreshRootLoop_zero
    | succ count =>
      obtain ⟨bytes, next⟩ := p
      cases hchain with
      | cons hnext hversion hchain =>
        have hfound := hserves.found (bytes, next) List.mem_cons_self
        rw [← hnext.version, refreshRootLoop_some hfound (updateRoot_of_succeeds hnext hversion)]
        have hserves' : ServesChain R (u.adopt (bytes, next)).config.rootMaxLength
            (u.adopt (bytes, next)).trusted.root chain :=
          ⟨fun p hp => hserves.found p (List.mem_cons_of_mem _ hp), hserves.notFound⟩
        refine (ih count hchain hserves').trans ?_
        simp only [List.length_cons, Nat.add_lt_add_iff_right]
        rfl

theorem ok_bind {ε α β : Type} (a : α) (f : α → Except ε β) : (Except.ok a >>= f) = f a := rfl

/-- The loop over the cached roots adopts the longest chain that the store has. At the last version
it panics where overflows are checked. -/
theorem adoptCachedRoots_chain {E : Env} {st : MetadataStore} {s : TrustedMetadataSet} {fuel : Nat}
    (hchain : Successors E s.root chain) (hhas : HasChain E st s.root chain)
    (hfuel : chain.length < fuel) :
    Updater.adoptCachedRoots E st fuel s =
      (nextVersion E (lastRoot s.root chain).signed.version).map fun _ => adoptTrusted s chain := by
  induction chain generalizing s fuel with
  | nil =>
    obtain ⟨fuel, rfl⟩ := Nat.exists_eq_succ_of_ne_zero (Nat.ne_of_gt hfuel)
    rw [Updater.adoptCachedRoots, lastRoot]
    cases hnext : nextVersion E s.root.signed.version with
    | error e => rfl
    | ok next =>
      obtain rfl := (nextVersion_ok E hnext).1
      rw [ok_bind]
      cases hload : st.load s!"root_history/{s.root.signed.version + 1}.root.json" with
      | none => rfl
      | some bytes =>
        obtain ⟨e, hupdate⟩ := updateRoot_of_not_succeeds (hhas.noNext bytes · hload)
        dsimp only
        rw [hupdate]
        rfl
  | cons p chain ih =>
    obtain ⟨fuel, rfl⟩ := Nat.exists_eq_succ_of_ne_zero (Nat.ne_of_gt (Nat.zero_lt_of_lt hfuel))
    obtain ⟨bytes, root⟩ := p
    cases hchain with
    | cons hsucc hversion hchain =>
      have hupdate := updateRoot_of_succeeds hsucc hversion
      have hnext : nextVersion E s.root.signed.version = .ok root.signed.version :=
        nextVersion_of_toNat hsucc.version hversion
      have hload := hhas.found (bytes, root) List.mem_cons_self
      have hhas' : HasChain E st (ofRoot root).root chain :=
        ⟨fun p hp => hhas.found p (List.mem_cons_of_mem _ hp), hhas.noNext⟩
      rw [Updater.adoptCachedRoots, hnext, ok_bind, hload]
      dsimp only
      rw [hupdate]
      exact ih hchain hhas' (Nat.lt_of_succ_lt_succ hfuel)

/-! ## The range of versions -/

/-- A sum that fits in 64 bits does not wrap around. -/
theorem toNat_add_of_fits {a b : UInt64} (h : a.toNat + b.toNat < 2 ^ 64) :
    (a + b).toNat = a.toNat + b.toNat := by
  rw [UInt64.toNat_add, Nat.mod_eq_of_lt h]

/-- The walk is over `max` versions where they fit. No addition wraps, so that the range has a
version for each rotation that is allowed. -/
theorem rootRange_of_fits {v max : UInt64} (h : v.toNat + 1 < 2 ^ 64)
    (hmax : v.toNat + max.toNat < 2 ^ 64) : rootRange E v max = .ok max.toNat := by
  have hfirst : (v + 1).toNat = v.toNat + 1 := toNat_add_of_fits h
  have hlast : (v + max).toNat = v.toNat + max.toNat := toNat_add_of_fits hmax
  rw [rootRange, if_neg]
  · split
    · next hle =>
      rw [UInt64.toNat_sub_of_le _ _ hle, hfirst, hlast]
      rw [UInt64.le_iff_toNat_le, hfirst, hlast] at hle
      congr 1
      omega
    · next hlt =>
      rw [UInt64.le_iff_toNat_le, hfirst, hlast] at hlt
      congr 1
      omega
  · rw [UInt64.lt_iff_toNat_lt, UInt64.lt_iff_toNat_lt, hfirst, hlast]
    omega

/-- Where the last version does not fit, the walk panics or is over no version. The wrapped last
version lies below the first one, so that the range is empty. -/
theorem rootRange_of_exceeds {v max : UInt64} (h : v.toNat + 1 < 2 ^ 64)
    (hmax : 2 ^ 64 ≤ v.toNat + max.toNat) :
    rootRange E v max = if E.overflowChecks then .error .panic else .ok 0 := by
  have hfirst : (v + 1).toNat = v.toNat + 1 := toNat_add_of_fits h
  have hlt := max.toNat_lt
  have hlast : (v + max).toNat = v.toNat + max.toNat - 2 ^ 64 := by
    rw [UInt64.toNat_add]
    omega
  have hwraps : v + max < v := by
    rw [UInt64.lt_iff_toNat_lt, hlast]
    omega
  have hempty : ¬ v + 1 ≤ v + max := by
    rw [UInt64.le_iff_toNat_le, hfirst, hlast]
    omega
  rw [rootRange]
  by_cases hchecks : E.overflowChecks = true
  · rw [if_pos ⟨hchecks, .inr hwraps⟩, if_pos hchecks]
  · rw [if_neg fun h => hchecks h.1, if_neg hempty, if_neg hchecks]

/-- From the last version, the walk panics or asks for some version. The first version wraps to 0,
which no last version lies below. -/
theorem rootRange_last {v : UInt64} (max : UInt64) (h : v.toNat + 1 = 2 ^ 64) :
    ∃ n, rootRange E v max = if E.overflowChecks then .error .panic else .ok (n + 1) := by
  have hfirst : (v + 1).toNat = 0 := by
    rw [UInt64.toNat_add, UInt64.toNat_one, h, Nat.mod_self]
  have hwraps : v + 1 < v := by
    rw [UInt64.lt_iff_toNat_lt, hfirst]
    omega
  have hle : v + 1 ≤ v + max := by
    rw [UInt64.le_iff_toNat_le, hfirst]
    exact Nat.zero_le _
  rw [rootRange]
  by_cases hchecks : E.overflowChecks = true
  · exact ⟨0, by rw [if_pos ⟨hchecks, .inl hwraps⟩, if_pos hchecks]⟩
  · exact ⟨_, by rw [if_neg fun h => hchecks h.1, if_pos hle, if_neg hchecks]⟩

/-! ## The chain of a repository -/

/-- The walk adopts the whole chain where it has no more than the allowed number of roots, else it
fails after that number of them. -/
def WalksChain (E : ClientEnv) (R : Repository) (u : Updater)
    (chain : List (Bytes × Metadata Root)) : Prop :=
  if chain.length ≤ u.config.maxRootRotations.toNat then
    refreshRoot E R u = (.ok (), u.adoptAll chain)
  else
    ∃ e, refreshRoot E R u =
      (.error (.error e), u.adoptAll (chain.take u.config.maxRootRotations.toNat))

/-- The versions of the walk fit, and they are not as many as the roots of the chain. -/
def Fits (E : Env) (v max : UInt64) (length : Nat) : Prop :=
  (v.toNat + 1 < 2 ^ 64 → length ≠ max.toNat ∧ v.toNat + max.toNat < 2 ^ 64) ∧
    (v.toNat + 1 = 2 ^ 64 → E.overflowChecks = false)

/-- Where the versions of the walk fit, so does the next version. -/
theorem Fits.nextVersion {E : Env} {v max : UInt64} {length : Nat} (h : Fits E v max length) :
    nextVersion E v = .ok (v + 1) := by
  have hlt := v.toNat_lt
  rw [TrustedMetadataSet.nextVersion, if_neg]
  rintro ⟨hchecks, hwrap⟩
  have hzero : (v.toNat + 1) % 2 ^ 64 = 0 := by
    rw [← UInt64.toNat_one, ← UInt64.toNat_add, hwrap]
    rfl
  have hlast : v.toNat + 1 = 2 ^ 64 := by omega
  rw [h.2 hlast] at hchecks
  cases hchecks

/-- The first part of a refresh is the walk, from the next version on and with as many rotations as
the range has versions. -/
theorem refreshRoot_eq (u : Updater) :
    refreshRoot E R u =
      match rootRange E u.trusted.root.signed.version u.config.maxRootRotations with
      | .ok count => refreshRootLoop E R count (u.trusted.root.signed.version + 1) u
      | .error e => (.error e, u) := by
  have hread : (gets (·.trusted.root.signed.version) : Client UInt64) u =
      (.ok u.trusted.root.signed.version, u) := rfl
  have hconfig : (gets (·.config) : Client UpdaterConfig) u = (.ok u.config, u) := rfl
  rw [refreshRoot, bind_of_ok hread, bind_of_ok hconfig]
  cases rootRange E u.trusted.root.signed.version u.config.maxRootRotations with
  | error e => rfl
  | ok count => rfl

/-- The walk does what the limit promises of it exactly where the versions fit and the chain has not
as many roots as are allowed. -/
theorem walksChain_iff (hchain : Successors E.toEnv u.trusted.root chain)
    (hserves : ServesChain R u.config.rootMaxLength u.trusted.root chain) :
    WalksChain E R u chain ↔
      Fits E.toEnv u.trusted.root.signed.version u.config.maxRootRotations chain.length := by
  have hloop := fun count => refreshRootLoop_chain (E := E) (R := R) count hchain hserves
  have hlast := hchain.version_last
  have hlt := (lastRoot u.trusted.root chain).signed.version.toNat_lt
  have hroot := u.trusted.root.signed.version.toNat_lt
  rw [WalksChain, refreshRoot_eq]
  by_cases hnext : u.trusted.root.signed.version.toNat + 1 < 2 ^ 64
  · by_cases hmax : u.trusted.root.signed.version.toNat + u.config.maxRootRotations.toNat < 2 ^ 64
    · rw [rootRange_of_fits hnext hmax]
      dsimp only
      rw [hloop]
      have hfits : Fits E.toEnv u.trusted.root.signed.version u.config.maxRootRotations
          chain.length ↔ chain.length ≠ u.config.maxRootRotations.toNat :=
        ⟨fun h => (h.1 hnext).1, fun h => ⟨fun _ => ⟨h, hmax⟩, fun h => absurd h (by omega)⟩⟩
      rw [hfits]
      rcases Nat.lt_trichotomy chain.length u.config.maxRootRotations.toNat with hlt | heq | hgt
      · rw [if_pos hlt.le, if_pos hlt]
        exact iff_of_true rfl hlt.ne
      · rw [if_pos heq.le, if_neg heq.not_lt]
        exact iff_of_false (by simp) (not_not.2 heq)
      · rw [if_neg hgt.not_ge, if_neg hgt.not_gt]
        exact iff_of_true ⟨_, rfl⟩ hgt.ne'
    · -- The chain is shorter than what is allowed, but the walk is over no version.
      have hshort : chain.length ≤ u.config.maxRootRotations.toNat := by omega
      rw [rootRange_of_exceeds hnext (Nat.le_of_not_lt hmax), if_pos hshort]
      refine iff_of_false ?_ fun h => hmax (h.1 hnext).2
      by_cases hchecks : E.overflowChecks = true
      · simp [hchecks]
      · rw [if_neg hchecks]
        dsimp only
        rw [refreshRootLoop_zero]
        simp
  · -- The root has the last version, and no successor.
    have hend : u.trusted.root.signed.version.toNat + 1 = 2 ^ 64 := by omega
    have hshort : chain.length = 0 := by omega
    obtain ⟨n, hrange⟩ := rootRange_last (E := E) u.config.maxRootRotations hend
    rw [hrange, if_pos (by omega)]
    by_cases hchecks : E.overflowChecks = true
    · refine iff_of_false ?_ fun h => absurd (h.2 hend) (by simp [hchecks])
      simp [hchecks]
    · rw [if_neg hchecks]
      dsimp only
      rw [hloop, if_pos (by omega)]
      exact iff_of_true rfl
        ⟨fun h => absurd h hnext, fun _ => Bool.eq_false_iff.2 hchecks⟩

/-! ## From the store and the repository -/

/-- Attach a store, where there is one. -/
def attachStore (E : Env) (u : Updater) : Option MetadataStore → Except Abort Updater
  | none => .ok u
  | some st => u.withStore E st

/-- The store, where there is one, has the cached chain and no next root. -/
def HasCached (E : Env) (root : Metadata Root) (cached : List (Bytes × Metadata Root)) :
    Option MetadataStore → Prop
  | none => cached = []
  | some st => HasChain E st root cached

/-- The updater that has adopted the cached chain of the store. -/
def Updater.attached (u : Updater) (cached : List (Bytes × Metadata Root)) :
    Option MetadataStore → Updater
  | none => u
  | some st => { u with trusted := adoptTrusted u.trusted cached, store := some st }

/-- The updater adopts the cached chain and walks the chain of the repository from its end. -/
def AdoptsChain (E : ClientEnv) (R : Repository) (u : Updater) (store : Option MetadataStore)
    (cached chain : List (Bytes × Metadata Root)) : Prop :=
  attachStore E.toEnv u store = .ok (u.attached cached store) ∧
    WalksChain E R (u.attached cached store) chain

/-- Attaching a store adopts the chain of the roots in its history, up to the first version that it
does not have a successor for. -/
theorem withStore_chain {E : Env} {st : MetadataStore} {cached : List (Bytes × Metadata Root)}
    (hchain : Successors E u.trusted.root cached) (hhas : HasChain E st u.trusted.root cached) :
    u.withStore E st = (nextVersion E (lastRoot u.trusted.root cached).signed.version).map fun _ =>
      u.attached cached (some st) := by
  have hlast := hchain.version_last
  have hlt := (lastRoot u.trusted.root cached).signed.version.toNat_lt
  rw [Updater.withStore, adoptCachedRoots_chain hchain hhas (by omega)]
  cases nextVersion E (lastRoot u.trusted.root cached).signed.version with
  | error e => rfl
  | ok next => rfl

/-- **The root chain.** From a pinned root, the updater adopts the longest chain in its store, and
then the chain of the repository up to the bound, if and only if the versions of the walk fit and
the repository has not just as many roots as the bound allows. The versions go up one by one. -/
theorem rootChain_iff {store : Option MetadataStore} {cached : List (Bytes × Metadata Root)}
    (hchain : Successors E.toEnv u.trusted.root (cached ++ chain))
    (hcached : HasCached E.toEnv u.trusted.root cached store)
    (hserves : ServesChain R u.config.rootMaxLength (lastRoot u.trusted.root cached) chain) :
    (AdoptsChain E R u store cached chain ↔
      Fits E.toEnv (lastRoot u.trusted.root cached).signed.version u.config.maxRootRotations
        chain.length) ∧
    ∀ n ≤ chain.length,
      ((u.attached cached store).adoptAll (chain.take n)).trusted.root.signed.version.toNat =
        u.trusted.root.signed.version.toNat + cached.length + n := by
  obtain ⟨hfirst, hrest⟩ := hchain.of_append
  have hroot : (u.attached cached store).trusted.root = lastRoot u.trusted.root cached := by
    cases store with
    | none =>
      cases hcached
      rfl
    | some st => exact root_adoptTrusted u.trusted
  have hconfig : (u.attached cached store).config = u.config := by
    cases store <;> rfl
  have hwalk : WalksChain E R (u.attached cached store) chain ↔ _ :=
    walksChain_iff (by rwa [hroot]) (by rwa [hroot, hconfig])
  rw [hroot, hconfig] at hwalk
  refine ⟨?_, fun n hn => ?_⟩
  · rw [AdoptsChain, hwalk]
    refine and_iff_right_of_imp fun hfits => ?_
    cases store with
    | none => rfl
    | some st =>
      show u.withStore E.toEnv st = _
      rw [withStore_chain hfirst hcached, hfits.nextVersion]
      rfl
  · rw [root_adoptAll, hroot, (hrest.take n).version_last, hfirst.version_last,
      List.length_take_of_le hn]

end

namespace Sample

def rotatingEnv : ClientEnv := clientEnv [rootVersion 2, rootVersion 3]

/-- The three root files are parsed, and each is signed by its predecessor and by itself. -/
def rotatingChecks : Bool :=
  match Metadata.fromSlice (T := Root) rotatingEnv.toEnv (file (rootVersion 1)),
    Metadata.fromSlice (T := Root) rotatingEnv.toEnv (file (rootVersion 2)),
    Metadata.fromSlice (T := Root) rotatingEnv.toEnv (file (rootVersion 3)) with
  | .ok r₁, .ok r₂, .ok r₃ =>
    decide (r₁.signed.version = 1 ∧ r₂.signed.version = 2 ∧ r₃.signed.version = 3) &&
    (verifyWithRoot rotatingEnv.toEnv r₂ r₁.signed "root").isOk &&
    (verifyWithRoot rotatingEnv.toEnv r₃ r₂.signed "root").isOk &&
    (verifyRootSelfSigned rotatingEnv.toEnv r₂).isOk &&
    (verifyRootSelfSigned rotatingEnv.toEnv r₃).isOk
  | _, _, _ => false

/-- The second and the third root succeed the first one. The three files are evaluated once, in
`rotatingChecks`. -/
theorem successors_rotating :
    ∃ r₁ r₂ r₃ : Metadata Root,
      Metadata.fromSlice rotatingEnv.toEnv (file (rootVersion 1)) = .ok r₁ ∧
      r₁.signed.version = 1 ∧ r₂.signed.version = 2 ∧ r₃.signed.version = 3 ∧
      Successors rotatingEnv.toEnv r₁
        [(file (rootVersion 2), r₂), (file (rootVersion 3), r₃)] := by
  have heval : rotatingChecks = true := by decide +kernel
  unfold rotatingChecks at heval
  split at heval
  · next r₁ r₂ r₃ h₁ h₂ h₃ =>
    simp only [Bool.and_eq_true, decide_eq_true_eq, isOk_iff] at heval
    obtain ⟨⟨⟨⟨⟨hv₁, hv₂, hv₃⟩, ⟨_, hs₂⟩⟩, ⟨_, hs₃⟩⟩, ⟨_, hself₂⟩⟩, ⟨_, hself₃⟩⟩ := heval
    refine ⟨r₁, r₂, r₃, h₁, hv₁, hv₂, hv₃, .cons ⟨h₂, ?_, hs₂, hself₂⟩ ?_
      (.cons ⟨h₃, ?_, hs₃, hself₃⟩ ?_ .nil)⟩
    · rw [hv₁, hv₂]
      rfl
    · rw [hv₁, hv₂]
      rfl
    · rw [hv₂, hv₃]
      rfl
    · rw [hv₂, hv₃]
      rfl
  · cases heval

/-- A client of a root with a bound on the rotations. -/
def clientOf (root : Metadata Root) (rotations : UInt64) : Updater :=
  { trusted := ofRoot root, config := { maxRootRotations := rotations }, store := none }

def rotating (versions : List UInt64) : Repository :=
  repository (versions.map fun v => (s!"{v}.root.json", rootVersion v)) []

/-- A store with the second root. -/
def secondCached : MetadataStore :=
  MetadataStore.empty.store "root_history/2.root.json" (file (rootVersion 2))

end Sample

/-- One rotation, where one is allowed, is adopted, and then the refresh of the root fails. The
chain is adopted and stored, but the walk then asks for no further version, and ends without having
seen that there is none. -/
theorem rootChain_fails :
    ¬ ∀ (E : ClientEnv) (R : Repository) (u : Updater) (store : Option MetadataStore)
      (cached chain : List (Bytes × Metadata Root)),
      Successors E.toEnv u.trusted.root (cached ++ chain) →
      HasCached E.toEnv u.trusted.root cached store →
      ServesChain R u.config.rootMaxLength (lastRoot u.trusted.root cached) chain →
      AdoptsChain E R u store cached chain := by
  intro h
  obtain ⟨r₁, r₂, r₃, -, hv₁, hv₂, -, hchain⟩ := Sample.successors_rotating
  have hone := hchain.take 1
  have hserves : ServesChain (Sample.rotating [2]) 512000 r₁
      [(Sample.file (Sample.rootVersion 2), r₂)] := by
    refine ⟨fun p hp => ?_, ?_⟩
    · rw [List.mem_singleton.1 hp, hv₂]
      dsimp only
      decide +kernel
    · show (Sample.rotating [2]).fetchMetadata s!"{r₂.signed.version + 1}.root.json" 512000 = _
      rw [hv₂]
      decide +kernel
  have hadopts := h Sample.rotatingEnv (Sample.rotating [2]) (Sample.clientOf r₁ 1) none []
    [(Sample.file (Sample.rootVersion 2), r₂)] hone rfl hserves
  have hfits := (walksChain_iff (u := Sample.clientOf r₁ 1) hone hserves).1 hadopts.2
  have hversion : (Sample.clientOf r₁ 1).trusted.root.signed.version.toNat + 1 < 2 ^ 64 := by
    show r₁.signed.version.toNat + 1 < 2 ^ 64
    rw [hv₁]
    decide
  exact (hfits.1 hversion).1 rfl

/-- With the second root cached and the third one in the repository, both are adopted. The bound of
32 rotations is far from reached. -/
theorem rootChain_rotating :
    ∃ r₁ r₂ r₃ : Metadata Root, r₃.signed.version = 3 ∧
      AdoptsChain Sample.rotatingEnv (Sample.rotating [3]) (Sample.clientOf r₁ 32)
        (some Sample.secondCached) [(Sample.file (Sample.rootVersion 2), r₂)]
        [(Sample.file (Sample.rootVersion 3), r₃)] := by
  obtain ⟨r₁, r₂, r₃, -, hv₁, hv₂, hv₃, hchain⟩ := Sample.successors_rotating
  refine ⟨r₁, r₂, r₃, hv₃, ?_⟩
  have hcached : HasCached Sample.rotatingEnv.toEnv r₁
      [(Sample.file (Sample.rootVersion 2), r₂)] (some Sample.secondCached) := by
    refine ⟨fun p hp => ?_, fun bytes next hload => ?_⟩
    · rw [List.mem_singleton.1 hp, hv₂]
      dsimp only
      decide +kernel
    · have hnone : Sample.secondCached.load s!"root_history/{r₂.signed.version + 1}.root.json" =
          none := by
        rw [hv₂]
        decide +kernel
      cases hnone.symm.trans hload
  have hserves : ServesChain (Sample.rotating [3]) 512000 r₂
      [(Sample.file (Sample.rootVersion 3), r₃)] := by
    refine ⟨fun p hp => ?_, ?_⟩
    · rw [List.mem_singleton.1 hp, hv₃]
      dsimp only
      decide +kernel
    · show (Sample.rotating [3]).fetchMetadata s!"{r₃.signed.version + 1}.root.json" 512000 = _
      rw [hv₃]
      decide +kernel
  refine (rootChain_iff (u := Sample.clientOf r₁ 32) hchain hcached hserves).1.2 ?_
  show Fits Sample.rotatingEnv.toEnv r₂.signed.version 32 1
  rw [hv₂]
  exact ⟨fun _ => by decide, fun h => absurd h (by decide)⟩

end Sigstore.Tuf
