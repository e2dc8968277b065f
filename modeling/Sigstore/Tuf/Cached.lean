import Sigstore.Tuf.Bootstrap
import Sigstore.Tuf.Lookup

/-!
# What a run leaves in the store

A run that starts with an empty store writes root files, and then the files of what it trusts, each
under a name that tells what it is (`Caches`). The refresh establishes this, and a lookup keeps it.
A stored metadata file cannot pass for one of another role, since it names its role.
-/

namespace Sigstore.Tuf

open Checks StateAction TrustedMetadataSet

/-! ## A file names its role -/

/-- The type that a payload names. -/
def namedType (signed : Json) : Option String := (signed.get "_type").bind Json.asStr

/-- The type that a payload is read with is the one that it names. The typed reader and `namedType`
look at the same member, the one that `lookup` finds first. -/
theorem namedType_of_field {members : List (String × Json)} {t : String}
    (h : Json.field members "_type" Json.deString = .ok t) :
    namedType (.object members) = some t := by
  unfold Json.field at h
  rw [namedType, Json.get]
  cases hlookup : members.lookup "_type" with
  | none =>
    rw [hlookup] at h
    cases h
  | some v =>
    rw [hlookup] at h
    cases v with
    | string s => exact congrArg some (Except.ok.inj h)
    | _ => cases h

/-- A payload that is read as targets names a type. -/
theorem namedType_of_targets {v : Json} {t : Targets} (h : Targets.de v = .ok t) :
    namedType v = some t.type_ := by
  cases v with
  | object members =>
    simp only [Targets.de, Json.deStruct, bind_eq_ok, pure_eq_ok] at h
    obtain ⟨type, htype, _, -, _, -, _, -, _, -, _, -, rfl⟩ := h
    exact namedType_of_field htype
  | _ => cases h

/-- A payload that is read as a snapshot names a type. -/
theorem namedType_of_snapshot {v : Json} {t : Snapshot} (h : Snapshot.de v = .ok t) :
    namedType v = some t.type_ := by
  cases v with
  | object members =>
    simp only [Snapshot.de, Json.deStruct, bind_eq_ok, pure_eq_ok] at h
    obtain ⟨type, htype, _, -, _, -, _, -, _, -, rfl⟩ := h
    exact namedType_of_field htype
  | _ => cases h

section
variable {E : Env} {bytes : Bytes} {T T' : Type} [Role T] [Role T']

/-- A file of one role, which must name its type, is not one of another role. Two readings of the
same bytes see one JSON value, whose `_type` member cannot be both names. -/
theorem fromSlice_excludes
    (htyped : ∀ v (t : T), Role.de v = .ok t → (namedType v).isSome) {m : Metadata T}
    (h : Metadata.fromSlice E bytes = .ok m) (hne : Role.typeName T ≠ Role.typeName T')
    (m' : Metadata T') : Metadata.fromSlice E bytes ≠ .ok m' := by
  intro h'
  simp only [Metadata.fromSlice, bind_eq_ok, okOr_eq_ok, whenSome_eq_ok, rejectIf_eq_ok, not_not,
    mapError_eq_ok] at h h'
  obtain ⟨value, hparse, members, hobject, signed, hsigned, _, -, _, htype, _, -, _, -, _, -, t, ht,
    -⟩ := h
  obtain ⟨value', hparse', members', hobject', signed', hsigned', _, -, _, htype', -⟩ := h'
  cases hparse.symm.trans hparse'
  cases hobject.symm.trans hobject'
  cases hsigned.symm.trans hsigned'
  obtain ⟨name, hname⟩ := Option.isSome_iff_exists.1 (htyped signed t ht)
  exact hne ((htype name hname).symm.trans (htype' name hname))

/-- A targets file is not one of another role. -/
theorem targets_excludes {m : Metadata Targets} (h : Metadata.fromSlice E bytes = .ok m)
    (hne : "targets" ≠ Role.typeName T') (m' : Metadata T') :
    Metadata.fromSlice E bytes ≠ .ok m' :=
  fromSlice_excludes (fun _ _ ht => Option.isSome_iff_exists.2 ⟨_, namedType_of_targets ht⟩) h hne
    m'

/-- A snapshot is not a file of another role. -/
theorem snapshot_excludes {m : Metadata Snapshot} (h : Metadata.fromSlice E bytes = .ok m)
    (hne : "snapshot" ≠ Role.typeName T') (m' : Metadata T') :
    Metadata.fromSlice E bytes ≠ .ok m' :=
  fromSlice_excludes (fun _ _ ht => Option.isSome_iff_exists.2 ⟨_, namedType_of_snapshot ht⟩) h hne
    m'

end

/-! ## Stored metadata -/

/-- The name under which the file of a targets role is stored. -/
def roleFileName (role : String) : String := s!"{encodeRole role}.json"

/-- Different roles have different files. -/
theorem roleFileName_injective : Function.Injective roleFileName := fun _ _ h =>
  encodeRole_injective ((String.append_left_inj ".json").1 h)

/-- A role of the trusted targets: the top-level one or a delegated one. -/
def IsTargetsRole (role : String) : Prop := role = "targets" ∨ isTopLevelRole role = false

/-- The name of a stored metadata file tells what it is: a root file, or a file of what is trusted.
-/
inductive CachedAs (E : Env) (config : UpdaterConfig) (s : TrustedMetadataSet) :
    String → Bytes → Prop where
  | root {name : String} {bytes : Bytes} (file : RootFile name) : CachedAs E config s name bytes
  | timestamp {bytes : Bytes} {ts : Metadata Timestamp} (trusted : s.timestamp = some ts)
    (parsed : Metadata.fromSlice E bytes = .ok ts)
    (bounded : ¬ UInt64.ofNat bytes.length > config.timestampMaxLength) :
    CachedAs E config s "timestamp.json" bytes
  | snapshot {name : String} {bytes : Bytes} {ts : Metadata Timestamp} {snap : Metadata Snapshot}
    (file : SnapshotFile name) (timestamp : s.timestamp = some ts)
    (trusted : s.snapshot = some snap) (pinned : PinsSnapshot E ts.signed bytes snap)
    (bounded : ¬ UInt64.ofNat bytes.length > config.snapshotMaxLength) :
    CachedAs E config s name bytes
  | targets {role : String} {bytes : Bytes} {snap : Metadata Snapshot} {m : Metadata Targets}
    (isRole : IsTargetsRole role) (snapshot : s.snapshot = some snap)
    (trusted : s.targets.get? role = some m) (pinned : PinsTargets E snap.signed role bytes m)
    (bounded : ¬ UInt64.ofNat bytes.length > config.targetsMaxLength) :
    CachedAs E config s (roleFileName role) bytes

/-- Every stored file is what its name tells. -/
def Caches (E : Env) (u : Updater) : Prop :=
  ∀ name bytes, u.stored name = some bytes → CachedAs E u.config u.trusted name bytes

/-- A file of the targets or of a delegated role is not one of the root's. -/
theorem not_rootFile_roleFileName {role : String} (h : IsTargetsRole role) :
    ¬ RootFile (roleFileName role) := by
  rintro (hname | ⟨v, hname⟩)
  · cases roleFileName_injective (show _ = roleFileName "root" from hname)
    exact absurd h (by unfold IsTargetsRole; decide)
  · refine slash_not_mem_encodeRole role ?_
    have hslash : '/' ∈ (roleFileName role).toList := by
      rw [hname, String.toList_append, String.toList_append]
      exact List.mem_append_left _ (List.mem_append_left _ (by decide))
    rw [roleFileName, String.toList_append] at hslash
    exact (List.mem_append.1 hslash).resolve_right (by decide)

section
variable {E : Env} {config : UpdaterConfig} {s : TrustedMetadataSet} {bytes : Bytes}

/-- What is stored as the timestamp is the trusted one. The other kinds of cached files have other
names, which settles every other case by the name alone. -/
theorem CachedAs.of_timestamp (h : CachedAs E config s "timestamp.json" bytes) :
    ∃ ts, s.timestamp = some ts ∧ Metadata.fromSlice E bytes = .ok ts ∧
      ¬ UInt64.ofNat bytes.length > config.timestampMaxLength := by
  generalize hname : "timestamp.json" = name at h
  cases h with
  | root file =>
    subst hname
    exact absurd file (SeedFile.not_rootFile (.inl rfl))
  | timestamp trusted parsed bounded => exact ⟨_, trusted, parsed, bounded⟩
  | snapshot file =>
    subst hname
    exact absurd file not_snapshotFile_timestamp
  | targets isRole =>
    cases roleFileName_injective (show roleFileName "timestamp" = _ from hname)
    exact absurd isRole (by unfold IsTargetsRole; decide)

/-- What is stored as the snapshot is the trusted one. The timestamp is part of the conclusion, as
it is the timestamp's pin that the stored bytes were checked against. -/
theorem CachedAs.of_snapshot (h : CachedAs E config s "snapshot.json" bytes) :
    ∃ ts snap, s.timestamp = some ts ∧ s.snapshot = some snap ∧
      PinsSnapshot E ts.signed bytes snap ∧
      ¬ UInt64.ofNat bytes.length > config.snapshotMaxLength := by
  generalize hname : "snapshot.json" = name at h
  cases h with
  | root file =>
    subst hname
    exact absurd file (SeedFile.not_rootFile (.inr (.inl rfl)))
  | timestamp => exact absurd hname (by decide)
  | snapshot file timestamp trusted pinned bounded =>
    exact ⟨_, _, timestamp, trusted, pinned, bounded⟩
  | targets isRole =>
    cases roleFileName_injective (show roleFileName "snapshot" = _ from hname)
    exact absurd isRole (by unfold IsTargetsRole; decide)

/-- What is stored under the name of a role is the trusted role's file, unless it is a snapshot. A
role can be named `snapshot`, and then its file and the snapshot's share a name; this is the first
alternative. -/
theorem CachedAs.of_role {role : String} (hrole : IsTargetsRole role)
    (h : CachedAs E config s (roleFileName role) bytes) :
    (∃ m : Metadata Snapshot, Metadata.fromSlice E bytes = .ok m) ∨
    ∃ snap m, s.snapshot = some snap ∧ s.targets.get? role = some m ∧
      PinsTargets E snap.signed role bytes m ∧
      ¬ UInt64.ofNat bytes.length > config.targetsMaxLength := by
  generalize hname : roleFileName role = name at h
  cases h with
  | root file =>
    subst hname
    exact absurd file (not_rootFile_roleFileName hrole)
  | timestamp =>
    cases roleFileName_injective (show _ = roleFileName "timestamp" from hname)
    exact absurd hrole (by unfold IsTargetsRole; decide)
  | snapshot file timestamp trusted pinned => exact .inl ⟨_, pinned.parsed⟩
  | targets isRole snapshot trusted pinned bounded =>
    cases roleFileName_injective hname
    exact .inr ⟨_, _, snapshot, trusted, pinned, bounded⟩

/-- What is stored under the name that the next root has in a repository is no root. That name
begins with a digit, as only the names of versioned snapshots and of roles can, and neither a
snapshot nor a role's file is a root. -/
theorem CachedAs.not_nextRoot {v : UInt64} (h : CachedAs E config s s!"{v}.root.json" bytes)
    (m : Metadata Root) : Metadata.fromSlice E bytes ≠ .ok m := by
  have hdigit : ∀ {name : String} {c : Char}, c.isDigit = false → name.toList.head? = some c →
      s!"{v}.root.json" ≠ name := fun hc hname => versioned_ne hc hname
  generalize hname : s!"{v}.root.json" = name at h
  cases h with
  | root file =>
    rcases file with rfl | ⟨w, rfl⟩
    · exact absurd hname (hdigit (c := 'r') (by decide) (by decide))
    · exact absurd hname (hdigit (c := 'r') (by decide) (head_rootHistory w))
  | timestamp => exact absurd hname (hdigit (c := 't') (by decide) (by decide))
  | snapshot file timestamp trusted pinned =>
    exact snapshot_excludes pinned.parsed (by decide) m
  | targets isRole snapshot trusted pinned => exact targets_excludes pinned.parsed (by decide) m

/-- A target is not stored as metadata. -/
theorem CachedAs.not_target {path : String} :
    ¬ CachedAs E config s s!"targets/{path}" bytes := by
  intro h
  generalize hname : s!"targets/{path}" = name at h
  refine ne_target ?_ path hname.symm
  cases h with
  | root file => exact .inl file
  | timestamp => exact .inr (.inl rfl)
  | snapshot file => exact .inr (.inr (.inl file))
  | targets => exact .inr (.inr (.inr (.inr ⟨_, rfl⟩)))

/-- Trusting more targets keeps what is stored as it is. What a name tells is checked against the
timestamp, the snapshot and the trusted targets, so that these are all that has to stay. -/
theorem CachedAs.mono {s' : TrustedMetadataSet} {name : String}
    (h : CachedAs E config s name bytes) (hts : s'.timestamp = s.timestamp)
    (hsnap : s'.snapshot = s.snapshot)
    (hkeeps : ∀ role m, s.targets.get? role = some m → s'.targets.get? role = some m) :
    CachedAs E config s' name bytes := by
  cases h with
  | root file => exact .root file
  | timestamp trusted parsed bounded => exact .timestamp (hts.trans trusted) parsed bounded
  | snapshot file timestamp trusted pinned bounded =>
    exact .snapshot file (hts.trans timestamp) (hsnap.trans trusted) pinned bounded
  | targets isRole snapshot trusted pinned bounded =>
    exact .targets isRole (hsnap.trans snapshot) (hkeeps _ _ trusted) pinned bounded

end

/-! ## What a refresh and a lookup store -/

section
variable {E : ClientEnv} {R : Repository}

/-- A chain that a bounded repository has is stored with the root files that are there. The three
files are written one after the other, each over what was there; every other name still has a root
file. -/
theorem TopLevel.caches_accept {T : TopLevel E.toEnv} {u : Updater} (hR : R.Bounded)
    (hserved : T.ServedBy R u.config u.trusted.root.signed.consistentSnapshot)
    (hroots : ∀ name bytes, u.stored name = some bytes → RootFile name) :
    Caches E.toEnv (T.accept u) := by
  intro name bytes hstored
  have hsnapshot : ∀ name, SnapshotFile name →
      CachedAs E.toEnv u.config (T.accept u).trusted name T.snapshotBytes := fun name hname =>
    .snapshot hname rfl rfl T.pinsSnapshot (hR.metadata _ _ _ hserved.snapshot)
  obtain ⟨store, hstore, hload⟩ := Option.bind_eq_some_iff.1 hstored
  obtain ⟨store₀, hstore₀, rfl⟩ := Option.map_eq_some_iff.1 hstore
  rcases MetadataStore.load_store_some hload with hload | ⟨rfl, rfl⟩
  · rcases MetadataStore.load_store_some hload with hload | ⟨rfl, rfl⟩
    · rcases MetadataStore.load_store_some hload with hload | ⟨rfl, rfl⟩
      · rcases MetadataStore.load_store_some hload with hload | ⟨rfl, rfl⟩
        · refine .root (hroots name bytes ?_)
          rw [Updater.stored, hstore₀]
          exact hload
        · exact .timestamp rfl T.parsed (hR.metadata _ _ _ hserved.timestamp)
      · refine hsnapshot _ ?_
        unfold snapshotFileName
        split
        · exact .inr ⟨_, rfl⟩
        · exact .inl rfl
    · exact hsnapshot _ (.inl rfl)
  · have htargets : (T.accept u).trusted.targets.get? "targets" = some T.targets :=
      BTreeMap.get?_insert_self _ _ _
    exact .targets (.inl rfl) rfl htargets T.pinsTargets (hR.metadata _ _ _ hserved.targets)

/-- The later updater trusts the same timestamp, and what its store holds is what the names tell. -/
structure KeepsCache (E : Env) (u v : Updater) : Prop where
  timestamp : v.trusted.timestamp = u.trusted.timestamp
  caches : Caches E u → Caches E v

theorem KeepsCache.refl (u : Updater) : KeepsCache E.toEnv u u := ⟨rfl, id⟩

/-- Keeping the cache twice keeps it, so the steps of an action can be taken one by one. -/
theorem KeepsCache.trans (u v w : Updater) (huv : KeepsCache E.toEnv u v)
    (hvw : KeepsCache E.toEnv v w) : KeepsCache E.toEnv u w :=
  ⟨hvw.timestamp.trans huv.timestamp, fun hu => hvw.caches (huv.caches hu)⟩

/-- A role that is loaded is stored under its name. The file has the pin of the snapshot that is
trusted, and the new role was not trusted, so that nothing that is stored for another role changes
its meaning. -/
theorem keepsCache_withRole {u : Updater} {role delegator : String} {now : Int}
    {m : Metadata Targets} {bytes : Bytes} (hR : R.Bounded)
    (hunknown : u.trusted.targets.get? role = none)
    (hfetch : Returns (fetchTargetsMetadata R role) u bytes u)
    (hcheck : checkDelegatedTargets E.toEnv u.trusted bytes role delegator now = .ok m) :
    KeepsCache E.toEnv u (u.withRole role m bytes) := by
  refine ⟨rfl, fun hu name found hstored => ?_⟩
  obtain ⟨⟨pin, hpin, hserved⟩, -⟩ := (returns_fetchTargetsMetadata R).1 hfetch
  obtain ⟨snap, hsnap, -⟩ := Option.bind_eq_some_iff.1 hpin
  obtain ⟨hrole, hpins, -⟩ := (checkDelegatedTargets_eq_ok hsnap).1 hcheck
  obtain ⟨store, hstore, hload⟩ := Option.bind_eq_some_iff.1 hstored
  obtain ⟨store₀, hstore₀, rfl⟩ := Option.map_eq_some_iff.1 hstore
  rcases MetadataStore.load_store_some hload with hload | ⟨rfl, rfl⟩
  · have hbefore : CachedAs E.toEnv u.config u.trusted name found := by
      refine hu name found ?_
      rw [Updater.stored, hstore₀]
      exact hload
    exact hbefore.mono rfl rfl (loads_withRole hunknown hfetch hcheck).keeps
  · exact .targets (.inr hrole) hsnap (BTreeMap.get?_insert_self _ _ _) hpins
      (hR.metadata _ _ _ hserved)

/-- A visit keeps what is stored as its names tell. A role that is known already is not written, and
one that is not is written by `loadRole` once it is accepted. -/
theorem keepsCache_visit (hR : R.Bounded) (role delegator : String) (now : Int) (u : Updater) :
    KeepsCache E.toEnv u (visit E R role delegator now u).2 := by
  unfold visit
  split
  · exact .refl u
  · next hunknown =>
    rw [Known, not_or, Option.not_isSome_iff_eq_none] at hunknown
    rw [loadRole_eq]
    cases hfetch : (fetchTargetsMetadata R role u).1 with
    | error e => exact .refl u
    | ok bytes =>
      dsimp only
      cases hcheck : checkDelegatedTargets E.toEnv u.trusted bytes role delegator now with
      | error e => exact .refl u
      | ok m =>
        refine keepsCache_withRole hR hunknown.2 ?_ hcheck
        rw [Returns, fetchTargetsMetadata_eq (R := R) role (u := u) rfl rfl rfl, hfetch]

/-- A lookup keeps the cache: what it stores are targets files under the names of their roles. -/
theorem keepsCache_getTargetinfo (hR : R.Bounded) (targetPath : String) (now : Int) (u : Updater) :
    KeepsCache E.toEnv u (getTargetinfo E R targetPath now u).2 := by
  cases htop : u.trusted.targets.get? "targets" with
  | none =>
    rw [getTargetinfo_none targetPath now htop]
    exact .refl u
  | some top =>
    rw [getTargetinfo_eq targetPath now htop]
    exact search_related .refl .trans (fun role delegator => keepsCache_visit hR role delegator now)
      _ _ _ _ htop

/-- A download of a target that is not stored yet. A store that refuses the file does not fail the
download, and the trusted set does not change. -/
theorem downloadTarget_returns {target : TargetFile} {targetPath : String} {u u' : Updater}
    {bytes : Bytes} :
    Returns (downloadTarget E R target targetPath) u bytes u' ↔
      ¬ target.length > u.config.targetMaxLength ∧
      (∃ path, targetLocation u.trusted.root.signed.consistentSnapshot target targetPath =
        .ok path ∧ R.fetchTarget path target.length = .ok (some bytes)) ∧
      verifyTargetBytes E bytes target targetPath = .ok () ∧
      u' = { u with store := u.store.map (·.store s!"targets/{targetPath}" bytes) } := by
  simp only [downloadTarget, returns_bind, returns_gets, returns_check, returns_orThrow,
    returns_cachePut, returns_pure, rejectIf_eq_ok]
  constructor
  · rintro ⟨_, _, ⟨rfl, rfl⟩, _, _, ⟨hlength, rfl⟩, path, _, ⟨hpath, rfl⟩, _, _, ⟨hfetch, rfl⟩, _,
      _, ⟨rfl, rfl⟩, _, _, ⟨hverified, rfl⟩, _, _, rfl, rfl, rfl⟩
    exact ⟨hlength, ⟨path, hpath, hfetch⟩, hverified, rfl⟩
  · rintro ⟨hlength, ⟨path, hpath, hfetch⟩, hverified, rfl⟩
    exact ⟨_, _, ⟨rfl, rfl⟩, (), _, ⟨hlength, rfl⟩, path, _, ⟨hpath, rfl⟩, _, _, ⟨hfetch, rfl⟩, _,
      _, ⟨rfl, rfl⟩, (), _, ⟨hverified, rfl⟩, (), _, rfl, rfl, rfl⟩

/-- A target that is not stored is downloaded after it has been resolved. The hypothesis is about
the updater after the lookup, as this is the one whose store is asked. -/
theorem getTarget_returns {targetPath : String} {now : Int} {u u' : Updater} {bytes : Bytes}
    (hmiss : ∀ target w, Returns (getTargetinfo E R targetPath now) u target w →
      w.stored s!"targets/{targetPath}" = none) :
    Returns (getTarget E R targetPath now) u bytes u' ↔ ∃ target w,
      Returns (getTargetinfo E R targetPath now) u (some target) w ∧
      Returns (downloadTarget E R target targetPath) w bytes u' := by
  have hnone : ∀ {target w}, w.stored s!"targets/{targetPath}" = none →
      findCachedTarget E target targetPath w = (.ok none, w) := by
    intro target w hw
    have hload : loadCached s!"targets/{targetPath}" w = (.ok none, w) :=
      congrArg (fun o => (Except.ok o, w)) hw
    rw [findCachedTarget, bind_of_ok hload]
    rfl
  simp only [getTarget, returns_bind, returns_orThrow]
  constructor
  · rintro ⟨_, w, hinfo, target, _, ⟨rfl, rfl⟩, cached, w', hcached, h⟩
    obtain ⟨rfl, rfl⟩ := Returns.unique hcached (hnone (hmiss _ _ hinfo))
    exact ⟨target, w', hinfo, h⟩
  · rintro ⟨target, w, hinfo, h⟩
    exact ⟨some target, w, hinfo, target, w, ⟨rfl, rfl⟩, none, w, hnone (hmiss _ _ hinfo), h⟩

end

end Sigstore.Tuf
