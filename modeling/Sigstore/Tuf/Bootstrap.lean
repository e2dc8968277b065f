import Sigstore.Tuf.Seeding

/-!
# A refresh from a root alone

A client that trusts a root only, and has no cached metadata, takes a timestamp, a snapshot and
top-level targets from the repository. They form a chain (`TopLevel`), in which each file pins the
next one whatever the root and the clock are. A refresh succeeds exactly where the repository has
such a chain, the root's keys have signed it and it has not expired (`refresh_returns`).
-/

namespace Sigstore.Tuf

open Checks StateAction TrustedMetadataSet

/-! ## What the checks are about -/

section
variable (E : Env)

/-- A snapshot file that a timestamp pins. -/
def PinsSnapshot (ts : Timestamp) (bytes : Bytes) (m : Metadata Snapshot) : Prop :=
  ∃ pin, ts.snapshotMeta = some pin ∧ checkIntegrity E bytes pin "snapshot.json" = .ok () ∧
    Metadata.fromSlice E bytes = .ok m ∧ m.signed.version = pin.version

/-- A targets file that a snapshot pins for a role. -/
def PinsTargets (snap : Snapshot) (role : String) (bytes : Bytes) (m : Metadata Targets) : Prop :=
  ∃ pin, snap.metas.get? (role ++ ".json") = some pin ∧
    checkIntegrity E bytes pin (role ++ ".json") = .ok () ∧
    Metadata.fromSlice E bytes = .ok m ∧ m.signed.version = pin.version

variable {E} {s : TrustedMetadataSet} {bytes : Bytes} {now : Int}

/-- A pinned snapshot is the one that its bytes are parsed as. -/
theorem PinsSnapshot.parsed {ts : Timestamp} {m : Metadata Snapshot}
    (h : PinsSnapshot E ts bytes m) : Metadata.fromSlice E bytes = .ok m := by
  obtain ⟨pin, -, -, hparse, -⟩ := h
  exact hparse

/-- A pinned targets file is the one that its bytes are parsed as. -/
theorem PinsTargets.parsed {snap : Snapshot} {role : String} {m : Metadata Targets}
    (h : PinsTargets E snap role bytes m) : Metadata.fromSlice E bytes = .ok m := by
  obtain ⟨pin, -, -, hparse, -⟩ := h
  exact hparse

/-- The first timestamp is not compared with another one. -/
theorem checkTimestamp_first (hs : s.timestamp = none) {m : Metadata Timestamp} :
    checkTimestamp E s bytes now = .ok m ↔ Metadata.fromSlice E bytes = .ok m ∧
      verifyWithRoot E m s.root.signed "timestamp" = .ok () ∧ NotExpired E m.signed now := by
  simp only [checkTimestamp, bind_eq_ok, whenSome_eq_ok, pure_eq_ok, ensureNotExpired_ok, hs]
  constructor
  · rintro ⟨m, hparse, _, hsigned, _, -, _, hfresh, rfl⟩
    exact ⟨hparse, hsigned, hfresh⟩
  · rintro ⟨hparse, hsigned, hfresh⟩
    exact ⟨m, hparse, (), hsigned, (), (fun _ h => by cases h), (), hfresh, rfl⟩

/-- The first snapshot is compared with the timestamp only. There is no other snapshot whose pins
could be rolled back. -/
theorem checkSnapshot_first {ts : Metadata Timestamp} (hts : s.timestamp = some ts)
    (hs : s.snapshot = none) {m : Metadata Snapshot} :
    checkSnapshot E s bytes now = .ok m ↔ PinsSnapshot E ts.signed bytes m ∧
      verifyWithRoot E m s.root.signed "snapshot" = .ok () ∧ NotExpired E ts.signed now ∧
      NotExpired E m.signed now := by
  simp only [checkSnapshot, bind_eq_ok, okOr_eq_ok, rejectIf_eq_ok, whenSome_eq_ok, pure_eq_ok,
    ensureNotExpired_ok, not_not, hts, hs, Option.some.injEq, PinsSnapshot]
  constructor
  · rintro ⟨_, rfl, _, htsfresh, pin, hpin, _, hintegrity, m, hparse, _, hsigned, _, hversion, _, -,
      _, hfresh, rfl⟩
    exact ⟨⟨pin, hpin, hintegrity, hparse, hversion⟩, hsigned, htsfresh, hfresh⟩
  · rintro ⟨⟨pin, hpin, hintegrity, hparse, hversion⟩, hsigned, htsfresh, hfresh⟩
    exact ⟨ts, rfl, (), htsfresh, pin, hpin, (), hintegrity, m, hparse, (), hsigned, (), hversion,
      (), (fun _ h => by cases h), (), hfresh, rfl⟩

section
variable {snap : Metadata Snapshot} (hsnap : s.snapshot = some snap) {m : Metadata Targets}
include hsnap

/-- `verify_targets_pin` accepts exactly what an unexpired snapshot pins. -/
theorem verifyTargetsPin_eq_ok {role : String} :
    verifyTargetsPin E s bytes role now = .ok m ↔
      PinsTargets E snap.signed role bytes m ∧ NotExpired E snap.signed now := by
  simp only [verifyTargetsPin, bind_eq_ok, okOr_eq_ok, rejectIf_eq_ok, pure_eq_ok,
    ensureNotExpired_ok, not_not, hsnap, Option.some.injEq, PinsTargets]
  constructor
  · rintro ⟨_, rfl, _, hfresh, pin, hpin, _, hintegrity, m, hparse, _, hversion, rfl⟩
    exact ⟨⟨pin, hpin, hintegrity, hparse, hversion⟩, hfresh⟩
  · rintro ⟨⟨pin, hpin, hintegrity, hparse, hversion⟩, hfresh⟩
    exact ⟨snap, rfl, (), hfresh, pin, hpin, (), hintegrity, m, hparse, (), hversion, rfl⟩

/-- `check_targets` accepts exactly what the snapshot pins and the root has signed, while neither
the snapshot nor the targets are expired. -/
theorem checkTargets_eq_ok :
    checkTargets E s bytes now = .ok m ↔ PinsTargets E snap.signed "targets" bytes m ∧
      verifyWithRoot E m s.root.signed "targets" = .ok () ∧ NotExpired E snap.signed now ∧
      NotExpired E m.signed now := by
  simp only [checkTargets, bind_eq_ok, pure_eq_ok, ensureNotExpired_ok,
    verifyTargetsPin_eq_ok hsnap]
  constructor
  · rintro ⟨m, ⟨hpins, hsnapfresh⟩, _, hsigned, _, hfresh, rfl⟩
    exact ⟨hpins, hsigned, hsnapfresh, hfresh⟩
  · rintro ⟨hpins, hsigned, hsnapfresh, hfresh⟩
    exact ⟨m, ⟨hpins, hsnapfresh⟩, (), hsigned, (), hfresh, rfl⟩

/-- `check_delegated_targets` accepts exactly what the snapshot pins and the delegator's entry has
signed, under a name that is not that of a top-level role, while neither is expired. -/
theorem checkDelegatedTargets_eq_ok {role delegator : String} :
    checkDelegatedTargets E s bytes role delegator now = .ok m ↔
      isTopLevelRole role = false ∧ PinsTargets E snap.signed role bytes m ∧
      (∃ keys roleKeys, delegationAuthority s delegator role = .ok (keys, roleKeys) ∧
        m.verifyThreshold E.primitives keys roleKeys role = .ok ()) ∧
      NotExpired E snap.signed now ∧ NotExpired E m.signed now := by
  simp only [checkDelegatedTargets, bind_eq_ok, rejectIf_eq_ok, pure_eq_ok, ensureNotExpired_ok,
    verifyTargetsPin_eq_ok hsnap, Bool.not_eq_true]
  constructor
  · rintro ⟨_, hrole, ⟨keys, roleKeys⟩, hauthority, m, ⟨hpins, hsnapfresh⟩, _, hsigned, _, hfresh,
      rfl⟩
    exact ⟨hrole, hpins, ⟨keys, roleKeys, hauthority, hsigned⟩, hsnapfresh, hfresh⟩
  · rintro ⟨hrole, hpins, ⟨keys, roleKeys, hauthority, hsigned⟩, hsnapfresh, hfresh⟩
    exact ⟨(), hrole, (keys, roleKeys), hauthority, m, ⟨hpins, hsnapfresh⟩, (), hsigned, (), hfresh,
      rfl⟩

end

end

/-! ## Chains -/

/-- The name under which the repository has the snapshot. -/
def snapshotFileName (consistent : Bool) (version : UInt64) : String :=
  if consistent then s!"{version}.snapshot.json" else "snapshot.json"

/-- A timestamp, the snapshot that it pins, and the top-level targets that this pins. -/
structure TopLevel (E : Env) where
  timestampBytes : Bytes
  timestamp : Metadata Timestamp
  snapshotBytes : Bytes
  snapshot : Metadata Snapshot
  targetsBytes : Bytes
  targets : Metadata Targets
  parsed : Metadata.fromSlice E timestampBytes = .ok timestamp
  pinsSnapshot : PinsSnapshot E timestamp.signed snapshotBytes snapshot
  pinsTargets : PinsTargets E snapshot.signed "targets" targetsBytes targets

namespace TopLevel

section
variable {E : Env} (T : TopLevel E)

/-- The roles of a root have signed the chain. -/
structure SignedUnder (root : Root) : Prop where
  timestamp : verifyWithRoot E T.timestamp root "timestamp" = .ok ()
  snapshot : verifyWithRoot E T.snapshot root "snapshot" = .ok ()
  targets : verifyWithRoot E T.targets root "targets" = .ok ()

/-- Nothing in the chain has expired. -/
structure Unexpired (now : Int) : Prop where
  timestamp : NotExpired E T.timestamp.signed now
  snapshot : NotExpired E T.snapshot.signed now
  targets : NotExpired E T.targets.signed now

/-- The repository has the files of the chain. -/
structure ServedBy (R : Repository) (config : UpdaterConfig) (consistent : Bool) : Prop where
  timestamp : R.fetchMetadata "timestamp.json" config.timestampMaxLength =
    .ok (some T.timestampBytes)
  snapshot : R.fetchMetadata (snapshotFileName consistent T.snapshot.signed.version)
    config.snapshotMaxLength = .ok (some T.snapshotBytes)
  targets : R.fetchMetadata (targetsFileName consistent T.targets.signed.version "targets")
    config.targetsMaxLength = .ok (some T.targetsBytes)

/-- What is trusted after a refresh that accepts the chain. -/
def trusted (root : Metadata Root) : TrustedMetadataSet :=
  { root := root, timestamp := some T.timestamp, snapshot := some T.snapshot
    targets := BTreeMap.empty.insert "targets" T.targets }

/-- What is stored by a refresh that accepts the chain. -/
def storeIn (consistent : Bool) (store : MetadataStore) : MetadataStore :=
  (((store.store "timestamp.json" T.timestampBytes).store
    (snapshotFileName consistent T.snapshot.signed.version) T.snapshotBytes).store
      "snapshot.json" T.snapshotBytes).store "targets.json" T.targetsBytes

/-- The updater after a refresh that accepts the chain. -/
def accept (u : Updater) : Updater :=
  { u with
    trusted := T.trusted u.trusted.root
    store := u.store.map (T.storeIn u.trusted.root.signed.consistentSnapshot) }

end

end TopLevel

/-! ## The stages -/

section
variable {E : ClientEnv} {R : Repository} {now : Int} {u u' : Updater}

/-- The timestamp stage accepts the repository's timestamp, or keeps the trusted one of the same
version. -/
theorem refreshTimestamp_returns :
    Returns (refreshTimestamp E R now) u () u' ↔ ∃ bytes,
      R.fetchMetadata "timestamp.json" u.config.timestampMaxLength = .ok (some bytes) ∧
      ((∃ m, checkTimestamp E.toEnv u.trusted bytes now = .ok m ∧
        u' = { u with trusted := { u.trusted with timestamp := some m }
                      store := u.store.map (·.store "timestamp.json" bytes) }) ∨
      (∃ name version, checkTimestamp E.toEnv u.trusted bytes now =
        .error (.equalVersion name version) ∧ u' = u)) := by
  simp only [refreshTimestamp, returns_bind, returns_gets, returns_fetchRequired]
  constructor
  · rintro ⟨_, _, ⟨rfl, rfl⟩, bytes, _, ⟨hfetch, rfl⟩, outcome, r, houtcome, h⟩
    refine ⟨bytes, hfetch, ?_⟩
    obtain ⟨hresult, hr⟩ := returns_attempt.1 houtcome
    cases hcheck : checkTimestamp E.toEnv u.trusted bytes now with
    | ok m =>
      rw [updateTimestamp_eq_ok hcheck] at hresult hr
      cases outcome with
      | error e => cases hresult
      | ok a =>
        subst hr
        exact .inl ⟨m, rfl, (returns_cachePut.1 h).symm⟩
    | error e =>
      rw [updateTimestamp, hcheck] at hresult hr
      cases outcome with
      | ok a => cases hresult
      | error e' =>
        cases hresult
        subst hr
        cases e with
        | equalVersion name version => exact .inr ⟨name, version, rfl, (returns_pure.1 h).2.symm⟩
        | _ => exact absurd h returns_throw
  · rintro ⟨bytes, hfetch, hcases⟩
    refine ⟨_, _, ⟨rfl, rfl⟩, bytes, _, ⟨hfetch, rfl⟩, ?_⟩
    rcases hcases with ⟨m, hcheck, rfl⟩ | ⟨name, version, hcheck, rfl⟩
    · exact ⟨.ok (), _, attempt_ok (updateTimestamp_eq_ok hcheck), rfl⟩
    · have hupdate : updateTimestamp E.toEnv u'.trusted bytes now =
          (.error (.error (.equalVersion name version)), u'.trusted) := by
        rw [updateTimestamp, hcheck]
      exact ⟨_, _, attempt_error hupdate, rfl⟩

/-- The snapshot stage accepts the repository's snapshot, where none is trusted. It is fetched under
the version that the timestamp pins, and stored under that name and as `snapshot.json`. -/
theorem refreshSnapshot_first (hu : u.trusted.snapshot = none) :
    Returns (refreshSnapshot E R now) u () u' ↔ ∃ pin bytes m,
      u.trusted.timestamp.bind (·.signed.snapshotMeta) = some pin ∧
      u.trusted.checkTimestampExpired E.toEnv now = .ok () ∧
      R.fetchMetadata (snapshotFileName u.trusted.root.signed.consistentSnapshot pin.version)
        u.config.snapshotMaxLength = .ok (some bytes) ∧
      checkSnapshot E.toEnv u.trusted bytes now = .ok m ∧
      u' = { u with
        trusted := { u.trusted with snapshot := some m, targets := BTreeMap.empty }
        store := u.store.map fun store =>
          (store.store (snapshotFileName u.trusted.root.signed.consistentSnapshot pin.version)
            bytes).store "snapshot.json" bytes } := by
  simp only [refreshSnapshot, returns_bind, returns_gets, returns_orThrow, returns_check]
  constructor
  · rintro ⟨_, _, ⟨rfl, rfl⟩, _, _, ⟨rfl, rfl⟩, pin, _, ⟨hpin, rfl⟩, _, _, ⟨hts, rfl⟩, reuse, _,
      ⟨hreuse, rfl⟩, h⟩
    rw [hu] at hreuse
    cases hreuse
    rw [if_neg Bool.false_ne_true] at h
    simp only [returns_bind, returns_fetchRequired, returns_update, returns_cachePut] at h
    obtain ⟨bytes, _, ⟨hfetch, rfl⟩, _, _, ⟨hupdate, rfl⟩, _, _, rfl, rfl⟩ := h
    unfold updateSnapshot at hupdate ⊢
    cases hcheck : checkSnapshot E.toEnv u.trusted bytes now with
    | error e =>
      rw [hcheck] at hupdate
      cases hupdate
    | ok m =>
      refine ⟨pin, bytes, m, hpin, hts, hfetch, hcheck, ?_⟩
      rw [Option.map_map]
      rfl
  · rintro ⟨pin, bytes, m, hpin, hts, hfetch, hcheck, rfl⟩
    refine ⟨_, _, ⟨rfl, rfl⟩, _, _, ⟨rfl, rfl⟩, pin, _, ⟨hpin, rfl⟩, (), _, ⟨hts, rfl⟩, false, _,
      ⟨by rw [hu]; rfl, rfl⟩, ?_⟩
    rw [if_neg Bool.false_ne_true]
    simp only [returns_bind, returns_fetchRequired, returns_update, returns_cachePut]
    refine ⟨bytes, _, ⟨hfetch, rfl⟩, (), _, ⟨?_, rfl⟩, (), _, rfl, ?_⟩
    · rw [updateSnapshot, hcheck]
    · rw [updateSnapshot, hcheck, Option.map_map]
      rfl

/-- The targets stage accepts the repository's top-level targets, where none are trusted. There are
none to be used again, so they are fetched. -/
theorem refreshTargets_first (hu : u.trusted.targets = BTreeMap.empty) :
    Returns (refreshTargets E R now) u () u' ↔ ∃ bytes m,
      u.trusted.checkSnapshotExpired E.toEnv now = .ok () ∧
      Returns (fetchTargetsMetadata R "targets") u bytes u ∧
      checkTargets E.toEnv u.trusted bytes now = .ok m ∧
      u' = { u with
        trusted := { u.trusted with targets := BTreeMap.empty.insert "targets" m }
        store := u.store.map (·.store "targets.json" bytes) } := by
  have hnone : u.trusted.targetsRole "targets" = none := by
    rw [targetsRole, hu]
    rfl
  simp only [refreshTargets, returns_bind, returns_gets, returns_check]
  constructor
  · rintro ⟨_, _, ⟨rfl, rfl⟩, _, _, ⟨hsnap, rfl⟩, reuse, _, ⟨hreuse, rfl⟩, h⟩
    rw [hnone] at hreuse
    cases hreuse
    rw [if_neg Bool.false_ne_true] at h
    simp only [returns_bind, returns_update, returns_cachePut] at h
    obtain ⟨bytes, r, hfetch, _, _, ⟨hupdate, rfl⟩, rfl⟩ := h
    obtain rfl : u = r := ((returns_fetchTargetsMetadata R).1 hfetch).2
    unfold updateTargets at hupdate ⊢
    cases hcheck : checkTargets E.toEnv u.trusted bytes now with
    | error e =>
      rw [hcheck] at hupdate
      cases hupdate
    | ok m =>
      refine ⟨bytes, m, hsnap, hfetch, hcheck, ?_⟩
      rw [← hu]
  · rintro ⟨bytes, m, hsnap, hfetch, hcheck, rfl⟩
    refine ⟨_, _, ⟨rfl, rfl⟩, (), _, ⟨hsnap, rfl⟩, false, _, ⟨by rw [hnone]; rfl, rfl⟩, ?_⟩
    rw [if_neg Bool.false_ne_true]
    simp only [returns_bind, returns_update, returns_cachePut]
    refine ⟨bytes, u, hfetch, m.signed, _, ⟨?_, rfl⟩, ?_⟩
    · rw [updateTargets, hcheck]
    · rw [updateTargets, hcheck, ← hu]

/-- The stages below the root accept a chain that the repository has. The stages are composed by
their own lemmas; each has the state that the one before it has left. -/
theorem refreshLower_returns (hu : Fresh u.trusted) :
    Returns (refreshTimestamp E R now >>= fun _ => refreshSnapshot E R now >>= fun _ =>
      refreshTargets E R now) u () u' ↔
    ∃ T : TopLevel E.toEnv, T.ServedBy R u.config u.trusted.root.signed.consistentSnapshot ∧
      T.SignedUnder u.trusted.root.signed ∧ T.Unexpired now ∧ u' = T.accept u := by
  simp only [returns_bind]
  constructor
  · rintro ⟨_, u₁, hts, _, u₂, hsnap, htgt⟩
    obtain ⟨tsBytes, htsFetch, hts⟩ := refreshTimestamp_returns.1 hts
    rcases hts with ⟨ts, htsCheck, rfl⟩ | ⟨name, version, -, rfl⟩
    · obtain ⟨htsParse, htsSigned, htsFresh⟩ := (checkTimestamp_first hu.1).1 htsCheck
      obtain ⟨pin, snapBytes, snap, hpin, -, hsnapFetch, hsnapCheck, rfl⟩ :=
        (refreshSnapshot_first (by exact hu.2)).1 hsnap
      obtain ⟨hsnapPins, hsnapSigned, -, hsnapFresh⟩ :=
        (checkSnapshot_first (by rfl) (by exact hu.2)).1 hsnapCheck
      obtain ⟨tgtBytes, tgt, -, htgtFetch, htgtCheck, rfl⟩ :=
        (refreshTargets_first (by rfl)).1 htgt
      obtain ⟨htgtPins, htgtSigned, -, htgtFresh⟩ := (checkTargets_eq_ok (by rfl)).1 htgtCheck
      obtain ⟨⟨tgtPin, htgtPin, htgtFetch⟩, -⟩ := (returns_fetchTargetsMetadata R).1 htgtFetch
      have hversion : snap.signed.version = pin.version := by
        obtain ⟨pin', hpin', -, -, hversion⟩ := hsnapPins
        rw [hversion, Option.some.inj (hpin'.symm.trans hpin)]
      have htgtVersion : tgt.signed.version = tgtPin.version := by
        obtain ⟨pin', hpin', -, -, hversion⟩ := htgtPins
        rw [hversion, Option.some.inj (hpin'.symm.trans htgtPin)]
      rw [← hversion] at hsnapFetch
      rw [← htgtVersion] at htgtFetch
      refine ⟨{ timestampBytes := tsBytes, timestamp := ts, snapshotBytes := snapBytes
                snapshot := snap, targetsBytes := tgtBytes, targets := tgt
                parsed := htsParse, pinsSnapshot := hsnapPins, pinsTargets := htgtPins },
        ⟨htsFetch, hsnapFetch, htgtFetch⟩, ⟨htsSigned, hsnapSigned, htgtSigned⟩,
        ⟨htsFresh, hsnapFresh, htgtFresh⟩, ?_⟩
      rw [TopLevel.accept, Option.map_map, Option.map_map, ← hversion]
      rfl
    · -- no timestamp is trusted that could pin a snapshot
      obtain ⟨pin, _, _, hpin, -⟩ := (refreshSnapshot_first hu.2).1 hsnap
      rw [hu.1] at hpin
      cases hpin
  · rintro ⟨T, hserved, hsigned, hfresh, rfl⟩
    obtain ⟨pin, hpin, -, -, hversion⟩ := T.pinsSnapshot
    obtain ⟨tgtPin, htgtPin, -, -, htgtVersion⟩ := T.pinsTargets
    refine ⟨(), _, refreshTimestamp_returns.2 ⟨T.timestampBytes, hserved.timestamp,
      .inl ⟨T.timestamp, ?_, rfl⟩⟩, (), _, (refreshSnapshot_first (by exact hu.2)).2
        ⟨pin, T.snapshotBytes, T.snapshot, hpin, ?_, ?_, ?_, rfl⟩, ?_⟩
    · exact (checkTimestamp_first hu.1).2 ⟨T.parsed, hsigned.timestamp, hfresh.timestamp⟩
    · refine whenSome_eq_ok.2 fun ts hts => ?_
      cases hts
      exact ensureNotExpired_ok.2 hfresh.timestamp
    · rw [← hversion]
      exact hserved.snapshot
    · exact (checkSnapshot_first (by rfl) (by exact hu.2)).2
        ⟨T.pinsSnapshot, hsigned.snapshot, hfresh.timestamp, hfresh.snapshot⟩
    · refine (refreshTargets_first (by rfl)).2 ⟨T.targetsBytes, T.targets, ?_, ?_, ?_, ?_⟩
      · refine whenSome_eq_ok.2 fun snap hsnap => ?_
        cases hsnap
        exact ensureNotExpired_ok.2 hfresh.snapshot
      · refine (returns_fetchTargetsMetadata R).2 ⟨⟨tgtPin, htgtPin, ?_⟩, rfl⟩
        rw [← htgtVersion]
        exact hserved.targets
      · exact (checkTargets_eq_ok (by rfl)).2
          ⟨T.pinsTargets, hsigned.targets, hfresh.snapshot, hfresh.targets⟩
      · rw [TopLevel.accept, Option.map_map, Option.map_map, ← hversion]
        rfl

/-- The walk along the root chain trusts roots only and writes root files only. -/
theorem refreshRoot_fresh (hu : Fresh u.trusted) (h : Returns (refreshRoot E R) u () u') :
    Fresh u'.trusted ∧ u'.config = u.config ∧ ∀ name, u'.stored name = u.stored name ∨
      RootFile name := by
  have hmoves := (refreshRoot_does E R).returns h
  obtain ⟨calls, hcalls, htrusted⟩ := hmoves.trusted
  refine ⟨?_, hmoves.config, fun name => (hmoves.store.stored name).imp_right ?_⟩
  · rw [htrusted]
    exact hu.runCalls hcalls
  · rintro ⟨bytes, -, hname⟩
    exact hname

/-- **A refresh from a root alone.** It succeeds exactly where the repository has a chain that the
latest root's keys have signed, and nothing has expired. -/
theorem refresh_returns (hu : Fresh u.trusted) (hcached : ∀ name, SeedFile name →
    u.stored name = none) :
    Returns (refresh E R now) u () u' ↔ ∃ u₁, ∃ T : TopLevel E.toEnv,
      Returns (refreshRoot E R) u () u₁ ∧ NotExpired E.toEnv u₁.trusted.root.signed now ∧
      T.ServedBy R u₁.config u₁.trusted.root.signed.consistentSnapshot ∧
      T.SignedUnder u₁.trusted.root.signed ∧ T.Unexpired now ∧ u' = T.accept u₁ := by
  have hlower : ∀ {u₁}, Returns (refreshRoot E R) u () u₁ →
      seedLowerFromStore E now u₁ = (.ok (), u₁) ∧ Fresh u₁.trusted := by
    intro u₁ hwalk
    obtain ⟨hfresh, -, hstored⟩ := refreshRoot_fresh hu hwalk
    have hnone : ∀ name, SeedFile name → u₁.stored name = none := fun name hname =>
      ((hstored name).resolve_right hname.not_rootFile).trans (hcached name hname)
    refine ⟨?_, hfresh⟩
    rw [seedLowerFromStore_eq, seedTrusted, hnone _ (.inl rfl), hnone _ (.inr (.inl rfl)),
      hnone _ (.inr (.inr rfl))]
    rfl
  simp only [refresh, returns_bind, returns_gets, returns_check]
  constructor
  · rintro ⟨_, u₁, hwalk, _, _, ⟨rfl, rfl⟩, _, _, ⟨hroot, rfl⟩, _, u₂, hseed, h⟩
    obtain ⟨hsame, hfresh⟩ := hlower hwalk
    obtain ⟨-, rfl⟩ := Returns.unique hseed hsame
    simp only [← returns_bind] at h
    obtain ⟨T, hserved, hsigned, hunexpired, rfl⟩ := (refreshLower_returns hfresh).1 h
    exact ⟨u₂, T, hwalk, ensureNotExpired_ok.1 hroot, hserved, hsigned, hunexpired, rfl⟩
  · rintro ⟨u₁, T, hwalk, hroot, hserved, hsigned, hunexpired, rfl⟩
    obtain ⟨hsame, hfresh⟩ := hlower hwalk
    refine ⟨(), u₁, hwalk, _, _, ⟨rfl, rfl⟩, (), _, ⟨ensureNotExpired_ok.2 hroot, rfl⟩, (), u₁,
      hsame, ?_⟩
    simp only [← returns_bind]
    exact (refreshLower_returns hfresh).2 ⟨T, hserved, hsigned, hunexpired, rfl⟩

end

end Sigstore.Tuf
