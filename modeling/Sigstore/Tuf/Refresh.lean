import Sigstore.Tuf.Monotone
import Sigstore.Tuf.Moves
import Sigstore.Tuf.Superseded

/-!
# A refresh ends in current metadata

Each stage of a refresh may keep what is trusted already instead of fetching, and what is kept was
checked against an earlier clock. Each stage checks again what it keeps, so that a refresh that
succeeds leaves metadata that is complete, unexpired and consistent (`Refreshed`), from any updater,
with any repository and any store (`refresh_refreshed`).
-/

namespace Sigstore.Tuf

open Checks StateAction TrustedMetadataSet

section
variable (E : Env)

/-- The role's expiry is an instant that is not before `now`. -/
def NotExpired {T : Type} [Role T] (role : T) (now : Int) : Prop :=
  ∃ expiresAt, E.parseTimestamp (Role.expires role) = some expiresAt ∧ now ≤ expiresAt

/-- What a refresh establishes. -/
structure Refreshed (now : Int) (s : TrustedMetadataSet) : Prop where
  root : NotExpired E s.root.signed now
  timestamp : ∃ ts, s.timestamp = some ts ∧ NotExpired E ts.signed now
  snapshot : ∃ snap, s.snapshot = some snap ∧ NotExpired E snap.signed now
  targets : ∃ tgt, s.targetsRole "targets" = some tgt ∧ NotExpired E tgt now
  snapshot_current : SnapshotCurrent s
  targets_current : (s.targetsRole "targets").map (·.version) = s.snapshotPin "targets.json"

section
variable {E}

/-- `ensure_not_expired` accepts exactly what has not expired, and whose expiration can be read. -/
theorem ensureNotExpired_ok {T : Type} [Role T] {role : T} {name : String} {now : Int} {u : Unit} :
    ensureNotExpired E role name now = .ok u ↔ NotExpired E role now := by
  simp only [ensureNotExpired, bind_eq_ok, okOr_eq_ok, rejectIf_eq_ok, Int.not_lt, NotExpired]

/-- `is_expired` is false of exactly what has not expired, and whose expiration can be read. -/
theorem isExpired_false {T : Type} [Role T] {role : T} {now : Int} :
    isExpired E role now = .ok false ↔ NotExpired E role now := by
  simp only [isExpired, bind_eq_ok, okOr_eq_ok, pure_eq_ok, decide_eq_false_iff_not, Int.not_lt,
    NotExpired]

/-- A snapshot is accepted under an unexpired timestamp and unexpired itself. -/
theorem checkSnapshot_notExpired {s : TrustedMetadataSet} {bytes : Bytes} {now : Int}
    {m : Metadata Snapshot} (h : checkSnapshot E s bytes now = .ok m) :
    (∃ ts, s.timestamp = some ts ∧ NotExpired E ts.signed now) ∧ NotExpired E m.signed now := by
  simp only [checkSnapshot, bind_eq_ok, okOr_eq_ok, pure_eq_ok, ensureNotExpired_ok] at h
  obtain ⟨ts, hts, _, hts', pin, -, _, -, m, -, _, -, -, -, -, -, _, hm, rfl⟩ := h
  exact ⟨⟨ts, hts, hts'⟩, hm⟩

/-- Targets are accepted unexpired. -/
theorem checkTargets_notExpired {s : TrustedMetadataSet} {bytes : Bytes} {now : Int}
    {m : Metadata Targets} (h : checkTargets E s bytes now = .ok m) :
    NotExpired E m.signed now := by
  simp only [checkTargets, bind_eq_ok, pure_eq_ok, ensureNotExpired_ok] at h
  obtain ⟨m, -, _, -, _, hm, rfl⟩ := h
  exact hm

/-- Operations on the top-level roles keep the root. -/
theorem step_root {s : TrustedMetadataSet} {c : Call} (hc : ¬ c.OfRoot) :
    (step E s c).root = s.root := by
  have heffect := step_effect E s c
  generalize step E s c = s' at heffect
  cases heffect with
  | unchanged => rfl
  | root => exact absurd trivial hc
  | timestamp => rfl
  | snapshot => rfl
  | targets => rfl
  | delegated => rfl

/-- Calls that do not update the root leave it alone. -/
theorem runCalls_root {s : TrustedMetadataSet} {calls : List Call}
    (hcalls : ∀ c ∈ calls, ¬ c.OfRoot) : (runCalls E s calls).root = s.root := by
  induction calls generalizing s with
  | nil => rfl
  | cons c calls ih =>
    rw [List.forall_mem_cons] at hcalls
    rw [runCalls, Runs.run_cons]
    exact (ih hcalls.2).trans (step_root hcalls.1)

/-- No call on the roles below the root updates the root. -/
theorem Call.OfTopLevel.not_root {c : Call} (h : c.OfTopLevel) : ¬ c.OfRoot := by
  cases c <;> first | exact h.elim | exact id

/-- An action that does not update the root keeps it. -/
theorem Moves.root_eq {C : Call → Prop} {W : String → Bytes → Prop} {u u' : Updater}
    (h : Moves E C W u u') (hC : ∀ c, C c → ¬ c.OfRoot) : u'.trusted.root = u.trusted.root := by
  obtain ⟨calls, hcalls, htrusted⟩ := h.trusted
  rw [htrusted]
  exact runCalls_root fun c hc => hC c (hcalls c hc)

end

end

section
variable {E : ClientEnv} {R : Repository} {now : Int} {u u' : Updater}

/-- The snapshot stage ends in an unexpired timestamp and in the unexpired snapshot that it pins. A
snapshot that is reused was accepted under an earlier clock, so that both checks are made again
before it is kept. -/
theorem refreshSnapshot_returns (h : Returns (refreshSnapshot E R now) u () u') :
    (∃ ts, u'.trusted.timestamp = some ts ∧ NotExpired E.toEnv ts.signed now) ∧
    (∃ snap, u'.trusted.snapshot = some snap ∧ NotExpired E.toEnv snap.signed now) ∧
    SnapshotCurrent u'.trusted := by
  simp only [refreshSnapshot, returns_bind, returns_gets, returns_orThrow, returns_check] at h
  obtain ⟨_, _, ⟨rfl, rfl⟩, _, _, ⟨rfl, rfl⟩, pin, _, ⟨hpin, rfl⟩, _, _, ⟨hts, rfl⟩, reuse, _,
    ⟨hreuse, rfl⟩, h⟩ := h
  obtain ⟨ts, hts', hmeta⟩ := Option.bind_eq_some_iff.1 hpin
  have hfresh : NotExpired E.toEnv ts.signed now := by
    rw [checkTimestampExpired, whenSome_eq_ok] at hts
    exact ensureNotExpired_ok.1 (hts ts hts')
  have hpinned : u.trusted.pinnedSnapshot = some pin.version := by
    show (u.trusted.timestamp.bind fun t => t.signed.snapshotMeta.map (·.version)) = _
    rw [hts', Option.bind_some, hmeta]
    rfl
  cases reuse with
  | true =>
    -- the trusted snapshot is kept, at the pinned version and unexpired
    rw [if_pos rfl, returns_pure] at h
    obtain ⟨-, rfl⟩ := h
    split at hreuse
    · next snap hsnap =>
      split at hreuse
      · next hversion =>
        simp only [bind_eq_ok, pure_eq_ok, Bool.not_eq_true'] at hreuse
        obtain ⟨expired, hexpired, rfl⟩ := hreuse
        refine ⟨⟨ts, hts', hfresh⟩, ⟨snap, hsnap, isExpired_false.1 hexpired⟩, pin.version, ?_,
          hpinned⟩
        rw [snapshotVersion, hsnap, ← hversion]
        rfl
      · cases hreuse
    · cases hreuse
  | false =>
    rw [if_neg Bool.false_ne_true] at h
    simp only [returns_bind, returns_fetchRequired, returns_update, returns_cachePut] at h
    obtain ⟨bytes, _, ⟨-, rfl⟩, _, _, ⟨hupdate, rfl⟩, _, _, rfl, rfl⟩ := h
    unfold updateSnapshot at hupdate ⊢
    cases hcheck : checkSnapshot E.toEnv u.trusted bytes now with
    | error e =>
      rw [hcheck] at hupdate
      cases hupdate
    | ok m =>
      obtain ⟨hts'', hm⟩ := checkSnapshot_notExpired hcheck
      obtain ⟨-, ⟨ts', pin', hts''', hpin', hversion⟩, -⟩ := checkSnapshot_ok E.toEnv hcheck
      refine ⟨hts'', ⟨m, rfl, hm⟩, m.signed.version, rfl, ?_⟩
      show u.trusted.pinnedSnapshot = _
      rw [pinnedSnapshot, hts''', Option.bind_some, hpin', hversion]
      rfl

/-- The targets stage ends in the unexpired targets that the trusted snapshot pins, and keeps the
rest. -/
theorem refreshTargets_returns (h : Returns (refreshTargets E R now) u () u') :
    (∃ tgt, u'.trusted.targetsRole "targets" = some tgt ∧ NotExpired E.toEnv tgt now) ∧
    (u'.trusted.targetsRole "targets").map (·.version) =
      u'.trusted.snapshotPin "targets.json" ∧
    u'.trusted.timestamp = u.trusted.timestamp ∧ u'.trusted.snapshot = u.trusted.snapshot := by
  simp only [refreshTargets, returns_bind, returns_gets, returns_check] at h
  obtain ⟨_, _, ⟨rfl, rfl⟩, _, _, ⟨-, rfl⟩, reuse, _, ⟨hreuse, rfl⟩, h⟩ := h
  cases reuse with
  | true =>
    -- the trusted targets are kept, at the pinned version and unexpired
    rw [if_pos rfl, returns_pure] at h
    obtain ⟨-, rfl⟩ := h
    split at hreuse
    · next tgt version htgt hpinned =>
      split at hreuse
      · next hversion =>
        simp only [bind_eq_ok, pure_eq_ok, Bool.not_eq_true'] at hreuse
        obtain ⟨expired, hexpired, rfl⟩ := hreuse
        refine ⟨⟨tgt, htgt, isExpired_false.1 hexpired⟩, ?_, rfl, rfl⟩
        rw [htgt, Option.map_some, hversion, ← hpinned, snapshotPin, Option.map_bind]
        rfl
      · cases hreuse
    · cases hreuse
  | false =>
    rw [if_neg Bool.false_ne_true] at h
    simp only [returns_bind, returns_fetchTargetsMetadata, returns_update, returns_cachePut] at h
    obtain ⟨bytes, _, ⟨-, rfl⟩, _, _, ⟨hupdate, rfl⟩, rfl⟩ := h
    unfold updateTargets at hupdate ⊢
    cases hcheck : checkTargets E.toEnv u.trusted bytes now with
    | error e =>
      rw [hcheck] at hupdate
      cases hupdate
    | ok m =>
      have htgt : ∀ s : TrustedMetadataSet, s.targets = u.trusted.targets.insert "targets" m →
          s.targetsRole "targets" = some m.signed := by
        intro s hs
        rw [targetsRole, hs, BTreeMap.get?_insert_self]
        rfl
      refine ⟨⟨m.signed, htgt _ rfl, checkTargets_notExpired hcheck⟩, ?_, rfl, rfl⟩
      rw [htgt _ rfl]
      exact (Accepts.topLevel hcheck).pin.symm

/-- **A refresh ends in current metadata.** From any updater, with any repository, store and clock:
after a refresh that succeeds, all four top-level roles are there and unexpired, the snapshot has
the version that the timestamp pins, and the targets have the version that the snapshot pins. -/
theorem refresh_refreshed (h : Returns (refresh E R now) u () u') :
    Refreshed E.toEnv now u'.trusted := by
  simp only [refresh, returns_bind, returns_gets, returns_check] at h
  obtain ⟨_, u₁, -, _, _, ⟨rfl, rfl⟩, _, _, ⟨hroot, rfl⟩, _, u₂, hseed, _, u₃, hts, _, u₄, hsnap,
    htgt⟩ := h
  have hroots : u'.trusted.root = u₁.trusted.root := by
    have hlower : ∀ c : Call, c.OfTopLevel → ¬ c.OfRoot := fun c => Call.OfTopLevel.not_root
    rw [((refreshTargets_does E R now).returns htgt).root_eq hlower,
      ((refreshSnapshot_does E R now).returns hsnap).root_eq hlower,
      ((refreshTimestamp_does E R now).returns hts).root_eq hlower,
      ((seedLowerFromStore_does E now).returns hseed).root_eq hlower]
  obtain ⟨hts', hsnap', hcurrent⟩ := refreshSnapshot_returns hsnap
  obtain ⟨htgt', hpinned, htseq, hsnapeq⟩ := refreshTargets_returns htgt
  exact {
    root := by
      rw [hroots]
      exact ensureNotExpired_ok.1 hroot
    timestamp := by rwa [htseq]
    snapshot := by rwa [hsnapeq]
    targets := htgt'
    snapshot_current := by
      rw [SnapshotCurrent, snapshotVersion, pinnedSnapshot, htseq, hsnapeq]
      exact hcurrent
    targets_current := hpinned }

end

namespace Sample

/-- The environment of a client that also knows some more files than those of the small repository.
The patterns it is used with have no special characters. -/
def clientEnv (more : List Json) : ClientEnv :=
  { env with
    parseJson := fun bytes =>
      match (values ++ more).find? fun v => file v == bytes with
      | some v => .ok v
      | none => .error (.custom "expected value at line 1 column 1")
    glob := fun pattern => .ok fun path => path = pattern }

/-- A repository of metadata files and of target files. -/
def repository (files : List (String × Json)) (targets : List (String × Bytes)) : Repository :=
  { fetchMetadata := fun name maxLength =>
      match files.lookup name with
      | none => .ok none
      | some v =>
        if UInt64.ofNat (file v).length > maxLength then .error (.transport "too long")
        else .ok (some (file v))
    fetchTarget := fun path maxLength =>
      match targets.lookup path with
      | none => .ok none
      | some bytes =>
        if UInt64.ofNat bytes.length > maxLength then .error (.transport "too long")
        else .ok (some bytes) }

/-- The small repository. -/
def files : List (String × Json) :=
  [("timestamp.json", timestamp 1 [("snapshot.json", 5)]), ("snapshot.json", snapshot 5),
    ("targets.json", targets [delegations]), ("d.json", targets [])]

end Sample

/-- A refresh from the small repository succeeds. The repository has one file of each role, and the
refresh is evaluated to its outcome. -/
theorem refresh_refreshed_small :
    ∃ u u', Updater.new (Sample.clientEnv []).toEnv (Sample.file Sample.root) = .ok u ∧
      Returns (refresh (Sample.clientEnv []) (Sample.repository Sample.files []) 0) u () u' ∧
      Refreshed (Sample.clientEnv []).toEnv 0 u'.trusted := by
  have heval : (match Updater.new (Sample.clientEnv []).toEnv (Sample.file Sample.root) with
      | .ok u =>
        (refresh (Sample.clientEnv []) (Sample.repository Sample.files []) 0 u).1.isOk
      | .error _ => false) = true := by decide +kernel
  split at heval
  · next u h =>
    obtain ⟨_, u', hrefresh⟩ := exists_returns heval
    exact ⟨u, u', h, hrefresh, refresh_refreshed hrefresh⟩
  · cases heval

end Sigstore.Tuf
