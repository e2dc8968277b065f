import Sigstore.Actions
import Sigstore.Tuf.Cache

/-!
# The client

`Updater` of `sigstore-tuf` (`client.rs`): it walks the root chain, refreshes the timestamp, the
snapshot and the top-level targets, resolves targets along the delegations, and downloads them.
Every file goes through the trusted metadata set. A call is an action on the updater, which keeps
what the call has trusted and stored when it fails.
-/

namespace Sigstore.Tuf

open Checks StateAction

/-- What the client takes from outside besides: a glob pattern, in which `*` does not match a path
separator, is a matcher, or is invalid for a reason. -/
structure ClientEnv extends Env where
  glob : String → Except String (String → Bool)

/-- A client that refreshes and verifies metadata from a repository and downloads targets. -/
structure Updater where
  trusted : TrustedMetadataSet
  config : UpdaterConfig
  store : Option MetadataStore

/-- A call of the client. -/
abbrev Client (α : Type) : Type := StateAction Abort Updater α

/-- Fail with an error of the crate. -/
def throw {α : Type} (e : Error) : Client α := fail (.error e)

/-- Look something up that the source unwraps with `ok_or`. -/
def orThrow {α : Type} (o : Option α) (e : Error) : Client α := lift (okOr o (.error e))

/-- A check or a fetch that does not change the updater. -/
def check {α : Type} (x : Except Error α) : Client α := lift (x.mapError .error)

/-- An update of the trusted set. -/
def update {α : Type} (f : TrustedMetadataSet → Except Abort α × TrustedMetadataSet) : Client α :=
  onPart Updater.trusted (fun u s => { u with trusted := s }) f

/-- The outcome of an update, of which an error is not passed on. -/
def attempt {α : Type} (f : TrustedMetadataSet → Except Abort α × TrustedMetadataSet) :
    Client (Except Error α) :=
  update fun s =>
    match f s with
    | (.ok a, t) => (.ok (.ok a), t)
    | (.error (.error e), t) => (.ok (.error e), t)
    | (.error .panic, t) => (.error .panic, t)

theorem returns_throw {α : Type} {e : Error} {u u' : Updater} {a : α} :
    ¬ Returns (throw e) u a u' := returns_fail

/-- A value that is there or an error: what returns is the value, and the updater is left alone. -/
theorem returns_orThrow {α : Type} {o : Option α} {e : Error} {u u' : Updater} {a : α} :
    Returns (orThrow o e) u a u' ↔ o = some a ∧ u = u' := by
  rw [orThrow, returns_lift, okOr_eq_ok]

/-- A check returns what it accepts and leaves the updater alone. -/
theorem returns_check {α : Type} {x : Except Error α} {u u' : Updater} {a : α} :
    Returns (check x) u a u' ↔ x = .ok a ∧ u = u' := by
  rw [check, returns_lift, mapError_eq_ok]

/-- A call on the trusted set returns where the call does, and replaces the trusted set alone. -/
theorem returns_update {α : Type}
    {f : TrustedMetadataSet → Except Abort α × TrustedMetadataSet} {u u' : Updater} {a : α} :
    Returns (update f) u a u' ↔
      (f u.trusted).1 = .ok a ∧ { u with trusted := (f u.trusted).2 } = u' :=
  Prod.ext_iff

/-- An update that is attempted ends in its outcome. The set is kept as the update left it even
where the update failed; the operations themselves leave it unchanged then. -/
theorem returns_attempt {α : Type} {f : TrustedMetadataSet → Except Abort α × TrustedMetadataSet}
    {u u' : Updater} {r : Except Error α} :
    Returns (attempt f) u r u' ↔
      (f u.trusted).1 = r.mapError .error ∧ { u with trusted := (f u.trusted).2 } = u' := by
  rw [attempt, returns_update]
  split
  · next a t hf =>
    rw [hf]
    cases r <;> simp [Except.mapError]
  · next e t hf =>
    rw [hf]
    cases r <;> simp [Except.mapError]
  · next t hf =>
    rw [hf]
    cases r <;> simp [Except.mapError]

namespace TrustedMetadataSet

section
variable (E : Env) (s : TrustedMetadataSet)

/-- Assert that the trusted root has not expired. -/
def checkRootExpired (now : Int) : Except Error Unit := ensureNotExpired E s.root.signed "root" now

/-- Assert that the trusted timestamp, if one is loaded, has not expired. -/
def checkTimestampExpired (now : Int) : Except Error Unit :=
  whenSome s.timestamp fun ts => ensureNotExpired E ts.signed "timestamp" now

/-- Assert that the trusted snapshot, if one is loaded, has not expired. -/
def checkSnapshotExpired (now : Int) : Except Error Unit :=
  whenSome s.snapshot fun snap => ensureNotExpired E snap.signed "snapshot" now

/-- The payload of a trusted targets role. -/
def targetsRole (name : String) : Option Targets := (s.targets.get? name).map (·.signed)

end

end TrustedMetadataSet

/-- Whether a role is expired. -/
def isExpired (E : Env) {T : Type} [Role T] (role : T) (now : Int) : Except Error Bool := do
  let expiresAt ← okOr (E.parseTimestamp (Role.expires role))
    (.invalidTimestamp (Role.expires role))
  return expiresAt < now

/-! ## Names -/

/-- An upper-case hexadecimal digit. -/
def upperHexDigit (n : Nat) : Char := Char.ofNat (if n < 10 then 48 + n else 55 + n)

/-- The unreserved bytes of a URL. -/
def isUnreserved (b : UInt8) : Bool :=
  (0x41 ≤ b && b ≤ 0x5a) || (0x61 ≤ b && b ≤ 0x7a) || (0x30 ≤ b && b ≤ 0x39) || b == 0x2d ||
    b == 0x5f || b == 0x2e || b == 0x7e

/-- Percent-encode a delegated role name for use in the name of a metadata file. -/
def encodeRole (role : String) : String :=
  String.ofList ((utf8Bytes role).flatMap fun b =>
    if isUnreserved b then [Char.ofNat b.toNat]
    else ['%', upperHexDigit (b.toNat / 16), upperHexDigit (b.toNat % 16)])

/-- The hash to use for a target: `sha256`, then `sha512`, then whatever is listed first. -/
def preferredHash (hashes : BTreeMap String String) : Option (String × String) :=
  match hashes.get? "sha256" with
  | some hex => some ("sha256", hex)
  | none =>
    match hashes.get? "sha512" with
    | some hex => some ("sha512", hex)
    | none => hashes.entries.head?

/-- `str::rsplit_once` at a slash. -/
def rsplitSlash (path : String) : Option (String × String) :=
  let reversed := path.toList.reverse
  match reversed.dropWhile (· ≠ '/') with
  | [] => none
  | _ :: dir =>
    some (String.ofList dir.reverse, String.ofList (reversed.takeWhile (· ≠ '/')).reverse)

/-! ## Delegations -/

section
variable (E : ClientEnv)

/-- The loop of `matches_path` over the glob patterns. -/
def matchesAny (name targetPath : String) : List String → Except Error Bool
  | [] => .ok false
  | pattern :: patterns =>
    match E.glob pattern with
    | .error e => .error (.malformed
        (s!"role {debugStr name} has invalid delegation path pattern " ++
          s!"{debugStr pattern}: {e}"))
    | .ok isMatch => if isMatch targetPath then .ok true else matchesAny name targetPath patterns

/-- Whether a delegated role is authorized for a target path. -/
def DelegatedRole.matchesPath (r : DelegatedRole) (targetPath : String) : Except Error Bool :=
  match r.pathHashPrefixes with
  | some prefixes =>
    let hash := (E.primitives.sha256 (utf8Bytes targetPath)).toHex
    .ok (prefixes.any fun p => startsWith hash p)
  | none =>
    match r.paths with
    | some paths => matchesAny E r.name targetPath paths
    | none => .ok false

/-- The children of a role to visit next, each with its delegator, and whether a terminating one
stopped the collection. -/
def collectChildren (targetPath role : String) :
    List DelegatedRole → Except Error (List (String × String) × Bool)
  | [] => .ok ([], false)
  | child :: roles =>
    if isTopLevelRole child.name then collectChildren targetPath role roles
    else do
      let matched ← child.matchesPath E targetPath
      if matched then
        if child.terminating then return ([(child.name, role)], true)
        else
          let (children, stopped) ← collectChildren targetPath role roles
          return ((child.name, role) :: children, stopped)
      else collectChildren targetPath role roles

/-- The work list after visiting a role. -/
def nextToVisit (targets : Targets) (targetPath role : String) (toVisit : List (String × String)) :
    Except Error (List (String × String)) := do
  match targets.delegations with
  | none => return toVisit
  | some delegations =>
    let (children, stopped) ← collectChildren E targetPath role delegations.roles
    return children ++ if stopped then [] else toVisit

end

/-! ## The updater -/

namespace Updater

/-- An updater bootstrapped from a pinned root, with the default limits. -/
def new (E : Env) (rootBytes : Bytes) : Except Error Updater := do
  let trusted ← TrustedMetadataSet.fromRoot E rootBytes
  return { trusted := trusted, config := {}, store := none }

/-- Override the limits. -/
def withConfig (u : Updater) (config : UpdaterConfig) : Updater := { u with config := config }

/-- The loop of `with_store` over the cached roots. `fuel` bounds the loop by the number of root
versions. -/
def adoptCachedRoots (E : Env) (store : MetadataStore) :
    Nat → TrustedMetadataSet → Except Abort TrustedMetadataSet
  | 0, trusted => .ok trusted
  | fuel + 1, trusted => do
    let next ← TrustedMetadataSet.nextVersion E trusted.root.signed.version
    match store.load s!"root_history/{next}.root.json" with
    | none => return trusted
    | some bytes =>
      match trusted.updateRoot E bytes with
      | (.ok (), trusted) => adoptCachedRoots E store fuel trusted
      | (.error _, trusted) => return trusted

/-- Attach a store, whose cached roots are verified forward from the pinned root. -/
def withStore (E : Env) (u : Updater) (store : MetadataStore) : Except Abort Updater := do
  let trusted ← adoptCachedRoots E store (2 ^ 64) u.trusted
  return { u with trusted := trusted, store := some store }

end Updater

/-- Write a file through to the store, where there is one. -/
def cachePut (name : String) (bytes : Bytes) : Client Unit :=
  modify fun u => { u with store := u.store.map (·.store name bytes) }

/-- Storing a file always returns: the store drops what it cannot write. -/
theorem returns_cachePut {name : String} {bytes : Bytes} {u u' : Updater} {r : Unit} :
    Returns (cachePut name bytes) u r u' ↔
      { u with store := u.store.map (·.store name bytes) } = u' := returns_modify

/-- A file of the attached store. -/
def loadCached (name : String) : Client (Option Bytes) :=
  gets fun u => u.store.bind (·.load name)

section
variable (E : ClientEnv) (R : Repository)

/-- Fetch a metadata file that must be there. -/
def fetchRequired (name : String) (maxLength : UInt64) : Client Bytes := do
  let found ← check (R.fetchMetadata name maxLength)
  orThrow found (.transport s!"{name} not found")

/-- A required file is returned where the repository serves it. The updater is left alone. -/
theorem returns_fetchRequired {name : String} {maxLength : UInt64} {u u' : Updater}
    {bytes : Bytes} : Returns (fetchRequired R name maxLength) u bytes u' ↔
      R.fetchMetadata name maxLength = .ok (some bytes) ∧ u = u' := by
  simp only [fetchRequired, returns_bind, returns_check, returns_orThrow]
  constructor
  · rintro ⟨_, _, ⟨hfetch, rfl⟩, rfl, rfl⟩
    exact ⟨hfetch, rfl⟩
  · rintro ⟨hfetch, rfl⟩
    exact ⟨_, _, ⟨hfetch, rfl⟩, rfl, rfl⟩

/-! ### Refreshing -/

/-- The loop of `refresh_root` over the next versions, of which `count` are left. -/
def refreshRootLoop : Nat → UInt64 → Client Unit
  | 0, _ => do
    let config ← gets (·.config)
    throw (.transport
      (s!"exceeded {config.maxRootRotations} root rotations without reaching the latest root"))
  | count + 1, next => do
    let config ← gets (·.config)
    let found ← check (R.fetchMetadata s!"{next}.root.json" config.rootMaxLength)
    match found with
    | some bytes => do
      update (·.updateRoot E.toEnv bytes)
      cachePut s!"root_history/{next}.root.json" bytes
      cachePut "root.json" bytes
      refreshRootLoop count (next + 1)
    | none => return ()

/-- The number of versions in `(start + 1)..=(start + max)`. -/
def rootRange (start max : UInt64) : Except Abort Nat :=
  if E.overflowChecks ∧ (start + 1 < start ∨ start + max < start) then .error .panic
  else if start + 1 ≤ start + max then .ok ((start + max - (start + 1)).toNat + 1)
  else .ok 0

/-- Walk the root chain to the latest root. -/
def refreshRoot : Client Unit := do
  let start ← gets (·.trusted.root.signed.version)
  let config ← gets (·.config)
  let count ← lift (rootRange E start config.maxRootRotations)
  refreshRootLoop E R count (start + 1)

/-- Seed from a cached file, where there is one. A cached file that is refused is skipped. -/
def seed {α : Type} (f : Bytes → TrustedMetadataSet → Except Abort α × TrustedMetadataSet) :
    Option Bytes → Client Unit
  | some bytes => do
    let _ ← attempt (f bytes)
  | none => pure ()

/-- Seed the timestamp, the snapshot and the targets from the store. -/
def seedLowerFromStore (now : Int) : Client Unit := do
  let ts ← loadCached "timestamp.json"
  let snap ← loadCached "snapshot.json"
  let tgt ← loadCached "targets.json"
  seed (fun bytes trusted => trusted.updateTimestamp E.toEnv bytes now) ts
  seed (fun bytes trusted => trusted.updateSnapshot E.toEnv bytes now) snap
  seed (fun bytes trusted => trusted.updateTargets E.toEnv bytes now) tgt

/-- Fetch the timestamp. One of the version that is trusted already is dropped. -/
def refreshTimestamp (now : Int) : Client Unit := do
  let config ← gets (·.config)
  let bytes ← fetchRequired R "timestamp.json" config.timestampMaxLength
  let outcome ← attempt (·.updateTimestamp E.toEnv bytes now)
  match outcome with
  | .ok () => cachePut "timestamp.json" bytes
  | .error (.equalVersion _ _) => return ()
  | .error e => throw e

/-- Fetch the snapshot that the timestamp pins, unless it is trusted already. -/
def refreshSnapshot (now : Int) : Client Unit := do
  let trusted ← gets (·.trusted)
  let config ← gets (·.config)
  let pin ← orThrow (trusted.timestamp.bind (·.signed.snapshotMeta))
    (.malformed "timestamp does not pin snapshot")
  check (trusted.checkTimestampExpired E.toEnv now)
  let reuse ← check (match trusted.snapshot with
    | some snap =>
      if snap.signed.version = pin.version then do
        let expired ← isExpired E.toEnv snap.signed now
        return !expired
      else return false
    | none => return false)
  if reuse then return ()
  else do
    let name := if trusted.root.signed.consistentSnapshot then s!"{pin.version}.snapshot.json"
      else "snapshot.json"
    let bytes ← fetchRequired R name config.snapshotMaxLength
    update (·.updateSnapshot E.toEnv bytes now)
    cachePut name bytes
    cachePut "snapshot.json" bytes

/-- Fetch the metadata file of a targets role, whose name carries the pinned version where the root
asks for consistent snapshots. -/
def fetchTargetsMetadata (roleName : String) : Client Bytes := do
  let trusted ← gets (·.trusted)
  let config ← gets (·.config)
  let pinKey := roleName ++ ".json"
  let pin ← orThrow (trusted.snapshot.bind (·.signed.metas.get? pinKey))
    (.malformed s!"snapshot does not pin {pinKey}")
  let encoded := encodeRole roleName
  let name := if trusted.root.signed.consistentSnapshot then s!"{pin.version}.{encoded}.json"
    else s!"{encoded}.json"
  fetchRequired R name config.targetsMaxLength

/-- The name under which the repository has the file of a targets role. -/
def targetsFileName (consistent : Bool) (version : UInt64) (roleName : String) : String :=
  if consistent then s!"{version}.{encodeRole roleName}.json" else s!"{encodeRole roleName}.json"

/-- The metadata of a targets role is fetched where the trusted snapshot pins the role, under the
name with the pinned version. -/
theorem returns_fetchTargetsMetadata {roleName : String} {u u' : Updater} {bytes : Bytes} :
    Returns (fetchTargetsMetadata R roleName) u bytes u' ↔
      (∃ pin, u.trusted.snapshot.bind (·.signed.metas.get? (roleName ++ ".json")) = some pin ∧
        R.fetchMetadata (targetsFileName u.trusted.root.signed.consistentSnapshot pin.version
          roleName) u.config.targetsMaxLength = .ok (some bytes)) ∧ u = u' := by
  simp only [fetchTargetsMetadata, returns_bind, returns_gets, returns_orThrow,
    returns_fetchRequired]
  constructor
  · rintro ⟨_, _, ⟨rfl, rfl⟩, _, _, ⟨rfl, rfl⟩, pin, _, ⟨hpin, rfl⟩, hfetch, rfl⟩
    exact ⟨⟨pin, hpin, hfetch⟩, rfl⟩
  · rintro ⟨⟨pin, hpin, hfetch⟩, rfl⟩
    exact ⟨_, _, ⟨rfl, rfl⟩, _, _, ⟨rfl, rfl⟩, pin, _, ⟨hpin, rfl⟩, hfetch, rfl⟩

/-- Fetch the top-level targets, unless those that the snapshot pins are trusted already. -/
def refreshTargets (now : Int) : Client Unit := do
  let trusted ← gets (·.trusted)
  check (trusted.checkSnapshotExpired E.toEnv now)
  let pinned := (trusted.snapshot.bind (·.signed.metas.get? "targets.json")).map (·.version)
  let reuse ← check (match trusted.targetsRole "targets", pinned with
    | some tgt, some version =>
      if tgt.version = version then do
        let expired ← isExpired E.toEnv tgt now
        return !expired
      else return false
    | _, _ => return false)
  if reuse then return ()
  else do
    let bytes ← fetchTargetsMetadata R "targets"
    let _ ← update (·.updateTargets E.toEnv bytes now)
    cachePut "targets.json" bytes

/-- The full refresh: root chain, timestamp, snapshot, top-level targets. -/
def refresh (now : Int) : Client Unit := do
  refreshRoot E R
  let trusted ← gets (·.trusted)
  check (trusted.checkRootExpired E.toEnv now)
  seedLowerFromStore E now
  refreshTimestamp E R now
  refreshSnapshot E R now
  refreshTargets E R now

/-! ### Targets -/

/-- Whether the trusted snapshot pins a role. -/
def TrustedMetadataSet.pinsRole (s : TrustedMetadataSet) (role : String) : Bool :=
  match s.snapshot with
  | some snap => (snap.signed.metas.get? (role ++ ".json")).isSome
  | none => false

/-- Fetch and verify a delegated role, and write it through to the store. -/
def loadRole (role delegator : String) (now : Int) : Client Unit := do
  let bytes ← fetchTargetsMetadata R role
  let _ ← update (·.updateDelegatedTargets E.toEnv bytes role delegator now)
  cachePut s!"{encodeRole role}.json" bytes

/-- The search for a target along the delegations. The work list holds roles with their delegators;
`steps` more roles may be looked at. A role that the snapshot does not pin is skipped. -/
def search (targetPath : String) (now : Int) :
    Nat → List String → List (String × String) → Client (Option TargetFile)
  | steps, visited, toVisit =>
    match toVisit.dropWhile (·.1 ∈ visited), steps with
    | [], _ => return none
    | _ :: _, 0 => return none
    | (role, delegator) :: rest, steps + 1 => do
      let trusted ← gets (·.trusted)
      let known := role = "targets" ∨ (trusted.targets.get? role).isSome
      if ¬ known ∧ trusted.pinsRole role = false then search targetPath now steps visited rest
      else do
        let _ ← (if known then pure () else loadRole E R role delegator now : Client Unit)
        let found ← gets (·.trusted.targetsRole role)
        match found with
        | none => fail .panic
        | some targets =>
          match targets.targets.get? targetPath with
          | some target => return some target
          | none => do
            let toVisit ← check (nextToVisit E targets targetPath role rest)
            search targetPath now steps (role :: visited) toVisit

/-- Resolve a target's metadata along the delegations. -/
def getTargetinfo (targetPath : String) (now : Int) : Client (Option TargetFile) := do
  let top ← gets (·.trusted.targetsRole "targets")
  match top with
  | none => throw (.malformed "refresh() must be called before resolving targets")
  | some _ =>
    let config ← gets (·.config)
    search E R targetPath now config.maxDelegations.toNat [] [("targets", "root")]

/-- Look up a target in the top-level targets only. -/
def findTarget (u : Updater) (targetPath : String) : Option TargetFile :=
  (u.trusted.targetsRole "targets").bind (·.targets.get? targetPath)

/-- Verify target bytes against the pinned length and hashes, of which one at least must be known.
-/
def verifyTargetBytes (bytes : Bytes) (target : TargetFile) (path : String) :
    Except Error Unit := do
  rejectIf (UInt64.ofNat bytes.length ≠ target.length) (.integrityMismatch
    s!"{path}: length {bytes.length} != pinned {target.length}")
  let verifiedAny ← checkHashes E.toEnv bytes path false target.hashes.entries
  let algos := ", ".intercalate (target.hashes.keys.map debugStr)
  rejectIf (verifiedAny = false) (.integrityMismatch
    s!"{path}: no supported hash to verify ([{algos}])")

/-- A cached copy of a target that has the pinned length and hashes. -/
def findCachedTarget (target : TargetFile) (targetPath : String) : Client (Option Bytes) := do
  let found ← loadCached s!"targets/{targetPath}"
  match found with
  | none => return none
  | some bytes =>
    match verifyTargetBytes E bytes target targetPath with
    | .ok () => return some bytes
    | .error _ => return none

/-- The path under which the repository has a target: the hash is put before the file name where the
root asks for consistent snapshots. -/
def targetLocation (consistent : Bool) (target : TargetFile) (targetPath : String) :
    Except Error String :=
  if consistent then do
    let (_, hash) ← okOr (preferredHash target.hashes)
      (.integrityMismatch s!"{targetPath}: no hash to locate consistent target")
    match rsplitSlash targetPath with
    | some (dir, name) => return s!"{dir}/{hash}.{name}"
    | none => return s!"{hash}.{targetPath}"
  else return targetPath

/-- Download a resolved target, verify it, and write it through to the store. -/
def downloadTarget (target : TargetFile) (targetPath : String) : Client Bytes := do
  let u ← gets id
  check (rejectIf (target.length > u.config.targetMaxLength) (.integrityMismatch
    (s!"{targetPath}: pinned length {target.length} exceeds configured max " ++
      s!"{u.config.targetMaxLength}")))
  let path ← check (targetLocation u.trusted.root.signed.consistentSnapshot target targetPath)
  let found ← check (R.fetchTarget path target.length)
  let bytes ← orThrow found (.transport s!"target {path} not found")
  check (verifyTargetBytes E bytes target targetPath)
  cachePut s!"targets/{targetPath}" bytes
  return bytes

/-- Resolve a target and return a cached copy or download it. -/
def getTarget (targetPath : String) (now : Int) : Client Bytes := do
  let info ← getTargetinfo E R targetPath now
  let target ← orThrow info (.malformed s!"unknown target {debugStr targetPath}")
  let cached ← findCachedTarget E target targetPath
  match cached with
  | some bytes => return bytes
  | none => downloadTarget E R target targetPath

end

end Sigstore.Tuf
