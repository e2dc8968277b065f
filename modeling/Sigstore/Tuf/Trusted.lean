import Sigstore.Checks
import Sigstore.Runs
import Sigstore.Tuf.Metadata

/-!
# The trusted metadata state machine

`TrustedMetadataSet` of `sigstore-tuf` (`trusted.rs`) and its five operations. Each operation first
checks the candidate against the set, reading it only (`checkRoot` and the like, the part of the
source function up to its last `?`), and then commits. A call ends in a result and a set: a failed
call returns the set it was given.
-/

namespace Sigstore.Tuf

open Sigstore.Crypto Checks

/-- The set of currently trusted metadata. `targets` holds the top-level targets and any delegated
ones by role name. -/
structure TrustedMetadataSet where
  root : Metadata Root
  timestamp : Option (Metadata Timestamp)
  snapshot : Option (Metadata Snapshot)
  targets : BTreeMap String (Metadata Targets)

/-- How a call can fail: with an error, or with the panic of an overflow check. -/
inductive Abort where
  | error (e : Error)
  | panic
  deriving DecidableEq

section
variable (E : Env)

/-- A reserved top-level role name. -/
def isTopLevelRole (name : String) : Bool :=
  name == "root" || name == "timestamp" || name == "snapshot" || name == "targets"

/-- Verify a metadata file against a named role defined in a root. -/
def verifyWithRoot {T : Type} (m : Metadata T) (root : Root) (roleName : String) :
    Except Error Unit := do
  let roleKeys ← okOr (root.role roleName) (.unknownRole roleName)
  m.verifyThreshold E.primitives root.keys roleKeys roleName

/-- Verify a root is signed to threshold by its own `root` role. -/
def verifyRootSelfSigned (root : Metadata Root) : Except Error Unit := do
  let roleKeys ← okOr (root.signed.role "root") (.unknownRole "root")
  root.verifyThreshold E.primitives root.signed.keys roleKeys "root"

def ensureNotExpired {T : Type} [Role T] (role : T) (name : String) (now : Int) :
    Except Error Unit := do
  let expiresAt ← okOr (E.parseTimestamp (Role.expires role))
    (.invalidTimestamp (Role.expires role))
  rejectIf (expiresAt < now) (.expired name (Role.expires role))

/-- The loop of `check_integrity` over the pinned hashes. -/
def checkHashes (bytes : Bytes) (what : String) :
    Bool → List (String × String) → Except Error Bool
  | verifiedAny, [] => .ok verifiedAny
  | verifiedAny, (algo, expectedHex) :: l =>
    let actual :=
      if algo = "sha256" then some (E.primitives.sha256 bytes).toHex
      else if algo = "sha512" then some (hexEncode (E.primitives.sha512 bytes))
      else none
    match actual with
    | none => checkHashes bytes what verifiedAny l
    | some actual =>
      if eqIgnoreAsciiCase actual expectedHex then checkHashes bytes what true l
      else .error (.integrityMismatch s!"{what}: {algo} mismatch")

/-- Verify that `bytes` matches the length and the hashes that `pin` pins. -/
def checkIntegrity (bytes : Bytes) (pin : MetaFile) (what : String) : Except Error Unit := do
  whenSome pin.length fun expectedLen =>
    rejectIf (UInt64.ofNat bytes.length ≠ expectedLen)
      (.integrityMismatch s!"{what}: length {bytes.length} != pinned {expectedLen}")
  whenSome pin.hashes fun hashes => do
    let verifiedAny ← checkHashes E bytes what false hashes.entries
    let algos := ", ".intercalate (hashes.keys.map debugStr)
    rejectIf (verifiedAny = false) (.integrityMismatch
      s!"{what}: no supported hash algorithm to verify ([{algos}])")

namespace TrustedMetadataSet

/-- Bootstrap from a pinned root, which must be signed by its own `root` role. -/
def fromRoot (bytes : Bytes) : Except Error TrustedMetadataSet := do
  let root ← Metadata.fromSlice E (T := Root) bytes
  verifyRootSelfSigned E root
  return { root := root, timestamp := none, snapshot := none, targets := BTreeMap.empty }

/-- The version that the next root must have. -/
def nextVersion (trusted : UInt64) : Except Abort UInt64 :=
  if E.overflowChecks ∧ trusted + 1 = 0 then .error .panic else .ok (trusted + 1)

/-- The checks of `update_root`. -/
def checkRoot (s : TrustedMetadataSet) (bytes : Bytes) : Except Abort (Metadata Root) := do
  let newRoot ← (Metadata.fromSlice E (T := Root) bytes).mapError .error
  let expected ← nextVersion E s.root.signed.version
  rejectIf (newRoot.signed.version ≠ expected)
    (.error (.badRootVersion s.root.signed.version newRoot.signed.version))
  (verifyWithRoot E newRoot s.root.signed "root").mapError .error
  (verifyRootSelfSigned E newRoot).mapError .error
  return newRoot

/-- Incorporate a candidate newer root. A new root may rotate keys, so the lower roles are dropped.
-/
def updateRoot (s : TrustedMetadataSet) (bytes : Bytes) :
    Except Abort Unit × TrustedMetadataSet :=
  match checkRoot E s bytes with
  | .error e => (.error e, s)
  | .ok newRoot =>
    (.ok (), { s with root := newRoot, timestamp := none, snapshot := none,
                      targets := BTreeMap.empty })

/-- The rollback checks of a candidate timestamp against the trusted one. -/
def checkTimestampRollback (current new : Timestamp) : Except Error Unit := do
  rejectIf (new.version < current.version)
    (.rollback "timestamp" current.version new.version)
  rejectIf (new.version = current.version) (.equalVersion "timestamp" new.version)
  whenSome new.snapshotMeta fun newMeta =>
    whenSome current.snapshotMeta fun curMeta =>
      rejectIf (newMeta.version < curMeta.version)
        (.rollback "snapshot (via timestamp)" curMeta.version newMeta.version)

/-- The checks of `update_timestamp`. -/
def checkTimestamp (s : TrustedMetadataSet) (bytes : Bytes) (now : Int) :
    Except Error (Metadata Timestamp) := do
  let new ← Metadata.fromSlice E (T := Timestamp) bytes
  verifyWithRoot E new s.root.signed "timestamp"
  whenSome s.timestamp fun current => checkTimestampRollback current.signed new.signed
  ensureNotExpired E new.signed "timestamp" now
  return new

/-- Incorporate a candidate timestamp. -/
def updateTimestamp (s : TrustedMetadataSet) (bytes : Bytes) (now : Int) :
    Except Abort Unit × TrustedMetadataSet :=
  match checkTimestamp E s bytes now with
  | .error e => (.error (.error e), s)
  | .ok new => (.ok (), { s with timestamp := some new })

/-- The loop of `update_snapshot` over what the trusted snapshot pins: nothing may be removed or
rolled back. -/
def checkNoRollback (new : Snapshot) : List (String × MetaFile) → Except Error Unit
  | [] => .ok ()
  | (name, curMeta) :: l =>
    match new.metas.get? name with
    | none => .error (.integrityMismatch
        s!"snapshot removes {name}, which the trusted snapshot pins")
    | some newMeta =>
      if newMeta.version < curMeta.version then
        .error (.rollback s!"{name} (via snapshot)" curMeta.version newMeta.version)
      else checkNoRollback new l

/-- The checks of `update_snapshot`. -/
def checkSnapshot (s : TrustedMetadataSet) (bytes : Bytes) (now : Int) :
    Except Error (Metadata Snapshot) := do
  let timestamp ← okOr s.timestamp (.malformed "cannot load snapshot before timestamp")
  ensureNotExpired E timestamp.signed "timestamp" now
  let pin ← okOr timestamp.signed.snapshotMeta
    (.malformed "timestamp does not pin snapshot.json")
  checkIntegrity E bytes pin "snapshot.json"
  let new ← Metadata.fromSlice E (T := Snapshot) bytes
  verifyWithRoot E new s.root.signed "snapshot"
  rejectIf (new.signed.version ≠ pin.version) (.integrityMismatch
    s!"snapshot version {new.signed.version} does not match timestamp pin {pin.version}")
  whenSome s.snapshot fun current => checkNoRollback new.signed current.signed.metas.entries
  ensureNotExpired E new.signed "snapshot" now
  return new

/-- Incorporate a candidate snapshot. A new snapshot invalidates the trusted targets. -/
def updateSnapshot (s : TrustedMetadataSet) (bytes : Bytes) (now : Int) :
    Except Abort Unit × TrustedMetadataSet :=
  match checkSnapshot E s bytes now with
  | .error e => (.error (.error e), s)
  | .ok new => (.ok (), { s with snapshot := some new, targets := BTreeMap.empty })

/-- Parse a targets file and check it against the snapshot pin, without its signatures. -/
def verifyTargetsPin (s : TrustedMetadataSet) (bytes : Bytes) (roleName : String) (now : Int) :
    Except Error (Metadata Targets) := do
  let snapshot ← okOr s.snapshot (.malformed "cannot load targets before snapshot")
  ensureNotExpired E snapshot.signed "snapshot" now
  let metaName := roleName ++ ".json"
  let pin ← okOr (snapshot.signed.metas.get? metaName)
    (.malformed s!"snapshot does not pin {metaName}")
  checkIntegrity E bytes pin metaName
  let new ← Metadata.fromSlice E (T := Targets) bytes
  rejectIf (new.signed.version ≠ pin.version) (.integrityMismatch
    (s!"{metaName} version {new.signed.version} does not match snapshot pin " ++
      s!"{pin.version}"))
  return new

/-- The checks of `update_targets`. -/
def checkTargets (s : TrustedMetadataSet) (bytes : Bytes) (now : Int) :
    Except Error (Metadata Targets) := do
  let new ← verifyTargetsPin E s bytes "targets" now
  verifyWithRoot E new s.root.signed "targets"
  ensureNotExpired E new.signed "targets" now
  return new

/-- Incorporate the top-level targets file. -/
def updateTargets (s : TrustedMetadataSet) (bytes : Bytes) (now : Int) :
    Except Abort Targets × TrustedMetadataSet :=
  match checkTargets E s bytes now with
  | .error e => (.error (.error e), s)
  | .ok new => (.ok new.signed, { s with targets := s.targets.insert "targets" new })

/-- The keys and the threshold that authorize `roleName`, as declared in the delegations of the
trusted `delegatorName`. -/
def delegationAuthority (s : TrustedMetadataSet) (delegatorName roleName : String) :
    Except Error (BTreeMap String Key × RoleKeys) := do
  let delegator ← okOr (s.targets.get? delegatorName) (.unknownRole delegatorName)
  let delegations ← okOr delegator.signed.delegations
    (.malformed s!"role {delegatorName} delegates nothing")
  let role ← okOr (delegations.roles.find? fun r => r.name = roleName) (.unknownRole roleName)
  let keys := role.keyids.foldl (fun keys kid =>
    match delegations.keys.get? kid with
    | some key => keys.insert kid key
    | none => keys) BTreeMap.empty
  return (keys, role.roleKeys)

/-- The checks of `update_delegated_targets`. -/
def checkDelegatedTargets (s : TrustedMetadataSet) (bytes : Bytes)
    (roleName delegatorName : String) (now : Int) : Except Error (Metadata Targets) := do
  rejectIf (isTopLevelRole roleName) (.malformed
    s!"delegated role must not reuse top-level role name {debugStr roleName}")
  let (keys, roleKeys) ← delegationAuthority s delegatorName roleName
  let new ← verifyTargetsPin E s bytes roleName now
  new.verifyThreshold E.primitives keys roleKeys roleName
  ensureNotExpired E new.signed roleName now
  return new

/-- Incorporate a delegated targets file, delegated by a trusted targets role. -/
def updateDelegatedTargets (s : TrustedMetadataSet) (bytes : Bytes)
    (roleName delegatorName : String) (now : Int) : Except Abort Targets × TrustedMetadataSet :=
  match checkDelegatedTargets E s bytes roleName delegatorName now with
  | .error e => (.error (.error e), s)
  | .ok new => (.ok new.signed, { s with targets := s.targets.insert roleName new })

end TrustedMetadataSet

/-! ## Runs -/

/-- A call of one of the five operations. -/
inductive Call where
  | updateRoot (bytes : Bytes)
  | updateTimestamp (bytes : Bytes) (now : Int)
  | updateSnapshot (bytes : Bytes) (now : Int)
  | updateTargets (bytes : Bytes) (now : Int)
  | updateDelegatedTargets (bytes : Bytes) (roleName delegatorName : String) (now : Int)

/-- The outcome of a call and the set it leaves. -/
def Call.apply (s : TrustedMetadataSet) : Call → Except Abort Unit × TrustedMetadataSet
  | updateRoot bytes => s.updateRoot E bytes
  | updateTimestamp bytes now => s.updateTimestamp E bytes now
  | updateSnapshot bytes now => s.updateSnapshot E bytes now
  | updateTargets bytes now =>
    let r := s.updateTargets E bytes now
    (r.1.map fun _ => (), r.2)
  | updateDelegatedTargets bytes roleName delegatorName now =>
    let r := s.updateDelegatedTargets E bytes roleName delegatorName now
    (r.1.map fun _ => (), r.2)

/-- The set that a call leaves, whether it succeeds or fails. -/
def step (s : TrustedMetadataSet) (c : Call) : TrustedMetadataSet := (c.apply E s).2

/-- The set after a list of calls. -/
def runCalls (s : TrustedMetadataSet) (calls : List Call) : TrustedMetadataSet :=
  Runs.run (step E) s calls

end

/-! ## A small repository -/

namespace Sample

/-- A metadata file with one signature, by the key `"k"`. -/
def signedBy (signed : Json) : Json :=
  .object [("signatures", .array [.object [("keyid", .string "k"), ("sig", .string "51")]]),
    ("signed", signed)]

/-- The members of a payload in key order, around those particular to its role. -/
def payload (typeName : String) (version : UInt64) (members : List (String × Json)) : Json :=
  .object ((("_type", Json.string typeName) :: ("expires", .string "2030-01-01T00:00:00Z") ::
    members) ++ [("spec_version", .string "1.0"), ("version", .number (.posInt version))])

def pins (members : List (String × UInt64)) : String × Json :=
  ("meta", .object (members.map fun p => (p.1, .object [("version", .number (.posInt p.2))])))

def keyring : String × Json :=
  ("keys", .object [("k", .object [("keytype", .string "ed25519"),
    ("keyval", .object [("public", .string (String.ofList (List.replicate 64 '0')))]),
    ("scheme", .string "ed25519")])])

def roleKeys : Json :=
  .object [("keyids", .array [.string "k"]), ("threshold", .number (.posInt 1))]

def root : Json := signedBy (payload "root" 1 [keyring, ("roles", .object [("root", roleKeys),
  ("snapshot", roleKeys), ("targets", roleKeys), ("timestamp", roleKeys)])])

def timestamp (version : UInt64) (metas : List (String × UInt64)) : Json :=
  signedBy (payload "timestamp" version [pins metas])

def snapshot (version : UInt64) : Json :=
  signedBy (payload "snapshot" version [pins [("d.json", 1), ("targets.json", 1)]])

def delegations : String × Json :=
  ("delegations", .object [keyring, ("roles", .array [.object [("keyids", .array [.string "k"]),
    ("name", .string "d"), ("threshold", .number (.posInt 1))]])])

def targets (members : List (String × Json)) : Json :=
  signedBy (payload "targets" 1 (members ++ [("targets", .object [])]))

/-- The file that holds a value: its canonical text. -/
def file (v : Json) : Bytes := (toCanonicalBytes v).toOption.getD []

/-- Every file of the repository. -/
def values : List Json :=
  [root, timestamp 1 [("snapshot.json", 5)], timestamp 2 [], timestamp 3 [("snapshot.json", 3)],
    snapshot 5, snapshot 3, targets [delegations], targets []]

/-- The primitives on the repository's one key, whose valid signature is `0x51`. -/
def primitives : Primitives :=
  { sha256 := fun _ => { bytes := List.replicate 32 0, length_bytes := rfl }
    sha384 := fun _ => []
    sha512 := fun _ => []
    verify := fun _ _ _ signature => signature == [0x51]
    verifyDigest := fun _ _ _ _ => .error ""
    spki := fun der =>
      .ok { algorithmOid := "1.3.101.112", parametersOid := none, rawBytes := der.drop 12 }
    pem := fun _ => .error "" }

def env : Env :=
  { primitives := primitives
    parseJson := fun bytes =>
      match values.find? fun v => file v == bytes with
      | some v => .ok v
      | none => .error (.custom "expected value at line 1 column 1")
    parseTimestamp := fun text =>
      if text = "2030-01-01T00:00:00Z" then some 1893456000000000000 else none
    overflowChecks := true }

end Sample

end Sigstore.Tuf
