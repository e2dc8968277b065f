import Sigstore.Checks
import Sigstore.Crypto.Verification
import Sigstore.Types.Json
import Sigstore.Types.Text

/-!
# TUF metadata

The signed envelope and the four top-level roles of `sigstore-tuf`: canonical JSON
(`canonical_json.rs`), keys (`key.rs`), the payloads and their deserialization (`metadata/`), and
`Metadata::from_slice` and `Metadata::verify_threshold`. The flattened `extra` maps and a target's
`custom` value, which nothing reads, are left out.
-/

namespace Sigstore.Tuf

open Sigstore.Crypto Checks

/-- Errors of parsing and verifying metadata. -/
inductive Error where
  | json (e : DeError)
  | malformed (msg : String)
  | nonIntegerNumber
  | unusableKey (keyId reason : String)
  | unsupportedScheme (keytype scheme : String)
  | unknownRole (role : String)
  | duplicateSignature (role keyId : String)
  | thresholdNotMet (role : String) (found : Nat) (threshold : UInt64)
  | rollback (role : String) (trusted new : UInt64)
  | equalVersion (role : String) (version : UInt64)
  | badRootVersion (trusted new : UInt64)
  | expired (role expires : String)
  | integrityMismatch (msg : String)
  | invalidTimestamp (value : String)
  | crypto (e : Crypto.Error)
  | transport (msg : String)
  deriving DecidableEq

/-- What the crate takes from outside: the cryptographic primitives, the JSON parser, the RFC 3339
parser of instants (in nanoseconds), and whether the build checks integer overflow. -/
structure Env where
  primitives : Primitives
  parseJson : Bytes → Except DeError Json
  parseTimestamp : String → Option Int
  overflowChecks : Bool

/-! ## Canonical JSON -/

/-- Only backslash and double quote are escaped. -/
def encodeString (s : String) : Bytes :=
  let escape (b : UInt8) : Bytes :=
    if b = 0x5c then [0x5c, 0x5c] else if b = 0x22 then [0x5c, 0x22] else [b]
  0x22 :: ((utf8Bytes s).flatMap escape ++ [0x22])

def joinComma (items : List Bytes) : Bytes := (items.intersperse [0x2c]).flatten

def encodeNumber : JsonNumber → Except Error Bytes
  | .posInt n => .ok (utf8Bytes (toString n.toNat))
  | .negInt i => .ok (utf8Bytes (toString i.toInt))
  | .float _ => .error .nonIntegerNumber

/-- The members of an object in key order, each as `"key":value`. -/
def joinMembers (members : List (String × Bytes)) : Bytes :=
  joinComma ((BTreeMap.ofList members).entries.map fun p => encodeString p.1 ++ 0x3a :: p.2)

mutual

/-- TUF canonical JSON bytes. -/
def toCanonicalBytes : Json → Except Error Bytes
  | .null => .ok (utf8Bytes "null")
  | .bool true => .ok (utf8Bytes "true")
  | .bool false => .ok (utf8Bytes "false")
  | .number n => encodeNumber n
  | .string s => .ok (encodeString s)
  | .array items => (encodeItems items).map fun bs => 0x5b :: (joinComma bs ++ [0x5d])
  | .object members => (encodeMembers members).map fun ms => 0x7b :: (joinMembers ms ++ [0x7d])

/-- The canonical bytes of the items of an array. -/
def encodeItems : List Json → Except Error (List Bytes)
  | [] => .ok []
  | v :: l => (toCanonicalBytes v).bind fun b => (encodeItems l).map (b :: ·)

/-- The canonical bytes of the values of an object. -/
def encodeMembers : List (String × Json) → Except Error (List (String × Bytes))
  | [] => .ok []
  | (k, v) :: l => (toCanonicalBytes v).bind fun b => (encodeMembers l).map ((k, b) :: ·)

end

/-! ## Keys -/

/-- A public key as declared in metadata; `keyvalPublic` is its `keyval.public`. -/
structure Key where
  keytype : String
  scheme : String
  keyvalPublic : String
  deriving DecidableEq

namespace Key

def de : Json.De Key := Json.deStruct fun m => do
  return {
    keytype := ← Json.field m "keytype" Json.deString
    scheme := ← Json.field m "scheme" Json.deString
    keyvalPublic := ← Json.field m "keyval"
      (Json.deStruct fun kv => Json.field kv "public" Json.deString) }

variable (P : Primitives)

/-- The canonical TUF key ID, or the empty string where there is none. -/
def keyIdOrDefault (k : Key) : String :=
  let value := Json.object [("keytype", .string k.keytype),
    ("keyval", .object [("public", .string k.keyvalPublic)]), ("scheme", .string k.scheme)]
  match toCanonicalBytes value with
  | .ok bs => (P.sha256 bs).toHex
  | .error _ => ""

/-- The signing scheme implied by the key's scheme. -/
def signingScheme (k : Key) : Except Error SigningScheme :=
  match k.scheme with
  | "ecdsa-sha2-nistp256" => .ok .ecdsaP256Sha256
  | "ecdsa-sha2-nistp384" => .ok .ecdsaP384Sha384
  | "ed25519" => .ok .ed25519
  | "rsassa-pss-sha256" => .ok .rsaPssSha256
  | "rsassa-pss-sha384" => .ok .rsaPssSha384
  | "rsassa-pss-sha512" => .ok .rsaPssSha512
  | _ => .error (.unsupportedScheme k.keytype k.scheme)

/-- `DerPublicKey::from_pem`. -/
def derFromPem (public_ : String) : Except String Bytes :=
  match P.pem public_ with
  | .error e => .error s!"Invalid encoding: failed to parse PEM: {e}"
  | .ok (tag, contents) =>
    if tag ≠ "PUBLIC KEY" then
      .error s!"Invalid encoding: expected PUBLIC KEY PEM block, got {tag}"
    else .ok contents

/-- Wrap a 32-byte raw ed25519 public key in a DER `SubjectPublicKeyInfo`. -/
def ed25519Spki (raw : Bytes) : Except Error Bytes :=
  if raw.length ≠ 32 then
    .error (.unusableKey "" s!"ed25519 public key must be 32 bytes, got {raw.length}")
  else
    .ok ([0x30, 0x2a, 0x30, 0x05, 0x06, 0x03, 0x2b, 0x65, 0x70, 0x03, 0x21, 0x00] ++ raw)

/-- A key usable for checking signatures, from a PEM block or a hex-encoded raw ed25519 key. -/
def verificationKey (k : Key) : Except Error VerificationKey := do
  let scheme ← k.signingScheme
  let public_ := trim k.keyvalPublic
  let der ←
    if startsWith public_ "-----BEGIN" then
      match derFromPem P public_ with
      | .ok der => pure der
      | .error e => throw (.unusableKey (k.keyIdOrDefault P) s!"invalid PEM public key: {e}")
    else if scheme = .ed25519 then
      match hexDecode public_ with
      | some raw => ed25519Spki raw
      | none =>
        throw (.unusableKey (k.keyIdOrDefault P) "ed25519 public key is not valid hex")
    else
      throw (.unusableKey (k.keyIdOrDefault P)
        "public key is neither PEM nor a hex ed25519 key")
  (VerificationKey.fromSpki P der scheme).mapError .crypto

end Key

/-! ## Roles -/

/-- The authorized keys and the signature threshold of a role. -/
structure RoleKeys where
  keyids : List String
  threshold : UInt64
  deriving DecidableEq

def RoleKeys.de : Json.De RoleKeys := Json.deStruct fun m => do
  return {
    keyids := ← Json.field m "keyids" (Json.deVec Json.deString)
    threshold := ← Json.field m "threshold" Json.deU64 }

/-- The `root` role. -/
structure Root where
  type_ : String
  specVersion : String
  version : UInt64
  expires : String
  consistentSnapshot : Bool
  keys : BTreeMap String Key
  roles : BTreeMap String RoleKeys

namespace Root

/-- The key and threshold binding of a named role. -/
def role (r : Root) (name : String) : Option RoleKeys := r.roles.get? name

def de : Json.De Root := Json.deStruct fun m => do
  return {
    type_ := ← Json.field m "_type" Json.deString
    specVersion := ← Json.field m "spec_version" Json.deString
    version := ← Json.field m "version" Json.deU64
    expires := ← Json.field m "expires" Json.deString
    consistentSnapshot := ← Json.fieldOr m "consistent_snapshot" false Json.deBool
    keys := ← Json.field m "keys" (Json.deMap Key.de)
    roles := ← Json.field m "roles" (Json.deMap RoleKeys.de) }

end Root

/-- A reference to another metadata file. -/
structure MetaFile where
  version : UInt64
  length : Option UInt64
  hashes : Option (BTreeMap String String)

def MetaFile.de : Json.De MetaFile := Json.deStruct fun m => do
  return {
    version := ← Json.field m "version" Json.deU64
    length := ← Json.fieldOr m "length" none (Json.deOption Json.deU64)
    hashes := ← Json.fieldOr m "hashes" none (Json.deOption (Json.deMap Json.deString)) }

/-- The `timestamp` role: pins the snapshot. -/
structure Timestamp where
  type_ : String
  specVersion : String
  version : UInt64
  expires : String
  metas : BTreeMap String MetaFile

namespace Timestamp

/-- The pinned `snapshot.json` reference, if present. -/
def snapshotMeta (t : Timestamp) : Option MetaFile := t.metas.get? "snapshot.json"

def de : Json.De Timestamp := Json.deStruct fun m => do
  return {
    type_ := ← Json.field m "_type" Json.deString
    specVersion := ← Json.field m "spec_version" Json.deString
    version := ← Json.field m "version" Json.deU64
    expires := ← Json.field m "expires" Json.deString
    metas := ← Json.field m "meta" (Json.deMap MetaFile.de) }

end Timestamp

/-- The `snapshot` role: pins the version of every targets file. -/
structure Snapshot where
  type_ : String
  specVersion : String
  version : UInt64
  expires : String
  metas : BTreeMap String MetaFile

def Snapshot.de : Json.De Snapshot := Json.deStruct fun m => do
  return {
    type_ := ← Json.field m "_type" Json.deString
    specVersion := ← Json.field m "spec_version" Json.deString
    version := ← Json.field m "version" Json.deU64
    expires := ← Json.field m "expires" Json.deString
    metas := ← Json.field m "meta" (Json.deMap MetaFile.de) }

/-- A delegated targets role. -/
structure DelegatedRole where
  name : String
  keyids : List String
  threshold : UInt64
  terminating : Bool
  paths : Option (List String)
  pathHashPrefixes : Option (List String)

namespace DelegatedRole

/-- The key and threshold binding this delegated role represents. -/
def roleKeys (r : DelegatedRole) : RoleKeys := { keyids := r.keyids, threshold := r.threshold }

def de : Json.De DelegatedRole := Json.deStruct fun m => do
  return {
    name := ← Json.field m "name" Json.deString
    keyids := ← Json.field m "keyids" (Json.deVec Json.deString)
    threshold := ← Json.field m "threshold" Json.deU64
    terminating := ← Json.fieldOr m "terminating" false Json.deBool
    paths := ← Json.fieldOr m "paths" none (Json.deOption (Json.deVec Json.deString))
    pathHashPrefixes := ← Json.fieldOr m "path_hash_prefixes" none
      (Json.deOption (Json.deVec Json.deString)) }

end DelegatedRole

/-- A `delegations` block. -/
structure Delegations where
  keys : BTreeMap String Key
  roles : List DelegatedRole

def Delegations.de : Json.De Delegations := Json.deStruct fun m => do
  return {
    keys := ← Json.field m "keys" (Json.deMap Key.de)
    roles := ← Json.fieldOr m "roles" [] (Json.deVec DelegatedRole.de) }

/-- A target file's metadata. -/
structure TargetFile where
  length : UInt64
  hashes : BTreeMap String String

def TargetFile.de : Json.De TargetFile := Json.deStruct fun m => do
  return {
    length := ← Json.field m "length" Json.deU64
    hashes := ← Json.field m "hashes" (Json.deMap Json.deString) }

/-- The `targets` role. -/
structure Targets where
  type_ : String
  specVersion : String
  version : UInt64
  expires : String
  targets : BTreeMap String TargetFile
  delegations : Option Delegations

def Targets.de : Json.De Targets := Json.deStruct fun m => do
  return {
    type_ := ← Json.field m "_type" Json.deString
    specVersion := ← Json.field m "spec_version" Json.deString
    version := ← Json.field m "version" Json.deU64
    expires := ← Json.field m "expires" Json.deString
    targets := ← Json.field m "targets" (Json.deMap TargetFile.de)
    delegations := ← Json.fieldOr m "delegations" none (Json.deOption Delegations.de) }

/-- A role payload: its `_type`, its deserialization, version and expiry. -/
class Role (T : Type) where
  typeName : String
  de : Json.De T
  version : T → UInt64
  expires : T → String

instance : Role Root :=
  { typeName := "root", de := Root.de, version := (·.version), expires := (·.expires) }

instance : Role Timestamp :=
  { typeName := "timestamp", de := Timestamp.de, version := (·.version), expires := (·.expires) }

instance : Role Snapshot :=
  { typeName := "snapshot", de := Snapshot.de, version := (·.version), expires := (·.expires) }

instance : Role Targets :=
  { typeName := "targets", de := Targets.de, version := (·.version), expires := (·.expires) }

/-! ## The signed envelope -/

/-- A signature over a metadata file's `signed` object. -/
structure Signature where
  keyid : String
  sig : String
  deriving DecidableEq

/-- A signature is a struct without flattened extras, which may also be written as the sequence of
its fields. -/
def Signature.de : Json.De Signature
  | .object m => do
    return {
      keyid := ← Json.field m "keyid" Json.deString
      sig := ← Json.field m "sig" Json.deString }
  | .array [keyid, sig] => do
    return { keyid := ← Json.deString keyid, sig := ← Json.deString sig }
  | .array _ => .error .invalidLength
  | _ => .error (.invalidType "struct Signature")

/-- A parsed, signed metadata file. -/
structure Metadata (T : Type) where
  signatures : List Signature
  signed : T
  /-- The canonical bytes of the `signed` object, which the signatures cover. -/
  canonicalSigned : Bytes

namespace Metadata

/-- Parse a signed metadata file from raw JSON bytes. -/
def fromSlice (E : Env) {T : Type} [Role T] (bytes : Bytes) : Except Error (Metadata T) := do
  let value ← (E.parseJson bytes).mapError .json
  let obj ← okOr value.asObject (.malformed "top level is not a JSON object")
  let signedValue ← okOr (obj.lookup "signed") (.malformed "missing `signed`")
  let signaturesValue ← okOr (obj.lookup "signatures") (.malformed "missing `signatures`")
  whenSome ((signedValue.get "_type").bind Json.asStr) fun t =>
    rejectIf (t ≠ Role.typeName T)
      (.malformed s!"expected _type {debugStr (Role.typeName T)}, found {debugStr t}")
  whenSome ((signedValue.get "spec_version").bind Json.asStr) fun sv =>
    rejectIf (splitFirst sv '.' ≠ "1") (.malformed
      s!"unsupported TUF spec_version {debugStr sv} (this client implements 1.x)")
  let canonicalSigned ← toCanonicalBytes signedValue
  let signatures ← (Json.deVec Signature.de signaturesValue).mapError .json
  let signed ← (Role.de (T := T) signedValue).mapError .json
  return { signatures := signatures, signed := signed, canonicalSigned := canonicalSigned }

variable {T : Type}

/-- Whether a signature verifies over the canonical bytes under the key of its key ID. A missing
key, a signature that is not hex and an unusable key are skipped. -/
def signatureValid (P : Primitives) (keys : BTreeMap String Key) (canonical : Bytes)
    (sig : Signature) : Bool :=
  match keys.get? sig.keyid with
  | none => false
  | some key =>
    match hexDecode sig.sig with
    | none => false
    | some raw =>
      match key.verificationKey P with
      | .error _ => false
      | .ok vkey => (vkey.verify P canonical raw).isOk

/-- The loop of `verify_threshold` over the signatures, with the sets `seen` and `good`. -/
def thresholdLoop (P : Primitives) (keys : BTreeMap String Key) (roleKeys : RoleKeys)
    (roleName : String) (canonical : Bytes) :
    List String → List String → List Signature → Except Error (List String)
  | _, good, [] => .ok good
  | seen, good, sig :: sigs =>
    if sig.keyid ∉ roleKeys.keyids then
      thresholdLoop P keys roleKeys roleName canonical seen good sigs
    else if sig.sig = "" then
      thresholdLoop P keys roleKeys roleName canonical seen good sigs
    else if sig.keyid ∈ seen then .error (.duplicateSignature roleName sig.keyid)
    else
      thresholdLoop P keys roleKeys roleName canonical (sig.keyid :: seen)
        (if signatureValid P keys canonical sig then good.insert sig.keyid else good) sigs

/-- Verify that a metadata file carries a threshold of valid signatures from distinct keys. -/
def verifyThreshold (P : Primitives) (m : Metadata T) (keys : BTreeMap String Key)
    (roleKeys : RoleKeys) (roleName : String) : Except Error Unit :=
  if roleKeys.threshold = 0 then
    .error (.malformed
      s!"role {roleName} declares signature threshold 0; at least 1 is required")
  else
    (thresholdLoop P keys roleKeys roleName m.canonicalSigned [] [] m.signatures).bind fun good =>
      if good.length ≥ roleKeys.threshold.toNat then .ok ()
      else .error (.thresholdNotMet roleName good.length roleKeys.threshold)

end Metadata

end Sigstore.Tuf
