import Sigstore.Types.Encoding

/-!
# Bundles

The bundle of `sigstore-types` (`bundle.rs`), the DSSE envelope and its pre-authentication encoding
(`dsse.rs`), the in-toto statement (`intoto.rs`), and artifacts (`artifact.rs`).
-/

namespace Sigstore.Types

open Checks

/-! ## Envelopes and statements -/

/-- A signature in a DSSE envelope. -/
structure DsseSignature where
  sig : Bytes
  keyid : String
  deriving DecidableEq

/-- A DSSE envelope containing a signed payload. -/
structure DsseEnvelope where
  payloadType : String
  payload : Bytes
  signatures : List DsseSignature
  deriving DecidableEq

/-- The pre-authentication encoding `DSSEv1 <len(type)> <type> <len(body)> <body>`. -/
def pae (payloadType : String) (payload : Bytes) : Bytes :=
  utf8Bytes "DSSEv1 " ++
  utf8Bytes s!"{(utf8Bytes payloadType).length} " ++
  (utf8Bytes payloadType ++ [0x20]) ++
  utf8Bytes s!"{payload.length} " ++
  payload

/-- The bytes that an envelope's signatures sign. -/
def DsseEnvelope.pae (envelope : DsseEnvelope) : Bytes :=
  Types.pae envelope.payloadType envelope.payload

/-- A subject of an in-toto statement: a name and the digests of the artifact. -/
structure Subject where
  name : String
  sha256 : Option String
  sha512 : Option String
  deriving DecidableEq

/-- An in-toto statement. -/
structure Statement where
  type_ : String
  subject : List Subject
  predicateType : String
  predicate : Json

namespace Statement

def deDigest : Json.De (Option String × Option String) :=
  Json.deRecord ["sha256", "sha512"] fun m => do
    let sha256 ← Json.fieldOr m "sha256" none (Json.deOption Json.deString)
    let sha512 ← Json.fieldOr m "sha512" none (Json.deOption Json.deString)
    return (sha256, sha512)

def deSubject : Json.De Subject := Json.deRecord ["name", "digest"] fun m => do
  let name ← Json.fieldOr m "name" "" Json.deString
  let digest ← Json.field m "digest" deDigest
  return { name := name, sha256 := digest.1, sha512 := digest.2 }

def de : Json.De Statement :=
  Json.deRecord ["_type", "subject", "predicateType", "predicate"] fun m => do
    return {
      type_ := ← Json.field m "_type" Json.deString
      subject := ← Json.field m "subject" (Json.deVec deSubject)
      predicateType := ← Json.field m "predicateType" Json.deString
      predicate := ← Json.field m "predicate" Json.deValue }

/-- Whether any subject of the statement has the given SHA-256 hash. -/
def matchesSha256 (s : Statement) (hashHex : String) : Bool :=
  s.subject.any fun subject => subject.sha256.any fun h => h == hashHex

end Statement

/-- An artifact to be verified: its bytes, or a digest of them. -/
inductive Artifact where
  | bytes (bytes : Bytes)
  | digest (hash : Bytes)
  deriving DecidableEq

/-! ## The bundle -/

/-- Bundle media types. -/
inductive MediaType where
  | bundle01
  | bundle02
  | bundle03
  deriving DecidableEq, Repr

def MediaType.fromStr (s : String) : Except Error MediaType :=
  match s with
  | "application/vnd.dev.sigstore.bundle+json;version=0.1" => .ok .bundle01
  | "application/vnd.dev.sigstore.bundle+json;version=0.2" => .ok .bundle02
  | "application/vnd.dev.sigstore.bundle.v0.3+json" => .ok .bundle03
  | "application/vnd.dev.sigstore.bundle+json;version=0.3" => .ok .bundle03
  | _ => .error (.invalidMediaType s)

/-- Message digest with algorithm. -/
structure MessageDigest where
  algorithm : HashAlgorithm
  digest : Bytes
  deriving DecidableEq

/-- A simple message signature. -/
structure MessageSignature where
  messageDigest : Option MessageDigest
  signature : Bytes
  deriving DecidableEq

/-- The signature content. -/
inductive SignatureContent where
  | messageSignature (sig : MessageSignature)
  | dsseEnvelope (envelope : DsseEnvelope)
  deriving DecidableEq

/-- The certificate (DER), the certificate chain, or the hint of a public key. -/
inductive VerificationMaterialContent where
  | certificate (rawBytes : Bytes)
  | x509CertificateChain (certificates : List Bytes)
  | publicKey (hint : String)
  deriving DecidableEq

/-- Entry kind and version. -/
structure KindVersion where
  kind : String
  version : String
  deriving DecidableEq

/-- Inclusion promise: the signed entry timestamp (SET). -/
structure InclusionPromise where
  signedEntryTimestamp : Bytes
  deriving DecidableEq

/-- The text of a checkpoint. -/
structure CheckpointData where
  envelope : String
  deriving DecidableEq

/-- Inclusion proof in the Merkle tree. -/
structure InclusionProof where
  logIndex : LogIndex
  rootHash : Sha256Hash
  treeSize : Int64
  hashes : List Sha256Hash
  checkpoint : CheckpointData
  deriving DecidableEq

/-- Log identifier, in base64. -/
structure LogId where
  keyId : String
  deriving DecidableEq

/-- A transparency log entry. -/
structure TransparencyLogEntry where
  logIndex : LogIndex
  logId : LogId
  kindVersion : KindVersion
  /-- Unix time; 0 where it is omitted. -/
  integratedTime : Int64
  inclusionPromise : Option InclusionPromise
  inclusionProof : Option InclusionProof
  canonicalizedBody : Bytes
  deriving DecidableEq

/-- An RFC 3161 timestamp. -/
structure Rfc3161Timestamp where
  signedTimestamp : Bytes
  deriving DecidableEq

/-- RFC 3161 timestamp verification data. -/
structure TimestampVerificationData where
  rfc3161Timestamps : List Rfc3161Timestamp
  deriving DecidableEq

/-- The certificate or key, the log entries and the timestamps. -/
structure VerificationMaterial where
  content : VerificationMaterialContent
  tlogEntries : List TransparencyLogEntry
  timestampVerificationData : TimestampVerificationData
  deriving DecidableEq

/-- A bundle. -/
structure Bundle where
  mediaType : String
  verificationMaterial : VerificationMaterial
  content : SignatureContent
  deriving DecidableEq

namespace Bundle

def version (b : Bundle) : Except Error MediaType := MediaType.fromStr b.mediaType

/-- The log entries of a bundle. -/
abbrev tlogEntries (b : Bundle) : List TransparencyLogEntry := b.verificationMaterial.tlogEntries

/-- The RFC 3161 timestamps of a bundle. -/
abbrev timestamps (b : Bundle) : List Rfc3161Timestamp :=
  b.verificationMaterial.timestampVerificationData.rfc3161Timestamps

/-- The signing certificate, where the bundle has one. -/
def signingCertificate (b : Bundle) : Option Bytes :=
  match b.verificationMaterial.content with
  | .certificate rawBytes => some rawBytes
  | .x509CertificateChain certificates => certificates.head?
  | .publicKey _ => none

def hasInclusionProof (b : Bundle) : Bool := b.tlogEntries.any fun e => e.inclusionProof.isSome

def hasInclusionPromise (b : Bundle) : Bool := b.tlogEntries.any fun e => e.inclusionPromise.isSome

end Bundle

end Sigstore.Types
