import Sigstore.Types.Bundle
import Sigstore.Types.Serialize

/-!
# Bundles in JSON

The serialization and deserialization of a bundle (`bundle.rs`, `dsse.rs`, `encoding.rs`). Every
part of a bundle is read back as it was, except for a message digest: its base64 text is taken for
hexadecimal where it has only hexadecimal digits (`fromJson_toJson_iff`).
-/

namespace Sigstore.Types

open Checks Json

/-! ## Encoded values -/

/-- `char::is_ascii_hexdigit`. -/
def isAsciiHexdigit (c : Char) : Bool := (hexValue c).isSome

/-- `LogIndex` as a string, as the protobuf JSON of 64-bit integers has it. -/
def LogIndex.ser (i : LogIndex) : Json := .string (toString i.value.toInt)

/-- A log index, from an integer or a string. -/
def LogIndex.de : De LogIndex
  | .number (.posInt n) => .ok ⟨n.toInt64⟩
  | .number (.negInt i) => .ok ⟨i⟩
  | .string s => (okOr (parseI64 s) (.custom s!"invalid log index: {s}")).map LogIndex.mk
  | _ => .error (.invalidType "an integer or string representing a log index")

/-- `HashAlgorithm::fmt`. -/
def hashAlgorithmDisplay : HashAlgorithm → String
  | .sha2256 => "SHA2_256"
  | .sha2384 => "SHA2_384"
  | .sha2512 => "SHA2_512"

/-- `HashAlgorithm` by its display name, one of the three that `deHashAlgorithm` reads. -/
def serHashAlgorithm (algo : HashAlgorithm) : Json := .string (hashAlgorithmDisplay algo)

section
variable (C : Codec)

/-- `Sha256Hash::from_base64`. -/
def sha256FromBase64 (s : String) : Except Error Sha256Hash := do
  let bs ← C.fromBase64 s
  Codec.sha256FromSlice bs

/-- `Sha256Hash::from_hex_or_base64`. -/
def sha256FromHexOrBase64 (s : String) : Except Error Sha256Hash :=
  if (utf8Bytes s).length = 64 ∧ s.toList.all isAsciiHexdigit then C.sha256FromHex s
  else sha256FromBase64 C s

/-- `Sha256Hash` is written in base64 always, and read in either form. -/
def serSha256Hash (hash : Sha256Hash) : Json := C.serBase64 hash.bytes

/-- `Sha256Hash`, from 64 hexadecimal digits or base64. The base64 text of 32 bytes has 44
characters, so that no text is in both forms. -/
def deSha256Hash : De Sha256Hash := fun v => do
  let s ← deString v
  (sha256FromHexOrBase64 C s).mapError fun e => .custom e.display

/-- `DigestBytes` is written in base64 always. -/
def serDigestBytes (digest : Bytes) : Json := C.serBase64 digest

/-- `DigestBytes`, from hexadecimal or base64. -/
def deDigestBytes : De Bytes := fun v => do
  let s ← deString v
  if (utf8Bytes s).length % 2 = 0 ∧ s.toList.all isAsciiHexdigit then
    okOr (hexDecode s) (.custom (C.hexError s))
  else (C.base64Decode s).mapError .custom

/-! ## The content -/

def MessageDigest.ser (d : MessageDigest) : Json :=
  record [("algorithm", some (serHashAlgorithm d.algorithm)),
    ("digest", some (serDigestBytes C d.digest))]

/-- The digest has no fixed length, so that its base64 text can be read as hexadecimal digits. -/
def MessageDigest.de : De MessageDigest := deRecord ["algorithm", "digest"] fun m => do
  return {
    algorithm := ← field m "algorithm" deHashAlgorithm
    digest := ← field m "digest" (deDigestBytes C) }

/-- A missing digest is skipped. -/
def MessageSignature.ser (s : MessageSignature) : Json :=
  record [("messageDigest", s.messageDigest.map (MessageDigest.ser C)),
    ("signature", some (C.serBase64 s.signature))]

/-- A digest that is `null` is a missing one. -/
def MessageSignature.de : De MessageSignature :=
  deRecord ["messageDigest", "signature"] fun m => do
    return {
      messageDigest := ← fieldOr m "messageDigest" none (deOption (MessageDigest.de C))
      signature := ← field m "signature" C.deBase64 }

/-- An empty key id is skipped. -/
def DsseSignature.ser (s : DsseSignature) : Json :=
  record [("sig", some (C.serBase64 s.sig)),
    ("keyid", if s.keyid = "" then none else some (.string s.keyid))]

/-- A missing key id is empty. -/
def DsseSignature.de : De DsseSignature := deRecordFrom 1 ["sig", "keyid"] fun m => do
  return { sig := ← field m "sig" C.deBase64, keyid := ← fieldOr m "keyid" "" deString }

/-- The payload is written in base64; the signatures are over its bytes. -/
def DsseEnvelope.ser (e : DsseEnvelope) : Json :=
  record [("payloadType", some (.string e.payloadType)),
    ("payload", some (C.serBase64 e.payload)),
    ("signatures", some (serVec (DsseSignature.ser C) e.signatures))]

/-- All three fields are required; the list of signatures may be empty. -/
def DsseEnvelope.de : De DsseEnvelope :=
  deRecord ["payloadType", "payload", "signatures"] fun m => do
    return {
      payloadType := ← field m "payloadType" deString
      payload := ← field m "payload" C.deBase64
      signatures := ← field m "signatures" (deVec (DsseSignature.de C)) }

/-- The variant's name with its value. -/
def SignatureContent.ser : SignatureContent → String × Json
  | .messageSignature sig => ("messageSignature", sig.ser C)
  | .dsseEnvelope envelope => ("dsseEnvelope", envelope.ser C)

/-- The one member that names a variant; the flattened enum is chosen by it. -/
def SignatureContent.de : List (String × Json) → Except DeError SignatureContent :=
  deVariant "SignatureContent" [
    ("messageSignature", fun v => (MessageSignature.de C v).map .messageSignature),
    ("dsseEnvelope", fun v => (DsseEnvelope.de C v).map .dsseEnvelope)]

/-! ## The verification material -/

/-- A certificate: `CertificateContent` and `X509Certificate`. -/
def serX509Certificate (rawBytes : Bytes) : Json :=
  record [("rawBytes", some (C.serBase64 rawBytes))]

def deX509Certificate : De Bytes := deRecord ["rawBytes"] fun m => field m "rawBytes" C.deBase64

/-- The variant's name with its value. -/
def VerificationMaterialContent.ser : VerificationMaterialContent → String × Json
  | .certificate rawBytes => ("certificate", serX509Certificate C rawBytes)
  | .x509CertificateChain certificates => ("x509CertificateChain",
      record [("certificates", some (serVec (serX509Certificate C) certificates))])
  | .publicKey hint => ("publicKey", record [("hint", some (.string hint))])

def VerificationMaterialContent.de :
    List (String × Json) → Except DeError VerificationMaterialContent :=
  deVariant "VerificationMaterialContent" [
    ("certificate", fun v => (deX509Certificate C v).map .certificate),
    ("x509CertificateChain", fun v => (deRecord ["certificates"] (fun m =>
      field m "certificates" (deVec (deX509Certificate C))) v).map .x509CertificateChain),
    ("publicKey", fun v =>
      (deRecord ["hint"] (fun m => field m "hint" deString) v).map .publicKey)]

def LogId.ser (i : LogId) : Json := record [("keyId", some (.string i.keyId))]

/-- The text is not decoded here. -/
def LogId.de : De LogId := deRecord ["keyId"] fun m => do
  return { keyId := ← field m "keyId" deString }

def KindVersion.ser (k : KindVersion) : Json :=
  record [("kind", some (.string k.kind)), ("version", some (.string k.version))]

/-- Any two strings; whether they name a known type of entry is found out later. -/
def KindVersion.de : De KindVersion := deRecord ["kind", "version"] fun m => do
  return { kind := ← field m "kind" deString, version := ← field m "version" deString }

def InclusionPromise.ser (p : InclusionPromise) : Json :=
  record [("signedEntryTimestamp", some (C.serBase64 p.signedEntryTimestamp))]

def InclusionPromise.de : De InclusionPromise := deRecord ["signedEntryTimestamp"] fun m => do
  return { signedEntryTimestamp := ← field m "signedEntryTimestamp" C.deBase64 }

/-- The envelope is a text with line feeds, which JSON escapes. -/
def CheckpointData.ser (c : CheckpointData) : Json :=
  record [("envelope", some (.string c.envelope))]

/-- A missing envelope is empty, which counts as no checkpoint. -/
def CheckpointData.de : De CheckpointData := deRecordFrom 0 ["envelope"] fun m => do
  return { envelope := ← fieldOr m "envelope" "" deString }

/-- An empty checkpoint is skipped. -/
def InclusionProof.ser (p : InclusionProof) : Json :=
  record [("logIndex", some p.logIndex.ser), ("rootHash", some (serSha256Hash C p.rootHash)),
    ("treeSize", some (serStringI64 p.treeSize)),
    ("hashes", some (serVec (serSha256Hash C) p.hashes)),
    ("checkpoint", if p.checkpoint.envelope = "" then none else some p.checkpoint.ser)]

/-- A missing index is 0, missing hashes are none, and a missing checkpoint is empty. -/
def InclusionProof.de : De InclusionProof :=
  deRecordFrom 3 ["logIndex", "rootHash", "treeSize", "hashes", "checkpoint"] fun m => do
    return {
      logIndex := ← fieldOr m "logIndex" ⟨0⟩ LogIndex.de
      rootHash := ← field m "rootHash" (deSha256Hash C)
      treeSize := ← field m "treeSize" deStringI64
      hashes := ← fieldOr m "hashes" [] (deVec (deSha256Hash C))
      checkpoint := ← fieldOr m "checkpoint" ⟨""⟩ CheckpointData.de }

/-- An integrated time of 0 is skipped, and so are a missing promise and proof. -/
def TransparencyLogEntry.ser (e : TransparencyLogEntry) : Json :=
  record [("logIndex", some e.logIndex.ser), ("logId", some e.logId.ser),
    ("kindVersion", some e.kindVersion.ser),
    ("integratedTime", if e.integratedTime = 0 then none else some (serStringI64 e.integratedTime)),
    ("inclusionPromise", e.inclusionPromise.map (InclusionPromise.ser C)),
    ("inclusionProof", e.inclusionProof.map (InclusionProof.ser C)),
    ("canonicalizedBody", some (C.serBase64 e.canonicalizedBody))]

/-- A missing index and a missing integrated time are 0. -/
def TransparencyLogEntry.de : De TransparencyLogEntry :=
  deRecord ["logIndex", "logId", "kindVersion", "integratedTime", "inclusionPromise",
      "inclusionProof", "canonicalizedBody"] fun m => do
    return {
      logIndex := ← fieldOr m "logIndex" ⟨0⟩ LogIndex.de
      logId := ← field m "logId" LogId.de
      kindVersion := ← field m "kindVersion" KindVersion.de
      integratedTime := ← fieldOr m "integratedTime" 0 deStringI64
      inclusionPromise := ← fieldOr m "inclusionPromise" none (deOption (InclusionPromise.de C))
      inclusionProof := ← fieldOr m "inclusionProof" none (deOption (InclusionProof.de C))
      canonicalizedBody := ← field m "canonicalizedBody" C.deBase64 }

def Rfc3161Timestamp.ser (t : Rfc3161Timestamp) : Json :=
  record [("signedTimestamp", some (C.serBase64 t.signedTimestamp))]

/-- The token is not parsed here. -/
def Rfc3161Timestamp.de : De Rfc3161Timestamp := deRecord ["signedTimestamp"] fun m => do
  return { signedTimestamp := ← field m "signedTimestamp" C.deBase64 }

/-- An empty list is skipped. -/
def TimestampVerificationData.ser (d : TimestampVerificationData) : Json :=
  record [("rfc3161Timestamps", if d.rfc3161Timestamps = [] then none
    else some (serVec (Rfc3161Timestamp.ser C) d.rfc3161Timestamps))]

/-- A missing list is empty. -/
def TimestampVerificationData.de : De TimestampVerificationData :=
  deRecordFrom 0 ["rfc3161Timestamps"] fun m => do
    return { rfc3161Timestamps := ←
      fieldOr m "rfc3161Timestamps" [] (deVec (Rfc3161Timestamp.de C)) }

/-- The content's variant comes first, among the fields of the struct. -/
def VerificationMaterial.ser (m : VerificationMaterial) : Json :=
  record [((m.content.ser C).1, some (m.content.ser C).2),
    ("tlogEntries", some (serVec (TransparencyLogEntry.ser C) m.tlogEntries)),
    ("timestampVerificationData", some (m.timestampVerificationData.ser C))]

/-- Missing timestamps, or `null` in their place, are none. -/
def VerificationMaterial.de : De VerificationMaterial :=
  deFlatten ["tlogEntries", "timestampVerificationData"] fun m rest => do
    let tlogEntries ← fieldOr m "tlogEntries" [] (deVec (TransparencyLogEntry.de C))
    let timestampVerificationData ← fieldOr m "timestampVerificationData" ⟨[]⟩
      (deNullAsDefault ⟨[]⟩ (TimestampVerificationData.de C))
    let content ← VerificationMaterialContent.de C rest
    return {
      content := content
      tlogEntries := tlogEntries
      timestampVerificationData := timestampVerificationData }

/-! ## The bundle -/

/-- The media type of bundles that do not have one. -/
def defaultMediaType : String := "application/vnd.dev.sigstore.bundle+json;version=0.1"

/-- The content's variant comes last, among the fields of the struct. -/
def Bundle.ser (b : Bundle) : Json :=
  record [("mediaType", some (.string b.mediaType)),
    ("verificationMaterial", some (b.verificationMaterial.ser C)),
    ((b.content.ser C).1, some (b.content.ser C).2)]

/-- A missing media type is that of the first version. -/
def Bundle.de : De Bundle := deFlatten ["mediaType", "verificationMaterial"] fun m rest => do
  let mediaType ← fieldOr m "mediaType" defaultMediaType deString
  let verificationMaterial ← field m "verificationMaterial" (VerificationMaterial.de C)
  let content ← SignatureContent.de C rest
  return {
    mediaType := mediaType
    verificationMaterial := verificationMaterial
    content := content }

/-- `Bundle::from_json`. -/
def Bundle.fromJson (json : String) : Except String Bundle := C.fromJson (Bundle.de C) json

/-- `Bundle::to_json`, over the printer of JSON values. -/
def Bundle.toJson (print : Json → Except String String) (b : Bundle) : Except String String :=
  print (b.ser C)

end

end Sigstore.Types
