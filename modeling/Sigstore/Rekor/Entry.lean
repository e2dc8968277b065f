import Sigstore.Types.BundleJson

/-!
# Log entries

The log entries of `sigstore-rekor` (`entry.rs`) in the two versions of the API, and the client's
calls that create an entry under the second version (`client.rs`): they convert the response to an
entry of the first, where numbers that do not parse become zero.
-/

namespace Sigstore.Rekor

open Checks Types Json

/-! ## Entries of the first version -/

/-- Inclusion proof from Rekor V1 API, with the hashes in hexadecimal. -/
structure RekorInclusionProof where
  checkpoint : String
  hashes : List String
  logIndex : Int64
  rootHash : String
  treeSize : Int64
  deriving DecidableEq

/-- Verification data for a log entry. -/
structure Verification where
  inclusionProof : Option RekorInclusionProof
  signedEntryTimestamp : Option Bytes
  deriving DecidableEq

/-- A log entry from Rekor. -/
structure LogEntry where
  /-- The key of the entry in the response, empty where the response has none. -/
  uuid : String
  body : Bytes
  integratedTime : Int64
  logId : HexLogId
  logIndex : Int64
  verification : Option Verification
  deriving DecidableEq

/-! ## Entries of the second version -/

/-- Inclusion proof V2, with its numbers as strings. -/
structure InclusionProofV2 where
  logIndex : String
  rootHash : Sha256Hash
  treeSize : String
  hashes : List Sha256Hash
  checkpoint : CheckpointData
  deriving DecidableEq

/-- V2 Log Entry response. -/
structure LogEntryV2 where
  logIndex : String
  logId : LogId
  kindVersion : KindVersion
  integratedTime : String
  inclusionPromise : Option InclusionPromise
  inclusionProof : Option InclusionProofV2
  canonicalizedBody : Bytes
  deriving DecidableEq

section
variable (C : Codec)

def InclusionProofV2.de : De InclusionProofV2 :=
  deRecord ["logIndex", "rootHash", "treeSize", "hashes", "checkpoint"] fun m => do
    return {
      logIndex := ← field m "logIndex" deString
      rootHash := ← field m "rootHash" (deSha256Hash C)
      treeSize := ← field m "treeSize" deString
      hashes := ← field m "hashes" (deVec (deSha256Hash C))
      checkpoint := ← field m "checkpoint" CheckpointData.de }

def LogEntryV2.de : De LogEntryV2 :=
  deRecord ["logIndex", "logId", "kindVersion", "integratedTime", "inclusionPromise",
      "inclusionProof", "canonicalizedBody"] fun m => do
    return {
      logIndex := ← field m "logIndex" deString
      logId := ← field m "logId" LogId.de
      kindVersion := ← field m "kindVersion" KindVersion.de
      integratedTime := ← field m "integratedTime" deString
      inclusionPromise := ← fieldOr m "inclusionPromise" none (deOption (InclusionPromise.de C))
      inclusionProof := ← fieldOr m "inclusionProof" none (deOption (InclusionProofV2.de C))
      canonicalizedBody := ← field m "canonicalizedBody" C.deBase64 }

end

/-! ## The client -/

/-- The errors of `sigstore-rekor` that the client returns. -/
inductive ClientError where
  | http (msg : String)
  | api (msg : String)
  deriving DecidableEq, Repr

/-- An HTTP response: its status line, and its body, which may fail to arrive. -/
structure Response where
  isSuccess : Bool
  status : String
  text : Except String String

/-- `str::parse::<i64>` with zero for what does not parse. -/
def parseOrDefault (s : String) : Int64 := (parseI64 s).getD 0

def RekorInclusionProof.ofV2 (p : InclusionProofV2) : RekorInclusionProof :=
  { checkpoint := p.checkpoint.envelope
    hashes := p.hashes.map Sha256Hash.toHex
    logIndex := parseOrDefault p.logIndex
    rootHash := p.rootHash.toHex
    treeSize := parseOrDefault p.treeSize }

/-- The conversion of a V2 entry, which `create_entry_v2` and `create_dsse_entry_v2` make alike. -/
def LogEntry.ofV2 (entryV2 : LogEntryV2) : LogEntry :=
  { uuid := ""
    body := entryV2.canonicalizedBody
    integratedTime := parseOrDefault entryV2.integratedTime
    logId := ⟨entryV2.logId.keyId⟩
    logIndex := parseOrDefault entryV2.logIndex
    verification := some {
      inclusionProof := entryV2.inclusionProof.map RekorInclusionProof.ofV2
      signedEntryTimestamp := entryV2.inclusionPromise.map InclusionPromise.signedEntryTimestamp } }

section
variable (C : Codec)

/-- What the client makes of the answer to a V2 entry; `failed` is its text for an answer that is
not a success. -/
def createV2 (failed : String) (response : Except String Response) :
    Except ClientError LogEntry := do
  let response ← response.mapError ClientError.http
  if !response.isSuccess then
    let body := response.text.toOption.getD ""
    throw (.api s!"{failed}: {response.status} - {body}")
  let responseText ← response.text.mapError ClientError.http
  let entryV2 ← (C.fromJson (LogEntryV2.de C) responseText).mapError fun e =>
    .http s!"failed to parse JSON: {e}"
  return LogEntry.ofV2 entryV2

/-- Create a new log entry (V2). -/
def createEntryV2 : Except String Response → Except ClientError LogEntry :=
  createV2 C "failed to create entry"

/-- Create a new DSSE log entry (V2). -/
def createDsseEntryV2 : Except String Response → Except ClientError LogEntry :=
  createV2 C "failed to create DSSE entry"

end

end Sigstore.Rekor
