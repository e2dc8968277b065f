import Sigstore.Types.Bundle

/-!
# Checkpoints

The checkpoint (signed tree head) of `sigstore-types` (`checkpoint.rs`) and its parser.
-/

namespace Sigstore.Types

open Checks

/-- A signature on a checkpoint. -/
structure CheckpointSignature where
  name : String
  keyId : KeyHint
  signature : Bytes
  deriving DecidableEq

/-- A checkpoint. `signedNoteText` is the text that its signatures sign. -/
structure Checkpoint where
  origin : String
  treeSize : UInt64
  rootHash : Sha256Hash
  otherContent : List String
  signatures : List CheckpointSignature
  signedNoteText : String
  deriving DecidableEq

namespace Checkpoint

variable (C : Codec)

/-- A signature line `— <name> <base64_signature>`. -/
def parseSignature (line : String) : Except Error CheckpointSignature := do
  rejectIf (¬ startsWith line "—")
    (.invalidCheckpoint "signature line must start with em dash (U+2014)")
  match splitWhitespace line with
  | _ :: name :: keyAndSigB64 :: _ => do
    let decoded ← (C.base64Decode keyAndSigB64).mapError fun _ =>
      .invalidCheckpoint "invalid signature base64"
    rejectIf (decoded.length < 5) (.invalidCheckpoint
      "signature too short (must be at least 5 bytes for key_id + signature)")
    let keyId ← KeyHint.tryFromSlice (decoded.take 4)
    return { name := name, keyId := keyId, signature := decoded.drop 4 }
  | _ => .error (.invalidCheckpoint
      "signature line must have format: — <name> <base64_signature>")

/-- The loop over the signature lines, which skips blank ones. -/
def parseSignatures : List String → Except Error (List CheckpointSignature)
  | [] => .ok []
  | line :: ls =>
    if trim line = "" then parseSignatures ls
    else do
      let sig ← parseSignature C (trim line)
      let sigs ← parseSignatures ls
      return sig :: sigs

/-- The next line of the body, trimmed, and those after it. -/
def nextLine (what : String) : List String → Except Error (String × List String)
  | [] => .error (.invalidCheckpoint s!"missing {what}")
  | line :: ls => .ok (trim line, ls)

/-- Parse a checkpoint from its body and the text of its signatures. -/
def fromParts (body signaturesText : String) : Except Error Checkpoint := do
  let (origin, ls) ← nextLine "origin" (lines body)
  rejectIf (origin = "") (.invalidCheckpoint "empty origin")
  let (treeSizeStr, ls) ← nextLine "tree size" ls
  let treeSize ← okOr (parseU64 treeSizeStr) (.invalidCheckpoint "invalid tree size")
  let (rootHashB64, ls) ← nextLine "root hash" ls
  let rootHashBytes ← (C.base64Decode rootHashB64).mapError fun _ =>
    .invalidCheckpoint "invalid root hash base64"
  let rootHash ← (Codec.sha256FromSlice rootHashBytes).mapError fun e =>
    .invalidCheckpoint s!"invalid root hash: {e.display}"
  let signatures ← parseSignatures C (lines signaturesText)
  rejectIf (signatures = []) (.invalidCheckpoint "no signatures found")
  return {
    origin := origin
    treeSize := treeSize
    rootHash := rootHash
    otherContent := (ls.map trim).filter (· ≠ "")
    signatures := signatures
    signedNoteText := body ++ "\n" }

/-- Parse a checkpoint from its text: the body and the signatures, split at the blank line. -/
def fromText (text : String) : Except Error Checkpoint :=
  if text = "" then .error (.invalidCheckpoint "empty checkpoint")
  else
    match splitBlankLine text.toList with
    | body :: signaturesText :: _ =>
      fromParts C (String.ofList body) (String.ofList signaturesText)
    | _ => .error (.invalidCheckpoint "missing blank line separator")

/-- The bytes that the signatures sign. -/
def signedData (c : Checkpoint) : Bytes := utf8Bytes c.signedNoteText

end Checkpoint

/-- Parse the text of an inclusion proof's checkpoint. -/
def CheckpointData.parse (C : Codec) (d : CheckpointData) : Except Error Checkpoint :=
  Checkpoint.fromText C d.envelope

end Sigstore.Types
