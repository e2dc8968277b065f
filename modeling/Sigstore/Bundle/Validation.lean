import Sigstore.Types.Bundle
import Sigstore.Types.Checkpoint

/-!
# Structural validation of bundles

`validate_bundle_with_options` of `sigstore-bundle` (`validation.rs`): the shape that each media
type requires, without any cryptography.
-/

namespace Sigstore.Bundle

open Checks Types

/-- Errors of bundle operations. -/
inductive Error where
  | validation (msg : String)
  deriving DecidableEq, Repr

/-- The text of an error. -/
def Error.display : Error → String
  | validation msg => s!"Bundle validation error: {msg}"

/-- Which materials must be present. -/
structure ValidationOptions where
  requireInclusionProof : Bool
  requireTimestamp : Bool
  deriving DecidableEq

section
variable (C : Codec)

/-- The well-formedness of an inclusion proof: its checkpoint parses and has its root hash, and its
index is below its tree size. -/
def validateProof (proof : InclusionProof) : Except Error Unit := do
  let checkpoint ← (proof.checkpoint.parse C).mapError fun e =>
    .validation s!"failed to parse checkpoint: {e.display}"
  let leafIndex ← okOr proof.logIndex.asU64 (.validation "invalid log_index in proof")
  let treeSize ← okOr (tryU64 proof.treeSize) (.validation "invalid tree_size in proof")
  rejectIf (leafIndex ≥ treeSize) (.validation
    s!"inclusion proof log_index {leafIndex} out of range for tree_size {treeSize}")
  rejectIf (checkpoint.rootHash ≠ proof.rootHash)
    (.validation "inclusion proof root hash does not match checkpoint root hash")

/-- The loop of `validate_inclusion_proof_structure`. -/
def validateInclusionProofStructure : List TransparencyLogEntry → Except Error Unit
  | [] => .ok ()
  | entry :: l => do
    whenSome entry.inclusionProof (validateProof C)
    validateInclusionProofStructure l

/-- The loop passes exactly where every proof that is there is well formed. -/
theorem validateInclusionProofStructure_eq_ok {entries : List TransparencyLogEntry} :
    validateInclusionProofStructure C entries = .ok () ↔
      ∀ entry ∈ entries, ∀ proof, entry.inclusionProof = some proof →
        validateProof C proof = .ok () := by
  have hloop : validateInclusionProofStructure C entries = .ok () ↔
      ∀ entry ∈ entries, whenSome entry.inclusionProof (validateProof C) = .ok () :=
    loop_eq_ok rfl fun _ _ => rfl
  simpa only [whenSome_eq_ok] using hloop

/-- Common structural validation for all bundle versions. -/
def validateCommon (bundle : Types.Bundle) (options : ValidationOptions) : Except Error Unit := do
  rejectIf (bundle.tlogEntries = [] ∧
      (options.requireInclusionProof = true ∨ bundle.timestamps = []))
    (.validation "bundle must have at least one tlog entry or timestamp verification data")
  rejectIf (options.requireTimestamp = true ∧ bundle.timestamps = [])
    (.validation "bundle must have timestamp verification data")

def validateV01 (bundle : Types.Bundle) (options : ValidationOptions) : Except Error Unit := do
  rejectIf (bundle.hasInclusionPromise = false)
    (.validation "v0.1 bundle must have inclusion promise")
  validateInclusionProofStructure C bundle.tlogEntries
  validateCommon bundle options

def validateV02 (bundle : Types.Bundle) (options : ValidationOptions) : Except Error Unit := do
  rejectIf (options.requireInclusionProof = true ∧ bundle.hasInclusionProof = false)
    (.validation "v0.2 bundle must have inclusion proof")
  validateInclusionProofStructure C bundle.tlogEntries
  validateCommon bundle options

/-- A v0.3 bundle has a single certificate or a public key. -/
def validateV03Content : VerificationMaterialContent → Except Error Unit
  | .certificate _ => .ok ()
  | .x509CertificateChain _ =>
    .error (.validation "v0.3 bundle must use single certificate, not chain")
  | .publicKey _ => .ok ()

def validateV03 (bundle : Types.Bundle) (options : ValidationOptions) : Except Error Unit := do
  validateV03Content bundle.verificationMaterial.content
  rejectIf (options.requireInclusionProof = true ∧ bundle.hasInclusionProof = false)
    (.validation "v0.3 bundle must have inclusion proof")
  validateInclusionProofStructure C bundle.tlogEntries
  validateCommon bundle options

/-- Structurally validate a bundle. -/
def validateBundleWithOptions (bundle : Types.Bundle) (options : ValidationOptions) :
    Except Error Unit := do
  let version ← bundle.version.mapError fun e =>
    .validation s!"invalid media type: {e.display}"
  match version with
  | .bundle01 => validateV01 C bundle options
  | .bundle02 => validateV02 C bundle options
  | .bundle03 => validateV03 C bundle options

/-- What a bundle that is validated for log verification has: an entry with a promise in a v0.1
bundle, and one with a proof in the others. -/
theorem validateBundleWithOptions_ok {bundle : Types.Bundle} {options : ValidationOptions}
    (hopt : options.requireInclusionProof = true)
    (h : validateBundleWithOptions C bundle options = .ok ()) :
    ∃ e ∈ bundle.tlogEntries, e.inclusionPromise.isSome ∧ bundle.version = .ok .bundle01 ∨
      e.inclusionProof.isSome := by
  simp only [validateBundleWithOptions, bind_eq_ok, mapError_eq_ok] at h
  obtain ⟨version, hversion, h⟩ := h
  cases version with
  | bundle01 =>
    simp only [validateV01, bind_eq_ok, rejectIf_eq_ok] at h
    obtain ⟨-, hpromise, -⟩ := h
    simp only [Bool.not_eq_false, Bundle.hasInclusionPromise, List.any_eq_true] at hpromise
    obtain ⟨e, he, hsome⟩ := hpromise
    exact ⟨e, he, .inl ⟨hsome, hversion⟩⟩
  | bundle02 =>
    simp only [validateV02, bind_eq_ok, rejectIf_eq_ok, hopt, true_and] at h
    obtain ⟨-, hproof, -⟩ := h
    simp only [Bool.not_eq_false, Bundle.hasInclusionProof, List.any_eq_true] at hproof
    obtain ⟨e, he, hsome⟩ := hproof
    exact ⟨e, he, .inr hsome⟩
  | bundle03 =>
    simp only [validateV03, bind_eq_ok, rejectIf_eq_ok, hopt, true_and] at h
    obtain ⟨-, -, -, hproof, -⟩ := h
    simp only [Bool.not_eq_false, Bundle.hasInclusionProof, List.any_eq_true] at hproof
    obtain ⟨e, he, hsome⟩ := hproof
    exact ⟨e, he, .inr hsome⟩

end

end Sigstore.Bundle
