import Sigstore.Types.Hash

/-!
# Signature verification

The signing schemes of `sigstore-crypto`, the scheme that a key algorithm and a hash algorithm
determine, and `VerificationKey`. The primitives themselves (`aws-lc-rs`, `sha2`), and the `spki`
and `pem` parsers, are third-party packages: `Primitives` holds them as parameters.
-/

namespace Sigstore.Crypto

/-- Errors of cryptographic operations. -/
inductive Error where
  | verification (msg : String)
  | unsupportedAlgorithm (msg : String)
  | der (msg : String)
  | checkpoint (msg : String)
  | invalidCertificate (msg : String)
  | invalidKey (msg : String)
  deriving DecidableEq, Repr

/-- The text of an error. -/
def Error.display : Error → String
  | verification msg => s!"Verification error: {msg}"
  | unsupportedAlgorithm msg => s!"Unsupported algorithm: {msg}"
  | der msg => s!"DER error: {msg}"
  | checkpoint msg => s!"Checkpoint error: {msg}"
  | invalidCertificate msg => s!"Certificate error: {msg}"
  | invalidKey msg => s!"Invalid key: {msg}"

/-- Supported signing schemes. -/
inductive SigningScheme where
  | ecdsaP256Sha256
  | ecdsaP256Sha384
  | ecdsaP384Sha256
  | ecdsaP384Sha384
  | ed25519
  | rsaPssSha256
  | rsaPssSha384
  | rsaPssSha512
  | rsaPkcs1Sha256
  | rsaPkcs1Sha384
  | rsaPkcs1Sha512
  deriving DecidableEq, Repr

namespace SigningScheme

/-- The scheme's name in the message of a signature that does not verify. -/
def label : SigningScheme → String
  | ecdsaP256Sha256 => "ECDSA P-256 SHA-256"
  | ecdsaP256Sha384 => "ECDSA P-256 SHA-384"
  | ecdsaP384Sha256 => "ECDSA P-384 SHA-256"
  | ecdsaP384Sha384 => "ECDSA P-384 SHA-384"
  | ed25519 => "Ed25519"
  | rsaPssSha256 => "RSA PSS SHA-256"
  | rsaPssSha384 => "RSA PSS SHA-384"
  | rsaPssSha512 => "RSA PSS SHA-512"
  | rsaPkcs1Sha256 => "RSA PKCS#1 SHA-256"
  | rsaPkcs1Sha384 => "RSA PKCS#1 SHA-384"
  | rsaPkcs1Sha512 => "RSA PKCS#1 SHA-512"

/-- The scheme's name. -/
def name : SigningScheme → String
  | ecdsaP256Sha256 => "ECDSA_P256_SHA256"
  | ecdsaP256Sha384 => "ECDSA_P256_SHA384"
  | ecdsaP384Sha256 => "ECDSA_P384_SHA256"
  | ecdsaP384Sha384 => "ECDSA_P384_SHA384"
  | ed25519 => "ED25519"
  | rsaPssSha256 => "RSA_PSS_SHA256"
  | rsaPssSha384 => "RSA_PSS_SHA384"
  | rsaPssSha512 => "RSA_PSS_SHA512"
  | rsaPkcs1Sha256 => "RSA_PKCS1_SHA256"
  | rsaPkcs1Sha384 => "RSA_PKCS1_SHA384"
  | rsaPkcs1Sha512 => "RSA_PKCS1_SHA512"

/-- The scheme's name in Rust's debug format. -/
def debug : SigningScheme → String
  | ecdsaP256Sha256 => "EcdsaP256Sha256"
  | ecdsaP256Sha384 => "EcdsaP256Sha384"
  | ecdsaP384Sha256 => "EcdsaP384Sha256"
  | ecdsaP384Sha384 => "EcdsaP384Sha384"
  | ed25519 => "Ed25519"
  | rsaPssSha256 => "RsaPssSha256"
  | rsaPssSha384 => "RsaPssSha384"
  | rsaPssSha512 => "RsaPssSha512"
  | rsaPkcs1Sha256 => "RsaPkcs1Sha256"
  | rsaPkcs1Sha384 => "RsaPkcs1Sha384"
  | rsaPkcs1Sha512 => "RsaPkcs1Sha512"

/-- Ed25519 signs the full message, so it has no prehashed verification. -/
def supportsPrehashed (s : SigningScheme) : Bool := s != ed25519

/-- The hash over which `verify_prehashed` takes a digest, where it supports the scheme. -/
def prehash : SigningScheme → Option HashAlgorithm
  | ecdsaP256Sha256 | ecdsaP384Sha256 | rsaPssSha256 | rsaPkcs1Sha256 => some .sha2256
  | ecdsaP256Sha384 | ecdsaP384Sha384 | rsaPssSha384 | rsaPkcs1Sha384 => some .sha2384
  | rsaPssSha512 | rsaPkcs1Sha512 => some .sha2512
  | ed25519 => none

end SigningScheme

/-- Key algorithm derived from the certificate or public key. -/
inductive KeyAlgorithm where
  | ecdsaP256
  | ecdsaP384
  | ed25519
  | rsa
  deriving DecidableEq, Repr

namespace KeyAlgorithm

def defaultSigningScheme : KeyAlgorithm → SigningScheme
  | ecdsaP256 => .ecdsaP256Sha256
  | ecdsaP384 => .ecdsaP384Sha384
  | ed25519 => .ed25519
  | rsa => .rsaPkcs1Sha256

/-- The signing scheme of the key algorithm with a specific hash algorithm. -/
def resolveSigningScheme : KeyAlgorithm → HashAlgorithm → Except Error SigningScheme
  | ecdsaP256, .sha2256 => .ok .ecdsaP256Sha256
  | ecdsaP256, .sha2384 => .ok .ecdsaP256Sha384
  | ecdsaP256, .sha2512 =>
    .error (.unsupportedAlgorithm "ECDSA P-256 does not support hash algorithm Sha2512")
  | ecdsaP384, .sha2256 => .ok .ecdsaP384Sha256
  | ecdsaP384, .sha2384 => .ok .ecdsaP384Sha384
  | ecdsaP384, .sha2512 =>
    .error (.unsupportedAlgorithm "ECDSA P-384 does not support hash algorithm Sha2512")
  | ed25519, _ => .ok .ed25519
  | rsa, .sha2256 => .ok .rsaPkcs1Sha256
  | rsa, .sha2384 => .ok .rsaPkcs1Sha384
  | rsa, .sha2512 => .ok .rsaPkcs1Sha512

end KeyAlgorithm

/-- What the code reads of a `SubjectPublicKeyInfo`. -/
structure SubjectPublicKeyInfo where
  algorithmOid : String
  /-- The algorithm parameters, where they are an object identifier. -/
  parametersOid : Option String
  rawBytes : Bytes
  deriving DecidableEq

/-- The third-party primitives. -/
structure Primitives where
  sha256 : Bytes → Sha256Hash
  sha384 : Bytes → Bytes
  sha512 : Bytes → Bytes
  /-- The scheme's verification of a signature over data under a raw public key. -/
  verify : SigningScheme → Bytes → Bytes → Bytes → Bool
  /-- The scheme's verification of a signature over an imported digest. -/
  verifyDigest : SigningScheme → Bytes → Bytes → Bytes → Except String Unit
  /-- The DER parser of public keys. -/
  spki : Bytes → Except String SubjectPublicKeyInfo
  /-- The PEM parser: the tag and the contents of the block. -/
  pem : String → Except String (String × Bytes)

/-- A public key for verification. -/
structure VerificationKey where
  bytes : Bytes
  scheme : SigningScheme
  deriving DecidableEq

namespace VerificationKey

variable (P : Primitives)

/-- A verification key from a DER-encoded public key. -/
def fromSpki (key : Bytes) (scheme : SigningScheme) : Except Error VerificationKey :=
  match P.spki key with
  | .error e => .error (.invalidKey s!"Invalid SPKI: {e}")
  | .ok spki => .ok { bytes := spki.rawBytes, scheme := scheme }

/-- Verify a signature over data. -/
def verify (k : VerificationKey) (data signature : Bytes) : Except Error Unit :=
  if P.verify k.scheme k.bytes data signature then .ok ()
  else .error (.verification s!"{k.scheme.label} signature invalid")

/-- Verify a signature over prehashed data. -/
def verifyPrehashed (k : VerificationKey) (digest signature : Bytes) : Except Error Unit :=
  match k.scheme.prehash with
  | none =>
    .error (.unsupportedAlgorithm s!"Scheme {k.scheme.debug} does not support prehashed mode")
  | some algo =>
    if digest.length ≠ algo.digestSize then
      .error (.verification (s!"Failed to import digest: len={digest.length}, " ++
        s!"algo_expected_len={algo.digestSize}"))
    else
      match P.verifyDigest k.scheme k.bytes digest signature with
      | .error e => .error (.verification s!"Signature invalid: {e}")
      | .ok () => .ok ()

end VerificationKey

variable (P : Primitives)

/-- Verify a signature using the specified scheme. -/
def verifySignature (publicKey data signature : Bytes) (scheme : SigningScheme) :
    Except Error Unit :=
  (VerificationKey.fromSpki P publicKey scheme).bind fun k => k.verify P data signature

/-- Verify a signature over prehashed data using the specified scheme. -/
def verifySignaturePrehashed (publicKey digest signature : Bytes) (scheme : SigningScheme) :
    Except Error Unit :=
  (VerificationKey.fromSpki P publicKey scheme).bind fun k => k.verifyPrehashed P digest signature

/-! ## Verified signatures -/

/-- A signature verifies over data under an encoded public key. -/
def SignatureValid (publicKey data signature : Bytes) (scheme : SigningScheme) : Prop :=
  ∃ spki, P.spki publicKey = .ok spki ∧ P.verify scheme spki.rawBytes data signature = true

/-- A signature verifies over a digest, of the size of the scheme's hash, under an encoded public
key. -/
def DigestSignatureValid (publicKey digest signature : Bytes) (scheme : SigningScheme) : Prop :=
  ∃ spki algo, P.spki publicKey = .ok spki ∧ scheme.prehash = some algo ∧
    digest.length = algo.digestSize ∧
    P.verifyDigest scheme spki.rawBytes digest signature = .ok ()

variable {P}

/-- `verify_signature` accepts exactly the valid signatures: the errors before the verification are
those of a key that the scheme does not take. -/
theorem verifySignature_eq_ok {publicKey data signature : Bytes} {scheme : SigningScheme} :
    verifySignature P publicKey data signature scheme = .ok () ↔
      SignatureValid P publicKey data signature scheme := by
  unfold verifySignature SignatureValid VerificationKey.fromSpki
  cases P.spki publicKey with
  | error e => simp [Except.bind]
  | ok spki => simp [Except.bind, VerificationKey.verify]

/-- `verify_signature_prehashed` accepts exactly the valid signatures of a digest. The scheme has to
take digests at all, and the key has to parse; each of these is a case that fails. -/
theorem verifySignaturePrehashed_eq_ok {publicKey digest signature : Bytes}
    {scheme : SigningScheme} :
    verifySignaturePrehashed P publicKey digest signature scheme = .ok () ↔
      DigestSignatureValid P publicKey digest signature scheme := by
  unfold verifySignaturePrehashed DigestSignatureValid VerificationKey.fromSpki
  cases P.spki publicKey with
  | error e => simp [Except.bind]
  | ok spki =>
    simp only [Except.bind, VerificationKey.verifyPrehashed]
    cases scheme.prehash with
    | none => simp
    | some algo =>
      by_cases hlen : digest.length = algo.digestSize
      · cases hv : P.verifyDigest scheme spki.rawBytes digest signature <;> simp [hlen, hv]
      · simp [hlen]

/-- A scheme with a prehash verifies over digests. -/
theorem supportsPrehashed_of_prehash {scheme : SigningScheme} {algo : HashAlgorithm}
    (h : scheme.prehash = some algo) : scheme.supportsPrehashed = true := by
  cases scheme with
  | ed25519 => cases h
  | _ => rfl

end Sigstore.Crypto
