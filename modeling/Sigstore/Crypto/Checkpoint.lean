import Sigstore.Crypto.Verification

/-!
# Signatures under detected keys

The detection of a key's type from its `SubjectPublicKeyInfo` and the verification that follows it
(`checkpoint.rs` of `sigstore-crypto`), which checkpoints and inclusion promises are verified with.
-/

namespace Sigstore.Crypto

/-- id-ecPublicKey. -/
def idEcPublicKey : String := "1.2.840.10045.2.1"

/-- id-Ed25519. -/
def idEd25519 : String := "1.3.101.112"

/-- Key type detected from a `SubjectPublicKeyInfo`. -/
inductive KeyType where
  | ed25519
  | ecdsaP256
  | unknown
  deriving DecidableEq, Repr

variable (P : Primitives)

/-- Detect the type of a public key; bytes that are no `SubjectPublicKeyInfo` may be a raw Ed25519
key. -/
def detectKeyType (publicKey : Bytes) : KeyType :=
  match P.spki publicKey with
  | .ok spki =>
    if spki.algorithmOid = idEd25519 then .ed25519
    else if spki.algorithmOid = idEcPublicKey then .ecdsaP256
    else .unknown
  | .error _ => if publicKey.length = 32 then .ed25519 else .unknown

/-- The raw key bytes, out of their `SubjectPublicKeyInfo` where they are in one. -/
def extractRawKey (publicKey : Bytes) : Bytes :=
  match P.spki publicKey with
  | .ok spki => spki.rawBytes
  | .error _ => publicKey

/-- Verify an Ed25519 signature under an encoded or raw key. -/
def verifyEd25519 (publicKey signature message : Bytes) : Except Error Unit :=
  if P.verify .ed25519 (extractRawKey P publicKey) message signature then .ok ()
  else .error (.verification "Ed25519 verification failed")

/-- Verify an ECDSA P-256 signature; the primitive takes the encoded key. -/
def verifyEcdsaP256 (publicKey signature message : Bytes) : Except Error Unit :=
  if P.verify .ecdsaP256Sha256 publicKey message signature then .ok ()
  else .error (.verification "ECDSA P-256 verification failed")

/-- Verify a signature with the key type detected from the key. -/
def verifySignatureAuto (publicKey signature message : Bytes) : Except Error Unit :=
  match detectKeyType P publicKey with
  | .ed25519 => verifyEd25519 P publicKey signature message
  | .ecdsaP256 => verifyEcdsaP256 P publicKey signature message
  | .unknown => .error (.verification "unsupported or unrecognized public key type")

end Sigstore.Crypto
