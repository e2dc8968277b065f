import Sigstore.Types.BundleJson
import Sigstore.Verify.Verifier

/-!
# Bundles are read back from their JSON

Each part of a bundle is deserialized from its serialization, field by field: what is skipped is its
default, integers come back from their digits, bytes from their base64 text, and a flattened variant
from its name. A message digest comes back unless its base64 text is taken for hexadecimal, which is
where it has only hexadecimal digits (`deDigestBytes_ser`). So a bundle is read back exactly where
this does not happen (`fromJson_toJson_iff`).
-/

namespace Sigstore.Types

open Checks Json

section
variable {C : Codec}

/-- An index is written as a decimal string and read back, with its sign. -/
theorem LogIndex.de_ser (i : LogIndex) : LogIndex.de i.ser = .ok i := by
  show (okOr (parseI64 (toString i.value.toInt)) _).map LogIndex.mk = .ok i
  rw [parseI64_toString]
  rfl

/-- The names of the hash algorithms are read back as the algorithms. -/
theorem deHashAlgorithm_ser (algo : HashAlgorithm) :
    deHashAlgorithm (serHashAlgorithm algo) = .ok algo := by
  cases algo <;> rfl

/-- A hash is read back from its base64. A hash is written in 44 characters, so its text is not
taken for hexadecimal, which has 64. -/
theorem deSha256Hash_ser (hC : C.LawfulBase64) (hash : Sha256Hash) :
    deSha256Hash C (serSha256Hash C hash) = .ok hash := by
  have hlength := hC.length_encode hash.bytes
  rw [hash.length_bytes] at hlength
  have hbase64 : C.fromBase64 (C.base64Encode hash.bytes) = .ok hash.bytes := by
    rw [Codec.fromBase64, hC.decode_encode]
    rfl
  show (sha256FromHexOrBase64 C (C.base64Encode hash.bytes)).mapError _ = .ok hash
  have hhex : ¬ (utf8Bytes (C.base64Encode hash.bytes)).length = 64 := by omega
  rw [mapError_eq_ok, sha256FromHexOrBase64, if_neg fun h => hhex h.1, sha256FromBase64, hbase64]
  show Codec.sha256FromSlice hash.bytes = .ok hash
  rw [Codec.sha256FromSlice, mapError_eq_ok, Sha256Hash.tryFromSlice, dif_pos hash.length_bytes]

/-- A text that decodes as hexadecimal has two characters for every byte. -/
theorem hexPairs_length {l : List Char} {bs : Bytes} (h : hexPairs l = some bs) :
    l.length = 2 * bs.length := by
  fun_induction hexPairs l generalizing bs with
  | case1 => cases h; rfl
  | case2 => cases h
  | case3 c d l ih =>
    simp only [Option.bind_eq_bind, Option.bind_eq_some_iff] at h
    obtain ⟨_, _, _, _, rest, hrest, h⟩ := h
    cases h
    simp [ih hrest]
    omega

/-- An inclusion promise is read back from its JSON. -/
theorem InclusionPromise.de_ser (hC : C.LawfulBase64) (p : InclusionPromise) :
    InclusionPromise.de C (p.ser C) = .ok p := by
  rw [InclusionPromise.de, InclusionPromise.ser, deRecord_record (by simp)]
  simp [field_present, Codec.deBase64_ser hC]

/-- A log identifier is read back from its JSON, where it is the text of the key identifier. -/
theorem LogId.de_ser (i : LogId) : LogId.de i.ser = .ok i := by
  rw [LogId.de, LogId.ser, deRecord_record (by simp)]
  simp [field_present, deString]

/-- The kind and the version of an entry are read back from their JSON. -/
theorem KindVersion.de_ser (k : KindVersion) : KindVersion.de k.ser = .ok k := by
  rw [KindVersion.de, KindVersion.ser, deRecord_record (by simp)]
  simp [field_present, deString, List.lookup_cons]

/-- A checkpoint is read back from its JSON with its text as it is. -/
theorem CheckpointData.de_ser (c : CheckpointData) : CheckpointData.de c.ser = .ok c := by
  rw [CheckpointData.de, CheckpointData.ser, deRecordFrom_record (by simp)]
  simp [fieldOr_present, deString]

/-- An inclusion proof is read back from its JSON. An empty checkpoint is not written, and a missing
one is read as empty. -/
theorem InclusionProof.de_ser (hC : C.LawfulBase64) (p : InclusionProof) :
    InclusionProof.de C (p.ser C) = .ok p := by
  have hhashes := deVec_serVec fun hash (_ : hash ∈ p.hashes) => deSha256Hash_ser hC hash
  rw [InclusionProof.de, InclusionProof.ser, deRecordFrom_record (by simp)]
  by_cases hcheckpoint : p.checkpoint.envelope = ""
  · obtain ⟨logIndex, rootHash, treeSize, hashes, ⟨envelope⟩⟩ := p
    cases hcheckpoint
    simp [field_present, fieldOr_present, List.lookup_cons, LogIndex.de_ser, deSha256Hash_ser hC,
      hhashes]
  · simp [field_present, fieldOr_present, List.lookup_cons, LogIndex.de_ser, deSha256Hash_ser hC,
      hhashes, CheckpointData.de_ser, hcheckpoint]

/-- A log entry is read back from its JSON. An integrated time of zero, a promise and a proof that
are absent are not written, and read back as what they were. -/
theorem TransparencyLogEntry.de_ser (hC : C.LawfulBase64) (e : TransparencyLogEntry) :
    TransparencyLogEntry.de C (e.ser C) = .ok e := by
  have hpromise : (e.inclusionPromise.map (InclusionPromise.ser C)).elim (.ok none)
      (deOption (InclusionPromise.de C)) = .ok e.inclusionPromise := by
    cases e.inclusionPromise with
    | none => rfl
    | some p => exact congrArg (Except.map some) (InclusionPromise.de_ser hC p)
  have hproof : (e.inclusionProof.map (InclusionProof.ser C)).elim (.ok none)
      (deOption (InclusionProof.de C)) = .ok e.inclusionProof := by
    cases e.inclusionProof with
    | none => rfl
    | some p => exact congrArg (Except.map some) (InclusionProof.de_ser hC p)
  have htime : (if e.integratedTime = 0 then none else some (serStringI64 e.integratedTime)).elim
      (.ok 0) deStringI64 = .ok e.integratedTime := by
    split
    · next h => rw [h]; rfl
    · exact deStringI64_ser _
  rw [TransparencyLogEntry.de, TransparencyLogEntry.ser, deRecord_record (by simp)]
  simp [field_present, fieldOr_present, List.lookup_cons, LogIndex.de_ser, LogId.de_ser,
    KindVersion.de_ser, Codec.deBase64_ser hC, hpromise, hproof, htime]

/-- A timestamp token is read back from its JSON. -/
theorem Rfc3161Timestamp.de_ser (hC : C.LawfulBase64) (t : Rfc3161Timestamp) :
    Rfc3161Timestamp.de C (t.ser C) = .ok t := by
  rw [Rfc3161Timestamp.de, Rfc3161Timestamp.ser, deRecord_record (by simp)]
  simp [field_present, Codec.deBase64_ser hC]

/-- The timestamps are read back from their JSON, where an empty list is not written. -/
theorem TimestampVerificationData.de_ser (hC : C.LawfulBase64) (d : TimestampVerificationData) :
    TimestampVerificationData.de C (d.ser C) = .ok d := by
  have htimestamps :=
    deVec_serVec fun t (_ : t ∈ d.rfc3161Timestamps) => Rfc3161Timestamp.de_ser hC t
  rw [TimestampVerificationData.de, TimestampVerificationData.ser, deRecordFrom_record (by simp)]
  by_cases hempty : d.rfc3161Timestamps = []
  · obtain ⟨timestamps⟩ := d
    cases hempty
    simp [fieldOr_present]
  · simp [fieldOr_present, hempty, htimestamps]

/-- A certificate is read back from its JSON object. -/
theorem deX509Certificate_ser (hC : C.LawfulBase64) (rawBytes : Bytes) :
    deX509Certificate C (serX509Certificate C rawBytes) = .ok rawBytes := by
  rw [deX509Certificate, serX509Certificate, deRecord_record (by simp)]
  simp [field_present, Codec.deBase64_ser hC]

/-- A variant is read back out of the members of a struct. Each of the three variants has its own
key, under which its value is read. -/
theorem VerificationMaterialContent.de_ser (hC : C.LawfulBase64)
    (content : VerificationMaterialContent) :
    VerificationMaterialContent.de C [content.ser C] = .ok content := by
  cases content with
  | certificate rawBytes =>
    exact congrArg (Except.map _) (deX509Certificate_ser hC rawBytes)
  | x509CertificateChain certificates =>
    have hall := deVec_serVec fun bs (_ : bs ∈ certificates) => deX509Certificate_ser hC bs
    have hread : deRecord ["certificates"] (fun m =>
        field m "certificates" (deVec (deX509Certificate C)))
        (record [("certificates", some (serVec (serX509Certificate C) certificates))]) =
          .ok certificates := by
      rw [deRecord_record (by simp)]
      simp [field_present, hall]
    exact congrArg (Except.map _) hread
  | publicKey hint =>
    have hread : deRecord ["hint"] (fun m => field m "hint" deString)
        (record [("hint", some (.string hint))]) = .ok hint := by
      rw [deRecord_record (by simp)]
      simp [field_present, deString]
    exact congrArg (Except.map _) hread

/-- The verification material is read back from its JSON. The variant of its content is flattened
into the members of the material, and its key differs from their names. -/
theorem VerificationMaterial.de_ser (hC : C.LawfulBase64) (m : VerificationMaterial) :
    VerificationMaterial.de C (m.ser C) = .ok m := by
  have hentries :=
    deVec_serVec fun e (_ : e ∈ m.tlogEntries) => TransparencyLogEntry.de_ser hC e
  have hcontent := VerificationMaterialContent.de_ser hC m.content
  have htimestamps : deNullAsDefault ⟨[]⟩ (TimestampVerificationData.de C)
      (m.timestampVerificationData.ser C) = .ok m.timestampVerificationData := by
    show ((TimestampVerificationData.de C (m.timestampVerificationData.ser C)).map some >>= _) = _
    rw [TimestampVerificationData.de_ser hC]
    rfl
  have hkey : (m.content.ser C).1 ≠ "tlogEntries" ∧
      (m.content.ser C).1 ≠ "timestampVerificationData" := by
    cases m.content <;> simp [VerificationMaterialContent.ser]
  revert hcontent hkey
  rw [VerificationMaterial.de, VerificationMaterial.ser]
  obtain ⟨key, v⟩ := m.content.ser C
  rintro hcontent ⟨htlog, hdata⟩
  dsimp only at htlog hdata
  rw [deFlatten_record (by simp [htlog, hdata])]
  simp [present, fieldOr, List.lookup_cons, htlog, hdata, beq_eq_false_iff_ne.2 htlog.symm,
    beq_eq_false_iff_ne.2 hdata.symm, hcontent, hentries, htimestamps]

/-- A hexadecimal digit is one byte in UTF-8. -/
theorem utf8Size_of_isAsciiHexdigit {c : Char} (h : isAsciiHexdigit c = true) : c.utf8Size = 1 := by
  rw [Char.utf8Size_eq_one_iff]
  unfold isAsciiHexdigit hexValue at h
  split at h
  · next hdigit => exact UInt32.le_trans hdigit.2 (by decide)
  split at h
  · next hlower => exact UInt32.le_trans hlower.2 (by decide)
  split at h
  · next hupper => exact UInt32.le_trans hupper.2 (by decide)
  · cases h

/-- A digest is read back from its base64 exactly where it is empty or its text has a character that
is no hexadecimal digit. Otherwise the text is read as hexadecimal, whose bytes are fewer than those
of base64. -/
theorem deDigestBytes_ser (hC : C.LawfulBase64) (digest : Bytes) :
    deDigestBytes C (serDigestBytes C digest) = .ok digest ↔
      digest = [] ∨ ∃ c ∈ (C.base64Encode digest).toList, isAsciiHexdigit c = false := by
  have hlength := hC.length_encode digest
  have heven : (utf8Bytes (C.base64Encode digest)).length % 2 = 0 := by omega
  by_cases hall : (C.base64Encode digest).toList.all isAsciiHexdigit = true
  · have hread : deDigestBytes C (serDigestBytes C digest) =
        okOr (hexDecode (C.base64Encode digest)) (.custom (C.hexError (C.base64Encode digest))) :=
      if_pos ⟨heven, hall⟩
    rw [List.all_eq_true] at hall
    have hnone : ¬ ∃ c ∈ (C.base64Encode digest).toList, isAsciiHexdigit c = false := by
      rintro ⟨c, hc, hfalse⟩
      exact absurd (hall c hc) (by simp [hfalse])
    rw [hread, okOr_eq_ok, or_iff_left hnone]
    constructor
    · intro hdecode
      by_contra hne
      have hchars := hexPairs_length hdecode
      rw [length_utf8Bytes fun c hc => utf8Size_of_isAsciiHexdigit (hall c hc)] at hlength
      have hthree : digest.length % 3 = 0 := by
        by_contra hpad
        exact absurd (hall _ (hC.padded digest hpad)) (by decide)
      have hpos := List.length_pos_iff.2 hne
      omega
    · rintro rfl
      have hempty : C.base64Encode [] = "" :=
        String.utf8ByteSize_eq_zero_iff.1 (by simpa [utf8Bytes] using hlength)
      rw [hempty]
      rfl
  · have hread : deDigestBytes C (serDigestBytes C digest) =
        (C.base64Decode (C.base64Encode digest)).mapError .custom :=
      if_neg fun h => hall h.2
    rw [hread, mapError_eq_ok]
    simp only [hC.decode_encode, true_iff]
    simpa using Or.inr hall

/-- A message digest is read back exactly where its bytes are. -/
theorem MessageDigest.de_ser (d : MessageDigest) :
    MessageDigest.de C (d.ser C) = .ok d ↔
      deDigestBytes C (serDigestBytes C d.digest) = .ok d.digest := by
  obtain ⟨algorithm, digest⟩ := d
  rw [MessageDigest.de, MessageDigest.ser, deRecord_record (by simp)]
  simp [field_present, List.lookup_cons, deHashAlgorithm_ser]
  cases deDigestBytes C (serDigestBytes C digest) <;> simp

/-- A message signature is read back exactly where its digest is, if it has one. A digest that is
absent is not written, and so does not hinder anything. -/
theorem MessageSignature.de_ser (hC : C.LawfulBase64) (s : MessageSignature) :
    MessageSignature.de C (s.ser C) = .ok s ↔ ∀ d, s.messageDigest = some d →
      deDigestBytes C (serDigestBytes C d.digest) = .ok d.digest := by
  obtain ⟨digest, signature⟩ := s
  rw [MessageSignature.de, MessageSignature.ser, deRecord_record (by simp)]
  cases digest with
  | none => simp [field_present, fieldOr_present, List.lookup_cons, Codec.deBase64_ser hC]
  | some d =>
    have hread : deOption (MessageDigest.de C) (d.ser C) =
        (MessageDigest.de C (d.ser C)).map some := rfl
    simp [field_present, fieldOr_present, List.lookup_cons, Codec.deBase64_ser hC, hread,
      MessageDigest.de_ser]

/-- A signature of an envelope is read back from its JSON, where an empty key identifier is not
written. -/
theorem DsseSignature.de_ser (hC : C.LawfulBase64) (s : DsseSignature) :
    DsseSignature.de C (s.ser C) = .ok s := by
  have hkeyid : (if s.keyid = "" then none else some (Json.string s.keyid)).elim (.ok "")
      deString = .ok s.keyid := by
    split
    · next h => rw [h]; rfl
    · rfl
  rw [DsseSignature.de, DsseSignature.ser, deRecordFrom_record (by simp)]
  simp [field_present, fieldOr_present, List.lookup_cons, Codec.deBase64_ser hC, hkeyid]

/-- An envelope is read back from its JSON with all its signatures. -/
theorem DsseEnvelope.de_ser (hC : C.LawfulBase64) (e : DsseEnvelope) :
    DsseEnvelope.de C (e.ser C) = .ok e := by
  have hsignatures := deVec_serVec fun s (_ : s ∈ e.signatures) => DsseSignature.de_ser hC s
  rw [DsseEnvelope.de, DsseEnvelope.ser, deRecord_record (by simp)]
  simp [field_present, List.lookup_cons, deString, Codec.deBase64_ser hC, hsignatures]

/-- There is no message digest, or it is empty, or its base64 text has a character that is no
hexadecimal digit. -/
def DigestReadable (C : Codec) (content : SignatureContent) : Prop :=
  ∀ sig d, content = .messageSignature sig → sig.messageDigest = some d →
    d.digest = [] ∨ ∃ c ∈ (C.base64Encode d.digest).toList, isAsciiHexdigit c = false

/-- The content of a bundle is read back exactly where its message digest is readable; an envelope
always is. -/
theorem SignatureContent.de_ser (hC : C.LawfulBase64) (content : SignatureContent) :
    SignatureContent.de C [content.ser C] = .ok content ↔ DigestReadable C content := by
  cases content with
  | messageSignature sig =>
    have hread : SignatureContent.de C [(SignatureContent.messageSignature sig).ser C] =
        (MessageSignature.de C (sig.ser C)).map .messageSignature := rfl
    rw [hread, map_eq_ok]
    simp only [SignatureContent.messageSignature.injEq, exists_eq_right]
    rw [MessageSignature.de_ser hC]
    simp only [deDigestBytes_ser hC, DigestReadable, SignatureContent.messageSignature.injEq]
    exact ⟨fun h _ d hsig hd => h d (hsig ▸ hd), fun h d hd => h sig d rfl hd⟩
  | dsseEnvelope envelope =>
    have hread : SignatureContent.de C [(SignatureContent.dsseEnvelope envelope).ser C] =
        (DsseEnvelope.de C (envelope.ser C)).map .dsseEnvelope := rfl
    simp [hread, DsseEnvelope.de_ser hC, DigestReadable]

/-- A bundle is read back from its JSON exactly where its message digest is readable. Its other
members are read back whatever they are, as the lemmas above say. -/
theorem Bundle.de_ser (hC : C.LawfulBase64) (b : Bundle) :
    Bundle.de C (b.ser C) = .ok b ↔ DigestReadable C b.content := by
  rw [← SignatureContent.de_ser hC]
  have hmaterial := VerificationMaterial.de_ser hC b.verificationMaterial
  have hkey : (b.content.ser C).1 ≠ "mediaType" ∧
      (b.content.ser C).1 ≠ "verificationMaterial" := by
    cases b.content <;> simp [SignatureContent.ser]
  obtain ⟨mediaType, material, content⟩ := b
  revert hmaterial hkey
  rw [Bundle.de, Bundle.ser]
  dsimp only
  obtain ⟨key, v⟩ := content.ser C
  rintro hmaterial ⟨hmedia, hverification⟩
  rw [deFlatten_record (by simp [hmedia.symm, hverification.symm])]
  simp [present, field, fieldOr, List.lookup_cons, deString, hmaterial, hmedia, hverification]
  cases SignatureContent.de C [(key, v)] <;> simp

/-- The printer and the parser of JSON texts take a value to a text and back. -/
def PrintsBack (C : Codec) (print : Json → Except String String) (v : Json) : Prop :=
  ∃ text, print v = .ok text ∧ C.parseJson text = .ok v

/-- **A bundle is read back from its JSON** if and only if its message digest is not taken for
hexadecimal. -/
theorem fromJson_toJson_iff (hC : C.LawfulBase64) (print : Json → Except String String)
    (b : Bundle) (hprint : PrintsBack C print (b.ser C)) :
    (b.toJson C print >>= Bundle.fromJson C) = .ok b ↔ DigestReadable C b.content := by
  obtain ⟨text, htext, hparse⟩ := hprint
  have hread : (b.toJson C print >>= Bundle.fromJson C) =
      (Bundle.de C (b.ser C)).mapError (C.jsonError text) := by
    rw [Bundle.toJson, htext]
    show C.fromJson (Bundle.de C) text = _
    rw [Codec.fromJson, hparse]
    rfl
  rw [hread, mapError_eq_ok, Bundle.de_ser hC]

end

end Sigstore.Types

namespace Sigstore.Verify.Sample

open Types

/-- A character of the alphabet is one byte in UTF-8, has its own value and is no padding. -/
theorem base64Char_spec {n : Nat} (h : n < 64) :
    String.utf8EncodeChar (base64Char n) = [(base64Char n).toUInt8] ∧
      (base64Char n).utf8Size = 1 ∧
      base64Value (base64Char n).toUInt8 = some n ∧ (base64Char n).toUInt8 ≠ 0x3d := by
  have hall : ∀ n : Fin 64, String.utf8EncodeChar (base64Char n) = [(base64Char n).toUInt8] ∧
      (base64Char n).utf8Size = 1 ∧
      base64Value (base64Char n).toUInt8 = some n.val ∧ (base64Char n).toUInt8 ≠ 0x3d := by
    decide
  exact hall ⟨n, h⟩

/-- Four characters of the alphabet are decoded to three bytes, in front of what the rest is decoded
to. -/
theorem unbase64_cons {a b c d : UInt8} {l rest : Bytes} {w x y z : Nat}
    (ha : base64Value a = some w) (hb : base64Value b = some x) (hc : base64Value c = some y)
    (hd : base64Value d = some z) (hne : d ≠ 0x3d) (hl : unbase64 l = some rest)
    {n : Nat} (hn : w * 262144 + x * 4096 + y * 64 + z = n) :
    unbase64 (a :: b :: c :: d :: l) =
      some (UInt8.ofNat (n / 65536) :: UInt8.ofNat (n / 256 % 256) :: UInt8.ofNat (n % 256) ::
        rest) := by
  subst hn
  rw [unbase64.eq_4 _ _ _ _ _ (fun _ h => absurd h hne) (fun h => absurd h hne), ha, hb, hc, hd,
    hl]
  rfl

/-- Three characters and one padding are decoded to two bytes. -/
theorem unbase64_pad {a b c : UInt8} {w x y : Nat} (ha : base64Value a = some w)
    (hb : base64Value b = some x) (hc : base64Value c = some y) (hne : c ≠ 0x3d)
    {n : Nat} (hn : w * 4096 + x * 64 + y = n) (hbits : n % 4 = 0) :
    unbase64 [a, b, c, 0x3d] =
      some [UInt8.ofNat (n / 1024), UInt8.ofNat (n / 4 % 256)] := by
  subst hn
  rw [unbase64.eq_3 _ _ _ hne, ha, hb, hc]
  exact if_pos hbits

/-- Two characters and two paddings are decoded to one byte. -/
theorem unbase64_padPad {a b : UInt8} {w x : Nat} (ha : base64Value a = some w)
    (hb : base64Value b = some x) {n : Nat} (hn : w * 64 + x = n) (hbits : n % 16 = 0) :
    unbase64 [a, b, 0x3d, 0x3d] = some [UInt8.ofNat (n / 16)] := by
  subst hn
  rw [unbase64.eq_2, ha, hb]
  exact if_pos hbits

/-- What is encoded is decoded to itself. The induction follows the groups of three bytes, with one
or two bytes in the last group. -/
theorem unbase64_base64 (bs : Bytes) :
    unbase64 ((base64 bs).flatMap String.utf8EncodeChar) = some bs := by
  have hpad : String.utf8EncodeChar '=' = [0x3d] := rfl
  fun_induction base64 bs with
  | case1 a b c l n ih =>
    have ha := a.toNat_lt
    have hb := b.toNat_lt
    have hc := c.toNat_lt
    obtain ⟨h1, -, v1, -⟩ := base64Char_spec (n := n / 262144) (by omega)
    obtain ⟨h2, -, v2, -⟩ := base64Char_spec (n := n / 4096 % 64) (by omega)
    obtain ⟨h3, -, v3, -⟩ := base64Char_spec (n := n / 64 % 64) (by omega)
    obtain ⟨h4, -, v4, hne⟩ := base64Char_spec (n := n % 64) (by omega)
    have hn : n / 262144 * 262144 + n / 4096 % 64 * 4096 + n / 64 % 64 * 64 + n % 64 = n := by omega
    have hfirst : n / 65536 = a.toNat := by omega
    have hsecond : n / 256 % 256 = b.toNat := by omega
    have hthird : n % 256 = c.toNat := by omega
    simp only [List.flatMap_cons, h1, h2, h3, h4, List.singleton_append]
    rw [unbase64_cons v1 v2 v3 v4 hne ih hn, hfirst, hsecond, hthird]
    simp only [UInt8.ofNat_toNat]
  | case2 a b n =>
    have ha := a.toNat_lt
    have hb := b.toNat_lt
    obtain ⟨h1, -, v1, -⟩ := base64Char_spec (n := n / 4096) (by omega)
    obtain ⟨h2, -, v2, -⟩ := base64Char_spec (n := n / 64 % 64) (by omega)
    obtain ⟨h3, -, v3, hne⟩ := base64Char_spec (n := n % 64) (by omega)
    have hn : n / 4096 * 4096 + n / 64 % 64 * 64 + n % 64 = n := by omega
    have hfour : n % 4 = 0 := by omega
    have hfirst : n / 1024 = a.toNat := by omega
    have hsecond : n / 4 % 256 = b.toNat := by omega
    simp only [List.flatMap_cons, List.flatMap_nil, h1, h2, h3, hpad, List.singleton_append]
    rw [unbase64_pad v1 v2 v3 hne hn hfour, hfirst, hsecond]
    simp only [UInt8.ofNat_toNat]
  | case3 a =>
    have ha := a.toNat_lt
    obtain ⟨h1, -, v1, -⟩ := base64Char_spec (n := a.toNat / 4) (by omega)
    obtain ⟨h2, -, v2, -⟩ := base64Char_spec (n := a.toNat * 16 % 64) (by omega)
    have hn : a.toNat / 4 * 64 + a.toNat * 16 % 64 = a.toNat * 16 := by omega
    have hbits : a.toNat * 16 % 16 = 0 := by omega
    have hfirst : a.toNat * 16 / 16 = a.toNat := by omega
    simp only [List.flatMap_cons, List.flatMap_nil, h1, h2, hpad, List.singleton_append]
    rw [unbase64_padPad v1 v2 hn hbits, hfirst, UInt8.ofNat_toNat]
  | case4 => rfl

/-- An encoding has four characters for every group of three bytes. The induction follows the
groups; every character is one byte. -/
theorem length_base64 (bs : Bytes) :
    ((base64 bs).flatMap String.utf8EncodeChar).length = 4 * ((bs.length + 2) / 3) := by
  fun_induction base64 bs with
  | case1 a b c l n ih =>
    have hc := c.toNat_lt
    have ha := a.toNat_lt
    have hb := b.toNat_lt
    have h1 := (base64Char_spec (n := n / 262144) (by omega)).1
    have h2 := (base64Char_spec (n := n / 4096 % 64) (by omega)).1
    have h3 := (base64Char_spec (n := n / 64 % 64) (by omega)).1
    have h4 := (base64Char_spec (n := n % 64) (by omega)).1
    simp only [List.flatMap_cons, h1, h2, h3, h4, List.singleton_append, List.length_cons, ih]
    omega
  | case2 a b n =>
    have ha := a.toNat_lt
    have hb := b.toNat_lt
    have h1 := (base64Char_spec (n := n / 4096) (by omega)).1
    have h2 := (base64Char_spec (n := n / 64 % 64) (by omega)).1
    have h3 := (base64Char_spec (n := n % 64) (by omega)).1
    have hpad : String.utf8EncodeChar '=' = [0x3d] := rfl
    simp only [List.flatMap_cons, List.flatMap_nil, h1, h2, h3, hpad, List.length_append,
      List.length_cons, List.length_nil]
  | case3 a =>
    have ha := a.toNat_lt
    have h1 := (base64Char_spec (n := a.toNat / 4) (by omega)).1
    have h2 := (base64Char_spec (n := a.toNat * 16 % 64) (by omega)).1
    have hpad : String.utf8EncodeChar '=' = [0x3d] := rfl
    simp only [List.flatMap_cons, List.flatMap_nil, h1, h2, hpad, List.length_append,
      List.length_cons, List.length_nil]
  | case4 => rfl

/-- Bytes whose number is no multiple of three are encoded with padding. -/
theorem padded_base64 {bs : Bytes} (h : bs.length % 3 ≠ 0) : '=' ∈ base64 bs := by
  fun_induction base64 bs with
  | case1 a b c l n ih =>
    simp only [List.length_cons] at h
    have hrest := ih (by omega)
    simp [hrest]
  | case2 => simp
  | case3 => simp
  | case4 => exact absurd rfl h

/-- The base64 of the deployment is the documented one: it decodes what it encodes, in the expected
length and with padding. -/
theorem lawfulBase64_codec : codec.LawfulBase64 := by
  refine ⟨fun bs => ?_, fun bs => ?_, fun bs h => ?_⟩
  · show Checks.okOr (unbase64 (utf8Bytes (text64 bs))) "Invalid padding" = .ok bs
    rw [utf8Bytes_eq_flatMap, text64, String.toList_ofList, unbase64_base64]
    rfl
  · show (utf8Bytes (text64 bs)).length = _
    rw [utf8Bytes_eq_flatMap, text64, String.toList_ofList, length_base64]
  · show '=' ∈ (text64 bs).toList
    rw [text64, String.toList_ofList]
    exact padded_base64 h

/-- A bundle with a bare key and a message digest. -/
def digestBundle (digest : Bytes) : Types.Bundle :=
  { mediaType := "application/vnd.dev.sigstore.bundle.v0.3+json"
    verificationMaterial := ⟨.publicKey "key", [], ⟨[]⟩⟩
    content := .messageSignature ⟨some ⟨.sha2256, digest⟩, [0x01]⟩ }

/-- The JSON text of the bundle, with the base64 text of its digest. -/
def digestText (digest : String) : String :=
  "\x7b\"mediaType\":\"application/vnd.dev.sigstore.bundle.v0.3+json\"," ++
  "\"verificationMaterial\":\x7b\"publicKey\":\x7b\"hint\":\"key\"\x7d,\"tlogEntries\":[]," ++
  "\"timestampVerificationData\":\x7b\x7d\x7d,\"messageSignature\":\x7b\"messageDigest\":" ++
  "\x7b\"algorithm\":\"SHA2_256\",\"digest\":\"" ++ digest ++
  "\"\x7d,\"signature\":\"AQ==\"\x7d\x7d"

/-- Printing and parsing of the bundle's text. -/
def digestPrint (digest : Bytes) : Json → Except String String := fun v =>
  if document v = document ((digestBundle digest).ser codec) then .ok (digestText (text64 digest))
  else .error "not a text"

def digestCodec (digest : Bytes) : Codec :=
  { codec with
    parseJson := fun text =>
      if text = digestText (text64 digest) then .ok ((digestBundle digest).ser codec)
      else .error "expected value at line 1 column 1" }

theorem lawfulBase64_digestCodec (digest : Bytes) : (digestCodec digest).LawfulBase64 :=
  ⟨lawfulBase64_codec.decode_encode, lawfulBase64_codec.length_encode, lawfulBase64_codec.padded⟩

/-- The JSON of the bundle with the digest is parsed back from its text. -/
theorem printsBack_digest (digest : Bytes) :
    PrintsBack (digestCodec digest) (digestPrint digest)
      ((digestBundle digest).ser (digestCodec digest)) := by
  have hser : (digestBundle digest).ser (digestCodec digest) = (digestBundle digest).ser codec :=
    rfl
  rw [hser]
  refine ⟨digestText (text64 digest), ?_, ?_⟩
  · rw [digestPrint, if_pos rfl]
  · simp [digestCodec]

end Sigstore.Verify.Sample

namespace Sigstore.Types

open Verify

/-- The digest `[0, 0, 0]` has the base64 text `AAAA`, and is read back as `[0xaa, 0xaa]`. All four
characters are hexadecimal digits, and hexadecimal is tried first. -/
theorem fromJson_toJson_fails :
    ¬ ∀ (C : Codec) (print : Json → Except String String) (b : Bundle), C.LawfulBase64 →
      PrintsBack C print (b.ser C) → (b.toJson C print >>= Bundle.fromJson C) = .ok b := by
  intro h
  have hsame := h (Sample.digestCodec [0, 0, 0]) (Sample.digestPrint [0, 0, 0])
    (Sample.digestBundle [0, 0, 0]) (Sample.lawfulBase64_digestCodec _)
    (Sample.printsBack_digest _)
  have hother : ((Sample.digestBundle [0, 0, 0]).toJson (Sample.digestCodec [0, 0, 0])
      (Sample.digestPrint [0, 0, 0]) >>= Bundle.fromJson (Sample.digestCodec [0, 0, 0])) =
      .ok (Sample.digestBundle [0xaa, 0xaa]) := by
    decide +kernel
  exact absurd (hsame.symm.trans hother) (by decide)

/-- The digest of the artifact is padded in base64, and is read back. A text that ends in padding
cannot be taken for hexadecimal digits, which is the condition. -/
theorem fromJson_toJson_sha256 :
    ((Sample.digestBundle (Sample.sha256 Sample.artifact).bytes).toJson
      (Sample.digestCodec (Sample.sha256 Sample.artifact).bytes)
      (Sample.digestPrint (Sample.sha256 Sample.artifact).bytes) >>=
      Bundle.fromJson (Sample.digestCodec (Sample.sha256 Sample.artifact).bytes)) =
      .ok (Sample.digestBundle (Sample.sha256 Sample.artifact).bytes) := by
  refine (fromJson_toJson_iff (Sample.lawfulBase64_digestCodec _) _ _
    (Sample.printsBack_digest _)).2 ?_
  rintro _ _ ⟨⟩ ⟨⟩
  exact .inr ⟨'=', by decide +kernel, rfl⟩

end Sigstore.Types
