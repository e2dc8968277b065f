import Sigstore.Bundle.CheckpointRoundTrip
import Sigstore.Rekor.Format

/-!
# The deployment at work

The entries and the tokens of the deployment are accepted for reasons that do not depend on what
they are about: a promise is the log's signature of whatever body its entry has
(`verifyEntryInclusion_promisedEntry`), a token verifies for whatever signature it is over
(`verifyTimestamp_timestamp`), and a body that is one of the documents is parsed as that document
(`entryBody_document`). Other deployments share this where they differ in their keys' encoder and in
what they hash and verify of the artifact (`alike`).
-/

namespace Sigstore.Verify

open Checks Types Crypto Bundle TrustRoot Rekor

namespace Sample

/-! ### Log entries that are accepted -/

/-- ASCII bytes are the encoding of a text. Each byte is a character of its own, so that the text is
the list of them. -/
theorem exists_text {bs : Bytes} (h : bs.all (· < 0x80) = true) :
    ∃ text, decodeUtf8 bs = some text ∧ utf8Bytes text = bs := by
  have hchar : ∀ n : Fin 128, String.utf8EncodeChar (Char.ofNat n) = [UInt8.ofNat n] := by
    decide
  have hbytes : utf8Bytes (String.ofList (bs.map fun b => Char.ofNat b.toNat)) = bs := by
    rw [utf8Bytes_eq_flatMap, String.toList_ofList]
    induction bs with
    | nil => rfl
    | cons b bs ih =>
      simp only [List.all_cons, Bool.and_eq_true, decide_eq_true_eq] at h
      have hb := hchar ⟨b.toNat, h.1⟩
      simp only [UInt8.ofNat_toNat] at hb
      rw [List.map_cons, List.flatMap_cons, hb, ih h.2, List.singleton_append]
  refine ⟨_, ?_, hbytes⟩
  have hdecoded := decodeUtf8_utf8Bytes (String.ofList (bs.map fun b => Char.ofNat b.toNat))
  rwa [hbytes] at hdecoded

/-- A text of the deployment is parsed as the value that it is the canonical text of. -/
theorem parseJson_document {text : String} {v : Json}
    (hfind : (documents.find? fun d => document d = utf8Bytes text) = some v) :
    codec.parseJson text = .ok v := by
  unfold codec
  dsimp only
  rw [hfind]

/-- The body of an entry with a document of the deployment. The codec knows a list of documents and
looks a text up in it, so that the documents before the wanted one have to differ from it. -/
theorem entryBody_document (before after : List Json) {v : Json}
    {rekord : HashedRekordV002Body} {entry : TransparencyLogEntry}
    (hdocuments : documents = before ++ v :: after)
    (hentry : entry.canonicalizedBody = document v)
    (hkind : entry.kindVersion = ⟨"hashedrekord", "0.0.2"⟩)
    (h : (document v).all (· < 0x80) = true ∧ (∀ d ∈ before, ¬ document d = document v) ∧
      HashedRekordV002Body.de codec v = .ok rekord) :
    entryBody env entry = .ok (.hashedRekordV002 rekord) := by
  obtain ⟨hascii, hnew, hread⟩ := h
  obtain ⟨text, hdecoded, htext⟩ := exists_text hascii
  have hfind : (documents.find? fun d => document d = utf8Bytes text) = some v := by
    rw [List.find?_eq_some_iff_append, hdocuments, htext]
    exact ⟨by simp, before, after, rfl, fun d hd => by simpa using hnew d hd⟩
  refine (entryBody_eq_ok lawfulBase64_codec).2 ⟨text, hentry ▸ hdecoded, ?_⟩
  rw [hkind]
  exact parseBody_eq_ok.2 ⟨v, rekord, parseJson_document hfind, hread, rfl⟩

/-- The entry of the artifact's signature is an ASCII text, differs from the statement, and is read
as a `hashedrekord`. -/
theorem logged_messageBody : (document messageBody).all (· < 0x80) = true ∧
    (∀ d ∈ [statement], ¬ document d = document messageBody) ∧
    HashedRekordV002Body.de codec messageBody = .ok {
      digest := (sha256 artifact).bytes
      signatureContent := sign 1 artifact
      x509Certificate := some (certDer 1)
      publicKey := none } := by
  decide

/-! ### Deployments alike -/

/-- The deployment with other primitives and another encoder of keys. -/
def alike (P : Primitives) (encode : CertificateKey → Except String Bytes) : Env :=
  { env with primitives := P, x509 := { x509 with spkiToDer := encode } }

/-- The primitives read keys as the deployment's do, verify the same of other messages than the
artifact, and hash a signature and its digest alike. -/
structure Alike (P : Primitives) (signature : Bytes) : Prop where
  spki : P.spki = primitives.spki
  verify : ∀ key message sig, message ≠ artifact →
    P.verify .ecdsaP256Sha256 key message sig =
      primitives.verify .ecdsaP256Sha256 key message sig
  imprint : P.sha256 signature = sha256 signature
  digest : P.sha256 (sha256 signature).bytes = sha256 (sha256 signature).bytes

/-- The primitives of the deployment are like themselves. -/
theorem alike_primitives (signature : Bytes) : Alike primitives signature :=
  ⟨rfl, fun _ _ _ _ => rfl, rfl, rfl⟩

theorem alike_env : alike primitives x509.spkiToDer = env := rfl

/-- The payload of a promise is not the artifact. -/
theorem canonicalJson_ne_artifact (p : RekorPayload) : canonicalJson p ≠ artifact :=
  fun h => nomatch h

section
variable {P : Primitives} {signature : Bytes} {encode : CertificateKey → Except String Bytes}

/-- What a promise signs, whatever the body is. The body stays a variable, so that one evaluation
serves every entry of the deployment. -/
theorem setPayload_promisedEntry (version : String) (body : Bytes) (time : Int64) :
    setPayload (alike P encode) (promisedEntry version body time) = .ok (canonicalJson {
      body := text64 body
      integratedTime := time
      logIndex := 7
      logId := hexEncode (sha256 (keyDer 5)).bytes }) := by
  have hlogId : (alike P encode).codec.base64Decode (promisedEntry version body time).logId.keyId =
      .ok (sha256 (keyDer 5)).bytes :=
    lawfulBase64_codec.decode_encode (sha256 (keyDer 5)).bytes
  have hindex : (promisedEntry version body time).logIndex.asU64 = some 7 := by
    show LogIndex.asU64 ⟨7⟩ = some 7
    decide
  simp only [setPayload, bind_eq_ok, okOr_eq_ok, mapError_eq_ok]
  exact ⟨7, hindex, _, hlogId, rfl⟩

/-- Whatever is not the artifact is verified with the log's key as in the deployment. -/
theorem verifySignatureAuto_sign (hP : Alike P signature) {message : Bytes}
    (h : message ≠ artifact) :
    verifySignatureAuto P (keyDer 5) (sign 5 message) message = .ok () := by
  have hverify : P.verify .ecdsaP256Sha256 (keyDer 5) message (sign 5 message) = true :=
    (hP.verify _ _ _ h).trans (beq_self_eq_true (sign 5 message))
  have hdetected : detectKeyType P (keyDer 5) = .ecdsaP256 := by
    rw [detectKeyType, hP.spki]
    decide
  rw [verifySignatureAuto, hdetected]
  exact if_pos hverify

/-- The promise of an entry verifies, whatever its body is. -/
theorem verifyEntryInclusion_promisedEntry (hP : Alike P signature) {version : String}
    {body : Bytes} {time : Int64}
    (hkey : setKey env root (promisedEntry version body time) = .ok (keyDer 5)) :
    verifyEntryInclusion (alike P encode) root (promisedEntry version body time) = .ok () := by
  have hset : verifySet (alike P encode) root (promisedEntry version body time) = .ok () := by
    simp only [verifySet, bind_eq_ok, okOr_eq_ok, mapError_eq_ok]
    exact ⟨_, rfl, _, hkey, _, setPayload_promisedEntry version body time,
      verifySignatureAuto_sign hP (canonicalJson_ne_artifact _)⟩
  exact bind_eq_ok.2 ⟨(), rfl, hset⟩

/-- The key for a promise depends on the entry's log and time alone. -/
theorem setKey_congr {entry entry' : TransparencyLogEntry} (hlogId : entry.logId = entry'.logId)
    (htime : entry.integratedTime = entry'.integratedTime) :
    setKey env root entry = setKey env root entry' := by
  simp only [setKey, hlogId, htime]

/-- The key of the log, for an entry with or without a time. -/
theorem setKey_promisedEntry (version : String) (body : Bytes) :
    setKey env root (promisedEntry version body 1700000000) = .ok (keyDer 5) ∧
      setKey env root (promisedEntry version body 0) = .ok (keyDer 5) := by
  have hkey : setKey env root (promisedEntry "" [] 1700000000) = .ok (keyDer 5) ∧
      setKey env root (promisedEntry "" [] 0) = .ok (keyDer 5) := by
    decide
  exact ⟨(setKey_congr rfl rfl).trans hkey.1, (setKey_congr rfl rfl).trans hkey.2⟩

/-- The loop over one entry that is included, between the bounds of the certificate. It is the loop
with its two checks as hypotheses, in the order in which they are made. -/
theorem verifyTlogEntries_singleton {E : Env} {entry : TransparencyLogEntry}
    {notBefore notAfter skew : Int64} (hentry : verifyEntryInclusion E root entry = .ok ())
    (htime : 0 < entry.integratedTime →
      checkIntegratedTime E notBefore notAfter skew entry.integratedTime = .ok ()) :
    verifyTlogEntries E root notBefore notAfter skew none [entry] =
      .ok (if 0 < entry.integratedTime then some entry.integratedTime else none) := by
  rw [verifyTlogEntries, hentry]
  show (if 0 < entry.integratedTime then _ else _) = _
  split
  · next hpos =>
    show (do checkIntegratedTime E notBefore notAfter skew entry.integratedTime; _) = _
    rw [htime hpos]
    rfl
  · rfl

/-- The entry of the artifact's signature is parsed, whatever its time. -/
theorem entryBody_signed (time : Int64) :
    entryBody env (promisedEntry "0.0.2" (document messageBody) time) =
      .ok (.hashedRekordV002 {
        digest := (sha256 artifact).bytes
        signatureContent := sign 1 artifact
        x509Certificate := some (certDer 1)
        publicKey := none }) :=
  entryBody_document [statement] _ rfl rfl rfl logged_messageBody

/-- An entry that records the digest and the signature of a content, and no other certificate, is
consistent with it. -/
theorem verifyTlogConsistency_hashedrekord {E : Env} {bundle : Types.Bundle}
    {entry : TransparencyLogEntry} {rekord : HashedRekordV002Body} {digest : Sha256Hash}
    (hentries : bundle.tlogEntries = [entry])
    (hcertificate : bundle.signingCertificate = some (certDer 1))
    (hkind : entry.kindVersion = ⟨"hashedrekord", "0.0.2"⟩)
    (hbody : entryBody E entry = .ok (.hashedRekordV002 rekord))
    (hdigest : contentDigest E bundle.content (.bytes artifact) = .ok digest)
    (hrecorded : rekord.digest = digest.bytes)
    (hcert : ∀ cert, rekord.x509Certificate = some cert → certDer 1 = cert)
    (hsignature : firstSignature bundle.content = some rekord.signatureContent) :
    verifyTlogConsistency E bundle (.bytes artifact) = .ok () := by
  have hmatch : validateSignatureMatch (.hashedRekordV002 rekord) bundle.content = .ok () := by
    cases hcontent : bundle.content with
    | messageSignature sig =>
      rw [hcontent] at hsignature
      exact rejectIf_eq_ok.2 (not_not.2 (Option.some.inj hsignature))
    | dsseEnvelope envelope =>
      rw [hcontent] at hsignature
      obtain ⟨first, hfirst, hsig⟩ := Option.map_eq_some_iff.1 hsignature
      exact bind_eq_ok.2 ⟨first, okOr_eq_ok.2 hfirst, rejectIf_eq_ok.2 (not_not.2 hsig)⟩
  have htime : validateIntegratedTime E entry bundle = .ok () := by
    simp [validateIntegratedTime, hkind]
  have hentry : verifyHashedrekordEntry E entry bundle (.bytes artifact) = .ok () := by
    simp only [verifyHashedrekordEntry, bind_eq_ok, rejectIf_eq_ok, not_not]
    refine ⟨_, hbody, digest, hdigest, digest, ?_, (), rfl, (), ?_, (), hmatch, htime⟩
    · simp only [recordedDigest, Codec.sha256FromSlice, hrecorded, Sha256Hash.tryFromSlice_bytes]
      rfl
    · rw [validateCertificateMatch, hcertificate]
      refine bind_eq_ok.2 ⟨rekord.x509Certificate, rfl, whenSome_eq_ok.2 fun cert h => ?_⟩
      exact rejectIf_eq_ok.2 (not_not.2 (hcert cert h))
  simp only [verifyTlogConsistency, hentries, verifyEntriesConsistency, bind_eq_ok]
  refine ⟨(), ?_, trivial⟩
  unfold verifyEntryConsistency
  cases bundle.content with
  | messageSignature sig =>
    simp only [verifyMessageEntry, hkind]
    exact hentry
  | dsseEnvelope envelope =>
    simp only [verifyEnvelopeEntry, hkind]
    exact hentry

/-! ### Timestamps -/

/-- What is closed in the verification of a token: the certificate of the signer, its chain, and the
window of the authority. -/
theorem timestamp_authority :
    Tsa.findSignerCertificate env.toEnv (.issuerAndSerialNumber [4] [3])
      ([] ++ (tsaOpts env root).tsaCertificates.filterMap fun der =>
        (env.x509.fromDer der).toOption) = .ok (certificate 4 3 []) ∧
    Tsa.validateTsaCertificateChain env.toEnv (certificate 4 3 []) 1700000000000000000
      (tsaOpts env root) [] = .ok (certDer 4) ∧
    root.isTimestampWithinTsaValidity env.time 1700000000000000000 = .ok true ∧
    env.time.fromSecond (UInt64.toInt64 1700000000) = .ok 1700000000000000000 := by
  decide

/-- The time stamp in a token over a signature. -/
def stamp (signature : Bytes) : Tsa.TstInfo :=
  { hashAlgorithm := Tsa.oidSha256
    hashedMessage := (sha256 signature).bytes
    genTime := 1700000000 }

/-- The digest that the signer of a time stamp signs. -/
def stampDigest (signature : Bytes) : Bytes := (sha256 (sha256 signature).bytes).bytes

/-- The signed data of a token over a signature. -/
def stampData (signature : Bytes) : Tsa.SignedData :=
  { econtentType := Tsa.oidTstInfo
    econtent := some (sha256 signature).bytes
    certificates := none
    signerInfos := [{
      sid := .issuerAndSerialNumber [4] [3]
      digestAlg := Tsa.oidSha256
      signedAttrs := some [⟨Tsa.oidMessageDigest, [⟨0x04, stampDigest signature⟩]⟩]
      signature := sign 3 (stampDigest signature) }] }

/-- The digest of a time stamp is not the artifact. -/
theorem stampDigest_ne_artifact (signature : Bytes) : stampDigest signature ≠ artifact := by
  intro h
  have hlength := (sha256 (sha256 signature).bytes).length_bytes
  have hartifact : artifact.length = 1 := rfl
  rw [show (sha256 (sha256 signature).bytes).bytes = artifact from h, hartifact] at hlength
  cases hlength

/-- The token over a signature is parsed as its time stamp. -/
theorem parseTimestampToken_timestamp :
    Tsa.parseTimestampToken (alike P encode).toEnv (timestamp signature).signedTimestamp =
      .ok (stamp signature, stampData signature) := by
  simp only [Tsa.parseTimestampToken, bind_eq_ok, mapError_eq_ok, okOr_eq_ok, rejectIf_eq_ok]
  exact ⟨_, rfl, (), by simp, _, rfl, _, rfl, (), by simp, _, rfl, _, rfl, rfl⟩

/-- Whatever is not the artifact is verified with the authority's key as in the deployment. -/
theorem verifyEcdsaSignature_stamp (hP : Alike P signature) {message : Bytes}
    (h : message ≠ artifact) :
    Tsa.verifyEcdsaSignature (alike P encode).toEnv (sign 3 message) message (certificate 4 3 [])
      Tsa.oidSha256 = .ok () := by
  have hverify : P.verify .ecdsaP256Sha256 (keyRaw 3) message (sign 3 message) = true :=
    (hP.verify _ _ _ h).trans (beq_self_eq_true (sign 3 message))
  simp only [Tsa.verifyEcdsaSignature, bind_eq_ok, mapError_eq_ok, okOr_eq_ok, rejectIf_eq_ok]
  exact ⟨_, rfl, (), by simp [certificate], _, rfl, secp256r1, by rfl, .ecdsaP256Sha256, by decide,
    Bool.ne_false_iff.2 hverify⟩

/-- The signature of the token over a signature is verified, with the authority's certificate for
its signer. -/
theorem verifyCmsSignature_stamp (hP : Alike P signature) :
    Tsa.verifyCmsSignature (alike P encode).toEnv (stampData signature) (sha256 signature).bytes
      (tsaOpts env root) = .ok (certificate 4 3 []) := by
  have hdigest : Tsa.verifyMessageDigestAttribute (alike P encode).toEnv
      [⟨Tsa.oidMessageDigest, [⟨0x04, stampDigest signature⟩]⟩] (sha256 signature).bytes
      Tsa.oidSha256 = .ok () := by
    simp only [Tsa.verifyMessageDigestAttribute, bind_eq_ok, mapError_eq_ok, okOr_eq_ok,
      rejectIf_eq_ok]
    exact ⟨_, rfl, _, rfl, _, rfl, _, rfl, _, rfl,
      not_not.2 (congrArg Sha256Hash.bytes hP.digest)⟩
  have hattributes : Tsa.getSignedAttrsForVerification (alike P encode).toEnv
      [⟨Tsa.oidMessageDigest, [⟨0x04, stampDigest signature⟩]⟩] = .ok (stampDigest signature) := by
    simp only [Tsa.getSignedAttrsForVerification, bind_eq_ok, mapError_eq_ok]
    exact ⟨_, rfl, by simp [alike, env, cms]⟩
  have hextracted : Tsa.extractCertificates (stampData signature) = [] := rfl
  have hinfo : (stampData signature).signerInfos.head? = some {
      sid := .issuerAndSerialNumber [4] [3]
      digestAlg := Tsa.oidSha256
      signedAttrs := some [⟨Tsa.oidMessageDigest, [⟨0x04, stampDigest signature⟩]⟩]
      signature := sign 3 (stampDigest signature) } := rfl
  simp only [Tsa.verifyCmsSignature, hinfo, hextracted, bind_eq_ok, okOr_eq_ok]
  refine ⟨_, rfl, _, timestamp_authority.1, _, rfl, (), hdigest, _, hattributes, (),
    verifyEcdsaSignature_stamp hP (stampDigest_ne_artifact signature), rfl⟩

/-- A token of the deployment verifies for the signature that it is over, whatever that is. The
token is evaluated up to its imprint, which is the hash of the signature and is compared without
being computed. -/
theorem verifyTimestamp_timestamp (hP : Alike P signature) :
    verifyTimestamp (alike P encode) root signature (timestamp signature) = .ok 1700000000 := by
  obtain ⟨-, hchain, hwindow, hsecond⟩ := timestamp_authority
  have himprint : Tsa.verifyMessageImprint (alike P encode).toEnv (stamp signature) signature =
      .ok () := by
    simp only [Tsa.verifyMessageImprint, bind_eq_ok, okOr_eq_ok, rejectIf_eq_ok]
    exact ⟨_, rfl, not_not.2 (congrArg Sha256Hash.bytes hP.imprint)⟩
  simp only [verifyTimestamp, Tsa.verifyTimestampResponse, bind_eq_ok, mapError_eq_ok, okOr_eq_ok,
    rejectIf_eq_ok]
  exact ⟨1700000000000000000, ⟨_, parseTimestampToken_timestamp, (), himprint,
    1700000000000000000, hsecond, (), by decide, (sha256 signature).bytes, rfl, certificate 4 3 [],
    verifyCmsSignature_stamp hP, certDer 4, hchain, rfl⟩, true, hwindow, (), by simp, rfl⟩

/-- The time of a bundle with a token over its signature is that of the token. -/
theorem determineValidationTime_timestamp (hP : Alike P signature) {bundle : Types.Bundle}
    (htimestamps : bundle.timestamps = [timestamp signature]) :
    determineValidationTime (alike P encode) root bundle signature = .ok 1700000000 := by
  simp only [determineValidationTime, extractTsaTimestamp, htimestamps, earliestTimestamp,
    verifyTimestamp_timestamp hP]
  rfl

/-! ### Tree heads -/

/-- The key of the log, with its hint. -/
theorem rekorKeysWithHints_root : root.rekorKeysWithHints env.time env.codec =
    .ok [(⟨[0x2d, 0xf9, 0x28, 0x85], rfl⟩, keyDer 5)] := by
  decide

/-- A tree head of the log with its signatures. -/
def signedHead (size : UInt64) (rootHash : Sha256Hash) (sigs : List (KeyHint × Bytes))
    (head : String) : Checkpoint :=
  { origin := "rekor.example"
    treeSize := size
    rootHash := rootHash
    otherContent := []
    signatures := sigs.map fun sig => ⟨"rekor.example", sig.1, sig.2⟩
    signedNoteText := head }

/-- The line of a signature of a tree head. -/
def headLine (sig : KeyHint × Bytes) : String :=
  "— rekor.example " ++ text64 (sig.1.bytes ++ sig.2) ++ "\n"

/-- The line of a tree head's signature is the one that is written for it, with a line feed. -/
theorem toList_headLine (sig : KeyHint × Bytes) : (headLine sig).toList =
    (Checkpoint.signatureLine codec ⟨"rekor.example", sig.1, sig.2⟩).toList ++ ['\n'] := by
  have hstart : "— rekor.example " = "— " ++ "rekor.example" ++ " " := by simp
  unfold headLine
  rw [hstart, String.toList_append]
  rfl

/-- The lines of a tree head's signatures are those that are written for them. -/
theorem joinLines_headLines (sigs : List (KeyHint × Bytes)) :
    joinLines (sigs.map fun sig => Checkpoint.signatureLine codec ⟨"rekor.example", sig.1, sig.2⟩) =
      String.join (sigs.map headLine) := by
  rw [← String.toList_inj, String.toList_join, joinLines, String.toList_ofList, List.flatMap_map,
    List.flatMap_map]
  simp only [toList_headLine]

/-- The text of a signed tree head is parsed as that tree head. It is `fromText_toText` at this tree
head, which has to be well formed for it. -/
theorem fromText_signedHead {size : UInt64} {rootHash : Sha256Hash} {head : String}
    {sigs : List (KeyHint × Bytes)} (hsome : sigs ≠ []) (hsigs : ∀ sig ∈ sigs, sig.2 ≠ [])
    (hhead : head = "rekor.example\n" ++ toString size ++ "\n" ++ text64 rootHash.bytes ++ "\n") :
    Checkpoint.fromText codec (head ++ "\n" ++ String.join (sigs.map headLine)) =
      .ok (signedHead size rootHash sigs head) := by
  have hwell : (signedHead size rootHash sigs head).WellFormed :=
    { origin := by
        show "rekor.example" ≠ "" ∧ trim "rekor.example" = "rekor.example" ∧
          '\n' ∉ "rekor.example".toList
        decide
      otherContent := nofun
      signatures_ne_nil := fun h => hsome (List.map_eq_nil_iff.1 h)
      signatures := by
        intro s hs
        obtain ⟨sig, hsig, rfl⟩ := List.mem_map.1 hs
        have hname : "rekor.example".toList.all (fun ch => !isWhitespace ch) = true := by
          decide
        exact ⟨(by decide : "rekor.example" ≠ ""), by simpa using hname, hsigs sig hsig⟩ }
  have hbody : (signedHead size rootHash sigs head).toSignedNoteBody codec = head := by
    have hline : "rekor.example\n" = "rekor.example" ++ "\n" := by decide
    rw [hhead, hline]
    rfl
  have htext : (signedHead size rootHash sigs head).toText codec =
      head ++ "\n" ++ String.join (sigs.map headLine) := by
    rw [Checkpoint.toText, hbody, ← joinLines_headLines, signedHead, List.map_map]
    rfl
  rw [← htext, Checkpoint.fromText_wellFormed lawfulBase64_codec base64Alphabet_codec hwell, hbody]
  rfl

/-- The text of a tree head with one signature is parsed as that tree head. This is the text as the
log writes it, in one piece. -/
theorem fromText_signedHead_singleton {size : UInt64} {rootHash : Sha256Hash} {head : String}
    (sig : KeyHint × Bytes) (hsig : sig.2 ≠ [])
    (hhead : head = "rekor.example\n" ++ toString size ++ "\n" ++ text64 rootHash.bytes ++ "\n") :
    Checkpoint.fromText codec
        (head ++ "\n— rekor.example " ++ text64 (sig.1.bytes ++ sig.2) ++ "\n") =
      .ok (signedHead size rootHash [sig] head) := by
  have hstart : "\n— rekor.example " = "\n" ++ "— rekor.example " := by simp
  have htext : head ++ "\n" ++ String.join ([sig].map headLine) =
      head ++ "\n— rekor.example " ++ text64 (sig.1.bytes ++ sig.2) ++ "\n" := by
    rw [hstart, List.map_singleton, String.join_cons, String.join_nil, String.append_empty]
    unfold headLine
    simp only [String.append_assoc]
  rw [← htext]
  exact fromText_signedHead (List.cons_ne_nil _ _) (by simpa using hsig) hhead

/-- A tree head that the key of the log signed verifies, wherever its root is the proof's. The hint
is that of the key, and the signature is over the body of the note. -/
theorem verifyCheckpoint_signedHead (hP : Alike P signature) {size : UInt64}
    {rootHash : Sha256Hash} {head : String} {proof : InclusionProof}
    (hhead : head = "rekor.example\n" ++ toString size ++ "\n" ++ text64 rootHash.bytes ++ "\n")
    (hroot : rootHash = proof.rootHash) :
    verifyCheckpoint (alike P encode) root
      (head ++ "\n— rekor.example " ++
        text64 ((sha256 (keyDer 5)).bytes.take 4 ++ sign 5 (utf8Bytes head)) ++ "\n") proof =
      .ok () := by
  have hhint : (sha256 (keyDer 5)).bytes.take 4 = [0x2d, 0xf9, 0x28, 0x85] := by decide
  have hparsed := fromText_signedHead_singleton
    ⟨⟨[0x2d, 0xf9, 0x28, 0x85], rfl⟩, sign 5 (utf8Bytes head)⟩ (List.cons_ne_nil _ _) hhead
  have hmessage : utf8Bytes head ≠ artifact := by
    intro h
    have hchar : head.toList.head? = some 'r' := by
      rw [hhead]
      simp only [String.toList_append, List.append_assoc]
      rfl
    rw [utf8Bytes_injective h] at hchar
    cases hchar
  have hcodec : (alike P encode).codec = codec := rfl
  rw [hhint]
  simp only [verifyCheckpoint, bind_eq_ok, mapError_eq_ok, rejectIf_eq_ok, hcodec]
  refine ⟨_, hparsed, (), not_not.2 hroot, _, rekorKeysWithHints_root, ?_⟩
  show (verifySignatureAuto P (keyDer 5) (sign 5 (utf8Bytes head)) (utf8Bytes head)).mapError _ = _
  rw [verifySignatureAuto_sign hP hmessage]
  rfl

/-! ### Bundles that are accepted -/

/-- What is parsed of the signing certificate. -/
def certificateInfo : CertificateInfo :=
  { identity := some "signer@example.com"
    issuer := some issuerUrl
    notBefore := 1577836800
    notAfter := 1893456000
    publicKey := keyDer 1
    keyAlgorithm := .ecdsaP256 }

/-- The signing certificate is accepted at the time of the tokens, wherever its key is encoded and
its SCT verifies. -/
theorem certificate_accepted :
    verifyCertificateChain env root (.certificate (certDer 1)) 1700000000 = .ok () ∧
    validateCertificateTime 1700000000 certificateInfo = .ok () ∧
    checkRequired "identity" "identity (SAN)" policy.identity certificateInfo.identity = .ok () ∧
    checkRequired "issuer" "issuer (Fulcio OID extension)" policy.issuer certificateInfo.issuer =
      .ok () := by
  decide

/-- A bundle with a token over its signature is accepted where its certificate, its entry and its
content are. -/
theorem verify_timestamped (bundle : Types.Bundle) (entry : TransparencyLogEntry)
    (hP : Alike P signature)
    (hcertificate : bundle.verificationMaterial.content = .certificate (certDer 1))
    (hentries : bundle.tlogEntries = [entry])
    (htimestamps : bundle.timestamps = [timestamp signature])
    (hinfo : parseCertificateInfo (alike P encode).x509 (certDer 1) = .ok certificateInfo)
    (hsct : verifySct (alike P encode) root (.certificate (certDer 1)) = .ok ())
    (hsignature : extractSignature bundle.content = .ok signature)
    (hvalid : validateBundleWithOptions codec bundle
      { requireInclusionProof := true, requireTimestamp := false } = .ok ())
    (hentry : verifyEntryInclusion (alike P encode) root entry = .ok ())
    (htime : 0 < entry.integratedTime → checkIntegratedTime env 1577836800 1893456000
      policy.clockSkewSeconds entry.integratedTime = .ok ())
    (hcontent : verifyContent (alike P encode) certificateInfo (.bytes artifact) bundle.content =
      .ok ())
    (hconsistent : verifyTlogConsistency (alike P encode) bundle (.bytes artifact) = .ok ()) :
    verify (alike P encode) root (.bytes artifact) bundle policy = .ok
      (result (if 0 < entry.integratedTime then some entry.integratedTime else none)) := by
  obtain ⟨hchain, htimely, hidentity, hissuer⟩ := certificate_accepted
  have hcert : extractCertificate bundle.verificationMaterial.content = .ok (certDer 1) := by
    rw [hcertificate]
    rfl
  have htlog := verifyTlogEntries_singleton hentry htime
  rw [← hcertificate] at hchain hsct
  rw [← hentries] at htlog
  simp only [verify, bind_eq_ok, mapError_eq_ok, whenTrue_eq_ok, pure_eq_ok]
  exact ⟨(), hvalid, certDer 1, hcert, certificateInfo, hinfo, signature,
    hsignature, 1700000000,
    determineValidationTime_timestamp hP htimestamps, (), fun _ => ⟨(), hchain, htimely⟩, (),
    fun _ => hsct, (), hidentity, (), hissuer, _, htlog, (), hcontent, (), fun _ => hconsistent,
    rfl⟩

end

/-- The certificate and the signature of the artifact, in the deployment. -/
theorem certificate_verified :
    parseCertificateInfo env.x509 (certDer 1) = .ok certificateInfo ∧
    verifySct env root (.certificate (certDer 1)) = .ok () ∧
    verifyContent env certificateInfo (.bytes artifact) message = .ok () := by
  decide

/-- The artifact's signature is accepted with an entry of 2023, and with one without a time. It is
one evaluation for both entries, which differ in their integrated time only. -/
theorem verify_message {time : Int64} (htime : time = 1700000000 ∨ time = 0) :
    verify env root (.bytes artifact)
      (bundle (promisedEntry "0.0.2" (document messageBody) time) [timestamp (sign 1 artifact)]
        message) policy = .ok (result (if 0 < time then some time else none)) := by
  have hvalid : validateBundleWithOptions codec
      (bundle (promisedEntry "0.0.2" (document messageBody) time) [timestamp (sign 1 artifact)]
        message) { requireInclusionProof := true, requireTimestamp := false } = .ok () := by
    rcases htime with rfl | rfl
    · decide
    · decide
  have hkey : setKey env root (promisedEntry "0.0.2" (document messageBody) time) =
      .ok (keyDer 5) := by
    rcases htime with rfl | rfl
    · exact (setKey_promisedEntry _ _).1
    · exact (setKey_promisedEntry _ _).2
  have htimely : 0 < time → checkIntegratedTime env 1577836800 1893456000 policy.clockSkewSeconds
      time = .ok () := by
    rcases htime with rfl | rfl
    · exact fun _ => by decide
    · exact fun h => by cases h
  obtain ⟨hinfo, hsct, hcontent⟩ := certificate_verified
  have hentry : verifyEntryInclusion (alike primitives x509.spkiToDer) root
      (promisedEntry "0.0.2" (document messageBody) time) = .ok () :=
    verifyEntryInclusion_promisedEntry (alike_primitives []) hkey
  have hconsistent : verifyTlogConsistency env
      (bundle (promisedEntry "0.0.2" (document messageBody) time) [timestamp (sign 1 artifact)]
        message) (.bytes artifact) = .ok () :=
    verifyTlogConsistency_hashedrekord rfl rfl rfl (entryBody_signed time) rfl rfl
      (fun _ => Option.some.inj) rfl
  exact verify_timestamped (bundle _ _ message) (promisedEntry _ _ time)
    (alike_primitives (sign 1 artifact)) rfl rfl rfl hinfo hsct rfl
    hvalid hentry htimely hcontent hconsistent

/-- The bundle of the deployment is accepted, with the time of its entry. -/
theorem verify_signed :
    verify env root (.bytes artifact) signed policy = .ok (result (some 1700000000)) :=
  verify_message (.inl rfl)

end Sample

end Sigstore.Verify
