import Sigstore.Verify.Binding

/-!
# One signature for the log, the timestamps and the key

An envelope can have several signatures, and the checks look at different ones: any may verify under
the key, timestamps and `hashedrekord` entries have the first, `dsse` entries have all of them, and
`intoto` entries have some. `SameSignature` says that a signature that verifies is one that all the
entries record and all the timestamps cover. It holds of an accepted envelope exactly where no
signature slips between the checks (`sameSignature_iff`). The signature of an envelope that has only
one is valid, logged and timestamped (`verify_single`); of two this need not hold of either
(`verify_mixed`).
-/

namespace Sigstore.Verify

open Checks Types Crypto TrustRoot Rekor

section
variable (E : Env) (root : TrustedRoot)

/-- The signatures that the body of an entry records. -/
def recordedSignatures : RekorEntryBody → List Bytes
  | .hashedRekordV001 rekord => [rekord.signatureContent]
  | .hashedRekordV002 rekord => [rekord.signatureContent]
  | .dsseV001 dsse => dsse.signatures.map DsseV001Signature.signature
  | .dsseV002 dsse => dsse.signatures.map DsseV002Signature.content
  | .intotoV002 intoto =>
    intoto.signatures.filterMap fun s => (E.codec.base64DecodeBytes s.sig).toOption

/-- An entry records a signature. -/
def Records (entry : TransparencyLogEntry) (sig : Bytes) : Prop :=
  ∃ body, entryBody E entry = .ok body ∧ sig ∈ recordedSignatures E body

/-- A timestamp covers a signature. -/
def Covers (ts : Rfc3161Timestamp) (sig : Bytes) : Prop :=
  ∃ tstInfo time,
    Tsa.TokenVerified E.toEnv ts.signedTimestamp sig (tsaOpts E root) tstInfo time

/-- Every signature of an envelope that verifies under a key is recorded by all the log entries of
the bundle and covered by all its timestamps. -/
def SameSignature (bundle : Types.Bundle) (envelope : DsseEnvelope) (publicKey : Bytes)
    (scheme : SigningScheme) : Prop :=
  ∀ s ∈ envelope.signatures, SignatureValid E.primitives publicKey envelope.pae s.sig scheme →
    (∀ entry ∈ bundle.tlogEntries, Records E entry s.sig) ∧
    ∀ ts ∈ bundle.timestamps, Covers E root ts s.sig

/-- A signature does not slip between the checks: it is the first one, if there are `hashedrekord`
entries; the `intoto` entries have it; and the timestamps cover it, unless it is the first one and
they are checked for that. -/
structure Unmixed (bundle : Types.Bundle) (checked : Bool) (sig : Bytes) : Prop where
  hashedrekord : ∀ entry ∈ bundle.tlogEntries, entry.kindVersion.kind = "hashedrekord" →
    firstSignature bundle.content = some sig
  intoto : ∀ entry ∈ bundle.tlogEntries, entry.kindVersion.kind = "intoto" → Records E entry sig
  timestamps : ¬ (checked = true ∧ firstSignature bundle.content = some sig) →
    ∀ ts ∈ bundle.timestamps, Covers E root ts sig

variable {E root}

/-- A body with a single signature records that one. -/
theorem recordedSignatures_of_recordedSignature {body : RekorEntryBody} {sig : Bytes}
    (h : recordedSignature body = some sig) : recordedSignatures E body = [sig] := by
  cases body with
  | hashedRekordV001 => cases h; rfl
  | hashedRekordV002 => cases h; rfl
  | dsseV001 => cases h
  | dsseV002 => cases h
  | intotoV002 => cases h

/-- What an entry records is read off its body. -/
theorem records_iff_of_body {entry : TransparencyLogEntry} {body : RekorEntryBody} {sig : Bytes}
    (h : entryBody E entry = .ok body) : Records E entry sig ↔ sig ∈ recordedSignatures E body := by
  constructor
  · rintro ⟨body', hbody', hsig⟩
    cases h.symm.trans hbody'
    exact hsig
  · exact fun hsig => ⟨body, h, hsig⟩

/-- What an accepted entry records of an envelope depends on its kind. The `dsse` entries record
every signature, which leaves the two other kinds to say something. -/
theorem records_iff {bundle : Types.Bundle} {artifact : Artifact} {envelope : DsseEnvelope}
    {entry : TransparencyLogEntry} (hcontent : bundle.content = .dsseEnvelope envelope)
    (hmatch : EntryMatches E bundle artifact entry) {s : DsseSignature}
    (hs : s ∈ envelope.signatures) :
    Records E entry s.sig ↔
      (entry.kindVersion.kind = "hashedrekord" → firstSignature bundle.content = some s.sig) ∧
      (entry.kindVersion.kind = "intoto" → Records E entry s.sig) := by
  cases hmatch with
  | message content_eq => rw [hcontent] at content_eq; cases content_eq
  | envelope _ kind_eq body_eq matches_ =>
    obtain ⟨sig, hfirst, hrecorded⟩ := matches_.signature
    rw [records_iff_of_body body_eq, recordedSignatures_of_recordedSignature hrecorded, kind_eq,
      hfirst]
    simp [eq_comm]
  | dsse content_eq kind_eq body_eq matches_ =>
    cases hcontent.symm.trans content_eq
    obtain ⟨r, hr, hsig, -⟩ := matches_.signatures s hs
    have hrecords : Records E entry s.sig :=
      ⟨_, body_eq, List.mem_map.2 ⟨r, hr, hsig⟩⟩
    rw [kind_eq]
    simp [hrecords]
  | intoto _ kind_eq =>
    rw [kind_eq]
    simp

/-- Of an accepted envelope with one signature an `intoto` entry records it. The entry records some
signature, and there is no other. -/
theorem records_of_intoto {bundle : Types.Bundle} {artifact : Artifact} {envelope : DsseEnvelope}
    {entry : TransparencyLogEntry} (hcontent : bundle.content = .dsseEnvelope envelope)
    (hmatch : EntryMatches E bundle artifact entry) (hkind : entry.kindVersion.kind = "intoto")
    {s : DsseSignature} (hs : envelope.signatures = [s]) : Records E entry s.sig := by
  cases hmatch with
  | message content_eq => rw [hcontent] at content_eq; cases content_eq
  | envelope _ kind_eq => rw [kind_eq] at hkind; exact absurd hkind (by decide)
  | dsse _ kind_eq => rw [kind_eq] at hkind; exact absurd hkind (by decide)
  | intoto content_eq _ body_eq matches_ =>
    cases hcontent.symm.trans content_eq
    obtain ⟨s', hs', r, hr, hdecode⟩ := matches_.signature
    rw [hs] at hs'
    cases List.mem_singleton.1 hs'
    exact ⟨_, body_eq, List.mem_filterMap.2 ⟨r, hr, by rw [hdecode]; rfl⟩⟩

/-- The first signature of a bundle whose `intoto` entries record it does not slip between the
checks. -/
theorem Unmixed.of_first {bundle : Types.Bundle} {sig : Bytes}
    (hfirst : firstSignature bundle.content = some sig)
    (hintoto : ∀ entry ∈ bundle.tlogEntries, entry.kindVersion.kind = "intoto" →
      Records E entry sig) : Unmixed E root bundle true sig :=
  { hashedrekord := fun _ _ _ => hfirst
    intoto := hintoto
    timestamps := fun hnot => absurd ⟨rfl, hfirst⟩ hnot }

/-- Every accepted entry of an envelope with one signature records it. -/
theorem records_of_single {bundle : Types.Bundle} {artifact : Artifact} {envelope : DsseEnvelope}
    {entry : TransparencyLogEntry} (hcontent : bundle.content = .dsseEnvelope envelope)
    (hmatch : EntryMatches E bundle artifact entry) {s : DsseSignature}
    (hs : envelope.signatures = [s]) : Records E entry s.sig := by
  have hmem : s ∈ envelope.signatures := hs ▸ List.mem_cons_self
  have hfirst : firstSignature bundle.content = some s.sig := by
    rw [hcontent, firstSignature, hs]
    rfl
  exact (records_iff hcontent hmatch hmem).2
    ⟨fun _ => hfirst, fun hkind => records_of_intoto hcontent hmatch hkind hs⟩

/-- The signature of an envelope that binds an artifact with one signature is valid. -/
theorem signatureValid_of_single {artifact : Artifact} {envelope : DsseEnvelope} {publicKey : Bytes}
    {scheme : SigningScheme} {s : DsseSignature} (hs : envelope.signatures = [s])
    (hbound : ArtifactBound E publicKey scheme artifact (.dsseEnvelope envelope)) :
    SignatureValid E.primitives publicKey envelope.pae s.sig scheme := by
  cases hbound with
  | envelope hsigned _ =>
    obtain ⟨s', hs', hvalid⟩ := hsigned
    rw [hs] at hs'
    rwa [List.mem_singleton.1 hs'] at hvalid

/-- The timestamps of a bundle whose time is established cover its first signature. -/
theorem covers_of_determineValidationTime {bundle : Types.Bundle} {signature : Bytes}
    {time : Int64} (h : determineValidationTime E root bundle signature = .ok time) :
    ∀ ts ∈ bundle.timestamps, Covers E root ts signature := by
  intro ts hts
  obtain ⟨t, ht⟩ := (determineValidationTime_ok E root h).1 ts hts
  simp only [verifyTimestamp, bind_eq_ok, mapError_eq_ok] at ht
  obtain ⟨t', htoken, -⟩ := ht
  obtain ⟨tstInfo, hverified⟩ := Tsa.verifyTimestampResponse_ok E.toEnv htoken
  exact ⟨tstInfo, t', hverified⟩

/-- Where all entries match and timestamps, if checked, cover the first signature, exactly the
signatures that slip between the checks differ from the one that is logged and timestamped. -/
theorem sameSignature_iff_of_matches {bundle : Types.Bundle} {artifact : Artifact}
    {envelope : DsseEnvelope} {publicKey : Bytes} {scheme : SigningScheme} {checked : Bool}
    (hcontent : bundle.content = .dsseEnvelope envelope)
    (hentries : ∀ entry ∈ bundle.tlogEntries, EntryMatches E bundle artifact entry)
    (hstamped : checked = true → ∀ sig, firstSignature bundle.content = some sig →
      ∀ ts ∈ bundle.timestamps, Covers E root ts sig) :
    SameSignature E root bundle envelope publicKey scheme ↔
      ∀ s ∈ envelope.signatures, SignatureValid E.primitives publicKey envelope.pae s.sig scheme →
        Unmixed E root bundle checked s.sig := by
  refine forall₃_congr fun s hs _ => ⟨?_, ?_⟩
  · rintro ⟨hrecords, hcovers⟩
    exact {
      hashedrekord := fun entry hentry =>
        ((records_iff hcontent (hentries entry hentry) hs).1 (hrecords entry hentry)).1
      intoto := fun entry hentry _ => hrecords entry hentry
      timestamps := fun _ => hcovers }
  · intro hunmixed
    constructor
    · intro entry hentry
      exact (records_iff hcontent (hentries entry hentry) hs).2
        ⟨hunmixed.hashedrekord entry hentry, hunmixed.intoto entry hentry⟩
    · by_cases hfirst : checked = true ∧ firstSignature bundle.content = some s.sig
      · exact hstamped hfirst.1 _ hfirst.2
      · exact hunmixed.timestamps hfirst

end

section
variable (E : Env) (root : TrustedRoot)

/-- **When the signature that verifies is the one that is logged and timestamped.** In every
accepted verification of an envelope, with a certificate and log verification or with a key, the
signatures that verify are the ones that all entries record and all timestamps cover if and only if
none that verifies slips between the checks. -/
theorem sameSignature_iff {artifact : Artifact} {bundle : Types.Bundle} {envelope : DsseEnvelope}
    (hcontent : bundle.content = .dsseEnvelope envelope) :
    (∀ policy result, policy.verifyTlog = true →
      verify E root artifact bundle policy = .ok result →
      ∃ cert info, bundle.signingCertificate = some cert ∧
        parseCertificateInfo E.x509 cert = .ok info ∧
        (SameSignature E root bundle envelope info.publicKey
            info.keyAlgorithm.defaultSigningScheme ↔
          ∀ s ∈ envelope.signatures, SignatureValid E.primitives info.publicKey envelope.pae s.sig
            info.keyAlgorithm.defaultSigningScheme → Unmixed E root bundle true s.sig)) ∧
    (∀ publicKey result, verifyWithKey E root artifact bundle publicKey = .ok result →
      ∃ scheme, keyScheme E publicKey = .ok scheme ∧
        (SameSignature E root bundle envelope publicKey scheme ↔
          ∀ s ∈ envelope.signatures, SignatureValid E.primitives publicKey envelope.pae s.sig
            scheme → Unmixed E root bundle false s.sig)) := by
  constructor
  · intro policy result hflag h
    obtain ⟨cert, info, signature, time, hv⟩ := verify_ok E root h
    refine ⟨cert, info, hv.certificate, hv.info, sameSignature_iff_of_matches hcontent
      (verifyTlogConsistency_ok E (hv.consistent hflag)) fun _ sig hsig => ?_⟩
    cases hv.signature_eq.symm.trans hsig
    exact covers_of_determineValidationTime hv.validationTime
  · intro publicKey result h
    obtain ⟨scheme, hv⟩ := verifyWithKey_ok E root h
    exact ⟨scheme, hv.scheme_eq, sameSignature_iff_of_matches hcontent
      (verifyTlogConsistency_ok E hv.consistent) fun hchecked => by cases hchecked⟩

/-- **The signature of an envelope that has one.** Where an envelope with a single signature is
accepted with a certificate and log verification, that signature is valid under the certificate's
key, every entry records it and every timestamp covers it. With a key the timestamps say nothing, as
they are not verified. -/
theorem verify_single {artifact : Artifact} {bundle : Types.Bundle} {envelope : DsseEnvelope}
    {s : DsseSignature} (hcontent : bundle.content = .dsseEnvelope envelope)
    (hs : envelope.signatures = [s]) :
    (∀ policy result, policy.verifyTlog = true →
      verify E root artifact bundle policy = .ok result →
      ∃ cert info, bundle.signingCertificate = some cert ∧
        parseCertificateInfo E.x509 cert = .ok info ∧
        SignatureValid E.primitives info.publicKey envelope.pae s.sig
          info.keyAlgorithm.defaultSigningScheme ∧
        (∀ entry ∈ bundle.tlogEntries, Records E entry s.sig) ∧
        ∀ ts ∈ bundle.timestamps, Covers E root ts s.sig) ∧
    (∀ publicKey result, verifyWithKey E root artifact bundle publicKey = .ok result →
      ∃ scheme, keyScheme E publicKey = .ok scheme ∧
        SignatureValid E.primitives publicKey envelope.pae s.sig scheme ∧
        ∀ entry ∈ bundle.tlogEntries, Records E entry s.sig) := by
  constructor
  · intro policy result hflag h
    obtain ⟨cert, info, signature, time, hv⟩ := verify_ok E root h
    have hfirst := hv.signature_eq
    have hsigned := hv.content
    rw [hcontent] at hfirst hsigned
    rw [firstSignature, hs] at hfirst
    cases hfirst
    have hbound := verifyEnvelope_eq_ok.1 hsigned
    exact ⟨cert, info, hv.certificate, hv.info, signatureValid_of_single hs hbound,
      fun entry hentry => records_of_single hcontent
        (verifyTlogConsistency_ok E (hv.consistent hflag) entry hentry) hs,
      covers_of_determineValidationTime hv.validationTime⟩
  · intro publicKey result h
    obtain ⟨_, hv⟩ := verifyWithKey_ok E root h
    obtain ⟨scheme, hscheme, hbound⟩ := verifyWithKey_artifactBound E root h
    rw [hcontent] at hbound
    exact ⟨scheme, hscheme, signatureValid_of_single hs hbound, fun entry hentry =>
      records_of_single hcontent (verifyTlogConsistency_ok E hv.consistent entry hentry) hs⟩

end

namespace Sample

/-- An envelope with the statement. -/
def envelope (signatures : List Bytes) : DsseEnvelope :=
  { payloadType := payloadType
    payload := document statement
    signatures := signatures.map fun sig => ⟨sig, ""⟩ }

/-- A bundle with signatures of the envelope, one of which is logged and timestamped. -/
def attested (signatures : List Bytes) (logged : Bytes) : Types.Bundle :=
  bundle (promisedEntry "0.0.2" (document (envelopeBody logged)) 0) [timestamp logged]
    (.dsseEnvelope (envelope signatures))

/-- What an entry of a signature of the envelope is parsed as. -/
def loggedEnvelope (signature : Bytes) : HashedRekordV002Body :=
  { digest := (sha256 (pae payloadType (document statement))).bytes
    signatureContent := signature
    x509Certificate := some (certDer 1)
    publicKey := none }

/-- The entries of the envelope's two signatures are ASCII texts, differ from the other texts of the
deployment, and are read as `hashedrekord` bodies. -/
theorem logged_envelopeBody :
    ((document (envelopeBody envelopeSignature)).all (· < 0x80) = true ∧
      (∀ d ∈ [statement, messageBody, bareKeyBody],
        ¬ document d = document (envelopeBody envelopeSignature)) ∧
      HashedRekordV002Body.de codec (envelopeBody envelopeSignature) =
        .ok (loggedEnvelope envelopeSignature)) ∧
    ((document (envelopeBody [0x00])).all (· < 0x80) = true ∧
      (∀ d ∈ [statement, messageBody, bareKeyBody, envelopeBody envelopeSignature],
        ¬ document d = document (envelopeBody [0x00])) ∧
      HashedRekordV002Body.de codec (envelopeBody [0x00]) = .ok (loggedEnvelope [0x00])) := by
  decide +kernel

/-- The entry of either signature of the envelope is parsed. -/
theorem entryBody_envelope {signature : Bytes}
    (h : signature = envelopeSignature ∨ signature = [0x00]) :
    entryBody env (promisedEntry "0.0.2" (document (envelopeBody signature)) 0) =
      .ok (.hashedRekordV002 (loggedEnvelope signature)) := by
  rcases h with rfl | rfl
  · exact entryBody_document [statement, messageBody, bareKeyBody] _ rfl rfl rfl
      logged_envelopeBody.1
  · exact entryBody_document [statement, messageBody, bareKeyBody, envelopeBody envelopeSignature]
      _ rfl rfl rfl logged_envelopeBody.2

/-- The logs are satisfied with an envelope whose first signature is logged. -/
theorem verifyTlogConsistency_attested {first : Bytes} (others : List Bytes)
    (h : first = envelopeSignature ∨ first = [0x00]) :
    verifyTlogConsistency env (attested (first :: others) first) (.bytes artifact) = .ok () :=
  verifyTlogConsistency_hashedrekord rfl rfl rfl (entryBody_envelope h) rfl rfl
    (fun _ => Option.some.inj) rfl

/-- The statement names the artifact, so any envelope that has its signature is accepted. The check
asks for one signature that verifies, whatever the others are. -/
theorem verifyEnvelope_envelope {signatures : List Bytes} (h : envelopeSignature ∈ signatures) :
    verifyEnvelope env (keyDer 1) .ecdsaP256Sha256 (envelope signatures) (.bytes artifact) =
      .ok () := by
  have hread : (document statement).all (· < 0x80) = true ∧
      (Statement.de statement).toOption.any (fun s =>
        decide (s.subject ≠ []) && s.matchesSha256 (sha256 artifact).toHex) = true := by
    decide +kernel
  obtain ⟨hascii, hread⟩ := hread
  obtain ⟨text, hdecoded, htext⟩ := exists_text hascii
  have hparse : codec.parseJson text = .ok statement :=
    parseJson_document (List.find?_cons_of_pos (by simp [htext]))
  cases hstatement : Statement.de statement with
  | error e => rw [hstatement] at hread; cases hread
  | ok s =>
    simp only [hstatement, Except.toOption, Option.any_some, Bool.and_eq_true,
      decide_eq_true_eq] at hread
    have hsigned : signatureVerifies env (keyDer 1) .ecdsaP256Sha256 (envelope signatures)
        ⟨envelopeSignature, ""⟩ = true := by
      have hverify : primitives.verify .ecdsaP256Sha256 (keyRaw 1) (envelope signatures).pae
          envelopeSignature = true := beq_self_eq_true envelopeSignature
      rw [signatureVerifies, isOk_iff]
      exact ⟨(), verifySignature_eq_ok.2 ⟨_, rfl, hverify⟩⟩
    have hany : (envelope signatures).signatures.any
        (signatureVerifies env (keyDer 1) .ecdsaP256Sha256 (envelope signatures)) = true :=
      List.any_eq_true.2 ⟨_, List.mem_map.2 ⟨_, h, rfl⟩, hsigned⟩
    have hhash : Codec.sha256FromSlice (sha256 artifact).bytes = .ok (sha256 artifact) :=
      mapError_eq_ok.2 (Sha256Hash.tryFromSlice_bytes _)
    have hpayload : env.codec.fromUtf8 (document statement) = .ok text := okOr_eq_ok.2 hdecoded
    have htyped : env.codec.fromJson Statement.de text = .ok s :=
      bind_eq_ok.2 ⟨_, hparse, mapError_eq_ok.2 hstatement⟩
    simp only [verifyEnvelope, verifyDsseArtifactBinding, bind_eq_ok, rejectIf_eq_ok,
      mapError_eq_ok, hany]
    exact ⟨(), Bool.noConfusion, (), not_not.2 rfl, _, rfl, _, hhash, _, hpayload, _, htyped, (),
      hread.1, Bool.ne_false_iff.2 hread.2⟩

/-- The signatures of the envelope that are tried: the one that verifies, alone and before another,
and after one that is logged in its place. -/
def signaturesTried : List (Bytes × List Bytes) :=
  [(envelopeSignature, []), (envelopeSignature, [[0x00]]), ([0x00], [envelopeSignature])]

/-- Each time the first signature is one of which the log has an entry, and one of them verifies. -/
theorem signaturesTried_spec {p : Bytes × List Bytes} (h : p ∈ signaturesTried) :
    (p.1 = envelopeSignature ∨ p.1 = [0x00]) ∧ envelopeSignature ∈ p.1 :: p.2 := by
  revert p
  simp [signaturesTried]

/-- The envelope is accepted where its first signature is logged and any of them verifies. The
bundles of the statement are those that are right and one that slips. -/
theorem verify_attestedFirst {first : Bytes} {others : List Bytes}
    (h : (first, others) ∈ signaturesTried) :
    verify env root (.bytes artifact) (attested (first :: others) first) policy =
      .ok (result none) := by
  have hvalid : ∀ p ∈ signaturesTried,
      Bundle.validateBundleWithOptions env.codec (attested (p.1 :: p.2) p.1)
        { requireInclusionProof := true, requireTimestamp := false } = .ok () := by
    decide
  obtain ⟨hlogged, hsigned⟩ := signaturesTried_spec h
  have hentry : verifyEntryInclusion (alike primitives x509.spkiToDer) root
      (promisedEntry "0.0.2" (document (envelopeBody first)) 0) = .ok () :=
    verifyEntryInclusion_promisedEntry (alike_primitives []) (setKey_promisedEntry _ _).2
  obtain ⟨hinfo, hsct, -⟩ := certificate_verified
  exact verify_timestamped (attested (first :: others) first) (promisedEntry _ _ 0)
    (alike_primitives first) rfl rfl rfl hinfo hsct rfl (hvalid (first, others) h)
    hentry (fun h => by cases h) (verifyEnvelope_envelope hsigned)
    (verifyTlogConsistency_attested others hlogged)

/-- The envelope is accepted for its first signature, although its second one verifies under no key.
-/
theorem verify_attested :
    verify env root (.bytes artifact) (attested [envelopeSignature, [0x00]] envelopeSignature)
      policy = .ok (result none) :=
  verify_attestedFirst (by simp [signaturesTried])

/-- With the certificate's key the bundle is accepted as well. -/
theorem verifyWithKey_attestedFirst {first : Bytes} {others : List Bytes}
    (h : (first, others) ∈ signaturesTried) :
    verifyWithKey env root (.bytes artifact) (attested (first :: others) first) (keyDer 1) =
      .ok { result none with identity := none, issuer := none } := by
  obtain ⟨_, _, _, _, hv⟩ := verify_ok env root (verify_attestedFirst h)
  have hdetected : keyScheme env (keyDer 1) = .ok .ecdsaP256Sha256 := by decide
  exact verifyWithKey_eq_ok env root hv.validated hdetected (hv.entries rfl)
    (verifyEnvelope_envelope (signaturesTried_spec h).2) (hv.consistent rfl)

/-- Of two signatures the one that verifies is the first one, which does not slip. The second
signature is one byte, which no key has made. -/
theorem unmixed_attested {sig : DsseSignature}
    (hsig : sig ∈ (envelope [envelopeSignature, [0x00]]).signatures)
    (hvalid : SignatureValid primitives (keyDer 1) (envelope [envelopeSignature, [0x00]]).pae
      sig.sig .ecdsaP256Sha256) :
    Unmixed env root (attested [envelopeSignature, [0x00]] envelopeSignature) true sig.sig := by
  have hkind : ∀ entry ∈ (attested [envelopeSignature, [0x00]] envelopeSignature).tlogEntries,
      entry.kindVersion.kind ≠ "intoto" := by
    intro entry hentry
    rw [List.mem_singleton.1 hentry]
    exact (by decide : "hashedrekord" ≠ "intoto")
  rcases List.mem_cons.1 hsig with rfl | hsig
  · exact .of_first rfl fun entry hentry h => absurd h (hkind entry hentry)
  · obtain rfl := List.mem_singleton.1 hsig
    obtain ⟨spki, hspki, hverify⟩ := hvalid
    cases hspki
    cases eq_of_beq hverify

end Sample

/-- The two signatures of an envelope, with the certificate and with its key. The envelope has a
valid signature and an invalid one, in this order, and both the theorem and its condition speak of
the first. -/
theorem sameSignature_iff_attested :
    SameSignature Sample.env Sample.root
      (Sample.attested [Sample.envelopeSignature, [0x00]] Sample.envelopeSignature)
      (Sample.envelope [Sample.envelopeSignature, [0x00]]) (Sample.keyDer 1) .ecdsaP256Sha256 ∧
    ∀ s ∈ (Sample.envelope [Sample.envelopeSignature, [0x00]]).signatures,
      SignatureValid Sample.primitives (Sample.keyDer 1)
        (Sample.envelope [Sample.envelopeSignature, [0x00]]).pae s.sig .ecdsaP256Sha256 →
      Unmixed Sample.env Sample.root
        (Sample.attested [Sample.envelopeSignature, [0x00]] Sample.envelopeSignature) false
        s.sig := by
  have hcontent : (Sample.attested [Sample.envelopeSignature, [0x00]]
      Sample.envelopeSignature).content =
        .dsseEnvelope (Sample.envelope [Sample.envelopeSignature, [0x00]]) := rfl
  have hiff := @sameSignature_iff Sample.env Sample.root (.bytes Sample.artifact) _ _ hcontent
  obtain ⟨cert, info, hcert, hinfo, hverify⟩ := hiff.1 Sample.policy _ rfl Sample.verify_attested
  obtain ⟨scheme, hscheme, hkey⟩ := hiff.2 _ _
    (Sample.verifyWithKey_attestedFirst (by simp [Sample.signaturesTried]))
  cases hcert
  cases Sample.certificate_verified.1.symm.trans hinfo
  have hdetected : keyScheme Sample.env (Sample.keyDer 1) = .ok .ecdsaP256Sha256 := by decide
  cases hdetected.symm.trans hscheme
  have hsame := hverify.2 fun s hs hvalid => Sample.unmixed_attested hs hvalid
  exact ⟨hsame, hkey.1 hsame⟩

/-- An envelope with one signature, with the certificate and with its key. -/
theorem verify_single_attested :
    SignatureValid Sample.primitives (Sample.keyDer 1)
      (Sample.envelope [Sample.envelopeSignature]).pae Sample.envelopeSignature .ecdsaP256Sha256 ∧
    (∀ entry ∈ (Sample.attested [Sample.envelopeSignature] Sample.envelopeSignature).tlogEntries,
      Records Sample.env entry Sample.envelopeSignature) ∧
    ∀ ts ∈ (Sample.attested [Sample.envelopeSignature] Sample.envelopeSignature).timestamps,
      Covers Sample.env Sample.root ts Sample.envelopeSignature := by
  have hcontent : (Sample.attested [Sample.envelopeSignature] Sample.envelopeSignature).content =
      .dsseEnvelope (Sample.envelope [Sample.envelopeSignature]) := rfl
  have htried : (Sample.envelopeSignature, []) ∈ Sample.signaturesTried := by
    simp [Sample.signaturesTried]
  obtain ⟨hcertificate, hkey⟩ :=
    @verify_single Sample.env Sample.root (.bytes Sample.artifact) _ _ _ hcontent rfl
  obtain ⟨_, _, -, -, -, -, hcovers⟩ :=
    hcertificate Sample.policy _ rfl (Sample.verify_attestedFirst htried)
  obtain ⟨scheme, hscheme, hvalid, hrecords⟩ :=
    hkey _ _ (Sample.verifyWithKey_attestedFirst htried)
  have hdetected : keyScheme Sample.env (Sample.keyDer 1) = .ok .ecdsaP256Sha256 := by decide
  cases hdetected.symm.trans hscheme
  exact ⟨hvalid, hrecords, hcovers⟩

/-- An envelope whose first signature is none, but is logged and timestamped, is accepted for its
second one. -/
theorem verify_mixed :
    verify Sample.env Sample.root (.bytes Sample.artifact)
      (Sample.attested [[0x00], Sample.envelopeSignature] [0x00]) Sample.policy =
        .ok (Sample.result none) ∧
    Sample.policy.verifyTlog = true ∧
    ∃ info, parseCertificateInfo Sample.x509 (Sample.certDer 1) = .ok info ∧
      ¬ SameSignature Sample.env Sample.root
        (Sample.attested [[0x00], Sample.envelopeSignature] [0x00])
        (Sample.envelope [[0x00], Sample.envelopeSignature]) info.publicKey
        info.keyAlgorithm.defaultSigningScheme := by
  refine ⟨Sample.verify_attestedFirst (by simp [Sample.signaturesTried]), rfl,
    Sample.certificateInfo, Sample.certificate_verified.1, fun hsame => ?_⟩
  have hvalid : SignatureValid Sample.primitives (Sample.keyDer 1)
      (Sample.envelope [[0x00], Sample.envelopeSignature]).pae Sample.envelopeSignature
      .ecdsaP256Sha256 := ⟨_, rfl, beq_self_eq_true Sample.envelopeSignature⟩
  obtain ⟨body, hbody, hrecorded⟩ :=
    (hsame ⟨Sample.envelopeSignature, ""⟩ (by simp [Sample.envelope]) hvalid).1 _
      List.mem_cons_self
  cases (Sample.entryBody_envelope (.inr rfl)).symm.trans hbody
  have hother : Sample.envelopeSignature ≠ [0x00] := fun h => nomatch h
  exact hother (List.mem_singleton.1 hrecorded)

end Sigstore.Verify
