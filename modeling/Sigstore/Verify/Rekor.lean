import Sigstore.Verify.HashedRekord

/-!
# Consistency of log entries

`verify_tlog_consistency` (`verify_impl/rekor.rs`): every log entry is compared with the bundle's
content by its kind and version. `EntryMatches` is what an accepted entry establishes.
-/

namespace Sigstore.Verify

open Checks Types Crypto Rekor

section
variable (E : Env)

/-! ## `dsse` 0.0.1 -/

/-- The inner loop over the recorded signatures: whether one is the bundle's signature, with the
bundle's certificate as its verifier where it has one. -/
def matchDsseSignature (cert : Option Bytes) (sig : Bytes) :
    List DsseV001Signature → Except Error Bool
  | [] => .ok false
  | rekorSig :: l =>
    if sig ≠ rekorSig.signature then matchDsseSignature cert sig l
    else
      match cert with
      | none => .ok true
      | some cert => do
        let rekorCert ← (toCertificate E.codec E.primitives rekorSig.verifier).mapError fun e =>
          .verification e.display
        if cert = rekorCert then return true else matchDsseSignature (some cert) sig l

/-- The outer loop over the signatures of the envelope. -/
def matchDsseSignatures (cert : Option Bytes) (rekorSigs : List DsseV001Signature) :
    List DsseSignature → Except Error Unit
  | [] => .ok ()
  | bundleSig :: l => do
    let found ← matchDsseSignature E cert bundleSig.sig rekorSigs
    rejectIf (found = false) (.verification
      ("DSSE signature in bundle does not match any signature in Rekor entry " ++
        "(signature or verifier mismatch)"))
    matchDsseSignatures cert rekorSigs l

/-- The body of a `dsse` 0.0.1 entry. -/
def asDsseV001 : RekorEntryBody → Except Error DsseV001Body
  | .dsseV001 body => .ok body
  | _ => .error (.verification "expected DSSE v0.0.1 body, got different type")

/-- Verify a `dsse` 0.0.1 entry: the hash of the payload, and the list of signatures with their
verifiers. The hash of the envelope is not verified. -/
def verifyDsseV001 (entry : TransparencyLogEntry) (envelope : DsseEnvelope)
    (bundle : Types.Bundle) : Except Error Unit := do
  let body ← entryBody E entry
  let dsseBody ← asDsseV001 body
  let payloadHashHex := (E.primitives.sha256 envelope.payload).toHex
  rejectIf (payloadHashHex ≠ dsseBody.payloadHashValue) (.verification
    (s!"DSSE payload hash mismatch: computed {payloadHashHex}, " ++
      s!"expected {dsseBody.payloadHashValue}"))
  rejectIf (envelope.signatures.length ≠ dsseBody.signatures.length) (.verification
    (s!"DSSE signature count mismatch: bundle has {envelope.signatures.length}, " ++
      s!"Rekor entry has {dsseBody.signatures.length}"))
  matchDsseSignatures E bundle.signingCertificate dsseBody.signatures envelope.signatures

/-! ## `intoto` 0.0.2 -/

/-- The inner loop over the recorded signatures, which are decoded one by one. -/
def matchIntotoSignature (sig : Bytes) : List IntotoSignature → Except Error Bool
  | [] => .ok false
  | rekorSig :: l => do
    let decoded ← (E.codec.base64DecodeBytes rekorSig.sig).mapError fun e =>
      .verification s!"failed to decode Rekor signature: {e}"
    if sig = decoded then return true else matchIntotoSignature sig l

/-- The outer loop, up to the first signature of the envelope that is recorded. -/
def matchIntotoSignatures (rekorSigs : List IntotoSignature) :
    List DsseSignature → Except Error Bool
  | [] => .ok false
  | bundleSig :: l => do
    let found ← matchIntotoSignature E bundleSig.sig rekorSigs
    if found then return true else matchIntotoSignatures rekorSigs l

/-- The body of an `intoto` 0.0.2 entry. -/
def asIntotoV002 : RekorEntryBody → Except Error IntotoV002Body
  | .intotoV002 body => .ok body
  | _ => .error (.verification "expected Intoto v0.0.2 body, got different type")

/-- Verify an `intoto` 0.0.2 entry: the payload, and any of the signatures. -/
def verifyIntotoV002 (entry : TransparencyLogEntry) (envelope : DsseEnvelope) :
    Except Error Unit := do
  let body ← entryBody E entry
  let intotoBody ← asIntotoV002 body
  let rekorPayloadBytes ← (E.codec.base64DecodeBytes intotoBody.payload).mapError fun e =>
    .verification s!"failed to decode Rekor payload: {e}"
  rejectIf (envelope.payload ≠ rekorPayloadBytes)
    (.verification "DSSE payload in bundle does not match intoto Rekor entry")
  let foundMatch ← matchIntotoSignatures E intotoBody.signatures envelope.signatures
  rejectIf (foundMatch = false)
    (.verification "DSSE signature in bundle does not match intoto Rekor entry")

/-! ## All entries -/

/-- The comparison of an entry with an envelope, by the entry's kind and version. -/
def verifyEnvelopeEntry (bundle : Types.Bundle) (artifact : Artifact) (envelope : DsseEnvelope)
    (entry : TransparencyLogEntry) : Except Error Unit :=
  match entry.kindVersion.kind with
  | "hashedrekord" =>
    match entry.kindVersion.version with
    | "0.0.2" => verifyHashedrekordEntry E entry bundle artifact
    | version => .error (.verification
        s!"unsupported hashedrekord entry version for DSSE envelope: {version}")
  | "dsse" =>
    match entry.kindVersion.version with
    | "0.0.1" => verifyDsseV001 E entry envelope bundle
    | version => .error (.verification s!"unsupported dsse entry version: {version}")
  | "intoto" =>
    match entry.kindVersion.version with
    | "0.0.2" => verifyIntotoV002 E entry envelope
    | version => .error (.verification s!"unsupported intoto entry version: {version}")
  | kind => .error (.verification s!"unsupported log entry kind for DSSE envelope: {kind}")

/-- The comparison of an entry with a message signature. -/
def verifyMessageEntry (bundle : Types.Bundle) (artifact : Artifact)
    (entry : TransparencyLogEntry) : Except Error Unit :=
  match entry.kindVersion.kind with
  | "hashedrekord" =>
    match entry.kindVersion.version with
    | "0.0.1" => verifyHashedrekordEntry E entry bundle artifact
    | "0.0.2" => verifyHashedrekordEntry E entry bundle artifact
    | version => .error (.verification s!"unsupported hashedrekord entry version: {version}")
  | kind => .error (.verification s!"unsupported log entry kind for MessageSignature: {kind}")

/-- The comparison of an entry with the bundle's content. -/
def verifyEntryConsistency (bundle : Types.Bundle) (artifact : Artifact)
    (entry : TransparencyLogEntry) : Except Error Unit :=
  match bundle.content with
  | .dsseEnvelope envelope => verifyEnvelopeEntry E bundle artifact envelope entry
  | .messageSignature _ => verifyMessageEntry E bundle artifact entry

/-- The loop of `verify_tlog_consistency`. -/
def verifyEntriesConsistency (bundle : Types.Bundle) (artifact : Artifact) :
    List TransparencyLogEntry → Except Error Unit
  | [] => .ok ()
  | entry :: l => do
    verifyEntryConsistency E bundle artifact entry
    verifyEntriesConsistency bundle artifact l

/-- Verify that all log entries are consistent with the bundle's content and the artifact. -/
def verifyTlogConsistency (bundle : Types.Bundle) (artifact : Artifact) : Except Error Unit :=
  verifyEntriesConsistency E bundle artifact bundle.tlogEntries

/-! ## What an accepted entry establishes -/

/-- A recorded signature of a `dsse` 0.0.1 entry is a bundle's signature, with the bundle's
certificate as its verifier where it has one. -/
def DsseSignatureMatches (cert : Option Bytes) (sig : Bytes) (rekorSig : DsseV001Signature) :
    Prop :=
  rekorSig.signature = sig ∧
    ∀ c, cert = some c → toCertificate E.codec E.primitives rekorSig.verifier = .ok c

/-- What a `dsse` 0.0.1 body establishes. -/
structure DsseMatches (bundle : Types.Bundle) (envelope : DsseEnvelope) (body : DsseV001Body) :
    Prop where
  payload : body.payloadHashValue = (E.primitives.sha256 envelope.payload).toHex
  count : envelope.signatures.length = body.signatures.length
  signatures : ∀ s ∈ envelope.signatures, ∃ r ∈ body.signatures,
    DsseSignatureMatches E bundle.signingCertificate s.sig r

/-- What an `intoto` 0.0.2 body establishes. -/
structure IntotoMatches (envelope : DsseEnvelope) (body : IntotoV002Body) : Prop where
  payload : E.codec.base64DecodeBytes body.payload = .ok envelope.payload
  signature : ∃ s ∈ envelope.signatures, ∃ r ∈ body.signatures,
    E.codec.base64DecodeBytes r.sig = .ok s.sig

/-- An accepted entry, by the content of the bundle and the entry's kind and version. -/
inductive EntryMatches (bundle : Types.Bundle) (artifact : Artifact)
    (entry : TransparencyLogEntry) : Prop where
  | message {sig : MessageSignature} {body : RekorEntryBody}
      (content_eq : bundle.content = .messageSignature sig)
      (kind_eq : entry.kindVersion.kind = "hashedrekord")
      (version_eq : entry.kindVersion.version = "0.0.1" ∨ entry.kindVersion.version = "0.0.2")
      (body_eq : entryBody E entry = .ok body)
      (matches_ : HashedRekordMatches E bundle artifact entry.kindVersion.version body)
  | envelope {envelope : DsseEnvelope} {body : RekorEntryBody}
      (content_eq : bundle.content = .dsseEnvelope envelope)
      (kind_eq : entry.kindVersion = ⟨"hashedrekord", "0.0.2"⟩)
      (body_eq : entryBody E entry = .ok body)
      (matches_ : HashedRekordMatches E bundle artifact "0.0.2" body)
  | dsse {envelope : DsseEnvelope} {body : DsseV001Body}
      (content_eq : bundle.content = .dsseEnvelope envelope)
      (kind_eq : entry.kindVersion = ⟨"dsse", "0.0.1"⟩)
      (body_eq : entryBody E entry = .ok (.dsseV001 body))
      (matches_ : DsseMatches E bundle envelope body)
  | intoto {envelope : DsseEnvelope} {body : IntotoV002Body}
      (content_eq : bundle.content = .dsseEnvelope envelope)
      (kind_eq : entry.kindVersion = ⟨"intoto", "0.0.2"⟩)
      (body_eq : entryBody E entry = .ok (.intotoV002 body))
      (matches_ : IntotoMatches E envelope body)

/-- A signature that is matched is a recorded one, with the certificate for its verifier. The search
passes over recorded signatures that differ, and fails where the verifier of an equal one cannot be
read. -/
theorem matchDsseSignature_true {cert : Option Bytes} {sig : Bytes}
    {rekorSigs : List DsseV001Signature}
    (h : matchDsseSignature E cert sig rekorSigs = .ok true) :
    ∃ r ∈ rekorSigs, DsseSignatureMatches E cert sig r := by
  induction rekorSigs with
  | nil => cases h
  | cons r l ih =>
    have later : matchDsseSignature E cert sig l = .ok true →
        ∃ r' ∈ r :: l, DsseSignatureMatches E cert sig r' := by
      intro hl
      obtain ⟨r', hmem, hr'⟩ := ih hl
      exact ⟨r', List.mem_cons_of_mem _ hmem, hr'⟩
    unfold matchDsseSignature at h
    by_cases heq : sig = r.signature
    · rw [if_neg (not_not.2 heq)] at h
      cases cert with
      | none => exact ⟨r, List.mem_cons_self, heq.symm, fun c hc => by cases hc⟩
      | some cert =>
        simp only [bind_eq_ok, mapError_eq_ok] at h
        obtain ⟨rekorCert, hrekor, h⟩ := h
        by_cases hcert : cert = rekorCert
        · subst hcert
          exact ⟨r, List.mem_cons_self, heq.symm, fun c hc => by cases hc; exact hrekor⟩
        · rw [if_neg hcert] at h
          exact later h
    · rw [if_pos heq] at h
      exact later h

/-- All signatures of an accepted envelope are recorded. Recorded signatures that the bundle does
not have are not looked for. -/
theorem matchDsseSignatures_ok {cert : Option Bytes} {rekorSigs : List DsseV001Signature}
    {sigs : List DsseSignature} (h : matchDsseSignatures E cert rekorSigs sigs = .ok ()) :
    ∀ s ∈ sigs, ∃ r ∈ rekorSigs, DsseSignatureMatches E cert s.sig r := by
  induction sigs with
  | nil => intro s hs; cases hs
  | cons s l ih =>
    simp only [matchDsseSignatures, bind_eq_ok, rejectIf_eq_ok, Bool.not_eq_false] at h
    obtain ⟨_, hfound, _, rfl, hrest⟩ := h
    intro s' hs'
    cases hs' with
    | head => exact matchDsseSignature_true E hfound
    | tail _ hs' => exact ih hrest s' hs'

/-- A signature that is matched is the text of a recorded one, decoded. The recorded texts are
decoded one by one, and one that cannot be decoded fails the comparison. -/
theorem matchIntotoSignature_true {sig : Bytes} {rekorSigs : List IntotoSignature}
    (h : matchIntotoSignature E sig rekorSigs = .ok true) :
    ∃ r ∈ rekorSigs, E.codec.base64DecodeBytes r.sig = .ok sig := by
  induction rekorSigs with
  | nil => cases h
  | cons r l ih =>
    simp only [matchIntotoSignature, bind_eq_ok, mapError_eq_ok] at h
    obtain ⟨decoded, hdecoded, h⟩ := h
    by_cases heq : sig = decoded
    · subst heq
      exact ⟨r, List.mem_cons_self, hdecoded⟩
    · rw [if_neg heq] at h
      obtain ⟨r', hmem, hr'⟩ := ih h
      exact ⟨r', List.mem_cons_of_mem _ hmem, hr'⟩

/-- Of the signatures of an accepted envelope one at least is recorded. This is weaker than for
`dsse` entries, where every signature of the envelope is looked for. -/
theorem matchIntotoSignatures_true {rekorSigs : List IntotoSignature} {sigs : List DsseSignature}
    (h : matchIntotoSignatures E rekorSigs sigs = .ok true) :
    ∃ s ∈ sigs, ∃ r ∈ rekorSigs, E.codec.base64DecodeBytes r.sig = .ok s.sig := by
  induction sigs with
  | nil => cases h
  | cons s l ih =>
    simp only [matchIntotoSignatures, bind_eq_ok] at h
    obtain ⟨found, hfound, h⟩ := h
    cases found with
    | true => exact ⟨s, List.mem_cons_self, matchIntotoSignature_true E hfound⟩
    | false =>
      obtain ⟨s', hmem, hs'⟩ := ih h
      exact ⟨s', List.mem_cons_of_mem _ hmem, hs'⟩

/-- A body that is taken for a `dsse` 0.0.1 body is one. -/
theorem asDsseV001_ok {body : RekorEntryBody} {b : DsseV001Body} (h : asDsseV001 body = .ok b) :
    body = .dsseV001 b := by
  cases body with
  | dsseV001 => cases h; rfl
  | _ => cases h

/-- A body that is taken for an `intoto` 0.0.2 body is one. -/
theorem asIntotoV002_ok {body : RekorEntryBody} {b : IntotoV002Body}
    (h : asIntotoV002 body = .ok b) : body = .intotoV002 b := by
  cases body with
  | intotoV002 => cases h; rfl
  | _ => cases h

/-- What an accepted `dsse` 0.0.1 entry establishes. -/
theorem verifyDsseV001_ok {entry : TransparencyLogEntry} {envelope : DsseEnvelope}
    {bundle : Types.Bundle} (h : verifyDsseV001 E entry envelope bundle = .ok ()) :
    ∃ body, entryBody E entry = .ok (.dsseV001 body) ∧ DsseMatches E bundle envelope body := by
  simp only [verifyDsseV001, bind_eq_ok, rejectIf_eq_ok, not_not] at h
  obtain ⟨body, hbody, dsseBody, hdsse, _, hpayload, _, hcount, hsigs⟩ := h
  cases asDsseV001_ok hdsse
  exact ⟨dsseBody, hbody, hpayload.symm, hcount, matchDsseSignatures_ok E hsigs⟩

/-- What an accepted `intoto` 0.0.2 entry establishes. -/
theorem verifyIntotoV002_ok {entry : TransparencyLogEntry} {envelope : DsseEnvelope}
    (h : verifyIntotoV002 E entry envelope = .ok ()) :
    ∃ body, entryBody E entry = .ok (.intotoV002 body) ∧ IntotoMatches E envelope body := by
  simp only [verifyIntotoV002, bind_eq_ok, mapError_eq_ok, rejectIf_eq_ok, not_not,
    Bool.not_eq_false] at h
  obtain ⟨body, hbody, intotoBody, hintoto, payload, hdecode, _, hpayload, _, hfound, rfl⟩ := h
  cases asIntotoV002_ok hintoto
  exact ⟨intotoBody, hbody, hpayload ▸ hdecode, matchIntotoSignatures_true E hfound⟩

/-- An accepted entry of an envelope matches it, as its kind and its version say. An entry of
another kind or version is an error. -/
theorem verifyEnvelopeEntry_ok {bundle : Types.Bundle} {artifact : Artifact}
    {envelope : DsseEnvelope} {entry : TransparencyLogEntry}
    (hcontent : bundle.content = .dsseEnvelope envelope)
    (h : verifyEnvelopeEntry E bundle artifact envelope entry = .ok ()) :
    EntryMatches E bundle artifact entry := by
  unfold verifyEnvelopeEntry at h
  split at h
  · next hkind =>
    split at h
    · next hversion =>
      obtain ⟨body, hbody, hmatch⟩ := verifyHashedrekordEntry_ok E h
      rw [hversion] at hmatch
      exact .envelope hcontent (by rw [← hkind, ← hversion]) hbody hmatch
    · cases h
  · next hkind =>
    split at h
    · next hversion =>
      obtain ⟨body, hbody, hmatch⟩ := verifyDsseV001_ok E h
      exact .dsse hcontent (by rw [← hkind, ← hversion]) hbody hmatch
    · cases h
  · next hkind =>
    split at h
    · next hversion =>
      obtain ⟨body, hbody, hmatch⟩ := verifyIntotoV002_ok E h
      exact .intoto hcontent (by rw [← hkind, ← hversion]) hbody hmatch
    · cases h
  · cases h

/-- An accepted entry of a message signature matches it, and it is a `hashedrekord`. An entry of
another kind or version is an error. -/
theorem verifyMessageEntry_ok {bundle : Types.Bundle} {artifact : Artifact}
    {sig : MessageSignature} {entry : TransparencyLogEntry}
    (hcontent : bundle.content = .messageSignature sig)
    (h : verifyMessageEntry E bundle artifact entry = .ok ()) :
    EntryMatches E bundle artifact entry := by
  unfold verifyMessageEntry at h
  split at h
  · next hkind =>
    split at h
    · next hversion =>
      obtain ⟨body, hbody, hmatch⟩ := verifyHashedrekordEntry_ok E h
      exact .message hcontent hkind (.inl hversion) hbody hmatch
    · next hversion =>
      obtain ⟨body, hbody, hmatch⟩ := verifyHashedrekordEntry_ok E h
      exact .message hcontent hkind (.inr hversion) hbody hmatch
    · cases h
  · cases h

/-- An accepted entry matches the content of the bundle. -/
theorem verifyEntryConsistency_ok {bundle : Types.Bundle} {artifact : Artifact}
    {entry : TransparencyLogEntry} (h : verifyEntryConsistency E bundle artifact entry = .ok ()) :
    EntryMatches E bundle artifact entry := by
  unfold verifyEntryConsistency at h
  split at h
  · next hcontent => exact verifyEnvelopeEntry_ok E hcontent h
  · next hcontent => exact verifyMessageEntry_ok E hcontent h

/-- The loop over the entries passes exactly where each of them is consistent. -/
theorem verifyEntriesConsistency_eq_ok {bundle : Types.Bundle} {artifact : Artifact}
    {entries : List TransparencyLogEntry} :
    verifyEntriesConsistency E bundle artifact entries = .ok () ↔
      ∀ entry ∈ entries, verifyEntryConsistency E bundle artifact entry = .ok () :=
  loop_eq_ok rfl fun _ _ => rfl

/-- Every log entry of an accepted bundle matches its content. -/
theorem verifyTlogConsistency_ok {bundle : Types.Bundle} {artifact : Artifact}
    (h : verifyTlogConsistency E bundle artifact = .ok ()) :
    ∀ entry ∈ bundle.tlogEntries, EntryMatches E bundle artifact entry :=
  fun entry hentry => verifyEntryConsistency_ok E
    ((verifyEntriesConsistency_eq_ok E).1 h entry hentry)

end

end Sigstore.Verify
