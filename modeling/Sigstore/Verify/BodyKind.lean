import Sigstore.Verify.Time

/-!
# The type of a logged body

An entry's kind and version are not signed; the body is, but the kind and the version that are
written in it are not read (`entryBody_of_sameSpec`). An accepted entry's body parses as the type
that the entry claims, and where it is written in the format of one of the parsed types it is of
that type (`entry_typed`).
-/

namespace Sigstore.Verify

open Checks Types Rekor

section
variable (E : Env)

/-- The JSON value of an entry's authenticated body. -/
def BodyJson (entry : TransparencyLogEntry) (v : Json) : Prop :=
  ∃ text, decodeUtf8 entry.canonicalizedBody = some text ∧ E.codec.parseJson text = .ok v

variable {E}

/-- The body of an accepted entry is parsed. -/
theorem EntryMatches.exists_body {bundle : Types.Bundle} {artifact : Artifact}
    {entry : TransparencyLogEntry} (h : EntryMatches E bundle artifact entry) :
    ∃ body, entryBody E entry = .ok body := by
  cases h with
  | message _ _ _ body_eq _ => exact ⟨_, body_eq⟩
  | envelope _ _ body_eq _ => exact ⟨_, body_eq⟩
  | dsse _ _ body_eq _ => exact ⟨_, body_eq⟩
  | intoto _ _ body_eq _ => exact ⟨_, body_eq⟩

/-- Only entries of the two types of version 0.0.1 have a usable integrated time. The kind and the
version name one type, so that the two that the code lists are the two of the conclusion. -/
theorem type_of_v1IntegratedTime {entry : TransparencyLogEntry} {t : BodyType} {time : Int64}
    (hkind : t.kind = entry.kindVersion.kind) (hversion : t.version = entry.kindVersion.version)
    (h : v1IntegratedTime entry = some time) : t = .hashedRekordV001 ∨ t = .dsseV001 := by
  unfold v1IntegratedTime at h
  split at h
  · next hv1 =>
    rw [← hversion, ← hkind] at hv1
    obtain ⟨hfirst, -, -⟩ := hv1
    cases t with
    | hashedRekordV001 => exact .inl rfl
    | dsseV001 => exact .inr rfl
    | _ => exact absurd hfirst (by decide)
  · cases h

/-- The comparison depends on the entry's body, type and time alone. -/
theorem verifyEntryConsistency_congr {bundle : Types.Bundle} {artifact : Artifact}
    {entry entry' : TransparencyLogEntry} (hbody : entryBody E entry' = entryBody E entry)
    (hkind : entry'.kindVersion = entry.kindVersion)
    (htime : entry'.integratedTime = entry.integratedTime) :
    verifyEntryConsistency E bundle artifact entry' =
      verifyEntryConsistency E bundle artifact entry := by
  simp only [verifyEntryConsistency, verifyEnvelopeEntry, verifyMessageEntry,
    verifyHashedrekordEntry, verifyDsseV001, verifyIntotoV002, validateIntegratedTime, hbody, hkind,
    htime]

/-- What a body has beside `spec`, its kind and its version among it, is not parsed. The five types
are read from the member `spec`, and no other member is asked for. -/
theorem entryBody_of_sameSpec (hC : E.codec.LawfulBase64) {entry : TransparencyLogEntry}
    {body : RekorEntryBody} {members members' : List (String × Json)} {bytes : Bytes}
    (hbody : entryBody E entry = .ok body) (hjson : BodyJson E entry (.object members))
    (hjson' : BodyJson E { entry with canonicalizedBody := bytes } (.object members'))
    (hsame : SameSpec members members') :
    entryBody E { entry with canonicalizedBody := bytes } = .ok body := by
  obtain ⟨text, htext, hparsed⟩ := (entryBody_eq_ok hC).1 hbody
  obtain ⟨text₁, htext₁, hparse⟩ := hjson
  obtain ⟨text', htext', hparse'⟩ := hjson'
  cases htext.symm.trans htext₁
  exact (entryBody_eq_ok hC).2
    ⟨text', htext', fromJsonText_of_sameSpec hparsed hparse hparse' hsame⟩

end

section
variable (E : Env)

/-- **The type of an accepted entry's body.** The body parses as the type that the entry claims, and
an entry whose integrated time is used has a body of `hashedrekord` 0.0.1 or `dsse` 0.0.1. A body
that is written in the format of a type is accepted under that type's kind and version only. The
kind and the version that are written in a body are not read: with any others, or none, it is parsed
as the same value, and the entry is accepted. -/
theorem entry_typed (hC : E.codec.LawfulBase64) {bundle : Types.Bundle} {artifact : Artifact}
    (h : verifyTlogConsistency E bundle artifact = .ok ()) :
    ∀ entry ∈ bundle.tlogEntries,
      (∃ body, entryBody E entry = .ok body ∧
        entry.kindVersion = ⟨body.type.kind, body.type.version⟩ ∧
        ∀ time, v1IntegratedTime entry = some time →
          body.type = .hashedRekordV001 ∨ body.type = .dsseV001) ∧
      (∀ v t, BodyJson E entry v → WrittenAs t v → entry.kindVersion = ⟨t.kind, t.version⟩) ∧
      ∀ members members' bytes, BodyJson E entry (.object members) →
        BodyJson E { entry with canonicalizedBody := bytes } (.object members') →
        SameSpec members members' →
        entryBody E { entry with canonicalizedBody := bytes } = entryBody E entry ∧
          verifyEntryConsistency E bundle artifact { entry with canonicalizedBody := bytes } =
            .ok () := by
  intro entry hentry
  have hconsistent := (verifyEntriesConsistency_eq_ok E).1 h entry hentry
  obtain ⟨body, hbody⟩ := (verifyEntryConsistency_ok E hconsistent).exists_body
  obtain ⟨text, htext, hparsed⟩ := (entryBody_eq_ok hC).1 hbody
  obtain ⟨hkind, hversion⟩ := type_of_fromJsonText hparsed
  have htype : entry.kindVersion = ⟨body.type.kind, body.type.version⟩ := by
    rw [hkind, hversion]
  refine ⟨⟨body, hbody, htype, fun time htime => type_of_v1IntegratedTime hkind hversion htime⟩,
    ?_, ?_⟩
  · rintro v t ⟨text', htext', hparse⟩ hwritten
    cases htext.symm.trans htext'
    rw [htype, type_eq_of_writtenAs hparsed hparse hwritten]
  · intro members members' bytes hjson hjson' hsame
    have hbody' := entryBody_of_sameSpec hC hbody hjson hjson' hsame
    refine ⟨hbody'.trans hbody.symm, ?_⟩
    rwa [verifyEntryConsistency_congr (hbody'.trans hbody.symm) rfl rfl]

end

namespace Sample

/-- The hash of the artifact. -/
def artifactHex : String := "ca978112ca1bbdcafac231b39a23dc4da786eff8147c4e72b9807785afee48bb"

/-- The certificate of the artifact's signature in PEM, in base64. -/
def certificatePem : String :=
  "LS0tLS1CRUdJTiBDRVJUSUZJQ0FURS0tLS0tCk1BTUNBUUU9Ci0tLS0tRU5EIENFUlRJRklDQVRFLS0tLS0K"

/-- A `rekord` 0.0.1 body of the artifact's signature: its `spec` has what a `hashedrekord` has. -/
def rekordBody : Json :=
  .object [("apiVersion", .string "0.0.1"), ("kind", .string "rekord"), ("spec", .object [
    ("data", .object [("hash", .object [("algorithm", .string "sha256"),
      ("value", .string artifactHex)])]),
    ("signature", .object [("content", .string "AWE="), ("format", .string "x509"),
      ("publicKey", .object [("content", .string certificatePem)])])])]

/-- The text of the body. -/
@[irreducible] def rekordText : String :=
  "\x7b\"apiVersion\":\"0.0.1\",\"kind\":\"rekord\",\"spec\":\x7b\"data\":\x7b\"hash\":" ++
  "\x7b\"algorithm\":\"sha256\",\"value\":\"" ++ artifactHex ++ "\"\x7d\x7d,\"signature\":\x7b" ++
  "\"content\":\"AWE=\",\"format\":\"x509\",\"publicKey\":\x7b\"content\":\"" ++ certificatePem ++
  "\"\x7d\x7d\x7d\x7d"

/-- The JSON parser on the text. -/
def parseRekord (text : String) : Except String Json :=
  if text = rekordText then .ok rekordBody else .error "expected value at line 1 column 1"

def rekordEnv : Env := { env with codec := { codec with parseJson := parseRekord } }

/-- The codec of the `rekord` body has the base64 of the deployment. -/
theorem lawfulBase64_rekord : rekordEnv.codec.LawfulBase64 :=
  ⟨lawfulBase64_codec.decode_encode, lawfulBase64_codec.length_encode, lawfulBase64_codec.padded⟩

/-- The `rekord` entry, which is claimed to be a `hashedrekord`. -/
def rekordEntry : TransparencyLogEntry := promisedEntry "0.0.1" (utf8Bytes rekordText) 1700000000

/-- The artifact's signature with the entry. -/
def rekordBundle : Types.Bundle := bundle rekordEntry [] message

theorem parseJson_rekord : rekordEnv.codec.parseJson rekordText = .ok rekordBody := if_pos rfl

/-- The entry's authenticated body is the `rekord` body. -/
theorem bodyJson_rekord : BodyJson rekordEnv rekordEntry rekordBody :=
  ⟨rekordText, decodeUtf8_utf8Bytes rekordText, parseJson_rekord⟩

/-- The `rekord` body, read as a `hashedrekord`. -/
def rekordAsHashedRekord : HashedRekordV001Body :=
  { algorithm := .sha2256
    hashValue := artifactHex
    signatureContent := sign 1 artifact
    publicKeyContent :=
      utf8Bytes "-----BEGIN CERTIFICATE-----\nMAMCAQE=\n-----END CERTIFICATE-----\n" }

/-- The `rekord` body is read as that of a `hashedrekord`. -/
theorem entryBody_rekord :
    entryBody rekordEnv rekordEntry = .ok (.hashedRekordV001 rekordAsHashedRekord) := by
  have hread : HashedRekordV001Body.de rekordEnv.codec rekordBody = .ok rekordAsHashedRekord := by
    decide
  exact (entryBody_eq_ok lawfulBase64_rekord).2 ⟨rekordText, decodeUtf8_utf8Bytes rekordText,
    parseBody_eq_ok.2 ⟨rekordBody, rekordAsHashedRekord, parseJson_rekord, hread, rfl⟩⟩

/-- The bundle with the `rekord` entry is consistent. -/
theorem verifyTlogConsistency_rekord :
    verifyTlogConsistency rekordEnv rekordBundle (.bytes artifact) = .ok () := by
  have hentry : verifyHashedrekordEntry rekordEnv rekordEntry rekordBundle (.bytes artifact) =
      .ok () := by
    rw [verifyHashedrekordEntry, entryBody_rekord]
    decide
  exact bind_eq_ok.2 ⟨(), hentry, rfl⟩

end Sample

/-- An entry is accepted as a `hashedrekord` whose body says that it is a `rekord`. The entry's kind
and version are not signed, and whoever makes the bundle can choose them. -/
theorem entry_typed_rekord :
    ¬ ∀ (E : Env), E.codec.LawfulBase64 → ∀ (bundle : Types.Bundle) (artifact : Artifact),
      verifyTlogConsistency E bundle artifact = .ok () →
      ∀ entry ∈ bundle.tlogEntries, ∀ v, BodyJson E entry v →
        v.get "kind" = some (.string entry.kindVersion.kind) ∧
        v.get "apiVersion" = some (.string entry.kindVersion.version) := by
  intro h
  obtain ⟨hkind, -⟩ := h Sample.rekordEnv Sample.lawfulBase64_rekord Sample.rekordBundle
    (.bytes Sample.artifact) Sample.verifyTlogConsistency_rekord _ List.mem_cons_self _
    Sample.bodyJson_rekord
  have hrekord : Sample.rekordBody.get "kind" = some (.string "rekord") := rfl
  exact absurd (Json.string.inj (Option.some.inj (hrekord.symm.trans hkind))) (by decide)

/-- The entry of the signed artifact of the deployment. The type of its body is the one that its
kind and its version name. -/
theorem entry_typed_signed :
    ∃ body, entryBody Sample.env
        (Sample.promisedEntry "0.0.2" (Sample.document Sample.messageBody) 1700000000) = .ok body ∧
      body.type = .hashedRekordV002 := by
  obtain ⟨_, _, _, _, hv⟩ := verify_ok Sample.env Sample.root Sample.verify_signed
  obtain ⟨⟨body, hbody, hkind, -⟩, -, -⟩ := entry_typed Sample.env Sample.lawfulBase64_codec
    (hv.consistent rfl) _ List.mem_cons_self
  refine ⟨body, hbody, ?_⟩
  obtain ⟨hk, hv⟩ := KindVersion.mk.inj hkind
  revert hk hv
  cases body.type <;> decide

end Sigstore.Verify
