import Sigstore.Checks
import Sigstore.Crypto.Verification
import Sigstore.Types.Bundle
import Sigstore.Types.Time

/-!
# The trusted root

The trusted root of `sigstore-trust-root` (`trusted_root.rs`): validity windows, and the selection
of certificates and log keys by them. The descriptive fields, which no selection reads, are left
out.
-/

namespace Sigstore.TrustRoot

open Checks Types

/-- Errors of the trusted root. -/
inductive Error where
  | invalidKey (msg : String)
  | keyNotFound (id : String)
  | timeParse (msg : String)
  deriving DecidableEq, Repr

/-- The text of an error. -/
def Error.display : Error → String
  | invalidKey msg => s!"invalid key format: {msg}"
  | keyNotFound id => s!"no matching key found for ID: {id}"
  | timeParse msg => s!"failed to parse time: {msg}"

/-- The conversion of the errors of the types. -/
def Error.ofTypes : Types.Error → Error
  | .invalidEncoding msg => .invalidKey msg
  | e => .invalidKey e.display

/-- Validity period of a key or an authority. -/
structure ValidityPeriod where
  start : Option String
  end_ : Option String
  deriving DecidableEq

/-- A log's public key in DER. -/
structure PublicKey where
  rawBytes : Bytes
  validFor : Option ValidityPeriod
  deriving DecidableEq

/-- A transparency log. -/
structure TransparencyLog where
  publicKey : PublicKey
  logId : LogId
  deriving DecidableEq

/-- A certificate authority with its chain of certificates in DER. -/
structure CertificateAuthority where
  certificates : List Bytes
  validFor : Option ValidityPeriod
  deriving DecidableEq

/-- A Certificate Transparency log. -/
structure CertificateTransparencyLog where
  publicKey : PublicKey
  deriving DecidableEq

/-- A timestamp authority with its chain of certificates in DER. -/
structure TimestampAuthority where
  certificates : List Bytes
  validFor : Option ValidityPeriod
  deriving DecidableEq

/-- All trust anchors. -/
structure TrustedRoot where
  tlogs : List TransparencyLog
  certificateAuthorities : List CertificateAuthority
  ctlogs : List CertificateTransparencyLog
  timestampAuthorities : List TimestampAuthority
  deriving DecidableEq

section
variable (T : Jiff)

def parseValidityTimestamp (value : Option String) (field : String) :
    Except Error (Option Timestamp) :=
  match value with
  | none => .ok none
  | some s =>
    match T.parse s with
    | .ok t => .ok (some t)
    | .error e =>
      let quoted := debugStr s
      .error (.timeParse s!"invalid validFor.{field} timestamp {quoted}: {e}")

namespace ValidityPeriod

/-- Whether a time falls within the window; a missing bound is no bound. -/
def contains (p : ValidityPeriod) (time : Timestamp) : Except Error Bool := do
  let start ← parseValidityTimestamp T p.start "start"
  let end_ ← parseValidityTimestamp T p.end_ "end"
  return start.all (· ≤ time) && end_.all (time ≤ ·)

/-- Whether the window has started by a time. -/
def hasStartedBy (p : ValidityPeriod) (time : Timestamp) : Except Error Bool := do
  let start ← parseValidityTimestamp T p.start "start"
  return start.all (· ≤ time)

end ValidityPeriod

/-- Whether an instance may be used now: its window has started, if it has one. -/
def usableForVerification (validFor : Option ValidityPeriod) : Except Error Bool :=
  match validFor with
  | none => .ok true
  | some period => period.hasStartedBy T T.now

/-- The loop that collects what `f` makes of each instance whose window has started. -/
def collectUsable {α β : Type} (validFor : α → Option ValidityPeriod)
    (f : α → Except Error (List β)) : List α → Except Error (List β)
  | [] => .ok []
  | a :: l => do
    let usable ← usableForVerification T (validFor a)
    let items ← (if usable then f a else .ok [])
    let rest ← collectUsable validFor f l
    return items ++ rest

/-- The loop that looks for the key of a log among those with a window that is `valid`. -/
def findKey (logId : String) (valid : Option ValidityPeriod → Except Error Bool) :
    List TransparencyLog → Except Error Bytes
  | [] => .error (.keyNotFound logId)
  | tlog :: l =>
    if tlog.logId.keyId = logId then do
      let ok ← valid tlog.publicKey.validFor
      if ok then return tlog.publicKey.rawBytes else findKey logId valid l
    else findKey logId valid l

namespace TrustedRoot

variable (root : TrustedRoot)

/-- All certificates of the certificate authorities. -/
def fulcioCerts : Except Error (List Bytes) :=
  collectUsable T CertificateAuthority.validFor (fun ca => .ok ca.certificates)
    root.certificateAuthorities

/-- All log keys with their hints: the first four bytes of the log's identifier. -/
def rekorKeysWithHints (C : Codec) : Except Error (List (KeyHint × Bytes)) :=
  collectUsable T (fun tlog => tlog.publicKey.validFor) (fun tlog => do
    let keyIdBytes ← (decodeLogKeyId C tlog.logId.keyId).mapError Error.ofTypes
    match keyIdBytes with
    | b0 :: b1 :: b2 :: b3 :: _ => return [(⟨[b0, b1, b2, b3], rfl⟩, tlog.publicKey.rawBytes)]
    | _ => return []) root.tlogs

/-- The key of a log. -/
def rekorKeyForLog (logId : String) : Except Error Bytes :=
  findKey logId (usableForVerification T) root.tlogs

/-- The key of a log whose window contains a time. -/
def rekorKeyForLogAt (logId : String) (time : Timestamp) : Except Error Bytes :=
  findKey logId (fun validFor =>
    match validFor with
    | none => .ok true
    | some period => period.contains T time) root.tlogs

/-- All Certificate Transparency log keys with the SHA-256 of the key. -/
def ctfeKeysWithIds (P : Crypto.Primitives) : Except Error (List (Bytes × Bytes)) :=
  collectUsable T (fun ctlog => ctlog.publicKey.validFor)
    (fun ctlog => .ok [((P.sha256 ctlog.publicKey.rawBytes).bytes, ctlog.publicKey.rawBytes)])
    root.ctlogs

/-- The last certificate of each timestamp authority. -/
def tsaRootCerts : Except Error (List Bytes) :=
  collectUsable T TimestampAuthority.validFor (fun tsa => .ok tsa.certificates.getLast?.toList)
    root.timestampAuthorities

/-- The certificates of each timestamp authority between its first and its last. -/
def tsaIntermediateCerts : Except Error (List Bytes) :=
  collectUsable T TimestampAuthority.validFor (fun tsa => .ok tsa.certificates.tail.dropLast)
    root.timestampAuthorities

/-- The first certificate of each timestamp authority. -/
def tsaLeafCerts : Except Error (List Bytes) :=
  collectUsable T TimestampAuthority.validFor (fun tsa => .ok tsa.certificates.head?.toList)
    root.timestampAuthorities

/-- The loop of `is_timestamp_within_tsa_validity`. -/
def anyTsaContains (time : Timestamp) : List TimestampAuthority → Except Error Bool
  | [] => .ok false
  | tsa :: l =>
    match tsa.validFor with
    | none => .ok true
    | some period => do
      let inside ← period.contains T time
      if inside then return true else anyTsaContains time l

/-- Whether a time is within the window of any timestamp authority, if there is one. -/
def isTimestampWithinTsaValidity (time : Timestamp) : Except Error Bool :=
  if root.timestampAuthorities = [] then .ok true
  else anyTsaContains T time root.timestampAuthorities

end TrustedRoot

/-! ## Windows and what is selected by them -/

/-- A bound of a window, where there is one, is an instant in a relation to a time. -/
def Bounded (bound : Option String) (R : Timestamp → Prop) : Prop :=
  ∀ s, bound = some s → ∃ t, T.parse s = .ok t ∧ R t

/-- A window, where there is one, has started by a time. -/
def StartedBy (validFor : Option ValidityPeriod) (time : Timestamp) : Prop :=
  ∀ p, validFor = some p → Bounded T p.start (· ≤ time)

/-- A window, where there is one, contains a time. -/
def Within (validFor : Option ValidityPeriod) (time : Timestamp) : Prop :=
  ∀ p, validFor = some p → Bounded T p.start (· ≤ time) ∧ Bounded T p.end_ (time ≤ ·)

variable {T}

/-- A bound that is parsed and compared is an instant that passes the comparison. -/
theorem bounded_of_parse {value : Option String} {name : String} {bound : Option Timestamp}
    {R : Timestamp → Bool} (h : parseValidityTimestamp T value name = .ok bound)
    (hR : bound.all R = true) : Bounded T value (R · = true) := by
  rintro s rfl
  simp only [parseValidityTimestamp] at h
  cases hparse : T.parse s with
  | error e => rw [hparse] at h; cases h
  | ok t =>
    rw [hparse] at h
    cases h
    exact ⟨t, rfl, hR⟩

/-- An instance that is usable for verification has a window that has started by now. The end of the
window is not looked at. -/
theorem usableForVerification_true {validFor : Option ValidityPeriod}
    (h : usableForVerification T validFor = .ok true) : StartedBy T validFor T.now := by
  rintro p rfl
  simp only [usableForVerification, ValidityPeriod.hasStartedBy, bind_eq_ok, pure_eq_ok] at h
  obtain ⟨start, hstart, hle⟩ := h
  simpa using bounded_of_parse hstart hle

/-- A window that contains a time has the time between its bounds. -/
theorem contains_true {p : ValidityPeriod} {time : Timestamp} (h : p.contains T time = .ok true) :
    Within T (some p) time := by
  rintro p' hp
  cases hp
  simp only [ValidityPeriod.contains, bind_eq_ok, pure_eq_ok, Bool.and_eq_true] at h
  obtain ⟨start, hstart, end_, hend, hle, hge⟩ := h
  exact ⟨by simpa using bounded_of_parse hstart hle, by simpa using bounded_of_parse hend hge⟩

/-- A key that is found belongs to a log of the identifier, whose window is valid. Of several logs
with the identifier the first with a valid window is taken. -/
theorem findKey_ok {logId : String} {valid : Option ValidityPeriod → Except Error Bool}
    {tlogs : List TransparencyLog} {key : Bytes} (h : findKey logId valid tlogs = .ok key) :
    ∃ tlog ∈ tlogs, tlog.logId.keyId = logId ∧ tlog.publicKey.rawBytes = key ∧
      valid tlog.publicKey.validFor = .ok true := by
  induction tlogs with
  | nil => cases h
  | cons tlog l ih =>
    have later : findKey logId valid l = .ok key → ∃ t ∈ tlog :: l, t.logId.keyId = logId ∧
        t.publicKey.rawBytes = key ∧ valid t.publicKey.validFor = .ok true := by
      intro hl
      obtain ⟨t, ht, hkey⟩ := ih hl
      exact ⟨t, List.mem_cons_of_mem _ ht, hkey⟩
    unfold findKey at h
    by_cases hid : tlog.logId.keyId = logId
    · rw [if_pos hid] at h
      simp only [bind_eq_ok] at h
      obtain ⟨ok, hvalid, h⟩ := h
      cases ok with
      | true =>
        cases h
        exact ⟨tlog, List.mem_cons_self, hid, rfl, hvalid⟩
      | false => exact later h
    · rw [if_neg hid] at h
      exact later h

/-- What is collected is collected of an instance whose window has started. One instance whose
window cannot be read fails the whole loop. -/
theorem mem_collectUsable {α β : Type} {validFor : α → Option ValidityPeriod}
    {f : α → Except Error (List β)} {l : List α} {items : List β}
    (h : collectUsable T validFor f l = .ok items) {b : β} (hb : b ∈ items) :
    ∃ a ∈ l, StartedBy T (validFor a) T.now ∧ ∃ bs, f a = .ok bs ∧ b ∈ bs := by
  induction l generalizing items with
  | nil => cases h; cases hb
  | cons a l ih =>
    simp only [collectUsable, bind_eq_ok, pure_eq_ok] at h
    obtain ⟨usable, husable, bs, hbs, rest, hrest, rfl⟩ := h
    rcases List.mem_append.1 hb with hb | hb
    · cases usable with
      | true => exact ⟨a, List.mem_cons_self, usableForVerification_true husable, bs, hbs, hb⟩
      | false => cases hbs; cases hb
    · obtain ⟨a', ha', ha⟩ := ih hrest hb
      exact ⟨a', List.mem_cons_of_mem _ ha', ha⟩

/-- A root certificate of the timestamp authorities is the last of one whose window has started. -/
theorem mem_tsaRootCerts {root : TrustedRoot} {roots : List Bytes}
    (h : root.tsaRootCerts T = .ok roots) {cert : Bytes} (hcert : cert ∈ roots) :
    ∃ tsa ∈ root.timestampAuthorities, StartedBy T tsa.validFor T.now ∧
      tsa.certificates.getLast? = some cert := by
  obtain ⟨tsa, htsa, hstarted, certs, hcerts, hmem⟩ := mem_collectUsable h hcert
  cases hcerts
  exact ⟨tsa, htsa, hstarted, Option.mem_toList.1 hmem⟩

/-- A time that some authority contains is within the window of one of them. An authority without a
window contains every time. -/
theorem anyTsaContains_true {time : Timestamp} {tsas : List TimestampAuthority}
    (h : TrustedRoot.anyTsaContains T time tsas = .ok true) :
    ∃ tsa ∈ tsas, Within T tsa.validFor time := by
  induction tsas with
  | nil => cases h
  | cons tsa l ih =>
    unfold TrustedRoot.anyTsaContains at h
    cases hperiod : tsa.validFor with
    | none =>
      refine ⟨tsa, List.mem_cons_self, ?_⟩
      intro p hp
      rw [hperiod] at hp
      cases hp
    | some period =>
      simp only [hperiod, bind_eq_ok] at h
      obtain ⟨inside, hinside, h⟩ := h
      cases inside with
      | true => exact ⟨tsa, List.mem_cons_self, by rw [hperiod]; exact contains_true hinside⟩
      | false =>
        obtain ⟨tsa', htsa', hwithin⟩ := ih h
        exact ⟨tsa', List.mem_cons_of_mem _ htsa', hwithin⟩

/-- A log key with a hint is the key of a log whose window has started, and the hint is the first
four bytes of the log's identifier. -/
theorem mem_rekorKeysWithHints {root : TrustedRoot} {C : Codec} {keys : List (KeyHint × Bytes)}
    (h : root.rekorKeysWithHints T C = .ok keys) {key : KeyHint × Bytes} (hkey : key ∈ keys) :
    ∃ tlog ∈ root.tlogs, StartedBy T tlog.publicKey.validFor T.now ∧
      tlog.publicKey.rawBytes = key.2 ∧
      ∃ keyId, decodeLogKeyId C tlog.logId.keyId = .ok keyId ∧ keyId.take 4 = key.1.bytes := by
  obtain ⟨tlog, htlog, hstarted, bs, hbs, hmem⟩ := mem_collectUsable h hkey
  simp only [bind_eq_ok, mapError_eq_ok] at hbs
  obtain ⟨keyId, hkeyId, hbs⟩ := hbs
  refine ⟨tlog, htlog, hstarted, ?_⟩
  rcases keyId with _ | ⟨b0, _ | ⟨b1, _ | ⟨b2, _ | ⟨b3, l⟩⟩⟩⟩
  iterate 4 cases hbs; cases hmem
  cases hbs
  cases List.mem_singleton.1 hmem
  exact ⟨rfl, _, hkeyId, rfl⟩

end

end Sigstore.TrustRoot
