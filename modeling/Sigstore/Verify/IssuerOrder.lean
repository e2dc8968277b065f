import Sigstore.Verify.Windows

/-!
# The order of the trusted certificates

`verify_sct` takes the issuer's key from the first trusted certificate whose subject is the leaf's
issuer, before anything is verified under it. Where authorities share a name, as after a rotation of
the authority's key, the order of the trusted root decides: the verdict is the same for every order,
and no key under which the certificate timestamp verifies is missed, exactly where all certificates
of that name agree on it (`issuerOrder_iff`).
-/

namespace Sigstore.Verify

open Checks Types Crypto TrustRoot

section
variable (E : Env) (root : TrustedRoot)

/-- A trusted root with its certificate authorities, and the certificates of each, in another order.
-/
def ReordersAuthorities (root' : TrustedRoot) : Prop :=
  ∃ cas cas', cas.Perm root.certificateAuthorities ∧
    List.Forall₂ (fun ca' ca => ca'.certificates.Perm ca.certificates ∧ ca'.validFor = ca.validFor)
      cas' cas ∧
    root' = { root with certificateAuthorities := cas' }

/-- A certificate of an authority that may be used now, with the subject that is the issuer of the
leaf. -/
def IssuerCertificate (leaf : Bytes) (issuer : Certificate) : Prop :=
  ∃ cert, E.x509.fromDer leaf = .ok cert ∧ issuer.subject = cert.issuer ∧
    ∃ ca ∈ root.certificateAuthorities,
      usableForVerification E.time ca.validFor = .ok true ∧
      ∃ der ∈ ca.certificates, E.x509.fromDer der = .ok issuer

/-- The timestamp of a leaf verifies, with the key of its issuer, under the key of a trusted log
that may be used now. -/
def SctSigned (leaf spki : Bytes) : Prop :=
  ∃ cert sct hash signed, E.x509.fromDer leaf = .ok cert ∧
    extractSct E cert spki = .ok (sct, hash) ∧
    DigitallySigned.fromEmbeddedSct E cert sct hash = .ok signed ∧
    ∃ ctlog ∈ root.ctlogs, usableForVerification E.time ctlog.publicKey.validFor = .ok true ∧
      (E.primitives.sha256 ctlog.publicKey.rawBytes).bytes = sct.logId ∧
      signed.verify E ctlog.publicKey.rawBytes sct.algorithm sct.signature = .ok ()

/-- Some trusted certificate of the issuer's name has a key under which the timestamp verifies. -/
def SomeIssuerSigned (leaf : Bytes) : Prop :=
  ∃ issuer spki, IssuerCertificate E root leaf issuer ∧
    E.x509.spkiToDer issuer.subjectPublicKeyInfo = .ok spki ∧ SctSigned E root leaf spki

/-- The verdict is the same for every order of the trusted certificates, and the leaf is accepted
where some trusted certificate of the issuer's name has a key under which its timestamp verifies. -/
def IssuerOrderFree (leaf : Bytes) : Prop :=
  (∀ root', ReordersAuthorities root root' →
    (verifySct E root' (.certificate leaf)).isOk = (verifySct E root (.certificate leaf)).isOk) ∧
  (SomeIssuerSigned E root leaf → verifySct E root (.certificate leaf) = .ok ())

/-- Either the timestamp verifies with no key of a trusted certificate of the issuer's name, or it
is accepted with each, and the windows of all authorities are readable. -/
def IssuersAgree (leaf : Bytes) : Prop :=
  SomeIssuerSigned E root leaf →
    (∀ ca ∈ root.certificateAuthorities,
      ∃ usable, usableForVerification E.time ca.validFor = .ok usable) ∧
    ∀ issuer, IssuerCertificate E root leaf issuer →
      ∃ spki, E.x509.spkiToDer issuer.subjectPublicKeyInfo = .ok spki ∧
        verifyEmbeddedSct E root leaf spki = .ok ()

end

/-! ## What the trusted root hands out -/

/-- Every element of one of two related lists is related to one of the other. -/
theorem exists_of_forall₂ {α β : Type} {R : α → β → Prop} {l : List α} {l' : List β}
    (h : List.Forall₂ R l l') : (∀ a ∈ l, ∃ b ∈ l', R a b) ∧ ∀ b ∈ l', ∃ a ∈ l, R a b := by
  induction h with
  | nil => simp
  | cons hab _ ih =>
    simp only [List.forall_mem_cons, List.exists_mem_cons_iff]
    exact ⟨⟨.inl hab, fun a ha => .inr (ih.1 a ha)⟩, .inl hab, fun b hb => .inr (ih.2 b hb)⟩

section
variable {T : Jiff}

/-- What is collected of instances whose windows are all readable. A window that cannot be read
fails the whole collection, wherever it is in the list. -/
theorem collectUsable_eq_ok {α β : Type} {validFor : α → Option ValidityPeriod} {g : α → List β}
    {l : List α} {items : List β} :
    collectUsable T validFor (fun a => .ok (g a)) l = .ok items ↔
      (∀ a ∈ l, ∃ usable, usableForVerification T (validFor a) = .ok usable) ∧
        items = l.flatMap fun a =>
          if usableForVerification T (validFor a) = .ok true then g a else [] := by
  induction l generalizing items with
  | nil => simp [collectUsable, eq_comm]
  | cons a l ih =>
    simp only [collectUsable, bind_eq_ok, pure_eq_ok, ih, List.forall_mem_cons, List.flatMap_cons]
    constructor
    · rintro ⟨usable, husable, bs, hbs, rest, ⟨hl, rfl⟩, rfl⟩
      refine ⟨⟨⟨usable, husable⟩, hl⟩, ?_⟩
      cases usable with
      | true =>
        cases hbs
        simp [husable]
      | false =>
        cases hbs
        simp [husable]
    · rintro ⟨⟨⟨usable, husable⟩, hl⟩, rfl⟩
      refine ⟨usable, husable, _, ?_, _, ⟨hl, rfl⟩, rfl⟩
      cases usable <;> simp [husable]

/-- The certificates that are collected are those of the authorities that are usable for
verification. -/
theorem mem_fulcioCerts {root : TrustedRoot} {certs : List Bytes}
    (h : root.fulcioCerts T = .ok certs) {der : Bytes} :
    der ∈ certs ↔ ∃ ca ∈ root.certificateAuthorities,
      usableForVerification T ca.validFor = .ok true ∧ der ∈ ca.certificates := by
  obtain ⟨-, rfl⟩ := collectUsable_eq_ok.1 h
  simp only [List.mem_flatMap]
  refine exists_congr fun ca => and_congr_right fun _ => ?_
  split
  · next husable => simp [husable]
  · next husable => simp [husable]

/-- The certificates are collected where the windows of all authorities can be read. -/
theorem exists_fulcioCerts {root : TrustedRoot} (h : ∀ ca ∈ root.certificateAuthorities,
    ∃ usable, usableForVerification T ca.validFor = .ok usable) :
    ∃ certs, root.fulcioCerts T = .ok certs :=
  ⟨_, collectUsable_eq_ok.2 ⟨h, rfl⟩⟩

end

section
variable {E : Env} {root root' : TrustedRoot} {leaf : Bytes}

/-! ## The issuer's key -/

/-- The public key of an issuer is that of its certificate. -/
theorem issuerSpkiDer_eq_ok {cert : Certificate} {spki : Bytes} :
    issuerSpkiDer E cert = .ok spki ↔ E.x509.spkiToDer cert.subjectPublicKeyInfo = .ok spki := by
  rw [issuerSpkiDer, mapError_eq_ok]

/-- The first certificate that can be read and has the issuer's name decides. -/
theorem findIssuerSpki_cons {issuer der : Bytes} {l : List Bytes} {cert : Certificate}
    (hcert : E.x509.fromDer der = .ok cert) (hsubject : cert.subject = issuer) :
    findIssuerSpki E issuer (der :: l) = issuerSpkiDer E cert := by
  rw [findIssuerSpki, hcert]
  exact if_pos hsubject

/-- The key that is found is that of a certificate with the issuer's name. Certificates that cannot
be parsed are passed over; the first one with the name is the one whose key is encoded, or the
search fails. -/
theorem findIssuerSpki_ok {issuer spki : Bytes} {certs : List Bytes}
    (h : findIssuerSpki E issuer certs = .ok spki) :
    ∃ der ∈ certs, ∃ cert, E.x509.fromDer der = .ok cert ∧ cert.subject = issuer ∧
      E.x509.spkiToDer cert.subjectPublicKeyInfo = .ok spki := by
  induction certs with
  | nil => cases h
  | cons der l ih =>
    have later : findIssuerSpki E issuer l = .ok spki → ∃ d ∈ der :: l, ∃ cert,
        E.x509.fromDer d = .ok cert ∧ cert.subject = issuer ∧
          E.x509.spkiToDer cert.subjectPublicKeyInfo = .ok spki := by
      intro hl
      obtain ⟨d, hd, hcert⟩ := ih hl
      exact ⟨d, List.mem_cons_of_mem _ hd, hcert⟩
    rw [findIssuerSpki] at h
    split at h
    · next cert hcert =>
      split at h
      · next hsubject =>
        exact ⟨der, List.mem_cons_self, cert, hcert, hsubject, issuerSpkiDer_eq_ok.1 h⟩
      · exact later h
    · exact later h

/-- A key is found where there is a certificate with the issuer's name and the keys of all of them
are encoded, and what holds of all of them holds of it. -/
theorem exists_findIssuerSpki {issuer : Bytes} {certs : List Bytes} {P : Bytes → Prop}
    (hall : ∀ der ∈ certs, ∀ cert, E.x509.fromDer der = .ok cert → cert.subject = issuer →
      ∃ spki, E.x509.spkiToDer cert.subjectPublicKeyInfo = .ok spki ∧ P spki)
    (hsome : ∃ der ∈ certs, ∃ cert, E.x509.fromDer der = .ok cert ∧ cert.subject = issuer) :
    ∃ spki, findIssuerSpki E issuer certs = .ok spki ∧ P spki := by
  induction certs with
  | nil =>
    obtain ⟨der, hder, -⟩ := hsome
    cases hder
  | cons der l ih =>
    by_cases hmatch : ∃ cert, E.x509.fromDer der = .ok cert ∧ cert.subject = issuer
    · obtain ⟨cert, hcert, hsubject⟩ := hmatch
      obtain ⟨spki, hspki, hP⟩ := hall der List.mem_cons_self cert hcert hsubject
      exact ⟨spki, (findIssuerSpki_cons hcert hsubject).trans (issuerSpkiDer_eq_ok.2 hspki), hP⟩
    · have hskip : findIssuerSpki E issuer (der :: l) = findIssuerSpki E issuer l := by
        rw [findIssuerSpki]
        split
        · next cert hcert => exact if_neg fun hsubject => hmatch ⟨cert, hcert, hsubject⟩
        · rfl
      rw [hskip]
      refine ih (fun d hd => hall d (List.mem_cons_of_mem _ hd)) ?_
      obtain ⟨d, hd, hcert⟩ := hsome
      rcases List.mem_cons.1 hd with rfl | hd
      · exact absurd hcert hmatch
      · exact ⟨d, hd, hcert⟩

/-! ## The verdict -/

/-- The SCT of a single certificate is verified with the key of the first issuer that is found for
it. -/
theorem verifySct_certificate_eq_ok : verifySct E root (.certificate leaf) = .ok () ↔
    ∃ cert, E.x509.fromDer leaf = .ok cert ∧ ∃ certs, root.fulcioCerts E.time = .ok certs ∧
      ∃ spki, findIssuerSpki E cert.issuer certs = .ok spki ∧
        verifyEmbeddedSct E root leaf spki = .ok () := by
  have hextract : extractCertificate (.certificate leaf) = .ok leaf := rfl
  have hspki : getIssuerSpki E root (.certificate leaf) leaf = issuerSpkiFromRoot E root leaf := rfl
  simp only [verifySct, hextract, bind_eq_ok]
  constructor
  · rintro ⟨_, hleaf, spki, hkey, hverify⟩
    cases hleaf
    rw [hspki] at hkey
    simp only [issuerSpkiFromRoot, bind_eq_ok, mapError_eq_ok] at hkey
    obtain ⟨cert, hcert, certs, hcerts, hfind⟩ := hkey
    exact ⟨cert, hcert, certs, hcerts, spki, hfind, hverify⟩
  · rintro ⟨cert, hcert, certs, hcerts, spki, hfind, hverify⟩
    refine ⟨leaf, rfl, spki, ?_, hverify⟩
    rw [hspki]
    simp only [issuerSpkiFromRoot, bind_eq_ok, mapError_eq_ok]
    exact ⟨cert, hcert, certs, hcerts, hfind⟩

/-- What is accepted with a key is signed. The log is found by the identifier that the timestamp
names, among the logs whose windows have begun. -/
theorem sctSigned_of_verifyEmbeddedSct {spki : Bytes}
    (h : verifyEmbeddedSct E root leaf spki = .ok ()) : SctSigned E root leaf spki := by
  simp only [verifyEmbeddedSct, bind_eq_ok, mapError_eq_ok, okOr_eq_ok, rejectIf_eq_ok] at h
  obtain ⟨cert, hcert, ⟨sct, hash⟩, hsct, keys, hkeys, -, -, ⟨id, key⟩, hfind, signed, hsigned,
    hverify⟩ := h
  obtain ⟨-, rfl⟩ := collectUsable_eq_ok.1 hkeys
  obtain ⟨ctlog, hctlog, hmem⟩ := List.mem_flatMap.1 (List.mem_of_find?_eq_some hfind)
  have hid : id = sct.logId := by simpa using List.find?_some hfind
  split at hmem
  · next husable =>
    cases List.mem_singleton.1 hmem
    exact ⟨cert, sct, hash, signed, hcert, hsct, hsigned, ctlog, hctlog, husable, hid, hverify⟩
  · cases hmem

/-- An accepted leaf has an issuer with a key under which its timestamp verifies. -/
theorem someIssuerSigned_of_verifySct (h : verifySct E root (.certificate leaf) = .ok ()) :
    SomeIssuerSigned E root leaf := by
  obtain ⟨cert, hcert, certs, hcerts, spki, hfind, hverify⟩ := verifySct_certificate_eq_ok.1 h
  obtain ⟨der, hder, issuer, hissuer, hsubject, hspki⟩ := findIssuerSpki_ok hfind
  obtain ⟨ca, hca, husable, hmem⟩ := (mem_fulcioCerts hcerts).1 hder
  exact ⟨issuer, spki, ⟨cert, hcert, hsubject, ca, hca, husable, der, hmem, hissuer⟩, hspki,
    sctSigned_of_verifyEmbeddedSct hverify⟩

/-- Where the issuers agree, a timestamp that verifies with one key is accepted. The first
certificate of the name is one of the issuers, and by the hypothesis its key is as good as that of
any other. -/
theorem IssuersAgree.verifySct (h : IssuersAgree E root leaf)
    (hsome : SomeIssuerSigned E root leaf) :
    verifySct E root (.certificate leaf) = .ok () := by
  obtain ⟨hread, hall⟩ := h hsome
  obtain ⟨certs, hcerts⟩ := exists_fulcioCerts hread
  obtain ⟨issuer, -, ⟨cert, hcert, hsubject, ca, hca, husable, der, hder, hissuer⟩, -, -⟩ := hsome
  have hmem : der ∈ certs := (mem_fulcioCerts hcerts).2 ⟨ca, hca, husable, hder⟩
  obtain ⟨spki, hfind, hverify⟩ := exists_findIssuerSpki
    (P := fun spki => verifyEmbeddedSct E root leaf spki = .ok ())
    (fun d hd issuer' hissuer' hsubject' => by
      obtain ⟨ca', hca', husable', hd'⟩ := (mem_fulcioCerts hcerts).1 hd
      exact hall issuer' ⟨cert, hcert, hsubject', ca', hca', husable', d, hd', hissuer'⟩)
    ⟨der, hmem, issuer, hissuer, hsubject⟩
  exact verifySct_certificate_eq_ok.2 ⟨cert, hcert, certs, hcerts, spki, hfind, hverify⟩

/-! ## Reordered trusted roots -/

/-- Reordered authorities are the same up to the order of their certificates. -/
theorem ReordersAuthorities.exists_authority (h : ReordersAuthorities root root') :
    (∀ ca ∈ root.certificateAuthorities, ∃ ca' ∈ root'.certificateAuthorities,
      ca'.certificates.Perm ca.certificates ∧ ca'.validFor = ca.validFor) ∧
    ∀ ca' ∈ root'.certificateAuthorities, ∃ ca ∈ root.certificateAuthorities,
      ca'.certificates.Perm ca.certificates ∧ ca'.validFor = ca.validFor := by
  obtain ⟨cas, cas', hperm, hall, rfl⟩ := h
  obtain ⟨hleft, hright⟩ := exists_of_forall₂ hall
  refine ⟨fun ca hca => hright ca (hperm.mem_iff.2 hca), fun ca' hca' => ?_⟩
  obtain ⟨ca, hca, hsame⟩ := hleft ca' hca'
  exact ⟨ca, hperm.mem_iff.1 hca, hsame⟩

/-- Reordered authorities have the same issuers for a leaf. Both directions look an authority up in
the other list, which has it with its certificates in another order. -/
theorem ReordersAuthorities.issuerCertificate_iff (h : ReordersAuthorities root root')
    {issuer : Certificate} :
    IssuerCertificate E root' leaf issuer ↔ IssuerCertificate E root leaf issuer := by
  obtain ⟨hto, hfrom⟩ := h.exists_authority
  refine exists_congr fun cert => and_congr_right fun _ => and_congr_right fun _ => ?_
  constructor
  · rintro ⟨ca', hca', husable, der, hder, hissuer⟩
    obtain ⟨ca, hca, hperm, hvalid⟩ := hfrom ca' hca'
    exact ⟨ca, hca, hvalid ▸ husable, der, hperm.mem_iff.1 hder, hissuer⟩
  · rintro ⟨ca, hca, husable, der, hder, hissuer⟩
    obtain ⟨ca', hca', hperm, hvalid⟩ := hto ca hca
    exact ⟨ca', hca', hvalid ▸ husable, der, hperm.mem_iff.2 hder, hissuer⟩

/-- The logs of a reordered root are those of the root. -/
theorem ReordersAuthorities.sct_eq (h : ReordersAuthorities root root') (spki : Bytes) :
    verifyEmbeddedSct E root' leaf spki = verifyEmbeddedSct E root leaf spki ∧
      (SctSigned E root' leaf spki ↔ SctSigned E root leaf spki) := by
  obtain ⟨_, _, _, _, rfl⟩ := h
  exact ⟨rfl, Iff.rfl⟩

/-- Whether the SCT verifies with some issuer does not depend on the order. -/
theorem ReordersAuthorities.someIssuerSigned_iff (h : ReordersAuthorities root root') :
    SomeIssuerSigned E root' leaf ↔ SomeIssuerSigned E root leaf := by
  simp only [SomeIssuerSigned, h.issuerCertificate_iff, (h.sct_eq _).2]

/-- Whether the issuers agree does not depend on the order. -/
theorem ReordersAuthorities.issuersAgree (h : ReordersAuthorities root root')
    (hagree : IssuersAgree E root leaf) : IssuersAgree E root' leaf := by
  intro hsome
  obtain ⟨hread, hall⟩ := hagree (h.someIssuerSigned_iff.1 hsome)
  refine ⟨fun ca' hca' => ?_, fun issuer hissuer => ?_⟩
  · obtain ⟨ca, hca, -, hvalid⟩ := h.exists_authority.2 ca' hca'
    rw [hvalid]
    exact hread ca hca
  · obtain ⟨spki, hspki, hverify⟩ := hall issuer (h.issuerCertificate_iff.1 hissuer)
    exact ⟨spki, hspki, (h.sct_eq spki).1.trans hverify⟩

/-- The check of the SCT returns nothing but its success. -/
theorem verifySct_isOk_iff : (verifySct E root (.certificate leaf)).isOk = true ↔
    verifySct E root (.certificate leaf) = .ok () := by
  rw [isOk_iff]
  exact ⟨fun ⟨(), h⟩ => h, fun h => ⟨(), h⟩⟩

/-- Every trusted certificate of the issuer's name can be the first one, and then its key is taken.
-/
theorem exists_reorders_first {issuer : Certificate} (h : IssuerCertificate E root leaf issuer) :
    ∃ root', ReordersAuthorities root root' ∧
      (verifySct E root' (.certificate leaf) = .ok () →
        ∃ spki, E.x509.spkiToDer issuer.subjectPublicKeyInfo = .ok spki ∧
          verifyEmbeddedSct E root leaf spki = .ok ()) := by
  obtain ⟨cert, hcert, hsubject, ca, hca, husable, der, hder, hissuer⟩ := h
  obtain ⟨before, after, hcas⟩ := List.append_of_mem hca
  obtain ⟨first, last, hcertificates⟩ := List.append_of_mem hder
  have hreorders : ReordersAuthorities root { root with
      certificateAuthorities :=
        { ca with certificates := der :: (first ++ last) } :: (before ++ after) } := by
    refine ⟨ca :: (before ++ after), { ca with certificates := der :: (first ++ last) } ::
      (before ++ after), ?_, .cons ⟨?_, rfl⟩ ?_, rfl⟩
    · rw [hcas]
      exact List.perm_middle.symm
    · rw [hcertificates]
      exact List.perm_middle.symm
    · exact List.forall₂_same.2 fun _ _ => ⟨.refl _, rfl⟩
  refine ⟨_, hreorders, fun hok => ?_⟩
  obtain ⟨cert', hcert', certs, hcerts, spki, hfind, hverify⟩ := verifySct_certificate_eq_ok.1 hok
  cases hcert.symm.trans hcert'
  obtain ⟨-, rfl⟩ := collectUsable_eq_ok.1 hcerts
  rw [List.flatMap_cons, if_pos husable, List.cons_append, findIssuerSpki_cons hissuer hsubject,
    issuerSpkiDer_eq_ok] at hfind
  exact ⟨spki, hfind, (hreorders.sct_eq spki).1.symm.trans hverify⟩

/-- **When the order of the trusted certificates decides nothing.** The verdict on a leaf is the
same for every order of the certificate authorities and of the certificates of each, and a leaf is
accepted where its timestamp verifies with the key of any trusted certificate of the issuer's name,
if and only if all these certificates agree on the timestamp. -/
theorem issuerOrder_iff (E : Env) (root : TrustedRoot) (leaf : Bytes) :
    IssuerOrderFree E root leaf ↔ IssuersAgree E root leaf := by
  constructor
  · rintro ⟨horder, haccept⟩ hsome
    have hok := haccept hsome
    obtain ⟨-, -, certs, hcerts, -, -, -⟩ := verifySct_certificate_eq_ok.1 hok
    refine ⟨(collectUsable_eq_ok.1 hcerts).1, fun issuer hissuer => ?_⟩
    obtain ⟨root', hreorders, hfirst⟩ := exists_reorders_first hissuer
    have hsame := horder root' hreorders
    rw [verifySct_isOk_iff.2 hok, verifySct_isOk_iff] at hsame
    exact hfirst hsame
  · intro hagree
    refine ⟨fun root' hreorders => ?_, hagree.verifySct⟩
    rw [Bool.eq_iff_iff, verifySct_isOk_iff, verifySct_isOk_iff]
    constructor
    · intro hok
      exact hagree.verifySct (hreorders.someIssuerSigned_iff.1 (someIssuerSigned_of_verifySct hok))
    · intro hok
      exact (hreorders.issuersAgree hagree).verifySct
        (hreorders.someIssuerSigned_iff.2 (someIssuerSigned_of_verifySct hok))

end

namespace Sample

/-- The certificate of the authority after the rotation of its key, which is now key 5. -/
def renewedCertificate : Certificate :=
  { certificate 2 7 [] with
    subject := [2]
    subjectPublicKeyInfo := (certificate 2 5 []).subjectPublicKeyInfo }

def renewedEnv : Env :=
  { env with
    x509 := { x509 with
      fromDer := fun der => if der = certDer 7 then .ok renewedCertificate else x509.fromDer der } }

/-- The trusted root with the renewed certificate before the one that issued certificate 1. -/
def renewed : TrustedRoot :=
  { root with certificateAuthorities := [⟨[certDer 7], validFor⟩, ⟨[certDer 2], validFor⟩] }

/-- The SCT verifies with the key of one of the two issuers. -/
theorem someIssuerSigned_renewed : SomeIssuerSigned renewedEnv renewed (certDer 1) :=
  ⟨certificate 2 2 [], keyDer 2,
    ⟨_, rfl, rfl, _, List.mem_cons_of_mem _ List.mem_cons_self, rfl, certDer 2, List.mem_cons_self,
      rfl⟩, rfl,
    ⟨_, _, _, _, rfl, rfl, rfl, _, List.mem_cons_self, rfl, rfl, by decide⟩⟩

/-- With the other issuer first the SCT is rejected. -/
theorem verifySct_renewed :
    (verifySct renewedEnv renewed (.certificate (certDer 1))).isOk = false := by
  decide

end Sample

/-- A timestamp under the key of an authority's old certificate is rejected where the trusted root
has its new certificate first. -/
theorem issuerOrder_fails : ¬ ∀ (E : Env) (root : TrustedRoot) (leaf : Bytes),
    IssuerOrderFree E root leaf := by
  intro h
  have hok := (h Sample.renewedEnv Sample.renewed (Sample.certDer 1)).2
    Sample.someIssuerSigned_renewed
  have hrejected := Sample.verifySct_renewed
  rw [hok] at hrejected
  cases hrejected

end Sigstore.Verify
