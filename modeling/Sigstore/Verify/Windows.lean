import Sigstore.Verify.Authority

/-!
# The windows of authorities and logs

Whether the validity windows of the trusted root bound what its certificate authorities and its
Certificate Transparency logs vouch for. The accessors keep the authorities and keys whose window
has ended, for material that was issued before, and hand them out without their windows;
`verify_certificate_chain` and `verify_sct` accept whatever they anchor and sign. So the windows
bound what is accepted of a leaf exactly where each authority that the leaf chains to, and the log
that is found by the ID of its timestamp, has one that contains the time (`windows_iff`). Retired
authorities that a leaf does not chain to do no harm (`windows_iff_successors`), but one that it
chains to is accepted at any later time (`windows_fail`).
-/

namespace Sigstore.Verify

open Checks Types Crypto TrustRoot

/-- The instant of a validation time, which is in seconds. -/
def ofSeconds (time : Int64) : Timestamp := time.toInt * 1000000000

/-- The instant of a certificate timestamp, which is in milliseconds. -/
def ofMilliseconds (time : UInt64) : Timestamp := time.toNat * 1000000

section
variable (E : Env) (root : TrustedRoot)

/-! ## Authorities -/

/-- The chain of a certificate ends in a certificate of an authority with a window that contains the
validation time. -/
def AnchoredWithin (content : VerificationMaterialContent) (time : Int64) : Prop :=
  ∃ anchor, certificateChainAnchor E root content time = .ok anchor ∧
    ∃ ca ∈ root.certificateAuthorities, anchor ∈ ca.certificates ∧
      Within E.time ca.validFor (ofSeconds time)

/-- What path building documents: it returns one of the anchors that it is given, and one to which
it finds a path also where that anchor is the only one. -/
def PathBuilding (W : WebPki) : Prop :=
  ∀ ee anchors intermediates time usage anchor,
    W.verifyForUsage ee anchors intermediates time usage = .ok anchor →
    anchor ∈ anchors ∧ W.verifyForUsage ee [anchor] intermediates time usage = .ok anchor

/-- Two path builders read the same certificates and find a path to the same anchors. -/
structure SamePaths (W W' : WebPki) : Prop where
  anchorFromTrustedCert : W.anchorFromTrustedCert = W'.anchorFromTrustedCert
  endEntityCert : W.endEntityCert = W'.endEntityCert
  verifyForUsage : ∀ ee anchor intermediates time usage,
    W.verifyForUsage ee [anchor] intermediates time usage = .ok anchor ↔
      W'.verifyForUsage ee [anchor] intermediates time usage = .ok anchor

/-- A certificate that the trusted root hands out, to which a path can be built from the leaf at a
time. -/
def PossibleAnchor (content : VerificationMaterialContent) (time : Int64) (cert : Bytes) : Prop :=
  ∃ ee intermediates certs, chainParts content = .ok (ee, intermediates) ∧
    root.fulcioCerts E.time = .ok certs ∧ cert ∈ certs ∧
    E.webpki.anchorFromTrustedCert cert = .ok () ∧ E.webpki.endEntityCert ee = .ok () ∧
    E.webpki.verifyForUsage ee [cert] intermediates time.toUInt64 idKpCodeSigning = .ok cert

/-- Whichever of the leaf's possible anchors the path building ends in, a chain that is accepted is
anchored in an authority of the validation time. -/
def ChainWithin (content : VerificationMaterialContent) (time : Int64) : Prop :=
  ∀ W, PathBuilding W → SamePaths W E.webpki →
    verifyCertificateChain { E with webpki := W } root content time = .ok () →
    AnchoredWithin { E with webpki := W } root content time

/-- Every possible anchor of the leaf is a certificate of an authority with a window that contains
the validation time. -/
def AnchorsCover (content : VerificationMaterialContent) (time : Int64) : Prop :=
  ∀ cert, PossibleAnchor E root content time cert →
    ∃ ca ∈ root.certificateAuthorities, cert ∈ ca.certificates ∧
      Within E.time ca.validFor (ofSeconds time)

variable {E root}

/-- A chain that is verified ends in an anchor. -/
theorem certificateChainAnchor_of_verify {content : VerificationMaterialContent} {time : Int64}
    (h : verifyCertificateChain E root content time = .ok ()) :
    ∃ anchor, certificateChainAnchor E root content time = .ok anchor := by
  simp only [verifyCertificateChain, bind_eq_ok] at h
  obtain ⟨anchor, hanchor, -⟩ := h
  exact ⟨anchor, hanchor⟩

/-- The anchor of a chain is one to which a path can be built. -/
theorem possibleAnchor_of_anchor (hpaths : PathBuilding E.webpki)
    {content : VerificationMaterialContent} {time : Int64} {anchor : Bytes}
    (h : certificateChainAnchor E root content time = .ok anchor) :
    PossibleAnchor E root content time anchor := by
  simp only [certificateChainAnchor, bind_eq_ok, mapError_eq_ok] at h
  obtain ⟨⟨ee, intermediates⟩, hparts, certs, hcerts, _, -, _, -, _, hee, hpath⟩ := h
  obtain ⟨hmem, hsingle⟩ := hpaths _ _ _ _ _ _ hpath
  obtain ⟨hmem, hanchor⟩ := List.mem_filter.1 hmem
  obtain ⟨_, hanchor⟩ := isOk_iff.1 hanchor
  exact ⟨ee, intermediates, certs, hparts, hcerts, hmem, hanchor, hee, hsingle⟩

/-- The possible anchors are the same for path builders that find the same paths. -/
theorem PossibleAnchor.of_samePaths {W : WebPki} (hsame : SamePaths W E.webpki)
    {content : VerificationMaterialContent} {time : Int64} {cert : Bytes}
    (h : PossibleAnchor { E with webpki := W } root content time cert) :
    PossibleAnchor E root content time cert := by
  obtain ⟨ee, intermediates, certs, hparts, hcerts, hmem, hanchor, hee, hpath⟩ := h
  refine ⟨ee, intermediates, certs, hparts, hcerts, hmem, ?_, ?_,
    (hsame.verifyForUsage _ _ _ _ _).1 hpath⟩
  · rw [← hsame.anchorFromTrustedCert]
    exact hanchor
  · rw [← hsame.endEntityCert]
    exact hee

/-- Path building that ends in a given certificate wherever there is a path to it. -/
def preferring (W : WebPki) (cert : Bytes) : WebPki :=
  { W with
    verifyForUsage := fun ee anchors intermediates time usage =>
      okOr ((cert :: anchors).find? fun anchor => anchor ∈ anchors ∧
        W.verifyForUsage ee [anchor] intermediates time usage = .ok anchor) "UnknownIssuer" }

section
variable {W : WebPki} {cert ee : Bytes} {anchors intermediates : List Bytes} {time : UInt64}
  {usage : String} {anchor : Bytes}

/-- What is preferred is an anchor with a path. -/
theorem preferring_ok
    (h : (preferring W cert).verifyForUsage ee anchors intermediates time usage = .ok anchor) :
    anchor ∈ anchors ∧ W.verifyForUsage ee [anchor] intermediates time usage = .ok anchor := by
  simpa using List.find?_some (okOr_eq_ok.1 h)

/-- A given certificate with a path is preferred. -/
theorem preferring_self (hmem : cert ∈ anchors)
    (hpath : W.verifyForUsage ee [cert] intermediates time usage = .ok cert) :
    (preferring W cert).verifyForUsage ee anchors intermediates time usage = .ok cert := by
  refine okOr_eq_ok.2 ?_
  rw [List.find?_cons_of_pos]
  simp [hmem, hpath]

/-- Where only one anchor is given, preferring a certificate makes no difference. -/
theorem preferring_singleton :
    (preferring W cert).verifyForUsage ee [anchor] intermediates time usage = .ok anchor ↔
      W.verifyForUsage ee [anchor] intermediates time usage = .ok anchor := by
  refine ⟨fun h => (preferring_ok h).2, fun h => ?_⟩
  by_cases heq : cert = anchor
  · exact heq ▸ preferring_self List.mem_cons_self (heq ▸ h)
  · refine okOr_eq_ok.2 ?_
    rw [List.find?_cons_of_neg (by simp [heq]), List.find?_cons_of_pos (by simp [h])]

end

/-- Path building that prefers a certificate finds the same paths, and is path building. -/
theorem preferring_samePaths (W : WebPki) (cert : Bytes) :
    PathBuilding (preferring W cert) ∧ SamePaths (preferring W cert) W :=
  ⟨fun _ _ _ _ _ _ h => ⟨(preferring_ok h).1, preferring_singleton.2 (preferring_ok h).2⟩,
    rfl, rfl, fun _ _ _ _ _ => preferring_singleton⟩

/-- A possible anchor is the anchor of the chain where it is preferred. -/
theorem PossibleAnchor.preferred {content : VerificationMaterialContent} {time : Int64}
    {cert : Bytes} (h : PossibleAnchor E root content time cert) :
    certificateChainAnchor { E with webpki := preferring E.webpki cert } root content time =
      .ok cert := by
  obtain ⟨ee, intermediates, certs, hparts, hcerts, hmem, hanchor, hee, hpath⟩ := h
  have htrusted : cert ∈ certs.filter fun cert => (E.webpki.anchorFromTrustedCert cert).isOk :=
    List.mem_filter.2 ⟨hmem, isOk_iff.2 ⟨(), hanchor⟩⟩
  simp only [certificateChainAnchor, bind_eq_ok, mapError_eq_ok, rejectIf_eq_ok]
  exact ⟨(ee, intermediates), hparts, certs, hcerts, (), List.ne_nil_of_mem hmem, (),
    List.ne_nil_of_mem htrusted, (), hee, preferring_self htrusted hpath⟩

/-- A leaf's chain is anchored in its time exactly where all its possible anchors are of authorities
of that time. -/
theorem chainWithin_iff {content : VerificationMaterialContent} {time : Int64} :
    ChainWithin E root content time ↔ AnchorsCover E root content time := by
  constructor
  · intro h cert hcert
    have hanchor := hcert.preferred
    have hverify : verifyCertificateChain { E with webpki := preferring E.webpki cert } root
        content time = .ok () := by
      rw [verifyCertificateChain, hanchor]
      rfl
    obtain ⟨hpaths, hsame⟩ := preferring_samePaths E.webpki cert
    obtain ⟨anchor, hanchor', hwithin⟩ := h _ hpaths hsame hverify
    cases hanchor.symm.trans hanchor'
    exact hwithin
  · intro h W hpaths hsame hverify
    obtain ⟨anchor, hanchor⟩ := certificateChainAnchor_of_verify hverify
    exact ⟨anchor, hanchor, h anchor ((possibleAnchor_of_anchor hpaths hanchor).of_samePaths hsame)⟩

end

/-! ## Logs -/

section
variable (E : Env) (root : TrustedRoot)

/-- The timestamp embedded in a certificate verifies under the key that is found for its log. -/
def SctVerifiedUnder (content : VerificationMaterialContent) (sct : SignedCertificateTimestamp)
    (key : Bytes) : Prop :=
  ∃ certDer spki cert issuerKeyHash keys id signed,
    extractCertificate content = .ok certDer ∧ getIssuerSpki E root content certDer = .ok spki ∧
    E.x509.fromDer certDer = .ok cert ∧ extractSct E cert spki = .ok (sct, issuerKeyHash) ∧
    root.ctfeKeysWithIds E.time E.primitives = .ok keys ∧
    keys.find? (fun k => k.1 = sct.logId) = some (id, key) ∧
    DigitallySigned.fromEmbeddedSct E cert sct issuerKeyHash = .ok signed ∧
    signed.verify E key sct.algorithm sct.signature = .ok ()

/-- A log with the key has a window that contains a time of a certificate timestamp. -/
def CtLogWithin (key : Bytes) (time : UInt64) : Prop :=
  ∃ ctlog ∈ root.ctlogs, ctlog.publicKey.rawBytes = key ∧
    Within E.time ctlog.publicKey.validFor (ofMilliseconds time)

/-- The leaf carries one certificate timestamp. -/
def CarriesSct (content : VerificationMaterialContent) (sct : SignedCertificateTimestamp) : Prop :=
  ∃ certDer cert, extractCertificate content = .ok certDer ∧ E.x509.fromDer certDer = .ok cert ∧
    E.x509.sctList cert = some (.ok [.ok sct])

/-- The log key that is found by the ID of a certificate timestamp. -/
def FoundByID (sct : SignedCertificateTimestamp) (key : Bytes) : Prop :=
  ∃ keys id, root.ctfeKeysWithIds E.time E.primitives = .ok keys ∧
    keys.find? (fun k => k.1 = sct.logId) = some (id, key)

/-- What the certificate timestamp of a leaf signs can be encoded, and a log key can be read: only
the signature is left to be verified. -/
def Checkable (content : VerificationMaterialContent) (sct : SignedCertificateTimestamp)
    (key : Bytes) : Prop :=
  ∃ certDer cert spki signed data scheme info,
    extractCertificate content = .ok certDer ∧ getIssuerSpki E root content certDer = .ok spki ∧
    E.x509.fromDer certDer = .ok cert ∧
    DigitallySigned.fromEmbeddedSct E cert sct (E.primitives.sha256 spki) = .ok signed ∧
    E.tlsSerialize signed = .ok data ∧ sctScheme sct.algorithm = some scheme ∧
    E.primitives.spki key = .ok info

/-- The environment where other signatures verify. -/
def Env.withVerify (verify : SigningScheme → Bytes → Bytes → Bytes → Bool) : Env :=
  { E with primitives := { E.primitives with verify := verify } }

/-- Whatever signatures verify, a certificate timestamp of a leaf that is accepted is verified under
the key of a log of the time of the timestamp. -/
def SctWithin (content : VerificationMaterialContent) : Prop :=
  ∀ verify sct key, SctVerifiedUnder (Env.withVerify E verify) root content sct key →
    CtLogWithin E root key sct.timestamp

/-- The log key that is found by the ID of the leaf's certificate timestamp, where it comes to its
signature, is the key of a log with a window that contains the time of the timestamp. -/
def LogCovers (content : VerificationMaterialContent) : Prop :=
  ∀ sct key, CarriesSct E content sct → FoundByID E root sct key →
    Checkable E root content sct key → CtLogWithin E root key sct.timestamp

variable {E root}

/-- An accepted certificate timestamp verifies under the key that is found for its log. The steps
are collected in one predicate, so that a condition on the inputs can be stated for each of them. -/
theorem verifySct_eq_ok {content : VerificationMaterialContent} :
    verifySct E root content = .ok () ↔ ∃ sct key, SctVerifiedUnder E root content sct key := by
  simp only [verifySct, verifyEmbeddedSct, bind_eq_ok, mapError_eq_ok, okOr_eq_ok, rejectIf_eq_ok]
  constructor
  · rintro ⟨certDer, hextract, spki, hspki, cert, hcert, ⟨sct, hash⟩, hsct, keys, hkeys, _, -,
      ⟨id, key⟩, hfind, signed, hsigned, hverify⟩
    exact ⟨sct, key, certDer, spki, cert, hash, keys, id, signed, hextract, hspki, hcert, hsct,
      hkeys, hfind, hsigned, hverify⟩
  · rintro ⟨sct, key, certDer, spki, cert, hash, keys, id, signed, hextract, hspki, hcert, hsct,
      hkeys, hfind, hsigned, hverify⟩
    exact ⟨certDer, hextract, spki, hspki, cert, hcert, (sct, hash), hsct, keys, hkeys, (),
      List.ne_nil_of_mem (List.mem_of_find?_eq_some hfind), (id, key), hfind, signed, hsigned,
      hverify⟩

/-- The one certificate timestamp that is extracted is the one that the certificate carries. A
certificate with several timestamps, or with one that cannot be parsed, is refused. -/
theorem extractSct_eq_ok {cert : Certificate} {spki : Bytes} {sct : SignedCertificateTimestamp}
    {hash : Sha256Hash} :
    extractSct E cert spki = .ok (sct, hash) ↔
      E.x509.sctList cert = some (.ok [.ok sct]) ∧ hash = E.primitives.sha256 spki := by
  simp only [extractSct, bind_eq_ok, okOr_eq_ok, mapError_eq_ok]
  constructor
  · rintro ⟨scts, hscts, timestamps, rfl, h⟩
    split at h
    · obtain ⟨sct', hsct, h⟩ := bind_eq_ok.1 h
      cases pure_eq_ok.1 h
      rw [mapError_eq_ok.1 hsct] at hscts
      exact ⟨hscts, rfl⟩
    · cases h
    · cases h
  · rintro ⟨hscts, rfl⟩
    exact ⟨_, hscts, _, rfl, rfl⟩

/-- No signature is verified to find the issuer's key. So that what is looked up can be spoken of
without knowing that a signature is valid. -/
theorem getIssuerSpki_withVerify (verify : SigningScheme → Bytes → Bytes → Bytes → Bool)
    (content : VerificationMaterialContent) (certDer : Bytes) :
    getIssuerSpki (Env.withVerify E verify) root content certDer =
      getIssuerSpki E root content certDer := by
  have hfind : ∀ issuer certs, findIssuerSpki (Env.withVerify E verify) issuer certs =
      findIssuerSpki E issuer certs := by
    intro issuer certs
    induction certs with
    | nil => rfl
    | cons der certs ih =>
      rw [findIssuerSpki, ih]
      rfl
  unfold getIssuerSpki issuerSpkiFromRoot
  simp only [hfind]
  rfl

/-- A certificate timestamp that is checked is verified where all signatures do. It is the way back
from the parts to the whole, in an environment in which the last step cannot fail. -/
theorem sctVerifiedUnder_of_checkable {content : VerificationMaterialContent}
    {sct : SignedCertificateTimestamp} {key : Bytes} (hcarries : CarriesSct E content sct)
    (hfound : FoundByID E root sct key) (hcheckable : Checkable E root content sct key) :
    SctVerifiedUnder (Env.withVerify E fun _ _ _ _ => true) root content sct key := by
  obtain ⟨certDer, cert, hcontent, hcert, hsct⟩ := hcarries
  obtain ⟨keys, id, hkeys, hfind⟩ := hfound
  obtain ⟨certDer', cert', spki, signed, data, scheme, info, hcontent', hspki, hcert', hsigned,
    hdata, hscheme, hinfo⟩ := hcheckable
  cases hcontent.symm.trans hcontent'
  cases hcert.symm.trans hcert'
  refine ⟨certDer, spki, cert, _, keys, id, signed, hcontent,
    (getIssuerSpki_withVerify _ _ _).trans hspki, hcert, extractSct_eq_ok.2 ⟨hsct, rfl⟩, hkeys,
    hfind, hsigned, ?_⟩
  simp only [DigitallySigned.verify, bind_eq_ok, okOr_eq_ok, mapError_eq_ok]
  exact ⟨data, hdata, scheme, hscheme, verifySignature_eq_ok.2 ⟨info, hinfo, rfl⟩⟩

/-- A certificate timestamp that is verified came to its signature. Each part is read off the steps
before the last one, which are the same in every environment. -/
theorem checkable_of_sctVerifiedUnder {content : VerificationMaterialContent}
    {sct : SignedCertificateTimestamp} {key : Bytes}
    {verify : SigningScheme → Bytes → Bytes → Bytes → Bool}
    (h : SctVerifiedUnder (Env.withVerify E verify) root content sct key) :
    CarriesSct E content sct ∧ FoundByID E root sct key ∧ Checkable E root content sct key := by
  obtain ⟨certDer, spki, cert, hash, keys, id, signed, hcontent, hspki, hcert, hextract, hkeys,
    hfind, hsigned, hverify⟩ := h
  obtain ⟨hsct, rfl⟩ := extractSct_eq_ok.1 hextract
  rw [getIssuerSpki_withVerify] at hspki
  simp only [DigitallySigned.verify, bind_eq_ok, okOr_eq_ok, mapError_eq_ok,
    verifySignature_eq_ok] at hverify
  obtain ⟨data, hdata, scheme, hscheme, info, hinfo, -⟩ := hverify
  exact ⟨⟨certDer, cert, hcontent, hcert, hsct⟩, ⟨keys, id, hkeys, hfind⟩,
    certDer, cert, spki, signed, data, scheme, info, hcontent, hspki, hcert, hsigned, hdata,
    hscheme, hinfo⟩

/-- The certificate timestamp of a leaf is of the time of its log exactly where the log that is
found by its ID covers that time. -/
theorem sctWithin_iff {content : VerificationMaterialContent} :
    SctWithin E root content ↔ LogCovers E root content := by
  constructor
  · intro h sct key hcarries hfound hcheckable
    exact h _ sct key (sctVerifiedUnder_of_checkable hcarries hfound hcheckable)
  · intro h verify sct key hverified
    obtain ⟨hcarries, hfound, hcheckable⟩ := checkable_of_sctVerifiedUnder hverified
    exact h sct key hcarries hfound hcheckable

end

section
variable (E : Env) (root : TrustedRoot)

/-- **When the windows bound what is accepted.** For every leaf and time: whichever of its possible
anchors the path building ends in and whatever signatures verify, an accepted chain is anchored in
an authority of the validation time and an accepted certificate timestamp is verified under the key
of a log of its time, if and only if every possible anchor of the leaf is of an authority whose
window contains the validation time, and the log that is found by the ID of the leaf's timestamp has
a window that contains the time of the timestamp. -/
theorem windows_iff (content : VerificationMaterialContent) (time : Int64) :
    ChainWithin E root content time ∧ SctWithin E root content ↔
      AnchorsCover E root content time ∧ LogCovers E root content :=
  and_congr chainWithin_iff sctWithin_iff

end

namespace Sample

/-- The deployment with a successor of its authority and of its log, which retired in 2020. -/
def withSuccessors : TrustedRoot :=
  { root with
    certificateAuthorities :=
      [⟨[certDer 4], some ⟨none, some "2020-01-01T00:00:00Z"⟩⟩, ⟨[certDer 2], validFor⟩]
    ctlogs := [⟨⟨keyDer 7, some ⟨none, some "2020-01-01T00:00:00Z"⟩⟩⟩, ⟨⟨keyDer 6, validFor⟩⟩] }

/-- The certificate timestamp of the signing certificate. -/
def embeddedSct : SignedCertificateTimestamp :=
  { logId := (sha256 (keyDer 6)).bytes, timestamp := 1700000000000, extensions := []
    algorithm := 0x0403, signature := sign 6 ((sha256 (keyDer 2)).bytes ++ [1]) }

/-- The window of the deployment contains the time of its certificates. -/
theorem within_validFor : Within jiff validFor 1700000000000000000 := by
  intro p hp
  cases hp
  constructor
  · intro text htext
    cases htext
    exact ⟨1577836800000000000, rfl, by decide⟩
  · intro text htext
    cases htext
    exact ⟨1893456000000000000, rfl, by decide⟩

theorem fulcioCerts_withSuccessors :
    withSuccessors.fulcioCerts jiff = .ok [certDer 4, certDer 2] := by
  decide

/-- The leaf chains to the successor alone. -/
theorem possibleAnchor_withSuccessors {cert : Bytes}
    (h : PossibleAnchor env withSuccessors (.certificate (certDer 1)) 1700000000 cert) :
    cert = certDer 2 := by
  obtain ⟨ee, intermediates, certs, hparts, hcerts, hmem, -, -, hpath⟩ := h
  cases hparts
  cases hcerts.symm.trans fulcioCerts_withSuccessors
  rcases List.mem_cons.1 hmem with rfl | hmem
  · exact absurd hpath (by decide)
  · exact List.mem_singleton.1 hmem

/-- The log of the leaf's timestamp is the successor. The leaf carries one timestamp, and its
identifier is that of one log of the root. -/
theorem foundByID_withSuccessors {sct : SignedCertificateTimestamp} {key : Bytes}
    (hcarries : CarriesSct env (.certificate (certDer 1)) sct)
    (hfound : FoundByID env withSuccessors sct key) :
    sct = embeddedSct ∧ key = keyDer 6 := by
  obtain ⟨certDer, cert, hcontent, hcert, hsct⟩ := hcarries
  cases hcontent
  cases hcert
  cases hsct
  obtain ⟨keys, id, hkeys, hfind⟩ := hfound
  have hkeys' : withSuccessors.ctfeKeysWithIds jiff primitives = .ok
      [((sha256 (keyDer 7)).bytes, keyDer 7), ((sha256 (keyDer 6)).bytes, keyDer 6)] := by
    decide
  cases hkeys.symm.trans hkeys'
  rw [List.find?_cons_of_neg (by decide), List.find?_cons_of_pos (by decide)] at hfind
  cases hfind
  exact ⟨rfl, rfl⟩

end Sample

/-- A certificate of the successor is accepted in the windows of the successors, although the
trusted root has a retired authority and a retired log. -/
theorem windows_iff_successors :
    ChainWithin Sample.env Sample.withSuccessors (.certificate (Sample.certDer 1)) 1700000000 ∧
      SctWithin Sample.env Sample.withSuccessors (.certificate (Sample.certDer 1)) := by
  refine (windows_iff Sample.env Sample.withSuccessors _ 1700000000).2 ⟨fun cert hcert => ?_, ?_⟩
  · obtain rfl := Sample.possibleAnchor_withSuccessors hcert
    exact ⟨⟨[Sample.certDer 2], Sample.validFor⟩, List.mem_cons_of_mem _ List.mem_cons_self,
      List.mem_cons_self, Sample.within_validFor⟩
  · intro sct key hcarries hfound _
    obtain ⟨rfl, rfl⟩ := Sample.foundByID_withSuccessors hcarries hfound
    exact ⟨⟨⟨Sample.keyDer 6, Sample.validFor⟩⟩, List.mem_cons_of_mem _ List.mem_cons_self, rfl,
      Sample.within_validFor⟩

namespace Sample

/-- The authority and the log of the deployment retired in 2020. -/
def retired : TrustedRoot :=
  { root with
    certificateAuthorities := [⟨[certDer 2], some ⟨none, some "2020-01-01T00:00:00Z"⟩⟩]
    ctlogs := [⟨⟨keyDer 6, some ⟨none, some "2020-01-01T00:00:00Z"⟩⟩⟩] }

/-- The path building of the deployment looks for the first anchor with the issuer's name. It looks
at the subjects of the anchors only, and so finds the anchor that it returned also where that is the
only one. -/
theorem webpki_pathBuilding : PathBuilding webpki := by
  intro ee anchors intermediates time usage anchor h
  simp only [webpki] at h ⊢
  split at h
  · next cert _ =>
    split at h
    · next anchor' hfind =>
      have hsubject := List.find?_some hfind
      have hmem := List.mem_of_find?_eq_some hfind
      obtain rfl : anchor' = anchor := by
        split_ifs at h <;> cases h <;> rfl
      refine ⟨hmem, ?_⟩
      rw [List.find?_cons_of_pos]
      · exact h
      · exact hsubject
    · cases h
  · cases h

/-- A window that ended in 2020 contains no later time. -/
theorem not_within_2020 {time : Timestamp} (h : 1577836800000000000 < time) :
    ¬ Within jiff (some ⟨none, some "2020-01-01T00:00:00Z"⟩) time := by
  intro hwithin
  obtain ⟨end_, hparse, hle⟩ := (hwithin _ rfl).2 _ rfl
  cases hparse
  exact absurd hle (not_le_of_gt h)

/-- The log of the deployment has signed the certificate timestamp. -/
theorem sctVerifiedUnder_retired :
    SctVerifiedUnder env retired (.certificate (certDer 1)) embeddedSct (keyDer 6) :=
  ⟨certDer 1, keyDer 2, _, _, _, _, _, rfl, by decide, rfl, rfl, rfl, rfl, rfl,
    by decide⟩

end Sample

/-- In 2023 a certificate is accepted whose authority and log both retired in 2020. The leaf is of
2023, and both windows ended three years before. -/
theorem windows_fail :
    (¬ ∀ (E : Env) (root : TrustedRoot) (content : VerificationMaterialContent) (time : Int64),
      PathBuilding E.webpki → verifyCertificateChain E root content time = .ok () →
      AnchoredWithin E root content time) ∧
    ¬ ∀ (E : Env) (root : TrustedRoot) (content : VerificationMaterialContent) sct key,
      verifySct E root content = .ok () → SctVerifiedUnder E root content sct key →
      CtLogWithin E root key sct.timestamp := by
  constructor
  · intro hall
    obtain ⟨anchor, -, ca, hca, -, hwithin⟩ := hall Sample.env Sample.retired
      (.certificate (Sample.certDer 1)) 1700000000 Sample.webpki_pathBuilding (by decide +kernel)
    rw [List.mem_singleton.1 hca] at hwithin
    exact Sample.not_within_2020 (by decide) hwithin
  · intro hall
    obtain ⟨ctlog, hctlog, -, hwithin⟩ := hall _ _ _ _ _
      (verifySct_eq_ok.2 ⟨_, _, Sample.sctVerifiedUnder_retired⟩) Sample.sctVerifiedUnder_retired
    rw [List.mem_singleton.1 hctlog] at hwithin
    exact Sample.not_within_2020 (by decide) hwithin

end Sigstore.Verify
