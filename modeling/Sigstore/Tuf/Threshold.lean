import Sigstore.Checks
import Sigstore.Tuf.Metadata
import Mathlib.Data.Finset.Card
import Mathlib.Data.Finset.Dedup

/-!
# What a signature threshold establishes

`SignedToThreshold` says what a role's threshold is for: that many distinct authorized keys have
each made a valid signature. `verify_threshold` establishes it (`signedToThreshold_of_verify`). What
it decides exactly is `MeetsThreshold`, which also forbids two signatures by one authorized key; the
order of the signatures and of the key IDs, and signatures that do not count, make no difference
(`verifyThreshold_verdict`).
-/

namespace Sigstore.Tuf

open Sigstore.Crypto Checks

section
variable (P : Primitives) {T : Type}

/-- An authorized key that has made a non-empty signature: its text is hex, the key that is stored
under the ID can be used, and the signature verifies under that key over the canonical bytes. -/
def Metadata.SignedBy (m : Metadata T) (keys : BTreeMap String Key) (roleKeys : RoleKeys)
    (keyid : String) : Prop :=
  keyid ∈ roleKeys.keyids ∧ ∃ sig ∈ m.signatures, sig.keyid = keyid ∧ sig.sig ≠ "" ∧
    ∃ key raw vkey, keys.get? keyid = some key ∧ hexDecode sig.sig = some raw ∧
      key.verificationKey P = .ok vkey ∧ vkey.verify P m.canonicalSigned raw = .ok ()

/-- At least a threshold, and at least one, of distinct authorized keys have signed. -/
def Metadata.SignedToThreshold (m : Metadata T) (keys : BTreeMap String Key)
    (roleKeys : RoleKeys) : Prop :=
  0 < roleKeys.threshold ∧ ∃ signers : Finset String,
    roleKeys.threshold.toNat ≤ signers.card ∧ ∀ k ∈ signers, m.SignedBy P keys roleKeys k

/-- A signature is valid exactly where it decodes from hex and verifies under the usable key that is
stored for its key ID; the loop skips it where any of these is missing. -/
theorem Metadata.signatureValid_iff {keys : BTreeMap String Key} {canonical : Bytes}
    {sig : Signature} :
    Metadata.signatureValid P keys canonical sig = true ↔
      ∃ key raw vkey, keys.get? sig.keyid = some key ∧ hexDecode sig.sig = some raw ∧
        key.verificationKey P = .ok vkey ∧ vkey.verify P canonical raw = .ok () := by
  unfold Metadata.signatureValid
  constructor
  · intro h
    split at h
    · cases h
    · next key hkey =>
      split at h
      · cases h
      · next raw hraw =>
        split at h
        · cases h
        · next vkey hvkey =>
          obtain ⟨_, hverify⟩ := isOk_iff.1 h
          exact ⟨key, raw, vkey, hkey, hraw, hvkey, hverify⟩
  · rintro ⟨key, raw, vkey, hkey, hraw, hvkey, hverify⟩
    simp only [hkey, hraw, hvkey, hverify]
    rfl

/-- The loop collects distinct keys that have signed. -/
theorem Metadata.thresholdLoop_spec {m : Metadata T} {keys : BTreeMap String Key}
    {roleKeys : RoleKeys} {roleName : String} {sigs : List Signature}
    (hsigs : ∀ sig ∈ sigs, sig ∈ m.signatures) {seen good result : List String}
    (hgood : good.Nodup) (hsigned : ∀ k ∈ good, m.SignedBy P keys roleKeys k)
    (hloop : Metadata.thresholdLoop P keys roleKeys roleName m.canonicalSigned seen good sigs =
      .ok result) :
    result.Nodup ∧ ∀ k ∈ result, m.SignedBy P keys roleKeys k := by
  induction sigs generalizing seen good with
  | nil =>
    cases hloop
    exact ⟨hgood, hsigned⟩
  | cons sig sigs ih =>
    have hrest : ∀ sig ∈ sigs, sig ∈ m.signatures := fun s hs =>
      hsigs s (List.mem_cons_of_mem _ hs)
    simp only [Metadata.thresholdLoop] at hloop
    split at hloop
    · exact ih hrest hgood hsigned hloop
    · next hauth =>
      split at hloop
      · exact ih hrest hgood hsigned hloop
      · next hne =>
        split at hloop
        · cases hloop
        · refine ih hrest ?_ ?_ hloop
          · split
            · exact hgood.insert
            · exact hgood
          · intro k hk
            split at hk
            · next hvalid =>
              rcases List.mem_insert_iff.1 hk with rfl | hk
              · exact ⟨not_not.1 hauth, sig, hsigs sig List.mem_cons_self, rfl, hne,
                  (Metadata.signatureValid_iff P).1 hvalid⟩
              · exact hsigned k hk
            · exact hsigned k hk

/-- A verified threshold is a threshold of distinct authorized keys that have signed. -/
theorem Metadata.signedToThreshold_of_verify {m : Metadata T} {keys : BTreeMap String Key}
    {roleKeys : RoleKeys} {roleName : String} {u : Unit}
    (h : m.verifyThreshold P keys roleKeys roleName = .ok u) :
    m.SignedToThreshold P keys roleKeys := by
  unfold Metadata.verifyThreshold at h
  split at h
  · cases h
  · next hzero =>
    obtain ⟨good, hloop, hcount⟩ := bind_eq_ok.1 h
    split at hcount
    · next hle =>
      obtain ⟨hnodup, hsigned⟩ := Metadata.thresholdLoop_spec P (fun _ hs => hs) List.nodup_nil
        (fun _ hk => absurd hk List.not_mem_nil) hloop
      refine ⟨?_, good.toFinset, ?_, fun k hk => hsigned k (List.mem_toFinset.1 hk)⟩
      · have := UInt64.toNat_inj.not.2 hzero
        rw [UInt64.lt_iff_toNat_lt]
        exact Nat.pos_of_ne_zero this
      · rw [List.toFinset_card_of_nodup hnodup]
        exact hle
    · cases hcount

/-- Fewer keys verify no signature that more keys do not. -/
theorem Metadata.SignedToThreshold.mono_keys {m : Metadata T} {keys keys' : BTreeMap String Key}
    {roleKeys : RoleKeys} (hkeys : ∀ k key, keys.get? k = some key → keys'.get? k = some key)
    (h : m.SignedToThreshold P keys roleKeys) : m.SignedToThreshold P keys' roleKeys := by
  obtain ⟨hpos, signers, hcard, hsigned⟩ := h
  refine ⟨hpos, signers, hcard, fun k hk => ?_⟩
  obtain ⟨hauth, sig, hmem, hid, hne, key, raw, vkey, hkey, hvalid⟩ := hsigned k hk
  exact ⟨hauth, sig, hmem, hid, hne, key, raw, vkey, hkeys k key hkey, hvalid⟩

/-! ## The verdict -/

/-- A signature counts where its key is authorized and it is not empty. -/
def RoleKeys.Counts (roleKeys : RoleKeys) (sig : Signature) : Prop :=
  sig.keyid ∈ roleKeys.keyids ∧ sig.sig ≠ ""

instance (roleKeys : RoleKeys) (sig : Signature) : Decidable (roleKeys.Counts sig) :=
  inferInstanceAs (Decidable (_ ∧ _))

/-- The key IDs of the signatures that count, one for each signature. -/
def RoleKeys.countedIds (roleKeys : RoleKeys) (sigs : List Signature) : List String :=
  (sigs.filter fun sig => roleKeys.Counts sig).map Signature.keyid

open Classical in
/-- The distinct authorized keys that have signed. -/
noncomputable def Metadata.signers (m : Metadata T) (keys : BTreeMap String Key)
    (roleKeys : RoleKeys) : Finset String :=
  roleKeys.keyids.toFinset.filter (m.SignedBy P keys roleKeys)

/-- The threshold is at least 1, no authorized key has made two signatures that are not empty, and
enough keys have signed. -/
structure Metadata.MeetsThreshold (m : Metadata T) (keys : BTreeMap String Key)
    (roleKeys : RoleKeys) : Prop where
  positive : 1 ≤ roleKeys.threshold
  distinct : (roleKeys.countedIds m.signatures).Nodup
  enough : roleKeys.threshold.toNat ≤ (m.signers P keys roleKeys).card

/-- The signers are the keys of the role that have signed. -/
theorem Metadata.mem_signers {m : Metadata T} {keys : BTreeMap String Key} {roleKeys : RoleKeys}
    {k : String} : k ∈ m.signers P keys roleKeys ↔ m.SignedBy P keys roleKeys k := by
  simp only [Metadata.signers, Finset.mem_filter, List.mem_toFinset]
  exact ⟨And.right, fun h => ⟨h.1, h⟩⟩

/-- A signature that counts does so for its key. -/
theorem RoleKeys.countedIds_cons_of_counts {roleKeys : RoleKeys} {sig : Signature}
    {sigs : List Signature} (h : roleKeys.Counts sig) :
    roleKeys.countedIds (sig :: sigs) = sig.keyid :: roleKeys.countedIds sigs := by
  simp [RoleKeys.countedIds, h]

/-- A signature that does not count is passed over. -/
theorem RoleKeys.countedIds_cons_of_not {roleKeys : RoleKeys} {sig : Signature}
    {sigs : List Signature} (h : ¬ roleKeys.Counts sig) :
    roleKeys.countedIds (sig :: sigs) = roleKeys.countedIds sigs := by
  simp [RoleKeys.countedIds, h]

/-- The loop succeeds exactly where no counted key ID comes up twice, or was seen before. -/
theorem Metadata.thresholdLoop_isOk {keys : BTreeMap String Key} {roleKeys : RoleKeys}
    {roleName : String} {canonical : Bytes} {sigs : List Signature} {seen good : List String} :
    (∃ result, Metadata.thresholdLoop P keys roleKeys roleName canonical seen good sigs =
      .ok result) ↔
    (roleKeys.countedIds sigs).Nodup ∧ ∀ k ∈ roleKeys.countedIds sigs, k ∉ seen := by
  induction sigs generalizing seen good with
  | nil => simp [Metadata.thresholdLoop, RoleKeys.countedIds]
  | cons sig sigs ih =>
    by_cases hcounts : roleKeys.Counts sig
    · obtain ⟨hauth, hne⟩ := hcounts
      rw [RoleKeys.countedIds_cons_of_counts ⟨hauth, hne⟩, Metadata.thresholdLoop,
        if_neg (not_not.2 hauth), if_neg hne]
      by_cases hseen : sig.keyid ∈ seen
      · rw [if_pos hseen]
        simp [hseen]
      · rw [if_neg hseen, ih, List.nodup_cons]
        constructor
        · rintro ⟨hnodup, hfresh⟩
          refine ⟨⟨fun hmem => hfresh _ hmem List.mem_cons_self, hnodup⟩, ?_⟩
          intro k hk
          rcases List.mem_cons.1 hk with rfl | hk
          · exact hseen
          · exact fun hin => hfresh k hk (List.mem_cons_of_mem _ hin)
        · rintro ⟨⟨hnot, hnodup⟩, hfresh⟩
          refine ⟨hnodup, fun k hk hin => ?_⟩
          rcases List.mem_cons.1 hin with rfl | hin
          · exact hnot hk
          · exact hfresh k (List.mem_cons_of_mem _ hk) hin
    · rw [RoleKeys.countedIds_cons_of_not hcounts, ← @ih seen good, Metadata.thresholdLoop]
      by_cases hauth : sig.keyid ∈ roleKeys.keyids
      · have hempty : sig.sig = "" := not_not.1 fun hne => hcounts ⟨hauth, hne⟩
        rw [if_neg (not_not.2 hauth), if_pos hempty]
      · rw [if_pos hauth]

/-- The loop collects every key that has signed. -/
theorem Metadata.thresholdLoop_collects {keys : BTreeMap String Key} {roleKeys : RoleKeys}
    {roleName : String} {canonical : Bytes} {sigs : List Signature}
    {seen good result : List String}
    (hloop : Metadata.thresholdLoop P keys roleKeys roleName canonical seen good sigs =
      .ok result) :
    (∀ k ∈ good, k ∈ result) ∧
    ∀ sig ∈ sigs, roleKeys.Counts sig → Metadata.signatureValid P keys canonical sig = true →
      sig.keyid ∈ result := by
  induction sigs generalizing seen good with
  | nil =>
    cases hloop
    exact ⟨fun _ hk => hk, fun _ hsig => absurd hsig List.not_mem_nil⟩
  | cons sig sigs ih =>
    simp only [Metadata.thresholdLoop] at hloop
    split at hloop
    · next hauth =>
      obtain ⟨hgood, hrest⟩ := ih hloop
      refine ⟨hgood, fun s hs hcounts hvalid => ?_⟩
      rcases List.mem_cons.1 hs with rfl | hs
      · exact absurd hcounts.1 hauth
      · exact hrest s hs hcounts hvalid
    · split at hloop
      · next hempty =>
        obtain ⟨hgood, hrest⟩ := ih hloop
        refine ⟨hgood, fun s hs hcounts hvalid => ?_⟩
        rcases List.mem_cons.1 hs with rfl | hs
        · exact absurd hempty hcounts.2
        · exact hrest s hs hcounts hvalid
      · split at hloop
        · cases hloop
        · obtain ⟨hgood, hrest⟩ := ih hloop
          constructor
          · intro k hk
            refine hgood k ?_
            split
            · exact List.mem_insert_of_mem hk
            · exact hk
          · intro s hs hcounts hvalid
            rcases List.mem_cons.1 hs with rfl | hs
            · refine hgood _ ?_
              rw [if_pos hvalid]
              exact List.mem_insert_self
            · exact hrest s hs hcounts hvalid

/-- `verify_threshold` accepts exactly what meets the threshold. -/
theorem Metadata.verifyThreshold_eq_ok {m : Metadata T} {keys : BTreeMap String Key}
    {roleKeys : RoleKeys} {roleName : String} :
    m.verifyThreshold P keys roleKeys roleName = .ok () ↔ m.MeetsThreshold P keys roleKeys := by
  have hpositive : 1 ≤ roleKeys.threshold ↔ roleKeys.threshold ≠ 0 := by
    rw [UInt64.le_iff_toNat_le, Ne, ← UInt64.toNat_inj]
    exact Nat.one_le_iff_ne_zero
  have hcount : ∀ good, Metadata.thresholdLoop P keys roleKeys roleName m.canonicalSigned [] []
      m.signatures = .ok good → good.length = (m.signers P keys roleKeys).card := by
    intro good hloop
    obtain ⟨hnodup, hsigned⟩ := Metadata.thresholdLoop_spec P (fun _ hs => hs) List.nodup_nil
      (fun _ hk => absurd hk List.not_mem_nil) hloop
    obtain ⟨-, hcollects⟩ := Metadata.thresholdLoop_collects P hloop
    rw [← List.toFinset_card_of_nodup hnodup]
    congr 1
    ext k
    rw [List.mem_toFinset, Metadata.mem_signers]
    constructor
    · exact hsigned k
    · rintro ⟨hauth, sig, hsig, rfl, hne, hvalid⟩
      exact hcollects sig hsig ⟨hauth, hne⟩ ((Metadata.signatureValid_iff P).2 hvalid)
  unfold Metadata.verifyThreshold
  by_cases hzero : roleKeys.threshold = 0
  · simp only [if_pos hzero, reduceCtorEq, false_iff]
    exact fun h => hpositive.1 h.positive hzero
  · rw [if_neg hzero]
    constructor
    · intro h
      obtain ⟨good, hloop, henough⟩ := bind_eq_ok.1 h
      split at henough
      · next hle =>
        exact {
          positive := hpositive.2 hzero
          distinct := ((Metadata.thresholdLoop_isOk P).1 ⟨good, hloop⟩).1
          enough := hcount good hloop ▸ hle }
      · cases henough
    · intro h
      obtain ⟨good, hloop⟩ : ∃ good, Metadata.thresholdLoop P keys roleKeys roleName
          m.canonicalSigned [] [] m.signatures = .ok good :=
        (Metadata.thresholdLoop_isOk P).2 ⟨h.distinct, fun _ _ => List.not_mem_nil⟩
      exact bind_eq_ok.2 ⟨good, hloop, if_pos (hcount good hloop ▸ h.enough)⟩

/-- Only the signatures that count, in any order, and the set of key IDs matter. -/
theorem Metadata.MeetsThreshold.congr {m : Metadata T} {keys : BTreeMap String Key}
    {roleKeys : RoleKeys} {extra sigs : List Signature} {keyids : List String}
    (hextra : ∀ sig ∈ extra, ¬ roleKeys.Counts sig) (hsigs : sigs.Perm (m.signatures ++ extra))
    (hkeyids : ∀ k, k ∈ keyids ↔ k ∈ roleKeys.keyids) :
    ({ m with signatures := sigs } : Metadata T).MeetsThreshold P keys
      { roleKeys with keyids := keyids } ↔ m.MeetsThreshold P keys roleKeys := by
  have hcounts : ∀ sig, ({ roleKeys with keyids := keyids } : RoleKeys).Counts sig ↔
      roleKeys.Counts sig := fun sig => and_congr_left fun _ => hkeyids _
  have hids : (({ roleKeys with keyids := keyids } : RoleKeys).countedIds sigs).Perm
      (roleKeys.countedIds m.signatures) := by
    have hfilter : (m.signatures ++ extra).filter (fun sig => decide (roleKeys.Counts sig)) =
        m.signatures.filter fun sig => decide (roleKeys.Counts sig) := by
      have hnil : extra.filter (fun sig => decide (roleKeys.Counts sig)) = [] :=
        List.filter_eq_nil_iff.2 fun sig hsig => by simp [hextra sig hsig]
      rw [List.filter_append, hnil, List.append_nil]
    simp only [RoleKeys.countedIds, hcounts]
    rw [← hfilter]
    exact (hsigs.filter _).map _
  have hsigners : ({ m with signatures := sigs } : Metadata T).signers P keys
      { roleKeys with keyids := keyids } = m.signers P keys roleKeys := by
    ext k
    rw [Metadata.mem_signers, Metadata.mem_signers]
    constructor
    · rintro ⟨hauth, sig, hsig, rfl, hne, hvalid⟩
      have hauth' := (hkeyids sig.keyid).1 hauth
      rcases List.mem_append.1 (hsigs.mem_iff.1 hsig) with hsig | hsig
      · exact ⟨hauth', sig, hsig, rfl, hne, hvalid⟩
      · exact absurd ⟨hauth', hne⟩ (hextra sig hsig)
    · rintro ⟨hauth, sig, hsig, rfl, hne, hvalid⟩
      exact ⟨(hkeyids _).2 hauth, sig, hsigs.mem_iff.2 (List.mem_append_left _ hsig), rfl, hne,
        hvalid⟩
  exact ⟨fun h => ⟨h.positive, hids.nodup_iff.1 h.distinct, hsigners ▸ h.enough⟩,
    fun h => ⟨h.positive, hids.nodup_iff.2 h.distinct, hsigners.symm ▸ h.enough⟩⟩

/-- **The verdict of a threshold.** For every metadata file, key map and role, `verify_threshold`
succeeds exactly where the threshold is at least 1, no authorized key ID is on two signatures that
are not empty, and at least the threshold of distinct authorized keys have signed. Neither the order
of the signatures or of the key IDs, nor repeated key IDs, nor further signatures that are empty or
by keys without authority, make a difference. -/
theorem Metadata.verifyThreshold_verdict (m : Metadata T) (keys : BTreeMap String Key)
    (roleKeys : RoleKeys) (roleName : String) :
    (m.verifyThreshold P keys roleKeys roleName = .ok () ↔ m.MeetsThreshold P keys roleKeys) ∧
    ∀ (extra sigs : List Signature) (keyids : List String),
      (∀ sig ∈ extra, sig.keyid ∉ roleKeys.keyids ∨ sig.sig = "") →
      sigs.Perm (m.signatures ++ extra) → (∀ k, k ∈ keyids ↔ k ∈ roleKeys.keyids) →
      (({ m with signatures := sigs } : Metadata T).verifyThreshold P keys
        { roleKeys with keyids := keyids } roleName = .ok () ↔
        m.verifyThreshold P keys roleKeys roleName = .ok ()) := by
  refine ⟨Metadata.verifyThreshold_eq_ok P, fun extra sigs keyids hextra hsigs hkeyids => ?_⟩
  rw [Metadata.verifyThreshold_eq_ok, Metadata.verifyThreshold_eq_ok]
  refine Metadata.MeetsThreshold.congr P (fun sig hsig hcounts => ?_) hsigs hkeyids
  rcases hextra sig hsig with hnot | hempty
  · exact hnot hcounts.1
  · exact hcounts.2 hempty

end

end Sigstore.Tuf
