import Sigstore.Tuf.Refresh

/-!
# Delegations that agree

A delegations block authorizes a role by an entry: a list of key IDs and a threshold, with keys of
the block. The trusted set keeps a delegated role by its name and authorizes it by the first entry
of that name. Where all entries for one name have the same authority (`Agrees`), it makes no
difference by which of them a role was accepted (`checkDelegatedTargets_of_agrees`).
-/

namespace Sigstore.Tuf

open Sigstore.Crypto Checks TrustedMetadataSet

/-- Two key maps and roles authorize the same: the same key IDs with the same keys, and the same
threshold. -/
structure SameAuthority (keys : BTreeMap String Key) (roleKeys : RoleKeys)
    (keys' : BTreeMap String Key) (roleKeys' : RoleKeys) : Prop where
  keyids : ∀ k, k ∈ roleKeys.keyids ↔ k ∈ roleKeys'.keyids
  threshold : roleKeys.threshold = roleKeys'.threshold
  keys : ∀ k ∈ roleKeys.keyids, keys.get? k = keys'.get? k

instance (keys : BTreeMap String Key) (roleKeys : RoleKeys) (keys' : BTreeMap String Key)
    (roleKeys' : RoleKeys) : Decidable (SameAuthority keys roleKeys keys' roleKeys') :=
  decidable_of_iff ((∀ k ∈ roleKeys.keyids, k ∈ roleKeys'.keyids) ∧
      (∀ k ∈ roleKeys'.keyids, k ∈ roleKeys.keyids) ∧ roleKeys.threshold = roleKeys'.threshold ∧
      ∀ k ∈ roleKeys.keyids, keys.get? k = keys'.get? k)
    ⟨fun h => ⟨fun k => ⟨h.1 k, h.2.1 k⟩, h.2.2.1, h.2.2.2⟩,
      fun h => ⟨fun k => (h.keyids k).1, fun k => (h.keyids k).2, h.threshold, h.keys⟩⟩

/-- The file delegates by the entry. -/
def HasEntry (m : Metadata Targets) (delegations : Delegations) (role : DelegatedRole) : Prop :=
  m.signed.delegations = some delegations ∧ role ∈ delegations.roles

/-- All entries of the files for one role have the same authority. -/
def Agrees (F : Metadata Targets → Prop) : Prop :=
  ∀ m m' delegations delegations' role role', F m → F m' → HasEntry m delegations role →
    HasEntry m' delegations' role' → role.name = role'.name →
    SameAuthority delegations.keys role.roleKeys delegations'.keys role'.roleKeys

/-- Files agree where those of a list do that has them all. -/
theorem agrees_of_list {F : Metadata Targets → Prop} (l : List (Metadata Targets))
    (hF : ∀ m, F m → m ∈ l)
    (h : ∀ m ∈ l, ∀ m' ∈ l, ∀ d ∈ m.signed.delegations, ∀ d' ∈ m'.signed.delegations,
      ∀ r ∈ d.roles, ∀ r' ∈ d'.roles, r.name = r'.name →
        SameAuthority d.keys r.roleKeys d'.keys r'.roleKeys) : Agrees F := by
  intro m m' d d' r r' hm hm' hr hr' hname
  exact h m (hF m hm) m' (hF m' hm') d hr.1 d' hr'.1 r hr.2 r' hr'.2 hname

/-- The keys that an entry exposes. -/
def exposedKeys (delegations : Delegations) (role : DelegatedRole) : BTreeMap String Key :=
  role.keyids.foldl (fun keys kid =>
    match delegations.keys.get? kid with
    | some key => keys.insert kid key
    | none => keys) BTreeMap.empty

section
variable {P : Primitives} {T : Type} {m : Metadata T} {keys keys' keys'' : BTreeMap String Key}
  {roleKeys roleKeys' roleKeys'' : RoleKeys}

theorem SameAuthority.symm (h : SameAuthority keys roleKeys keys' roleKeys') :
    SameAuthority keys' roleKeys' keys roleKeys := by
  refine ⟨fun k => (h.keyids k).symm, h.threshold.symm, fun k hk => ?_⟩
  exact (h.keys k ((h.keyids k).2 hk)).symm

theorem SameAuthority.trans (h : SameAuthority keys roleKeys keys' roleKeys')
    (h' : SameAuthority keys' roleKeys' keys'' roleKeys'') :
    SameAuthority keys roleKeys keys'' roleKeys'' := by
  refine ⟨fun k => (h.keyids k).trans (h'.keyids k), h.threshold.trans h'.threshold, fun k hk => ?_⟩
  exact (h.keys k hk).trans (h'.keys k ((h.keyids k).1 hk))

/-- Under the same authority the same keys have signed. -/
theorem SameAuthority.signedBy (h : SameAuthority keys roleKeys keys' roleKeys') {k : String}
    (hsigned : m.SignedBy P keys roleKeys k) : m.SignedBy P keys' roleKeys' k := by
  obtain ⟨hauth, sig, hsig, hid, hne, key, raw, vkey, hkey, hvalid⟩ := hsigned
  exact ⟨(h.keyids _).1 hauth, sig, hsig, hid, hne, key, raw, vkey, h.keys _ hauth ▸ hkey, hvalid⟩

/-- What is signed to the threshold of one authority is so for the same authority given in another
way. -/
theorem SameAuthority.signedToThreshold (h : SameAuthority keys roleKeys keys' roleKeys')
    (hsigned : m.SignedToThreshold P keys roleKeys) : m.SignedToThreshold P keys' roleKeys' := by
  obtain ⟨hpos, signers, hcard, hall⟩ := hsigned
  rw [h.threshold] at hpos hcard
  exact ⟨hpos, signers, hcard, fun k hk => h.signedBy (hall k hk)⟩

/-- What meets the threshold of one authority meets that of the same authority given in another way.
-/
theorem SameAuthority.meetsThreshold (h : SameAuthority keys roleKeys keys' roleKeys')
    (hmeets : m.MeetsThreshold P keys roleKeys) : m.MeetsThreshold P keys' roleKeys' := by
  have hcounts : ∀ sig, roleKeys.Counts sig ↔ roleKeys'.Counts sig := fun sig =>
    and_congr_left fun _ => h.keyids _
  have hids : roleKeys.countedIds m.signatures = roleKeys'.countedIds m.signatures := by
    simp only [RoleKeys.countedIds, hcounts]
  have hsigners : m.signers P keys roleKeys = m.signers P keys' roleKeys' := by
    ext k
    rw [Metadata.mem_signers, Metadata.mem_signers]
    exact ⟨h.signedBy, h.symm.signedBy⟩
  refine ⟨h.threshold ▸ hmeets.positive, hids ▸ hmeets.distinct, ?_⟩
  rw [← h.threshold, ← hsigners]
  exact hmeets.enough

end

/-! ## The authority of an entry -/

/-- The entry that is found under a name has the name. -/
theorem name_of_find? {roles : List DelegatedRole} {name : String} {role : DelegatedRole}
    (h : roles.find? (fun r => r.name = name) = some role) : role.name = name := by
  simpa using List.find?_some h

/-- Exposing the keys of a list exposes each that the block has. The induction carries the map that
has been filled so far, hence the two alternatives of the hypothesis. -/
theorem get?_exposedKeys_of_mem {keys : BTreeMap String Key} {keyids : List String}
    {acc : BTreeMap String Key} {k : String}
    (hacc : ∀ k key, acc.get? k = some key → keys.get? k = some key)
    (hk : k ∈ keyids ∨ acc.get? k = keys.get? k) :
    (keyids.foldl (fun acc kid =>
      match keys.get? kid with
      | some key => acc.insert kid key
      | none => acc) acc).get? k = keys.get? k := by
  induction keyids generalizing acc with
  | nil => exact hk.resolve_left List.not_mem_nil
  | cons kid keyids ih =>
    rw [List.foldl_cons]
    cases hkid : keys.get? kid with
    | none =>
      refine ih hacc ?_
      rcases hk with hk | hk
      · rcases List.mem_cons.1 hk with rfl | hk
        · refine .inr ?_
          cases hget : acc.get? k with
          | none => exact hkid.symm
          | some key => exact (hacc k key hget).symm
        · exact .inl hk
      · exact .inr hk
    | some key =>
      dsimp only
      refine ih (fun k' key' h' => ?_) ?_
      · rcases BTreeMap.get?_insert_eq_some h' with ⟨rfl, rfl⟩ | ⟨-, h'⟩
        · exact hkid
        · exact hacc k' key' h'
      · by_cases heq : k = kid
        · subst heq
          exact .inr ((BTreeMap.get?_insert_self _ _ _).trans hkid.symm)
        · rw [BTreeMap.get?_insert_of_ne _ _ heq]
          exact hk.imp_left fun hk => (List.mem_cons.1 hk).resolve_left heq

/-- An entry has the authority of the keys that it exposes. -/
theorem sameAuthority_exposedKeys (delegations : Delegations) (role : DelegatedRole) :
    SameAuthority (exposedKeys delegations role) role.roleKeys delegations.keys role.roleKeys := by
  refine ⟨fun _ => Iff.rfl, rfl, fun k hk => ?_⟩
  exact get?_exposedKeys_of_mem (by simp) (.inl hk)

section
variable {E : Env} {s t : TrustedMetadataSet} {bytes : Bytes} {name delegatorName : String}
  {now : Int} {m : Metadata Targets}

/-- A role is authorized by the first entry for it in the delegator's block. Later entries with the
name are not looked at, whatever their keys and their threshold are. -/
theorem delegationAuthority_eq_ok {p : BTreeMap String Key × RoleKeys} :
    delegationAuthority s delegatorName name = .ok p ↔
      ∃ delegator delegations role, s.targets.get? delegatorName = some delegator ∧
        delegator.signed.delegations = some delegations ∧
        delegations.roles.find? (fun r => r.name = name) = some role ∧
        p = (exposedKeys delegations role, role.roleKeys) := by
  simp only [delegationAuthority, bind_eq_ok, okOr_eq_ok, pure_eq_ok]
  constructor
  · rintro ⟨delegator, hdelegator, delegations, hdelegations, role, hrole, rfl⟩
    exact ⟨delegator, delegations, role, hdelegator, hdelegations, hrole, rfl⟩
  · rintro ⟨delegator, delegations, role, hdelegator, hdelegations, hrole, rfl⟩
    exact ⟨delegator, hdelegator, delegations, hdelegations, role, hrole, rfl⟩

/-- A delegated role is checked against the snapshot and the delegator's file. -/
theorem checkDelegatedTargets_congr (hsnap : s.snapshot = t.snapshot)
    (hdelegator : s.targets.get? delegatorName = t.targets.get? delegatorName) :
    checkDelegatedTargets E s bytes name delegatorName now =
      checkDelegatedTargets E t bytes name delegatorName now := by
  simp only [checkDelegatedTargets, delegationAuthority, verifyTargetsPin, hsnap, hdelegator]

/-- A pinned file is accepted again as long as the snapshot has not expired. -/
theorem verifyTargetsPin_of_notExpired {now' : Int} (hsnap : s.snapshot = t.snapshot)
    (hfresh : ∀ snap, s.snapshot = some snap → NotExpired E snap.signed now)
    (h : verifyTargetsPin E t bytes name now' = .ok m) :
    verifyTargetsPin E s bytes name now = .ok m := by
  simp only [verifyTargetsPin, bind_eq_ok, okOr_eq_ok] at h ⊢
  obtain ⟨snap, hget, u, -, h⟩ := h
  rw [← hsnap] at hget
  exact ⟨snap, hget, (), ensureNotExpired_ok.2 (hfresh snap hget), h⟩

/-- Where the entries agree, a file that one delegator's entry has authorized is authorized by any
other entry for the role. -/
theorem checkDelegatedTargets_of_agrees {F : Metadata Targets → Prop} (hF : Agrees F)
    {delegatorName' : String} {now' : Int} {delegator : Metadata Targets}
    {delegations : Delegations} {role : DelegatedRole}
    (hpast : checkDelegatedTargets E t bytes name delegatorName' now' = .ok m)
    (hpastFile : ∀ m', t.targets.get? delegatorName' = some m' → F m')
    (hdelegator : s.targets.get? delegatorName = some delegator) (hfile : F delegator)
    (hentry : HasEntry delegator delegations role) (hname : role.name = name)
    (hsnap : s.snapshot = t.snapshot)
    (hfresh : ∀ snap, s.snapshot = some snap → NotExpired E snap.signed now)
    (hm : NotExpired E m.signed now) :
    checkDelegatedTargets E s bytes name delegatorName now = .ok m := by
  simp only [checkDelegatedTargets, bind_eq_ok, rejectIf_eq_ok, pure_eq_ok] at hpast
  obtain ⟨_, hreserved, p, hauth, m, hpin, _, hverify, _, -, rfl⟩ := hpast
  obtain ⟨delegator', delegations', role', hdelegator', hblock', hfind', rfl⟩ :=
    delegationAuthority_eq_ok.1 hauth
  obtain ⟨first, hfirst⟩ :
      ∃ first, delegations.roles.find? (fun r => r.name = name) = some first := by
    rw [← Option.isSome_iff_exists, List.find?_isSome]
    exact ⟨role, hentry.2, decide_eq_true hname⟩
  have hfirstName : first.name = name := name_of_find? hfirst
  have hsame : SameAuthority (exposedKeys delegations' role') role'.roleKeys
      (exposedKeys delegations first) first.roleKeys := by
    refine (sameAuthority_exposedKeys _ _).trans (SameAuthority.trans ?_
      (sameAuthority_exposedKeys _ _).symm)
    refine hF _ _ _ _ _ _ (hpastFile _ hdelegator') hfile
      ⟨hblock', List.mem_of_find?_eq_some hfind'⟩ ⟨hentry.1, List.mem_of_find?_eq_some hfirst⟩ ?_
    rw [hfirstName]
    exact name_of_find? hfind'
  simp only [checkDelegatedTargets, bind_eq_ok, rejectIf_eq_ok, pure_eq_ok]
  refine ⟨(), hreserved, (exposedKeys delegations first, first.roleKeys), ?_, m,
    verifyTargetsPin_of_notExpired hsnap hfresh hpin, (), ?_, (), ensureNotExpired_ok.2 hm, rfl⟩
  · exact delegationAuthority_eq_ok.2
      ⟨delegator, delegations, first, hdelegator, hentry.1, hfirst, rfl⟩
  · exact (Metadata.verifyThreshold_eq_ok _).2
      (hsame.meetsThreshold ((Metadata.verifyThreshold_eq_ok _).1 hverify))

end

end Sigstore.Tuf
