import Sigstore.Tuf.FileNames
import Sigstore.Tuf.Refresh

/-!
# Target files are verified

A target file comes from the repository or from the store, and neither is trusted. What the client
returns and what it stores under `targets/` has the length and the hashes that the resolved target
pins (`Intact`), whatever the repository answers and whatever the store holds. Two files that are
intact for one target are the same where the hashes do not collide on them.
-/

namespace Sigstore.Tuf

open Checks StateAction

section
variable (E : ClientEnv)

/-- The file has the pinned length and the pinned hashes, of which one at least is SHA-256 or
SHA-512. A vector of bytes is shorter than `2 ^ 64`. -/
structure Intact (bytes : Bytes) (target : TargetFile) : Prop where
  length : bytes.length < 2 ^ 64 → bytes.length = target.length.toNat
  sha256 : ∀ hex, target.hashes.get? "sha256" = some hex →
    eqIgnoreAsciiCase (E.primitives.sha256 bytes).toHex hex = true
  sha512 : ∀ hex, target.hashes.get? "sha512" = some hex →
    eqIgnoreAsciiCase (hexEncode (E.primitives.sha512 bytes)) hex = true
  listed : (target.hashes.get? "sha256").isSome ∨ (target.hashes.get? "sha512").isSome

section
variable {E}

/-- The digest of a file by an algorithm that the client knows. -/
def knownDigest (E : ClientEnv) (bytes : Bytes) (algo : String) : Option String :=
  if algo = "sha256" then some (E.primitives.sha256 bytes).toHex
  else if algo = "sha512" then some (hexEncode (E.primitives.sha512 bytes))
  else none

/-- What the loop over the pinned hashes establishes. -/
theorem checkHashes_ok {bytes : Bytes} {what : String} {verifiedAny r : Bool}
    {entries : List (String × String)}
    (h : checkHashes E.toEnv bytes what verifiedAny entries = .ok r) :
    (∀ p ∈ entries, ∀ actual, knownDigest E bytes p.1 = some actual →
      eqIgnoreAsciiCase actual p.2 = true) ∧
    (r = true → verifiedAny = true ∨ ∃ p ∈ entries, (knownDigest E bytes p.1).isSome) := by
  induction entries generalizing verifiedAny with
  | nil =>
    cases h
    exact ⟨nofun, .inl⟩
  | cons p entries ih =>
    obtain ⟨algo, expectedHex⟩ := p
    unfold checkHashes at h
    dsimp only at h
    rw [← knownDigest] at h
    split at h
    · next hunknown =>
      obtain ⟨ihmatch, ihany⟩ := ih h
      refine ⟨List.forall_mem_cons.2 ⟨?_, ihmatch⟩, fun hr => (ihany hr).imp_right ?_⟩
      · intro actual hactual
        cases hunknown.symm.trans hactual
      · rintro ⟨p, hp, hknown⟩
        exact ⟨p, List.mem_cons_of_mem _ hp, hknown⟩
    · next actual hknown =>
      split at h
      · next hmatch =>
        refine ⟨List.forall_mem_cons.2 ⟨?_, (ih h).1⟩, fun _ => .inr ?_⟩
        · intro actual' hactual
          cases hknown.symm.trans hactual
          exact hmatch
        · exact ⟨_, List.mem_cons_self .., by rw [hknown]; rfl⟩
      · cases h

/-- Bytes that `verify_target_bytes` accepts are intact: they have the target's length and its
hashes. -/
theorem verifyTargetBytes_ok {bytes : Bytes} {target : TargetFile} {path : String} {r : Unit}
    (h : verifyTargetBytes E bytes target path = .ok r) : Intact E bytes target := by
  simp only [verifyTargetBytes, bind_eq_ok, rejectIf_eq_ok, not_not, Bool.not_eq_false] at h
  obtain ⟨-, hlength, verifiedAny, hhashes, hany⟩ := h
  obtain ⟨hmatch, hknown⟩ := checkHashes_ok hhashes
  have hentry : ∀ {algo hex}, target.hashes.get? algo = some hex →
      (algo, hex) ∈ target.hashes.entries := fun hget => (BTreeMap.mem_entries_iff _).2 hget
  refine {
    length := fun hlt => ?_
    sha256 := fun hex hget => hmatch _ (hentry hget) _ rfl
    sha512 := fun hex hget => hmatch _ (hentry hget) _ rfl
    listed := ?_ }
  · rw [← hlength, UInt64.toNat_ofNat_of_lt' hlt]
  · obtain ⟨⟨algo, hex⟩, hmem, hsome⟩ := (hknown hany).resolve_left Bool.false_ne_true
    have hget := (BTreeMap.mem_entries_iff _).1 hmem
    unfold knownDigest at hsome
    split at hsome
    · next halgo => exact .inl (by rw [← halgo, hget]; rfl)
    · split at hsome
      · next halgo => exact .inr (by rw [← halgo, hget]; rfl)
      · cases hsome

/-- A file from the store is used only where it is intact. -/
theorem findCachedTarget_intact {target : TargetFile} {targetPath : String} {u u' : Updater}
    {bytes : Bytes} (h : Returns (findCachedTarget E target targetPath) u (some bytes) u') :
    Intact E bytes target := by
  obtain ⟨found, r, -, h⟩ := returns_bind.1 h
  cases found with
  | none => cases (returns_pure.1 h).1
  | some stored =>
    dsimp only at h
    split at h
    · next hverified =>
      cases (returns_pure.1 h).1
      exact verifyTargetBytes_ok hverified
    · cases (returns_pure.1 h).1

/-- A file from the repository is returned only where it is intact. -/
theorem downloadTarget_intact {R : Repository} {target : TargetFile} {targetPath : String}
    {u u' : Updater} {bytes : Bytes}
    (h : Returns (downloadTarget E R target targetPath) u bytes u') :
    Intact E bytes target := by
  simp only [downloadTarget, returns_bind, returns_check, returns_pure] at h
  obtain ⟨_, _, -, _, _, -, path, _, -, found, _, -, stored, _, -, _, _, ⟨hverified, -⟩, _, _, -,
    rfl, -⟩ := h
  exact verifyTargetBytes_ok hverified

/-! ## Files without collisions -/

/-- Neither hash maps the two files to one digest, unless they are the same. -/
def NoCollision (E : ClientEnv) (b c : Bytes) : Prop :=
  (E.primitives.sha256 b = E.primitives.sha256 c → b = c) ∧
  (E.primitives.sha512 b = E.primitives.sha512 c → b = c)

/-- Digests that match one pinned hash are the same. -/
theorem hexEncode_unique {a b : Bytes} {hex : String}
    (ha : eqIgnoreAsciiCase (hexEncode a) hex = true)
    (hb : eqIgnoreAsciiCase (hexEncode b) hex = true) : a = b := by
  rw [eqIgnoreAsciiCase, beq_iff_eq, toLower_hexEncode] at ha hb
  have hdecode : hexDecode (hexEncode a) = hexDecode (hexEncode b) := by
    rw [hexDecode, hexDecode, ha, hb]
  rw [hexDecode_hexEncode, hexDecode_hexEncode] at hdecode
  exact Option.some.inj hdecode

/-- Files that are intact for one target are the same. -/
theorem Intact.unique {b c : Bytes} {target : TargetFile} (hb : Intact E b target)
    (hc : Intact E c target) (hcollision : NoCollision E b c) : b = c := by
  rcases hb.listed with h256 | h512
  · obtain ⟨hex, hget⟩ := Option.isSome_iff_exists.1 h256
    exact hcollision.1 (Sha256Hash.ext (hexEncode_unique (hb.sha256 hex hget) (hc.sha256 hex hget)))
  · obtain ⟨hex, hget⟩ := Option.isSome_iff_exists.1 h512
    exact hcollision.2 (hexEncode_unique (hb.sha512 hex hget) (hc.sha512 hex hget))

/-! ## What is stored -/

/-- A file of the attached store. -/
def Updater.stored (u : Updater) (name : String) : Option Bytes := u.store.bind (·.load name)

/-- A file that may not be written is as it was. -/
theorem MayWrite.stored {W : String → Bytes → Prop} {u u' : Updater}
    (h : MayWrite W u.store u'.store) (name : String) :
    u'.stored name = u.stored name ∨ ∃ bytes, u'.stored name = some bytes ∧ W name bytes := by
  unfold Updater.stored
  cases hu : u.store with
  | none =>
    cases hu' : u'.store with
    | none => exact .inl rfl
    | some => simp [hu, hu', MayWrite] at h
  | some st =>
    cases hu' : u'.store with
    | none => simp [hu, hu', MayWrite] at h
    | some st' =>
      rw [hu, hu'] at h
      exact h.2 name

/-- Different targets are stored in different files. -/
theorem target_name_inj {p q : String} (h : s!"targets/{p}" = s!"targets/{q}") : p = q := by
  have hlist : ∀ p : String, (s!"targets/{p}").toList = "targets/".toList ++ p.toList :=
    fun _ => String.toList_append
  have hchars := congrArg String.toList h
  rw [hlist, hlist] at hchars
  exact String.toList_inj.1 (List.append_cancel_left hchars)

/-- The call uses the target file for the path: it resolves it, or was given it. -/
def Op.Uses (E : ClientEnv) (u : Updater) (targetPath : String) (target : TargetFile) : Op → Prop
  | getTarget R path now =>
    path = targetPath ∧ ∃ u', Returns (Tuf.getTargetinfo E R path now) u (some target) u'
  | downloadTarget _ given path => path = targetPath ∧ given = target
  | _ => False

/-- A download writes its target's file only, and that intact. -/
theorem downloadTarget_stored {R : Repository} {target : TargetFile} {path : String} {u : Updater}
    (targetPath : String) :
    (downloadTarget E R target path u).2.stored s!"targets/{targetPath}" =
      u.stored s!"targets/{targetPath}" ∨
    ∃ bytes, (downloadTarget E R target path u).2.stored s!"targets/{targetPath}" = some bytes ∧
      path = targetPath ∧ Intact E bytes target := by
  have hstore := (downloadTarget_does E R target path u).store
  refine (hstore.stored s!"targets/{targetPath}").imp_right ?_
  rintro ⟨bytes, hstored, hname, hverified⟩
  exact ⟨bytes, hstored, (target_name_inj hname).symm, verifyTargetBytes_ok hverified⟩

/-- After any call, a file under `targets/` is as it was, or it is intact for the target that the
call used. -/
theorem after_stored (u : Updater) (op : Op) (targetPath : String) :
    (op.after E u).stored s!"targets/{targetPath}" = u.stored s!"targets/{targetPath}" ∨
    ∃ bytes target, (op.after E u).stored s!"targets/{targetPath}" = some bytes ∧
      op.Uses E u targetPath target ∧ Intact E bytes target := by
  cases op with
  | refresh R now =>
    refine .inl (((refresh_does E R now u).store.stored _).resolve_right ?_)
    rintro ⟨bytes, -, hname⟩
    refine ne_target ?_ targetPath rfl
    rcases hname with h | h | h | h
    · exact .inl h
    · exact .inr (.inl h)
    · exact .inr (.inr (.inl h))
    · exact .inr (.inr (.inr (.inl h)))
  | getTargetinfo R path now =>
    refine .inl (((getTargetinfo_does E R path now u).store.stored _).resolve_right ?_)
    rintro ⟨bytes, -, hname⟩
    exact ne_target (.inr (.inr (.inr (.inr hname)))) targetPath rfl
  | getTarget R path now =>
    have hinfo : (getTargetinfo E R path now u).2.stored s!"targets/{targetPath}" =
        u.stored s!"targets/{targetPath}" := by
      refine ((getTargetinfo_does E R path now u).store.stored _).resolve_right ?_
      rintro ⟨bytes, -, hname⟩
      exact ne_target (.inr (.inr (.inr (.inr hname)))) targetPath rfl
    rw [Op.after]
    rcases getTarget_after E R path now u with heq | ⟨target, u₁, hresolved, heq⟩
    · rw [heq]
      exact .inl hinfo
    · rw [heq]
      rw [hresolved] at hinfo
      rcases @downloadTarget_stored E R target path u₁ targetPath with
        h | ⟨bytes, hstored, rfl, hintact⟩
      · exact .inl (h.trans hinfo)
      · exact .inr ⟨bytes, target, hstored, ⟨rfl, u₁, hresolved⟩, hintact⟩
  | downloadTarget R target path =>
    refine (downloadTarget_stored targetPath).imp_right ?_
    rintro ⟨bytes, hstored, hpath, hintact⟩
    exact ⟨bytes, target, hstored, ⟨hpath, rfl⟩, hintact⟩

/-- What is returned for a path is intact for the target that was resolved. -/
theorem getTarget_resolves {R : Repository} {targetPath : String} {now : Int} {u u' : Updater}
    {bytes : Bytes} (h : Returns (getTarget E R targetPath now) u bytes u') :
    ∃ target u₁, Returns (getTargetinfo E R targetPath now) u (some target) u₁ ∧
      Intact E bytes target := by
  simp only [getTarget, returns_bind, returns_orThrow] at h
  obtain ⟨info, u₁, hinfo, target, _, ⟨rfl, rfl⟩, cached, u₂, hcached, h⟩ := h
  refine ⟨target, u₁, hinfo, ?_⟩
  cases cached with
  | none => exact downloadTarget_intact h
  | some stored =>
    cases (returns_pure.1 h).1
    exact findCachedTarget_intact hcached

end

/-- **Target files are verified.** For every store, repository, delegations and path: what
`get_target` returns is intact for the target that it resolved, and what `download_target` returns
for the target that it was given; no call writes anything else under `targets/`; and a cached copy
and a download are the same where the hashes do not collide on them. -/
theorem targets_verified :
    (∀ R targetPath now u bytes u', Returns (getTarget E R targetPath now) u bytes u' →
      ∃ target u₁, Returns (getTargetinfo E R targetPath now) u (some target) u₁ ∧
        Intact E bytes target) ∧
    (∀ R target targetPath u bytes u', Returns (downloadTarget E R target targetPath) u bytes u' →
      Intact E bytes target) ∧
    (∀ u op targetPath,
      (Op.after E u op).stored s!"targets/{targetPath}" = u.stored s!"targets/{targetPath}" ∨
      ∃ bytes target, (Op.after E u op).stored s!"targets/{targetPath}" = some bytes ∧
        op.Uses E u targetPath target ∧ Intact E bytes target) ∧
    (∀ R target targetPath u u' v v' cached downloaded,
      Returns (findCachedTarget E target targetPath) u (some cached) u' →
      Returns (downloadTarget E R target targetPath) v downloaded v' →
      NoCollision E cached downloaded → cached = downloaded) := by
  refine ⟨?_, ?_, after_stored, ?_⟩
  · intro R targetPath now u bytes u' h
    exact getTarget_resolves h
  · intro R target targetPath u bytes u' h
    exact downloadTarget_intact h
  · intro R target targetPath u u' v v' cached downloaded hcached hdownload hcollision
    exact (findCachedTarget_intact hcached).unique (downloadTarget_intact hdownload) hcollision

end

end Sigstore.Tuf
