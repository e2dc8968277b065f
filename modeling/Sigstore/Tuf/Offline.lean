import Sigstore.Tuf.Cached

/-!
# Lookups from the store

A store can serve as a repository (`StoreRepository`), from which a client without a network gets
what an online client has left there. Where the root asks for plain names, a lookup from the store
goes side by side with the online lookup, as long as the store holds the files of the roles that the
online client has loaded (`Mirrors.search`).
-/

namespace Sigstore.Tuf

open Checks StateAction TrustedMetadataSet

/-! ## The store as a repository -/

namespace StoreRepository

variable {st : MetadataStore} {name : String} {maxLength : UInt64}

/-- A file that is read from the store is there, and not longer than is allowed. A file that is
longer is an error and not a missing file, so that the equivalence is about what is found. -/
theorem read_some {bytes : Bytes} : read st name maxLength = .ok (some bytes) ↔
    st.load name = some bytes ∧ ¬ UInt64.ofNat bytes.length > maxLength := by
  unfold read
  cases st.load name with
  | none => simp
  | some found =>
    dsimp only
    split
    · next hlong =>
      refine ⟨nofun, ?_⟩
      rintro ⟨hfound, hshort⟩
      cases hfound
      exact absurd hlong hshort
    · next hshort =>
      rw [Except.ok.injEq]
      refine ⟨fun h => ⟨h, ?_⟩, fun h => h.1⟩
      cases h
      exact hshort

/-- A file that is not found is not in the store. -/
theorem read_none : read st name maxLength = .ok none ↔ st.load name = none := by
  unfold read
  cases st.load name with
  | none => simp
  | some found =>
    dsimp only
    split <;> simp

end StoreRepository

section
variable {E : ClientEnv} {st : MetadataStore} {v v' : Updater}

/-- The versions that the root walk asks for, of which there is one at least where it succeeds. An
empty range is the error of a limit of zero rotations. -/
theorem refreshRoot_returns {R : Repository} :
    Returns (refreshRoot E R) v () v' ↔ ∃ count,
      rootRange E v.trusted.root.signed.version v.config.maxRootRotations = .ok (count + 1) ∧
      Returns (refreshRootLoop E R (count + 1) (v.trusted.root.signed.version + 1)) v () v' := by
  simp only [refreshRoot, returns_bind, returns_gets, returns_lift]
  constructor
  · rintro ⟨_, _, ⟨rfl, rfl⟩, _, _, ⟨rfl, rfl⟩, count, _, ⟨hrange, rfl⟩, h⟩
    cases count with
    | zero =>
      obtain ⟨_, _, -, h⟩ := returns_bind.1 h
      exact absurd h returns_throw
    | succ count => exact ⟨count, hrange, h⟩
  · rintro ⟨count, hrange, h⟩
    exact ⟨_, _, ⟨rfl, rfl⟩, _, _, ⟨rfl, rfl⟩, count + 1, _, ⟨hrange, rfl⟩, h⟩

/-- A store that has no root under the name of the next one serves none. The walk looks for the next
root first, and a file that is no root there would end the refresh. -/
theorem refreshRoot_offline {count : Nat}
    (hrange : rootRange E v.trusted.root.signed.version v.config.maxRootRotations = .ok (count + 1))
    (hroot : ∀ bytes, st.load s!"{v.trusted.root.signed.version + 1}.root.json" = some bytes →
      ∀ m : Metadata Root, Metadata.fromSlice E.toEnv bytes ≠ .ok m) :
    Returns (refreshRoot E (StoreRepository.new st)) v () v' ↔
      st.load s!"{v.trusted.root.signed.version + 1}.root.json" = none ∧ v' = v := by
  rw [refreshRoot_returns]
  simp only [refreshRootLoop, returns_bind, returns_gets, returns_check]
  constructor
  · rintro ⟨_, -, _, _, ⟨rfl, rfl⟩, found, _, ⟨hfound, rfl⟩, h⟩
    cases found with
    | none => exact ⟨StoreRepository.read_none.1 hfound, (returns_pure.1 h).2.symm⟩
    | some bytes =>
      simp only [returns_bind, returns_update] at h
      obtain ⟨_, _, ⟨hupdate, -⟩, -⟩ := h
      exfalso
      have hload := (StoreRepository.read_some.1 hfound).1
      cases hcheck : checkRoot E.toEnv v.trusted bytes with
      | error e =>
        rw [updateRoot, hcheck] at hupdate
        cases hupdate
      | ok m =>
        simp only [checkRoot, bind_eq_ok, mapError_eq_ok] at hcheck
        obtain ⟨m', hparse, -⟩ := hcheck
        exact hroot bytes hload m' hparse
  · rintro ⟨hnone, rfl⟩
    exact ⟨count, hrange, _, _, ⟨rfl, rfl⟩, none, _, ⟨StoreRepository.read_none.2 hnone, rfl⟩, rfl⟩

end

/-! ## Two lookups side by side -/

/-- The store holds the role's file. -/
def KeptRole (E : Env) (st : MetadataStore) (role : String) (m : Metadata Targets) : Prop :=
  ∃ bytes, st.load (roleFileName role) = some bytes ∧ Metadata.fromSlice E bytes = .ok m

/-- An offline client trusts the same snapshot and targets as an online one, under a root that asks
for plain names, and has no store attached. -/
structure Mirrors (w v : Updater) : Prop where
  targets : v.trusted.targets = w.trusted.targets
  snapshot : v.trusted.snapshot = w.trusted.snapshot
  config : v.config = w.config
  plain : v.trusted.root.signed.consistentSnapshot = false
  detached : v.store = none

/-- The store holds the files of the roles that were loaded between two states of a client. -/
def KeptSince (E : Env) (st : MetadataStore) (w w' : Updater) : Prop :=
  ∀ role m, w'.trusted.targets.get? role = some m → w.trusted.targets.get? role = none →
    KeptRole E st role m

/-- Where the online client went on to a state and a value, the offline client does so too, or its
outcome is an error for want of a file. -/
def Follows {α : Type} (E : Env) (st : MetadataStore) (w w' : Updater) (a : α)
    (outcome : Except Abort α × Updater) : Prop :=
  (KeptSince E st w w' ∧ ∃ v', outcome = (.ok a, v') ∧ Mirrors w' v') ∨
  (¬ KeptSince E st w w' ∧ ∃ e v', outcome = (.error e, v'))

/-- What the online client trusts in the end is stored under its names, if it is stored, and has not
expired. -/
structure Available (E : Env) (st : MetadataStore) (config : UpdaterConfig)
    (s : TrustedMetadataSet) (now : Int) : Prop where
  cached : ∀ role bytes, IsTargetsRole role → st.load (roleFileName role) = some bytes →
    CachedAs E config s (roleFileName role) bytes
  snapshot : ∀ snap, s.snapshot = some snap → NotExpired E snap.signed now
  targets : ∀ role m, s.targets.get? role = some m → NotExpired E m.signed now

section
variable {E : ClientEnv} {R : Repository} {st : MetadataStore} {w w' v : Updater}
  {role delegator targetPath : String} {now now' : Int}

/-- The offline client reads the file of a role from the store. The name asked for is the plain one,
which is also the name that the online client wrote. -/
theorem returns_fetchOffline (hplain : v.trusted.root.signed.consistentSnapshot = false)
    {bytes : Bytes} :
    Returns (fetchTargetsMetadata (StoreRepository.new st) role) v bytes v ↔
      (v.trusted.snapshot.bind (·.signed.metas.get? (role ++ ".json"))).isSome ∧
      st.load (roleFileName role) = some bytes ∧
      ¬ UInt64.ofNat bytes.length > v.config.targetsMaxLength := by
  rw [returns_fetchTargetsMetadata, hplain, and_iff_left rfl]
  constructor
  · rintro ⟨pin, hpin, hfetch⟩
    exact ⟨Option.isSome_iff_exists.2 ⟨pin, hpin⟩, StoreRepository.read_some.1 hfetch⟩
  · rintro ⟨hpin, hload⟩
    obtain ⟨pin, hpin⟩ := Option.isSome_iff_exists.1 hpin
    exact ⟨pin, hpin, StoreRepository.read_some.2 hload⟩

/-- The offline client knows the roles that the online one knows. -/
theorem Mirrors.known (h : Mirrors w v) : Known v role ↔ Known w role := by
  rw [Known, Known, h.targets]

/-- The offline client loads the role that the online client has loaded, if the store holds its
file. -/
theorem Mirrors.loadRole (h : Mirrors w v) {s : TrustedMetadataSet}
    (hs : Available E.toEnv st w.config s now') (hsnap : s.snapshot = w.trusted.snapshot)
    {bytes : Bytes} {m : Metadata Targets}
    (hcheck : checkDelegatedTargets E.toEnv w.trusted bytes role delegator now = .ok m)
    (hm : s.targets.get? role = some m) :
    (KeptRole E.toEnv st role m ∧ ∃ found,
      loadRole E (StoreRepository.new st) role delegator now' v =
        (.ok (), v.withRole role m found)) ∨
    (¬ KeptRole E.toEnv st role m ∧ ∃ e,
      loadRole E (StoreRepository.new st) role delegator now' v = (.error e, v)) := by
  obtain ⟨snap, hwsnap⟩ : ∃ snap, w.trusted.snapshot = some snap := by
    obtain ⟨-, hpin, -⟩ := checkDelegatedTargets_ok E.toEnv hcheck
    obtain ⟨snap, _, hwsnap, -⟩ := verifyTargetsPin_ok E.toEnv hpin
    exact ⟨snap, hwsnap⟩
  have hvsnap := h.snapshot.trans hwsnap
  obtain ⟨hrole, hpins, ⟨keys, roleKeys, hauthority, hsigned⟩, -, -⟩ :=
    (checkDelegatedTargets_eq_ok hwsnap).1 hcheck
  obtain ⟨pin, hpin, -⟩ := hpins
  -- what the store holds is the role's file, or a snapshot, which is none
  have hstored : ∀ found, st.load (roleFileName role) = some found →
      (PinsTargets E.toEnv snap.signed role found m ∧
        ¬ UInt64.ofNat found.length > w.config.targetsMaxLength) ∨
      ∀ m' : Metadata Targets, Metadata.fromSlice E.toEnv found ≠ .ok m' := by
    intro found hfound
    rcases (hs.cached role found (.inr hrole) hfound).of_role (.inr hrole) with
      ⟨m', hparse⟩ | ⟨snap', m', hsnap', hm', hpins', hbounded⟩
    · exact .inr (snapshot_excludes hparse (by decide))
    · obtain rfl : snap' = snap := Option.some.inj (hsnap'.symm.trans (hsnap.trans hwsnap))
      obtain rfl : m' = m := Option.some.inj (hm'.symm.trans hm)
      exact .inl ⟨hpins', hbounded⟩
  rw [loadRole_eq]
  have hread : ∀ found, (fetchTargetsMetadata (StoreRepository.new st) role v).1 = .ok found ↔
      st.load (roleFileName role) = some found ∧
      ¬ UInt64.ofNat found.length > w.config.targetsMaxLength := by
    intro found
    have hfetch : Returns (fetchTargetsMetadata (StoreRepository.new st) role) v found v ↔
        (fetchTargetsMetadata (StoreRepository.new st) role v).1 = .ok found := by
      rw [Returns, fetchTargetsMetadata_eq (u := v) role rfl rfl rfl, Prod.mk.injEq,
        and_iff_left rfl]
    rw [← hfetch, returns_fetchOffline h.plain, hvsnap, h.config]
    exact and_iff_right (Option.isSome_iff_exists.2 ⟨pin, hpin⟩)
  have haccepted : ∀ found, checkDelegatedTargets E.toEnv v.trusted found role delegator now' =
      .ok m ↔ PinsTargets E.toEnv snap.signed role found m := by
    intro found
    rw [checkDelegatedTargets_eq_ok hvsnap]
    refine ⟨fun h => h.2.1, fun hpins' => ⟨hrole, hpins', ⟨keys, roleKeys, ?_, hsigned⟩,
      hs.snapshot snap (hsnap.trans hwsnap), hs.targets role m hm⟩⟩
    rw [← hauthority, delegationAuthority, delegationAuthority, h.targets]
  cases hfetch : (fetchTargetsMetadata (StoreRepository.new st) role v).1 with
  | error e =>
    refine .inr ⟨?_, e, rfl⟩
    rintro ⟨found, hload, hparse⟩
    rcases hstored found hload with ⟨-, hbounded⟩ | hnot
    · cases hfetch.symm.trans ((hread found).2 ⟨hload, hbounded⟩)
    · exact hnot m hparse
  | ok found =>
    have hload := ((hread found).1 hfetch).1
    dsimp only
    rcases hstored found hload with ⟨hpins', -⟩ | hnot
    · rw [(haccepted found).2 hpins']
      exact .inl ⟨⟨found, hload, hpins'.parsed⟩, found, rfl⟩
    · cases hcheck' : checkDelegatedTargets E.toEnv v.trusted found role delegator now' with
      | ok m' => exact absurd ((checkDelegatedTargets_eq_ok hvsnap).1 hcheck').2.1.parsed (hnot m')
      | error e =>
        refine .inr ⟨?_, _, rfl⟩
        rintro ⟨found', hload', hparse⟩
        cases hload.symm.trans hload'
        exact hnot m hparse

theorem KeptSince.refl (w : Updater) : KeptSince E.toEnv st w w := by
  intro role m hm hnone
  cases hnone.symm.trans hm

/-- The files of the roles that two calls have loaded are kept where those of each are. The second
call's part speaks of the roles that the first one has not loaded. -/
theorem keptSince_trans {w₁ w₂ : Updater} (h₁ : Loads E R w w₁) (h₂ : Loads E R w₁ w₂) :
    KeptSince E.toEnv st w w₂ ↔ KeptSince E.toEnv st w w₁ ∧ KeptSince E.toEnv st w₁ w₂ := by
  refine ⟨fun h => ⟨fun role m hm => h role m (h₂.keeps role m hm), fun role m hm hnone => ?_⟩, ?_⟩
  · refine h role m hm ?_
    cases hw : w.trusted.targets.get? role with
    | none => rfl
    | some m' => cases hnone.symm.trans (h₁.keeps role m' hw)
  · rintro ⟨hfirst, hsecond⟩ role m hm hnone
    cases hw₁ : w₁.trusted.targets.get? role with
    | none => exact hsecond role m hm hw₁
    | some m' =>
      cases (h₂.keeps role m' hw₁).symm.trans hm
      exact hfirst role m hw₁ hnone

/-- Both visit a role. A role that the online client loaded is in the store, and what the offline
client reads there is checked against the same pin and the same delegator. -/
theorem Mirrors.visit (h : Mirrors w v) {s : TrustedMetadataSet}
    (hs : Available E.toEnv st w.config s now') (hsnap : s.snapshot = w.trusted.snapshot)
    (hkeeps : ∀ role m, w'.trusted.targets.get? role = some m → s.targets.get? role = some m)
    (hw : visit E R role delegator now w = (.ok (), w')) :
    Follows E.toEnv st w w' () (Tuf.visit E (StoreRepository.new st) role delegator now' v) := by
  unfold Tuf.visit at hw ⊢
  by_cases hknown : Known w role
  · rw [if_pos hknown] at hw
    cases hw
    rw [if_pos (h.known.2 hknown)]
    exact .inl ⟨.refl w, v, rfl, h⟩
  · rw [if_neg hknown, loadRole_eq] at hw
    rw [if_neg (h.known.not.2 hknown)]
    rw [Known, not_or, Option.not_isSome_iff_eq_none] at hknown
    cases hfetch : (fetchTargetsMetadata R role w).1 with
    | error e =>
      rw [hfetch] at hw
      cases hw
    | ok bytes =>
      rw [hfetch] at hw
      dsimp only at hw
      cases hcheck : checkDelegatedTargets E.toEnv w.trusted bytes role delegator now with
      | error e =>
        rw [hcheck] at hw
        cases hw
      | ok m =>
        rw [hcheck] at hw
        cases hw
        have hself : (w.withRole role m bytes).trusted.targets.get? role = some m :=
          BTreeMap.get?_insert_self _ _ _
        refine (h.loadRole hs hsnap hcheck (hkeeps role m hself)).imp ?_ ?_
        · rintro ⟨hkept, found, hload⟩
          refine ⟨fun role' m' hm' hnone => ?_, _, hload, ?_⟩
          · rcases BTreeMap.get?_insert_eq_some hm' with ⟨rfl, rfl⟩ | ⟨-, hm'⟩
            · exact hkept
            · cases hnone.symm.trans hm'
          · exact {
              targets := congrArg (BTreeMap.insert · role m) h.targets
              snapshot := h.snapshot
              config := h.config
              plain := h.plain
              detached := by rw [Updater.withRole, h.detached]; rfl }
        · rintro ⟨hlost, e, hload⟩
          exact ⟨fun hkept => hlost (hkept role m hself hknown.2), e, v, hload⟩

/-- Both search along the delegations. The induction is on the steps of the online search, whose
visits the offline one repeats in the same order. -/
theorem Mirrors.search (h : Mirrors w v) {top : Metadata Targets}
    (htop : w.trusted.targets.get? "targets" = some top) (steps : Nat) (visited : List String)
    (toVisit : List (String × String)) {result : Option TargetFile}
    (hs : Available E.toEnv st w.config w'.trusted now')
    (hw : Returns (search E R targetPath now steps visited toVisit) w result w') :
    Follows E.toEnv st w w' result
      (Tuf.search E (StoreRepository.new st) targetPath now' steps visited toVisit v) := by
  induction steps generalizing visited toVisit w v with
  | zero =>
    rw [Returns, search_zero] at hw
    cases hw
    exact .inl ⟨.refl _, v, search_zero, h⟩
  | succ steps ih =>
    cases hnext : toVisit.dropWhile (·.1 ∈ visited) with
    | nil =>
      rw [Returns, search_nil hnext] at hw
      cases hw
      exact .inl ⟨.refl _, v, search_nil hnext, h⟩
    | cons item rest =>
      obtain ⟨role, delegator⟩ := item
      have hskips : (¬ Known v role ∧ v.trusted.pinsRole role = false) ↔
          (¬ Known w role ∧ w.trusted.pinsRole role = false) := by
        rw [h.known, pinsRole, pinsRole, h.snapshot]
      by_cases hskip : ¬ Known w role ∧ w.trusted.pinsRole role = false
      · rw [Returns, search_skip hnext hskip] at hw
        rw [search_skip hnext (hskips.2 hskip)]
        exact ih h htop visited rest hs hw
      · have hskip' := hskips.not.2 hskip
        rcases visit_cases E R role delegator now htop with
          ⟨e, hvisit⟩ | ⟨w₁, m, hvisit, hm, hloads⟩
        · rw [Returns, search_error hnext hskip hvisit] at hw
          cases hw
        · rw [Returns, search_visit hnext hskip hvisit hm] at hw
          -- the rest of the online search keeps what it trusts so far
          have hrest : Loads E R w₁ w' ∧ ∀ v₁, Mirrors w₁ v₁ → Follows E.toEnv st w₁ w' result
              (searchAt E (StoreRepository.new st) targetPath now' steps visited rest role m
                v₁) := by
            unfold searchAt at hw ⊢
            cases hfound : m.signed.targets.get? targetPath with
            | some target =>
              rw [hfound] at hw
              cases hw
              exact ⟨.refl _, fun v₁ h₁ => .inl ⟨.refl _, v₁, rfl, h₁⟩⟩
            | none =>
              rw [hfound] at hw
              dsimp only at hw ⊢
              cases hchildren : nextToVisit E m.signed targetPath role rest with
              | error e =>
                rw [hchildren] at hw
                cases hw
              | ok next =>
                rw [hchildren] at hw
                have htop₁ := hloads.keeps _ _ htop
                have hlater := search_related (E := E) (R := R) .refl .trans
                  (fun role delegator => loads_visit role delegator now) targetPath steps
                  (role :: visited) next htop₁
                rw [show Tuf.search E R targetPath now steps (role :: visited) next w₁ = _ from hw]
                  at hlater
                refine ⟨hlater, fun v₁ h₁ => ?_⟩
                exact ih h₁ htop₁ (role :: visited) next (hloads.config ▸ hs) hw
          obtain ⟨hlater, hfollows⟩ := hrest
          have hfirst := h.visit hs (hlater.snapshot.trans hloads.snapshot) hlater.keeps hvisit
          rcases hfirst with ⟨hkept, v₁, hv, h₁⟩ | ⟨hlost, e, v₁, hv⟩
          · have hm₁ : v₁.trusted.targets.get? role = some m := by rw [h₁.targets, hm]
            rw [search_visit hnext hskip' hv hm₁]
            refine (hfollows v₁ h₁).imp ?_ ?_
            · rintro ⟨hkept', hend⟩
              exact ⟨(keptSince_trans hloads hlater).2 ⟨hkept, hkept'⟩, hend⟩
            · rintro ⟨hlost, hend⟩
              exact ⟨fun hkept => hlost ((keptSince_trans hloads hlater).1 hkept).2, hend⟩
          · rw [search_error hnext hskip' hv]
            exact .inr ⟨fun hkept => hlost ((keptSince_trans hloads hlater).1 hkept).1, e, v₁, rfl⟩

end

end Sigstore.Tuf
