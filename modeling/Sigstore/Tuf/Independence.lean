import Sigstore.Tuf.Lookup

/-!
# Lookups after lookups

A lookup may begin with roles trusted that an earlier lookup has loaded, where it would have loaded
them itself, through another delegator perhaps. Where the delegations agree, the two searches go
side by side (`Ahead.search`), and the lookup has the same outcome (`Ahead.getTargetinfo`).
-/

namespace Sigstore.Tuf

open Sigstore.Crypto Checks StateAction TrustedMetadataSet

section
variable (E : ClientEnv)

/-- The repository has the file for a role that the trusted snapshot pins. -/
def Serves (R : Repository) (u : Updater) (name : String) (m : Metadata Targets) : Prop :=
  ∃ bytes now, Returns (fetchTargetsMetadata R name) u bytes u ∧
    verifyTargetsPin E.toEnv u.trusted bytes name now = .ok m

variable {E} {R : Repository}

/-- A role that can be loaded is one that the repository serves. -/
theorem Loaded.serves {u : Updater} {name : String} {m : Metadata Targets}
    (h : Loaded E R u name m) : Serves E R u name m := by
  obtain ⟨bytes, _, now, hfetch, hcheck⟩ := h
  exact ⟨bytes, now, hfetch, (checkDelegatedTargets_ok E.toEnv hcheck).2.1⟩

/-- A role that can be loaded is pinned by the trusted snapshot, so a search does not pass over it.
-/
theorem Loaded.pinned {u : Updater} {name : String} {m : Metadata Targets}
    (h : Loaded E R u name m) : u.trusted.pinsRole name = true := by
  obtain ⟨bytes, now, -, hpin⟩ := h.serves
  obtain ⟨snap, pin, hsnap, hpin, -⟩ := verifyTargetsPin_ok E.toEnv hpin
  rw [pinsRole, hsnap]
  exact Option.isSome_iff_exists.2 ⟨pin, hpin⟩

/-- What the repository serves of a role depends on the root, the snapshot and the configuration
alone. -/
theorem Serves.congr {u v : Updater} (hroot : v.trusted.root = u.trusted.root)
    (hsnap : v.trusted.snapshot = u.trusted.snapshot) (hconfig : v.config = u.config)
    {name : String} {m : Metadata Targets} (h : Serves E R u name m) : Serves E R v name m := by
  obtain ⟨bytes, now, hfetch, hpin⟩ := h
  refine ⟨bytes, now, fetched_congr hroot hsnap hconfig hfetch, ?_⟩
  rwa [verifyTargetsPin, hsnap]

/-! ## A lookup after others -/

/-- The second updater trusts what the first one does and roles that the repository has loaded
since, which have not expired. All the files are among `F`. -/
structure Ahead (E : ClientEnv) (R : Repository) (F : Metadata Targets → Prop) (now : Int)
    (u v : Updater) : Prop where
  loads : Loads E R u v
  fresh : ∀ name m, v.trusted.targets.get? name = some m → u.trusted.targets.get? name = none →
    NotExpired E.toEnv m.signed now ∧
    ∀ snap, v.trusted.snapshot = some snap → NotExpired E.toEnv snap.signed now
  files : ∀ name m, v.trusted.targets.get? name = some m → F m
  served : ∀ name m, Serves E R u name m → F m

section
variable {F : Metadata Targets → Prop} {now : Int} {u v : Updater}
  {targetPath role delegator : String}

/-- A role that is known stays so after lookups. -/
theorem Ahead.known (h : Ahead E R F now u v) (hknown : Known u role) : Known v role := by
  refine hknown.imp_right fun hsome => ?_
  obtain ⟨m, hm⟩ := Option.isSome_iff_exists.1 hsome
  exact Option.isSome_iff_exists.2 ⟨m, h.loads.keeps _ _ hm⟩

/-- Lookups leave the snapshot alone, and with it the roles that it pins. -/
theorem Ahead.pinsRole (h : Ahead E R F now u v) :
    v.trusted.pinsRole role = u.trusted.pinsRole role := by
  rw [TrustedMetadataSet.pinsRole, TrustedMetadataSet.pinsRole, h.loads.snapshot]

/-- The same roles are skipped. The two updaters differ in what they have loaded only, and what the
first one has loaded the second has, too. -/
theorem Ahead.skip_iff (h : Ahead E R F now u v) :
    (¬ Known v role ∧ v.trusted.pinsRole role = false) ↔
      (¬ Known u role ∧ u.trusted.pinsRole role = false) := by
  rw [h.pinsRole]
  refine and_congr_left fun hpin => ⟨fun hv hu => hv (h.known hu), fun hu hv => ?_⟩
  rcases hv with rfl | hsome
  · exact hu (.inl rfl)
  · obtain ⟨m, hm⟩ := Option.isSome_iff_exists.1 hsome
    rcases h.loads.loaded _ _ hm with hm | hloaded
    · exact hu (.inr (Option.isSome_iff_exists.2 ⟨m, hm⟩))
    · rw [← h.pinsRole, hloaded.pinned] at hpin
      cases hpin

/-- A role that both come to load is loaded by both. The second updater fetches and checks the very
bytes that the first one does, since the snapshots and the delegators agree. -/
theorem Ahead.withRole (h : Ahead E R F now u v) {m : Metadata Targets} {bytes : Bytes}
    (hu : u.trusted.targets.get? role = none) (hv : v.trusted.targets.get? role = none)
    (hfetch : Returns (fetchTargetsMetadata R role) v bytes v)
    (hcheck : checkDelegatedTargets E.toEnv v.trusted bytes role delegator now = .ok m) :
    Ahead E R F now (u.withRole role m bytes) (v.withRole role m bytes) := by
  have hlater := loads_withRole hv hfetch hcheck
  have hserves : Serves E R v role m :=
    ⟨bytes, now, hfetch, (checkDelegatedTargets_ok E.toEnv hcheck).2.1⟩
  have hcases : ∀ {w : Updater} {name m'},
      (w.withRole role m bytes).trusted.targets.get? name = some m' →
      (name = role ∧ m' = m) ∨ (name ≠ role ∧ w.trusted.targets.get? name = some m') := by
    intro w name m' hm'
    rcases BTreeMap.get?_insert_eq_some hm' with ⟨rfl, rfl⟩ | ⟨hne, hm'⟩
    · exact .inl ⟨rfl, rfl⟩
    · exact .inr ⟨hne, hm'⟩
  have hself : ∀ w : Updater, (w.withRole role m bytes).trusted.targets.get? role = some m :=
    fun w => BTreeMap.get?_insert_self _ _ _
  have hother : ∀ {w : Updater} {name}, name ≠ role →
      (w.withRole role m bytes).trusted.targets.get? name = w.trusted.targets.get? name :=
    fun hne => BTreeMap.get?_insert_of_ne _ _ hne
  refine {
    loads := {
      root := h.loads.root
      snapshot := h.loads.snapshot
      config := h.loads.config
      keeps := fun name m' hm' => ?_
      loaded := fun name m' hm' => ?_ }
    fresh := fun name m' hm' hnone => ?_
    files := fun name m' hm' => ?_
    served := fun name m' hm' => h.served name m'
      (hm'.congr (u := u.withRole role m bytes) (v := u) rfl rfl rfl) }
  · rcases hcases hm' with ⟨rfl, rfl⟩ | ⟨hne, hm'⟩
    · exact hself v
    · rw [hother hne]
      exact h.loads.keeps name m' hm'
  · rcases hcases hm' with ⟨rfl, rfl⟩ | ⟨hne, hm'⟩
    · exact .inl (hself u)
    · rw [hother hne]
      exact (h.loads.loaded name m' hm').imp_right hlater.mono
  · rcases hcases hm' with ⟨rfl, rfl⟩ | ⟨hne, hm'⟩
    · cases (hself u).symm.trans hnone
    · rw [hother hne] at hnone
      exact h.fresh name m' hm' hnone
  · rcases hcases hm' with ⟨rfl, rfl⟩ | ⟨hne, hm'⟩
    · exact h.served name m'
        (hserves.congr h.loads.root.symm h.loads.snapshot.symm h.loads.config.symm)
    · exact h.files name m' hm'

/-- A role that the second updater has loaded before is loaded by the first one too. It may have
been loaded through another delegator. Where the delegations agree, the check under this delegator
passes as well. -/
theorem Ahead.catchUp (h : Ahead E R F now u v) (hF : Agrees F) {m : Metadata Targets}
    (hpending : Pending E u.trusted targetPath (role, delegator)) (hrole : role ≠ "targets")
    (hu : u.trusted.targets.get? role = none) (hv : v.trusted.targets.get? role = some m) :
    ∃ bytes, Returns (fetchTargetsMetadata R role) u bytes u ∧
      checkDelegatedTargets E.toEnv u.trusted bytes role delegator now = .ok m ∧
      Ahead E R F now (u.withRole role m bytes) v := by
  obtain ⟨bytes, delegatorName, now', hfetch, hcheck⟩ : Loaded E R v role m := by
    refine (h.loads.loaded role m hv).resolve_left fun hm => ?_
    cases hu.symm.trans hm
  obtain ⟨hfresh, hsnapFresh⟩ := h.fresh role m hv hu
  obtain ⟨m₀, delegations, r, hreached, hentry, hname, -, -⟩ := hpending.resolve_left hrole
  have hfetch' : Returns (fetchTargetsMetadata R role) u bytes u :=
    fetched_congr h.loads.root.symm h.loads.snapshot.symm h.loads.config.symm hfetch
  have hcheck' : checkDelegatedTargets E.toEnv u.trusted bytes role delegator now = .ok m := by
    refine checkDelegatedTargets_of_agrees hF hcheck (fun m' => h.files _ m') hreached.trusted
      (h.files _ _ (h.loads.keeps _ _ hreached.trusted)) hentry hname h.loads.snapshot.symm ?_
      hfresh
    rw [← h.loads.snapshot]
    exact hsnapFresh
  have hother : ∀ {name}, name ≠ role →
      (u.withRole role m bytes).trusted.targets.get? name = u.trusted.targets.get? name :=
    fun hne => BTreeMap.get?_insert_of_ne _ _ hne
  refine ⟨bytes, hfetch', hcheck', {
    loads := {
      root := h.loads.root
      snapshot := h.loads.snapshot
      config := h.loads.config
      keeps := fun name m' hm' => ?_
      loaded := fun name m' hm' => ?_ }
    fresh := fun name m' hm' hnone => ?_
    files := h.files
    served := fun name m' hm' => h.served name m'
      (hm'.congr (u := u.withRole role m bytes) (v := u) rfl rfl rfl) }⟩
  · rcases BTreeMap.get?_insert_eq_some hm' with ⟨rfl, rfl⟩ | ⟨-, hm'⟩
    · exact hv
    · exact h.loads.keeps name m' hm'
  · by_cases hname : name = role
    · subst hname
      cases hv.symm.trans hm'
      exact .inl (BTreeMap.get?_insert_self _ _ _)
    · rw [hother hname]
      exact h.loads.loaded name m' hm'
  · by_cases hname : name = role
    · subst hname
      cases (BTreeMap.get?_insert_self _ _ _).symm.trans hnone
    · rw [hother hname] at hnone
      exact h.fresh name m' hm' hnone

/-- Both visit a role with the same outcome. The three cases are that both know the role, that
neither does, and that the second one is ahead. -/
theorem Ahead.visit (h : Ahead E R F now u v) (hF : Agrees F) {top : Metadata Targets}
    (htop : u.trusted.targets.get? "targets" = some top)
    (hpending : Pending E u.trusted targetPath (role, delegator)) :
    (∃ e, visit E R role delegator now u = (.error e, u) ∧
      visit E R role delegator now v = (.error e, v)) ∨
    ∃ u' v' m, visit E R role delegator now u = (.ok (), u') ∧
      visit E R role delegator now v = (.ok (), v') ∧ u'.trusted.targets.get? role = some m ∧
      v'.trusted.targets.get? role = some m ∧ Loads E R u u' ∧ Ahead E R F now u' v' := by
  unfold Tuf.visit
  by_cases hu : Known u role
  · obtain ⟨m, hm⟩ : ∃ m, u.trusted.targets.get? role = some m := by
      rcases hu with rfl | hsome
      · exact ⟨top, htop⟩
      · exact Option.isSome_iff_exists.1 hsome
    rw [if_pos hu, if_pos (h.known hu)]
    exact .inr ⟨u, v, m, rfl, rfl, hm, h.loads.keeps _ _ hm, .refl u, h⟩
  · rw [if_neg hu, loadRole_eq]
    rw [Known, not_or, Option.not_isSome_iff_eq_none] at hu
    by_cases hv : Known v role
    · obtain ⟨m, hm⟩ := Option.isSome_iff_exists.1 (hv.resolve_left hu.1)
      obtain ⟨bytes, hfetch, hcheck, hahead⟩ := h.catchUp hF hpending hu.1 hu.2 hm
      rw [if_pos hv, hfetch]
      dsimp only
      rw [hcheck]
      exact .inr ⟨u.withRole role m bytes, v, m, rfl, rfl, BTreeMap.get?_insert_self _ _ _, hm,
        loads_withRole hu.2 hfetch hcheck, hahead⟩
    · rw [if_neg hv, loadRole_eq]
      rw [Known, not_or, Option.not_isSome_iff_eq_none] at hv
      have hfetched := fetchTargetsMetadata_eq (R := R) role h.loads.root h.loads.snapshot
        h.loads.config
      obtain ⟨m₀, -, -, hreached, -⟩ := hpending.resolve_left hu.1
      have hchecked : ∀ bytes, checkDelegatedTargets E.toEnv v.trusted bytes role delegator now =
          checkDelegatedTargets E.toEnv u.trusted bytes role delegator now := fun bytes =>
        checkDelegatedTargets_congr h.loads.snapshot
          ((h.loads.keeps _ _ hreached.trusted).trans hreached.trusted.symm)
      rw [hfetched]
      cases hfetch : (fetchTargetsMetadata R role u).1 with
      | error e => exact .inl ⟨e, rfl, rfl⟩
      | ok bytes =>
        dsimp only
        rw [hchecked]
        cases hcheck : checkDelegatedTargets E.toEnv u.trusted bytes role delegator now with
        | error e => exact .inl ⟨_, rfl, rfl⟩
        | ok m =>
          have hreturns : Returns (fetchTargetsMetadata R role) u bytes u := by
            rw [Returns, fetchTargetsMetadata_eq (R := R) role (u := u) rfl rfl rfl, hfetch]
          rw [hfetch] at hfetched
          exact .inr ⟨u.withRole role m bytes, v.withRole role m bytes, m, rfl, rfl,
            BTreeMap.get?_insert_self _ _ _, BTreeMap.get?_insert_self _ _ _,
            loads_withRole hu.2 hreturns hcheck,
            h.withRole hu.2 hv.2 hfetched ((hchecked bytes).trans hcheck)⟩

/-- Both searches have the same outcome. By induction on the steps that are left, with the updaters
generalized: each visit leaves them as they were related before. -/
theorem Ahead.search (h : Ahead E R F now u v) (hF : Agrees F) {top : Metadata Targets}
    (htop : u.trusted.targets.get? "targets" = some top) (steps : Nat) (visited : List String)
    (toVisit : List (String × String))
    (hpending : ∀ item ∈ toVisit, Pending E u.trusted targetPath item) :
    (search E R targetPath now steps visited toVisit u).1 =
      (search E R targetPath now steps visited toVisit v).1 := by
  induction steps generalizing visited toVisit u v with
  | zero => rw [search_zero, search_zero]
  | succ steps ih =>
    cases hnext : toVisit.dropWhile (·.1 ∈ visited) with
    | nil => rw [search_nil hnext, search_nil hnext]
    | cons item rest =>
      obtain ⟨role, delegator⟩ := item
      have hmem : ∀ item ∈ (role, delegator) :: rest, item ∈ toVisit := fun item hitem =>
        (List.dropWhile_suffix _).subset (hnext ▸ hitem)
      by_cases hskip : ¬ Known u role ∧ u.trusted.pinsRole role = false
      · rw [search_skip hnext hskip, search_skip hnext (h.skip_iff.2 hskip)]
        exact ih h htop visited rest fun item hitem =>
          hpending item (hmem item (List.mem_cons_of_mem _ hitem))
      · have hskip' := h.skip_iff.not.2 hskip
        have hitem := hpending _ (hmem _ List.mem_cons_self)
        rcases h.visit hF htop hitem with
          ⟨e, hu, hv⟩ | ⟨u', v', m, hu, hv, hmu, hmv, hloads, hahead⟩
        · rw [search_error hnext hskip hu, search_error hnext hskip' hv]
        · rw [search_visit hnext hskip hu hmu, search_visit hnext hskip' hv hmv, searchAt]
          cases hfound : m.signed.targets.get? targetPath with
          | some target => rfl
          | none =>
            cases hchildren : nextToVisit E m.signed targetPath role rest with
            | error e => rfl
            | ok next =>
              refine ih hahead (hloads.keeps _ _ htop) (role :: visited) next ?_
              exact nextToVisit_ok ((hitem.mono hloads).reached hmu) (fun item hitem =>
                (hpending item (hmem item (List.mem_cons_of_mem _ hitem))).mono hloads) hchildren

/-- Both lookups have the same outcome. Without top-level targets both fail, and with them both
begin with the same work list. -/
theorem Ahead.getTargetinfo (h : Ahead E R F now u v) (hF : Agrees F) :
    (getTargetinfo E R targetPath now u).1 = (getTargetinfo E R targetPath now v).1 := by
  cases htop : u.trusted.targets.get? "targets" with
  | some top =>
    rw [getTargetinfo_eq targetPath now htop,
      getTargetinfo_eq targetPath now (h.loads.keeps _ _ htop), h.loads.config]
    refine h.search hF htop _ _ _ fun item hitem => .inl ?_
    rw [List.mem_singleton.1 hitem]
  | none =>
    have htop' : v.trusted.targets.get? "targets" = none := by
      cases hv : v.trusted.targets.get? "targets" with
      | none => rfl
      | some m =>
        rcases h.loads.loaded _ _ hv with hu | ⟨bytes, delegator, now', -, hcheck⟩
        · cases htop.symm.trans hu
        · exact absurd rfl (checkDelegatedTargets_ok E.toEnv hcheck).1
    rw [getTargetinfo_none targetPath now htop, getTargetinfo_none targetPath now htop']

end

end

end Sigstore.Tuf
