import Sigstore.Tuf.Delegation
import Sigstore.Tuf.Moves

/-!
# Lookups of targets

A lookup searches the delegations from the top-level targets on, and loads the roles that it comes
to and that are not trusted yet. It trusts what was trusted before and the roles that it has loaded
(`Loads`), and a target that it finds is one of a role to which a chain of matching delegations
leads (`Reached`, `getTargetinfo_spec`).
-/

namespace Sigstore.Tuf

open Checks StateAction TrustedMetadataSet

section
variable (E : ClientEnv) (R : Repository)

/-! ## Loading a role -/

/-- The repository has the role's file, and the delegations of a trusted role authorize it. -/
def Loaded (u : Updater) (name : String) (m : Metadata Targets) : Prop :=
  ∃ bytes delegatorName now, Returns (fetchTargetsMetadata R name) u bytes u ∧
    checkDelegatedTargets E.toEnv u.trusted bytes name delegatorName now = .ok m

/-- The later updater trusts what the earlier one does, and roles that have been loaded. -/
structure Loads (u u' : Updater) : Prop where
  root : u'.trusted.root = u.trusted.root
  snapshot : u'.trusted.snapshot = u.trusted.snapshot
  config : u'.config = u.config
  keeps : ∀ name m, u.trusted.targets.get? name = some m → u'.trusted.targets.get? name = some m
  loaded : ∀ name m, u'.trusted.targets.get? name = some m →
    u.trusted.targets.get? name = some m ∨ Loaded E R u' name m

variable {E R}

/-- Fetching a role's file does not change the updater, and depends on the root, the snapshot and
the configuration only. -/
theorem fetchTargetsMetadata_eq (name : String) {u v : Updater}
    (hroot : v.trusted.root = u.trusted.root) (hsnap : v.trusted.snapshot = u.trusted.snapshot)
    (hconfig : v.config = u.config) :
    fetchTargetsMetadata R name v = ((fetchTargetsMetadata R name u).1, v) := by
  obtain ⟨pinKey, hpinKey⟩ : ∃ pinKey, pinKey = name ++ ".json" := ⟨_, rfl⟩
  have hexpand : ∀ w : Updater, fetchTargetsMetadata R name w =
      (orThrow (w.trusted.snapshot.bind (·.signed.metas.get? pinKey))
        (.malformed s!"snapshot does not pin {pinKey}") >>= fun pin =>
          fetchRequired R
            (targetsFileName w.trusted.root.signed.consistentSnapshot pin.version name)
            w.config.targetsMaxLength) w := by
    subst hpinKey
    exact fun _ => rfl
  have hfetch : ∀ file maxLength, fetchRequired R file maxLength v =
      ((fetchRequired R file maxLength u).1, v) := by
    intro file maxLength
    unfold fetchRequired
    cases R.fetchMetadata file maxLength with
    | error e => rfl
    | ok found =>
      cases found with
      | none => rfl
      | some bytes => rfl
  rw [hexpand, hexpand, hroot, hsnap, hconfig]
  cases u.trusted.snapshot.bind (·.signed.metas.get? pinKey) with
  | none => rfl
  | some pin => exact hfetch _ _

section
variable {u v w : Updater}

/-- What is fetched for a role depends on the root, the snapshot and the configuration alone. -/
theorem fetched_congr {name : String} {bytes : Bytes} (hroot : v.trusted.root = u.trusted.root)
    (hsnap : v.trusted.snapshot = u.trusted.snapshot) (hconfig : v.config = u.config)
    (h : Returns (fetchTargetsMetadata R name) u bytes u) :
    Returns (fetchTargetsMetadata R name) v bytes v := by
  rw [Returns, fetchTargetsMetadata_eq name hroot hsnap hconfig, h]

/-- A role that has been loaded stays one. -/
theorem Loads.mono (h : Loads E R u v) {name : String} {m : Metadata Targets}
    (hm : Loaded E R u name m) : Loaded E R v name m := by
  obtain ⟨bytes, delegatorName, now, hfetch, hcheck⟩ := hm
  refine ⟨bytes, delegatorName, now, fetched_congr h.root h.snapshot h.config hfetch, ?_⟩
  obtain ⟨-, -, delegator, hdelegator, -⟩ := checkDelegatedTargets_ok E.toEnv hcheck
  rw [checkDelegatedTargets_congr h.snapshot
    ((h.keeps _ _ hdelegator).trans hdelegator.symm)]
  exact hcheck

theorem Loads.refl (u : Updater) : Loads E R u u := ⟨rfl, rfl, rfl, fun _ _ => id, fun _ _ => .inl⟩

/-- Loading twice is loading: a role that the second call loads could be loaded before the first
one, too. -/
theorem Loads.trans (u v w : Updater) (huv : Loads E R u v) (hvw : Loads E R v w) :
    Loads E R u w := by
  refine {
    root := hvw.root.trans huv.root
    snapshot := hvw.snapshot.trans huv.snapshot
    config := hvw.config.trans huv.config
    keeps := fun name m hm => hvw.keeps name m (huv.keeps name m hm)
    loaded := fun name m hm => ?_ }
  rcases hvw.loaded name m hm with hv | hloaded
  · exact (huv.loaded name m hv).imp_right hvw.mono
  · exact .inr hloaded

/-- Only the store differs. -/
theorem Loads.of_trusted (htrusted : v.trusted = u.trusted) (hconfig : v.config = u.config) :
    Loads E R u v := by
  refine ⟨by rw [htrusted], by rw [htrusted], hconfig, fun name m => ?_, fun name m => ?_⟩
  · rw [htrusted]
    exact id
  · rw [htrusted]
    exact .inl

end

/-- The updater after a role has been accepted and stored. -/
def Updater.withRole (u : Updater) (role : String) (m : Metadata Targets) (bytes : Bytes) :
    Updater :=
  { u with
    trusted := { u.trusted with targets := u.trusted.targets.insert role m }
    store := u.store.map (·.store s!"{encodeRole role}.json" bytes) }

/-- Loading a role fetches its file, checks it under the delegator and stores it. A failed fetch and
a failed check leave the updater as it was, and the file is stored only after the check. -/
theorem loadRole_eq (role delegator : String) (now : Int) (u : Updater) :
    loadRole E R role delegator now u =
      match (fetchTargetsMetadata R role u).1 with
      | .error e => (.error e, u)
      | .ok bytes =>
        match checkDelegatedTargets E.toEnv u.trusted bytes role delegator now with
        | .error e => (.error (.error e), u)
        | .ok m => (.ok (), u.withRole role m bytes) := by
  have hsame := fetchTargetsMetadata_eq (R := R) role (u := u) rfl rfl rfl
  cases hfetch : (fetchTargetsMetadata R role u).1 with
  | error e =>
    rw [hfetch] at hsame
    rw [loadRole, bind_of_error hsame]
  | ok bytes =>
    rw [hfetch] at hsame
    rw [loadRole, bind_of_ok hsame]
    dsimp only
    cases hcheck : checkDelegatedTargets E.toEnv u.trusted bytes role delegator now with
    | error e =>
      have hupdate : update (·.updateDelegatedTargets E.toEnv bytes role delegator now) u =
          (.error (.error e), u) := by
        simp only [update, onPart, updateDelegatedTargets, hcheck]
      rw [bind_of_error hupdate]
    | ok m =>
      have hupdate : update (·.updateDelegatedTargets E.toEnv bytes role delegator now) u =
          (.ok m.signed, { u with trusted :=
            { u.trusted with targets := u.trusted.targets.insert role m } }) := by
        simp only [update, onPart, updateDelegatedTargets, hcheck]
      rw [bind_of_ok hupdate]
      rfl

/-- Loading a role that is not trusted yet loads nothing else. The role was not trusted, so that the
insertion replaces nothing. -/
theorem loads_withRole {u : Updater} {role delegator : String} {now : Int} {m : Metadata Targets}
    {bytes : Bytes} (hunknown : u.trusted.targets.get? role = none)
    (hfetch : Returns (fetchTargetsMetadata R role) u bytes u)
    (hcheck : checkDelegatedTargets E.toEnv u.trusted bytes role delegator now = .ok m) :
    Loads E R u (u.withRole role m bytes) := by
  have hkeeps : ∀ name m', u.trusted.targets.get? name = some m' →
      (u.trusted.targets.insert role m).get? name = some m' := by
    intro name m' hm'
    rw [BTreeMap.get?_insert_of_ne]
    · exact hm'
    · rintro rfl
      cases hunknown.symm.trans hm'
  refine ⟨rfl, rfl, rfl, hkeeps, fun name m' hm' => ?_⟩
  rcases BTreeMap.get?_insert_eq_some hm' with ⟨rfl, rfl⟩ | ⟨-, hm'⟩
  · refine .inr ⟨bytes, delegator, now, fetched_congr (u := u) rfl rfl rfl hfetch, ?_⟩
    obtain ⟨-, -, d, hd, -⟩ := checkDelegatedTargets_ok E.toEnv hcheck
    rw [checkDelegatedTargets_congr (s := (u.withRole name m' bytes).trusted) (t := u.trusted) rfl
      ((hkeeps _ _ hd).trans hd.symm)]
    exact hcheck
  · exact .inl hm'

/-! ## The search -/

/-- The role is trusted already, or is the top-level one. -/
def Known (u : Updater) (role : String) : Prop :=
  role = "targets" ∨ (u.trusted.targets.get? role).isSome

instance (u : Updater) (role : String) : Decidable (Known u role) :=
  inferInstanceAs (Decidable (_ ∨ _))

/-- Load the role that the search looks at, unless it is known. -/
def visit (E : ClientEnv) (R : Repository) (role delegator : String) (now : Int) : Client Unit :=
  fun u => if Known u role then (.ok (), u) else loadRole E R role delegator now u

/-- What the search does at a role that is trusted. -/
def searchAt (E : ClientEnv) (R : Repository) (targetPath : String) (now : Int) (steps : Nat)
    (visited : List String) (rest : List (String × String)) (role : String) (m : Metadata Targets) :
    Client (Option TargetFile) :=
  match m.signed.targets.get? targetPath with
  | some target => pure (some target)
  | none => do
    let toVisit ← check (nextToVisit E m.signed targetPath role rest)
    search E R targetPath now steps (role :: visited) toVisit

section
variable {targetPath role delegator : String} {now : Int} {steps : Nat} {visited : List String}
  {toVisit rest : List (String × String)} {u v : Updater}

/-- A search with no role left to visit finds nothing. -/
theorem search_nil (hnext : toVisit.dropWhile (·.1 ∈ visited) = []) :
    search E R targetPath now steps visited toVisit u = (.ok none, u) := by
  unfold search
  rw [hnext]
  rfl

/-- A search that has used up its steps finds nothing. -/
theorem search_zero : search E R targetPath now 0 visited toVisit u = (.ok none, u) := by
  unfold search
  cases toVisit.dropWhile (·.1 ∈ visited) with
  | nil => rfl
  | cons item rest => rfl

section
variable (hnext : toVisit.dropWhile (·.1 ∈ visited) = (role, delegator) :: rest)
include hnext

/-- A role that is neither known nor pinned is skipped. -/
theorem search_skip (hskip : ¬ Known u role ∧ u.trusted.pinsRole role = false) :
    search E R targetPath now (steps + 1) visited toVisit u =
      search E R targetPath now steps visited rest u := by
  conv_lhs => unfold search
  have hread : (gets (·.trusted) : Client TrustedMetadataSet) u = (.ok u.trusted, u) := rfl
  rw [hnext]
  dsimp only
  rw [bind_of_ok hread]
  exact congrFun (if_pos hskip) u

/-- The search ends with the error of a role that is not loaded. The condition says that the role is
not one that the snapshot leaves out, which the search would have passed over. -/
theorem search_error (hskip : ¬ (¬ Known u role ∧ u.trusted.pinsRole role = false)) {e : Abort}
    (hvisit : visit E R role delegator now u = (.error e, v)) :
    search E R targetPath now (steps + 1) visited toVisit u = (.error e, v) := by
  conv_lhs => unfold search
  have hread : (gets (·.trusted) : Client TrustedMetadataSet) u = (.ok u.trusted, u) := rfl
  have hload : (if Known u role then pure () else loadRole E R role delegator now : Client Unit) u =
      (.error e, v) := by
    rw [← hvisit, visit]
    split <;> rfl
  rw [hnext]
  dsimp only
  rw [bind_of_ok hread]
  exact (congrFun (if_neg hskip) u).trans (bind_of_error hload)

/-- A role that is known or has been loaded is searched. What is searched is the role's metadata
after the visit, known before or loaded just now. -/
theorem search_visit (hskip : ¬ (¬ Known u role ∧ u.trusted.pinsRole role = false))
    (hvisit : visit E R role delegator now u = (.ok (), v)) {m : Metadata Targets}
    (hm : v.trusted.targets.get? role = some m) :
    search E R targetPath now (steps + 1) visited toVisit u =
      searchAt E R targetPath now steps visited rest role m v := by
  conv_lhs => unfold search
  have hread : (gets (·.trusted) : Client TrustedMetadataSet) u = (.ok u.trusted, u) := rfl
  have hload : (if Known u role then pure () else loadRole E R role delegator now : Client Unit) u =
      (.ok (), v) := by
    rw [← hvisit, visit]
    split <;> rfl
  have hrole : v.trusted.targetsRole role = some m.signed := by
    rw [targetsRole, hm]
    rfl
  have hfound : (gets (·.trusted.targetsRole role) : Client (Option Targets)) v =
      (.ok (some m.signed), v) := congrArg (fun o => (Except.ok o, v)) hrole
  rw [hnext]
  dsimp only
  rw [bind_of_ok hread]
  refine (congrFun (if_neg hskip) u).trans ((bind_of_ok hload).trans ((bind_of_ok hfound).trans ?_))
  rfl

end

/-- A role that is visited is trusted then, or the visit fails and changes nothing. The top-level
targets are trusted throughout, so that the role with their name is always known. -/
theorem visit_cases (E : ClientEnv) (R : Repository) (role delegator : String) (now : Int)
    {u : Updater} {top : Metadata Targets} (htop : u.trusted.targets.get? "targets" = some top) :
    (∃ e, visit E R role delegator now u = (.error e, u)) ∨
    ∃ v m, visit E R role delegator now u = (.ok (), v) ∧ v.trusted.targets.get? role = some m ∧
      Loads E R u v := by
  unfold visit
  split
  · next hknown =>
    obtain ⟨m, hm⟩ : ∃ m, u.trusted.targets.get? role = some m := by
      rcases hknown with rfl | hsome
      · exact ⟨top, htop⟩
      · exact Option.isSome_iff_exists.1 hsome
    exact .inr ⟨u, m, rfl, hm, .refl u⟩
  · next hunknown =>
    rw [Known, not_or, Option.not_isSome_iff_eq_none] at hunknown
    rw [loadRole_eq]
    cases hfetch : (fetchTargetsMetadata R role u).1 with
    | error e => exact .inl ⟨e, rfl⟩
    | ok bytes =>
      dsimp only
      cases hcheck : checkDelegatedTargets E.toEnv u.trusted bytes role delegator now with
      | error e => exact .inl ⟨_, rfl⟩
      | ok m =>
        refine .inr ⟨u.withRole role m bytes, m, rfl, BTreeMap.get?_insert_self _ _ _, ?_⟩
        refine loads_withRole hunknown.2 ?_ hcheck
        rw [Returns, fetchTargetsMetadata_eq (R := R) role (u := u) rfl rfl rfl, hfetch]

/-- What every visit does to the updater, the search does. It is the induction on the steps of the
search, made once: a relation that is reflexive and transitive and holds of visits holds of
searches. -/
theorem search_related {Rel : Updater → Updater → Prop} (refl : ∀ u, Rel u u)
    (trans : ∀ u v w, Rel u v → Rel v w → Rel u w)
    (hvisit : ∀ role delegator u, Rel u (visit E R role delegator now u).2) (targetPath : String)
    (steps : Nat) (visited : List String) (toVisit : List (String × String)) {u : Updater}
    {top : Metadata Targets} (htop : u.trusted.targets.get? "targets" = some top) :
    Rel u (search E R targetPath now steps visited toVisit u).2 := by
  induction steps generalizing visited toVisit u with
  | zero =>
    rw [search_zero]
    exact refl u
  | succ steps ih =>
    cases hnext : toVisit.dropWhile (·.1 ∈ visited) with
    | nil =>
      rw [search_nil hnext]
      exact refl u
    | cons item rest =>
      obtain ⟨role, delegator⟩ := item
      by_cases hskip : ¬ Known u role ∧ u.trusted.pinsRole role = false
      · rw [search_skip hnext hskip]
        exact ih visited rest htop
      · have hrel := hvisit role delegator u
        rcases visit_cases E R role delegator now htop with ⟨e, hv⟩ | ⟨v, m, hv, hm, hloads⟩
        · rw [search_error hnext hskip hv]
          exact refl u
        · rw [hv] at hrel
          rw [search_visit hnext hskip hv hm, searchAt]
          cases m.signed.targets.get? targetPath with
          | some target => exact hrel
          | none =>
            cases nextToVisit E m.signed targetPath role rest with
            | error e => exact hrel
            | ok next => exact trans _ _ _ hrel (ih (role :: visited) next (hloads.keeps _ _ htop))

/-- A visit loads roles. A role that is known is not loaded again, even through another delegator.
-/
theorem loads_visit (role delegator : String) (now : Int) (u : Updater) :
    Loads E R u (visit E R role delegator now u).2 := by
  unfold visit
  split
  · exact .refl u
  · next hunknown =>
    rw [Known, not_or, Option.not_isSome_iff_eq_none] at hunknown
    rw [loadRole_eq]
    cases hfetch : (fetchTargetsMetadata R role u).1 with
    | error e => exact .refl u
    | ok bytes =>
      dsimp only
      cases hcheck : checkDelegatedTargets E.toEnv u.trusted bytes role delegator now with
      | error e => exact .refl u
      | ok m =>
        refine loads_withRole hunknown.2 ?_ hcheck
        rw [Returns, fetchTargetsMetadata_eq (R := R) role (u := u) rfl rfl rfl, hfetch]

/-! ### What the search reaches -/

/-- A trusted role to which a chain of matching delegations leads from the top-level targets. -/
inductive Reached (E : ClientEnv) (s : TrustedMetadataSet) (targetPath : String) :
    String → Metadata Targets → Prop where
  | top {m : Metadata Targets} (trusted : s.targets.get? "targets" = some m) :
    Reached E s targetPath "targets" m
  | delegated {name : String} {m m' : Metadata Targets} {delegations : Delegations}
    {role : DelegatedRole} (chain : Reached E s targetPath name m)
    (entry : HasEntry m delegations role) (notTopLevel : isTopLevelRole role.name = false)
    (matched : role.matchesPath E targetPath = .ok true)
    (trusted : s.targets.get? role.name = some m') : Reached E s targetPath role.name m'

/-- A role on the work list: the top-level one, or one to which a matching entry of its delegator
leads. -/
def Pending (E : ClientEnv) (s : TrustedMetadataSet) (targetPath : String)
    (item : String × String) : Prop :=
  item.1 = "targets" ∨ ∃ m delegations role, Reached E s targetPath item.2 m ∧
    HasEntry m delegations role ∧ role.name = item.1 ∧ isTopLevelRole role.name = false ∧
    role.matchesPath E targetPath = .ok true

/-- A role that is reached is trusted. -/
theorem Reached.trusted {s : TrustedMetadataSet} {name : String} {m : Metadata Targets}
    (h : Reached E s targetPath name m) : s.targets.get? name = some m := by
  cases h with
  | top trusted => exact trusted
  | delegated chain entry notTopLevel matched trusted => exact trusted

/-- A role that is reached is so after more roles are loaded: loading replaces nothing. -/
theorem Reached.mono (h : Loads E R u v) {name : String} {m : Metadata Targets}
    (hm : Reached E u.trusted targetPath name m) : Reached E v.trusted targetPath name m := by
  induction hm with
  | top trusted => exact .top (h.keeps _ _ trusted)
  | delegated chain entry notTopLevel matched trusted ih =>
    exact .delegated ih entry notTopLevel matched (h.keeps _ _ trusted)

/-- A role that waits to be visited does so rightly after more roles are loaded. -/
theorem Pending.mono (h : Loads E R u v) {item : String × String}
    (hitem : Pending E u.trusted targetPath item) : Pending E v.trusted targetPath item := by
  refine hitem.imp_right ?_
  rintro ⟨m, delegations, role, hreached, hmatches⟩
  exact ⟨m, delegations, role, hreached.mono h, hmatches⟩

/-- A role on the work list that is trusted is reached. -/
theorem Pending.reached {s : TrustedMetadataSet} {m : Metadata Targets}
    (h : Pending E s targetPath (role, delegator)) (hm : s.targets.get? role = some m) :
    Reached E s targetPath role m := by
  rcases h with rfl | ⟨m', delegations, r, hreached, hentry, rfl, hname, hmatch⟩
  · exact .top hm
  · exact .delegated hreached hentry hname hmatch hm

/-- The children that are collected are entries that match, for roles that are not top-level. The
list ends at a terminating entry that matches, which the flag records. -/
theorem collectChildren_ok {roles : List DelegatedRole} {children : List (String × String)}
    {stopped : Bool} (h : collectChildren E targetPath role roles = .ok (children, stopped)) :
    ∀ item ∈ children, item.2 = role ∧ ∃ r ∈ roles, r.name = item.1 ∧
      isTopLevelRole r.name = false ∧ r.matchesPath E targetPath = .ok true := by
  induction roles generalizing children stopped with
  | nil =>
    cases h
    nofun
  | cons r roles ih =>
    have hlater : ∀ {children stopped}, collectChildren E targetPath role roles =
        .ok (children, stopped) → ∀ item ∈ children, item.2 = role ∧ ∃ r' ∈ r :: roles,
        r'.name = item.1 ∧ isTopLevelRole r'.name = false ∧
        r'.matchesPath E targetPath = .ok true := by
      intro children stopped hrest item hitem
      obtain ⟨hrole, r', hr', hmatch⟩ := ih hrest item hitem
      exact ⟨hrole, r', List.mem_cons_of_mem _ hr', hmatch⟩
    unfold collectChildren at h
    split at h
    · exact hlater h
    · next htop =>
      obtain ⟨matched, hmatched, h⟩ := bind_eq_ok.1 h
      split at h
      · next htrue =>
        subst htrue
        have hfirst : ((r.name, role) : String × String).2 = role ∧ ∃ r' ∈ r :: roles,
            r'.name = r.name ∧ isTopLevelRole r'.name = false ∧
            r'.matchesPath E targetPath = .ok true :=
          ⟨rfl, r, List.mem_cons_self, rfl, Bool.eq_false_iff.2 htop, hmatched⟩
        split at h
        · cases h
          intro item hitem
          rw [List.mem_singleton.1 hitem]
          exact hfirst
        · obtain ⟨⟨rest, stop⟩, hrest, h⟩ := bind_eq_ok.1 h
          cases h
          intro item hitem
          rcases List.mem_cons.1 hitem with rfl | hitem
          · exact hfirst
          · exact hlater hrest item hitem
      · exact hlater h

/-- What is to be visited next was to be visited before, or is a child of the role. A terminating
entry drops the rest of the list, which can only make it shorter. -/
theorem nextToVisit_ok {s : TrustedMetadataSet} {m : Metadata Targets}
    {next : List (String × String)} (hm : Reached E s targetPath role m)
    (hrest : ∀ item ∈ rest, Pending E s targetPath item)
    (h : nextToVisit E m.signed targetPath role rest = .ok next) :
    ∀ item ∈ next, Pending E s targetPath item := by
  unfold nextToVisit at h
  cases hblock : m.signed.delegations with
  | none =>
    rw [hblock] at h
    cases h
    exact hrest
  | some delegations =>
    rw [hblock] at h
    obtain ⟨⟨children, stopped⟩, hchildren, h⟩ := bind_eq_ok.1 h
    cases h
    intro item hitem
    rcases List.mem_append.1 hitem with hitem | hitem
    · obtain ⟨hrole, r, hr, hmatches⟩ := collectChildren_ok hchildren item hitem
      rw [← hrole] at hm
      exact .inr ⟨m, delegations, r, hm, ⟨hblock, hr⟩, hmatches⟩
    · cases stopped with
      | true => cases hitem
      | false => exact hrest item hitem

end

/-- The search loads roles, and a target that it finds is one of a role that it reached. The two
parts are proved together, as the second needs that what was reached before a visit is reached after
it. -/
theorem search_spec (targetPath : String) (now : Int) (steps : Nat) (visited : List String)
    (toVisit : List (String × String)) {u : Updater} {top : Metadata Targets}
    (htop : u.trusted.targets.get? "targets" = some top)
    (hpending : ∀ item ∈ toVisit, Pending E u.trusted targetPath item) :
    Loads E R u (search E R targetPath now steps visited toVisit u).2 ∧
    ∀ target, (search E R targetPath now steps visited toVisit u).1 = .ok (some target) →
      ∃ role m, Reached E (search E R targetPath now steps visited toVisit u).2.trusted targetPath
        role m ∧ m.signed.targets.get? targetPath = some target := by
  induction steps generalizing visited toVisit u with
  | zero =>
    rw [search_zero]
    exact ⟨.refl u, nofun⟩
  | succ steps ih =>
    cases hnext : toVisit.dropWhile (·.1 ∈ visited) with
    | nil =>
      rw [search_nil hnext]
      exact ⟨.refl u, nofun⟩
    | cons item rest =>
      obtain ⟨role, delegator⟩ := item
      have hmem : ∀ item ∈ (role, delegator) :: rest, item ∈ toVisit := fun item hitem =>
        (List.dropWhile_suffix _).subset (hnext ▸ hitem)
      by_cases hskip : ¬ Known u role ∧ u.trusted.pinsRole role = false
      · rw [search_skip hnext hskip]
        exact ih visited rest htop fun item hitem =>
          hpending item (hmem item (List.mem_cons_of_mem _ hitem))
      · rcases visit_cases E R role delegator now htop with ⟨e, hvisit⟩ | ⟨v, m, hvisit, hm, hloads⟩
        · rw [search_error hnext hskip hvisit]
          exact ⟨.refl u, nofun⟩
        · have hpending' : ∀ item ∈ (role, delegator) :: rest,
              Pending E v.trusted targetPath item := fun item hitem =>
            (hpending item (hmem item hitem)).mono hloads
          have hreached : Reached E v.trusted targetPath role m :=
            (hpending' _ List.mem_cons_self).reached hm
          rw [search_visit hnext hskip hvisit hm, searchAt]
          cases hfound : m.signed.targets.get? targetPath with
          | some target =>
            refine ⟨hloads, fun target' htarget => ⟨role, m, hreached, ?_⟩⟩
            cases htarget
            exact hfound
          | none =>
            cases hchildren : nextToVisit E m.signed targetPath role rest with
            | error e =>
              have hcheck : check (.error e : Except Error (List (String × String))) v =
                  (.error (.error e), v) := rfl
              dsimp only
              rw [bind_of_error hcheck]
              exact ⟨hloads, nofun⟩
            | ok next =>
              have hcheck : check (.ok next : Except Error (List (String × String))) v =
                  (.ok next, v) := rfl
              dsimp only
              rw [bind_of_ok hcheck]
              obtain ⟨hafter, hresult⟩ := ih (role :: visited) next (hloads.keeps _ _ htop)
                (nextToVisit_ok hreached (fun item hitem =>
                  hpending' item (List.mem_cons_of_mem _ hitem)) hchildren)
              exact ⟨hloads.trans _ _ _ hafter, hresult⟩

/-- A lookup searches from the top-level targets. -/
theorem getTargetinfo_eq (targetPath : String) (now : Int) {u : Updater} {top : Metadata Targets}
    (htop : u.trusted.targets.get? "targets" = some top) :
    getTargetinfo E R targetPath now u =
      search E R targetPath now u.config.maxDelegations.toNat [] [("targets", "root")] u := by
  have hrole : u.trusted.targetsRole "targets" = some top.signed := by
    rw [targetsRole, htop]
    rfl
  have hread : (gets (·.trusted.targetsRole "targets") : Client (Option Targets)) u =
      (.ok (some top.signed), u) := congrArg (fun o => (Except.ok o, u)) hrole
  rw [getTargetinfo, bind_of_ok hread]
  rfl

/-- Before the first refresh there is nothing to look up. -/
theorem getTargetinfo_none (targetPath : String) (now : Int) {u : Updater}
    (htop : u.trusted.targets.get? "targets" = none) :
    getTargetinfo E R targetPath now u =
      (.error (.error (.malformed "refresh() must be called before resolving targets")), u) := by
  have hrole : u.trusted.targetsRole "targets" = none := by
    rw [targetsRole, htop]
    rfl
  have hread : (gets (·.trusted.targetsRole "targets") : Client (Option Targets)) u =
      (.ok none, u) := congrArg (fun o => (Except.ok o, u)) hrole
  rw [getTargetinfo, bind_of_ok hread]
  rfl

/-- A lookup loads roles, and a target that it finds is one of a role that it reached. The search
begins at the top-level targets, which are reached by the empty chain. -/
theorem getTargetinfo_spec (targetPath : String) (now : Int) (u : Updater) :
    Loads E R u (getTargetinfo E R targetPath now u).2 ∧
    ∀ target, (getTargetinfo E R targetPath now u).1 = .ok (some target) →
      ∃ role m, Reached E (getTargetinfo E R targetPath now u).2.trusted targetPath role m ∧
        m.signed.targets.get? targetPath = some target := by
  cases htop : u.trusted.targets.get? "targets" with
  | none =>
    rw [getTargetinfo_none targetPath now htop]
    exact ⟨.refl u, nofun⟩
  | some top =>
    rw [getTargetinfo_eq targetPath now htop]
    refine search_spec targetPath now _ _ _ htop fun item hitem => .inl ?_
    rw [List.mem_singleton.1 hitem]

end

end Sigstore.Tuf
