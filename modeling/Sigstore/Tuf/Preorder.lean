import Sigstore.DepthFirst
import Sigstore.Tuf.Chain

/-!
# The search of the delegations is the recursive one

A lookup of a target searches the delegations depth first, in the order of the delegations of a
role. A role is visited at most once, a role that the snapshot does not pin is skipped, and a
terminating delegation that matches ends the search after its role (`visitRole`, with
`DepthFirst.preorder`). The loop of `get_targetinfo` does the same with a work list, as long as it
does not hit its bound (`getTargetinfo_preorder`).
-/

namespace Sigstore.Tuf

open Checks StateAction DepthFirst TrustedMetadataSet

section
variable (E : ClientEnv) (R : Repository)

/-- The delegations to search for a target, in their order: those that match it, up to the first of
them that is terminating. One that reuses a top-level name is left out. -/
def selected (targetPath : String) : List DelegatedRole → Except Error (List DelegatedRole)
  | [] => .ok []
  | role :: roles =>
    if isTopLevelRole role.name then selected targetPath roles
    else do
      let matched ← role.matchesPath E targetPath
      if matched then
        if role.terminating then return [role]
        else
          let rest ← selected targetPath roles
          return role :: rest
      else selected targetPath roles

/-- The visit of a role with its delegator. -/
def visitRole (targetPath : String) (now : Int) (item : String × String) :
    Client (Verdict (String × String) TargetFile) := do
  let trusted ← gets (·.trusted)
  let known := item.1 = "targets" ∨ (trusted.targets.get? item.1).isSome
  if ¬ known ∧ trusted.pinsRole item.1 = false then return .skip
  else do
    let _ ← (if known then pure () else loadRole E R item.1 item.2 now : Client Unit)
    let found ← gets (·.trusted.targetsRole item.1)
    match found with
    | none => fail .panic
    | some targets =>
      match targets.targets.get? targetPath with
      | some target => return .found target
      | none => do
        let roles ← check (selected E targetPath ((targets.delegations.map (·.roles)).getD []))
        return .children (roles.map fun role => (role.name, item.1)) (roles.any (·.terminating))

/-- The lookup of a target by recursion from the top-level targets, down to a depth. -/
def preorderTargetinfo (depth : Nat) (targetPath : String) (now : Int) :
    Client (Option TargetFile) := fun u =>
  let r := preorder Prod.fst (visitRole E R targetPath now) depth [] ("targets", "root") u
  (r.ended.result, r.state)

variable {E R} {targetPath role : String} {now : Int} {visited : List String}
  {item : String × String} {rest : List (String × String)} {steps : Nat} {u : Updater}

/-! ## The loop -/

/-- The children that the search collects of a role are its selected delegations, and it stops after
them where one is terminating. -/
theorem collectChildren_eq (roles : List DelegatedRole) :
    collectChildren E targetPath role roles =
      (selected E targetPath roles).map fun l =>
        (l.map fun r => (r.name, role), l.any (·.terminating)) := by
  induction roles with
  | nil => rfl
  | cons r roles ih =>
    rw [collectChildren, selected]
    split
    · exact ih
    · cases r.matchesPath E targetPath with
      | error e => rfl
      | ok matched =>
        cases matched with
        | false => exact ih
        | true =>
          by_cases hterminating : r.terminating = true
          · simp [hterminating, Except.map, bind, Except.bind, pure, Except.pure]
          · simp only [Bool.not_eq_true] at hterminating
            rw [ih]
            cases selected E targetPath roles with
            | error e => simp [hterminating, Except.map, bind, Except.bind]
            | ok l => simp [hterminating, Except.map, bind, Except.bind, pure, Except.pure]

/-- What is to be visited after a role. The children come before what is left, and a terminating
child drops what is left. -/
theorem nextToVisit_eq (targets : Targets) :
    nextToVisit E targets targetPath role rest =
      (selected E targetPath ((targets.delegations.map (·.roles)).getD [])).map fun l =>
        l.map (fun r => (r.name, role)) ++ if l.any (·.terminating) then [] else rest := by
  unfold nextToVisit
  cases targets.delegations with
  | none => rfl
  | some delegations =>
    dsimp only [Option.map_some, Option.getD_some]
    rw [collectChildren_eq]
    cases selected E targetPath delegations.roles with
    | error e => rfl
    | ok l => rfl

/-- The search passes over a role that it has visited. -/
theorem search_seen (h : item.1 ∈ visited) :
    search E R targetPath now steps visited (item :: rest) u =
      search E R targetPath now steps visited rest u := by
  conv_lhs => unfold search
  conv_rhs => unfold search
  rw [List.dropWhile_cons_of_pos (by simpa using h)]

/-- The search goes on after the visit of a role that was not visited. This is one turn of the loop,
with the outcome of the visit as a type of its own. -/
theorem search_unseen (h : item.1 ∉ visited) :
    search E R targetPath now (steps + 1) visited (item :: rest) u =
      match visitRole E R targetPath now item u with
      | (.error e, v) => (.error e, v)
      | (.ok .skip, v) => search E R targetPath now steps visited rest v
      | (.ok (.found target), v) => (.ok (some target), v)
      | (.ok (.children items stop), v) => search E R targetPath now steps (item.1 :: visited)
          (items ++ if stop then [] else rest) v := by
  conv_lhs => unfold search
  have hread : (gets (·.trusted) : Client TrustedMetadataSet) u = (.ok u.trusted, u) := rfl
  rw [List.dropWhile_cons_of_neg (by simpa using h), visitRole, bind_of_ok hread]
  dsimp only
  rw [bind_of_ok hread]
  by_cases hskip : ¬ (item.1 = "targets" ∨ (u.trusted.targets.get? item.1).isSome = true) ∧
      u.trusted.pinsRole item.1 = false
  · rw [if_pos hskip, if_pos hskip]
    rfl
  rw [if_neg hskip, if_neg hskip]
  generalize (if item.1 = "targets" ∨ (u.trusted.targets.get? item.1).isSome = true then pure ()
    else loadRole E R item.1 item.2 now : Client Unit) = load
  rcases hload : load u with ⟨e | _, v⟩
  · rw [bind_of_error hload, bind_of_error hload]
  rw [bind_of_ok hload, bind_of_ok hload]
  have hfound : (gets (·.trusted.targetsRole item.1) : Client (Option Targets)) v =
      (.ok (v.trusted.targetsRole item.1), v) := rfl
  rw [bind_of_ok hfound, bind_of_ok hfound]
  cases v.trusted.targetsRole item.1 with
  | none => rfl
  | some targets =>
    dsimp only
    cases targets.targets.get? targetPath with
    | some target => rfl
    | none =>
      dsimp only
      rw [nextToVisit_eq]
      cases selected E targetPath ((targets.delegations.map (·.roles)).getD []) with
      | error e => rfl
      | ok l => rfl

/-- The search is the loop over the work list. The loop of the library ends where the search does,
after the same number of steps, with the same updater. -/
theorem search_of_ends {max : Nat} {w w' : Worklist (String × String) String} {v : Updater}
    {e : Ended Abort TargetFile}
    (h : Ends Prod.fst (visitRole E R targetPath now) max w u e w' v) :
    search E R targetPath now (max - w.steps) w.visited w.toVisit u = (e.result, v) := by
  induction h with
  | @stop w w' u v e hturn =>
    obtain ⟨toVisit, visited, steps⟩ := w
    cases toVisit with
    | nil =>
      cases hturn
      exact search_nil rfl
    | cons item rest =>
      by_cases hseen : item.1 ∈ visited
      · simp [turn, hseen] at hturn
      by_cases hlimit : max ≤ steps
      · simp only [turn, if_neg hseen, if_pos hlimit] at hturn
        cases hturn
        rw [Nat.sub_eq_zero_of_le hlimit]
        exact search_zero
      · rw [turn_unseen _ _ _ _ hseen hlimit] at hturn
        have hsucc : max - steps = max - (steps + 1) + 1 := by omega
        dsimp only
        rw [hsucc, search_unseen hseen]
        rcases hvisit : visitRole E R targetPath now item u with ⟨_ | verdict, u'⟩
        · rw [hvisit] at hturn
          cases hturn
          rfl
        · rw [hvisit] at hturn
          cases verdict with
          | found target =>
            cases hturn
            rfl
          | skip => cases hturn
          | children items stop => cases hturn
  | @next w w₁ w' u u₁ v e hturn _ ih =>
    obtain ⟨toVisit, visited, steps⟩ := w
    cases toVisit with
    | nil => cases hturn
    | cons item rest =>
      by_cases hseen : item.1 ∈ visited
      · simp only [turn, if_pos hseen] at hturn
        cases hturn
        dsimp only
        rw [search_seen hseen]
        exact ih
      by_cases hlimit : max ≤ steps
      · simp [turn, hseen, hlimit] at hturn
      · rw [turn_unseen _ _ _ _ hseen hlimit] at hturn
        have hsucc : max - steps = max - (steps + 1) + 1 := by omega
        dsimp only
        rw [hsucc, search_unseen hseen]
        rcases hvisit : visitRole E R targetPath now item u with ⟨_ | verdict, u'⟩
        · rw [hvisit] at hturn
          cases hturn
        · rw [hvisit] at hturn
          cases verdict with
          | found target => cases hturn
          | skip =>
            cases hturn
            exact ih
          | children items stop =>
            cases hturn
            exact ih

/-- **The lookup is the recursive search.** From the top-level targets that are trusted, the loop of
the lookup ends in any case, having looked at no more roles than the bound. Unless it hits the
bound, the lookup returns the same as the recursion to any depth above the bound, and leaves the
same updater. -/
theorem getTargetinfo_preorder (targetPath : String) (now : Int) {top : Metadata Targets}
    (htop : u.trusted.targets.get? "targets" = some top) :
    ∃ e w v,
      Ends Prod.fst (visitRole E R targetPath now) u.config.maxDelegations.toNat
        ⟨[("targets", "root")], [], 0⟩ u e w v ∧
      w.steps ≤ u.config.maxDelegations.toNat ∧
      getTargetinfo E R targetPath now u = (e.result, v) ∧
      (e ≠ .limit → ∀ depth, u.config.maxDelegations.toNat < depth →
        (preorder Prod.fst (visitRole E R targetPath now) depth [] ("targets", "root") u).ended ≠
            .limit ∧
          preorderTargetinfo E R depth targetPath now u = getTargetinfo E R targetPath now u) := by
  obtain ⟨e, w, v, hends, hsteps⟩ := exists_ends Prod.fst (visitRole E R targetPath now)
    ⟨[("targets", "root")], [], 0⟩ u (Nat.zero_le _)
  have hlookup : getTargetinfo E R targetPath now u = (e.result, v) :=
    (getTargetinfo_eq targetPath now htop).trans (search_of_ends hends)
  refine ⟨e, w, v, hends, hsteps, hlookup, fun he depth hdepth => ?_⟩
  obtain ⟨hlimit, hresult, hstate⟩ := preorder_of_ends hdepth hends he
  refine ⟨hlimit, ?_⟩
  rw [hlookup, preorderTargetinfo, hresult, hstate]

end

/-- After a refresh, the lookup of `p` finds a target. -/
def Sample.sharedLookup : Bool :=
  match Updater.new (sharedEnv "k").toEnv (file root) with
  | .ok u =>
    match refresh (sharedEnv "k") (shared "k") 0 u with
    | (.ok (), u') =>
      (u'.trusted.targets.get? "targets").isSome && decide (u'.config.maxDelegations = 32) &&
        match getTargetinfo (sharedEnv "k") (shared "k") "p" 0 u' with
        | (.ok (some _), _) => true
        | _ => false
    | _ => false
  | .error _ => false

/-- After a refresh, the lookup of `p` finds a target by way of two roles, as the recursion does.
The second way to the shared role is cut off by the visited set in both. -/
theorem getTargetinfo_preorder_shared :
    ∃ u u' target, Updater.new (Sample.sharedEnv "k").toEnv (Sample.file Sample.root) = .ok u ∧
      Returns (refresh (Sample.sharedEnv "k") (Sample.shared "k") 0) u () u' ∧
      (getTargetinfo (Sample.sharedEnv "k") (Sample.shared "k") "p" 0 u').1 = .ok (some target) ∧
      preorderTargetinfo (Sample.sharedEnv "k") (Sample.shared "k") 33 "p" 0 u' =
        getTargetinfo (Sample.sharedEnv "k") (Sample.shared "k") "p" 0 u' := by
  have heval : Sample.sharedLookup = true := by decide +kernel
  unfold Sample.sharedLookup at heval
  split at heval
  · next u hu =>
    split at heval
    · next u' hrefresh =>
      simp only [Bool.and_eq_true, decide_eq_true_eq] at heval
      obtain ⟨⟨htop, hmax⟩, hlookup⟩ := heval
      obtain ⟨top, htop⟩ := Option.isSome_iff_exists.1 htop
      split at hlookup
      · next target v hfound =>
        refine ⟨u, u', target, hu, hrefresh, by rw [hfound], ?_⟩
        obtain ⟨e, w, v', -, -, hresult, hsame⟩ := getTargetinfo_preorder "p" 0 htop
        refine (hsame ?_ 33 (by rw [hmax]; decide)).2
        rintro rfl
        cases hfound.symm.trans hresult
      · cases hlookup
    · cases heval
  · cases heval

end Sigstore.Tuf
