import Sigstore.Tuf.Independence

/-!
# The authority of a target

A target is found in a role to which a chain of matching delegations leads. The role was signed
under the entries of some delegator, which need not be those of the chain: a role stays trusted by
its name when another delegator leads to it, and of two entries for it in one block the first one
counts (`lookups_authorized_fails`). Where the delegations agree, the target has the authority of
the chain (`Authorized`), and earlier lookups make no difference (`lookups_authorized`).
-/

namespace Sigstore.Tuf

open Sigstore.Crypto Checks StateAction TrustedMetadataSet

section
variable (E : ClientEnv)

/-! ## Histories -/

/-- The updater of a client before its calls: bootstrapped from a root, with any limits, and with or
without a store. -/
def Starts (rootBytes : Bytes) (u₀ : Updater) : Prop :=
  ∃ u config, Updater.new E.toEnv rootBytes = .ok u ∧
    (u₀ = u.withConfig config ∨ ∃ store, (u.withConfig config).withStore E.toEnv store = .ok u₀)

/-- The updater after some calls. -/
def runOps (u₀ : Updater) (ops : List Op) : Updater := Runs.run (Op.after E) u₀ ops

/-- The file was trusted at a time when the root and the snapshot were those that are trusted now.
-/
def Past (u₀ : Updater) (ops : List Op) (m : Metadata Targets) : Prop :=
  ∃ before, before <+: ops ∧ (runOps E u₀ before).trusted.root = (runOps E u₀ ops).trusted.root ∧
    (runOps E u₀ before).trusted.snapshot = (runOps E u₀ ops).trusted.snapshot ∧
    ∃ name, (runOps E u₀ before).trusted.targets.get? name = some m

/-- The files with the delegations that a lookup can meet. -/
def Files (u₀ : Updater) (ops : List Op) (R : Repository) (m : Metadata Targets) : Prop :=
  Past E u₀ ops m ∨ ∃ name, Serves E R (runOps E u₀ ops) name m

/-- The call is a lookup or a download that looks its target up, from the repository. -/
def Op.LooksUp (R : Repository) (op : Op) : Prop :=
  ∃ targetPath now, op = .getTargetinfo R targetPath now ∨ op = .getTarget R targetPath now

variable {E} {R : Repository}

/-- A call that looks a target up only loads targets metadata. A download comes after the lookup and
leaves the trusted set as it is. -/
theorem Op.LooksUp.loads {op : Op} (h : op.LooksUp R) (u : Updater) :
    Loads E R u (op.after E u) := by
  obtain ⟨targetPath, now, rfl | rfl⟩ := h
  · exact (getTargetinfo_spec targetPath now u).1
  · have hinfo := (getTargetinfo_spec (E := E) (R := R) targetPath now u).1
    rw [Op.after]
    rcases getTarget_after E R targetPath now u with heq | ⟨target, v, hresolved, heq⟩
    · rw [heq]
      exact hinfo
    · rw [heq]
      rw [hresolved] at hinfo
      have hmoves := downloadTarget_does E R target targetPath v
      refine hinfo.trans _ _ _ (.of_trusted ?_ hmoves.config)
      obtain ⟨calls, hcalls, htrusted⟩ := hmoves.trusted
      cases calls with
      | nil => exact htrusted
      | cons c calls => exact (hcalls c List.mem_cons_self).elim

/-- A call refreshes or loads roles. A refresh can replace the top-level roles; a lookup or a
download cannot. -/
theorem Op.after_cases (u : Updater) (op : Op) :
    (∃ R now, op = .refresh R now) ∨ ∃ R, Loads E R u (op.after E u) := by
  cases op with
  | refresh R now => exact .inl ⟨R, now, rfl⟩
  | getTargetinfo R targetPath now =>
    exact .inr ⟨R, Op.LooksUp.loads ⟨targetPath, now, .inl rfl⟩ u⟩
  | getTarget R targetPath now =>
    exact .inr ⟨R, Op.LooksUp.loads ⟨targetPath, now, .inr rfl⟩ u⟩
  | downloadTarget R target targetPath =>
    have hmoves := downloadTarget_does E R target targetPath u
    refine .inr ⟨R, .of_trusted ?_ hmoves.config⟩
    obtain ⟨calls, hcalls, htrusted⟩ := hmoves.trusted
    cases calls with
    | nil => exact htrusted
    | cons c calls => exact (hcalls c List.mem_cons_self).elim

/-- A delegated role that an operation on the root or a top-level role leaves was there under the
same root and snapshot. -/
theorem delegated_of_step {s : TrustedMetadataSet} {c : Call} (hc : c.OfRoot ∨ c.OfTopLevel)
    {name : String} {m : Metadata Targets} (hname : name ≠ "targets")
    (hm : (step E.toEnv s c).targets.get? name = some m) :
    s.targets.get? name = some m ∧ (step E.toEnv s c).root = s.root ∧
    (step E.toEnv s c).snapshot = s.snapshot := by
  have heffect := step_effect E.toEnv s c
  generalize step E.toEnv s c = s' at heffect hm
  cases heffect with
  | unchanged => exact ⟨hm, rfl, rfl⟩
  | root => simp at hm
  | timestamp => exact ⟨hm, rfl, rfl⟩
  | snapshot => simp at hm
  | targets =>
    rw [BTreeMap.get?_insert_of_ne _ _ hname] at hm
    exact ⟨hm, rfl, rfl⟩
  | delegated => exact (hc.elim id id).elim

/-- Calls on the root and on the top-level roles that leave a delegated role trusted have changed
neither it nor the root nor the snapshot: replacing one of these two forgets all targets. -/
theorem delegated_of_runCalls {s : TrustedMetadataSet} {calls : List Call}
    (hcalls : ∀ c ∈ calls, c.OfRoot ∨ c.OfTopLevel) {name : String} {m : Metadata Targets}
    (hname : name ≠ "targets") (hm : (runCalls E.toEnv s calls).targets.get? name = some m) :
    s.targets.get? name = some m ∧ (runCalls E.toEnv s calls).root = s.root ∧
    (runCalls E.toEnv s calls).snapshot = s.snapshot := by
  induction calls generalizing s with
  | nil => exact ⟨hm, rfl, rfl⟩
  | cons c calls ih =>
    rw [List.forall_mem_cons] at hcalls
    rw [runCalls, Runs.run_cons] at hm ⊢
    obtain ⟨hstep, hroot, hsnap⟩ := ih hcalls.2 hm
    obtain ⟨hs, hroot', hsnap'⟩ := delegated_of_step hcalls.1 hname hstep
    exact ⟨hs, hroot.trans hroot', hsnap.trans hsnap'⟩

/-- What was trusted in the past is so after one more call that leaves the root and the snapshot
alone. -/
theorem Past.later {u₀ : Updater} {ops : List Op} {op : Op} {m : Metadata Targets}
    (hroot : (runOps E u₀ (ops ++ [op])).trusted.root = (runOps E u₀ ops).trusted.root)
    (hsnap : (runOps E u₀ (ops ++ [op])).trusted.snapshot = (runOps E u₀ ops).trusted.snapshot)
    (h : Past E u₀ ops m) : Past E u₀ (ops ++ [op]) m := by
  obtain ⟨before, hbefore, hroot', hsnap', hm⟩ := h
  exact ⟨before, hbefore.trans (List.prefix_append _ _), hroot'.trans hroot.symm,
    hsnap'.trans hsnap.symm, hm⟩

/-- Each trusted delegated role is signed under the delegations of a file that was trusted under the
same root and snapshot. -/
theorem delegated_signed {u₀ : Updater} (h₀ : u₀.trusted.targets = BTreeMap.empty) (ops : List Op)
    {name : String} {m : Metadata Targets} (hname : name ≠ "targets")
    (hm : (runOps E u₀ ops).trusted.targets.get? name = some m) :
    ∃ delegator, Past E u₀ ops delegator ∧ SignedByDelegation E.toEnv m delegator name := by
  induction ops using List.reverseRecOn generalizing m with
  | nil =>
    rw [runOps, Runs.run_nil, h₀] at hm
    simp at hm
  | append_singleton ops op ih =>
    have hlast : runOps E u₀ (ops ++ [op]) = op.after E (runOps E u₀ ops) := Runs.run_concat _ _ _ _
    rcases Op.after_cases (E := E) (runOps E u₀ ops) op with ⟨R, now, rfl⟩ | ⟨R, hloads⟩
    · obtain ⟨calls, hcalls, htrusted⟩ := (refresh_does E R now (runOps E u₀ ops)).trusted
      have htrusted' : (runOps E u₀ (ops ++ [.refresh R now])).trusted =
          runCalls E.toEnv (runOps E u₀ ops).trusted calls := by
        rw [hlast]
        exact htrusted
      rw [htrusted'] at hm
      obtain ⟨hbefore, hroot, hsnap⟩ := delegated_of_runCalls hcalls hname hm
      rw [← htrusted'] at hroot hsnap
      obtain ⟨delegator, hpast, hsigned⟩ := ih hbefore
      exact ⟨delegator, hpast.later hroot hsnap, hsigned⟩
    · rw [← hlast] at hloads
      rcases hloads.loaded name m hm with hbefore | ⟨bytes, delegatorName, now, -, hcheck⟩
      · obtain ⟨delegator, hpast, hsigned⟩ := ih hbefore
        exact ⟨delegator, hpast.later hloads.root hloads.snapshot, hsigned⟩
      · obtain ⟨-, -, delegator, hdelegator, hsigned⟩ := checkDelegatedTargets_ok E.toEnv hcheck
        exact ⟨delegator, ⟨ops ++ [op], List.prefix_rfl, rfl, rfl, delegatorName, hdelegator⟩,
          hsigned⟩

/-- A call moves the trusted set by operations. So that every invariant of the trusted set over runs
of its operations is one of the client. -/
theorem Op.moves (u : Updater) (op : Op) :
    ∃ calls, (op.after E u).trusted = runCalls E.toEnv u.trusted calls := by
  have hmoves : ∀ {C W} {v : Updater}, Moves E.toEnv C W u v →
      ∃ calls, v.trusted = runCalls E.toEnv u.trusted calls := by
    rintro C W v ⟨⟨calls, -, htrusted⟩, -, -⟩
    exact ⟨calls, htrusted⟩
  cases op with
  | refresh R now => exact hmoves (refresh_does E R now u)
  | getTargetinfo R targetPath now => exact hmoves (getTargetinfo_does E R targetPath now u)
  | getTarget R targetPath now =>
    rw [Op.after]
    rcases getTarget_after E R targetPath now u with heq | ⟨target, v, hresolved, heq⟩
    · rw [heq]
      exact hmoves (getTargetinfo_does E R targetPath now u)
    · have hinfo := getTargetinfo_does E R targetPath now u
      rw [hresolved] at hinfo
      rw [heq]
      obtain ⟨calls, -, hcalls⟩ := hinfo.trusted
      obtain ⟨calls', -, hcalls'⟩ := (downloadTarget_does E R target targetPath v).trusted
      refine ⟨calls ++ calls', ?_⟩
      rw [hcalls', hcalls, runCalls, runCalls, runCalls, Runs.run_append]
  | downloadTarget R target targetPath => exact hmoves (downloadTarget_does E R target targetPath u)

/-- A client begins without targets, and everything that it trusts is signed, whatever it calls. The
initial set comes from `from_root`, and whatever the store adds to it are operations again. -/
theorem Starts.trusted {rootBytes : Bytes} {u₀ : Updater} (h : Starts E rootBytes u₀)
    (ops : List Op) : u₀.trusted.targets = BTreeMap.empty ∧
      Trusted E.toEnv (runOps E u₀ ops).trusted := by
  obtain ⟨u, config, hnew, hstart⟩ := h
  obtain ⟨s₀, hroot, hu⟩ := bind_eq_ok.1 hnew
  cases hu
  have hinitial : u₀.trusted.targets = BTreeMap.empty ∧ Trusted E.toEnv u₀.trusted := by
    have hs₀ : s₀.targets = BTreeMap.empty ∧ Trusted E.toEnv s₀ :=
      ⟨(fromRoot_ok E.toEnv hroot).2.2.2, trusted_fromRoot E.toEnv hroot⟩
    rcases hstart with rfl | ⟨store, hstore⟩
    · exact hs₀
    · obtain ⟨t, hadopt, hu₀⟩ := bind_eq_ok.1 hstore
      cases hu₀
      refine adoptCachedRoots_preserves (E := E.toEnv)
        (P := fun s => s.targets = BTreeMap.empty ∧ Trusted E.toEnv s) ?_ hs₀ hadopt
      intro s bytes hs
      refine ⟨?_, hs.2.step E.toEnv (.updateRoot bytes)⟩
      unfold updateRoot
      cases checkRoot E.toEnv s bytes with
      | error e => exact hs.1
      | ok m => rfl
  refine ⟨hinitial.1, ?_⟩
  refine Runs.run_invariant (Op.after E) (P := fun u => Trusted E.toEnv u.trusted)
    (fun u op hu => ?_) hinitial.2 ops
  obtain ⟨calls, hcalls⟩ := Op.moves (E := E) u op
  show Trusted E.toEnv (op.after E u).trusted
  rw [hcalls]
  exact Runs.run_invariant (step E.toEnv) (fun _ c hs => hs.step E.toEnv c) hu calls

/-! ## Authority along a chain -/

/-- A trusted role to which a chain of matching delegations leads from the top-level targets, where
every role is signed to the threshold and by the keys of the entries that lead to it. -/
inductive Authorized (E : ClientEnv) (s : TrustedMetadataSet) (targetPath : String) :
    String → Metadata Targets → Prop where
  | top {m : Metadata Targets} (trusted : s.targets.get? "targets" = some m)
    (signed : SignedByRole E.toEnv m s.root.signed "targets") :
    Authorized E s targetPath "targets" m
  | delegated {name : String} {m m' : Metadata Targets} {delegations : Delegations}
    {role : DelegatedRole} (chain : Authorized E s targetPath name m)
    (entry : HasEntry m delegations role) (matched : role.matchesPath E targetPath = .ok true)
    (trusted : s.targets.get? role.name = some m')
    (signed : ∀ r, HasEntry m delegations r → r.name = role.name →
      r.matchesPath E targetPath = .ok true →
      m'.SignedToThreshold E.primitives delegations.keys r.roleKeys) :
    Authorized E s targetPath role.name m'

/-- An authorized role is trusted. -/
theorem Authorized.trusted {s : TrustedMetadataSet} {targetPath name : String}
    {m : Metadata Targets} (h : Authorized E s targetPath name m) :
    s.targets.get? name = some m := by
  cases h with
  | top trusted => exact trusted
  | delegated chain entry matched trusted => exact trusted

/-- What is reached is authorized, where the delegations agree. By induction on the chain: where the
delegations agree, the entry under which the role was loaded and the entry of the chain are the
same. -/
theorem Reached.authorized {F : Metadata Targets → Prop} (hF : Agrees F) {s : TrustedMetadataSet}
    (htop : ∀ m, s.targets.get? "targets" = some m → SignedByRole E.toEnv m s.root.signed "targets")
    (hfiles : ∀ name m, s.targets.get? name = some m → F m)
    (hsigned : ∀ name m, name ≠ "targets" → s.targets.get? name = some m →
      ∃ delegator, F delegator ∧ SignedByDelegation E.toEnv m delegator name)
    {targetPath name : String} {m : Metadata Targets} (h : Reached E s targetPath name m) :
    Authorized E s targetPath name m := by
  induction h with
  | top trusted => exact .top trusted (htop _ trusted)
  | @delegated name m m' delegations role chain entry notTopLevel matched trusted ih =>
    refine .delegated ih entry matched trusted fun r hr hname _ => ?_
    have hne : role.name ≠ "targets" := by
      intro heq
      rw [heq] at notTopLevel
      exact absurd notTopLevel (by decide)
    obtain ⟨delegator, hF', delegations', role', hblock, hfind, hthreshold⟩ :=
      hsigned _ _ hne trusted
    have hsame := hF delegator m delegations' delegations role' r hF' (hfiles _ _ chain.trusted)
      ⟨hblock, List.mem_of_find?_eq_some hfind⟩ hr ((name_of_find? hfind).trans hname.symm)
    exact hsame.signedToThreshold hthreshold

/-- What the earlier lookups have loaded has not expired, and neither has the snapshot. -/
def LoadedFresh (E : ClientEnv) (now : Int) (u v : Updater) : Prop :=
  ∀ name m, v.trusted.targets.get? name = some m → u.trusted.targets.get? name = none →
    NotExpired E.toEnv m.signed now ∧
    ∀ snap, v.trusted.snapshot = some snap → NotExpired E.toEnv snap.signed now

variable (E)

/-- **Where delegations agree, a target is found by the authority of its path alone.** After any
calls of a client, and as long as all entries for one role have the same authority, in the files
that were trusted under the current root and snapshot and in those that the repository serves: a
target that a lookup returns is one of a role to which a chain of matching delegations leads from
the top-level targets, where each role is signed under the entries that lead to it; and the lookup
has the same outcome after any further lookups, as long as what they loaded has not expired. -/
theorem lookups_authorized {rootBytes : Bytes} {u₀ : Updater} (h₀ : Starts E rootBytes u₀)
    (ops : List Op) (R : Repository) (hagrees : Agrees (Files E u₀ ops R)) (targetPath : String)
    (now : Int) :
    (∀ target u', Returns (getTargetinfo E R targetPath now) (runOps E u₀ ops) (some target) u' →
      ∃ role m, Authorized E u'.trusted targetPath role m ∧
        m.signed.targets.get? targetPath = some target) ∧
    ∀ lookups, (∀ op ∈ lookups, Op.LooksUp R op) →
      LoadedFresh E now (runOps E u₀ ops) (runOps E u₀ (ops ++ lookups)) →
      (getTargetinfo E R targetPath now (runOps E u₀ (ops ++ lookups))).1 =
        (getTargetinfo E R targetPath now (runOps E u₀ ops)).1 := by
  have hpast : ∀ name m, (runOps E u₀ ops).trusted.targets.get? name = some m →
      Files E u₀ ops R m :=
    fun name m hm => .inl ⟨ops, List.prefix_rfl, rfl, rfl, name, hm⟩
  have hfiles : ∀ v, Loads E R (runOps E u₀ ops) v → ∀ name m,
      v.trusted.targets.get? name = some m → Files E u₀ ops R m := by
    intro v hloads name m hm
    rcases hloads.loaded name m hm with hbefore | hloaded
    · exact hpast name m hbefore
    · exact .inr ⟨name, hloaded.serves.congr hloads.root.symm hloads.snapshot.symm
        hloads.config.symm⟩
  refine ⟨fun target u' hfound => ?_, fun lookups hlookups hfresh => ?_⟩
  · obtain ⟨hloads, hresult⟩ :=
      getTargetinfo_spec (E := E) (R := R) targetPath now (runOps E u₀ ops)
    rw [hfound] at hloads hresult
    obtain ⟨role, m, hreached, htarget⟩ := hresult target rfl
    obtain ⟨hempty, htrusted⟩ := h₀.trusted ops
    refine ⟨role, m, hreached.authorized hagrees ?_ (hfiles u' hloads) ?_, htarget⟩
    · intro m hm
      rw [hloads.root]
      rcases hloads.loaded _ m hm with hbefore | ⟨_, _, _, -, hcheck⟩
      · exact htrusted.targets m hbefore
      · exact absurd rfl (checkDelegatedTargets_ok E.toEnv hcheck).1
    · intro name m hname hm
      rcases hloads.loaded name m hm with hbefore | ⟨bytes, delegatorName, now', -, hcheck⟩
      · obtain ⟨delegator, hdelegator, hsigned⟩ := delegated_signed hempty ops hname hbefore
        exact ⟨delegator, .inl hdelegator, hsigned⟩
      · obtain ⟨-, -, delegator, hdelegator, hsigned⟩ := checkDelegatedTargets_ok E.toEnv hcheck
        exact ⟨delegator, hfiles u' hloads _ _ hdelegator, hsigned⟩
  · have hrun : runOps E u₀ (ops ++ lookups) = Runs.run (Op.after E) (runOps E u₀ ops) lookups :=
      Runs.run_append _ _ _ _
    have hloads : Loads E R (runOps E u₀ ops) (runOps E u₀ (ops ++ lookups)) := by
      rw [hrun]
      refine Runs.run_mono (Op.after E) (P := fun _ => True) (C := fun _ op => op.LooksUp R)
        (fun _ _ _ _ => trivial) trivial (fun before op h => ?_) .refl .trans
        (fun u op _ hop => hop.loads u) List.nil_prefix (List.prefix_refl lookups)
      exact hlookups op (h.subset (by simp))
    have hahead : Ahead E R (Files E u₀ ops R) now (runOps E u₀ ops)
        (runOps E u₀ (ops ++ lookups)) :=
      { loads := hloads
        fresh := hfresh
        files := hfiles _ hloads
        served := fun name m hm => .inr ⟨name, hm⟩ }
    exact (hahead.getTargetinfo hagrees).symm

end

namespace Sample

/-- A delegations block with two keys. Each entry has a role, a key ID and a path. -/
def delegating (entries : List (String × String × String)) : String × Json :=
  ("delegations", .object [
    ("keys", .object [("k", .object [("keytype", .string "ed25519"),
        ("keyval", .object [("public", .string (String.ofList (List.replicate 64 '0')))]),
        ("scheme", .string "ed25519")]),
      ("x", .object [("keytype", .string "ed25519"),
        ("keyval", .object [("public", .string (String.ofList (List.replicate 64 '1')))]),
        ("scheme", .string "ed25519")])]),
    ("roles", .array (entries.map fun e => .object [("keyids", .array [.string e.2.1]),
      ("name", .string e.1), ("paths", .array [.string e.2.2]),
      ("threshold", .number (.posInt 1))]))])

/-- A targets file that lists paths as targets. -/
def listing (paths : List String) : Json :=
  signedBy (payload "targets" 1 [("targets", .object (paths.map fun path =>
    (path, .object [("hashes", .object [("sha256", .string "00")]),
      ("length", .number (.posInt 1))])))])

/-- Two delegators share the role `d`, which the key `k` has signed. The second one delegates it to
a key. -/
def sharedFiles (keyid : String) : List (String × Json) :=
  [("timestamp.json", timestamp 1 [("snapshot.json", 5)]),
    ("snapshot.json", signedBy (payload "snapshot" 5
      [pins [("a.json", 1), ("b.json", 1), ("d.json", 1), ("targets.json", 1)]])),
    ("targets.json", targets [delegating [("a", "k", "q"), ("b", "k", "p")]]),
    ("a.json", targets [delegating [("d", "k", "q")]]),
    ("b.json", targets [delegating [("d", keyid, "p")]]), ("d.json", listing ["p", "q"])]

def sharedEnv (keyid : String) : ClientEnv := clientEnv ((sharedFiles keyid).map (·.2))

def shared (keyid : String) : Repository := repository (sharedFiles keyid) []

end Sample

/-- What a sample repository serves is one of its files. The repository is a list, so that what it
serves can be enumerated and each file looked at. -/
theorem Sample.mem_of_serves {E : ClientEnv} {files : List (String × Json)}
    {targets : List (String × Bytes)} {u : Updater} {name : String} {m : Metadata Targets}
    (h : Serves E (repository files targets) u name m) :
    m ∈ files.filterMap fun f =>
      (Metadata.fromSlice E.toEnv (file f.2) : Except Error (Metadata Targets)).toOption := by
  obtain ⟨bytes, now, hfetch, hpin⟩ := h
  obtain ⟨⟨pin, -, hfetch⟩, -⟩ := (returns_fetchTargetsMetadata _).1 hfetch
  simp only [verifyTargetsPin, bind_eq_ok, pure_eq_ok] at hpin
  obtain ⟨_, -, _, -, _, -, _, -, m, hparse, -, -, rfl⟩ := hpin
  simp only [repository] at hfetch
  split at hfetch
  · cases hfetch
  · next v hlookup =>
    split at hfetch
    · cases hfetch
    · cases hfetch
      obtain ⟨before, after, rfl, -⟩ := List.lookup_eq_some_iff.1 hlookup
      refine List.mem_filterMap.2 ⟨(_, v), List.mem_append_right _ List.mem_cons_self, ?_⟩
      rw [hparse]
      rfl

/-- The delegations of all files agree, and the lookups of `p` before and after that of `q` find
what is not expired. -/
def Sample.sharedLookups : Bool :=
  match Updater.new (sharedEnv "k").toEnv (file root) with
  | .ok u =>
    let v := runOps (sharedEnv "k") u [.refresh (shared "k") 0]
    let w := runOps (sharedEnv "k") u [.refresh (shared "k") 0, .getTargetinfo (shared "k") "q" 0]
    let read (f : String × Json) : Except Error (Metadata Targets) :=
      Metadata.fromSlice (sharedEnv "k").toEnv (file f.2)
    let l := v.trusted.targets.entries.map (·.2) ++ (sharedFiles "k").filterMap fun f =>
      (read f).toOption
    decide (∀ m ∈ l, ∀ m' ∈ l, ∀ d ∈ m.signed.delegations, ∀ d' ∈ m'.signed.delegations,
      ∀ r ∈ d.roles, ∀ r' ∈ d'.roles, r.name = r'.name →
        SameAuthority d.keys r.roleKeys d'.keys r'.roleKeys) &&
    (match getTargetinfo (sharedEnv "k") (shared "k") "p" 0 v with
    | (.ok (some _), _) => true
    | _ => false) &&
    (w.trusted.targets.entries.all fun p =>
      (ensureNotExpired (sharedEnv "k").toEnv p.2.signed p.1 0).isOk) &&
    match w.trusted.snapshot with
    | some snap => (ensureNotExpired (sharedEnv "k").toEnv snap.signed "snapshot" 0).isOk
    | none => true
  | .error _ => false

/-- With agreeing delegations, the lookup of `p` returns a target by the authority of its path, and
it does so again after the lookup of `q`. -/
theorem lookups_authorized_shared :
    ∃ u u' target, Updater.new (Sample.sharedEnv "k").toEnv (Sample.file Sample.root) = .ok u ∧
      Returns (getTargetinfo (Sample.sharedEnv "k") (Sample.shared "k") "p" 0)
        (runOps (Sample.sharedEnv "k") u [.refresh (Sample.shared "k") 0]) (some target) u' ∧
      (∃ role m, Authorized (Sample.sharedEnv "k") u'.trusted "p" role m ∧
        m.signed.targets.get? "p" = some target) ∧
      (getTargetinfo (Sample.sharedEnv "k") (Sample.shared "k") "p" 0
        (runOps (Sample.sharedEnv "k") u [.refresh (Sample.shared "k") 0,
          .getTargetinfo (Sample.shared "k") "q" 0])).1 = .ok (some target) := by
  have heval : Sample.sharedLookups = true := by decide +kernel
  unfold Sample.sharedLookups at heval
  split at heval
  · next u hu =>
    simp only [Bool.and_eq_true] at heval
    obtain ⟨⟨⟨hlist, hfound⟩, hroles⟩, hsnapshot⟩ := heval
    have hagrees : Agrees (Files (Sample.sharedEnv "k") u [.refresh (Sample.shared "k") 0]
        (Sample.shared "k")) := by
      refine agrees_of_list _ (fun m hm => ?_) (of_decide_eq_true hlist)
      rcases hm with ⟨before, hbefore, -, -, name, hm⟩ | ⟨name, hm⟩
      · refine List.mem_append_left _ (List.mem_map.2 ⟨(name, m), ?_, rfl⟩)
        rcases before with _ | ⟨op, _ | ⟨op', rest⟩⟩
        · obtain ⟨s₀, hroot, hu₀⟩ := bind_eq_ok.1 hu
          cases hu₀
          have hempty : s₀.targets.get? name = some m := hm
          rw [(fromRoot_ok _ hroot).2.2.2] at hempty
          simp at hempty
        · obtain rfl := (List.cons_prefix_cons.1 hbefore).1
          exact (BTreeMap.mem_entries_iff _).2 hm
        · have hlength := hbefore.length_le
          simp at hlength
      · exact List.mem_append_right _ (Sample.mem_of_serves hm)
    split at hfound
    · next target u' hreturns =>
      have hstarts : Starts (Sample.sharedEnv "k") (Sample.file Sample.root) u :=
        ⟨u, u.config, hu, .inl rfl⟩
      obtain ⟨hauthorized, hsame⟩ := lookups_authorized (Sample.sharedEnv "k") hstarts
        [.refresh (Sample.shared "k") 0] (Sample.shared "k") hagrees "p" 0
      refine ⟨u, u', target, hu, hreturns, hauthorized target u' hreturns, ?_⟩
      have hlater := hsame [.getTargetinfo (Sample.shared "k") "q" 0] ?_ ?_
      · exact hlater.trans (congrArg Prod.fst hreturns)
      · intro op hop
        exact ⟨"q", 0, .inl (List.mem_singleton.1 hop)⟩
      · intro name m hm _
        have hrole := List.all_eq_true.1 hroles (name, m) ((BTreeMap.mem_entries_iff _).2 hm)
        obtain ⟨_, hrole⟩ := isOk_iff.1 hrole
        refine ⟨ensureNotExpired_ok.1 hrole, fun snap hsnap => ?_⟩
        have hsnap' : (runOps (Sample.sharedEnv "k") u [.refresh (Sample.shared "k") 0,
            .getTargetinfo (Sample.shared "k") "q" 0]).trusted.snapshot = some snap := hsnap
        rw [hsnap'] at hsnapshot
        obtain ⟨_, hsnapshot⟩ := isOk_iff.1 hsnapshot
        exact ensureNotExpired_ok.1 hsnapshot
    · cases hfound
  · cases heval

/-- Keys that have signed nothing do not meet a threshold. -/
theorem not_signedToThreshold {P : Primitives} {m : Metadata Targets} {keys : BTreeMap String Key}
    {roleKeys : RoleKeys} (h : ∀ sig ∈ m.signatures, sig.keyid ∉ roleKeys.keyids) :
    ¬ m.SignedToThreshold P keys roleKeys := by
  rintro ⟨hpos, signers, hcard, hsigned⟩
  have hne : 0 < signers.card := Nat.lt_of_lt_of_le (UInt64.lt_iff_toNat_lt.1 hpos) hcard
  obtain ⟨k, hk⟩ := Finset.card_pos.1 hne
  obtain ⟨hauth, sig, hsig, rfl, -⟩ := hsigned k hk
  exact h sig hsig hauth

/-- The lookup of `p` fails, and finds a target after that of `q`. Only `d` has the target, matching
entries lead to it by `x`, and `k` has signed it. -/
def Sample.crossedLookups : Bool :=
  match Updater.new (sharedEnv "x").toEnv (file root) with
  | .ok u =>
    (refresh (sharedEnv "x") (shared "x") 0 u).1.isOk &&
    !(getTargetinfo (sharedEnv "x") (shared "x") "p" 0
      (runOps (sharedEnv "x") u [.refresh (shared "x") 0])).1.isOk &&
    match getTargetinfo (sharedEnv "x") (shared "x") "p" 0
      (runOps (sharedEnv "x") u [.refresh (shared "x") 0, .getTargetinfo (shared "x") "q" 0]) with
    | (.ok (some _), u') => u'.trusted.targets.entries.all fun p =>
      decide (p.2.signed.targets.get? "p" = none ∨ p.1 = "d") &&
      decide (p.1 = "d" → ∀ sig ∈ p.2.signatures, sig.keyid = "k") &&
      decide (∀ d ∈ p.2.signed.delegations, ∀ r ∈ d.roles, r.name = "d" →
        (r.matchesPath (sharedEnv "x") "p").toOption = some true → r.keyids = ["x"])
    | _ => false
  | .error _ => false

/-- After a refresh, the lookup of `p` fails. After the lookup of `q` it returns a target, although
no role that has the target is signed by the keys of the entries that lead to it. -/
theorem lookups_authorized_fails :
    ∃ u u' target, Updater.new (Sample.sharedEnv "x").toEnv (Sample.file Sample.root) = .ok u ∧
      (refresh (Sample.sharedEnv "x") (Sample.shared "x") 0 u).1 = .ok () ∧
      (getTargetinfo (Sample.sharedEnv "x") (Sample.shared "x") "p" 0
        (runOps (Sample.sharedEnv "x") u [.refresh (Sample.shared "x") 0])).1.isOk = false ∧
      Returns (getTargetinfo (Sample.sharedEnv "x") (Sample.shared "x") "p" 0)
        (runOps (Sample.sharedEnv "x") u [.refresh (Sample.shared "x") 0,
          .getTargetinfo (Sample.shared "x") "q" 0]) (some target) u' ∧
      ∀ role m, Authorized (Sample.sharedEnv "x") u'.trusted "p" role m →
        m.signed.targets.get? "p" = none := by
  have heval : Sample.crossedLookups = true := by decide +kernel
  unfold Sample.crossedLookups at heval
  split at heval
  · next u hu =>
    simp only [Bool.and_eq_true, Bool.not_eq_true'] at heval
    obtain ⟨⟨hrefresh, hfails⟩, heval⟩ := heval
    obtain ⟨_, hrefresh⟩ := isOk_iff.1 hrefresh
    split at heval
    · next target u' hfound =>
      have hentry : ∀ name m, u'.trusted.targets.get? name = some m →
          (m.signed.targets.get? "p" = none ∨ name = "d") ∧
          (name = "d" → ∀ sig ∈ m.signatures, sig.keyid = "k") ∧
          ∀ d ∈ m.signed.delegations, ∀ r ∈ d.roles, r.name = "d" →
            (r.matchesPath (Sample.sharedEnv "x") "p").toOption = some true → r.keyids = ["x"] := by
        intro name m hm
        have hall := List.all_eq_true.1 heval (name, m) ((BTreeMap.mem_entries_iff _).2 hm)
        simp only [Bool.and_eq_true, decide_eq_true_eq] at hall
        exact ⟨hall.1.1, hall.1.2, hall.2⟩
      refine ⟨u, u', target, hu, hrefresh, hfails, hfound, fun role m hauth => ?_⟩
      obtain ⟨htarget, hsigs, -⟩ := hentry role m hauth.trusted
      refine htarget.resolve_right fun hrole => ?_
      cases hauth with
      | top => exact absurd hrole (by decide)
      | @delegated name m₀ _ delegations r chain entry matched trusted signed =>
        obtain ⟨-, -, hkeyids⟩ := hentry name m₀ chain.trusted
        have hx := hkeyids delegations entry.1 r entry.2 hrole (by rw [matched]; rfl)
        refine not_signedToThreshold (fun sig hsig => ?_) (signed r entry rfl matched)
        show sig.keyid ∉ r.keyids
        rw [hx, hsigs hrole sig hsig]
        decide
    · cases heval
  · cases heval

end Sigstore.Tuf
