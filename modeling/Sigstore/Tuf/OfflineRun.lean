import Sigstore.Tuf.Chain
import Sigstore.Tuf.Offline

/-!
# Runs without the network

What an online run has left in its store is to serve an offline run from the same root. The online
run stores metadata under plain names, the next roots apart from the rest, and the offline run asks
for it by the names that the pinned root calls for and verifies it under the pinned root. So it
succeeds exactly where the pinned root asks for plain names and has signed what the online run came
to trust (`offline_equivalent`).
-/

namespace Sigstore.Tuf

open Checks StateAction TrustedMetadataSet

/-- An online run: the client starts from the pinned root with an empty store, refreshes, and gets a
target. -/
structure OnlineRun (E : ClientEnv) (pinned : Updater) (config : UpdaterConfig)
    (targetPath : String) where
  store : MetadataStore
  empty : ∀ name, store.load name = none
  attached : Updater
  attach : (pinned.withConfig config).withStore E.toEnv store = .ok attached
  repository : Repository
  bounded : repository.Bounded
  refreshTime : Int
  refreshed : Updater
  refreshes : Returns (refresh E repository refreshTime) attached () refreshed
  targetRepository : Repository
  targetBounded : targetRepository.Bounded
  targetTime : Int
  bytes : Bytes
  finished : Updater
  gets : Returns (getTarget E targetRepository targetPath targetTime) refreshed bytes finished

section
variable (E : ClientEnv)

/-- An offline run: the client starts from the pinned root over the store, refreshes, and gets the
target. -/
def RunsOffline (pinned : Updater) (config : UpdaterConfig) (st : MetadataStore)
    (targetPath : String) (refreshTime targetTime : Int) (bytes : Bytes) : Prop :=
  ∃ v₁ v₂,
    Returns (refresh E (StoreRepository.new st) refreshTime) (pinned.withConfig config) () v₁ ∧
    Returns (getTarget E (StoreRepository.new st) targetPath targetTime) v₁ bytes v₂

/-- Neither the pinned root nor anything that is trusted has expired. -/
structure NothingExpired (pinned : Root) (s : TrustedMetadataSet) (now : Int) : Prop where
  root : NotExpired E.toEnv pinned now
  timestamp : ∀ ts, s.timestamp = some ts → NotExpired E.toEnv ts.signed now
  snapshot : ∀ snap, s.snapshot = some snap → NotExpired E.toEnv snap.signed now
  targets : ∀ role m, s.targets.get? role = some m → NotExpired E.toEnv m.signed now

/-- The pinned root's roles have signed the trusted top-level metadata. -/
structure SignedByPinned (pinned : Root) (s : TrustedMetadataSet) : Prop where
  timestamp : ∀ ts, s.timestamp = some ts → verifyWithRoot E.toEnv ts pinned "timestamp" = .ok ()
  snapshot : ∀ snap, s.snapshot = some snap → verifyWithRoot E.toEnv snap pinned "snapshot" = .ok ()
  targets : ∀ tgt, s.targets.get? "targets" = some tgt →
    verifyWithRoot E.toEnv tgt pinned "targets" = .ok ()

/-- The store holds the files of the trusted metadata, and one for the target. -/
structure Kept (st : MetadataStore) (s : TrustedMetadataSet) (targetPath : String) : Prop where
  timestamp : ∀ ts, s.timestamp = some ts → ∃ bytes, st.load "timestamp.json" = some bytes ∧
    Metadata.fromSlice E.toEnv bytes = .ok ts
  snapshot : ∀ snap, s.snapshot = some snap → ∃ bytes, st.load "snapshot.json" = some bytes ∧
    Metadata.fromSlice E.toEnv bytes = .ok snap
  targets : ∀ role m, s.targets.get? role = some m → KeptRole E.toEnv st role m
  target : (st.load s!"targets/{targetPath}").isSome

/-- The store can serve an offline run from the pinned root. -/
structure OfflineReady (pinned : Root) (st : MetadataStore) (s : TrustedMetadataSet)
    (targetPath : String) : Prop where
  plain : pinned.consistentSnapshot = false
  noNextRoot : st.load s!"{pinned.version + 1}.root.json" = none
  signed : SignedByPinned E pinned s
  kept : Kept E st s targetPath

end

section
variable {E : ClientEnv} {pinned : Updater} {config : UpdaterConfig} {targetPath : String}

/-- How an online run went: the chain that its refresh accepted, the target that it resolved, and
the updater before the download. -/
structure OnlineRun.Course (run : OnlineRun E pinned config targetPath) (T : TopLevel E.toEnv)
    (target : TargetFile) (w : Updater) : Prop where
  range : ∃ count, rootRange E pinned.trusted.root.signed.version config.maxRootRotations =
    .ok (count + 1)
  refreshed : run.refreshed.trusted = T.trusted run.refreshed.trusted.root
  limits : w.config = config
  resolved : Returns (getTargetinfo E run.targetRepository targetPath run.targetTime) run.refreshed
    (some target) w
  loads : Loads E run.targetRepository run.refreshed w
  timestamp : w.trusted.timestamp = some T.timestamp
  caches : Caches E.toEnv w
  length : ¬ target.length > config.targetMaxLength
  verified : verifyTargetBytes E run.bytes target targetPath = .ok ()
  finished : run.finished =
    { w with store := w.store.map (·.store s!"targets/{targetPath}" run.bytes) }

/-- A client that is bootstrapped trusts the root only and has no store. -/
theorem new_fresh {rootBytes : Bytes} (h : Updater.new E.toEnv rootBytes = .ok pinned) :
    Fresh pinned.trusted ∧ pinned.store = none := by
  obtain ⟨s₀, hroot, hu⟩ := bind_eq_ok.1 h
  cases hu
  obtain ⟨-, hts, hsnap, -⟩ := fromRoot_ok E.toEnv hroot
  exact ⟨⟨hts, hsnap⟩, rfl⟩

/-- Attaching an empty store changes nothing else. -/
theorem OnlineRun.attached_eq (run : OnlineRun E pinned config targetPath) :
    run.attached = { pinned.withConfig config with store := some run.store } := by
  obtain ⟨t, hadopt, hu⟩ := bind_eq_ok.1 run.attach
  obtain rfl : t = pinned.trusted := adoptCachedRoots_none (run.empty _) hadopt
  exact (Except.ok.inj hu).symm

/-- Every run that downloads its target took a course: its refresh accepted a chain of top-level
metadata, and its lookup returned the target. -/
theorem OnlineRun.course {rootBytes : Bytes} (hnew : Updater.new E.toEnv rootBytes = .ok pinned)
    (run : OnlineRun E pinned config targetPath) : ∃ T target w, run.Course T target w := by
  have hattached := run.attached_eq
  have hfresh : Fresh run.attached.trusted := by
    rw [hattached]
    exact (new_fresh hnew).1
  have hempty : ∀ name, run.attached.stored name = none := by
    intro name
    rw [hattached]
    exact run.empty name
  obtain ⟨u₁, T, hwalk, -, hserved, -, -, hrefreshed⟩ :=
    (refresh_returns hfresh fun name _ => hempty name).1 run.refreshes
  obtain ⟨-, hconfig, hroots⟩ := refreshRoot_fresh hfresh hwalk
  have hconfig₁ : u₁.config = config := by
    rw [hconfig, hattached]
    rfl
  have hcaches : Caches E.toEnv run.refreshed := by
    rw [hrefreshed]
    refine TopLevel.caches_accept run.bounded hserved fun name bytes hstored => ?_
    refine (hroots name).resolve_left fun hsame => ?_
    cases (hempty name).symm.trans (hsame.symm.trans hstored)
  have hkeeps : ∀ found w, Returns (getTargetinfo E run.targetRepository targetPath run.targetTime)
      run.refreshed found w → KeepsCache E.toEnv run.refreshed w := by
    intro found w hinfo
    have hkeeps := keepsCache_getTargetinfo (E := E) run.targetBounded targetPath run.targetTime
      run.refreshed
    rwa [hinfo] at hkeeps
  have hmiss : ∀ found w, Returns (getTargetinfo E run.targetRepository targetPath run.targetTime)
      run.refreshed found w → w.stored s!"targets/{targetPath}" = none := by
    intro found w hinfo
    cases hstored : w.stored s!"targets/{targetPath}" with
    | none => rfl
    | some bytes =>
      exact absurd ((hkeeps found w hinfo).caches hcaches _ bytes hstored) CachedAs.not_target
  obtain ⟨target, w, hinfo, hdownload⟩ := (getTarget_returns hmiss).1 run.gets
  obtain ⟨hlength, -, hverified, hfinished⟩ := downloadTarget_returns.1 hdownload
  have hloads : Loads E run.targetRepository run.refreshed w := by
    have hloads := (getTargetinfo_spec (E := E) (R := run.targetRepository) targetPath
      run.targetTime run.refreshed).1
    rwa [hinfo] at hloads
  have hconfig' : w.config = config := by
    rw [hloads.config, hrefreshed]
    exact hconfig₁
  refine ⟨T, target, w, {
    range := ?_
    refreshed := by rw [hrefreshed]; rfl
    limits := hconfig'
    resolved := hinfo
    loads := hloads
    timestamp := ?_
    caches := (hkeeps _ w hinfo).caches hcaches
    length := hconfig' ▸ hlength
    verified := hverified
    finished := hfinished }⟩
  · obtain ⟨count, hrange, -⟩ := refreshRoot_returns.1 hwalk
    rw [hattached] at hrange
    exact ⟨count, hrange⟩
  · rw [(hkeeps _ w hinfo).timestamp, hrefreshed]
    rfl

/-! ## What the store serves -/

section
variable {run : OnlineRun E pinned config targetPath} {T : TopLevel E.toEnv} {target : TargetFile}
  {w : Updater} {st : MetadataStore}

/-- What a run ends with is what it resolved its target with: the download trusts nothing new. -/
theorem OnlineRun.Course.trusted (h : run.Course T target w) :
    run.finished.trusted = w.trusted ∧ w.trusted.snapshot = some T.snapshot ∧
    w.trusted.targets.get? "targets" = some T.targets := by
  refine ⟨by rw [h.finished], ?_, h.loads.keeps _ _ ?_⟩
  · rw [h.loads.snapshot, h.refreshed]
    rfl
  · rw [h.refreshed]
    exact BTreeMap.get?_insert_self _ _ _

/-- The only role that the refresh has trusted is the top-level one. -/
theorem OnlineRun.Course.role_of_refreshed (h : run.Course T target w) {role : String}
    {m : Metadata Targets} (hm : run.refreshed.trusted.targets.get? role = some m) :
    role = "targets" := by
  rw [h.refreshed] at hm
  rcases BTreeMap.get?_insert_eq_some hm with ⟨rfl, -⟩ | ⟨-, hm⟩
  · rfl
  · simp at hm

section
variable (h : run.Course T target w) (hst : run.finished.store = some st)
include h hst

/-- A stored file is what its name tells, or the target. -/
theorem OnlineRun.Course.stored {name : String} {bytes : Bytes}
    (hload : st.load name = some bytes) : CachedAs E.toEnv config w.trusted name bytes ∨
      (name = s!"targets/{targetPath}" ∧ bytes = run.bytes) := by
  rw [h.finished] at hst
  obtain ⟨st₀, hst₀, rfl⟩ := Option.map_eq_some_iff.1 hst
  refine (MetadataStore.load_store_some hload).imp_left fun hload => ?_
  rw [← h.limits]
  refine h.caches name bytes ?_
  rw [Updater.stored, hst₀]
  exact hload

/-- A stored file that is not the target's is a root file or a file of what is trusted. -/
theorem OnlineRun.Course.stored_metadata {name : String} {bytes : Bytes}
    (hload : st.load name = some bytes) (hname : name ≠ s!"targets/{targetPath}") :
    CachedAs E.toEnv config w.trusted name bytes :=
  (h.stored hst hload).resolve_right fun htarget => hname htarget.1

/-- Of the targets only the one that was downloaded is stored. -/
theorem OnlineRun.Course.stored_target {path : String} {bytes : Bytes}
    (hload : st.load s!"targets/{path}" = some bytes) : path = targetPath ∧ bytes = run.bytes := by
  obtain ⟨hname, hbytes⟩ := (h.stored hst hload).resolve_left CachedAs.not_target
  exact ⟨target_name_inj hname, hbytes⟩

/-- The stored timestamp is the accepted one, within its length limit. -/
theorem OnlineRun.Course.stored_timestamp {bytes : Bytes}
    (hload : st.load "timestamp.json" = some bytes) :
    Metadata.fromSlice E.toEnv bytes = .ok T.timestamp ∧
    ¬ UInt64.ofNat bytes.length > config.timestampMaxLength := by
  have hname := ne_target (.inr (.inl rfl)) targetPath
  obtain ⟨ts, hts, hparse, hbounded⟩ := (h.stored_metadata hst hload hname).of_timestamp
  obtain rfl : ts = T.timestamp := Option.some.inj (hts.symm.trans h.timestamp)
  exact ⟨hparse, hbounded⟩

/-- The stored snapshot is the one that the accepted timestamp pins, within its length limit. -/
theorem OnlineRun.Course.stored_snapshot {bytes : Bytes}
    (hload : st.load "snapshot.json" = some bytes) :
    PinsSnapshot E.toEnv T.timestamp.signed bytes T.snapshot ∧
    ¬ UInt64.ofNat bytes.length > config.snapshotMaxLength := by
  have hname := ne_target (.inr (.inr (.inl (.inl rfl)))) targetPath
  obtain ⟨ts, snap, hts, hsnap, hpins, hbounded⟩ :=
    (h.stored_metadata hst hload hname).of_snapshot
  obtain rfl : ts = T.timestamp := Option.some.inj (hts.symm.trans h.timestamp)
  obtain rfl : snap = T.snapshot := Option.some.inj (hsnap.symm.trans h.trusted.2.1)
  exact ⟨hpins, hbounded⟩

/-- The stored file of a targets role is the one that is trusted under the role's name. -/
theorem OnlineRun.Course.stored_role {role : String} {bytes : Bytes}
    (hload : st.load (roleFileName role) = some bytes) :
    CachedAs E.toEnv config w.trusted (roleFileName role) bytes :=
  h.stored_metadata hst hload (ne_target (.inr (.inr (.inr (.inr ⟨role, rfl⟩)))) targetPath)

/-- A targets file that is stored as the top-level one is the one that the refresh accepted. -/
theorem OnlineRun.Course.stored_targets {bytes : Bytes} {m : Metadata Targets}
    (hload : st.load (roleFileName "targets") = some bytes)
    (hparse : Metadata.fromSlice E.toEnv bytes = .ok m) : m = T.targets ∧
    PinsTargets E.toEnv T.snapshot.signed "targets" bytes T.targets ∧
    ¬ UInt64.ofNat bytes.length > config.targetsMaxLength := by
  rcases (h.stored_role hst hload).of_role (.inl rfl) with
    ⟨m', hparse'⟩ | ⟨snap, m', hsnap, hm', hpins, hbounded⟩
  · exact absurd hparse (snapshot_excludes hparse' (by decide) m)
  · obtain rfl : snap = T.snapshot := Option.some.inj (hsnap.symm.trans h.trusted.2.1)
    obtain rfl : m' = T.targets := Option.some.inj (hm'.symm.trans h.trusted.2.2)
    exact ⟨Except.ok.inj (hparse.symm.trans hpins.parsed), hpins, hbounded⟩

/-- A chain that the store serves under plain names is the one that the refresh accepted. The files
under the plain names are those of the online run, and bytes that are read twice have one meaning.
-/
theorem OnlineRun.Course.chain_eq {T' : TopLevel E.toEnv}
    (hserved : T'.ServedBy (StoreRepository.new st) config false) :
    st.load "timestamp.json" = some T'.timestampBytes ∧
    st.load "snapshot.json" = some T'.snapshotBytes ∧
    st.load (roleFileName "targets") = some T'.targetsBytes ∧
    T'.timestamp = T.timestamp ∧ T'.snapshot = T.snapshot ∧ T'.targets = T.targets := by
  have hts := (StoreRepository.read_some.1 hserved.timestamp).1
  have hsnap := (StoreRepository.read_some.1 hserved.snapshot).1
  have htgt := (StoreRepository.read_some.1 hserved.targets).1
  refine ⟨hts, hsnap, htgt, ?_, ?_, (h.stored_targets hst htgt T'.pinsTargets.parsed).1⟩
  · exact Except.ok.inj (T'.parsed.symm.trans (h.stored_timestamp hst hts).1)
  · exact Except.ok.inj (T'.pinsSnapshot.parsed.symm.trans (h.stored_snapshot hst hsnap).1.parsed)

/-- The offline client walks no root and accepts a chain that the store serves. The walk ends at
once, since the next root is stored under another name, and the chain is checked against the offline
client's clock. -/
theorem OnlineRun.Course.refresh_offline (hfresh : Fresh pinned.trusted)
    (hdetached : pinned.store = none) {now : Int}
    (hroot : NotExpired E.toEnv pinned.trusted.root.signed now) {v : Updater} :
    Returns (refresh E (StoreRepository.new st) now) (pinned.withConfig config) () v ↔
      st.load s!"{pinned.trusted.root.signed.version + 1}.root.json" = none ∧
      ∃ T' : TopLevel E.toEnv, T'.ServedBy (StoreRepository.new st) config
        pinned.trusted.root.signed.consistentSnapshot ∧
      T'.SignedUnder pinned.trusted.root.signed ∧ T'.Unexpired now ∧
      v = T'.accept (pinned.withConfig config) := by
  obtain ⟨count, hrange⟩ := h.range
  have hnone : ∀ name, (pinned.withConfig config).stored name = none := by
    intro name
    rw [Updater.stored, Updater.withConfig, hdetached]
    rfl
  have hwalk : ∀ {v'}, Returns (refreshRoot E (StoreRepository.new st)) (pinned.withConfig config)
      () v' ↔ st.load s!"{pinned.trusted.root.signed.version + 1}.root.json" = none ∧
        v' = pinned.withConfig config := by
    refine refreshRoot_offline hrange fun bytes hload m => ?_
    have hname : s!"{pinned.trusted.root.signed.version + 1}.root.json" ≠
        s!"targets/{targetPath}" := versioned_ne (c := 't') (by decide) ?_
    · exact (h.stored_metadata hst hload hname).not_nextRoot m
    · rw [String.toList_append]
      rfl
  have hfresh' : Fresh (pinned.withConfig config).trusted := hfresh
  rw [refresh_returns hfresh' fun name _ => hnone name]
  constructor
  · rintro ⟨v', T', hv', -, hserved, hsigned, hunexpired, rfl⟩
    obtain ⟨hnext, rfl⟩ := hwalk.1 hv'
    exact ⟨hnext, T', hserved, hsigned, hunexpired, rfl⟩
  · rintro ⟨hnext, T', hserved, hsigned, hunexpired, rfl⟩
    exact ⟨_, T', hwalk.2 ⟨hnext, rfl⟩, hroot, hserved, hsigned, hunexpired, rfl⟩

/-- The offline lookup follows the online one. Both clients have accepted the same chain, so that
the offline search can mirror the online one from the first visit on. -/
theorem OnlineRun.Course.follows (hdetached : pinned.store = none)
    (hplain : pinned.trusted.root.signed.consistentSnapshot = false) {T' : TopLevel E.toEnv}
    (hsnap : T'.snapshot = T.snapshot) (htgt : T'.targets = T.targets) {now : Int}
    (hnow : NothingExpired E pinned.trusted.root.signed run.finished.trusted now) :
    Follows E.toEnv st run.refreshed w (some target)
      (getTargetinfo E (StoreRepository.new st) targetPath now
        (T'.accept (pinned.withConfig config))) := by
  have hconfig : run.refreshed.config = config := h.loads.config.symm.trans h.limits
  have htop : run.refreshed.trusted.targets.get? "targets" = some T.targets := by
    rw [h.refreshed]
    exact BTreeMap.get?_insert_self _ _ _
  have hmirrors : Mirrors run.refreshed (T'.accept (pinned.withConfig config)) := {
    targets := by rw [h.refreshed]; exact congrArg (BTreeMap.insert _ "targets") htgt
    snapshot := by rw [h.refreshed]; exact congrArg some hsnap
    config := hconfig.symm
    plain := hplain
    detached := by rw [TopLevel.accept, Updater.withConfig, hdetached]; rfl }
  have hresolved := h.resolved
  rw [Returns, getTargetinfo_eq _ _ htop] at hresolved
  have htop' : (T'.accept (pinned.withConfig config)).trusted.targets.get? "targets" =
      some T'.targets := BTreeMap.get?_insert_self _ _ _
  rw [getTargetinfo_eq _ _ htop',
    show (T'.accept (pinned.withConfig config)).config = run.refreshed.config from hconfig.symm]
  rw [h.trusted.1] at hnow
  refine hmirrors.search htop _ _ _ ?_ hresolved
  rw [hconfig]
  exact ⟨fun role bytes _ hload => h.stored_role hst hload, hnow.snapshot, hnow.targets⟩

end

end

/-- Looking a target up attaches no store. -/
theorem detached_of_getTargetinfo {R : Repository} {now : Int} {v w : Updater}
    {found : Option TargetFile} (hv : v.store = none)
    (h : Returns (getTargetinfo E R targetPath now) v found w) : w.store = none := by
  have hstore := ((getTargetinfo_does E R targetPath now).returns h).store
  rw [hv] at hstore
  cases hw : w.store with
  | none => rfl
  | some st =>
    rw [hw] at hstore
    exact hstore.elim

/-- An offline client that resolves a target reads it from the store. It has no store of its own, so
that the cached file is never looked for and the repository is the store. -/
theorem getTarget_offline {st : MetadataStore} {v v₂ : Updater} {now : Int} {bytes : Bytes}
    (hv : v.store = none) :
    Returns (getTarget E (StoreRepository.new st) targetPath now) v bytes v₂ ↔ ∃ target w,
      Returns (getTargetinfo E (StoreRepository.new st) targetPath now) v (some target) w ∧
      ¬ target.length > w.config.targetMaxLength ∧
      (∃ path, targetLocation w.trusted.root.signed.consistentSnapshot target targetPath =
        .ok path ∧ st.load s!"targets/{path}" = some bytes ∧
        ¬ UInt64.ofNat bytes.length > target.length) ∧
      verifyTargetBytes E bytes target targetPath = .ok () ∧ v₂ = w := by
  have hmiss : ∀ found w, Returns (getTargetinfo E (StoreRepository.new st) targetPath now) v found
      w → w.stored s!"targets/{targetPath}" = none := by
    intro found w hinfo
    rw [Updater.stored, detached_of_getTargetinfo hv hinfo]
    rfl
  rw [getTarget_returns hmiss]
  refine exists_congr fun target => exists_congr fun w => and_congr_right fun hinfo => ?_
  have hw : w.store = none := detached_of_getTargetinfo hv hinfo
  rw [downloadTarget_returns]
  refine and_congr_right fun _ => and_congr (exists_congr fun path => and_congr_right fun _ =>
    StoreRepository.read_some) (and_congr_right fun _ => ?_)
  rw [hw, Option.map_none, ← hw]

/-- A path is split at a slash into a directory and a name. The name is what follows the last slash.
-/
theorem length_of_rsplitSlash {path dir name : String} (h : rsplitSlash path = some (dir, name)) :
    path.length = dir.length + 1 + name.length := by
  have hparts : (path.toList.reverse.takeWhile (· ≠ '/')).length +
      (path.toList.reverse.dropWhile (· ≠ '/')).length = path.length := by
    rw [← List.length_append, List.takeWhile_append_dropWhile, List.length_reverse,
      String.length_toList]
  unfold rsplitSlash at h
  dsimp only at h
  split at h
  · cases h
  · next c rest hdrop =>
    cases h
    rw [hdrop, List.length_cons] at hparts
    rw [String.length_ofList, String.length_ofList, List.length_reverse, List.length_reverse]
    omega

/-- With consistent snapshots a target is asked for by another path than its own. It is longer by
the hash and a separator, so that no stored file can be mistaken for it. -/
theorem targetLocation_ne {target : TargetFile} {path : String}
    (h : targetLocation true target targetPath = .ok path) : path ≠ targetPath := by
  rw [targetLocation, if_pos rfl] at h
  obtain ⟨⟨_, hash⟩, -, h⟩ := bind_eq_ok.1 h
  have hlonger : targetPath.length < path.length := by
    dsimp only at h
    split at h
    · next dir name hsplit =>
      cases h
      simp only [String.length_append, toString, length_of_rsplitSlash hsplit]
      have hslash : "/".length = 1 := rfl
      have hdot : ".".length = 1 := rfl
      omega
    · cases h
      simp only [String.length_append, toString]
      have hdot : ".".length = 1 := rfl
      omega
  rintro rfl
  exact absurd hlonger (Nat.lt_irrefl _)

variable (E)

/-- **What an online run stores serves an offline run where the pinned root has plain names and has
signed it.** For every online run that starts with an empty store and gets a target, whatever the
repositories are: as long as nothing has expired, a client over that store, from the same pinned
root and with the same limits, gets the same target if and only if the pinned root asks for no
consistent snapshots, no file is stored under the name of the next root, the pinned root's roles
have signed the top-level metadata, and the store has kept the files. -/
theorem offline_equivalent {rootBytes : Bytes}
    (hnew : Updater.new E.toEnv rootBytes = .ok pinned)
    (run : OnlineRun E pinned config targetPath) {st : MetadataStore}
    (hst : run.finished.store = some st) {now now' : Int}
    (hnow : NothingExpired E pinned.trusted.root.signed run.finished.trusted now)
    (hnow' : NothingExpired E pinned.trusted.root.signed run.finished.trusted now') :
    RunsOffline E pinned config st targetPath now now' run.bytes ↔
      OfflineReady E pinned.trusted.root.signed st run.finished.trusted targetPath := by
  obtain ⟨hfresh, hdetached⟩ := new_fresh hnew
  obtain ⟨T, target, w, h⟩ := run.course hnew
  obtain ⟨htrusted, hsnapshot, htargets⟩ := h.trusted
  have hdetached' : ∀ T' : TopLevel E.toEnv,
      (T'.accept (pinned.withConfig config)).store = none := by
    intro T'
    rw [TopLevel.accept, Updater.withConfig, hdetached]
    rfl
  constructor
  · rintro ⟨v₁, v₂, hrefresh, hget⟩
    obtain ⟨hnext, T', hserved, hsigned, -, rfl⟩ :=
      (h.refresh_offline hst hfresh hdetached hnow.root).1 hrefresh
    obtain ⟨target', v, hinfo, -, ⟨path, hpath, hload, -⟩, -, -⟩ :=
      (getTarget_offline (hdetached' T')).1 hget
    have hroot : v.trusted.root = pinned.trusted.root := by
      have hloads := (getTargetinfo_spec (E := E) (R := StoreRepository.new st) targetPath now'
        (T'.accept (pinned.withConfig config))).1
      rw [hinfo] at hloads
      exact hloads.root
    have hplain : pinned.trusted.root.signed.consistentSnapshot = false := by
      -- with consistent snapshots the target is not found in the store
      refine Bool.eq_false_iff.2 fun hconsistent => ?_
      rw [hroot, hconsistent] at hpath
      exact targetLocation_ne hpath (h.stored_target hst hload).1
    rw [hplain] at hserved
    obtain ⟨hts, hsnap, htgt, htsEq, hsnapEq, htgtEq⟩ := h.chain_eq hst hserved
    rcases h.follows hst hdetached hplain hsnapEq htgtEq hnow' with
      ⟨hkept, -⟩ | ⟨-, e, v', hfails⟩
    · rw [hroot, hplain] at hpath
      cases hpath
      rw [htrusted]
      refine ⟨hplain, hnext, ⟨?_, ?_, ?_⟩, ⟨?_, ?_, ?_, ?_⟩⟩
      · intro ts hts'
        cases h.timestamp.symm.trans hts'
        exact htsEq ▸ hsigned.timestamp
      · intro snap hsnap'
        cases hsnapshot.symm.trans hsnap'
        exact hsnapEq ▸ hsigned.snapshot
      · intro tgt htgt'
        cases htargets.symm.trans htgt'
        exact htgtEq ▸ hsigned.targets
      · intro ts hts'
        cases h.timestamp.symm.trans hts'
        exact ⟨_, hts, htsEq ▸ T'.parsed⟩
      · intro snap hsnap'
        cases hsnapshot.symm.trans hsnap'
        exact ⟨_, hsnap, hsnapEq ▸ T'.pinsSnapshot.parsed⟩
      · intro role m hm
        cases hbefore : run.refreshed.trusted.targets.get? role with
        | none => exact hkept role m hm hbefore
        | some m' =>
          obtain rfl := h.role_of_refreshed hbefore
          cases htargets.symm.trans hm
          exact ⟨_, htgt, htgtEq ▸ T'.pinsTargets.parsed⟩
      · rw [hload]
        rfl
    · cases hfails.symm.trans hinfo
  · intro hready
    rw [htrusted] at hready hnow
    obtain ⟨tsBytes, hts, htsParse⟩ := hready.kept.timestamp _ h.timestamp
    obtain ⟨snapBytes, hsnap, -⟩ := hready.kept.snapshot _ hsnapshot
    obtain ⟨tgtBytes, htgt, htgtParse⟩ := hready.kept.targets _ _ htargets
    have htsBounded := (h.stored_timestamp hst hts).2
    obtain ⟨hsnapPins, hsnapBounded⟩ := h.stored_snapshot hst hsnap
    obtain ⟨-, htgtPins, htgtBounded⟩ := h.stored_targets hst htgt htgtParse
    obtain ⟨T', hT'⟩ : ∃ T' : TopLevel E.toEnv, T' =
        { timestampBytes := tsBytes, timestamp := T.timestamp, snapshotBytes := snapBytes
          snapshot := T.snapshot, targetsBytes := tgtBytes, targets := T.targets
          parsed := htsParse, pinsSnapshot := hsnapPins, pinsTargets := htgtPins } := ⟨_, rfl⟩
    have hrefresh : Returns (refresh E (StoreRepository.new st) now) (pinned.withConfig config) ()
        (T'.accept (pinned.withConfig config)) := by
      refine (h.refresh_offline hst hfresh hdetached hnow.root).2
        ⟨hready.noNextRoot, T', ?_, ?_, ?_, rfl⟩
      · rw [hready.plain, hT']
        exact ⟨StoreRepository.read_some.2 ⟨hts, htsBounded⟩,
          StoreRepository.read_some.2 ⟨hsnap, hsnapBounded⟩,
          StoreRepository.read_some.2 ⟨htgt, htgtBounded⟩⟩
      · rw [hT']
        exact ⟨hready.signed.timestamp _ h.timestamp, hready.signed.snapshot _ hsnapshot,
          hready.signed.targets _ htargets⟩
      · rw [hT']
        exact ⟨hnow.timestamp _ h.timestamp, hnow.snapshot _ hsnapshot, hnow.targets _ _ htargets⟩
    have hkept : KeptSince E.toEnv st run.refreshed w := fun role m hm _ =>
      hready.kept.targets role m hm
    have hfollows : Follows E.toEnv st run.refreshed w (some target)
        (getTargetinfo E (StoreRepository.new st) targetPath now'
          (T'.accept (pinned.withConfig config))) :=
      h.follows hst hdetached hready.plain (by rw [hT']) (by rw [hT']) hnow'
    rcases hfollows with ⟨-, v, hinfo, hmirrors⟩ | ⟨hlost, -⟩
    · obtain ⟨bytes, hload⟩ := Option.isSome_iff_exists.1 hready.kept.target
      obtain rfl : bytes = run.bytes := (h.stored_target hst hload).2
      have hlength : UInt64.ofNat run.bytes.length = target.length := by
        have hverified := h.verified
        simp only [verifyTargetBytes, bind_eq_ok, rejectIf_eq_ok, not_not] at hverified
        obtain ⟨-, hlength, -⟩ := hverified
        exact hlength
      refine ⟨_, v, hrefresh, (getTarget_offline (hdetached' T')).2
        ⟨target, v, hinfo, ?_, ⟨targetPath, ?_, hload, ?_⟩, h.verified, rfl⟩⟩
      · rw [hmirrors.config, h.limits]
        exact h.length
      · rw [hmirrors.plain]
        rfl
      · rw [hlength]
        exact UInt64.lt_irrefl _
    · exact absurd hkept hlost

end

namespace Sample

/-- The repository serves no more bytes than it is asked for. A file that is longer than allowed is
an error, as the transport of the source makes it. -/
theorem bounded (files : List (String × Json)) (targets : List (String × Bytes)) :
    (repository files targets).Bounded := by
  refine ⟨fun name maxLength bytes h => ?_, fun path maxLength bytes h => ?_⟩
  · simp only [repository] at h
    split at h
    · cases h
    · split at h
      · cases h
      · next hshort =>
        cases h
        exact hshort
  · simp only [repository] at h
    split at h
    · cases h
    · split at h
      · cases h
      · next hshort =>
        cases h
        exact hshort

/-- The target `p` of one byte, under any digest, which is zero in the sample. -/
def listedTarget : String × Json :=
  ("targets", .object [("p", .object [
    ("hashes", .object [("sha256", .string (String.ofList (List.replicate 64 '0')))]),
    ("length", .number (.posInt 1))])])

/-- A root that asks for consistent snapshots. -/
def consistentRoot : Json :=
  signedBy (.object [("_type", .string "root"), ("consistent_snapshot", .bool true),
    ("expires", .string "2030-01-01T00:00:00Z"), keyring,
    ("roles", .object [("root", roleKeys), ("snapshot", roleKeys), ("targets", roleKeys),
      ("timestamp", roleKeys)]), ("spec_version", .string "1.0"),
    ("version", .number (.posInt 1))])

/-- A repository without consistent snapshots, where the role `d` has the target. -/
def plainFiles : List (String × Json) :=
  [("timestamp.json", timestamp 1 [("snapshot.json", 5)]), ("snapshot.json", snapshot 5),
    ("targets.json", targets [delegating [("d", "k", "p")]]),
    ("d.json", signedBy (payload "targets" 1 [listedTarget]))]

/-- A repository with consistent snapshots, where the top-level targets have the target. -/
def consistentFiles : List (String × Json) :=
  [("timestamp.json", timestamp 1 [("snapshot.json", 5)]), ("5.snapshot.json", snapshot 5),
    ("1.targets.json", signedBy (payload "targets" 1 [listedTarget]))]

def plain : Repository := repository plainFiles [("p", [0x61])]

def consistent : Repository :=
  repository consistentFiles [(String.ofList (List.replicate 64 '0') ++ ".p", [0x61])]

def offlineEnv : ClientEnv :=
  clientEnv (consistentRoot :: (plainFiles ++ consistentFiles).map (·.2))

/-- Whether nothing has expired at instant 0. -/
def allFresh (pinned : Root) (s : TrustedMetadataSet) : Bool :=
  (ensureNotExpired offlineEnv.toEnv pinned "root" 0).isOk &&
  (s.timestamp.all fun ts => (ensureNotExpired offlineEnv.toEnv ts.signed "timestamp" 0).isOk) &&
  (s.snapshot.all fun snap => (ensureNotExpired offlineEnv.toEnv snap.signed "snapshot" 0).isOk) &&
  s.targets.entries.all fun p => (ensureNotExpired offlineEnv.toEnv p.2.signed p.1 0).isOk

/-- Where the check finds nothing expired, nothing is. The boolean check is what the witness
evaluates. -/
theorem nothingExpired {pinned : Root} {s : TrustedMetadataSet} (h : allFresh pinned s = true) :
    NothingExpired offlineEnv pinned s 0 := by
  have hfresh : ∀ {T : Type} [Role T] {role : T} {name : String},
      (ensureNotExpired offlineEnv.toEnv role name 0).isOk = true →
      NotExpired offlineEnv.toEnv role 0 := by
    intro T _ role name hok
    obtain ⟨_, hok⟩ := isOk_iff.1 hok
    exact ensureNotExpired_ok.1 hok
  simp only [allFresh, Bool.and_eq_true, List.all_eq_true] at h
  obtain ⟨⟨⟨hroot, hts⟩, hsnap⟩, htargets⟩ := h
  refine ⟨hfresh hroot, fun ts hget => ?_, fun snap hget => ?_, fun role m hm => ?_⟩
  · rw [hget] at hts
    exact hfresh hts
  · rw [hget] at hsnap
    exact hfresh hsnap
  · exact hfresh (htargets (role, m) ((BTreeMap.mem_entries_iff _).2 hm))

/-- An online run against a sample repository, where it succeeds. -/
def online (pinned : Updater) (R : Repository) (hR : R.Bounded) :
    Option (OnlineRun offlineEnv pinned {} "p") :=
  match hattach : (pinned.withConfig {}).withStore offlineEnv.toEnv .empty with
  | .error _ => none
  | .ok attached =>
    match hrefresh : refresh offlineEnv R 0 attached with
    | (.error _, _) => none
    | (.ok (), refreshed) =>
      match hget : getTarget offlineEnv R "p" 0 refreshed with
      | (.error _, _) => none
      | (.ok bytes, finished) =>
        some {
          store := .empty
          empty := fun _ => rfl
          attached := attached
          attach := hattach
          repository := R
          bounded := hR
          refreshTime := 0
          refreshed := refreshed
          refreshes := hrefresh
          targetRepository := R
          targetBounded := hR
          targetTime := 0
          bytes := bytes
          finished := finished
          gets := hget }

/-- Whether the offline run gets the bytes. -/
def offline (pinned : Updater) (st : MetadataStore) (bytes : Bytes) : Bool :=
  match refresh offlineEnv (StoreRepository.new st) 0 (pinned.withConfig {}) with
  | (.error _, _) => false
  | (.ok (), v) =>
    match getTarget offlineEnv (StoreRepository.new st) "p" 0 v with
    | (.error _, _) => false
    | (.ok found, _) => decide (found = bytes)

/-- The offline run is evaluated to whether it gets the bytes. The runs are compared component by
component, errors included. -/
theorem offline_iff {pinned : Updater} {st : MetadataStore} {bytes : Bytes} :
    offline pinned st bytes = true ↔ RunsOffline offlineEnv pinned {} st "p" 0 0 bytes := by
  unfold offline RunsOffline Returns
  cases refresh offlineEnv (StoreRepository.new st) 0 (pinned.withConfig {}) with
  | mk result v =>
    cases result with
    | error e => simp
    | ok r =>
      dsimp only
      cases hget : getTarget offlineEnv (StoreRepository.new st) "p" 0 v with
      | mk result w =>
        cases result with
        | error e => simp [hget]
        | ok found => simp [hget]

end Sample

/-- The small repository without consistent snapshots is served again from the store. The online
run, its store and the offline run are evaluated together. -/
theorem offline_equivalent_plain :
    ∃ pinned, ∃ run : OnlineRun Sample.offlineEnv pinned {} "p", ∃ st,
      Updater.new Sample.offlineEnv.toEnv (Sample.file Sample.root) = .ok pinned ∧
      run.finished.store = some st ∧ RunsOffline Sample.offlineEnv pinned {} st "p" 0 0 run.bytes ∧
      OfflineReady Sample.offlineEnv pinned.trusted.root.signed st run.finished.trusted "p" := by
  have heval : (match Updater.new Sample.offlineEnv.toEnv (Sample.file Sample.root) with
      | .error _ => false
      | .ok pinned =>
        match Sample.online pinned Sample.plain (Sample.bounded _ _) with
        | none => false
        | some run =>
          match run.finished.store with
          | none => false
          | some st =>
            Sample.allFresh pinned.trusted.root.signed run.finished.trusted &&
            Sample.offline pinned st run.bytes) = true := by decide +kernel
  split at heval
  · cases heval
  · next pinned hnew =>
    split at heval
    · cases heval
    · next run _ =>
      split at heval
      · cases heval
      · next st hst =>
        obtain ⟨hfresh, hoffline⟩ := Bool.and_eq_true_iff.1 heval
        have hnow := Sample.nothingExpired hfresh
        have hruns := Sample.offline_iff.1 hoffline
        exact ⟨pinned, run, st, hnew, hst, hruns,
          (offline_equivalent Sample.offlineEnv hnew run hst hnow hnow).1 hruns⟩

/-- With consistent snapshots the online run succeeds and nothing has expired, but the offline run
does not get the target. -/
theorem offline_equivalent_fails :
    ∃ pinned, ∃ run : OnlineRun Sample.offlineEnv pinned {} "p", ∃ st,
      Updater.new Sample.offlineEnv.toEnv (Sample.file Sample.consistentRoot) = .ok pinned ∧
      run.finished.store = some st ∧
      NothingExpired Sample.offlineEnv pinned.trusted.root.signed run.finished.trusted 0 ∧
      ¬ RunsOffline Sample.offlineEnv pinned {} st "p" 0 0 run.bytes := by
  have heval : (match Updater.new Sample.offlineEnv.toEnv (Sample.file Sample.consistentRoot) with
      | .error _ => false
      | .ok pinned =>
        match Sample.online pinned Sample.consistent (Sample.bounded _ _) with
        | none => false
        | some run =>
          match run.finished.store with
          | none => false
          | some st =>
            Sample.allFresh pinned.trusted.root.signed run.finished.trusted &&
            !Sample.offline pinned st run.bytes) = true := by decide +kernel
  split at heval
  · cases heval
  · next pinned hnew =>
    split at heval
    · cases heval
    · next run _ =>
      split at heval
      · cases heval
      · next st hst =>
        obtain ⟨hfresh, hoffline⟩ := Bool.and_eq_true_iff.1 heval
        refine ⟨pinned, run, st, hnew, hst, Sample.nothingExpired hfresh, fun hruns => ?_⟩
        rw [Sample.offline_iff.2 hruns] at hoffline
        cases hoffline

end Sigstore.Tuf
