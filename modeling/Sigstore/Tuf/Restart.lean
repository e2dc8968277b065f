import Sigstore.Tuf.Seeding

/-!
# Runs that share a store

A run of the program starts from the pinned root and refreshes with a store that earlier runs have
written. As long as every later run can use the cached files, what an earlier run has stored is a
floor for what a later one trusts (`restart_no_rollback`). A cached file that has expired is
skipped, and then it is no floor for what the repository serves (`restart_no_rollback_fails`).
-/

namespace Sigstore.Tuf

open Checks StateAction TrustedMetadataSet

/-- One run: its clock, what the repository answers, its limits, and which of its writes succeed. -/
structure ClientRun where
  now : Int
  repository : Repository
  config : UpdaterConfig
  writable : String → Bytes → Bool

section
variable (E : ClientEnv)

namespace ClientRun

/-- The updater that a run refreshes: the pinned root and the attached store. -/
def updater (rootBytes : Bytes) (contents : Contents) (r : ClientRun) : Except Abort Updater := do
  let u ← (Updater.new E.toEnv rootBytes).mapError .error
  (u.withConfig r.config).withStore E.toEnv { contents := contents, writable := r.writable }

/-- What a run leaves in the store, whatever it ends in. -/
def after (rootBytes : Bytes) (contents : Contents) (r : ClientRun) : Contents :=
  match r.updater E rootBytes contents with
  | .error _ => contents
  | .ok u => (refresh E r.repository r.now u).2.stored

/-- The run's refresh succeeds. -/
def Succeeds (rootBytes : Bytes) (contents : Contents) (r : ClientRun) (u' : Updater) : Prop :=
  ∃ u, r.updater E rootBytes contents = .ok u ∧ Returns (refresh E r.repository r.now) u () u'

/-- The run works under the root: it is the one that its walk along the root chain leads to. -/
def WorksUnder (root : Metadata Root) (rootBytes : Bytes) (contents : Contents) (r : ClientRun) :
    Prop :=
  ∀ u u₁, r.updater E rootBytes contents = .ok u → Returns (refreshRoot E r.repository) u () u₁ →
    u₁.trusted.root = root

end ClientRun

/-- The store after runs that began with an empty one. -/
def storeAfter (rootBytes : Bytes) (runs : List ClientRun) : Contents :=
  Runs.run (ClientRun.after E rootBytes) (fun _ => none) runs

end

section
variable {E : ClientEnv}

/-! ## One run -/

/-- A run begins with nothing trusted but a root, and with the store as it is. -/
theorem ClientRun.updater_ok {rootBytes : Bytes} {contents : Contents} {r : ClientRun}
    {u : Updater} (h : r.updater E rootBytes contents = .ok u) :
    Fresh u.trusted ∧ u.stored = contents := by
  obtain ⟨u₀, hnew, h⟩ := bind_eq_ok.1 h
  obtain ⟨s₀, hroot, hu₀⟩ := bind_eq_ok.1 (mapError_eq_ok.1 hnew)
  cases hu₀
  obtain ⟨t, hadopt, hu⟩ := bind_eq_ok.1 h
  cases hu
  obtain ⟨-, hts, hsnap, -⟩ := fromRoot_ok E.toEnv hroot
  exact ⟨adoptCachedRoots_fresh ⟨hts, hsnap⟩ hadopt, rfl⟩

section
variable {root : Metadata Root} {c : Contents} {rootBytes : Bytes} {r : ClientRun}

/-- After a run, what is cached is valid again, and not lower where the run could use the cache. A
run may fail at any point, even before it looks at the cache; then the files are those that were
there. -/
theorem ClientRun.after_cached (hr : r.WorksUnder E root rootBytes c) (hc : ValidCache E root c) :
    ValidCache E root (r.after E rootBytes c) ∧
    (TimestampUsable E c r.now →
      NotLower (cachedVersion E c) (cachedVersion E (r.after E rootBytes c))) ∧
    (SnapshotUsable E c r.now →
      PinsNotLower (cachedPin E c) (cachedPin E (r.after E rootBytes c))) := by
  unfold ClientRun.after
  cases hu : r.updater E rootBytes c with
  | error e => exact ⟨hc, fun _ => .refl _, fun _ _ => .refl _⟩
  | ok u =>
    obtain ⟨hfresh, hstored⟩ := updater_ok hu
    subst hstored
    have hcases := refresh_seeds r.repository r.now hfresh hc fun u₁ => hr u u₁ hu
    rcases hcases with ⟨-, hsame⟩ | ⟨v, hv, hadv⟩
    · refine ⟨hc.congr hsame, fun _ => ?_, fun _ => ?_⟩
      · rw [cachedVersion_congr hsame]
        exact .refl _
      · rw [cachedPin_congr hsame]
        exact fun _ => .refl _
    · exact hadv.cached hv hc

/-- A run that succeeds trusts nothing lower than what was cached, where it could use the cache. The
refresh is seeded from the cached files first, and from there on the trusted versions only grow. -/
theorem ClientRun.WorksUnder.succeeds_floor (hr : r.WorksUnder E root rootBytes c)
    (hc : ValidCache E root c) {u' : Updater} (h : r.Succeeds E rootBytes c u') :
    (TimestampUsable E c r.now → NotLower (cachedVersion E c) u'.trusted.timestampVersion) ∧
    (SnapshotUsable E c r.now → PinsNotLower (cachedPin E c) u'.trusted.snapshotPin) := by
  obtain ⟨u, hu, hrefresh⟩ := h
  obtain ⟨hfresh, hstored⟩ := updater_ok hu
  subst hstored
  have hcases := refresh_seeds r.repository r.now hfresh hc fun u₁ => hr u u₁ hu
  rw [hrefresh] at hcases
  rcases hcases with ⟨hfailed, -⟩ | ⟨v, hv, hadv⟩
  · cases hfailed
  · exact ⟨fun husable => (hv.timestamp husable).trans hadv.noLower.timestamp,
      fun husable name => (hv.snapshot husable name).trans (hadv.noLower.pins name)⟩

end

/-! ### Runs under the pinned root -/

/-- A walk along the root chain ends where the repository has no next root. The first fetch decides,
and no root is adopted. -/
theorem refreshRootLoop_none {R : Repository} {count : Nat} {next : UInt64} {u u₁ : Updater}
    (hnone : ∀ maxLength, R.fetchMetadata s!"{next}.root.json" maxLength = .ok none)
    (h : Returns (refreshRootLoop E R count next) u () u₁) : u₁ = u := by
  cases count with
  | zero =>
    obtain ⟨_, _, -, h⟩ := returns_bind.1 h
    exact absurd h returns_throw
  | succ count =>
    simp only [refreshRootLoop, returns_bind, returns_gets, returns_check] at h
    obtain ⟨_, _, ⟨rfl, rfl⟩, found, _, ⟨hfound, rfl⟩, h⟩ := h
    cases (hnone _).symm.trans hfound
    exact (returns_pure.1 h).2.symm

/-- Where neither the cache nor the repository has a next root, a run works under the pinned one.
This is the condition of `WorksUnder` as it can be checked of a cache and a repository. -/
theorem ClientRun.worksUnder_pinned {rootBytes : Bytes} {c : Contents} {r : ClientRun}
    {s₀ : TrustedMetadataSet} (h₀ : fromRoot E.toEnv rootBytes = .ok s₀)
    (hcached : c s!"root_history/{s₀.root.signed.version + 1}.root.json" = none)
    (hnone : ∀ maxLength, r.repository.fetchMetadata
      s!"{s₀.root.signed.version + 1}.root.json" maxLength = .ok none) :
    r.WorksUnder E s₀.root rootBytes c := by
  intro u u₁ hu hwalk
  have htrusted : u.trusted = s₀ := by
    obtain ⟨u₀, hnew, hu⟩ := bind_eq_ok.1 hu
    obtain ⟨s, hroot, hu₀⟩ := bind_eq_ok.1 (mapError_eq_ok.1 hnew)
    cases hu₀
    cases h₀.symm.trans hroot
    obtain ⟨t, hadopt, hu⟩ := bind_eq_ok.1 hu
    cases hu
    have hload : MetadataStore.load { contents := c, writable := r.writable }
        s!"root_history/{s₀.root.signed.version + 1}.root.json" = none := hcached
    exact adoptCachedRoots_none hload hadopt
  simp only [refreshRoot, returns_bind, returns_gets, returns_lift] at hwalk
  obtain ⟨_, _, ⟨rfl, rfl⟩, _, _, ⟨rfl, rfl⟩, count, _, ⟨-, rfl⟩, hwalk⟩ := hwalk
  rw [refreshRootLoop_none (by rwa [htrusted]) hwalk, htrusted]

/-! ## Many runs -/

section
variable (E : ClientEnv) (rootBytes : Bytes) (root : Metadata Root)

/-- Every run of a sequence, which begins with an empty store, works under the root. -/
def NoRootChange (runs : List ClientRun) : Prop :=
  ∀ before r, before ++ [r] <+: runs →
    r.WorksUnder E root rootBytes (storeAfter E rootBytes before)

variable {E rootBytes root}

/-- An empty store holds nothing that was not signed. -/
theorem validCache_empty : ValidCache E root fun _ => none := by
  refine ⟨fun bytes h => ?_, fun bytes h => ?_⟩
  · cases h
  · cases h

/-- After runs under one root the store holds a timestamp and a snapshot that the root's keys have
signed. -/
theorem storeAfter_valid {runs before : List ClientRun} (h : NoRootChange E rootBytes root runs)
    (hbefore : before <+: runs) : ValidCache E root (storeAfter E rootBytes before) :=
  Runs.run_keeps (ClientRun.after E rootBytes) (P := ValidCache E root)
    (C := fun c r => r.WorksUnder E root rootBytes c)
    (fun _ _ hc hr => (ClientRun.after_cached hr hc).1) validCache_empty h hbefore

/-- The store after more runs is what these leave of the store after the others. -/
theorem storeAfter_append (earlier later : List ClientRun) :
    storeAfter E rootBytes (earlier ++ later) =
      Runs.run (ClientRun.after E rootBytes) (storeAfter E rootBytes earlier) later :=
  Runs.run_append _ _ _ _

/-- What every run under the root does to the cache, where it can use the cache in some way, all of
them together do. -/
theorem storeAfter_mono {R : Contents → Contents → Prop} {U : Contents → Int → Prop}
    (refl : ∀ c, R c c) (trans : ∀ c c' c'', R c c' → R c' c'' → R c c'')
    (hstep : ∀ c (r : ClientRun), ValidCache E root c → r.WorksUnder E root rootBytes c →
      U c r.now → R c (r.after E rootBytes c))
    {earlier later : List ClientRun} (hroot : NoRootChange E rootBytes root (earlier ++ later))
    (husable : ∀ before r, before ++ [r] <+: later →
      U (storeAfter E rootBytes (earlier ++ before)) r.now) :
    R (storeAfter E rootBytes earlier) (storeAfter E rootBytes (earlier ++ later)) := by
  rw [storeAfter_append]
  refine Runs.run_mono (ClientRun.after E rootBytes) (P := ValidCache E root)
    (C := fun c r => r.WorksUnder E root rootBytes c ∧ U c r.now)
    (fun _ _ hc hr => (ClientRun.after_cached hr.1 hc).1)
    (storeAfter_valid hroot (List.prefix_append _ _)) ?_ refl trans
    (fun c r hc hr => hstep c r hc hr.1 hr.2) List.nil_prefix (List.prefix_refl later)
  intro before r hbefore
  rw [← storeAfter_append]
  refine ⟨hroot (earlier ++ before) r ?_, husable before r hbefore⟩
  rw [List.append_assoc]
  exact (List.prefix_append_right_inj earlier).2 hbefore

variable (E)

/-- **No rollback across runs.** For every sequence of runs that begins with an empty store and
works under one root, whatever the repository serves and wherever a run stops: what is cached after
some runs is a floor for what a later run trusts when it succeeds. For the timestamp this holds as
long as the later runs find the cached timestamp unexpired, and for what the snapshot pins as long
as they find the cached snapshot unexpired and pinned by the unexpired cached timestamp. -/
theorem restart_no_rollback {earlier later : List ClientRun} {r : ClientRun} {u' : Updater}
    (hroot : NoRootChange E rootBytes root (earlier ++ later ++ [r]))
    (hsucceeds : r.Succeeds E rootBytes (storeAfter E rootBytes (earlier ++ later)) u') :
    ((∀ before s, before ++ [s] <+: later ++ [r] →
        TimestampUsable E (storeAfter E rootBytes (earlier ++ before)) s.now) →
      NotLower (cachedVersion E (storeAfter E rootBytes earlier)) u'.trusted.timestampVersion) ∧
    ((∀ before s, before ++ [s] <+: later ++ [r] →
        SnapshotUsable E (storeAfter E rootBytes (earlier ++ before)) s.now) →
      ∀ name, NotLower (cachedPin E (storeAfter E rootBytes earlier) name)
        (u'.trusted.snapshotPin name)) := by
  have hlast := hroot (earlier ++ later) r List.prefix_rfl
  have hvalid := storeAfter_valid hroot (List.prefix_append (earlier ++ later) [r])
  have hbefore : NoRootChange E rootBytes root (earlier ++ later) := fun before s h =>
    hroot before s (h.trans (List.prefix_append _ _))
  obtain ⟨htimestamp, hsnapshot⟩ := hlast.succeeds_floor hvalid hsucceeds
  refine ⟨fun husable => ?_, fun husable name => ?_⟩
  · have hcached := storeAfter_mono
      (R := fun c c' => NotLower (cachedVersion E c) (cachedVersion E c'))
      (U := TimestampUsable E) (fun _ => .refl _) (fun _ _ _ => .trans)
      (fun c s hc hs => (ClientRun.after_cached hs hc).2.1) hbefore
      fun before s h => husable before s (h.trans (List.prefix_append _ _))
    exact hcached.trans (htimestamp (husable later r List.prefix_rfl))
  · have hcached := storeAfter_mono (R := fun c c' => PinsNotLower (cachedPin E c) (cachedPin E c'))
      (U := SnapshotUsable E) (fun _ _ => .refl _)
      (fun _ _ _ h h' name => (h name).trans (h' name))
      (fun c s hc hs => (ClientRun.after_cached hs hc).2.2) hbefore
      fun before s h => husable before s (h.trans (List.prefix_append _ _))
    exact (hcached name).trans (hsnapshot (husable later r List.prefix_rfl) name)

end

end

namespace Sample

/-- A timestamp that expires before the other files do. -/
def expiring : Json :=
  signedBy (.object [("_type", .string "timestamp"), ("expires", .string "2026-01-01T00:00:00Z"),
    pins [("snapshot.json", 5)], ("spec_version", .string "1.0"), ("version", .number (.posInt 5))])

def renewed : Json := timestamp 6 [("snapshot.json", 5)]

def restartEnv : ClientEnv :=
  { clientEnv [expiring, renewed] with
    parseTimestamp := fun text =>
      if text = "2026-01-01T00:00:00Z" then some 1767225600000000000 else env.parseTimestamp text }

/-- A run at a time, against the small repository with some timestamp. -/
def restartRun (timestamp : Json) (now : Int) : ClientRun :=
  { now := now, repository := repository (("timestamp.json", timestamp) :: files) []
    config := {}, writable := fun _ _ => true }

/-- A run that is offered version 1 of the timestamp, when version 5 has expired. -/
def lateRun : ClientRun := restartRun (timestamp 1 [("snapshot.json", 5)]) 1798761600000000000

end Sample

/-- The sample's runs keep its root. The second run is given the cache that the first one leaves,
which has no next root either. -/
theorem Sample.noRootChange {s₀ : TrustedMetadataSet} {timestamp timestamp' : Json}
    {now now' : Int} (h₀ : fromRoot restartEnv.toEnv (file root) = .ok s₀)
    (hversion : s₀.root.signed.version = 1)
    (hstored : storeAfter restartEnv (file root) [restartRun timestamp now]
      "root_history/2.root.json" = none) :
    NoRootChange restartEnv (file root) s₀.root
      [restartRun timestamp now, restartRun timestamp' now'] := by
  have hnext : s₀.root.signed.version + 1 = 2 := by
    rw [hversion]
    rfl
  have hnone : ∀ timestamp now maxLength,
      (restartRun timestamp now).repository.fetchMetadata "2.root.json" maxLength = .ok none :=
    fun _ _ _ => rfl
  intro before r hbefore
  match before, hbefore with
  | [], hbefore =>
    obtain rfl := (List.cons_prefix_cons.1 hbefore).1
    refine ClientRun.worksUnder_pinned h₀ rfl ?_
    rw [hnext]
    exact hnone _ _
  | [_], hbefore =>
    obtain ⟨rfl, hrest⟩ := List.cons_prefix_cons.1 hbefore
    obtain rfl := (List.cons_prefix_cons.1 hrest).1
    refine ClientRun.worksUnder_pinned h₀ ?_ ?_
    · rw [hnext]
      exact hstored
    · rw [hnext]
      exact hnone _ _
  | _ :: _ :: _, hbefore =>
    have hlength := hbefore.length_le
    simp only [List.length_append, List.length_cons, List.length_nil] at hlength
    omega

/-- What the sample's first run leaves in the store. -/
def Sample.stored : Contents := storeAfter restartEnv (file root) [restartRun expiring 0]

/-- The second run trusts the first root, finds what the first run cached, and can use it. -/
def Sample.renewedRun : Bool :=
  match fromRoot restartEnv.toEnv (file root),
    (restartRun renewed 1).updater restartEnv (file root) stored,
    cachedTimestamp restartEnv stored with
  | .ok s₀, .ok u, some ts =>
    decide (s₀.root.signed.version = 1 ∧ stored "root_history/2.root.json" = none ∧
      cachedVersion restartEnv stored = some 5 ∧ cachedPin restartEnv stored "d.json" = some 1 ∧
      stored "snapshot.json" = some (file (snapshot 5))) &&
    (refresh restartEnv (restartRun renewed 1).repository 1 u).1.isOk &&
    (ensureNotExpired restartEnv.toEnv ts.signed "timestamp" 1).isOk &&
    (checkSnapshot restartEnv.toEnv { s₀ with timestamp := some ts } (file (snapshot 5)) 1).isOk
  | _, _, _ => false

/-- The second run finds what the first one cached, and trusts nothing lower. The cached timestamp
has version 5, and the repository serves a newer one to the second run. -/
theorem restart_no_rollback_renewed :
    ∃ u', (Sample.restartRun Sample.renewed 1).Succeeds Sample.restartEnv (Sample.file Sample.root)
        Sample.stored u' ∧
      NotLower (some 5) u'.trusted.timestampVersion ∧
      NotLower (some 1) (u'.trusted.snapshotPin "d.json") := by
  have heval : Sample.renewedRun = true := by decide +kernel
  unfold Sample.renewedRun at heval
  split at heval
  · next s₀ u ts h₀ hu hts =>
    simp only [Bool.and_eq_true, decide_eq_true_eq] at heval
    obtain ⟨⟨⟨⟨hversion, hhistory, hcached, hpin, hbytes⟩, hrefresh⟩, hfresh⟩, hsnapshot⟩ := heval
    obtain ⟨_, u', hrefresh⟩ := exists_returns hrefresh
    obtain ⟨_, hfresh⟩ := isOk_iff.1 hfresh
    obtain ⟨snap, hsnapshot⟩ := isOk_iff.1 hsnapshot
    have hroot : NoRootChange Sample.restartEnv (Sample.file Sample.root) s₀.root
        ([Sample.restartRun Sample.expiring 0] ++ [] ++ [Sample.restartRun Sample.renewed 1]) :=
      Sample.noRootChange h₀ hversion hhistory
    have hsucceeds : (Sample.restartRun Sample.renewed 1).Succeeds Sample.restartEnv
        (Sample.file Sample.root) Sample.stored u' := ⟨u, hu, hrefresh⟩
    obtain ⟨htimestamp, hpins⟩ := restart_no_rollback Sample.restartEnv hroot hsucceeds
    have honly : ∀ {before : List ClientRun} {r : ClientRun},
        before ++ [r] <+: [Sample.restartRun Sample.renewed 1] →
        before = [] ∧ r = Sample.restartRun Sample.renewed 1 := by
      intro before r h
      have hlength := h.length_le
      cases before with
      | nil => exact ⟨rfl, (List.cons_prefix_cons.1 h).1⟩
      | cons => simp at hlength
    refine ⟨u', hsucceeds, ?_, ?_⟩
    · rw [← hcached]
      refine htimestamp fun before r h => ?_
      obtain ⟨rfl, rfl⟩ := honly h
      intro ts' hts'
      cases hts.symm.trans hts'
      exact ensureNotExpired_ok.1 hfresh
    · rw [← hpin]
      refine hpins (fun before r h => ?_) "d.json"
      obtain ⟨rfl, rfl⟩ := honly h
      rw [← hts] at hsnapshot
      exact snapshotUsable_of_check hbytes hsnapshot
  · cases heval

/-- The late run trusts the first root, and succeeds with a lower timestamp than the cached one. -/
def Sample.lateChecks : Bool :=
  match fromRoot restartEnv.toEnv (file root), lateRun.updater restartEnv (file root) stored with
  | .ok s₀, .ok u =>
    decide (s₀.root.signed.version = 1 ∧ stored "root_history/2.root.json" = none ∧
      cachedVersion restartEnv stored = some 5) &&
    (refresh restartEnv lateRun.repository lateRun.now u).1.isOk &&
    decide ((refresh restartEnv lateRun.repository lateRun.now u).2.trusted.timestampVersion =
      some 1)
  | _, _ => false

/-- The second run starts later than the first, works under the same root, and succeeds trusting
version 1 of the timestamp, where the first one stored version 5. -/
theorem restart_no_rollback_fails :
    ∃ s₀ u', fromRoot Sample.restartEnv.toEnv (Sample.file Sample.root) = .ok s₀ ∧
      NoRootChange Sample.restartEnv (Sample.file Sample.root) s₀.root
        [Sample.restartRun Sample.expiring 0, Sample.lateRun] ∧
      0 ≤ Sample.lateRun.now ∧
      cachedVersion Sample.restartEnv Sample.stored = some 5 ∧
      Sample.lateRun.Succeeds Sample.restartEnv (Sample.file Sample.root) Sample.stored u' ∧
      u'.trusted.timestampVersion = some 1 := by
  have heval : Sample.lateChecks = true := by decide +kernel
  unfold Sample.lateChecks at heval
  split at heval
  · next s₀ u h₀ hu =>
    simp only [Bool.and_eq_true, decide_eq_true_eq] at heval
    obtain ⟨⟨⟨hversion, hhistory, hcached⟩, hrefresh⟩, hlow⟩ := heval
    obtain ⟨_, u', hrefresh⟩ := exists_returns hrefresh
    rw [hrefresh] at hlow
    exact ⟨s₀, u', h₀, Sample.noRootChange h₀ hversion hhistory, by decide, hcached,
      ⟨u, hu, hrefresh⟩, hlow⟩
  · cases heval

end Sigstore.Tuf
