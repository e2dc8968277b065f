import Sigstore.Tuf.Threshold
import Sigstore.Tuf.Trusted

/-!
# The invariant of the trusted metadata set

What a trusted set can hold after any calls. `Trusted` is the part that speaks of the set alone: its
top-level roles are signed under the current root, and its targets have the versions that the
current snapshot pins. `AcceptedUnder` is the part that speaks of the calls so far: how a targets
role came to be trusted under the current root and snapshot. `RootChain` links the current root to
the bootstrap root by versions that go up one by one. It is kept by every call that `CountsUp`: in a
build that does not check overflow, a root of version 0 can succeed one of the last version
(`trustedMetadataSet_sound_wraps`).
-/

namespace Sigstore.Tuf

open Sigstore.Crypto Checks TrustedMetadataSet

section
variable (E : Env)

/-- Signed to the threshold of a role that a root defines. -/
def SignedByRole {T : Type} (m : Metadata T) (root : Root) (roleName : String) : Prop :=
  ∃ roleKeys, root.role roleName = some roleKeys ∧
    m.SignedToThreshold E.primitives root.keys roleKeys

/-- A chain of roots whose versions go up one by one, each signed by its predecessor's `root` role
and by its own. -/
inductive RootChain (bootstrap : Metadata Root) : Metadata Root → Prop where
  | bootstrap (self : SignedByRole E bootstrap bootstrap.signed "root") :
    RootChain bootstrap bootstrap
  | next {r r' : Metadata Root} (chain : RootChain bootstrap r)
    (version : r'.signed.version.toNat = r.signed.version.toNat + 1)
    (predecessor : SignedByRole E r' r.signed "root")
    (self : SignedByRole E r' r'.signed "root") : RootChain bootstrap r'

/-- The file holds the next version of a root, in 64 bits, signed by the root's and by its own
`root` role. -/
structure Succeeds (root : Metadata Root) (bytes : Bytes) (next : Metadata Root) : Prop where
  parsed : Metadata.fromSlice E bytes = .ok next
  version : next.signed.version = root.signed.version + 1
  signed : verifyWithRoot E next root.signed "root" = .ok ()
  selfSigned : verifyRootSelfSigned E next = .ok ()

/-- The build checks overflow, or the call does not offer a successor to a root of the last version.
-/
def CountsUp (s : TrustedMetadataSet) (c : Call) : Prop :=
  E.overflowChecks = true ∨ ∀ bytes next, c = .updateRoot bytes → Succeeds E s.root bytes next →
    s.root.signed.version.toNat + 1 < 2 ^ 64

/-- Signed to the threshold that a targets role's delegations declare for a role. -/
def SignedByDelegation (m : Metadata Targets) (delegator : Metadata Targets) (roleName : String) :
    Prop :=
  ∃ delegations role, delegator.signed.delegations = some delegations ∧
    delegations.roles.find? (fun r => r.name = roleName) = some role ∧
    m.SignedToThreshold E.primitives delegations.keys role.roleKeys

/-- How a targets role came to be trusted: a call among `calls` accepted it while `root` and `snap`
were trusted, and it is signed under the root or under the delegations of a targets role that was
itself accepted under them. -/
inductive AcceptedUnder (s₀ : TrustedMetadataSet) (calls : List Call) (root : Metadata Root)
    (snap : Option (Metadata Snapshot)) : String → Metadata Targets → Prop where
  | topLevel {before : List Call} {bytes : Bytes} {now : Int} {m : Metadata Targets}
    (call : before ++ [.updateTargets bytes now] <+: calls)
    (root_eq : (runCalls E s₀ before).root = root)
    (snapshot_eq : (runCalls E s₀ before).snapshot = snap)
    (accepted : checkTargets E (runCalls E s₀ before) bytes now = .ok m)
    (signed : SignedByRole E m root.signed "targets") :
    AcceptedUnder s₀ calls root snap "targets" m
  | delegated {before : List Call} {bytes : Bytes} {name delegatorName : String} {now : Int}
    {m delegator : Metadata Targets}
    (call : before ++ [.updateDelegatedTargets bytes name delegatorName now] <+: calls)
    (root_eq : (runCalls E s₀ before).root = root)
    (snapshot_eq : (runCalls E s₀ before).snapshot = snap)
    (accepted : checkDelegatedTargets E (runCalls E s₀ before) bytes name delegatorName now =
      .ok m)
    (delegator_accepted : AcceptedUnder s₀ calls root snap delegatorName delegator)
    (signed : SignedByDelegation E m delegator name) :
    AcceptedUnder s₀ calls root snap name m

/-- The invariant on the set alone. -/
structure Trusted (s : TrustedMetadataSet) : Prop where
  timestamp : ∀ m, s.timestamp = some m → SignedByRole E m s.root.signed "timestamp"
  snapshot : ∀ m, s.snapshot = some m → SignedByRole E m s.root.signed "snapshot"
  targets : ∀ m, s.targets.get? "targets" = some m → SignedByRole E m s.root.signed "targets"
  snapshot_timestamp : s.snapshot.isSome → s.timestamp.isSome
  pinned : ∀ name m, s.targets.get? name = some m → ∃ snap pin, s.snapshot = some snap ∧
    snap.signed.metas.get? (name ++ ".json") = some pin ∧ m.signed.version = pin.version

/-! ## What each operation checks -/

/-- `verify_with_root` accepts what the role's keys of the root have signed to the threshold. -/
theorem verifyWithRoot_ok {T : Type} {m : Metadata T} {root : Root} {roleName : String} {u : Unit}
    (h : verifyWithRoot E m root roleName = .ok u) : SignedByRole E m root roleName := by
  simp only [verifyWithRoot, bind_eq_ok, okOr_eq_ok] at h
  obtain ⟨roleKeys, hrole, hverify⟩ := h
  exact ⟨roleKeys, hrole, Metadata.signedToThreshold_of_verify _ hverify⟩

/-- `verify_root_self_signed` accepts roots that their own keys have signed to their own threshold.
-/
theorem verifyRootSelfSigned_ok {root : Metadata Root} {u : Unit}
    (h : verifyRootSelfSigned E root = .ok u) : SignedByRole E root root.signed "root" := by
  simp only [verifyRootSelfSigned, bind_eq_ok, okOr_eq_ok] at h
  obtain ⟨roleKeys, hrole, hverify⟩ := h
  exact ⟨roleKeys, hrole, Metadata.signedToThreshold_of_verify _ hverify⟩

/-- The next version is one more; where overflow is checked it is so as a number, and else it may
have wrapped around to zero. -/
theorem nextVersion_ok {v w : UInt64} (h : nextVersion E v = .ok w) :
    w = v + 1 ∧ (E.overflowChecks → w.toNat = v.toNat + 1) := by
  unfold nextVersion at h
  split at h
  · cases h
  · next hwrap =>
    cases h
    refine ⟨rfl, fun hchecks => ?_⟩
    have hne : (v + 1).toNat ≠ 0 := fun h0 => hwrap ⟨hchecks, UInt64.toNat_inj.1 h0⟩
    have hlt := v.toNat_lt
    rw [UInt64.toNat_add] at hne ⊢
    simp only [UInt64.reduceToNat] at hne ⊢
    omega

/-- An accepted root succeeds the trusted one, by a number where overflow is checked. -/
theorem checkRoot_ok {s : TrustedMetadataSet} {bytes : Bytes} {m : Metadata Root}
    (h : checkRoot E s bytes = .ok m) :
    Succeeds E s.root bytes m ∧
    (E.overflowChecks → m.signed.version.toNat = s.root.signed.version.toNat + 1) := by
  simp only [checkRoot, bind_eq_ok, mapError_eq_ok, rejectIf_eq_ok, pure_eq_ok] at h
  obtain ⟨m, hparse, expected, hnext, _, hversion, _, hroot, _, hself, rfl⟩ := h
  obtain ⟨hsucc, hnat⟩ := nextVersion_ok E hnext
  rw [← not_not.1 hversion] at hsucc hnat
  exact ⟨⟨hparse, hsucc, hroot, hself⟩, hnat⟩

/-- What `check_timestamp` establishes of a timestamp that it accepts, and of the one that is
trusted. -/
theorem checkTimestamp_ok {s : TrustedMetadataSet} {bytes : Bytes} {now : Int}
    {m : Metadata Timestamp} (h : checkTimestamp E s bytes now = .ok m) :
    Metadata.fromSlice E bytes = .ok m ∧ SignedByRole E m s.root.signed "timestamp" ∧
    (∀ cur, s.timestamp = some cur → checkTimestampRollback cur.signed m.signed = .ok ()) ∧
    ensureNotExpired E m.signed "timestamp" now = .ok () := by
  simp only [checkTimestamp, bind_eq_ok, whenSome_eq_ok, pure_eq_ok] at h
  obtain ⟨m, hparse, _, hroot, -, hrollback, _, hexpiry, rfl⟩ := h
  exact ⟨hparse, verifyWithRoot_ok E hroot, hrollback, hexpiry⟩

/-- What `check_snapshot` establishes of a snapshot that it accepts: its signers, its version and
its pins. -/
theorem checkSnapshot_ok {s : TrustedMetadataSet} {bytes : Bytes} {now : Int}
    {m : Metadata Snapshot} (h : checkSnapshot E s bytes now = .ok m) :
    SignedByRole E m s.root.signed "snapshot" ∧
    (∃ ts pin, s.timestamp = some ts ∧ ts.signed.snapshotMeta = some pin ∧
      m.signed.version = pin.version) ∧
    (∀ cur, s.snapshot = some cur →
      checkNoRollback m.signed cur.signed.metas.entries = .ok ()) := by
  simp only [checkSnapshot, bind_eq_ok, okOr_eq_ok, rejectIf_eq_ok, whenSome_eq_ok,
    pure_eq_ok] at h
  obtain ⟨ts, hts, _, -, pin, hpin, _, -, m, -, _, hroot, -, hversion, -, hrollback, _, -, rfl⟩ := h
  exact ⟨verifyWithRoot_ok E hroot, ⟨ts, pin, hts, hpin, not_not.1 hversion⟩, hrollback⟩

/-- An accepted targets file has the version at which the trusted snapshot pins it. -/
theorem verifyTargetsPin_ok {s : TrustedMetadataSet} {bytes : Bytes} {name : String} {now : Int}
    {m : Metadata Targets} (h : verifyTargetsPin E s bytes name now = .ok m) :
    ∃ snap pin, s.snapshot = some snap ∧
      snap.signed.metas.get? (name ++ ".json") = some pin ∧ m.signed.version = pin.version := by
  simp only [verifyTargetsPin, bind_eq_ok, okOr_eq_ok, rejectIf_eq_ok, pure_eq_ok] at h
  obtain ⟨snap, hsnap, _, -, pin, hpin, _, -, m, -, -, hversion, rfl⟩ := h
  exact ⟨snap, pin, hsnap, hpin, not_not.1 hversion⟩

/-- What `check_targets` establishes of top-level targets that it accepts. -/
theorem checkTargets_ok {s : TrustedMetadataSet} {bytes : Bytes} {now : Int} {m : Metadata Targets}
    (h : checkTargets E s bytes now = .ok m) :
    verifyTargetsPin E s bytes "targets" now = .ok m ∧
    SignedByRole E m s.root.signed "targets" := by
  simp only [checkTargets, bind_eq_ok, pure_eq_ok] at h
  obtain ⟨m, hpin, _, hroot, _, -, rfl⟩ := h
  exact ⟨hpin, verifyWithRoot_ok E hroot⟩

/-- The keys that a delegation exposes are keys of the delegations block. Keys that the entry names
and the block does not have are passed over, and count for nothing. -/
theorem get?_exposedKeys {keys : BTreeMap String Key} {keyids : List String}
    {acc : BTreeMap String Key} {k : String} {key : Key}
    (hacc : ∀ k key, acc.get? k = some key → keys.get? k = some key)
    (h : (keyids.foldl (fun acc kid =>
      match keys.get? kid with
      | some key => acc.insert kid key
      | none => acc) acc).get? k = some key) : keys.get? k = some key := by
  induction keyids generalizing acc with
  | nil => exact hacc k key h
  | cons kid keyids ih =>
    refine ih (fun k' key' h' => ?_) h
    dsimp only at h'
    split at h'
    · next key'' hkid =>
      rcases BTreeMap.get?_insert_eq_some h' with ⟨rfl, rfl⟩ | ⟨-, h'⟩
      · exact hkid
      · exact hacc k' key' h'
    · exact hacc k' key' h'

/-- What `check_delegated_targets` establishes of a delegated role that it accepts: its name, its
pin and the delegation that it is signed by. -/
theorem checkDelegatedTargets_ok {s : TrustedMetadataSet} {bytes : Bytes}
    {name delegatorName : String} {now : Int} {m : Metadata Targets}
    (h : checkDelegatedTargets E s bytes name delegatorName now = .ok m) :
    name ≠ "targets" ∧ verifyTargetsPin E s bytes name now = .ok m ∧
    ∃ delegator, s.targets.get? delegatorName = some delegator ∧
      SignedByDelegation E m delegator name := by
  simp only [checkDelegatedTargets, delegationAuthority, bind_eq_ok, okOr_eq_ok, rejectIf_eq_ok,
    pure_eq_ok] at h
  obtain ⟨-, hname, _, ⟨delegator, hdelegator, delegations, hdelegations, role, hrole, rfl⟩, m,
    hpin, _, hverify, _, -, rfl⟩ := h
  refine ⟨?_, hpin, delegator, hdelegator, delegations, role, hdelegations, hrole, ?_⟩
  · rintro rfl
    exact hname (by decide)
  · exact (Metadata.signedToThreshold_of_verify _ hverify).mono_keys _
      fun k key => get?_exposedKeys (by simp)

/-! ## The effect of a call -/

/-- A call that fails leaves the set unchanged. The operations check everything first and write
last, which `step_effect` is built on. -/
theorem apply_error {c : Call} {s : TrustedMetadataSet} {e : Abort}
    (h : (c.apply E s).1 = .error e) : (c.apply E s).2 = s := by
  cases c with
  | updateRoot bytes =>
    simp only [Call.apply, updateRoot] at h ⊢
    split at h <;> first | rfl | cases h
  | updateTimestamp bytes now =>
    simp only [Call.apply, updateTimestamp] at h ⊢
    split at h <;> first | rfl | cases h
  | updateSnapshot bytes now =>
    simp only [Call.apply, updateSnapshot] at h ⊢
    split at h <;> first | rfl | cases h
  | updateTargets bytes now =>
    simp only [Call.apply, updateTargets] at h ⊢
    split at h <;> first | rfl | cases h
  | updateDelegatedTargets bytes name delegatorName now =>
    simp only [Call.apply, updateDelegatedTargets] at h ⊢
    split at h <;> first | rfl | cases h

/-- What one call can do to the set. -/
inductive Effect (s : TrustedMetadataSet) : Call → TrustedMetadataSet → Prop where
  | unchanged {c : Call} {e : Abort} (error : (c.apply E s).1 = .error e) : Effect s c s
  | root {bytes : Bytes} {m : Metadata Root} (check : checkRoot E s bytes = .ok m) :
    Effect s (.updateRoot bytes)
      { root := m, timestamp := none, snapshot := none, targets := BTreeMap.empty }
  | timestamp {bytes : Bytes} {now : Int} {m : Metadata Timestamp}
    (check : checkTimestamp E s bytes now = .ok m) :
    Effect s (.updateTimestamp bytes now) { s with timestamp := some m }
  | snapshot {bytes : Bytes} {now : Int} {m : Metadata Snapshot}
    (check : checkSnapshot E s bytes now = .ok m) :
    Effect s (.updateSnapshot bytes now)
      { s with snapshot := some m, targets := BTreeMap.empty }
  | targets {bytes : Bytes} {now : Int} {m : Metadata Targets}
    (check : checkTargets E s bytes now = .ok m) :
    Effect s (.updateTargets bytes now) { s with targets := s.targets.insert "targets" m }
  | delegated {bytes : Bytes} {name delegatorName : String} {now : Int} {m : Metadata Targets}
    (check : checkDelegatedTargets E s bytes name delegatorName now = .ok m) :
    Effect s (.updateDelegatedTargets bytes name delegatorName now)
      { s with targets := s.targets.insert name m }

/-- Every call has one of these effects. The cases carry the check that the call passed, so that an
invariant need not look at the operation again. -/
theorem step_effect (s : TrustedMetadataSet) (c : Call) : Effect E s c (step E s c) := by
  cases hc : (c.apply E s).1 with
  | error e =>
    have hstep : step E s c = s := apply_error E hc
    rw [hstep]
    exact .unchanged hc
  | ok u =>
    cases c with
    | updateRoot bytes =>
      simp only [step, Call.apply, updateRoot] at hc ⊢
      split at hc
      · cases hc
      · next m hm => exact .root hm
    | updateTimestamp bytes now =>
      simp only [step, Call.apply, updateTimestamp] at hc ⊢
      split at hc
      · cases hc
      · next m hm => exact .timestamp hm
    | updateSnapshot bytes now =>
      simp only [step, Call.apply, updateSnapshot] at hc ⊢
      split at hc
      · cases hc
      · next m hm => exact .snapshot hm
    | updateTargets bytes now =>
      simp only [step, Call.apply, updateTargets] at hc ⊢
      split at hc
      · cases hc
      · next m hm => exact .targets hm
    | updateDelegatedTargets bytes name delegatorName now =>
      simp only [step, Call.apply, updateDelegatedTargets] at hc ⊢
      split at hc
      · cases hc
      · next m hm => exact .delegated hm

/-! ## Preservation -/

/-- The versions of a chain do not go down. -/
theorem RootChain.version_le {bootstrap r : Metadata Root} (h : RootChain E bootstrap r) :
    bootstrap.signed.version.toNat ≤ r.signed.version.toNat := by
  induction h with
  | bootstrap => exact Nat.le_refl _
  | next _ version _ _ ih => omega

/-- A call that counts up keeps the chain of roots. Only an update of the root can add a link, and a
link is numbered one higher unless the addition has wrapped around. -/
theorem RootChain.step {bootstrap : Metadata Root} {s : TrustedMetadataSet} {c : Call}
    (h : RootChain E bootstrap s.root) (hcount : CountsUp E s c) :
    RootChain E bootstrap (step E s c).root := by
  have heffect := step_effect E s c
  generalize Tuf.step E s c = s' at heffect
  cases heffect with
  | unchanged | timestamp | snapshot | targets | delegated => exact h
  | @root bytes m check =>
    obtain ⟨hnext, hnat⟩ := checkRoot_ok E check
    have hversion : m.signed.version.toNat = s.root.signed.version.toNat + 1 := by
      rcases hcount with hchecks | hfits
      · exact hnat hchecks
      · have hlt := hfits bytes m rfl hnext
        rw [hnext.version, UInt64.toNat_add, UInt64.toNat_one, Nat.mod_eq_of_lt hlt]
    exact .next h hversion (verifyWithRoot_ok E hnext.signed)
      (verifyRootSelfSigned_ok E hnext.selfSigned)

/-- A call that does not count up adopts a root of version 0 after one of the last version. So the
only gap in a chain of roots is the one from the last version to 0, in a build that does not check
for overflow. -/
theorem step_of_not_countsUp {s : TrustedMetadataSet} {c : Call} (h : ¬ CountsUp E s c) :
    s.root.signed.version.toNat + 1 = 2 ^ 64 ∧ (step E s c).root.signed.version.toNat = 0 := by
  simp only [CountsUp, not_or, not_forall, Bool.not_eq_true] at h
  obtain ⟨hchecks, bytes, next, rfl, hnext, hlast⟩ := h
  have hlt := s.root.signed.version.toNat_lt
  have hend : s.root.signed.version.toNat + 1 = 2 ^ 64 := by omega
  have hversion : nextVersion E s.root.signed.version = .ok next.signed.version := by
    rw [nextVersion, if_neg (by simp [hchecks]), hnext.version]
  have hcheck : checkRoot E s bytes = .ok next := by
    simp only [checkRoot, bind_eq_ok, mapError_eq_ok, rejectIf_eq_ok, pure_eq_ok]
    exact ⟨next, hnext.parsed, _, hversion, (), not_not.2 rfl, (), hnext.signed, (),
      hnext.selfSigned, rfl⟩
  refine ⟨hend, ?_⟩
  have hstep : (step E s (.updateRoot bytes)).root = next := by
    simp only [step, Call.apply, updateRoot, hcheck]
  rw [hstep, hnext.version, UInt64.toNat_add, UInt64.toNat_one, hend, Nat.mod_self]

/-- Every call preserves the invariant. One case for each effect: a new root clears what was signed
under the old one, and every other role is verified under the root that stays. -/
theorem Trusted.step {s : TrustedMetadataSet} (h : Trusted E s) (c : Call) :
    Trusted E (step E s c) := by
  have heffect := step_effect E s c
  generalize Tuf.step E s c = s' at heffect
  cases heffect with
  | unchanged => exact h
  | root =>
    exact {
      timestamp := by simp
      snapshot := by simp
      targets := by simp
      snapshot_timestamp := by simp
      pinned := by simp }
  | timestamp check =>
    obtain ⟨-, hsigned, -, -⟩ := checkTimestamp_ok E check
    exact {
      timestamp := fun m hm => by cases hm; exact hsigned
      snapshot := h.snapshot
      targets := h.targets
      snapshot_timestamp := fun _ => rfl
      pinned := h.pinned }
  | snapshot check =>
    obtain ⟨hsigned, ⟨ts, pin, hts, -, -⟩, -⟩ := checkSnapshot_ok E check
    exact {
      timestamp := h.timestamp
      snapshot := fun m hm => by cases hm; exact hsigned
      targets := by simp
      snapshot_timestamp := fun _ => by simp [hts]
      pinned := by simp }
  | targets check =>
    obtain ⟨hpin, hsigned⟩ := checkTargets_ok E check
    exact {
      timestamp := h.timestamp
      snapshot := h.snapshot
      targets := fun m hm => by
        rw [BTreeMap.get?_insert_self] at hm
        cases hm
        exact hsigned
      snapshot_timestamp := h.snapshot_timestamp
      pinned := fun name m hm => by
        rcases BTreeMap.get?_insert_eq_some hm with ⟨rfl, rfl⟩ | ⟨-, hm⟩
        · exact verifyTargetsPin_ok E hpin
        · exact h.pinned name m hm }
  | delegated check =>
    obtain ⟨hname, hpin, -⟩ := checkDelegatedTargets_ok E check
    exact {
      timestamp := h.timestamp
      snapshot := h.snapshot
      targets := fun m hm => by
        rw [BTreeMap.get?_insert_of_ne _ _ hname.symm] at hm
        exact h.targets m hm
      snapshot_timestamp := h.snapshot_timestamp
      pinned := fun name m hm => by
        rcases BTreeMap.get?_insert_eq_some hm with ⟨rfl, rfl⟩ | ⟨-, hm⟩
        · exact verifyTargetsPin_ok E hpin
        · exact h.pinned name m hm }

/-- A role that was accepted among some calls was accepted among more calls. -/
theorem AcceptedUnder.extend {s₀ : TrustedMetadataSet} {calls calls' : List Call}
    {root : Metadata Root} {snap : Option (Metadata Snapshot)} {name : String}
    {m : Metadata Targets} (h : AcceptedUnder E s₀ calls root snap name m)
    (hext : calls <+: calls') : AcceptedUnder E s₀ calls' root snap name m := by
  induction h with
  | topLevel call root_eq snapshot_eq accepted signed =>
    exact .topLevel (call.trans hext) root_eq snapshot_eq accepted signed
  | delegated call root_eq snapshot_eq accepted _ signed ih =>
    exact .delegated (call.trans hext) root_eq snapshot_eq accepted ih signed

/-- After any calls, every targets role was accepted under the current root and snapshot. By
induction from the last call backwards, since a later call can clear the targets but cannot make one
accepted. -/
theorem acceptedUnder_run {s₀ : TrustedMetadataSet} (h₀ : s₀.targets = BTreeMap.empty)
    (calls : List Call) {name : String} {m : Metadata Targets}
    (hm : (runCalls E s₀ calls).targets.get? name = some m) :
    AcceptedUnder E s₀ calls (runCalls E s₀ calls).root (runCalls E s₀ calls).snapshot name m := by
  refine Runs.run_induction (Tuf.step E) (s := s₀) (P := fun calls s => ∀ name m,
    s.targets.get? name = some m → AcceptedUnder E s₀ calls s.root s.snapshot name m)
    (by simp [h₀]) (fun before c ih => ?_) calls name m hm
  have hext : before <+: before ++ [c] := List.prefix_append _ _
  have heffect := step_effect E (Runs.run (Tuf.step E) s₀ before) c
  generalize Tuf.step E (Runs.run (Tuf.step E) s₀ before) c = s' at heffect
  cases heffect with
  | unchanged => exact fun name m hm => (ih name m hm).extend E hext
  | root => simp
  | timestamp => exact fun name m hm => (ih name m hm).extend E hext
  | snapshot => simp
  | targets check =>
    intro name m hm
    rcases BTreeMap.get?_insert_eq_some hm with ⟨rfl, rfl⟩ | ⟨-, hm⟩
    · exact .topLevel List.prefix_rfl rfl rfl check (checkTargets_ok E check).2
    · exact (ih name m hm).extend E hext
  | delegated check =>
    intro name m hm
    rcases BTreeMap.get?_insert_eq_some hm with ⟨rfl, rfl⟩ | ⟨-, hm⟩
    · obtain ⟨-, -, delegator, hdelegator, hsigned⟩ := checkDelegatedTargets_ok E check
      exact .delegated List.prefix_rfl rfl rfl check ((ih _ _ hdelegator).extend E hext) hsigned
    · exact (ih name m hm).extend E hext

/-- A bootstrap root is signed by its own `root` role, and nothing else is trusted yet. -/
theorem fromRoot_ok {bytes : Bytes} {s : TrustedMetadataSet} (h : fromRoot E bytes = .ok s) :
    SignedByRole E s.root s.root.signed "root" ∧ s.timestamp = none ∧ s.snapshot = none ∧
    s.targets = BTreeMap.empty := by
  simp only [fromRoot, bind_eq_ok, pure_eq_ok] at h
  obtain ⟨root, -, _, hself, rfl⟩ := h
  exact ⟨verifyRootSelfSigned_ok E hself, rfl, rfl, rfl⟩

/-- A bootstrapped set satisfies the invariant. -/
theorem trusted_fromRoot {bytes : Bytes} {s : TrustedMetadataSet} (h : fromRoot E bytes = .ok s) :
    Trusted E s := by
  obtain ⟨-, hts, hsnap, htargets⟩ := fromRoot_ok E h
  exact {
    timestamp := by simp [hts]
    snapshot := by simp [hsnap]
    targets := by simp [htargets]
    snapshot_timestamp := by simp [hsnap]
    pinned := by simp [htargets] }

/-- **Nothing is trusted without authority.** After any calls on a set bootstrapped from a root,
whatever their bytes and clocks and whether they succeed or fail: the top-level roles and the pinned
versions satisfy `Trusted`, every targets role was accepted under the current root and snapshot
along a chain of delegations from the top level, and a further call that fails leaves the set as it
is. Where every call counts up, the root is linked to the bootstrap root by versions that go up one
by one; a further call that does not adopts a root of version 0 after one of the last version. -/
theorem trustedMetadataSet_sound {bytes : Bytes} {s₀ : TrustedMetadataSet}
    (h : fromRoot E bytes = .ok s₀) (calls : List Call) :
    (Runs.Along (Tuf.step E) (CountsUp E) s₀ calls →
      RootChain E s₀.root (runCalls E s₀ calls).root) ∧
    (∀ c, ¬ CountsUp E (runCalls E s₀ calls) c →
      (runCalls E s₀ calls).root.signed.version.toNat + 1 = 2 ^ 64 ∧
      (Tuf.step E (runCalls E s₀ calls) c).root.signed.version.toNat = 0) ∧
    Trusted E (runCalls E s₀ calls) ∧
    (∀ name m, (runCalls E s₀ calls).targets.get? name = some m →
      AcceptedUnder E s₀ calls (runCalls E s₀ calls).root (runCalls E s₀ calls).snapshot name m) ∧
    ∀ c e, (Call.apply E (runCalls E s₀ calls) c).1 = .error e →
      (Call.apply E (runCalls E s₀ calls) c).2 = runCalls E s₀ calls := by
  refine ⟨fun hcount => ?_, fun c => step_of_not_countsUp E, ?_,
    fun name m => acceptedUnder_run E (fromRoot_ok E h).2.2.2 calls, fun c e => apply_error E⟩
  · exact hcount.keeps (P := fun s => RootChain E s₀.root s.root) (fun _ _ hs hc => hs.step E hc)
      (.bootstrap (fromRoot_ok E h).1)
  · exact Runs.run_invariant (Tuf.step E) (fun _ c hs => hs.step E c) (trusted_fromRoot E h) calls

end

namespace Sample

/-- The calls that load the repository down to its delegated role. -/
def calls : List Call :=
  [.updateTimestamp (file (timestamp 1 [("snapshot.json", 5)])) 0,
    .updateSnapshot (file (snapshot 5)) 0,
    .updateTargets (file (targets [delegations])) 0,
    .updateDelegatedTargets (file (targets [])) "d" "targets" 0]

/-- Whether the delegated role is trusted after the calls. -/
def delegatedTrusted : Bool :=
  (fromRoot env (file root)).toOption.any fun s₀ =>
    ((runCalls env s₀ calls).targets.get? "d").isSome

end Sample

/-- The repository's delegated role is trusted after its calls, and its root is linked to the
bootstrap root. -/
theorem trustedMetadataSet_sound_delegated :
    ∃ s₀ m, fromRoot Sample.env (Sample.file Sample.root) = .ok s₀ ∧
      (runCalls Sample.env s₀ Sample.calls).targets.get? "d" = some m ∧
      RootChain Sample.env s₀.root (runCalls Sample.env s₀ Sample.calls).root ∧
      Trusted Sample.env (runCalls Sample.env s₀ Sample.calls) ∧
      AcceptedUnder Sample.env s₀ Sample.calls (runCalls Sample.env s₀ Sample.calls).root
        (runCalls Sample.env s₀ Sample.calls).snapshot "d" m := by
  have heval : Sample.delegatedTrusted = true := by decide +kernel
  obtain ⟨s₀, h, hloaded⟩ := any_toOption_iff.1 heval
  obtain ⟨m, hm⟩ := Option.isSome_iff_exists.1 hloaded
  obtain ⟨hchain, -, htrusted, haccepted, -⟩ := trustedMetadataSet_sound Sample.env h Sample.calls
  have hcount : Runs.Along (step Sample.env) (CountsUp Sample.env) s₀ Sample.calls :=
    (Runs.along_iff _ _ _ _).2 fun _ _ _ _ => .inl rfl
  exact ⟨s₀, m, h, hm, hchain hcount, htrusted, haccepted "d" m hm⟩

namespace Sample

/-- The repository's root under some version. -/
def rootVersion (version : UInt64) : Json :=
  signedBy (payload "root" version [keyring, ("roles", .object [("root", roleKeys),
    ("snapshot", roleKeys), ("targets", roleKeys), ("timestamp", roleKeys)])])

/-- The last version. -/
def lastVersion : UInt64 := 18446744073709551615

/-- A build that does not check overflow, over roots of the last version and of version 0. -/
def wrappingEnv : Env :=
  { env with
    parseJson := fun bytes =>
      match [rootVersion lastVersion, rootVersion 0].find? fun v => file v == bytes with
      | some v => .ok v
      | none => .error (.custom "expected value at line 1 column 1")
    overflowChecks := false }

/-- Whether the root of version 0 is adopted after the one of the last version. -/
def wraps : Bool :=
  (fromRoot wrappingEnv (file (rootVersion lastVersion))).toOption.any fun s₀ =>
    s₀.root.signed.version == lastVersion &&
    (Call.apply wrappingEnv s₀ (.updateRoot (file (rootVersion 0)))).1.isOk &&
    (runCalls wrappingEnv s₀ [.updateRoot (file (rootVersion 0))]).root.signed.version == 0

end Sample

/-- Without overflow checks, a root of version 0 is adopted after one of the last version, and no
chain links it to the bootstrap root. -/
theorem trustedMetadataSet_sound_wraps :
    ∃ s₀, fromRoot Sample.wrappingEnv (Sample.file (Sample.rootVersion Sample.lastVersion)) =
        .ok s₀ ∧
      (Call.apply Sample.wrappingEnv s₀ (.updateRoot (Sample.file (Sample.rootVersion 0)))).1 =
        .ok () ∧
      ¬ RootChain Sample.wrappingEnv s₀.root (runCalls Sample.wrappingEnv s₀
        [.updateRoot (Sample.file (Sample.rootVersion 0))]).root := by
  have heval : Sample.wraps = true := by decide +kernel
  obtain ⟨s₀, h, hwraps⟩ := any_toOption_iff.1 heval
  simp only [Bool.and_eq_true, beq_iff_eq, isOk_iff] at hwraps
  obtain ⟨⟨hlast, _, haccepted⟩, hzero⟩ := hwraps
  refine ⟨s₀, h, haccepted, fun hchain => ?_⟩
  have hle := hchain.version_le
  rw [hlast, hzero] at hle
  exact absurd hle (by decide)

end Sigstore.Tuf
