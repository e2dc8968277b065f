import Sigstore.Tuf.Monotone

/-!
# Targets under a superseded snapshot

A snapshot is current (`SnapshotCurrent`) when it has the version that the trusted timestamp pins. A
new timestamp can pin another version, and the snapshot that was trusted before stays until a new
one is accepted. `update_targets` and `update_delegated_targets` look at the expiry of the trusted
snapshot and not at the timestamp's pin, so that they accept files under a snapshot that has been
superseded: exactly where `Superseded` holds of the calls so far (`accepts_current_iff`,
`accepts_superseded`).
-/

namespace Sigstore.Tuf

open Sigstore.Crypto Checks TrustedMetadataSet

/-- The trusted snapshot has the version that the trusted timestamp pins. -/
def SnapshotCurrent (s : TrustedMetadataSet) : Prop :=
  ∃ v, s.snapshotVersion = some v ∧ s.pinnedSnapshot = some v

section
variable (E : Env)

/-- The call replaces the root, the timestamp or the snapshot. -/
def Renews (s : TrustedMetadataSet) (c : Call) : Prop :=
  match c with
  | .updateRoot _ | .updateTimestamp _ _ | .updateSnapshot _ _ => (c.apply E s).1 = .ok ()
  | _ => False

/-- The last of the calls that replaced the root, the timestamp or the snapshot accepted a timestamp
which pins another version than that of the snapshot that was trusted. -/
inductive Superseded (s₀ : TrustedMetadataSet) : List Call → Prop where
  | timestamp {before : List Call} {bytes : Bytes} {now : Int} {m : Metadata Timestamp}
    (check : checkTimestamp E (runCalls E s₀ before) bytes now = .ok m)
    (other : m.signed.snapshotMeta.map (·.version) ≠ (runCalls E s₀ before).snapshotVersion) :
    Superseded s₀ (before ++ [.updateTimestamp bytes now])
  | later {before : List Call} {c : Call} (superseded : Superseded s₀ before)
    (keeps : ¬ Renews E (runCalls E s₀ before) c) : Superseded s₀ (before ++ [c])

variable {E}

/-- After one more call, the snapshot is superseded by it or was before and has not been renewed. -/
theorem superseded_concat {s₀ : TrustedMetadataSet} {before : List Call} {c : Call}
    (h : Superseded E s₀ (before ++ [c])) :
    (∃ bytes now m, c = .updateTimestamp bytes now ∧
      checkTimestamp E (runCalls E s₀ before) bytes now = .ok m ∧
      m.signed.snapshotMeta.map (·.version) ≠ (runCalls E s₀ before).snapshotVersion) ∨
    (Superseded E s₀ before ∧ ¬ Renews E (runCalls E s₀ before) c) := by
  generalize hcalls : before ++ [c] = calls at h
  cases h with
  | timestamp check other =>
    obtain ⟨rfl, hc⟩ := List.append_inj' hcalls rfl
    exact .inl ⟨_, _, _, List.singleton_inj.1 hc, check, other⟩
  | later superseded keeps =>
    obtain ⟨rfl, hc⟩ := List.append_inj' hcalls rfl
    cases List.singleton_inj.1 hc
    exact .inr ⟨superseded, keeps⟩

/-- An accepted timestamp replaces the trusted one and nothing else. -/
theorem updateTimestamp_eq_ok {s : TrustedMetadataSet} {bytes : Bytes} {now : Int}
    {m : Metadata Timestamp} (h : checkTimestamp E s bytes now = .ok m) :
    updateTimestamp E s bytes now = (.ok (), { s with timestamp := some m }) := by
  simp only [updateTimestamp, h]

/-- A call that renews nothing leaves the snapshot superseded or not. -/
theorem superseded_concat_of_not_renews {s₀ : TrustedMetadataSet} {before : List Call} {c : Call}
    (h : ¬ Renews E (runCalls E s₀ before) c) :
    Superseded E s₀ (before ++ [c]) ↔ Superseded E s₀ before := by
  constructor
  · intro hsuper
    rcases superseded_concat hsuper with ⟨bytes, now, m, rfl, check, -⟩ | ⟨hbefore, -⟩
    · exact absurd (congrArg Prod.fst (updateTimestamp_eq_ok check)) h
    · exact hbefore
  · exact fun hbefore => .later hbefore h

/-- Where a snapshot is trusted it is current, unless it has been superseded. -/
def CurrentUnlessSuperseded (s₀ : TrustedMetadataSet) (calls : List Call)
    (s : TrustedMetadataSet) : Prop :=
  ∀ v, s.snapshotVersion = some v → (s.pinnedSnapshot = some v ↔ ¬ Superseded E s₀ calls)

/-- One more call keeps the snapshot current or superseded. -/
theorem currentUnlessSuperseded_concat {s₀ : TrustedMetadataSet} {before : List Call} {c : Call}
    (ih : CurrentUnlessSuperseded (E := E) s₀ before (runCalls E s₀ before)) :
    CurrentUnlessSuperseded (E := E) s₀ (before ++ [c]) (step E (runCalls E s₀ before) c) := by
  intro v hv
  have heffect := step_effect E (runCalls E s₀ before) c
  generalize step E (runCalls E s₀ before) c = s' at heffect hv
  cases heffect with
  | unchanged error =>
    have hkeeps : ¬ Renews E (runCalls E s₀ before) c := by
      intro hrenews
      cases c with
      | updateRoot => exact absurd (error.symm.trans hrenews) nofun
      | updateTimestamp => exact absurd (error.symm.trans hrenews) nofun
      | updateSnapshot => exact absurd (error.symm.trans hrenews) nofun
      | updateTargets => exact hrenews
      | updateDelegatedTargets => exact hrenews
    rw [superseded_concat_of_not_renews hkeeps]
    exact ih v hv
  | root check => cases hv
  | timestamp check =>
    -- the timestamp renews the pin, so only whether it pins the trusted snapshot counts
    have hrenews : Renews E (runCalls E s₀ before) (.updateTimestamp _ _) :=
      congrArg Prod.fst (updateTimestamp_eq_ok check)
    have hversion : (runCalls E s₀ before).snapshotVersion = some v := hv
    constructor
    · intro hpin hsuper
      rcases superseded_concat hsuper with ⟨bytes, now, m, heq, hcheck, hother⟩ | ⟨-, hkeeps⟩
      · cases heq
        cases check.symm.trans hcheck
        exact hother (hpin.trans hversion.symm)
      · exact hkeeps hrenews
    · intro hnot
      by_contra hpin
      exact hnot (.timestamp check fun heq => hpin (heq.trans hversion))
  | snapshot check =>
    obtain ⟨-, ⟨ts, pin, hts, hpin, hmatch⟩, -⟩ := checkSnapshot_ok E check
    refine iff_of_true ?_ ?_
    · cases hv
      simp only [pinnedSnapshot, hts, Option.bind_some, hpin, Option.map_some, hmatch]
    · intro hsuper
      rcases superseded_concat hsuper with ⟨_, _, _, heq, -⟩ | ⟨-, hkeeps⟩
      · cases heq
      · exact hkeeps (by simp only [Renews, Call.apply, updateSnapshot, check])
  | @targets bytes now m check =>
    have hkeeps : ¬ Renews E (runCalls E s₀ before) (.updateTargets bytes now) := id
    rw [superseded_concat_of_not_renews hkeeps]
    exact ih v hv
  | @delegated bytes name delegatorName now m check =>
    have hkeeps : ¬ Renews E (runCalls E s₀ before)
        (.updateDelegatedTargets bytes name delegatorName now) := id
    rw [superseded_concat_of_not_renews hkeeps]
    exact ih v hv

variable (E)

/-- **When targets are accepted under a current snapshot.** After any calls on a set bootstrapped
from a root: where `update_targets` or `update_delegated_targets` accepts a file, the trusted
snapshot has the version that the trusted timestamp pins if and only if no accepted timestamp has
superseded it. -/
theorem accepts_current_iff {bytes : Bytes} {s₀ : TrustedMetadataSet}
    (h : fromRoot E bytes = .ok s₀) (calls : List Call) {c : Call} {name : String}
    {m : Metadata Targets} (haccepts : Accepts E (runCalls E s₀ calls) c name m) :
    SnapshotCurrent (runCalls E s₀ calls) ↔ ¬ Superseded E s₀ calls := by
  have hrun : CurrentUnlessSuperseded (E := E) s₀ calls (runCalls E s₀ calls) := by
    refine Runs.run_induction (step E) (P := CurrentUnlessSuperseded (E := E) s₀) ?_ ?_ calls
    · intro v hv
      obtain ⟨-, -, hsnap, -⟩ := fromRoot_ok E h
      simp [snapshotVersion, hsnap] at hv
    · intro before c ih
      exact currentUnlessSuperseded_concat ih
  obtain ⟨snap, hsnap, -⟩ := Option.bind_eq_some_iff.1 haccepts.pin
  have hversion : (runCalls E s₀ calls).snapshotVersion = some snap.signed.version := by
    rw [snapshotVersion, hsnap]
    rfl
  rw [← hrun _ hversion]
  constructor
  · rintro ⟨v, hv, hpin⟩
    cases hversion.symm.trans hv
    exact hpin
  · exact fun hpin => ⟨_, hversion, hpin⟩

end

/-- The delegated role of the small repository is accepted under a snapshot that is current and has
not been superseded. -/
theorem accepts_current_iff_delegated :
    ∃ s₀ m, fromRoot Sample.env (Sample.file Sample.root) = .ok s₀ ∧
      Accepts Sample.env (runCalls Sample.env s₀ (Sample.calls.take 3))
        (.updateDelegatedTargets (Sample.file (Sample.targets [])) "d" "targets" 0) "d" m ∧
      (SnapshotCurrent (runCalls Sample.env s₀ (Sample.calls.take 3)) ↔
        ¬ Superseded Sample.env s₀ (Sample.calls.take 3)) := by
  have heval : (fromRoot Sample.env (Sample.file Sample.root)).toOption.any (fun s₀ =>
      (checkDelegatedTargets Sample.env (runCalls Sample.env s₀ (Sample.calls.take 3))
        (Sample.file (Sample.targets [])) "d" "targets" 0).isOk) = true := by decide +kernel
  obtain ⟨s₀, h, hok⟩ := Checks.any_toOption_iff.1 heval
  obtain ⟨m, hm⟩ := Checks.isOk_iff.1 hok
  exact ⟨s₀, m, h, .delegated hm, accepts_current_iff Sample.env h _ (.delegated hm)⟩

/-- The repository publishes a newer timestamp, which pins version 6 of the snapshot. -/
def Sample.newerTimestamp : Json := timestamp 2 [("snapshot.json", 6)]

def Sample.newerEnv : Env :=
  { env with
    parseJson := fun bytes =>
      if bytes = file newerTimestamp then .ok newerTimestamp else env.parseJson bytes }

/-- A first refresh, and the beginning of a second one that stops before its snapshot. -/
def Sample.interrupted : List Call :=
  [.updateTimestamp (file (timestamp 1 [("snapshot.json", 5)])) 0,
    .updateSnapshot (file (snapshot 5)) 0,
    .updateTargets (file (targets [delegations])) 0,
    .updateTimestamp (file newerTimestamp) 0]

/-- After the interrupted refresh, a delegated role is accepted under version 5 of the snapshot
while the trusted timestamp pins version 6. -/
theorem accepts_superseded :
    ∃ s₀ m, fromRoot Sample.newerEnv (Sample.file Sample.root) = .ok s₀ ∧
      Accepts Sample.newerEnv (runCalls Sample.newerEnv s₀ Sample.interrupted)
        (.updateDelegatedTargets (Sample.file (Sample.targets [])) "d" "targets" 0) "d" m ∧
      (runCalls Sample.newerEnv s₀ Sample.interrupted).snapshotVersion = some 5 ∧
      (runCalls Sample.newerEnv s₀ Sample.interrupted).pinnedSnapshot = some 6 ∧
      ¬ SnapshotCurrent (runCalls Sample.newerEnv s₀ Sample.interrupted) := by
  have heval : (fromRoot Sample.newerEnv (Sample.file Sample.root)).toOption.any (fun s₀ =>
      (checkDelegatedTargets Sample.newerEnv (runCalls Sample.newerEnv s₀ Sample.interrupted)
        (Sample.file (Sample.targets [])) "d" "targets" 0).isOk &&
      decide ((runCalls Sample.newerEnv s₀ Sample.interrupted).snapshotVersion = some 5 ∧
        (runCalls Sample.newerEnv s₀ Sample.interrupted).pinnedSnapshot = some 6)) = true := by
    decide +kernel
  obtain ⟨s₀, h, haccepted⟩ := Checks.any_toOption_iff.1 heval
  obtain ⟨hok, hversions⟩ := Bool.and_eq_true_iff.1 haccepted
  obtain ⟨m, hm⟩ := Checks.isOk_iff.1 hok
  obtain ⟨hsnap, hpin⟩ := of_decide_eq_true hversions
  refine ⟨s₀, m, h, .delegated hm, hsnap, hpin, ?_⟩
  rintro ⟨v, hv, hv'⟩
  cases hsnap.symm.trans hv
  cases hpin.symm.trans hv'

end Sigstore.Tuf
