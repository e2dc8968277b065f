import Sigstore.Tuf.Rollback

/-!
# Versions only grow

Between two root updates, what a client has trusted is a floor for what it trusts later
(`NoLower`): the timestamp's version, and the version at which the snapshot pins each name. One call
respects it (`step_noLower`), so every run does, and since targets files are accepted only at the
version that the trusted snapshot pins, the versions of the accepted files of a role never decrease
either, however often its file is dropped and loaded again (`versions_monotone`).
-/

namespace Sigstore.Tuf

open Sigstore.Crypto Checks TrustedMetadataSet

/-- The version of the trusted timestamp. -/
def TrustedMetadataSet.timestampVersion (s : TrustedMetadataSet) : Option UInt64 :=
  s.timestamp.map (·.signed.version)

/-- The version at which the trusted snapshot pins a name. -/
def TrustedMetadataSet.snapshotPin (s : TrustedMetadataSet) (name : String) : Option UInt64 :=
  s.snapshot.bind fun m => (m.signed.metas.get? name).map (·.version)

/-- The later set has a timestamp and pins where the earlier one has, and no version is lower. -/
structure NoLower (s t : TrustedMetadataSet) : Prop where
  timestamp : NotLower s.timestampVersion t.timestampVersion
  pins : ∀ name, NotLower (s.snapshotPin name) (t.snapshotPin name)

theorem NoLower.refl (s : TrustedMetadataSet) : NoLower s s := ⟨.refl _, fun _ => .refl _⟩

/-- Versions that are not lower after each of two steps are not lower after both. -/
theorem NoLower.trans {s t u : TrustedMetadataSet} (hst : NoLower s t) (htu : NoLower t u) :
    NoLower s u :=
  ⟨hst.timestamp.trans htu.timestamp, fun name => (hst.pins name).trans (htu.pins name)⟩

/-- What the loop over the trusted snapshot's pins establishes. The loop stops at the first pin that
is missing or lower, so that its success speaks of all of them. -/
theorem checkNoRollback_ok {new : Snapshot} {entries : List (String × MetaFile)}
    (h : checkNoRollback new entries = .ok ()) :
    ∀ name cur, (name, cur) ∈ entries →
      ∃ newMeta, new.metas.get? name = some newMeta ∧ cur.version ≤ newMeta.version := by
  induction entries with
  | nil =>
    intro name cur hmem
    cases hmem
  | cons p l ih =>
    obtain ⟨name, curMeta⟩ := p
    unfold checkNoRollback at h
    split at h
    · cases h
    · next newMeta hget =>
      split at h
      · cases h
      · next hge =>
        intro name' cur' hmem
        rcases List.mem_cons.1 hmem with heq | hmem
        · cases heq
          exact ⟨newMeta, hget, UInt64.not_lt.1 hge⟩
        · exact ih h name' cur' hmem

section
variable (E : Env)

/-- The call accepts a targets file for a role. -/
inductive Accepts (s : TrustedMetadataSet) : Call → String → Metadata Targets → Prop where
  | topLevel {bytes : Bytes} {now : Int} {m : Metadata Targets}
    (check : checkTargets E s bytes now = .ok m) :
    Accepts s (.updateTargets bytes now) "targets" m
  | delegated {bytes : Bytes} {name delegatorName : String} {now : Int} {m : Metadata Targets}
    (check : checkDelegatedTargets E s bytes name delegatorName now = .ok m) :
    Accepts s (.updateDelegatedTargets bytes name delegatorName now) name m

variable {E}

/-- A targets file is accepted at the version that the trusted snapshot pins. -/
theorem Accepts.pin {s : TrustedMetadataSet} {c : Call} {name : String} {m : Metadata Targets}
    (h : Accepts E s c name m) : s.snapshotPin (name ++ ".json") = some m.signed.version := by
  have hpin : ∀ {bytes now}, verifyTargetsPin E s bytes name now = .ok m →
      s.snapshotPin (name ++ ".json") = some m.signed.version := by
    intro bytes now hverify
    obtain ⟨snap, pin, hsnap, hmeta, hversion⟩ := verifyTargetsPin_ok E hverify
    rw [snapshotPin, hsnap, hversion]
    exact congrArg (Option.map (·.version)) hmeta
  cases h with
  | topLevel check => exact hpin (checkTargets_ok E check).1
  | delegated check => exact hpin (checkDelegatedTargets_ok E check).2.1

/-- An accepted timestamp is newer than the trusted one. -/
theorem timestampVersion_lt {s : TrustedMetadataSet} {bytes : Bytes} {now : Int}
    {m : Metadata Timestamp} (h : checkTimestamp E s bytes now = .ok m) {v : UInt64}
    (hv : s.timestampVersion = some v) : v < m.signed.version := by
  obtain ⟨cur, hcur, rfl⟩ := Option.map_eq_some_iff.1 hv
  obtain ⟨-, -, hrollback, -⟩ := checkTimestamp_ok E h
  have hcheck := hrollback cur hcur
  simp only [checkTimestampRollback, bind_eq_ok, rejectIf_eq_ok] at hcheck
  obtain ⟨-, hge, -, hne, -⟩ := hcheck
  exact UInt64.lt_of_le_of_ne (UInt64.not_lt.1 hge) (Ne.symm hne)

/-- An accepted snapshot pins what the trusted one pins, at no lower version. -/
theorem snapshotPin_notLower {s : TrustedMetadataSet} {bytes : Bytes} {now : Int}
    {m : Metadata Snapshot} (h : checkSnapshot E s bytes now = .ok m) (name : String) :
    NotLower (s.snapshotPin name) ((m.signed.metas.get? name).map (·.version)) := by
  intro v hv
  obtain ⟨cur, hcur, hpin⟩ := Option.bind_eq_some_iff.1 hv
  obtain ⟨curMeta, hmeta, rfl⟩ := Option.map_eq_some_iff.1 hpin
  obtain ⟨-, -, hrollback⟩ := checkSnapshot_ok E h
  obtain ⟨newMeta, hnew, hle⟩ := checkNoRollback_ok (hrollback cur hcur) name curMeta
    ((BTreeMap.mem_entries_iff _).2 hmeta)
  exact ⟨newMeta.version, by rw [hnew]; rfl, hle⟩

/-- A call that does not update the root lowers nothing. The timestamp and the snapshot are compared
with what they replace; the targets do not count. -/
theorem step_noLower {s : TrustedMetadataSet} {c : Call} (hroot : ¬ UpdatesRoot E s c) :
    NoLower s (step E s c) := by
  have heffect := step_effect E s c
  generalize step E s c = s' at heffect
  cases heffect with
  | unchanged => exact .refl _
  | root check => exact absurd (by simp [UpdatesRoot, updateRoot, check]) hroot
  | timestamp check =>
    exact ⟨fun v hv => ⟨_, rfl, UInt64.le_of_lt (timestampVersion_lt check hv)⟩,
      fun _ => .refl _⟩
  | snapshot check => exact ⟨.refl _, snapshotPin_notLower check⟩
  | targets check => exact ⟨.refl _, fun _ => .refl _⟩
  | delegated check => exact ⟨.refl _, fun _ => .refl _⟩

variable (E)

/-- In a run without a root update, a later set is no lower than an earlier one. -/
theorem run_noLower {s₀ : TrustedMetadataSet} {calls : List Call}
    (hroot : ∀ before c, before ++ [c] <+: calls → ¬ UpdatesRoot E (runCalls E s₀ before) c)
    {earlier later : List Call} (hle : earlier <+: later) (hlater : later <+: calls) :
    NoLower (runCalls E s₀ earlier) (runCalls E s₀ later) :=
  Runs.run_mono (step E) (P := fun _ => True) (C := fun s c => ¬ UpdatesRoot E s c)
    (fun _ _ _ _ => trivial) trivial hroot .refl (fun _ _ _ => .trans)
    (fun _ _ _ => step_noLower) hle hlater

/-- **Versions only grow between root updates.** In every run without a successful root update:
every accepted timestamp is newer than the trusted one; a name that a trusted snapshot pins stays
pinned in every later trusted snapshot, at no lower version; and of two files that are accepted for
a role the later one has no lower version. -/
theorem versions_monotone (s₀ : TrustedMetadataSet) (calls : List Call)
    (hroot : ∀ before c, before ++ [c] <+: calls → ¬ UpdatesRoot E (runCalls E s₀ before) c) :
    (∀ before bytes now v, before ++ [.updateTimestamp bytes now] <+: calls →
      ((runCalls E s₀ before).updateTimestamp E bytes now).1 = .ok () →
      (runCalls E s₀ before).timestampVersion = some v →
      ∃ w, (runCalls E s₀ (before ++ [.updateTimestamp bytes now])).timestampVersion = some w ∧
        v < w) ∧
    (∀ earlier later name v, earlier <+: later → later <+: calls →
      (runCalls E s₀ earlier).snapshotPin name = some v →
      ∃ w, (runCalls E s₀ later).snapshotPin name = some w ∧ v ≤ w) ∧
    (∀ before c before' c' name m m', before ++ [c] <+: before' ++ [c'] →
      before' ++ [c'] <+: calls → Accepts E (runCalls E s₀ before) c name m →
      Accepts E (runCalls E s₀ before') c' name m' → m.signed.version ≤ m'.signed.version) := by
  refine ⟨?_, ?_, ?_⟩
  · intro before bytes now v _ hok hv
    rw [runCalls, Runs.run_concat]
    change ∃ w, ((updateTimestamp E (runCalls E s₀ before) bytes now).2).timestampVersion = _ ∧ _
    unfold updateTimestamp at hok ⊢
    cases hcheck : checkTimestamp E (runCalls E s₀ before) bytes now with
    | error e =>
      rw [hcheck] at hok
      cases hok
    | ok new => exact ⟨_, rfl, timestampVersion_lt hcheck hv⟩
  · intro earlier later name v hle hlater hv
    exact (run_noLower E hroot hle hlater).pins name v hv
  · intro before c before' c' name m m' hle hcalls haccepts haccepts'
    have hprefix : before <+: before' := by
      have hlength := hle.length_le
      simp only [List.length_append, List.length_singleton] at hlength
      exact List.prefix_of_prefix_length_le ((List.prefix_append _ _).trans hle)
        (List.prefix_append _ _) (by omega)
    have hpins := (run_noLower E hroot hprefix ((List.prefix_append _ _).trans hcalls)).pins
      (name ++ ".json")
    exact hpins.le haccepts.pin haccepts'.pin

end

/-- The repository's third timestamp is newer than the second one. No call of the run updates the
root, as `versions_monotone` requires. -/
theorem versions_monotone_droppedPin :
    ∃ s₀ w, fromRoot Sample.env (Sample.file Sample.root) = .ok s₀ ∧
      (runCalls Sample.env s₀ (Sample.droppedPin.take 4)).timestampVersion = some w ∧ 2 < w := by
  have heval : (fromRoot Sample.env (Sample.file Sample.root)).toOption.any (fun s₀ => decide (
      (runCalls Sample.env s₀ (Sample.droppedPin.take 3)).timestampVersion = some 2 ∧
      ((runCalls Sample.env s₀ (Sample.droppedPin.take 3)).updateTimestamp Sample.env
        (Sample.file (Sample.timestamp 3 [("snapshot.json", 3)])) 0).1 = .ok ())) = true := by
    decide +kernel
  obtain ⟨s₀, h, hcalls⟩ := Checks.any_toOption_iff.1 heval
  obtain ⟨hversion, hok⟩ := of_decide_eq_true hcalls
  have hroot : ∀ before c, before ++ [c] <+: Sample.droppedPin →
      ¬ UpdatesRoot Sample.env (runCalls Sample.env s₀ before) c := by
    intro before c hc hroot
    have hmem : c ∈ Sample.droppedPin := hc.subset (by simp)
    cases c with
    | updateRoot bytes => simp [Sample.droppedPin] at hmem
    | _ => exact hroot
  have hprefix : Sample.droppedPin.take 3 ++
      [.updateTimestamp (Sample.file (Sample.timestamp 3 [("snapshot.json", 3)])) 0] <+:
      Sample.droppedPin := ⟨Sample.droppedPin.drop 4, rfl⟩
  obtain ⟨w, hw, hlt⟩ := (versions_monotone Sample.env s₀ Sample.droppedPin hroot).1 _ _ _ _
    hprefix hok hversion
  exact ⟨s₀, w, h, hw, hlt⟩

end Sigstore.Tuf
