import Sigstore.Tuf.Invariants

/-!
# Rollback of the snapshot

Between two root updates, what holds of the snapshot version that a client relies on. The code
compares the pins of two adjacent timestamps only where both pin `snapshot.json`. As long as no
accepted timestamp drops the pin of the trusted one (`DropsPin`), neither the pinned version nor the
version of the trusted snapshot ever decreases (`neverBackwards_of_not_dropsPin`); a timestamp that
drops it resets the floor.
-/

namespace Sigstore.Tuf

open Sigstore.Crypto Checks TrustedMetadataSet

/-- The snapshot version that the trusted timestamp pins. -/
def TrustedMetadataSet.pinnedSnapshot (s : TrustedMetadataSet) : Option UInt64 :=
  s.timestamp.bind fun t => t.signed.snapshotMeta.map (·.version)

/-- The version of the trusted snapshot. -/
def TrustedMetadataSet.snapshotVersion (s : TrustedMetadataSet) : Option UInt64 :=
  s.snapshot.map (·.signed.version)

section
variable (E : Env)

/-- A set that was just bootstrapped, or whose root was just updated. -/
def StartOfRun (s : TrustedMetadataSet) : Prop :=
  (∃ bytes, fromRoot E bytes = .ok s) ∨
    ∃ before bytes, (updateRoot E before bytes).1 = .ok () ∧ s = (updateRoot E before bytes).2

/-- The call updates the root. -/
def UpdatesRoot (s : TrustedMetadataSet) : Call → Prop
  | .updateRoot bytes => (updateRoot E s bytes).1 = .ok ()
  | _ => False

/-- The candidate is a newer, unexpired timestamp signed under the root that does not pin
`snapshot.json`, while the trusted one does. -/
def DropsPin (s : TrustedMetadataSet) : Call → Prop
  | .updateTimestamp bytes now =>
    ∃ (cur new : Metadata Timestamp), s.timestamp = some cur ∧
      Metadata.fromSlice E bytes = .ok new ∧
      verifyWithRoot E new s.root.signed "timestamp" = .ok () ∧
      cur.signed.version < new.signed.version ∧
      ensureNotExpired E new.signed "timestamp" now = .ok () ∧
      cur.signed.snapshotMeta.isSome ∧ new.signed.snapshotMeta = none
  | _ => False

/-- Over the calls, neither the pinned snapshot version nor the trusted snapshot's version
decreases: wherever two of the sets passed through have one, the later is not lower. -/
def NeverBackwards (s₀ : TrustedMetadataSet) (calls : List Call) : Prop :=
  ∀ earlier later, earlier <+: later → later <+: calls →
    (∀ v w, (runCalls E s₀ earlier).pinnedSnapshot = some v →
      (runCalls E s₀ later).pinnedSnapshot = some w → v ≤ w) ∧
    (∀ v w, (runCalls E s₀ earlier).snapshotVersion = some v →
      (runCalls E s₀ later).snapshotVersion = some w → v ≤ w)

/-- The trusted snapshot is not newer than what the trusted timestamp pins. -/
def PinCovers (s : TrustedMetadataSet) : Prop :=
  ∀ v, s.snapshotVersion = some v → ∃ w, s.pinnedSnapshot = some w ∧ v ≤ w

/-- The later set has a value where the earlier one has, and it is not lower. -/
def NotLower (a b : Option UInt64) : Prop := ∀ v, a = some v → ∃ w, b = some w ∧ v ≤ w

theorem NotLower.refl (a : Option UInt64) : NotLower a a := fun v hv => ⟨v, hv, UInt64.le_refl v⟩

/-- A value that is not lower after each of two steps is not lower after both. -/
theorem NotLower.trans {a b c : Option UInt64} (hab : NotLower a b) (hbc : NotLower b c) :
    NotLower a c := by
  intro v hv
  obtain ⟨w, hw, hvw⟩ := hab v hv
  obtain ⟨x, hx, hwx⟩ := hbc w hw
  exact ⟨x, hx, UInt64.le_trans hvw hwx⟩

/-- Of two values that are there the later one is not lower. -/
theorem NotLower.le {a b : Option UInt64} (h : NotLower a b) {v w : UInt64} (hv : a = some v)
    (hw : b = some w) : v ≤ w := by
  obtain ⟨x, hx, hle⟩ := h v hv
  rw [hw] at hx
  cases hx
  exact hle

/-- At the start of a run neither a timestamp nor a snapshot is trusted. -/
theorem startOfRun_fresh {s : TrustedMetadataSet} (h : StartOfRun E s) :
    s.timestamp = none ∧ s.snapshot = none := by
  rcases h with ⟨bytes, h⟩ | ⟨before, bytes, hok, rfl⟩
  · obtain ⟨-, hts, hsnap, -⟩ := fromRoot_ok E h
    exact ⟨hts, hsnap⟩
  · simp only [updateRoot] at hok ⊢
    split at hok
    · cases hok
    · exact ⟨rfl, rfl⟩

/-- An accepted timestamp that does not drop the pin does not lower it. The code compares the pins
where both timestamps have one, which is what the hypothesis ensures when the trusted one has. -/
theorem pinnedSnapshot_of_checkTimestamp {s : TrustedMetadataSet} {bytes : Bytes} {now : Int}
    {m : Metadata Timestamp} (h : checkTimestamp E s bytes now = .ok m)
    (hkeep : ¬ DropsPin E s (.updateTimestamp bytes now)) :
    NotLower s.pinnedSnapshot (m.signed.snapshotMeta.map (·.version)) := by
  intro v hv
  obtain ⟨cur, hcur, hpin⟩ := Option.bind_eq_some_iff.1 hv
  obtain ⟨curMeta, hcurMeta, rfl⟩ := Option.map_eq_some_iff.1 hpin
  obtain ⟨hparse, -, hrollback, hexpiry⟩ := checkTimestamp_ok E h
  have hsigned : verifyWithRoot E m s.root.signed "timestamp" = .ok () := by
    simp only [checkTimestamp, bind_eq_ok, pure_eq_ok] at h
    obtain ⟨_, hparse', _, hroot, _, -, _, -, rfl⟩ := h
    exact hroot
  have hcheck := hrollback cur hcur
  simp only [checkTimestampRollback, bind_eq_ok, rejectIf_eq_ok, whenSome_eq_ok] at hcheck
  obtain ⟨-, hge, -, hne, hmeta⟩ := hcheck
  cases hnew : m.signed.snapshotMeta with
  | none =>
    have hlt : cur.signed.version < m.signed.version :=
      UInt64.lt_of_le_of_ne (UInt64.not_lt.1 hge) (Ne.symm hne)
    exact absurd ⟨cur, m, hcur, hparse, hsigned, hlt, hexpiry, by simp [hcurMeta], hnew⟩ hkeep
  | some newMeta => exact ⟨newMeta.version, rfl, UInt64.not_lt.1 (hmeta _ hnew _ hcurMeta)⟩

/-- One call that neither updates the root nor drops the pin lowers neither version, and keeps the
trusted snapshot covered by the pin. -/
theorem step_notLower {s : TrustedMetadataSet} {c : Call} (hcovers : PinCovers s)
    (hroot : ¬ UpdatesRoot E s c) (hkeep : ¬ DropsPin E s c) :
    PinCovers (step E s c) ∧ NotLower s.pinnedSnapshot (step E s c).pinnedSnapshot ∧
    NotLower s.snapshotVersion (step E s c).snapshotVersion := by
  have heffect := step_effect E s c
  generalize step E s c = s' at heffect
  cases heffect with
  | unchanged => exact ⟨hcovers, .refl _, .refl _⟩
  | root check => exact absurd (by simp [UpdatesRoot, updateRoot, check]) hroot
  | timestamp check =>
    have hpin := pinnedSnapshot_of_checkTimestamp E check hkeep
    exact ⟨fun v hv => NotLower.trans hcovers hpin v hv, hpin, .refl _⟩
  | snapshot check =>
    obtain ⟨-, ⟨ts, pin, hts, hpin, hversion⟩, -⟩ := checkSnapshot_ok E check
    have hpinned : s.pinnedSnapshot = some pin.version := by
      simp [pinnedSnapshot, hts, hpin]
    refine ⟨fun v hv => ⟨pin.version, hpinned, ?_⟩, .refl _, fun v hv => ⟨_, rfl, ?_⟩⟩
    · cases hv
      exact UInt64.le_of_eq hversion
    · -- the trusted snapshot was covered by the pin, which the new snapshot's version equals
      obtain ⟨w, hw, hvw⟩ := hcovers v hv
      rw [hpinned] at hw
      cases hw
      exact UInt64.le_trans hvw (UInt64.le_of_eq hversion.symm)
  | targets check => exact ⟨hcovers, .refl _, .refl _⟩
  | delegated check => exact ⟨hcovers, .refl _, .refl _⟩

/-- **The floor of the snapshot version holds unless a timestamp drops its pin.** In every run
between two root updates in which no accepted timestamp drops the pin of the trusted one, neither
the pinned snapshot version nor the trusted snapshot's version ever decreases. -/
theorem neverBackwards_of_not_dropsPin {s₀ : TrustedMetadataSet} (h₀ : StartOfRun E s₀)
    (calls : List Call)
    (hroot : ∀ before c, before ++ [c] <+: calls → ¬ UpdatesRoot E (runCalls E s₀ before) c)
    (hkeep : ∀ before c, before ++ [c] <+: calls → ¬ DropsPin E (runCalls E s₀ before) c) :
    NeverBackwards E s₀ calls := by
  obtain ⟨-, hsnap⟩ := startOfRun_fresh E h₀
  have hcovers : PinCovers s₀ := fun v hv => by simp [snapshotVersion, hsnap] at hv
  intro earlier later hle hlater
  have hrun := Runs.run_mono (step E) (P := PinCovers)
    (C := fun s c => ¬ UpdatesRoot E s c ∧ ¬ DropsPin E s c)
    (R := fun s t => NotLower s.pinnedSnapshot t.pinnedSnapshot ∧
      NotLower s.snapshotVersion t.snapshotVersion)
    (fun s c hs hc => (step_notLower E hs hc.1 hc.2).1) hcovers
    (fun before c hc => ⟨hroot before c hc, hkeep before c hc⟩)
    (fun _ => ⟨.refl _, .refl _⟩) (fun _ _ _ h h' => ⟨h.1.trans h'.1, h.2.trans h'.2⟩)
    (fun s c hs hc => (step_notLower E hs hc.1 hc.2).2) hle hlater
  exact ⟨fun v w => hrun.1.le, fun v w => hrun.2.le⟩

end

/-- A timestamp that pins version 5, its snapshot, and a timestamp that pins version 3. -/
def Sample.keptPin : List Call :=
  [.updateTimestamp (file (timestamp 1 [("snapshot.json", 5)])) 0,
    .updateSnapshot (file (snapshot 5)) 0,
    .updateTimestamp (file (timestamp 3 [("snapshot.json", 3)])) 0]

/-- Where every timestamp pins the snapshot, the floor holds. The timestamp that pins the lower
version is refused. -/
theorem neverBackwards_of_not_dropsPin_keptPin :
    ∃ s₀, StartOfRun Sample.env s₀ ∧ NeverBackwards Sample.env s₀ Sample.keptPin := by
  have heval : (fromRoot Sample.env (Sample.file Sample.root)).isOk = true := by decide +kernel
  have hpins : ∀ c ∈ Sample.keptPin, ∀ bytes now, c = .updateTimestamp bytes now →
      ∀ new : Metadata Timestamp, Metadata.fromSlice Sample.env bytes = .ok new →
        new.signed.snapshotMeta.isSome := by
    have hparse : ∀ bytes ∈ [Sample.file (Sample.timestamp 1 [("snapshot.json", 5)]),
        Sample.file (Sample.timestamp 3 [("snapshot.json", 3)])],
        (Metadata.fromSlice Sample.env (T := Timestamp) bytes).toOption.all
          (·.signed.snapshotMeta.isSome) = true := by decide +kernel
    intro c hc bytes now heq new hnew
    have hmem : bytes ∈ [Sample.file (Sample.timestamp 1 [("snapshot.json", 5)]),
        Sample.file (Sample.timestamp 3 [("snapshot.json", 3)])] := by
      subst heq
      simp only [Sample.keptPin, List.mem_cons, Call.updateTimestamp.injEq, reduceCtorEq,
        List.not_mem_nil, or_false, false_or] at hc ⊢
      exact hc.imp And.left And.left
    have := hparse bytes hmem
    rwa [hnew] at this
  cases h : fromRoot Sample.env (Sample.file Sample.root) with
  | error e => rw [h] at heval; cases heval
  | ok s₀ =>
    refine ⟨s₀, .inl ⟨_, h⟩, neverBackwards_of_not_dropsPin Sample.env (.inl ⟨_, h⟩) _ ?_ ?_⟩
    · intro before c hc hroot
      have hmem : c ∈ Sample.keptPin := hc.subset (by simp)
      cases c with
      | updateRoot bytes => simp [Sample.keptPin] at hmem
      | _ => exact hroot
    · intro before c hc hdrops
      have hmem : c ∈ Sample.keptPin := hc.subset (by simp)
      cases c with
      | updateTimestamp bytes now =>
        obtain ⟨cur, new, -, hparse, -, -, -, -, hnone⟩ := hdrops
        have := hpins _ hmem bytes now rfl new hparse
        rw [hnone] at this
        cases this
      | _ => exact hdrops

/-- A timestamp that pins version 5, one that pins nothing, and one that pins version 3, with the
two snapshots. -/
def Sample.droppedPin : List Call :=
  [.updateTimestamp (file (timestamp 1 [("snapshot.json", 5)])) 0,
    .updateSnapshot (file (snapshot 5)) 0,
    .updateTimestamp (file (timestamp 2 [])) 0,
    .updateTimestamp (file (timestamp 3 [("snapshot.json", 3)])) 0,
    .updateSnapshot (file (snapshot 3)) 0]

/-- Without the condition the snapshot is rolled back: every call is accepted, and the pinned
version and the trusted snapshot's version go from 5 to 3. -/
theorem neverBackwards_fails :
    ∃ s₀, StartOfRun Sample.env s₀ ∧
      (∀ c ∈ Sample.droppedPin, ∀ s, ¬ UpdatesRoot Sample.env s c) ∧
      (runCalls Sample.env s₀ (Sample.droppedPin.take 2)).pinnedSnapshot = some 5 ∧
      (runCalls Sample.env s₀ (Sample.droppedPin.take 4)).pinnedSnapshot = some 3 ∧
      (runCalls Sample.env s₀ (Sample.droppedPin.take 2)).snapshotVersion = some 5 ∧
      (runCalls Sample.env s₀ Sample.droppedPin).snapshotVersion = some 3 ∧
      ¬ NeverBackwards Sample.env s₀ Sample.droppedPin := by
  have heval : (fromRoot Sample.env (Sample.file Sample.root)).toOption.any (fun s₀ => decide (
      (runCalls Sample.env s₀ (Sample.droppedPin.take 2)).pinnedSnapshot = some 5 ∧
      (runCalls Sample.env s₀ (Sample.droppedPin.take 4)).pinnedSnapshot = some 3 ∧
      (runCalls Sample.env s₀ (Sample.droppedPin.take 2)).snapshotVersion = some 5 ∧
      (runCalls Sample.env s₀ Sample.droppedPin).snapshotVersion = some 3)) = true := by
    decide +kernel
  obtain ⟨s₀, h, hversions⟩ := Checks.any_toOption_iff.1 heval
  obtain ⟨hpin, hpin', hsnap, hsnap'⟩ := of_decide_eq_true hversions
  refine ⟨s₀, .inl ⟨_, h⟩, ?_, hpin, hpin', hsnap, hsnap', fun hnever => ?_⟩
  · simp [Sample.droppedPin, UpdatesRoot]
  · have hle := (hnever _ _ (List.take_prefix 2 _) List.prefix_rfl).2 5 3 hsnap hsnap'
    exact absurd hle (by decide)

end Sigstore.Tuf
