import Sigstore.Tuf.FileNames
import Sigstore.Tuf.Refresh
import Sigstore.Tuf.Target

/-!
# What a refresh takes from the cache

A refresh seeds a set that trusts a root only (`Fresh`) from the cached timestamp, snapshot and
targets (`seedLowerFromStore_eq`). A cached file that is expired, or that the cached timestamp does
not pin, is skipped. What is seeded is a floor for the rest of the refresh, and the rest replaces a
cached file only by one that is no lower than what is trusted then (`Advances`).
-/

namespace Sigstore.Tuf

open Checks StateAction TrustedMetadataSet

/-- The files of a store by name. -/
abbrev Contents : Type := String → Option Bytes

section
variable (E : ClientEnv)

/-- The cached timestamp. -/
def cachedTimestamp (c : Contents) : Option (Metadata Timestamp) :=
  (c "timestamp.json").bind fun bytes => (Metadata.fromSlice E.toEnv bytes).toOption

/-- The cached snapshot. -/
def cachedSnapshot (c : Contents) : Option (Metadata Snapshot) :=
  (c "snapshot.json").bind fun bytes => (Metadata.fromSlice E.toEnv bytes).toOption

/-- The version of the cached timestamp. -/
def cachedVersion (c : Contents) : Option UInt64 := (cachedTimestamp E c).map (·.signed.version)

/-- The version at which the cached snapshot pins a name. -/
def cachedPin (c : Contents) (name : String) : Option UInt64 :=
  (cachedSnapshot E c).bind fun m => (m.signed.metas.get? name).map (·.version)

/-- What the earlier snapshot pins, the later one pins at no lower version. -/
def PinsNotLower (p q : String → Option UInt64) : Prop := ∀ name, NotLower (p name) (q name)

/-- The cached timestamp has not expired. -/
def TimestampUsable (c : Contents) (now : Int) : Prop :=
  ∀ ts, cachedTimestamp E c = some ts → NotExpired E.toEnv ts.signed now

/-- The cached snapshot has not expired, and an unexpired cached timestamp pins it. -/
def SnapshotUsable (c : Contents) (now : Int) : Prop :=
  ∀ bytes (snap : Metadata Snapshot), c "snapshot.json" = some bytes →
    Metadata.fromSlice E.toEnv bytes = .ok snap →
    NotExpired E.toEnv snap.signed now ∧
    ∃ ts pin, cachedTimestamp E c = some ts ∧ NotExpired E.toEnv ts.signed now ∧
      ts.signed.snapshotMeta = some pin ∧ snap.signed.version = pin.version ∧
      checkIntegrity E.toEnv bytes pin "snapshot.json" = .ok ()

/-- What runs under a root leave in the store: a timestamp and a snapshot that the root's keys have
signed. -/
structure ValidCache (root : Metadata Root) (c : Contents) : Prop where
  timestamp : ∀ bytes, c "timestamp.json" = some bytes → ∃ m : Metadata Timestamp,
    Metadata.fromSlice E.toEnv bytes = .ok m ∧
    verifyWithRoot E.toEnv m root.signed "timestamp" = .ok ()
  snapshot : ∀ bytes, c "snapshot.json" = some bytes → ∃ m : Metadata Snapshot,
    Metadata.fromSlice E.toEnv bytes = .ok m ∧
    verifyWithRoot E.toEnv m root.signed "snapshot" = .ok ()

end

section
variable {E : ClientEnv}

/-- The cached timestamp is the one that the stored bytes are parsed as. -/
theorem cachedTimestamp_eq {c : Contents} {bytes : Bytes} {m : Metadata Timestamp}
    (hc : c "timestamp.json" = some bytes) (hm : Metadata.fromSlice E.toEnv bytes = .ok m) :
    cachedTimestamp E c = some m := by
  rw [cachedTimestamp, hc, Option.bind_some, hm]
  rfl

/-- The cached snapshot is the one that the stored bytes are parsed as. -/
theorem cachedSnapshot_eq {c : Contents} {bytes : Bytes} {m : Metadata Snapshot}
    (hc : c "snapshot.json" = some bytes) (hm : Metadata.fromSlice E.toEnv bytes = .ok m) :
    cachedSnapshot E c = some m := by
  rw [cachedSnapshot, hc, Option.bind_some, hm]
  rfl

/-- A cached snapshot is usable where it is accepted under the cached timestamp. -/
theorem snapshotUsable_of_check {c : Contents} {now : Int} {s : TrustedMetadataSet} {bytes : Bytes}
    {m : Metadata Snapshot} (hbytes : c "snapshot.json" = some bytes)
    (hcheck : checkSnapshot E.toEnv { s with timestamp := cachedTimestamp E c } bytes now = .ok m) :
    SnapshotUsable E c now := by
  simp only [checkSnapshot, bind_eq_ok, okOr_eq_ok, rejectIf_eq_ok, pure_eq_ok,
    ensureNotExpired_ok] at hcheck
  obtain ⟨ts, hts, _, htsfresh, pin, hpin, _, hintegrity, m', hm', -, -, -, hversion, -, -, _,
    hfresh, rfl⟩ := hcheck
  intro b snap hb hsnap
  cases hbytes.symm.trans hb
  cases hm'.symm.trans hsnap
  exact ⟨hfresh, ts, pin, hts, htsfresh, hpin, not_not.1 hversion, hintegrity⟩

/-! ## Fresh sets -/

/-- Nothing is trusted below the root yet. -/
def Fresh (s : TrustedMetadataSet) : Prop := s.timestamp = none ∧ s.snapshot = none

/-- Updating the root leaves nothing trusted below it. -/
theorem Fresh.step {s : TrustedMetadataSet} {c : Call} (h : Fresh s) (hc : c.OfRoot) :
    Fresh (step E.toEnv s c) := by
  have heffect := step_effect E.toEnv s c
  generalize Tuf.step E.toEnv s c = s' at heffect
  cases heffect with
  | unchanged => exact h
  | root => exact ⟨rfl, rfl⟩
  | timestamp => exact hc.elim
  | snapshot => exact hc.elim
  | targets => exact hc.elim
  | delegated => exact hc.elim

/-- Updating the root repeatedly leaves nothing trusted below it. -/
theorem Fresh.runCalls {s : TrustedMetadataSet} (h : Fresh s) {calls : List Call}
    (hcalls : ∀ c ∈ calls, c.OfRoot) : Fresh (runCalls E.toEnv s calls) := by
  induction calls generalizing s with
  | nil => exact h
  | cons c calls ih =>
    rw [List.forall_mem_cons] at hcalls
    rw [Tuf.runCalls, Runs.run_cons]
    exact ih (h.step hcalls.1) hcalls.2

/-- Adopting cached roots trusts roots only. -/
theorem adoptCachedRoots_fresh {store : MetadataStore} {fuel : Nat} {s t : TrustedMetadataSet}
    (hs : Fresh s) (h : Updater.adoptCachedRoots E.toEnv store fuel s = .ok t) : Fresh t :=
  adoptCachedRoots_preserves (fun _ bytes hs => hs.step (c := .updateRoot bytes) trivial) hs h

/-- Without a cached next root none is adopted. -/
theorem adoptCachedRoots_none {store : MetadataStore} {fuel : Nat} {s t : TrustedMetadataSet}
    (hnone : store.load s!"root_history/{s.root.signed.version + 1}.root.json" = none)
    (h : Updater.adoptCachedRoots E.toEnv store fuel s = .ok t) : t = s := by
  cases fuel with
  | zero =>
    cases h
    rfl
  | succ fuel =>
    obtain ⟨next, hnext, h⟩ := bind_eq_ok.1 h
    rw [(nextVersion_ok E.toEnv hnext).1, hnone] at h
    cases h
    rfl

/-! ## Seeding -/

/-- The trusted set after seeding it from a cached file, where there is one. -/
def seedWith (E : ClientEnv) (f : Bytes → Call) (found : Option Bytes) (s : TrustedMetadataSet) :
    TrustedMetadataSet :=
  match found with
  | some bytes => step E.toEnv s (f bytes)
  | none => s

/-- The trusted set after seeding it from the cached files. -/
def seedTrusted (E : ClientEnv) (c : Contents) (now : Int) (s : TrustedMetadataSet) :
    TrustedMetadataSet :=
  seedWith E (.updateTargets · now) (c "targets.json")
    (seedWith E (.updateSnapshot · now) (c "snapshot.json")
      (seedWith E (.updateTimestamp · now) (c "timestamp.json") s))

/-- An attempt that succeeds goes on with its result. -/
theorem attempt_ok {α : Type} {f : TrustedMetadataSet → Except Abort α × TrustedMetadataSet}
    {u : Updater} {t : TrustedMetadataSet} {a : α} (h : f u.trusted = (.ok a, t)) :
    attempt f u = (.ok (.ok a), { u with trusted := t }) := by
  simp only [attempt, update, onPart, h]

/-- An attempt that fails goes on with its error, and the trusted set is what the operation left. -/
theorem attempt_error {α : Type} {f : TrustedMetadataSet → Except Abort α × TrustedMetadataSet}
    {u : Updater} {t : TrustedMetadataSet} {e : Error} (h : f u.trusted = (.error (.error e), t)) :
    attempt f u = (.ok (.error e), { u with trusted := t }) := by
  simp only [attempt, update, onPart, h]

/-- Seeding from a file cannot fail, where the operation cannot panic. -/
theorem seed_eq {α : Type} {f : Bytes → TrustedMetadataSet → Except Abort α × TrustedMetadataSet}
    {c : Bytes → Call} (hf : ∀ bytes s, (f bytes s).2 = step E.toEnv s (c bytes))
    (hpanic : ∀ bytes s, (f bytes s).1 ≠ .error .panic) (found : Option Bytes) (u : Updater) :
    seed f found u = (.ok (), { u with trusted := seedWith E c found u.trusted }) := by
  cases found with
  | none => rfl
  | some bytes =>
    have hstate := hf bytes u.trusted
    have hresult := hpanic bytes u.trusted
    show (attempt (f bytes) >>= fun _ => pure ()) u = _
    cases h : f bytes u.trusted with
    | mk result t =>
      rw [h] at hstate hresult
      rw [seedWith, ← hstate]
      cases result with
      | ok a =>
        rw [bind_of_ok (attempt_ok h)]
        rfl
      | error abort =>
        cases abort with
        | error e =>
          rw [bind_of_ok (attempt_error h)]
          rfl
        | panic => exact absurd rfl hresult

/-- Seeding returns whatever the store holds, and trusts the stored files that verify. -/
theorem seedLowerFromStore_eq (now : Int) (u : Updater) :
    seedLowerFromStore E now u =
      (.ok (), { u with trusted := seedTrusted E u.stored now u.trusted }) := by
  have hload : ∀ name, loadCached name u = (.ok (u.stored name), u) := fun _ => rfl
  have hts : ∀ found (u : Updater),
      seed (fun bytes trusted => trusted.updateTimestamp E.toEnv bytes now) found u =
        (.ok (), { u with trusted := seedWith E (.updateTimestamp · now) found u.trusted }) := by
    refine seed_eq (fun _ _ => rfl) fun bytes s => ?_
    unfold updateTimestamp
    cases checkTimestamp E.toEnv s bytes now <;> nofun
  have hsnap : ∀ found (u : Updater),
      seed (fun bytes trusted => trusted.updateSnapshot E.toEnv bytes now) found u =
        (.ok (), { u with trusted := seedWith E (.updateSnapshot · now) found u.trusted }) := by
    refine seed_eq (fun _ _ => rfl) fun bytes s => ?_
    unfold updateSnapshot
    cases checkSnapshot E.toEnv s bytes now <;> nofun
  have htgt : ∀ found (u : Updater),
      seed (fun bytes trusted => trusted.updateTargets E.toEnv bytes now) found u =
        (.ok (), { u with trusted := seedWith E (.updateTargets · now) found u.trusted }) := by
    refine seed_eq (fun _ _ => rfl) fun bytes s => ?_
    unfold updateTargets
    cases checkTargets E.toEnv s bytes now <;> nofun
  rw [seedLowerFromStore, bind_of_ok (hload _), bind_of_ok (hload _), bind_of_ok (hload _),
    bind_of_ok (hts _ u), bind_of_ok (hsnap _ _)]
  exact htgt _ _

/-- Seeding lowers nothing. -/
theorem seedWith_noLower {f : Bytes → Call} (hf : ∀ bytes s, ¬ UpdatesRoot E.toEnv s (f bytes))
    (found : Option Bytes) (s : TrustedMetadataSet) : NoLower s (seedWith E f found s) := by
  cases found with
  | none => exact .refl s
  | some bytes => exact step_noLower (hf bytes s)

/-- A cached timestamp is parsed from stored bytes. -/
theorem cachedTimestamp_some {c : Contents} {ts : Metadata Timestamp}
    (h : cachedTimestamp E c = some ts) :
    ∃ bytes, c "timestamp.json" = some bytes ∧ Metadata.fromSlice E.toEnv bytes = .ok ts := by
  obtain ⟨bytes, hbytes, hparse⟩ := Option.bind_eq_some_iff.1 h
  refine ⟨bytes, hbytes, ?_⟩
  cases hslice : (Metadata.fromSlice E.toEnv bytes : Except Error (Metadata Timestamp)) with
  | error e =>
    rw [hslice] at hparse
    cases hparse
  | ok m =>
    rw [hslice] at hparse
    exact congrArg Except.ok (Option.some.inj hparse)

section
variable {c : Contents} {now : Int} {s : TrustedMetadataSet} (hs : Fresh s)
  (hc : ValidCache E s.root c)
include hs hc

/-- An unexpired cached timestamp is trusted. -/
theorem seedWith_timestamp {ts : Metadata Timestamp} (hts : cachedTimestamp E c = some ts)
    (hfresh : NotExpired E.toEnv ts.signed now) :
    seedWith E (.updateTimestamp · now) (c "timestamp.json") s =
      { s with timestamp := some ts } := by
  obtain ⟨bytes, hbytes, hparse⟩ := cachedTimestamp_some hts
  obtain ⟨m, hm, hsigned⟩ := hc.timestamp bytes hbytes
  obtain rfl : m = ts := Except.ok.inj (hm.symm.trans hparse)
  have hcheck : checkTimestamp E.toEnv s bytes now = .ok m := by
    simp only [checkTimestamp, bind_eq_ok, whenSome_eq_ok, pure_eq_ok]
    exact ⟨m, hm, (), hsigned, (), by simp [hs.1], (), ensureNotExpired_ok.2 hfresh, rfl⟩
  rw [hbytes]
  show (updateTimestamp E.toEnv s bytes now).2 = _
  rw [updateTimestamp_eq_ok hcheck]

/-- After seeding from a usable timestamp no lower one is trusted. -/
theorem seedTrusted_timestamp (husable : TimestampUsable E c now) :
    NotLower (cachedVersion E c) (seedTrusted E c now s).timestampVersion := by
  intro v hv
  obtain ⟨ts, hts, rfl⟩ := Option.map_eq_some_iff.1 hv
  have hseeded := seedWith_timestamp hs hc hts (husable ts hts)
  have hlater : NoLower (seedWith E (.updateTimestamp · now) (c "timestamp.json") s)
      (seedTrusted E c now s) :=
    (seedWith_noLower (fun _ _ => id) _ _).trans (seedWith_noLower (fun _ _ => id) _ _)
  rw [hseeded] at hlater
  exact hlater.timestamp _ rfl

/-- A cached snapshot that is usable is trusted. -/
theorem seedTrusted_snapshot (husable : SnapshotUsable E c now) :
    PinsNotLower (cachedPin E c) (seedTrusted E c now s).snapshotPin := by
  intro name v hv
  obtain ⟨snap, hsnap, hpinned⟩ := Option.bind_eq_some_iff.1 hv
  obtain ⟨bytes, hbytes, hparse⟩ := Option.bind_eq_some_iff.1 hsnap
  obtain ⟨m, hm, hsigned⟩ := hc.snapshot bytes hbytes
  rw [hm] at hparse
  obtain rfl : m = snap := Option.some.inj hparse
  obtain ⟨hfresh, ts, pin, hts, htsfresh, hpin, hversion, hintegrity⟩ := husable bytes m hbytes hm
  have hseeded := seedWith_timestamp hs hc hts htsfresh
  have hcheck : checkSnapshot E.toEnv { s with timestamp := some ts } bytes now = .ok m := by
    simp only [checkSnapshot, bind_eq_ok, okOr_eq_ok, rejectIf_eq_ok, whenSome_eq_ok, pure_eq_ok]
    exact ⟨ts, rfl, (), ensureNotExpired_ok.2 htsfresh, pin, hpin, (), hintegrity, m, hm, (),
      hsigned, (), not_not.2 hversion, (), by simp [hs.2], (), ensureNotExpired_ok.2 hfresh, rfl⟩
  have hlater : NoLower (seedWith E (.updateSnapshot · now) (c "snapshot.json")
      (seedWith E (.updateTimestamp · now) (c "timestamp.json") s)) (seedTrusted E c now s) :=
    seedWith_noLower (fun _ _ => id) _ _
  rw [hseeded, hbytes] at hlater
  refine hlater.pins name v ?_
  show ((updateSnapshot E.toEnv { s with timestamp := some ts } bytes now).2).snapshotPin name = _
  rw [updateSnapshot, hcheck]
  exact hpinned

end

/-- Seeding keeps the root. -/
theorem seedTrusted_root (c : Contents) (now : Int) (s : TrustedMetadataSet) :
    (seedTrusted E c now s).root = s.root := by
  have hseed : ∀ {f : Bytes → Call}, (∀ bytes, ¬ (f bytes).OfRoot) → ∀ found s,
      (seedWith E f found s).root = s.root := by
    intro f hf found s
    cases found with
    | none => rfl
    | some bytes => exact step_root (hf bytes)
  rw [seedTrusted, hseed (fun _ => id), hseed (fun _ => id), hseed (fun _ => id)]

/-! ## What the rest of a refresh does to the cached files -/

/-- A later updater: it trusts nothing lower, and its cached timestamp and snapshot are those that
were there, or signed ones between what was trusted and what is trusted. -/
structure Advances (E : ClientEnv) (u u' : Updater) : Prop where
  root : u'.trusted.root = u.trusted.root
  noLower : NoLower u.trusted u'.trusted
  timestamp : u'.stored "timestamp.json" = u.stored "timestamp.json" ∨
    ∃ bytes, ∃ m : Metadata Timestamp, u'.stored "timestamp.json" = some bytes ∧
      Metadata.fromSlice E.toEnv bytes = .ok m ∧
      verifyWithRoot E.toEnv m u.trusted.root.signed "timestamp" = .ok () ∧
      NotLower u.trusted.timestampVersion (some m.signed.version) ∧
      NotLower (some m.signed.version) u'.trusted.timestampVersion
  snapshot : u'.stored "snapshot.json" = u.stored "snapshot.json" ∨
    ∃ bytes, ∃ m : Metadata Snapshot, u'.stored "snapshot.json" = some bytes ∧
      Metadata.fromSlice E.toEnv bytes = .ok m ∧
      verifyWithRoot E.toEnv m u.trusted.root.signed "snapshot" = .ok () ∧
      PinsNotLower u.trusted.snapshotPin (fun name => (m.signed.metas.get? name).map (·.version)) ∧
      PinsNotLower (fun name => (m.signed.metas.get? name).map (·.version)) u'.trusted.snapshotPin

theorem Advances.refl (u : Updater) : Advances E u u := ⟨rfl, .refl _, .inl rfl, .inl rfl⟩

/-- Advancing twice is advancing: what lies between the first two trusted versions, or the last two,
lies between the first and the last. -/
theorem Advances.trans (u v w : Updater) (huv : Advances E u v) (hvw : Advances E v w) :
    Advances E u w := by
  refine {
    root := hvw.root.trans huv.root
    noLower := huv.noLower.trans hvw.noLower
    timestamp := ?_
    snapshot := ?_ }
  · rcases hvw.timestamp with h | ⟨bytes, m, hstored, hparse, hsigned, hlow, hhigh⟩
    · rw [h]
      refine huv.timestamp.imp_right ?_
      rintro ⟨bytes, m, hstored, hparse, hsigned, hlow, hhigh⟩
      exact ⟨bytes, m, hstored, hparse, hsigned, hlow, hhigh.trans hvw.noLower.timestamp⟩
    · rw [huv.root] at hsigned
      exact .inr ⟨bytes, m, hstored, hparse, hsigned, huv.noLower.timestamp.trans hlow, hhigh⟩
  · rcases hvw.snapshot with h | ⟨bytes, m, hstored, hparse, hsigned, hlow, hhigh⟩
    · rw [h]
      refine huv.snapshot.imp_right ?_
      rintro ⟨bytes, m, hstored, hparse, hsigned, hlow, hhigh⟩
      exact ⟨bytes, m, hstored, hparse, hsigned, hlow,
        fun name => (hhigh name).trans (hvw.noLower.pins name)⟩
    · rw [huv.root] at hsigned
      exact .inr ⟨bytes, m, hstored, hparse, hsigned,
        fun name => (huv.noLower.pins name).trans (hlow name), hhigh⟩

/-- Moves that neither update the root nor write the cached timestamp or snapshot. -/
theorem Moves.advances {C : Call → Prop} {W : String → Bytes → Prop} {u u' : Updater}
    (h : Moves E.toEnv C W u u') (hC : ∀ c, C c → ¬ c.OfRoot)
    (hts : ∀ bytes, ¬ W "timestamp.json" bytes) (hsnap : ∀ bytes, ¬ W "snapshot.json" bytes) :
    Advances E u u' := by
  have hnoLower : NoLower u.trusted u'.trusted := by
    obtain ⟨calls, hcalls, htrusted⟩ := h.trusted
    rw [htrusted]
    refine run_noLower E.toEnv ?_ List.nil_prefix List.prefix_rfl
    intro before c hbefore hroot
    have hc := hC c (hcalls c (hbefore.subset (by simp)))
    cases c with
    | updateRoot => exact hc trivial
    | _ => exact hroot
  refine ⟨h.root_eq hC, hnoLower, .inl ?_, .inl ?_⟩
  · refine (h.store.stored "timestamp.json").resolve_right ?_
    rintro ⟨bytes, -, hW⟩
    exact hts bytes hW
  · refine (h.store.stored "snapshot.json").resolve_right ?_
    rintro ⟨bytes, -, hW⟩
    exact hsnap bytes hW

/-- The timestamp's file is not one of a snapshot. -/
theorem not_snapshotFile_timestamp : ¬ SnapshotFile "timestamp.json" := by
  rintro (h | ⟨v, h⟩)
  · exact absurd h (by decide)
  · exact versioned_ne (c := 't') (by decide) (by decide) h.symm

section
variable {u u' : Updater} {bytes : Bytes} {now : Int}

/-- An accepted timestamp is written after it is trusted. -/
theorem Advances.of_timestamp {m : Metadata Timestamp}
    (hcheck : checkTimestamp E.toEnv u.trusted bytes now = .ok m)
    (htrusted : u'.trusted = { u.trusted with timestamp := some m })
    (hstore : MayWrite (fun name b => name = "timestamp.json" ∧ b = bytes) u.store u'.store) :
    Advances E u u' := by
  have hstep : step E.toEnv u.trusted (.updateTimestamp bytes now) = u'.trusted := by
    rw [htrusted]
    exact congrArg Prod.snd (updateTimestamp_eq_ok hcheck)
  have hnoLower : NoLower u.trusted u'.trusted := by
    rw [← hstep]
    exact step_noLower id
  refine ⟨by rw [htrusted], hnoLower, ?_, .inl ?_⟩
  · refine (hstore.stored "timestamp.json").imp_right ?_
    rintro ⟨b, hstored, -, rfl⟩
    have hversion : u'.trusted.timestampVersion = some m.signed.version := by
      rw [htrusted]
      rfl
    have hfloor := hnoLower.timestamp
    simp only [checkTimestamp, bind_eq_ok, pure_eq_ok] at hcheck
    obtain ⟨m, hparse, _, hsigned, _, -, _, -, rfl⟩ := hcheck
    rw [hversion] at hfloor ⊢
    exact ⟨b, m, hstored, hparse, hsigned, hfloor, .refl _⟩
  · refine (hstore.stored "snapshot.json").resolve_right ?_
    rintro ⟨b, -, hname, -⟩
    exact absurd hname (by decide)

/-- An accepted snapshot is written after it is trusted. -/
theorem Advances.of_snapshot {m : Metadata Snapshot}
    (hcheck : checkSnapshot E.toEnv u.trusted bytes now = .ok m)
    (htrusted : u'.trusted = { u.trusted with snapshot := some m, targets := BTreeMap.empty })
    (hstore : MayWrite (fun name b => SnapshotFile name ∧ b = bytes) u.store u'.store) :
    Advances E u u' := by
  have hstep : step E.toEnv u.trusted (.updateSnapshot bytes now) = u'.trusted := by
    rw [htrusted]
    show (updateSnapshot E.toEnv u.trusted bytes now).2 = _
    rw [updateSnapshot, hcheck]
  have hnoLower : NoLower u.trusted u'.trusted := by
    rw [← hstep]
    exact step_noLower id
  refine ⟨by rw [htrusted], hnoLower, .inl ?_, ?_⟩
  · refine (hstore.stored "timestamp.json").resolve_right ?_
    rintro ⟨b, -, hname, -⟩
    exact not_snapshotFile_timestamp hname
  · refine (hstore.stored "snapshot.json").imp_right ?_
    rintro ⟨b, hstored, -, rfl⟩
    have hpin : u'.trusted.snapshotPin = fun name =>
        (m.signed.metas.get? name).map (·.version) := by
      rw [htrusted]
      rfl
    have hfloor : PinsNotLower u.trusted.snapshotPin u'.trusted.snapshotPin := hnoLower.pins
    simp only [checkSnapshot, bind_eq_ok, pure_eq_ok] at hcheck
    obtain ⟨_, -, _, -, _, -, _, -, m, hparse, _, hsigned, _, -, _, -, _, -, rfl⟩ := hcheck
    rw [hpin] at hfloor ⊢
    exact ⟨b, m, hstored, hparse, hsigned, hfloor, fun _ => .refl _⟩

end

section
variable (E : ClientEnv) (R : Repository) (now : Int)

/-- Fetching a file leaves the updater where it is. -/
theorem fetchRequired_advances (name : String) (maxLength : UInt64) :
    Respects (Advances E) (fetchRequired R name maxLength) := by
  refine Respects.of_eq .refl fun u => ?_
  unfold fetchRequired
  cases hfetch : R.fetchMetadata name maxLength with
  | error e => rfl
  | ok found =>
    cases found with
    | none => rfl
    | some bytes => rfl

/-- The second part of a refresh trusts and stores no lower timestamp. -/
theorem refreshTimestamp_advances : Respects (Advances E) (refreshTimestamp E R now) := by
  refine .bind .trans (.gets .refl _) fun config => .bind .trans (fetchRequired_advances E R _ _)
    fun bytes => ?_
  intro u
  cases hcheck : checkTimestamp E.toEnv u.trusted bytes now with
  | error e =>
    have hupdate : updateTimestamp E.toEnv u.trusted bytes now =
        (.error (.error e), u.trusted) := by
      rw [updateTimestamp, hcheck]
    rw [bind_of_ok (attempt_error hupdate)]
    cases e <;> exact .refl u
  | ok m =>
    rw [bind_of_ok (attempt_ok (updateTimestamp_eq_ok hcheck))]
    refine .of_timestamp hcheck rfl ?_
    exact (Does.cachePut (E := E.toEnv) (C := fun _ => False) ⟨rfl, rfl⟩ _).store

/-- The third part of a refresh trusts and stores no lower snapshot. -/
theorem refreshSnapshot_advances : Respects (Advances E) (refreshSnapshot E R now) := by
  refine .bind .trans (.gets .refl _) fun trusted => .bind .trans (.gets .refl _) fun config =>
    .bind .trans (.lift .refl _) fun pin => .bind .trans (.lift .refl _) fun _ =>
    .bind .trans (.lift .refl _) fun reuse => ?_
  split
  · exact .pure .refl _
  · refine .bind .trans (fetchRequired_advances E R _ _) fun bytes => ?_
    intro u
    cases hcheck : checkSnapshot E.toEnv u.trusted bytes now with
    | error e =>
      have hupdate : update (·.updateSnapshot E.toEnv bytes now) u = (.error (.error e), u) := by
        simp only [update, onPart, updateSnapshot, hcheck]
      rw [bind_of_error hupdate]
      exact .refl u
    | ok m =>
      have hupdate : update (·.updateSnapshot E.toEnv bytes now) u =
          (.ok (), { u with trusted :=
            { u.trusted with snapshot := some m, targets := BTreeMap.empty } }) := by
        simp only [update, onPart, updateSnapshot, hcheck]
      rw [bind_of_ok hupdate]
      refine .of_snapshot hcheck rfl ?_
      refine (Does.bind (E := E.toEnv) (C := fun _ => False) (.cachePut ⟨?_, rfl⟩) fun _ =>
        .cachePut ⟨.inl rfl, rfl⟩) _ |>.store
      split
      · exact .inr ⟨_, rfl⟩
      · exact .inl rfl

/-- The last part of a refresh trusts no lower targets, and leaves the cached timestamp and snapshot
alone. -/
theorem refreshTargets_advances : Respects (Advances E) (refreshTargets E R now) := by
  intro u
  refine (refreshTargets_does E R now u).advances (fun _ => Call.OfTopLevel.not_root) ?_ ?_
  · exact fun _ h => absurd h (by decide)
  · exact fun _ h => absurd h (by decide)

end

/-! ## A refresh -/

/-- The names of the files that a run is seeded from. -/
def SeedFile (name : String) : Prop :=
  name = "timestamp.json" ∨ name = "snapshot.json" ∨ name = "targets.json"

/-- The files that a run is seeded from are not root files. -/
theorem SeedFile.not_rootFile {name : String} (h : SeedFile name) : ¬ RootFile name := by
  rintro (rfl | ⟨v, rfl⟩)
  · exact absurd h (by unfold SeedFile; decide)
  · have hhead := head_rootHistory v
    rcases h with h | h | h
    · rw [h] at hhead
      exact absurd hhead (by decide)
    · rw [h] at hhead
      exact absurd hhead (by decide)
    · rw [h] at hhead
      exact absurd hhead (by decide)

/-- The updater trusts a root and what it was seeded with from the cached files, which are still
there. -/
structure Seeded (E : ClientEnv) (root : Metadata Root) (c : Contents) (now : Int) (u : Updater) :
    Prop where
  root : u.trusted.root = root
  stored : ∀ name, SeedFile name → u.stored name = c name
  timestamp : TimestampUsable E c now → NotLower (cachedVersion E c) u.trusted.timestampVersion
  snapshot : SnapshotUsable E c now → PinsNotLower (cachedPin E c) u.trusted.snapshotPin

section
variable {root : Metadata Root} {c : Contents}

/-- A refresh that gets past the root is seeded from what was cached, and goes on from there. -/
theorem refresh_seeds (R : Repository) (now : Int) {u : Updater} (hu : Fresh u.trusted)
    (hc : ValidCache E root u.stored)
    (hroot : ∀ u₁, Returns (refreshRoot E R) u () u₁ → u₁.trusted.root = root) :
    ((refresh E R now u).1.isOk = false ∧
      ∀ name, SeedFile name → (refresh E R now u).2.stored name = u.stored name) ∨
    ∃ v, Seeded E root u.stored now v ∧ Advances E v (refresh E R now u).2 := by
  have hwalked := refreshRoot_does E R u
  cases hwalk : refreshRoot E R u with
  | mk result u₁ =>
    rw [hwalk] at hwalked
    have hstored : ∀ name, SeedFile name → u₁.stored name = u.stored name := by
      intro name hname
      refine (hwalked.store.stored name).resolve_right ?_
      rintro ⟨bytes, -, hrootFile⟩
      exact hname.not_rootFile hrootFile
    have hfresh : Fresh u₁.trusted := by
      obtain ⟨calls, hcalls, htrusted⟩ := hwalked.trusted
      rw [htrusted]
      exact hu.runCalls hcalls
    cases result with
    | error e =>
      rw [refresh, bind_of_error hwalk]
      exact .inl ⟨rfl, hstored⟩
    | ok r =>
      have hread : (gets (·.trusted) : Client TrustedMetadataSet) u₁ = (.ok u₁.trusted, u₁) := rfl
      rw [refresh, bind_of_ok hwalk, bind_of_ok hread]
      cases hexpired : u₁.trusted.checkRootExpired E.toEnv now with
      | error e =>
        have hcheck : check (.error e : Except Error Unit) u₁ = (.error (.error e), u₁) := rfl
        rw [bind_of_error hcheck]
        exact .inl ⟨rfl, hstored⟩
      | ok =>
        have hcheck : check (.ok () : Except Error Unit) u₁ = (.ok (), u₁) := rfl
        rw [bind_of_ok hcheck, bind_of_ok (seedLowerFromStore_eq now u₁)]
        have hseed : seedTrusted E u₁.stored now u₁.trusted =
            seedTrusted E u.stored now u₁.trusted := by
          rw [seedTrusted, seedTrusted, hstored _ (.inl rfl), hstored _ (.inr (.inl rfl)),
            hstored _ (.inr (.inr rfl))]
        have hvalid : ValidCache E u₁.trusted.root u.stored := by rwa [hroot u₁ hwalk]
        refine .inr ⟨{ u₁ with trusted := seedTrusted E u₁.stored now u₁.trusted }, ?_, ?_⟩
        · rw [hseed]
          exact {
            root := (seedTrusted_root _ _ _).trans (hroot u₁ hwalk)
            stored := hstored
            timestamp := seedTrusted_timestamp hfresh hvalid
            snapshot := seedTrusted_snapshot hfresh hvalid }
        · refine Respects.bind .trans (refreshTimestamp_advances E R now) (fun _ => ?_) _
          exact .bind .trans (refreshSnapshot_advances E R now) fun _ =>
            refreshTargets_advances E R now

/-! What is cached is read from the seed files. -/

section
variable {c' : Contents} (h : ∀ name, SeedFile name → c' name = c name)
include h

/-- The cached version depends on the seed files alone. -/
theorem cachedVersion_congr : cachedVersion E c' = cachedVersion E c := by
  rw [cachedVersion, cachedVersion, cachedTimestamp, cachedTimestamp, h _ (.inl rfl)]

/-- The cached pins depend on the seed files alone. -/
theorem cachedPin_congr : cachedPin E c' = cachedPin E c := by
  funext name
  rw [cachedPin, cachedPin, cachedSnapshot, cachedSnapshot, h _ (.inr (.inl rfl))]

/-- Whether a cache is valid depends on the seed files alone. -/
theorem ValidCache.congr (hc : ValidCache E root c) : ValidCache E root c' := by
  refine ⟨fun bytes hbytes => hc.timestamp bytes ?_, fun bytes hbytes => hc.snapshot bytes ?_⟩
  · rwa [← h _ (.inl rfl)]
  · rwa [← h _ (.inr (.inl rfl))]

end

/-- The cached files stay valid, and neither is replaced by a lower one than was trusted. -/
theorem Advances.cached {now : Int} {u u' : Updater} (h : Advances E u u')
    (hu : Seeded E root c now u) (hc : ValidCache E root c) :
    ValidCache E root u'.stored ∧
    (TimestampUsable E c now → NotLower (cachedVersion E c) (cachedVersion E u'.stored)) ∧
    (SnapshotUsable E c now → PinsNotLower (cachedPin E c) (cachedPin E u'.stored)) := by
  have hsame := hu.stored
  refine ⟨⟨?_, ?_⟩, fun husable => ?_, fun husable => ?_⟩
  · intro bytes hbytes
    rcases h.timestamp with heq | ⟨b, m, hstored, hparse, hsigned, -⟩
    · exact hc.timestamp bytes (by rw [← hbytes, heq, hsame _ (.inl rfl)])
    · cases hstored.symm.trans hbytes
      rw [hu.root] at hsigned
      exact ⟨m, hparse, hsigned⟩
  · intro bytes hbytes
    rcases h.snapshot with heq | ⟨b, m, hstored, hparse, hsigned, -⟩
    · exact hc.snapshot bytes (by rw [← hbytes, heq, hsame _ (.inr (.inl rfl))])
    · cases hstored.symm.trans hbytes
      rw [hu.root] at hsigned
      exact ⟨m, hparse, hsigned⟩
  · rcases h.timestamp with heq | ⟨b, m, hstored, hparse, -, hlow, -⟩
    · rw [cachedVersion, cachedVersion, cachedTimestamp, cachedTimestamp, heq, hsame _ (.inl rfl)]
      exact .refl _
    · have hnew : cachedVersion E u'.stored = some m.signed.version := by
        rw [cachedVersion, cachedTimestamp_eq hstored hparse]
        rfl
      rw [hnew]
      exact (hu.timestamp husable).trans hlow
  · intro name
    rcases h.snapshot with heq | ⟨b, m, hstored, hparse, -, hlow, -⟩
    · rw [cachedPin, cachedPin, cachedSnapshot, cachedSnapshot, heq, hsame _ (.inr (.inl rfl))]
      exact .refl _
    · have hnew : cachedPin E u'.stored name = (m.signed.metas.get? name).map (·.version) := by
        rw [cachedPin, cachedSnapshot_eq hstored hparse]
        rfl
      rw [hnew]
      exact (hu.snapshot husable name).trans (hlow name)

end

end

end Sigstore.Tuf
