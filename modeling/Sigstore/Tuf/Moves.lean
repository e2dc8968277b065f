import Sigstore.Tuf.Client
import Sigstore.Tuf.Invariants

/-!
# What a call of the client does

A call moves the trusted set by operations of certain kinds, whatever it ends in, and it writes
files of certain names to the store (`Moves`). There is one lemma for each part of the client; a
claim about the states that the client reaches needs these lemmas and what the operations do, and
not the client's control flow.
-/

namespace Sigstore.Tuf

open Checks StateAction TrustedMetadataSet

/-- The operation updates the root. -/
def Call.OfRoot : Call → Prop
  | updateRoot _ => True
  | _ => False

/-- The operation updates the timestamp, the snapshot or the top-level targets. -/
def Call.OfTopLevel : Call → Prop
  | updateTimestamp _ _ => True
  | updateSnapshot _ _ => True
  | updateTargets _ _ => True
  | _ => False

/-- The operation updates a delegated role. -/
def Call.OfDelegated : Call → Prop
  | updateDelegatedTargets _ _ _ _ => True
  | _ => False

/-- The second store holds what the first one held or what may be written. -/
def MayWrite (W : String → Bytes → Prop) : Option MetadataStore → Option MetadataStore → Prop
  | none, none => True
  | some st, some st' => st'.writable = st.writable ∧
    ∀ name, st'.load name = st.load name ∨ ∃ bytes, st'.load name = some bytes ∧ W name bytes
  | _, _ => False

section
variable {W W' : String → Bytes → Prop}

theorem MayWrite.refl (st : Option MetadataStore) : MayWrite W st st := by
  cases st with
  | none => trivial
  | some st => exact ⟨rfl, fun _ => .inl rfl⟩

/-- Writes after writes are writes: a file holds what the second ones wrote, or else what the first
ones left. -/
theorem MayWrite.trans {a b c : Option MetadataStore} (hab : MayWrite W a b)
    (hbc : MayWrite W b c) : MayWrite W a c := by
  cases a with
  | none =>
    cases b with
    | none => exact hbc
    | some => exact hab.elim
  | some sa =>
    cases b with
    | none => exact hab.elim
    | some sb =>
      cases c with
      | none => exact hbc.elim
      | some sc =>
        refine ⟨hbc.1.trans hab.1, fun name => ?_⟩
        rcases hbc.2 name with h | h
        · rw [h]
          exact hab.2 name
        · exact .inr h

/-- Writes of some files are writes of more files. Whether there is a store at all stays the same.
-/
theorem MayWrite.mono (hW : ∀ name bytes, W name bytes → W' name bytes)
    {a b : Option MetadataStore} (h : MayWrite W a b) : MayWrite W' a b := by
  cases a with
  | none =>
    cases b with
    | none => trivial
    | some => exact h.elim
  | some sa =>
    cases b with
    | none => exact h.elim
    | some sb =>
      refine ⟨h.1, fun name => (h.2 name).imp_right ?_⟩
      rintro ⟨bytes, hload, hwrite⟩
      exact ⟨bytes, hload, hW name bytes hwrite⟩

end

/-- The trusted set has moved by operations of a kind, the configuration is the same, and the store
has changed by certain writes. -/
structure Moves (E : Env) (C : Call → Prop) (W : String → Bytes → Prop) (u u' : Updater) :
    Prop where
  trusted : ∃ calls, (∀ c ∈ calls, C c) ∧ u'.trusted = runCalls E u.trusted calls
  config : u'.config = u.config
  store : MayWrite W u.store u'.store

section
variable {E : Env} {C C' : Call → Prop} {W W' : String → Bytes → Prop}

theorem Moves.refl (u : Updater) : Moves E C W u u := ⟨⟨[], by simp, rfl⟩, rfl, .refl _⟩

/-- Two moves after each other are one, by the operations of the first and then those of the second.
-/
theorem Moves.trans (u v w : Updater) (huv : Moves E C W u v) (hvw : Moves E C W v w) :
    Moves E C W u w := by
  obtain ⟨calls, hcalls, htrusted⟩ := huv.trusted
  obtain ⟨calls', hcalls', htrusted'⟩ := hvw.trusted
  refine ⟨⟨calls ++ calls', List.forall_mem_append.2 ⟨hcalls, hcalls'⟩, ?_⟩,
    hvw.config.trans huv.config, huv.store.trans hvw.store⟩
  rw [htrusted', htrusted, runCalls, runCalls, runCalls, Runs.run_append]

/-- A move of some kinds is a move of more kinds. -/
theorem Moves.mono (hC : ∀ c, C c → C' c) (hW : ∀ name bytes, W name bytes → W' name bytes)
    {u v : Updater} (h : Moves E C W u v) : Moves E C' W' u v := by
  obtain ⟨calls, hcalls, htrusted⟩ := h.trusted
  exact ⟨⟨calls, fun c hc => hC c (hcalls c hc), htrusted⟩, h.config, h.store.mono hW⟩

/-! ## Rules -/

/-- Whatever the action ends in, it moves the updater so. -/
abbrev Does {α : Type} (E : Env) (C : Call → Prop) (W : String → Bytes → Prop) (x : Client α) :
    Prop := Respects (Moves E C W) x

section
variable {α β : Type}

/-- What an action does may be described more coarsely. -/
theorem Does.mono (hC : ∀ c, C c → C' c) (hW : ∀ name bytes, W name bytes → W' name bytes)
    {x : Client α} (h : Does E C W x) : Does E C' W' x := fun u => (h u).mono hC hW

/-- A sequence moves as its parts do, also where the first part fails. -/
theorem Does.bind {x : Client α} {f : α → Client β} (hx : Does E C W x)
    (hf : ∀ a, Does E C W (f a)) : Does E C W (x >>= f) := Respects.bind Moves.trans hx hf

theorem Does.pure (a : α) : Does E C W (pure a : Client α) := Respects.pure .refl a

theorem Does.throw (e : Error) : Does E C W (throw e : Client α) := Respects.fail .refl _

theorem Does.gets (f : Updater → α) : Does E C W (gets f : Client α) := Respects.gets .refl f

theorem Does.orThrow (o : Option α) (e : Error) : Does E C W (orThrow o e) := Respects.lift .refl _

/-- A check moves nothing, whether it accepts or not. -/
theorem Does.check (x : Except Error α) : Does E C W (check x) := Respects.lift .refl _

/-- What follows a check may rely on it. -/
theorem Does.bind_check {x : Except Error α} {f : α → Client β}
    (hf : ∀ a, x = .ok a → Does E C W (f a)) : Does E C W (Tuf.check x >>= f) := by
  intro u
  cases x with
  | error e => exact .refl u
  | ok a => exact hf a rfl u

/-- An update by one of the five operations. -/
theorem Does.update {f : TrustedMetadataSet → Except Abort α × TrustedMetadataSet} {c : Call}
    (hf : ∀ s, (f s).2 = step E s c) (hc : C c) : Does E C W (update f) := by
  intro u
  exact ⟨⟨[c], by simpa using hc, hf u.trusted⟩, rfl, .refl _⟩

/-- An attempt moves the trusted set by its operation, also where its error is caught and the client
goes on. -/
theorem Does.attempt {f : TrustedMetadataSet → Except Abort α × TrustedMetadataSet} {c : Call}
    (hf : ∀ s, (f s).2 = step E s c) (hc : C c) : Does E C W (attempt f) := by
  refine Does.update (fun s => ?_) hc
  rw [← hf s]
  split
  · next h => rw [h]
  · next h => rw [h]
  · next h => rw [h]

/-- Storing a file writes that file. Without a store nothing is written, and a store that refuses
the file keeps what it had. -/
theorem Does.cachePut {name : String} {bytes : Bytes} (hW : W name bytes) :
    Does E C W (cachePut name bytes) := by
  intro u
  refine ⟨⟨[], by simp, rfl⟩, rfl, ?_⟩
  show MayWrite W u.store (u.store.map (·.store name bytes))
  cases u.store with
  | none => trivial
  | some st =>
    refine ⟨st.writable_store name bytes, fun other => ?_⟩
    rcases st.load_store_cases name bytes other with h | ⟨rfl, h⟩
    · exact .inl h
    · exact .inr ⟨bytes, h, hW⟩

/-- Reading a stored file moves nothing. -/
theorem Does.loadCached (name : String) : Does E C W (loadCached name) := Respects.gets .refl _

/-- Fetching a file moves nothing. -/
theorem Does.fetchRequired (R : Repository) (name : String) (maxLength : UInt64) :
    Does E C W (fetchRequired R name maxLength) :=
  .bind (.check _) fun _ => .orThrow _ _

end

end

/-! ## The parts of the client -/

section
variable (E : ClientEnv) (R : Repository)

/-- The files that `refresh_root` writes. -/
def RootFile (name : String) : Prop :=
  name = "root.json" ∨ ∃ v : UInt64, name = s!"root_history/{v}.root.json"

/-- The files that `refresh_snapshot` writes. -/
def SnapshotFile (name : String) : Prop :=
  name = "snapshot.json" ∨ ∃ v : UInt64, name = s!"{v}.snapshot.json"

/-- The files of delegated roles. -/
def RoleFile (name : String) : Prop := ∃ role, name = s!"{encodeRole role}.json"

/-- The walk over the root versions updates the root and stores root files, one of each version and
`root.json`. -/
theorem refreshRootLoop_does (count : Nat) (next : UInt64) :
    Does E.toEnv Call.OfRoot (fun name _ => RootFile name) (refreshRootLoop E R count next) := by
  induction count generalizing next with
  | zero => exact .bind (.gets _) fun _ => .throw _
  | succ count ih =>
    refine .bind (.gets _) fun _ => .bind (.check _) fun found => ?_
    cases found with
    | none => exact .pure _
    | some bytes =>
      refine .bind (.update (c := .updateRoot bytes) (fun _ => rfl) trivial) fun _ => ?_
      refine .bind (.cachePut (.inr ⟨next, rfl⟩)) fun _ => ?_
      exact .bind (.cachePut (.inl rfl)) fun _ => ih (next + 1)

/-- The first part of a refresh updates the root and stores root files. -/
theorem refreshRoot_does :
    Does E.toEnv Call.OfRoot (fun name _ => RootFile name) (refreshRoot E R) :=
  .bind (.gets _) fun _ => .bind (.gets _) fun _ => .bind (Respects.lift .refl _) fun _ =>
    refreshRootLoop_does E R _ _

/-- Seeding from a stored file is an attempt of the operation on it, and nothing without the file.
-/
theorem seed_does {α : Type} {C : Call → Prop} {W : String → Bytes → Prop}
    {f : Bytes → TrustedMetadataSet → Except Abort α × TrustedMetadataSet} {c : Bytes → Call}
    (hf : ∀ bytes s, (f bytes s).2 = step E.toEnv s (c bytes)) (hc : ∀ bytes, C (c bytes))
    (found : Option Bytes) : Does E.toEnv C W (seed f found) := by
  cases found with
  | none => exact .pure _
  | some bytes => exact .bind (.attempt (hf bytes) (hc bytes)) fun _ => .pure _

/-- Seeding from the store updates the roles below the root, and writes nothing. -/
theorem seedLowerFromStore_does (now : Int) :
    Does E.toEnv Call.OfTopLevel (fun _ _ => False) (seedLowerFromStore E now) := by
  refine .bind (.loadCached _) fun ts => .bind (.loadCached _) fun snap =>
    .bind (.loadCached _) fun tgt => ?_
  refine .bind ?_ fun _ => .bind ?_ fun _ => ?_
  · refine seed_does E (c := fun bytes => .updateTimestamp bytes now) ?_ (fun _ => trivial) ts
    exact fun _ _ => rfl
  · refine seed_does E (c := fun bytes => .updateSnapshot bytes now) ?_ (fun _ => trivial) snap
    exact fun _ _ => rfl
  · refine seed_does E (c := fun bytes => .updateTargets bytes now) ?_ (fun _ => trivial) tgt
    exact fun _ _ => rfl

/-- The second part of a refresh updates the timestamp and stores it. -/
theorem refreshTimestamp_does (now : Int) :
    Does E.toEnv Call.OfTopLevel (fun name _ => name = "timestamp.json")
      (refreshTimestamp E R now) := by
  refine .bind (.gets _) fun _ => .bind (.fetchRequired R _ _) fun bytes => ?_
  refine .bind (.attempt (c := .updateTimestamp bytes now) (fun _ => rfl) trivial) fun outcome => ?_
  split
  · exact .cachePut rfl
  · exact .pure _
  · exact .throw _

/-- The third part of a refresh updates the snapshot and stores it. A snapshot that can be reused is
neither fetched nor written again. -/
theorem refreshSnapshot_does (now : Int) :
    Does E.toEnv Call.OfTopLevel (fun name _ => SnapshotFile name) (refreshSnapshot E R now) := by
  refine .bind (.gets _) fun trusted => .bind (.gets _) fun _ => .bind (.orThrow _ _) fun pin => ?_
  refine .bind (.check _) fun _ => .bind (.check _) fun reuse => ?_
  split
  · exact .pure _
  · refine .bind (.fetchRequired R _ _) fun bytes => ?_
    refine .bind (.update (c := .updateSnapshot bytes now) (fun _ => rfl) trivial) fun _ => ?_
    refine .bind (.cachePut ?_) fun _ => .cachePut (.inl rfl)
    split
    · exact .inr ⟨pin.version, rfl⟩
    · exact .inl rfl

/-- Fetching the metadata of a targets role moves nothing. -/
theorem fetchTargetsMetadata_does {C : Call → Prop} {W : String → Bytes → Prop} (role : String) :
    Does E.toEnv C W (fetchTargetsMetadata R role) :=
  .bind (.gets _) fun _ => .bind (.gets _) fun _ => .bind (.orThrow _ _) fun _ =>
    .fetchRequired R _ _

/-- The last part of a refresh updates the top-level targets and stores them. -/
theorem refreshTargets_does (now : Int) :
    Does E.toEnv Call.OfTopLevel (fun name _ => name = "targets.json")
      (refreshTargets E R now) := by
  refine .bind (.gets _) fun trusted => .bind (.check _) fun _ => .bind (.check _) fun reuse => ?_
  split
  · exact .pure _
  · refine .bind (fetchTargetsMetadata_does E R _) fun bytes => ?_
    refine .bind (.update (c := .updateTargets bytes now) (fun _ => rfl) trivial) fun _ => ?_
    exact .cachePut rfl

/-- Loading a role updates this delegated role and stores it under its name. -/
theorem loadRole_does (role delegator : String) (now : Int) :
    Does E.toEnv Call.OfDelegated (fun name _ => name = s!"{encodeRole role}.json")
      (loadRole E R role delegator now) := by
  refine .bind (fetchTargetsMetadata_does E R _) fun bytes => ?_
  refine .bind (.update (c := .updateDelegatedTargets bytes role delegator now) (fun _ => rfl)
    trivial) fun _ => ?_
  exact .cachePut rfl

/-- The full refresh. -/
theorem refresh_does (now : Int) :
    Does E.toEnv (fun c => c.OfRoot ∨ c.OfTopLevel)
      (fun name _ => RootFile name ∨ name = "timestamp.json" ∨ SnapshotFile name ∨
        name = "targets.json") (refresh E R now) := by
  refine .bind ?_ fun _ => .bind (.gets _) fun trusted => .bind (.check _) fun _ => ?_
  · exact (refreshRoot_does E R).mono (fun _ => .inl) fun _ _ h => .inl h
  refine .bind ?_ fun _ => .bind ?_ fun _ => .bind ?_ fun _ => ?_
  · exact (seedLowerFromStore_does E now).mono (fun _ => .inr) fun _ _ h => h.elim
  · exact (refreshTimestamp_does E R now).mono (fun _ => .inr) fun _ _ h => .inr (.inl h)
  · exact (refreshSnapshot_does E R now).mono (fun _ => .inr) fun _ _ h => .inr (.inr (.inl h))
  · exact (refreshTargets_does E R now).mono (fun _ => .inr) fun _ _ h => .inr (.inr (.inr h))

/-- The search loads delegated roles only. The induction is on the steps that the search may still
take, and each branch is a composition of parts that do no more. -/
theorem search_does (targetPath : String) (now : Int) (steps : Nat) (visited : List String)
    (toVisit : List (String × String)) :
    Does E.toEnv Call.OfDelegated (fun name _ => RoleFile name)
      (search E R targetPath now steps visited toVisit) := by
  induction steps generalizing visited toVisit with
  | zero =>
    unfold search
    split
    · exact .pure _
    · exact .pure _
    · next h => cases h
  | succ steps ih =>
    unfold search
    split
    · exact .pure _
    · next h => cases h
    · next role delegator rest steps' _ hsteps =>
      cases hsteps
      refine .bind (.gets _) fun trusted => ?_
      dsimp only
      split
      · exact ih _ _
      · refine .bind ?_ fun _ => .bind (.gets _) fun found => ?_
        · split
          · exact .pure _
          · exact (loadRole_does E R role delegator now).mono (fun _ => id) fun _ _ h => ⟨role, h⟩
        · cases found with
          | none => exact Respects.fail .refl _
          | some targets =>
            dsimp only
            split
            · exact .pure _
            · exact .bind (.check _) fun _ => ih _ _

/-- A lookup updates delegated roles and stores them under their names. -/
theorem getTargetinfo_does (targetPath : String) (now : Int) :
    Does E.toEnv Call.OfDelegated (fun name _ => RoleFile name)
      (getTargetinfo E R targetPath now) := by
  refine .bind (.gets _) fun top => ?_
  cases top with
  | none => exact .throw _
  | some _ => exact .bind (.gets _) fun _ => search_does E R targetPath now _ _ _

/-- The file of a target that was verified against it. -/
def VerifiedTarget (target : TargetFile) (targetPath name : String) (bytes : Bytes) : Prop :=
  name = s!"targets/{targetPath}" ∧ verifyTargetBytes E bytes target targetPath = .ok ()

/-- Looking into the store changes nothing. Not even a file that does not match is removed. -/
theorem findCachedTarget_snd (target : TargetFile) (targetPath : String) (u : Updater) :
    (findCachedTarget E target targetPath u).2 = u := by
  cases hfound : u.store.bind (·.load s!"targets/{targetPath}") with
  | none =>
    have hload : loadCached s!"targets/{targetPath}" u = (.ok none, u) :=
      congrArg (fun o => (Except.ok o, u)) hfound
    rw [findCachedTarget, bind_of_ok hload]
    rfl
  | some bytes =>
    have hload : loadCached s!"targets/{targetPath}" u = (.ok (some bytes), u) :=
      congrArg (fun o => (Except.ok o, u)) hfound
    rw [findCachedTarget, bind_of_ok hload]
    dsimp only
    cases verifyTargetBytes E bytes target targetPath with
    | ok => rfl
    | error => rfl

/-- A download trusts nothing new, and stores the target's bytes only when they are verified. -/
theorem downloadTarget_does (target : TargetFile) (targetPath : String) :
    Does E.toEnv (fun _ => False) (VerifiedTarget E target targetPath)
      (downloadTarget E R target targetPath) := by
  refine .bind (.gets _) fun u => .bind (.check _) fun _ => .bind (.check _) fun path => ?_
  refine .bind (.check _) fun _ => .bind (.orThrow _ _) fun bytes => ?_
  exact .bind_check fun _ hverified => .bind (.cachePut ⟨rfl, hverified⟩) fun _ => .pure _

/-- A target is taken from the store or downloaded after it has been resolved. Where the lookup
fails, or the file is in the store, the first alternative holds. -/
theorem getTarget_after (targetPath : String) (now : Int) (u : Updater) :
    (getTarget E R targetPath now u).2 = (getTargetinfo E R targetPath now u).2 ∨
    ∃ target u₁, Returns (getTargetinfo E R targetPath now) u (some target) u₁ ∧
      (getTarget E R targetPath now u).2 = (downloadTarget E R target targetPath u₁).2 := by
  cases hinfo : getTargetinfo E R targetPath now u with
  | mk result u₁ =>
    cases result with
    | error e => exact .inl (by rw [getTarget, bind_of_error hinfo])
    | ok info =>
      rw [getTarget, bind_of_ok hinfo]
      cases info with
      | none => exact .inl rfl
      | some target =>
        rw [bind_of_ok (show orThrow (some target) _ u₁ = (.ok target, u₁) from rfl)]
        have hsame := findCachedTarget_snd E target targetPath u₁
        cases hfound : findCachedTarget E target targetPath u₁ with
        | mk found u₂ =>
          rw [hfound] at hsame
          obtain rfl : u₂ = u₁ := hsame
          cases found with
          | error e => exact .inl (by rw [bind_of_error hfound])
          | ok cached =>
            rw [bind_of_ok hfound]
            cases cached with
            | some bytes => exact .inl rfl
            | none => exact .inr ⟨target, u₂, hinfo, rfl⟩

end

/-- What every update of the root preserves, adopting cached roots preserves. The induction is on
the number of versions that are tried, one update for each. -/
theorem adoptCachedRoots_preserves {E : Env} {P : TrustedMetadataSet → Prop}
    (hP : ∀ s bytes, P s → P (s.updateRoot E bytes).2) {store : MetadataStore} {fuel : Nat}
    {s t : TrustedMetadataSet} (hs : P s)
    (h : Updater.adoptCachedRoots E store fuel s = .ok t) : P t := by
  induction fuel generalizing s with
  | zero =>
    cases h
    exact hs
  | succ fuel ih =>
    obtain ⟨next, -, h⟩ := bind_eq_ok.1 h
    split at h
    · cases h
      exact hs
    · next bytes _ =>
      have hnext := hP s bytes hs
      split at h
      · next hupdate =>
        rw [hupdate] at hnext
        exact ih hnext h
      · next hupdate =>
        rw [hupdate] at hnext
        cases h
        exact hnext

/-! ## Calls -/

/-- A call of the client, with what the repository answers during it. -/
inductive Op where
  | refresh (R : Repository) (now : Int)
  | getTargetinfo (R : Repository) (targetPath : String) (now : Int)
  | getTarget (R : Repository) (targetPath : String) (now : Int)
  | downloadTarget (R : Repository) (target : TargetFile) (targetPath : String)

/-- The updater after a call, whatever it ends in. -/
def Op.after (E : ClientEnv) (u : Updater) : Op → Updater
  | refresh R now => (Tuf.refresh E R now u).2
  | getTargetinfo R targetPath now => (Tuf.getTargetinfo E R targetPath now u).2
  | getTarget R targetPath now => (Tuf.getTarget E R targetPath now u).2
  | downloadTarget R target targetPath => (Tuf.downloadTarget E R target targetPath u).2

end Sigstore.Tuf
