import Sigstore.Cache.Memory
import Sigstore.Types.Encoding

/-!
# The cache on disk under concurrent calls

The cache of `sigstore-cache` that keeps an entry in two files (`filesystem.rs`), as the single file
operations of any number of calls by several processes that can crash between any two of them.
Nothing ties the two files together: `get` checks the expiration in one of them and returns the
other, and a `set` that stops between the two leaves new metadata beside an old value. The values
that are served are fresh as long as no `get` has valid metadata and an expired value before it, and
only then (`servesFresh_exactly`).
-/

namespace Sigstore.Cache

open Runs Types

/-- The string representation used for file names. -/
def CacheKey.asStr : CacheKey → String
  | rekorPublicKey => "rekor_public_key"
  | rekorLogInfo => "rekor_log_info"
  | fulcioTrustBundle => "fulcio_trust_bundle"
  | fulcioConfiguration => "fulcio_configuration"
  | trustedRoot => "trusted_root"

/-- Different keys have different names. -/
theorem CacheKey.asStr_injective : Function.Injective asStr := by
  intro key key' h
  cases key <;> cases key' <;> first | rfl | simp [asStr] at h

namespace FileSystem

/-! ## Metadata -/

/-- An instant that `jiff` can hold, in nanoseconds since the Unix epoch. -/
@[ext]
structure Timestamp where
  nanos : Int
  ge_min : -377705023201000000000 ≤ nanos
  le_max : nanos ≤ 253402207200999999999
  deriving DecidableEq

instance : LT Timestamp := ⟨fun t u => t.nanos < u.nanos⟩

instance (t u : Timestamp) : Decidable (t < u) := inferInstanceAs (Decidable (t.nanos < u.nanos))

/-- The instant so many nanoseconds later; `jiff` panics where it cannot hold it. -/
def Timestamp.add (t : Timestamp) (d : Nat) : Option Timestamp :=
  if h : t.nanos + d ≤ 253402207200999999999 then
    some ⟨t.nanos + d, Int.le_trans t.ge_min (Int.le_add_of_nonneg_right (Int.natCast_nonneg d)), h⟩
  else none

/-- The nanoseconds of a `SignedDuration`, of 24 hours where the whole seconds exceed an `i64`. -/
def signedTtl (ttl : Nat) : Nat :=
  if ttl / 1000000000 < 2 ^ 63 then ttl else 24 * 60 * 60 * 1000000000

/-- Metadata stored alongside cached values. -/
structure CacheMetadata where
  createdAt : Timestamp
  expiresAt : Timestamp
  deriving DecidableEq

/-- The JSON text of metadata (`serde_json` with the instants of `jiff`), which is read back as it
was written. -/
structure MetadataJson where
  toStringPretty : CacheMetadata → String
  fromStr : String → Except String CacheMetadata
  fromStr_toStringPretty (metadata : CacheMetadata) :
    fromStr (toStringPretty metadata) = .ok metadata

/-! ## Files -/

/-- The files of the cache directory by their names. -/
abbrev Files := String → Option Bytes

/-- The name of a cache file. -/
def cachePath (key : CacheKey) : String := s!"{key.asStr}.cache"

/-- The name of a metadata file. -/
def metaPath (key : CacheKey) : String := s!"{key.asStr}.meta"

/-- Different keys have different cache files. -/
theorem cachePath_injective : Function.Injective cachePath := by
  intro key key' h
  exact CacheKey.asStr_injective (String.append_left_inj _ |>.1 h)

/-- No cache file is a metadata file, of whatever keys: their names end differently. -/
theorem cachePath_ne_metaPath (key key' : CacheKey) : cachePath key ≠ metaPath key' := by
  intro h
  have hlast := congrArg (fun s => s.toList.getLast?) h
  simp only [cachePath, metaPath, String.toList_append, List.getLast?_append] at hlast
  exact absurd hlast (by simp [toString])

/-! ## Calls -/

/-- Errors that can occur during cache operations. -/
inductive Error where
  | io (message : String)
  | serialization (message : String)
  deriving DecidableEq

inductive Op where
  | get (key : CacheKey)
  | set (key : CacheKey) (value : Bytes) (ttl : Nat)
  | remove (key : CacheKey)
  deriving DecidableEq

/-- How a call ends. -/
inductive Return where
  | got (result : Except Error (Option Bytes))
  | done (result : Except Error Unit)
  | panicked
  deriving DecidableEq

/-- What a call does next: a file operation, or, in `check`, the look at the clock. `readData` notes
when that was. -/
inductive Call where
  | readMeta (key : CacheKey)
  | check (key : CacheKey) (content : String)
  | readData (key : CacheKey) (checkedAt : Timestamp)
  | ensureDir (key : CacheKey) (value : Bytes) (ttl : Nat)
  | writeMeta (key : CacheKey) (value : Bytes) (metadata : CacheMetadata)
  | writeData (key : CacheKey) (value : Bytes) (metadata : CacheMetadata)
  | removeData (key : CacheKey) (result : Return)
  | removeMeta (key : CacheKey) (result : Return)
  | returned (result : Return)
  deriving DecidableEq

def Op.call : Op → Call
  | get key => .readMeta key
  | set key value ttl => .ensureDir key value ttl
  | remove key => .removeData key (.done (.ok ()))

section
variable (json : MetadataJson)

/-- One operation of a call: what it makes of the files, and what the call does next. -/
def Call.poll (now : Timestamp) (files : Files) : Call → Files × Call
  | readMeta key =>
    match files (metaPath key) with
    | some bytes =>
      match decodeUtf8 bytes with
      | some content => (files, check key content)
      | none => (files, returned (.got (.error (.io "stream did not contain valid UTF-8"))))
    | none => (files, returned (.got (.ok none)))
  | check key content =>
    match json.fromStr content with
    | .ok metadata =>
      if now < metadata.expiresAt then (files, readData key now)
      else (files, removeData key (.got (.ok none)))
    | .error e => (files, returned (.got (.error (.serialization e))))
  | readData key _ => (files, returned (.got (.ok (files (cachePath key)))))
  | ensureDir key value ttl =>
    match now.add (signedTtl ttl) with
    | some expiresAt => (files, writeMeta key value ⟨now, expiresAt⟩)
    | none => (files, returned .panicked)
  | writeMeta key value metadata =>
    (Function.update files (metaPath key) (some (utf8Bytes (json.toStringPretty metadata))),
      writeData key value metadata)
  | writeData key value _ =>
    (Function.update files (cachePath key) (some value), returned (.done (.ok ())))
  | removeData key result => (Function.update files (cachePath key) none, removeMeta key result)
  | removeMeta key result => (Function.update files (metaPath key) none, returned result)
  | returned result => (files, returned result)

end

/-- What a call does after its file operation has failed: the errors of removals are ignored. -/
def Call.fail (message : String) : Call → Call
  | readMeta _ | readData _ _ => returned (.got (.error (.io message)))
  | ensureDir _ _ _ | writeMeta _ _ _ | writeData _ _ _ => returned (.done (.error (.io message)))
  | removeData key result => removeMeta key result
  | removeMeta _ result => returned result
  | check key content => check key content
  | returned result => returned result

/-- A call is one of a process. -/
structure CallId where
  process : Nat
  number : Nat
  deriving DecidableEq

/-- The clock, the files and the calls. No step reads `writtenBy`: it holds, of each data file that
is there, the value and the metadata of the `set` that wrote it. -/
structure State where
  now : Timestamp
  files : Files
  calls : CallId → Option Call
  writtenBy : CacheKey → Option (Bytes × CacheMetadata)

/-- A new cache. -/
def new (now : Timestamp) : State := ⟨now, fun _ => none, fun _ => none, fun _ => none⟩

/-- Who wrote the data files, after an operation of a call. -/
def Call.written (writtenBy : CacheKey → Option (Bytes × CacheMetadata)) :
    Call → CacheKey → Option (Bytes × CacheMetadata)
  | writeData key value metadata => Function.update writtenBy key (some (value, metadata))
  | removeData key _ => Function.update writtenBy key none
  | _ => writtenBy

/-- What can happen: a call under an identifier that is not in use, the next operation of a call or
its failure, the crash of a process, and a new reading of the clock. -/
inductive Event where
  | call (id : CallId) (op : Op)
  | poll (id : CallId)
  | fail (id : CallId) (message : String)
  | crash (process : Nat)
  | clock (now : Timestamp)
  deriving DecidableEq

section
variable (json : MetadataJson)

def step (s : State) : Event → State
  | .call id op =>
    match s.calls id with
    | none => { s with calls := Function.update s.calls id (some op.call) }
    | some _ => s
  | .poll id =>
    match s.calls id with
    | none => s
    | some c =>
      let (files, next) := c.poll json s.now s.files
      { s with
        files := files
        calls := Function.update s.calls id (some next)
        writtenBy := c.written s.writtenBy }
  | .fail id message =>
    match s.calls id with
    | none => s
    | some c => { s with calls := Function.update s.calls id (some (c.fail message)) }
  | .crash process =>
    { s with calls := fun id => if id.process = process then none else s.calls id }
  | .clock now => { s with now := now }

variable {json}

theorem step_call_of_none {s : State} {id : CallId} (op : Op) (h : s.calls id = none) :
    step json s (.call id op) = { s with calls := Function.update s.calls id (some op.call) } := by
  simp [step, h]

theorem step_call_of_some {s : State} {id : CallId} {c : Call} (op : Op) (h : s.calls id = some c) :
    step json s (.call id op) = s := by simp [step, h]

theorem step_poll_of_none {s : State} {id : CallId} (h : s.calls id = none) :
    step json s (.poll id) = s := by simp [step, h]

/-- Polling a call carries out its next operation, on the files and on the record of who wrote them.
-/
theorem step_poll_of_some {s : State} {id : CallId} {c : Call} (h : s.calls id = some c) :
    step json s (.poll id) = { s with
      files := (c.poll json s.now s.files).1
      calls := Function.update s.calls id (some (c.poll json s.now s.files).2)
      writtenBy := c.written s.writtenBy } := by
  simp [step, h]

theorem step_fail_of_none {s : State} {id : CallId} (message : String) (h : s.calls id = none) :
    step json s (.fail id message) = s := by simp [step, h]

/-- A failed operation leaves the files and moves the call on alone. -/
theorem step_fail_of_some {s : State} {id : CallId} {c : Call} (message : String)
    (h : s.calls id = some c) :
    step json s (.fail id message) =
      { s with calls := Function.update s.calls id (some (c.fail message)) } := by
  simp [step, h]

end

/-! ## The promise -/

section
variable (json : MetadataJson)

/-- The data that a `get` returns was written by a `set` whose own expiration had not passed when
the `get` looked at the clock. -/
def ServesFresh (s₀ : State) (events : List Event) : Prop :=
  ∀ before rest id key checkedAt data, events = before ++ .poll id :: rest →
    (run (step json) s₀ before).calls id = some (.readData key checkedAt) →
    (step json (run (step json) s₀ before) (.poll id)).calls id =
      some (.returned (.got (.ok (some data)))) →
    ∃ metadata, (run (step json) s₀ before).writtenBy key = some (data, metadata) ∧
      checkedAt < metadata.expiresAt

/-- When an event keeps the promise: a `get` that finds valid metadata finds no expired value beside
it, and no `set` writes a value that was expired when a `get` that has yet to read it checked. -/
def Keeps (s : State) : Event → Prop
  | .poll id =>
    (∀ key content metadata value written, s.calls id = some (.check key content) →
      json.fromStr content = .ok metadata → s.now < metadata.expiresAt →
      s.writtenBy key = some (value, written) → s.now < written.expiresAt) ∧
    ∀ key value written id' checkedAt, s.calls id = some (.writeData key value written) →
      s.calls id' = some (.readData key checkedAt) → checkedAt < written.expiresAt
  | _ => True

end

/-! ## What is on the disk -/

section
variable {json : MetadataJson}

/-- The data files hold what was written to them. -/
def Recorded (s : State) : Prop :=
  ∀ key, s.files (cachePath key) = (s.writtenBy key).map Prod.fst

/-- Whatever happens, the data files hold what was written to them: only writing and removing data
changes either side, and both do so alike. -/
theorem Recorded.step {s : State} (h : Recorded s) (e : Event) : Recorded (step json s e) := by
  intro key
  cases e with
  | call id op =>
    cases hid : s.calls id with
    | none => rw [step_call_of_none op hid]; exact h key
    | some c => rw [step_call_of_some op hid]; exact h key
  | fail id message =>
    cases hid : s.calls id with
    | none => rw [step_fail_of_none message hid]; exact h key
    | some c => rw [step_fail_of_some message hid]; exact h key
  | crash | clock => exact h key
  | poll id =>
    cases hid : s.calls id with
    | none => rw [step_poll_of_none hid]; exact h key
    | some c =>
      rw [step_poll_of_some hid]
      cases c with
      | writeData key' value metadata =>
        by_cases hkey : key = key'
        · subst hkey
          simp [Call.poll, Call.written]
        · simp [Call.poll, Call.written, hkey, cachePath_injective.ne hkey, h key]
      | removeData key' result =>
        by_cases hkey : key = key'
        · subst hkey
          simp [Call.poll, Call.written]
        · simp [Call.poll, Call.written, hkey, cachePath_injective.ne hkey, h key]
      | writeMeta | removeMeta => simp [Call.poll, Call.written, cachePath_ne_metaPath, h key]
      | readMeta | check | ensureDir =>
        simp only [Call.poll, Call.written]
        split <;> try split
        all_goals exact h key
      | readData | returned => exact h key

/-- In every run, crashes and failures included, the data files hold what was written to them. -/
theorem recorded_run (now : Timestamp) (events : List Event) :
    Recorded (run (step json) (new now) events) :=
  run_invariant (step json) (fun _ e h => h.step e) (fun _ => rfl) events

/-- A call comes to read the data only from a check that found valid metadata. No other operation
goes on to the data file. -/
theorem poll_eq_readData {now : Timestamp} {files : Files} {c : Call} {key : CacheKey}
    {checkedAt : Timestamp} (h : (c.poll json now files).2 = .readData key checkedAt) :
    ∃ content metadata, c = .check key content ∧ json.fromStr content = .ok metadata ∧
      now < metadata.expiresAt ∧ checkedAt = now := by
  cases c with
  | check key' content =>
    simp only [Call.poll] at h
    split at h
    · next metadata hmetadata =>
      split at h
      · next hnow =>
        cases h
        exact ⟨content, metadata, rfl, hmetadata, hnow, rfl⟩
      · cases h
    · cases h
  | readMeta | ensureDir =>
    simp only [Call.poll] at h
    split at h <;> try split at h
    all_goals cases h
  | readData | writeMeta | writeData | removeData | removeMeta | returned => cases h

/-- A `get` that is about to read was so before, or has just found valid metadata. A crash only
removes calls, and a failed operation ends a `get`. -/
theorem calls_step {s : State} {e : Event} {id : CallId} {key : CacheKey} {checkedAt : Timestamp}
    (h : (step json s e).calls id = some (.readData key checkedAt)) :
    s.calls id = some (.readData key checkedAt) ∨
      ∃ content metadata, e = .poll id ∧ s.calls id = some (.check key content) ∧
        json.fromStr content = .ok metadata ∧ s.now < metadata.expiresAt ∧ checkedAt = s.now := by
  cases e with
  | call id' op =>
    cases hid : s.calls id' with
    | some c => exact .inl (by rwa [step_call_of_some op hid] at h)
    | none =>
      rw [step_call_of_none op hid] at h
      by_cases hne : id = id'
      · subst hne
        cases op <;> simp [Op.call] at h
      · exact .inl ((Function.update_of_ne hne ..).symm.trans h)
  | fail id' message =>
    cases hid : s.calls id' with
    | none => exact .inl (by rwa [step_fail_of_none message hid] at h)
    | some c =>
      rw [step_fail_of_some message hid] at h
      by_cases hne : id = id'
      · subst hne
        cases c <;> simp [Call.fail] at h
      · exact .inl ((Function.update_of_ne hne ..).symm.trans h)
  | crash process =>
    simp only [step] at h
    split at h
    · cases h
    · exact .inl h
  | clock => exact .inl h
  | poll id' =>
    cases hid : s.calls id' with
    | none => exact .inl (by rwa [step_poll_of_none hid] at h)
    | some c =>
      rw [step_poll_of_some hid] at h
      by_cases hne : id = id'
      · subst hne
        obtain ⟨content, metadata, rfl, hrest⟩ := poll_eq_readData (by simpa using h)
        exact .inr ⟨content, metadata, rfl, hid, hrest⟩
      · exact .inl ((Function.update_of_ne hne ..).symm.trans h)

/-- A data file is as it was, or a `set` has just written it. Only the last operation of a `set`
records a new value; removing one leaves none. -/
theorem writtenBy_step {s : State} {e : Event} {key : CacheKey} {value : Bytes}
    {written : CacheMetadata} (h : (step json s e).writtenBy key = some (value, written)) :
    s.writtenBy key = some (value, written) ∨
      ∃ id, e = .poll id ∧ s.calls id = some (.writeData key value written) := by
  cases e with
  | call id op =>
    cases hid : s.calls id with
    | none => exact .inl (by rwa [step_call_of_none op hid] at h)
    | some c => exact .inl (by rwa [step_call_of_some op hid] at h)
  | fail id message =>
    cases hid : s.calls id with
    | none => exact .inl (by rwa [step_fail_of_none message hid] at h)
    | some c => exact .inl (by rwa [step_fail_of_some message hid] at h)
  | crash | clock => exact .inl h
  | poll id =>
    cases hid : s.calls id with
    | none => exact .inl (by rwa [step_poll_of_none hid] at h)
    | some c =>
      rw [step_poll_of_some hid] at h
      cases c with
      | writeData key' value' written' =>
        by_cases hkey : key = key'
        · subst hkey
          simp only [Call.written, Function.update_self, Option.some.injEq, Prod.mk.injEq] at h
          obtain ⟨rfl, rfl⟩ := h
          exact .inr ⟨id, rfl, hid⟩
        · exact .inl ((Function.update_of_ne hkey ..).symm.trans h)
      | removeData key' result =>
        by_cases hkey : key = key'
        · subst hkey
          simp [Call.written] at h
        · exact .inl ((Function.update_of_ne hkey ..).symm.trans h)
      | readMeta | check | readData | ensureDir | writeMeta | removeMeta | returned => exact .inl h

/-- What a `get` is about to read was fresh when it checked. -/
def Fresh (s : State) : Prop :=
  ∀ id key checkedAt value written, s.calls id = some (.readData key checkedAt) →
    s.writtenBy key = some (value, written) → checkedAt < written.expiresAt

/-- In a new cache no `get` is about to read. -/
theorem fresh_new (now : Timestamp) : Fresh (new now) := by
  intro id key checkedAt value written h
  simp [new] at h

/-- An event that keeps the promise leaves every `get` that is about to read with a value that was
fresh when it checked. The `get` or the value is new, and the two halves of `Keeps` are these two
cases. -/
theorem Fresh.step {s : State} {e : Event} (h : Fresh s) (he : Keeps json s e) :
    Fresh (step json s e) := by
  intro id key checkedAt value written hread hwritten
  obtain hbefore | ⟨content, metadata, rfl, hcheck, hmetadata, hnow, rfl⟩ := calls_step hread
  · obtain hthere | ⟨id', rfl, hwrite⟩ := writtenBy_step hwritten
    · exact h id key checkedAt value written hbefore hthere
    · exact he.2 key value written id checkedAt hwrite hbefore
  · obtain hthere | ⟨id', heq, hwrite⟩ := writtenBy_step hwritten
    · exact he.1 key content metadata value written hcheck hmetadata hnow hthere
    · cases heq
      rw [hcheck] at hwrite
      cases hwrite

/-! ## When the promise is kept -/

/-- What a `get` returns is what is in the data file. -/
theorem step_readData {s : State} {id : CallId} {key : CacheKey} {checkedAt : Timestamp}
    (h : s.calls id = some (.readData key checkedAt)) :
    (step json s (.poll id)).calls id =
      some (.returned (.got (.ok (s.files (cachePath key))))) := by
  simp [step_poll_of_some h, Call.poll]

/-- Where all events keep the promise, every `get` of the run returns a value that was fresh when it
checked. -/
theorem servesFresh_of_keeps {now : Timestamp} {events : List Event}
    (h : Along (step json) (Keeps json) (new now) events) :
    ServesFresh json (new now) events := by
  rintro before rest id key checkedAt data rfl hread hgot
  have hfresh : Fresh (run (step json) (new now) before) :=
    ((along_append ..).1 h).1.keeps (fun _ _ hs he => hs.step he) (fresh_new now)
  rw [step_readData hread, recorded_run now before key] at hgot
  cases hwritten : (run (step json) (new now) before).writtenBy key with
  | none => simp [hwritten] at hgot
  | some written =>
    obtain ⟨value, metadata⟩ := written
    simp only [hwritten, Option.map_some, Option.some.injEq, Call.returned.injEq, Return.got.injEq,
      Except.ok.injEq] at hgot
    subst hgot
    exact ⟨metadata, rfl, hfresh id key checkedAt value metadata hread hwritten⟩

/-- A `get` that is about to read an expired value serves it. The data file holds what the record
says, and `get` does not look at the clock again. -/
theorem not_servesFresh {now : Timestamp} {events : List Event} {id : CallId} {key : CacheKey}
    {checkedAt : Timestamp} {value : Bytes} {written : CacheMetadata}
    (hread : (run (step json) (new now) events).calls id =
      some (.readData key checkedAt))
    (hwritten : (run (step json) (new now) events).writtenBy key = some (value, written))
    (hexp : ¬ checkedAt < written.expiresAt) :
    ¬ ServesFresh json (new now) (events ++ [.poll id]) := by
  intro hserves
  have hgot : (step json (run (step json) (new now) events) (.poll id)).calls id = _ :=
    step_readData hread
  rw [recorded_run now events key, hwritten] at hgot
  obtain ⟨metadata, hmetadata, hlt⟩ :=
    hserves events [] id key checkedAt value rfl hread hgot
  rw [hwritten] at hmetadata
  cases hmetadata
  exact hexp hlt

/-- Where an event does not keep the promise, a `get` that is polled next breaks it. The two halves
of `Keeps` are the two ways to it: the `get` has just checked, or the value has just been written.
-/
theorem exists_not_servesFresh {now : Timestamp} {before : List Event} {e : Event}
    (h : ¬ Keeps json (run (step json) (new now) before) e) :
    ∃ id, ¬ ServesFresh json (new now) (before ++ [e] ++ [.poll id]) := by
  cases e with
  | call | fail | crash | clock => exact absurd trivial h
  | poll id =>
    rcases not_and_or.1 h with hcheck | hwrite
    · push Not at hcheck
      obtain ⟨key, content, metadata, value, written, hid, hmetadata, hnow, hwritten, hexp⟩ :=
        hcheck
      have hstep : step json (run (step json) (new now) before) (.poll id) =
          { run (step json) (new now) before with
            calls := Function.update (run (step json) (new now) before).calls id
              (some (.readData key (run (step json) (new now) before).now)) } := by
        simp [step_poll_of_some hid, Call.poll, Call.written, hmetadata, hnow]
      have hread : (run (step json) (new now) (before ++ [.poll id])).calls id =
          some (.readData key (run (step json) (new now) before).now) := by
        rw [run_concat, hstep]
        exact Function.update_self ..
      have hthere : (run (step json) (new now) (before ++ [.poll id])).writtenBy key =
          some (value, written) := by
        rw [run_concat, hstep]
        exact hwritten
      exact ⟨id, not_servesFresh hread hthere hexp⟩
    · push Not at hwrite
      obtain ⟨key, value, written, id', checkedAt, hid, hread, hexp⟩ := hwrite
      have hne : id' ≠ id := by
        rintro rfl
        rw [hid] at hread
        cases hread
      have hread' : (run (step json) (new now) (before ++ [.poll id])).calls id' =
          some (.readData key checkedAt) := by
        rw [run_concat, step_poll_of_some hid]
        exact (Function.update_of_ne hne ..).trans hread
      have hthere : (run (step json) (new now) (before ++ [.poll id])).writtenBy key =
          some (value, written) := by
        rw [run_concat, step_poll_of_some hid]
        exact Function.update_self ..
      exact ⟨id', not_servesFresh hread' hthere hexp⟩

end

/-- No expired value is served in a run whose events all keep the promise. In any other run, a `get`
serves one if it is polled right after the event that does not. -/
theorem servesFresh_exactly (json : MetadataJson) (now : Timestamp)
    (events : List Event) :
    (Along (step json) (Keeps json) (new now) events → ServesFresh json (new now) events) ∧
      (¬ Along (step json) (Keeps json) (new now) events →
        ∃ before id, before <+: events ∧ ¬ ServesFresh json (new now) (before ++ [.poll id])) := by
  refine ⟨servesFresh_of_keeps, fun h => ?_⟩
  rw [along_iff] at h
  push Not at h
  obtain ⟨before, e, rest, rfl, hkeeps⟩ := h
  obtain ⟨id, hserves⟩ := exists_not_servesFresh hkeeps
  exact ⟨before ++ [e], id, ⟨rest, by simp⟩, hserves⟩

/-! ## An interrupted `set` -/

namespace Sample

/-- So many seconds after the Unix epoch. -/
def second (n : Fin 60) : Timestamp := ⟨n * 1000000000, by omega, by omega⟩

def shortLived : CacheMetadata := ⟨second 0, second 1⟩

def longLived : CacheMetadata := ⟨second 2, second 12⟩

/-- A value has expired when its key is set again, and the process of that `set` gets no further
than the metadata. -/
def interrupted : List Event :=
  [.call ⟨0, 0⟩ (.set .trustedRoot [1] 1000000000), .poll ⟨0, 0⟩, .poll ⟨0, 0⟩, .poll ⟨0, 0⟩,
    .clock (second 2), .call ⟨1, 0⟩ (.set .trustedRoot [2] 10000000000), .poll ⟨1, 0⟩,
    .poll ⟨1, 0⟩, .crash 1, .call ⟨2, 0⟩ (.get .trustedRoot), .poll ⟨2, 0⟩, .poll ⟨2, 0⟩]

theorem add_shortLived : (second 0).add (signedTtl 1000000000) = some (second 1) := by decide

theorem add_longLived : (second 2).add (signedTtl 10000000000) = some (second 12) := by decide

theorem second_lt : second 2 < second 12 := by decide

/-- After the crash a `get` is about to read the value of the first `set`, under the metadata of the
second. -/
theorem run_interrupted (json : MetadataJson) :
    (run (step json) (new (second 0)) interrupted).calls ⟨2, 0⟩ =
        some (.readData .trustedRoot (second 2)) ∧
      (run (step json) (new (second 0)) interrupted).writtenBy .trustedRoot =
        some ([1], shortLived) := by
  simp [interrupted, run_cons, step, new, Op.call, Call.poll, Call.written, decodeUtf8_utf8Bytes,
    json.fromStr_toStringPretty, add_shortLived, add_longLived, second_lt, shortLived]

/-- A metadata file, with the instants as `jiff` prints them. -/
def pretty (createdAt expiresAt : String) : String :=
  "\x7b\n  \"created_at\": \"" ++ createdAt ++ "\",\n  \"expires_at\": \"" ++ expiresAt ++
    "\"\n\x7d"

def shortLivedText : String := pretty "1970-01-01T00:00:00Z" "1970-01-01T00:00:01Z"

def longLivedText : String := pretty "1970-01-01T00:00:02Z" "1970-01-01T00:00:12Z"

/-- Two numbers in unary. -/
def unary (m n : Nat) : String := String.ofList (List.replicate m 'c' ++ List.replicate n 'e')

/-- The two kinds of texts that stand for metadata differ. One has a brace, and the other two
letters only. -/
theorem unary_ne_pretty (m n : Nat) (createdAt expiresAt : String) :
    unary m n ≠ pretty createdAt expiresAt := by
  intro h
  have hmem : '{' ∈ (unary m n).toList := by
    rw [h]
    unfold pretty
    simp only [String.toList_append, List.mem_append]
    exact .inl (.inl (.inl (.inl (by decide +kernel))))
  rw [unary, String.toList_ofList, List.mem_append] at hmem
  rcases hmem with hc | he
  · exact absurd (List.eq_of_mem_replicate hc) (by decide)
  · exact absurd (List.eq_of_mem_replicate he) (by decide)

/-- The nanoseconds since the first instant. -/
def offset (t : Timestamp) : Nat := (t.nanos + 377705023201000000000).toNat

def ofOffset (n : Nat) : Timestamp :=
  if h : n ≤ 631107230401999999999 then ⟨n - 377705023201000000000, by omega, by omega⟩
  else second 0

/-- An instant is determined by its distance from the smallest one. -/
theorem ofOffset_offset (t : Timestamp) : ofOffset (offset t) = t := by
  obtain ⟨nanos, hmin, hmax⟩ := t
  have hle : (nanos + 377705023201000000000).toNat ≤ 631107230401999999999 := by omega
  rw [offset, ofOffset, dif_pos hle]
  exact Timestamp.ext (by dsimp only; omega)

/-- The texts of the metadata above, and a unary text for any other. -/
def json : MetadataJson where
  toStringPretty metadata :=
    if metadata = shortLived then shortLivedText
    else if metadata = longLived then longLivedText
    else unary (offset metadata.createdAt) (offset metadata.expiresAt)
  fromStr text :=
    if text = shortLivedText then .ok shortLived
    else if text = longLivedText then .ok longLived
    else .ok ⟨ofOffset (text.toList.count 'c'), ofOffset (text.toList.count 'e')⟩
  fromStr_toStringPretty metadata := by
    split
    · next h => simp [h]
    · split
      · next h =>
        have hne : longLivedText ≠ shortLivedText := by decide
        simp [h, hne]
      · have hne := unary_ne_pretty (offset metadata.createdAt) (offset metadata.expiresAt)
        rw [shortLivedText, longLivedText, if_neg (hne _ _), if_neg (hne _ _)]
        simp [unary, List.count_append, List.count_replicate, ofOffset_offset]

end Sample

/-- A `set` that crashes between its two files revives an expired value. The metadata is new then
and the data is old, and a `get` compares the time with the metadata only. -/
theorem servesFresh_fails : ¬ ∀ json now events, ServesFresh json (new now) events := by
  intro h
  have hrun := Sample.run_interrupted Sample.json
  exact not_servesFresh hrun.1 hrun.2 (by decide) (h Sample.json _ _)

end FileSystem

end Sigstore.Cache
