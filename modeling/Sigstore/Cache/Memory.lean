import Mathlib.Logic.Function.Basic
import Sigstore.Runs
import Sigstore.Types.Hash

/-!
# The in-memory cache under concurrent calls

The cache of `sigstore-cache` that keeps its entries in memory (`memory.rs`), as the critical
sections of any number of calls that take the lock in any order. `get` drops its read lock before it
takes the write lock to remove an entry that it saw expired, and does not look again: a fresh entry
that was set in between is removed. Apart from the entries that expire while a `get` waits for the
read lock, this is the only way to lose an update (`losesNoUpdate_iff`).
-/

namespace Sigstore.Cache

open Runs

/-- Cache keys for the resources. -/
inductive CacheKey where
  | rekorPublicKey
  | rekorLogInfo
  | fulcioTrustBundle
  | fulcioConfiguration
  | trustedRoot
  deriving DecidableEq, Repr

namespace Memory

/-- A cached entry with its expiration time. -/
structure CacheEntry where
  data : Bytes
  expiresAt : Nat
  deriving DecidableEq

def CacheEntry.isExpired (entry : CacheEntry) (now : Nat) : Bool := decide (entry.expiresAt ≤ now)

abbrev Entries := CacheKey → Option CacheEntry

/-- The operations of the cache. -/
inductive Op where
  | get (key : CacheKey)
  | set (key : CacheKey) (value : Bytes) (ttl : Nat)
  | remove (key : CacheKey)
  | clear
  | cleanupExpired
  deriving DecidableEq

/-- What a call does next. `get` has a second section where it saw an expired entry, and `set`
computes the expiration time before it waits for the lock. -/
inductive Call where
  | read (key : CacheKey)
  | cleanUp (key : CacheKey)
  | stamp (key : CacheKey) (value : Bytes) (ttl : Nat)
  | insert (key : CacheKey) (entry : CacheEntry)
  | remove (key : CacheKey)
  | clear
  | cleanupExpired
  | got (result : Option Bytes)
  | done
  deriving DecidableEq

def Op.call : Op → Call
  | get key => .read key
  | set key value ttl => .stamp key value ttl
  | remove key => .remove key
  | clear => .clear
  | cleanupExpired => .cleanupExpired

/-- One section of a call: what it makes of the entries, and what the call does next. -/
def Call.poll (now : Nat) (entries : Entries) : Call → Entries × Call
  | read key =>
    match entries key with
    | some entry =>
      if entry.isExpired now then (entries, cleanUp key) else (entries, got (some entry.data))
    | none => (entries, got none)
  | cleanUp key => (Function.update entries key none, got none)
  | stamp key value ttl => (entries, insert key ⟨value, now + ttl⟩)
  | insert key entry => (Function.update entries key (some entry), done)
  | remove key => (Function.update entries key none, done)
  | clear => (fun _ => none, done)
  | cleanupExpired => (fun key => (entries key).filter fun entry => !entry.isExpired now, done)
  | got result => (entries, got result)
  | done => (entries, done)

/-- The cache, the clock, and the calls by their numbers. -/
structure State where
  now : Nat
  entries : Entries
  calls : Nat → Option Call

/-- A new cache. -/
def new (now : Nat) : State := ⟨now, fun _ => none, fun _ => none⟩

/-- What can happen: a call under a number that is not in use, the next section of a call, and the
passing of time. -/
inductive Event where
  | call (id : Nat) (op : Op)
  | poll (id : Nat)
  | tick (d : Nat)
  deriving DecidableEq

def step (s : State) : Event → State
  | .call id op =>
    match s.calls id with
    | none => { s with calls := Function.update s.calls id (some op.call) }
    | some _ => s
  | .poll id =>
    match s.calls id with
    | none => s
    | some c =>
      let (entries, next) := c.poll s.now s.entries
      { s with entries := entries, calls := Function.update s.calls id (some next) }
  | .tick d => { s with now := s.now + d }

@[simp] theorem step_poll_of_none {s : State} {id : Nat} (h : s.calls id = none) :
    step s (.poll id) = s := by simp [step, h]

/-- Polling a call carries out its next section. -/
theorem step_poll_of_some {s : State} {id : Nat} {c : Call} (h : s.calls id = some c) :
    step s (.poll id) = { s with
      entries := (c.poll s.now s.entries).1
      calls := Function.update s.calls id (some (c.poll s.now s.entries).2) } := by
  simp [step, h]

theorem step_call_of_none {s : State} {id : Nat} (op : Op) (h : s.calls id = none) :
    step s (.call id op) = { s with calls := Function.update s.calls id (some op.call) } := by
  simp [step, h]

@[simp] theorem entries_step_call (s : State) (id : Nat) (op : Op) :
    (step s (.call id op)).entries = s.entries := by
  cases h : s.calls id <;> simp [step, h]

@[simp] theorem entries_step_tick (s : State) (d : Nat) : (step s (.tick d)).entries = s.entries :=
  rfl

@[simp] theorem now_step_poll (s : State) (id : Nat) : (step s (.poll id)).now = s.now := by
  cases h : s.calls id <;> simp [step, h]

@[simp] theorem now_step_call (s : State) (id : Nat) (op : Op) :
    (step s (.call id op)).now = s.now := by
  cases h : s.calls id <;> simp [step, h]

/-- The clock does not go back in a step. -/
theorem now_le_step (s : State) (e : Event) : s.now ≤ (step s e).now := by
  cases e with
  | call id op => simp
  | poll id => simp
  | tick d => exact Nat.le_add_right ..

/-- The clock does not go back in a run. -/
theorem now_le_run (s : State) (events : List Event) : s.now ≤ (run step s events).now :=
  run_invariant step (P := fun t => s.now ≤ t.now) (fun t e h => Nat.le_trans h (now_le_step t e))
    (Nat.le_refl _) events

/-- A call is where it was until it is polled. Another call has another number, and a call under
this one does not happen. -/
theorem calls_step_of_ne {s : State} {e : Event} {id : Nat} {c : Call} (h : s.calls id = some c)
    (he : e ≠ .poll id) : (step s e).calls id = some c := by
  cases e with
  | call id' op =>
    cases hid : s.calls id' with
    | none =>
      have hne : id ≠ id' := by rintro rfl; simp [h] at hid
      rw [step_call_of_none op hid]
      exact (Function.update_of_ne hne ..).trans h
    | some c' => simpa [step, hid] using h
  | poll id' =>
    have hne : id ≠ id' := by rintro rfl; exact he rfl
    cases hid : s.calls id' with
    | none => rwa [step_poll_of_none hid]
    | some c' =>
      rw [step_poll_of_some hid]
      exact (Function.update_of_ne hne ..).trans h
  | tick d => exact h

/-- A call that is not polled in a run is where it was. -/
theorem calls_run_of_not_mem {s : State} {events : List Event} {id : Nat} {c : Call}
    (h : s.calls id = some c) (hnot : .poll id ∉ events) :
    (run step s events).calls id = some c := by
  induction events generalizing s with
  | nil => exact h
  | cons e events ih =>
    rw [List.mem_cons, not_or] at hnot
    exact ih (calls_step_of_ne h (Ne.symm hnot.1)) hnot.2

/-- A `get` that returned has returned. -/
theorem calls_run_got {s : State} {id : Nat} {result : Option Bytes}
    (h : s.calls id = some (.got result)) (events : List Event) :
    (run step s events).calls id = some (.got result) := by
  refine run_invariant step (P := fun t => t.calls id = some (.got result)) (fun t e ht => ?_) h
    events
  by_cases he : e = .poll id
  · subst he
    rw [step_poll_of_some ht]
    simp [Call.poll]
  · exact calls_step_of_ne ht he

/-! ## The promise -/

/-- The section writes the key: it completes a `set` or `remove` of the key, or a `clear`. -/
def Call.Mutates (key : CacheKey) : Call → Prop
  | .insert key' _ | .remove key' => key' = key
  | .clear => True
  | _ => False

/-- The event completes a `set`, `remove` or `clear` on a key. -/
def Mutates (key : CacheKey) (s : State) : Event → Prop
  | .poll id => ∃ c, s.calls id = some c ∧ c.Mutates key
  | _ => False

/-- The call is a `get` that has not returned. -/
def Call.IsGet : Call → Prop
  | .read _ | .cleanUp _ => True
  | _ => False

/-- A `get` that is called after a `set` has completed, and before its expiration, returns its value
as soon as it is polled, unless another `set`, `remove` or `clear` on the key completes. -/
def GetsReturn (s₀ : State) (events : List Event) : Prop :=
  ∀ before mid after rest idSet idGet key entry,
    events = before ++ .poll idSet :: (mid ++ .call idGet (.get key) :: (after ++ rest)) →
    (run step s₀ before).calls idSet = some (.insert key entry) →
    let completed := step (run step s₀ before) (.poll idSet)
    let called := run step completed mid
    called.calls idGet = none → called.now < entry.expiresAt →
    Along step (fun s e => ¬ Mutates key s e) completed (mid ++ .call idGet (.get key) :: after) →
    .poll idGet ∈ after →
    (run step (step called (.call idGet (.get key))) after).calls idGet =
      some (.got (some entry.data))

/-- No `get` removes a fresh entry. -/
def GetsKeepFresh (s₀ : State) (events : List Event) : Prop :=
  ∀ before rest id c key entry, events = before ++ .poll id :: rest →
    (run step s₀ before).calls id = some c → c.IsGet →
    (run step s₀ before).entries key = some entry → (run step s₀ before).now < entry.expiresAt →
    (step (run step s₀ before) (.poll id)).entries key = some entry

/-- The cache loses no update in a run. -/
def LosesNoUpdate (s₀ : State) (events : List Event) : Prop :=
  GetsReturn s₀ events ∧ GetsKeepFresh s₀ events

/-- The second section of a `get` finds no fresh entry. -/
def CleansUpExpired (s : State) : Event → Prop
  | .poll id => ∀ key entry, s.calls id = some (.cleanUp key) → s.entries key = some entry →
      entry.expiresAt ≤ s.now
  | _ => True

/-- No entry that is fresh when a `get` of its key is called, and stays unless it is cleaned up,
expires while the `get` waits for the read lock. -/
def ReadsInTime (s₀ : State) (events : List Event) : Prop :=
  ∀ before mid rest id key entry,
    events = before ++ .call id (.get key) :: (mid ++ .poll id :: rest) →
    let called := run step s₀ before
    let reading := run step (step called (.call id (.get key))) mid
    called.calls id = none → called.entries key = some entry → called.now < entry.expiresAt →
    Along step (fun s e => ¬ Mutates key s e) (step called (.call id (.get key))) mid →
    reading.calls id = some (.read key) → reading.now < entry.expiresAt

/-! ## What becomes of an entry -/

/-- Without a `set`, `remove` or `clear` of the key, an entry only goes: a `get` cleans it up, or it
was expired. -/
theorem entries_step {key : CacheKey} {s : State} {e : Event} (h : ¬ Mutates key s e) :
    (step s e).entries key = s.entries key ∨
      (step s e).entries key = none ∧
        ((∃ id, e = .poll id ∧ s.calls id = some (.cleanUp key)) ∨
          ∀ entry, s.entries key = some entry → entry.expiresAt ≤ s.now) := by
  cases e with
  | call id op => exact .inl (by rw [entries_step_call])
  | tick d => exact .inl rfl
  | poll id =>
    cases hid : s.calls id with
    | none => exact .inl (by rw [step_poll_of_none hid])
    | some c =>
      have hc : ¬ c.Mutates key := fun hc => h ⟨c, hid, hc⟩
      rw [step_poll_of_some hid]
      cases c with
      | read key' =>
        refine .inl ?_
        simp only [Call.poll]
        split
        · split <;> rfl
        · rfl
      | cleanUp key' =>
        by_cases hkey : key' = key
        · subst hkey
          exact .inr ⟨by simp [Call.poll], .inl ⟨id, rfl, hid⟩⟩
        · exact .inl (Function.update_of_ne (Ne.symm hkey) ..)
      | insert key' entry => exact .inl (Function.update_of_ne (Ne.symm hc) ..)
      | remove key' => exact .inl (Function.update_of_ne (Ne.symm hc) ..)
      | clear => exact absurd trivial hc
      | cleanupExpired =>
        cases hentry : s.entries key with
        | none => simp [Call.poll, hentry]
        | some entry =>
          by_cases hexp : entry.expiresAt ≤ s.now
          · simp [Call.poll, hentry, CacheEntry.isExpired, hexp]
          · exact .inl (by simp [Call.poll, hentry, CacheEntry.isExpired, hexp])
      | stamp | got | done => exact .inl rfl

/-- The key has no other entry until a `set` of it completes. -/
theorem entries_run_of_quiet {key : CacheKey} {s : State} {events : List Event} {entry : CacheEntry}
    (hquiet : Along step (fun s e => ¬ Mutates key s e) s events)
    (h : s.entries key = some entry ∨ s.entries key = none) :
    (run step s events).entries key = some entry ∨ (run step s events).entries key = none := by
  refine hquiet.keeps (P := fun t => t.entries key = some entry ∨ t.entries key = none)
    (fun t e ht hmut => ?_) h
  obtain heq | ⟨hnone, -⟩ := entries_step hmut
  · rwa [heq]
  · exact .inr hnone

/-- Where the `get`s clean up expired entries only, an entry stays until its expiration. By
induction over the run: a step that is no write of the key can only take the entry away, and this
one does not. -/
theorem entries_run_of_fresh {key : CacheKey} {s : State} {events : List Event} {entry : CacheEntry}
    (hclean : Along step CleansUpExpired s events)
    (hquiet : Along step (fun s e => ¬ Mutates key s e) s events)
    (h : s.entries key = some entry) (hfresh : (run step s events).now < entry.expiresAt) :
    (run step s events).entries key = some entry := by
  induction events generalizing s with
  | nil => exact h
  | cons e events ih =>
    rw [run_cons] at hfresh ⊢
    have hnow : s.now < entry.expiresAt :=
      Nat.lt_of_le_of_lt (Nat.le_trans (now_le_step s e) (now_le_run _ events)) hfresh
    refine ih hclean.2 hquiet.2 ?_ hfresh
    obtain heq | ⟨-, ⟨id, rfl, hid⟩ | hexp⟩ := entries_step hquiet.1
    · rw [heq, h]
    · exact absurd (hclean.1 key entry hid h) (Nat.not_le.2 hnow)
    · exact absurd (hexp entry h) (Nat.not_le.2 hnow)

/-- An entry was inserted by a `set`, and nothing has written its key since. By induction over the
run from its end: the last write of the key is the `set` that inserted the entry. -/
theorem exists_insert {now : Nat} {events : List Event} {key : CacheKey} {entry : CacheEntry}
    (h : (run step (new now) events).entries key = some entry) :
    ∃ before mid id, events = before ++ .poll id :: mid ∧
      (run step (new now) before).calls id = some (.insert key entry) ∧
      Along step (fun s e => ¬ Mutates key s e) (step (run step (new now) before) (.poll id))
        mid := by
  induction events using List.reverseRecOn with
  | nil => simp [new] at h
  | append_singleton events e ih =>
    rw [run_concat] at h
    by_cases hmut : Mutates key (run step (new now) events) e
    · cases e with
      | call | tick => exact hmut.elim
      | poll id =>
        obtain ⟨c, hid, hc⟩ := hmut
        rw [step_poll_of_some hid] at h
        cases c with
        | insert key' entry' =>
          obtain rfl : key' = key := hc
          obtain rfl : entry' = entry := by simpa [Call.poll] using h
          exact ⟨events, [], id, rfl, hid, trivial⟩
        | remove key' =>
          obtain rfl : key' = key := hc
          simp [Call.poll] at h
        | clear => simp [Call.poll] at h
        | read | cleanUp | stamp | cleanupExpired | got | done => exact hc.elim
    · obtain heq | ⟨hnone, -⟩ := entries_step hmut
      · rw [heq] at h
        obtain ⟨before, mid, id, hsplit, hid, hquiet⟩ := ih h
        refine ⟨before, mid ++ [e], id, by simp [hsplit], hid, ?_⟩
        rw [along_append]
        refine ⟨hquiet, ?_, trivial⟩
        rwa [hsplit, run_append, run_cons] at hmut
      · simp [hnone] at h

/-! ## When the promise is kept -/

/-- No `get` of a run removes a fresh entry exactly where the second sections of the `get`s all find
expired ones: no other section of a `get` removes anything. -/
theorem getsKeepFresh_iff (s : State) (events : List Event) :
    GetsKeepFresh s events ↔ Along step CleansUpExpired s events := by
  rw [along_iff]
  constructor
  · intro hkeep before e rest hsplit
    cases e with
    | call | tick => trivial
    | poll id =>
      intro key entry hid hentry
      by_contra hfresh
      have := hkeep before rest id _ key entry hsplit hid trivial hentry (Nat.not_le.1 hfresh)
      simp [step_poll_of_some hid, Call.poll] at this
  · intro hclean before rest id c key entry hsplit hid hget hentry hfresh
    have hquiet : ¬ Mutates key (run step s before) (.poll id) := by
      rintro ⟨c', hid', hmut⟩
      obtain rfl : c = c' := Option.some.inj (hid.symm.trans hid')
      cases c <;> first | exact hget | exact hmut
    have hone : Along step CleansUpExpired (run step s before) [.poll id] :=
      ⟨hclean before _ rest hsplit, trivial⟩
    exact entries_run_of_fresh hone ⟨hquiet, trivial⟩ hentry (by simpa [run_cons] using hfresh)

/-- Where the `get`s clean up expired entries only and read in time, each returns the value that was
set. -/
theorem getsReturn_of_readsInTime {s : State} {events : List Event}
    (hclean : Along step CleansUpExpired s events) (hread : ReadsInTime s events) :
    GetsReturn s events := by
  intro before mid after rest idSet idGet key entry hsplit hset completed called hfree hfresh
    hquiet hpoll
  -- `wait` lies between the call and the first time that it is polled
  obtain ⟨wait, after', rfl, hwait⟩ := List.eq_append_cons_of_mem hpoll
  rw [along_append, along_cons, along_append] at hquiet
  obtain ⟨hquietMid, -, hquietWait, -⟩ := hquiet
  have hsplit' : events = (before ++ .poll idSet :: mid) ++ .call idGet (.get key) ::
      (wait ++ .poll idGet :: (after' ++ rest)) := by simp [hsplit]
  have hcalled : run step s (before ++ .poll idSet :: mid) = called := by
    rw [run_append, run_cons]
  rw [hsplit', along_append, along_append, along_cons, along_cons, along_append, hcalled] at hclean
  obtain ⟨⟨-, -, hcleanMid⟩, -, hcleanWait, -⟩ := hclean
  have hentry : called.entries key = some entry := by
    refine entries_run_of_fresh hcleanMid hquietMid ?_ hfresh
    simp [completed, step_poll_of_some hset, Call.poll]
  have hcall : (step called (.call idGet (.get key))).calls idGet = some (.read key) := by
    simp [step_call_of_none _ hfree, Op.call]
  have hreading := calls_run_of_not_mem hcall hwait
  have hintime := hread _ wait _ idGet key entry hsplit'
  rw [hcalled] at hintime
  have hnow := hintime hfree hentry hfresh hquietWait hreading
  have hthere := entries_run_of_fresh hcleanWait hquietWait (by rwa [entries_step_call]) hnow
  rw [run_append, run_cons]
  refine calls_run_got ?_ after'
  rw [step_poll_of_some hreading]
  simp [Call.poll, hthere, CacheEntry.isExpired, Nat.not_le.2 hnow]

/-- Where every `get` returns the value that was set, it reads in time: one that reads after the
expiration returns nothing. -/
theorem readsInTime_of_getsReturn {now : Nat} {events : List Event}
    (hreturn : GetsReturn (new now) events) : ReadsInTime (new now) events := by
  intro before mid rest id key entry hsplit called reading hfree hentry hfresh hquiet hid
  obtain ⟨before', since, idSet, rfl, hset, hsince⟩ := exists_insert hentry
  by_contra hexp
  have hcalled : called = run step (step (run step (new now) before') (.poll idSet)) since := by
    simp only [called, run_append, run_cons]
  have hgot := hreturn before' since (mid ++ [.poll id]) rest idSet id key entry
    (by simp [hsplit]) hset
  simp only [← hcalled, along_append, along_cons, along_nil, and_true] at hgot
  have hpoll : ¬ Mutates key reading (.poll id) := by
    rintro ⟨c, hc, hmut⟩
    obtain rfl : Call.read key = c := Option.some.inj (hid.symm.trans hc)
    exact hmut
  have hgot := hgot hfree hfresh ⟨hsince, by simp [Mutates], hquiet, hpoll⟩ (by simp)
  rw [run_concat, step_poll_of_some hid] at hgot
  -- what the `get` reads has expired, or is not there
  obtain hthere | hnone := entries_run_of_quiet hquiet (.inl (by rwa [entries_step_call]))
  · simp [Call.poll, reading, hthere, CacheEntry.isExpired, Nat.not_lt.1 hexp] at hgot
  · simp [Call.poll, reading, hnone] at hgot

/-- The cache loses no update exactly when no `get` cleans up a fresh entry, and no fresh entry
expires while a `get` of it waits for the read lock. -/
theorem losesNoUpdate_iff (now : Nat) (events : List Event) :
    LosesNoUpdate (new now) events ↔
      Along step CleansUpExpired (new now) events ∧ ReadsInTime (new now) events := by
  constructor
  · intro h
    exact ⟨(getsKeepFresh_iff _ _).1 h.2, readsInTime_of_getsReturn h.1⟩
  · rintro ⟨hclean, hread⟩
    exact ⟨getsReturn_of_readsInTime hclean hread, (getsKeepFresh_iff _ _).2 hclean⟩

/-- A `get` sees an expired entry, a `set` of the key completes, and the `get` removes what was set.
-/
theorem losesNoUpdate_fails : ¬ ∀ now events, LosesNoUpdate (new now) events := by
  intro h
  have hkeep := (h 0 [.call 0 (.set .trustedRoot [1] 1), .poll 0, .poll 0, .tick 1,
    .call 1 (.get .trustedRoot), .poll 1, .call 2 (.set .trustedRoot [2] 10), .poll 2, .poll 2,
    .poll 1]).2
  have hgone := hkeep
    [.call 0 (.set .trustedRoot [1] 1), .poll 0, .poll 0, .tick 1, .call 1 (.get .trustedRoot),
      .poll 1, .call 2 (.set .trustedRoot [2] 10), .poll 2, .poll 2]
    [] 1 (.cleanUp .trustedRoot) .trustedRoot ⟨[2], 11⟩ rfl rfl trivial rfl (by decide)
  exact absurd hgone nofun

end Memory

end Sigstore.Cache
