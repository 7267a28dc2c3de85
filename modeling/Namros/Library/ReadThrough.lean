import Mathlib.Logic.Function.Basic

/-!
# Read-through caches

Records of a repository are read through a cache: a read that misses fetches the record and
fills the cache in a later step, and a write changes the repository first and drops cached
records in a later step. Any number of calls run at once and their steps interleave freely.

Keys, records, repository states and writes are parameters. A system remembers every repository
state it went through, so that a record can be said to be no older than a write: it is the
repository's record at that write or at some later moment. Which writes count for a record is
decided by the repository alone: those that change it in some state.
-/

namespace Namros.Library.ReadThrough

/-! ## Tables -/

/-- A cached record and the time it is good until. -/
structure Kept (α : Type) where
  value : α
  expiresAt : Int
deriving DecidableEq

/-- Cached records by key. -/
abbrev Table {κ : Type} (ν : κ → Type) := (k : κ) → Option (Kept (ν k))

section Tables

variable {κ : Type} [DecidableEq κ] {ν : κ → Type} {now : Int} {k : κ} {table : Table ν}

/-- Look a key up; a record that is no longer good is dropped. -/
def find (now : Int) (k : κ) (table : Table ν) : Option (ν k) × Table ν :=
  match table k with
  | none => (none, table)
  | some kept =>
    if now < kept.expiresAt then (some kept.value, table)
    else (none, Function.update table k none)

/-- Keep a record until `expiresAt`. -/
def store (expiresAt : Int) (k : κ) (value : ν k) (table : Table ν) : Table ν :=
  Function.update table k (some ⟨value, expiresAt⟩)

/-- Drop every record of a set of keys. -/
def drop (drops : κ → Bool) (table : Table ν) : Table ν :=
  fun k => if drops k then none else table k

theorem find_value {value : ν k} (found : (find now k table).1 = some value) :
    ∃ kept, table k = some kept ∧
      kept.value = value := by
  unfold find at found
  split at found
  · cases found
  rename_i kept present
  split at found
  · exact ⟨kept, present, Option.some.inj found⟩
  · cases found

/-- Looking up adds no record. -/
theorem find_table {j : κ} {kept : Kept (ν j)} (present : (find now k table).2 j = some kept) :
    table j = some kept := by
  unfold find at present
  split at present
  · exact present
  split at present
  · exact present
  by_cases same : j = k
  · subst same
    simp at present
  · dsimp only at present
    rwa [Function.update_of_ne same] at present

end Tables

/-! ## Systems -/

/-- How the repository is read and written, which cached records a write drops, and how long a
record is kept; with `ttl ≤ 0` the cache is not used. -/
structure Protocol {κ : Type} (ν : κ → Type) (S W : Type) where
  read : S → (k : κ) → Option (ν k)
  write : W → S → Option S
  drops : W → κ → Bool
  ttl : Int

/-- A write that changed the repository, and the number of the state it made. -/
structure Commit (W : Type) where
  write : W
  epoch : Nat
deriving DecidableEq

/-- Where a call is. A read carries the writes that had returned when it started and, once it
has fetched, the number of the state it read. -/
inductive Phase {κ : Type} (ν : κ → Type) (W : Type)
  | looking (k : κ) (before : List (Commit W))
  | fetching (k : κ) (before : List (Commit W))
  | filling (k : κ) (before : List (Commit W)) (fetched : Nat) (value : ν k)
  | invalidating (c : Commit W)
  | finishing (c : Commit W)

/-- A record a read returned. -/
structure Answer {κ : Type} (ν : κ → Type) (W : Type) where
  key : κ
  before : List (Commit W)
  value : ν key

/-- The repository's states up to the current one, the cache and the calls in flight, with the
writes that dropped their records, the writes that returned and the records returned so far. -/
structure System {κ : Type} (ν : κ → Type) (S W : Type) where
  states : Nat → S
  epoch : Nat := 0
  table : Table ν := fun _ => none
  calls : Nat → Option (Phase ν W) := fun _ => none
  (invalidated returned : List (Commit W) := [])
  answers : List (Answer ν W) := []

/-- One step of one call, or a change of the repository by something that is not a write. -/
inductive Event (κ S W : Type)
  | startRead (call : Nat) (k : κ)
  | look (call : Nat) (now : Int)
  | fetch (call : Nat) (failed : Bool)
  | fill (call : Nat) (now : Int)
  | commit (call : Nat) (write : W)
  | invalidate (call : Nat)
  | finish (call : Nat)
  | move (state : S)

section Coherence

variable {κ : Type} {ν : κ → Type} {S W : Type}

namespace System

/-- The call is in another phase, or over. -/
def put (σ : System ν S W) (call : Nat) (phase : Option (Phase ν W)) : System ν S W :=
  { σ with calls := Function.update σ.calls call phase }

/-- The repository moves to another state. -/
def advance (σ : System ν S W) (state : S) : System ν S W :=
  { σ with states := Function.update σ.states (σ.epoch + 1) state, epoch := σ.epoch + 1 }

/-- A read returns a record. -/
def answer (σ : System ν S W) (k : κ) (before : List (Commit W)) (value : ν k) : System ν S W :=
  { σ with answers := ⟨k, before, value⟩ :: σ.answers }

/-- A write drops cached records. -/
def invalidate (σ : System ν S W) (drops : κ → Bool) (c : Commit W) : System ν S W :=
  { σ with table := drop drops σ.table, invalidated := c :: σ.invalidated }

end System

variable (p : Protocol ν S W)

/-- The write changes the record in some state of the repository. -/
def Changes (w : W) (k : κ) : Prop := ∃ s t, p.write w s = some t ∧ p.read t k ≠ p.read s k

/-- Every write drops the records it can change. -/
def Covers : Prop := ∀ w k, Changes p w k → p.drops w k = true

/-- The record is the repository's at one moment that none of the writes of its key comes
after. -/
def Current (σ : System ν S W) (commits : List (Commit W)) (k : κ) (value : ν k) : Prop :=
  ∃ n ≤ σ.epoch, p.read (σ.states n) k = some value ∧
    ∀ c ∈ commits, Changes p c.write k → c.epoch ≤ n

/-- What a call may rely on where it is. -/
def PhaseHolds (σ : System ν S W) : Phase ν W → Prop
  | .looking _ before => before ⊆ σ.invalidated
  | .fetching _ before => before ⊆ σ.invalidated
  | .filling k before fetched value => fetched ≤ σ.epoch ∧
      p.read (σ.states fetched) k = some value ∧ ∀ c ∈ before, c.epoch ≤ fetched
  | .invalidating c => c.epoch ≤ σ.epoch
  | .finishing c => c ∈ σ.invalidated

/-- Cached and returned records are no older than the writes that count for them. -/
structure Coherent (σ : System ν S W) : Prop where
  reached : ∀ c ∈ σ.invalidated, c.epoch ≤ σ.epoch
  returned : σ.returned ⊆ σ.invalidated
  cached : ∀ k kept, σ.table k = some kept → Current p σ σ.invalidated k kept.value
  phases : ∀ call phase, σ.calls call = some phase → PhaseHolds p σ phase
  answers : ∀ a ∈ σ.answers, Current p σ a.before a.key a.value

/-- `τ` comes after `σ`: it has gone through the same states, and no write is forgotten. -/
structure Extends (σ τ : System ν S W) : Prop where
  epoch : σ.epoch ≤ τ.epoch
  states : ∀ n ≤ σ.epoch, τ.states n = σ.states n
  invalidated : σ.invalidated ⊆ τ.invalidated

variable {p} {σ τ : System ν S W} {c : Commit W} {before : List (Commit W)} {k : κ} {now : Int}
  {table : Table ν}

theorem Extends.advance (state : S) : Extends σ (σ.advance state) where
  epoch := Nat.le_succ _
  states n earlier := Function.update_of_ne (by omega) _ _
  invalidated := fun _ member => member

theorem Extends.invalidate (drops : κ → Bool) (c : Commit W) :
    Extends σ (σ.invalidate drops c) where
  epoch := Nat.le_refl _
  states _ _ := rfl
  invalidated := List.subset_cons_self _ _

theorem Current.extend (extends_ : Extends σ τ) {commits : List (Commit W)} {value : ν k}
    (current : Current p σ commits k value) : Current p τ commits k value := by
  obtain ⟨n, reached, read, later⟩ := current
  refine ⟨n, Nat.le_trans reached extends_.epoch, ?_, later⟩
  rw [extends_.states n reached, read]

theorem Current.mono {commits fewer : List (Commit W)} {value : ν k}
    (current : Current p σ commits k value) (subset : fewer ⊆ commits) :
    Current p σ fewer k value := by
  obtain ⟨n, reached, read, later⟩ := current
  exact ⟨n, reached, read, fun c member => later c (subset member)⟩

/-- A write that cannot change the record does not count for it. -/
theorem Current.cons {commits : List (Commit W)} {value : ν k}
    (current : Current p σ commits k value) (unchanged : ¬ Changes p c.write k) :
    Current p σ (c :: commits) k value := by
  obtain ⟨n, reached, read, later⟩ := current
  refine ⟨n, reached, read, fun d member changes => ?_⟩
  rcases List.mem_cons.mp member with rfl | old
  · exact absurd changes unchanged
  · exact later d old changes

theorem PhaseHolds.extend (extends_ : Extends σ τ) {phase : Phase ν W}
    (holds : PhaseHolds p σ phase) : PhaseHolds p τ phase := by
  cases phase with
  | looking k before => exact fun _ member => extends_.invalidated (holds member)
  | fetching k before => exact fun _ member => extends_.invalidated (holds member)
  | filling k before fetched value =>
    obtain ⟨reached, read, later⟩ := holds
    refine ⟨Nat.le_trans reached extends_.epoch, ?_, later⟩
    rw [extends_.states fetched reached, read]
  | invalidating c => exact Nat.le_trans holds extends_.epoch
  | finishing c => exact extends_.invalidated holds

/-- A call moves on; nothing else changes. -/
theorem Coherent.put (h : Coherent p σ) (call : Nat) {next : Option (Phase ν W)}
    (own : ∀ phase, next = some phase → PhaseHolds p σ phase) : Coherent p (σ.put call next) where
  reached := h.reached
  returned := h.returned
  cached := h.cached
  phases other phase here := by
    by_cases same : other = call
    · subst same
      simp only [System.put, Function.update_self] at here
      exact own phase here
    · simp only [System.put, Function.update_of_ne same] at here
      exact h.phases other phase here
  answers := h.answers

theorem Coherent.withTable (h : Coherent p σ)
    (cached : ∀ k kept, table k = some kept → Current p σ σ.invalidated k kept.value) :
    Coherent p { σ with table := table } :=
  ⟨h.reached, h.returned, cached, h.phases, h.answers⟩

/-- A record is kept that no write has superseded. -/
theorem Coherent.cached_store [DecidableEq κ] (h : Coherent p σ) {value : ν k} {expiresAt : Int}
    {j : κ} {kept : Kept (ν j)} (current : Current p σ σ.invalidated k value)
    (there : store expiresAt k value σ.table j = some kept) :
    Current p σ σ.invalidated j kept.value := by
  by_cases same : j = k
  · subst same
    simp only [store, Function.update_self, Option.some.injEq] at there
    subst there
    exact current
  · simp only [store, Function.update_of_ne same] at there
    exact h.cached j kept there

theorem Coherent.withAnswer (h : Coherent p σ) {value : ν k}
    (current : Current p σ before k value) : Coherent p (σ.answer k before value) where
  reached := h.reached
  returned := h.returned
  cached := h.cached
  phases := h.phases
  answers a member := by
    rcases List.mem_cons.mp member with rfl | old
    · exact current
    · exact h.answers a old

theorem Coherent.advance (h : Coherent p σ) (state : S) : Coherent p (σ.advance state) where
  reached c member := Nat.le_succ_of_le (h.reached c member)
  returned := h.returned
  cached k kept present := (h.cached k kept present).extend (.advance state)
  phases call phase here := (h.phases call phase here).extend (.advance state)
  answers a member := (h.answers a member).extend (.advance state)

/-- A write drops every cached record it may have superseded. -/
theorem Coherent.invalidate (h : Coherent p σ) (covers : Covers p) (committed : c.epoch ≤ σ.epoch) :
    Coherent p (σ.invalidate (p.drops c.write) c) where
  reached := List.forall_mem_cons.mpr ⟨committed, h.reached⟩
  returned := fun _ member => List.mem_cons_of_mem _ (h.returned member)
  cached k kept present := by
    simp only [System.invalidate, drop] at present
    split at present
    · cases present
    rename_i untouched
    exact (h.cached k kept present).cons fun changes => untouched (covers _ _ changes)
  phases call phase here := (h.phases call phase here).extend (.invalidate _ c)
  answers := h.answers

theorem Coherent.finish (h : Coherent p σ) (dropped : c ∈ σ.invalidated) :
    Coherent p { σ with returned := c :: σ.returned } :=
  ⟨h.reached, List.cons_subset.mpr ⟨dropped, h.returned⟩, h.cached, h.phases, h.answers⟩

/-- A system that starts with an empty cache and no call is coherent. -/
theorem coherent_initial (states : Nat → S) : Coherent p ({ states := states } : System ν S W) where
  reached := by simp
  returned := by simp
  cached := by simp
  phases := by simp
  answers := by simp

end Coherence

/-! ## Steps and runs -/

section Runs

variable {κ : Type} [DecidableEq κ] {ν : κ → Type} {S W : Type} (p : Protocol ν S W)

/-- A step, when the call is where the step begins. -/
def step (σ : System ν S W) : Event κ S W → Option (System ν S W)
  | .startRead call k =>
    match σ.calls call with
    | none => some (σ.put call (some (.looking k σ.returned)))
    | some _ => none
  | .look call now =>
    match σ.calls call with
    | some (.looking k before) =>
      if 0 < p.ttl then
        let found := find now k σ.table
        match found.1 with
        | some value => some ({ σ.answer k before value with table := found.2 }.put call none)
        | none => some ({ σ with table := found.2 }.put call (some (.fetching k before)))
      else some (σ.put call (some (.fetching k before)))
    | _ => none
  | .fetch call failed =>
    match σ.calls call with
    | some (.fetching k before) =>
      if failed then some (σ.put call none)
      else match p.read (σ.states σ.epoch) k with
        | none => some (σ.put call none)
        | some value => some (σ.put call (some (.filling k before σ.epoch value)))
    | _ => none
  | .fill call now =>
    match σ.calls call with
    | some (.filling k before _ value) =>
      let table := if 0 < p.ttl then store (now + p.ttl) k value σ.table else σ.table
      some ({ σ.answer k before value with table := table }.put call none)
    | _ => none
  | .commit call write =>
    match σ.calls call with
    | none => (p.write write (σ.states σ.epoch)).map fun state =>
        (σ.advance state).put call (some (.invalidating ⟨write, σ.epoch + 1⟩))
    | some _ => none
  | .invalidate call =>
    match σ.calls call with
    | some (.invalidating c) =>
      some ((σ.invalidate (p.drops c.write) c).put call (some (.finishing c)))
    | _ => none
  | .finish call =>
    match σ.calls call with
    | some (.finishing c) => some ({ σ with returned := c :: σ.returned }.put call none)
    | _ => none
  | .move state => some (σ.advance state)

/-- A sequence of steps. -/
def run (σ : System ν S W) : List (Event κ S W) → Option (System ν S W)
  | [] => some σ
  | event :: rest => (step p σ event).bind fun τ => run τ rest

section Timely

variable (counts : W → κ → Prop)

/-- No write that counts for the record committed after it was fetched and has already dropped
its records. -/
def FillTimely (σ : System ν S W) : Option (Phase ν W) → Prop
  | some (.filling k _ fetched _) =>
    0 < p.ttl → ∀ c ∈ σ.invalidated, counts c.write k → c.epoch ≤ fetched
  | _ => True

/-- The step is no fill, or a timely one. -/
def Timely (σ : System ν S W) : Event κ S W → Prop
  | .fill call _ => FillTimely p counts σ (σ.calls call)
  | _ => True

/-- Every fill of the run is timely. -/
def RunTimely (σ : System ν S W) : List (Event κ S W) → Prop
  | [] => True
  | event :: rest => Timely p counts σ event ∧
      match step p σ event with
      | none => True
      | some τ => RunTimely τ rest

variable {p counts} {fewer : W → κ → Prop}

omit [DecidableEq κ] in
theorem Timely.mono {σ : System ν S W} {event : Event κ S W} (h : Timely p counts σ event)
    (implied : ∀ w k, fewer w k → counts w k) : Timely p fewer σ event := by
  cases event with
  | fill call now =>
    simp only [Timely] at h ⊢
    generalize σ.calls call = phase at h ⊢
    rcases phase with _ | phase
    · trivial
    cases phase with
    | filling k before fetched value =>
      exact fun enabled c member counted => h enabled c member (implied _ _ counted)
    | _ => trivial
  | _ => trivial

/-- The fewer writes count, the more runs are timely. -/
theorem RunTimely.mono {σ : System ν S W} {events : List (Event κ S W)}
    (h : RunTimely p counts σ events) (implied : ∀ w k, fewer w k → counts w k) :
    RunTimely p fewer σ events := by
  induction events generalizing σ with
  | nil => trivial
  | cons event rest ih =>
    obtain ⟨first, later⟩ := h
    refine ⟨first.mono implied, ?_⟩
    cases stepped : step p σ event with
    | none => trivial
    | some τ =>
      rw [stepped] at later
      exact ih later

end Timely

section Decidable

variable (counts : W → κ → Prop) [(w : W) → (k : κ) → Decidable (counts w k)]

instance (σ : System ν S W) :
    (phase : Option (Phase ν W)) → Decidable (FillTimely p counts σ phase)
  | some (.filling k _ fetched _) => inferInstanceAs
    (Decidable (0 < p.ttl → ∀ c ∈ σ.invalidated, counts c.write k → c.epoch ≤ fetched))
  | some (.looking _ _) | some (.fetching _ _) | some (.invalidating _) | some (.finishing _)
  | none => isTrue trivial

instance (σ : System ν S W) : (event : Event κ S W) → Decidable (Timely p counts σ event)
  | .fill call _ => inferInstanceAs (Decidable (FillTimely p counts σ (σ.calls call)))
  | .startRead .. | .look .. | .fetch .. | .commit .. | .invalidate .. | .finish .. | .move .. =>
    isTrue trivial

instance decidableRunTimely (σ : System ν S W) :
    (events : List (Event κ S W)) → Decidable (RunTimely p counts σ events)
  | [] => isTrue trivial
  | event :: rest =>
    have : Decidable (match step p σ event with
        | none => True
        | some τ => RunTimely p counts τ rest) :=
      match step p σ event with
      | none => isTrue trivial
      | some τ => decidableRunTimely τ rest
    inferInstanceAs (Decidable (_ ∧ _))

end Decidable

variable {p} {σ τ : System ν S W}

/-- Every timely step keeps coherence. -/
theorem step_coherent {event : Event κ S W} (covers : Covers p) (h : Coherent p σ)
    (timely : Timely p (Changes p) σ event) (stepped : step p σ event = some τ) : Coherent p τ := by
  cases event with
  | startRead call k =>
    simp only [step] at stepped
    split at stepped
    · cases stepped
      exact h.put call (fun phase started => by cases started; exact h.returned)
    · cases stepped
  | look call now =>
    simp only [step] at stepped
    split at stepped
    · rename_i k before here
      have earlier : before ⊆ σ.invalidated := h.phases call _ here
      split at stepped
      · split at stepped
        · rename_i value found
          cases stepped
          obtain ⟨kept, present, rfl⟩ := find_value found
          have current : Current p σ before k kept.value := (h.cached k kept present).mono earlier
          exact ((h.withAnswer current).withTable fun j kept there =>
            h.cached j kept (find_table there)).put call fun _ ended => nomatch ended
        · cases stepped
          exact (h.withTable fun j kept there => h.cached j kept (find_table there)).put call
            fun phase missed => by cases missed; exact earlier
      · cases stepped
        exact h.put call fun phase unused => by cases unused; exact earlier
    · cases stepped
  | fetch call failed =>
    simp only [step] at stepped
    split at stepped
    · rename_i k before here
      have earlier : before ⊆ σ.invalidated := h.phases call _ here
      split at stepped
      · cases stepped
        exact h.put call fun _ ended => nomatch ended
      split at stepped
      · cases stepped
        exact h.put call fun _ ended => nomatch ended
      rename_i value read
      cases stepped
      exact h.put call fun phase fetched => by
        cases fetched
        -- what is read now is no older than any write that dropped its records
        exact ⟨Nat.le_refl _, read, fun c member => h.reached c (earlier member)⟩
    · cases stepped
  | fill call now =>
    simp only [step] at stepped
    split at stepped
    · rename_i k before fetched value here
      cases stepped
      obtain ⟨reached, read, later⟩ : PhaseHolds p σ (.filling k before fetched value) :=
        h.phases call _ here
      have own : Current p σ before k value := ⟨fetched, reached, read, fun c member _ =>
        later c member⟩
      refine ((h.withAnswer own).withTable ?_).put call fun _ ended => nomatch ended
      intro j kept there
      split at there
      · rename_i enabled
        rw [Timely, here] at timely
        exact h.cached_store ⟨fetched, reached, read, timely enabled⟩ there
      · exact h.cached j kept there
    · cases stepped
  | commit call write =>
    simp only [step] at stepped
    split at stepped
    · obtain ⟨state, -, rfl⟩ := Option.map_eq_some_iff.mp stepped
      exact (h.advance state).put call fun phase committed => by
        cases committed
        exact Nat.le_refl _
    · cases stepped
  | invalidate call =>
    simp only [step] at stepped
    split at stepped
    · rename_i c here
      cases stepped
      refine (h.invalidate covers (h.phases call _ here)).put call fun phase dropped => ?_
      cases dropped
      exact List.mem_cons_self
    · cases stepped
  | finish call =>
    simp only [step] at stepped
    split at stepped
    · rename_i c here
      cases stepped
      exact (h.finish (h.phases call _ here)).put call fun _ ended => nomatch ended
    · cases stepped
  | move state =>
    cases stepped
    exact h.advance state

/-- Every run of timely steps keeps coherence. -/
theorem run_coherent {events : List (Event κ S W)} (covers : Covers p) (h : Coherent p σ)
    (timely : RunTimely p (Changes p) σ events) (ran : run p σ events = some τ) : Coherent p τ := by
  induction events generalizing σ with
  | nil =>
    cases ran
    exact h
  | cons event rest ih =>
    obtain ⟨next, stepped, ran⟩ := Option.bind_eq_some_iff.mp ran
    obtain ⟨first, later⟩ := timely
    rw [stepped] at later
    exact ih (step_coherent covers h first stepped) later ran

end Runs

end Namros.Library.ReadThrough
