import Namros.Source.TransactionErrors

/-!
# Domain errors through the TiKV store

A closure that fails with a domain error should run once, and its caller should be able to ask for
that domain error. The classification decides from the text of the error as well, and a text can
hold anything: the sentinel `kms key unavailable` itself reads as a storage failure, and so does a
client's name that quotes one.
-/

namespace Namros.Guarantees

open Source

/-- The closure ran once and the caller can ask for exactly the domain errors of `e`. -/
structure KeepsDomains (e : GoError) (outcome : Nat × Option GoError) : Prop where
  once : outcome.1 = 1
  same : ∃ returned, outcome.2 = some returned ∧ ∀ d, returned.wraps d ↔ e.wraps d

/-- The text of the error does not overrule its domain errors: a text that reads as a write
conflict stands for `cas conflict` only, and one that reads as a transient failure is met with an
error that is never retried, or stands for `metadata unavailable` where nothing is retried. -/
def TextAgrees (toLower : String → String) (policy : RetryPolicy) (e : GoError) : Prop :=
  if isWriteConflict toLower e then ∀ d, e.wraps d ↔ d = .casConflict
  else if shouldRetryTransactionError toLower e then
    policy.attempts = 1 ∧ ∀ d, e.wraps d ↔ d = .unavailable
  else True

/-- The context stays alive and the store serves every `Begin`. -/
structure Undisturbed (env : TransactionEnvironment) : Prop where
  context : ∀ n, env.contextErr n = none
  sleep : ∀ n, env.sleep n = none
  begin : ∀ n, env.begin n = none

/-! ## One error -/

theorem wraps_raised (d d' : DomainError) : d.raised.wraps d' ↔ d' = d := by
  simp [DomainError.raised, GoError.wraps]

theorem wraps_detailed (d d' : DomainError) (detail : String) :
    (d.detailed detail).wraps d' ↔ d' = d := by
  simp [DomainError.detailed, GoError.wraps]

/-- What the renaming leaves of the domain errors. -/
theorem normalize_wraps_iff (toLower : String → String) (e : GoError) :
    (∀ d, (normalizeTransactionError toLower e).wraps d ↔ e.wraps d) ↔
      if isWriteConflict toLower e then ∀ d, e.wraps d ↔ d = .casConflict
      else if shouldRetryTransactionError toLower e then ∀ d, e.wraps d ↔ d = .unavailable
      else True := by
  unfold normalizeTransactionError
  split_ifs
  · simp only [wraps_raised]
    exact forall_congr' fun d => ⟨Iff.symm, Iff.symm⟩
  · simp only [wraps_detailed]
    exact forall_congr' fun d => ⟨Iff.symm, Iff.symm⟩
  · simp

/-- An error that is retried is not `cas conflict`. -/
theorem not_wraps_of_retried {toLower : String → String} {e : GoError}
    (retried : shouldRetryTransactionError toLower e) : ¬ e.wraps .casConflict := by
  intro wraps
  have settled : e.settled = true := by
    unfold GoError.settled
    rw [Bool.or_eq_true, List.any_eq_true]
    exact .inr ⟨.casConflict, by decide, decide_eq_true wraps⟩
  rw [shouldRetryTransactionError, if_pos settled] at retried
  cases retried

/-! ## The attempts -/

section
variable {env : TransactionEnvironment} {closure : Nat → Option GoError} {e : GoError}

theorem attemptTxn_runs (calm : Undisturbed env) (attempt : Nat) :
    (attemptTxn env closure attempt).1 = 1 := by
  unfold attemptTxn
  rw [calm.begin attempt]
  cases closure attempt <;> rfl

/-- A loop with attempts left runs the closure again. -/
theorem retryFrom_runs (toLower : String → String) (calm : Undisturbed env)
    (maxAttempts left attempt : Nat) (lastErr : Option GoError) :
    1 ≤ (retryFrom toLower maxAttempts env closure (left + 1) attempt lastErr).1 := by
  have ran : (attemptTxn env closure attempt).1 = 1 := attemptTxn_runs calm attempt
  unfold retryFrom
  rw [calm.context attempt]
  cases outcome : attemptTxn env closure attempt with
  | mk runs result =>
    rw [outcome] at ran
    cases result with
    | none => exact ran.ge
    | some e =>
      dsimp only
      split
      · exact ran.ge
      · rw [calm.sleep attempt]
        exact ran.ge.trans (Nat.le_add_right _ _)

theorem attempts_pos (policy : RetryPolicy) : 0 < policy.attempts := by
  unfold RetryPolicy.attempts defaultRetryMaxAttempts
  split <;> omega

/-- The first failure settles the call, or the closure runs again. -/
theorem runTxn_failed (toLower : String → String) (policy : RetryPolicy) (calm : Undisturbed env)
    (first : closure 1 = some e) :
    (policy.attempts = 1 ∨ ¬ shouldRetryTransactionError toLower e) ∧
        runTxn toLower policy env closure = (1, some (normalizeTransactionError toLower e)) ∨
      (shouldRetryTransactionError toLower e = true ∧ policy.attempts ≠ 1) ∧
        2 ≤ (runTxn toLower policy env closure).1 := by
  obtain ⟨left, attempts⟩ := Nat.exists_eq_succ_of_ne_zero (attempts_pos policy).ne'
  have outcome : attemptTxn env closure 1 = (1, some e) := by
    unfold attemptTxn
    rw [calm.begin 1, first]
  unfold runTxn
  rw [attempts]
  by_cases settled : left + 1 ≤ 1 ∨ ¬ shouldRetryTransactionError toLower e
  · left
    refine ⟨settled.imp (fun few => by omega) id, ?_⟩
    simp only [retryFrom, calm.context, outcome, if_pos settled]
  right
  obtain ⟨many, retried⟩ := not_or.mp settled
  refine ⟨⟨not_not.mp retried, by omega⟩, ?_⟩
  obtain ⟨more, rfl⟩ := Nat.exists_eq_succ_of_ne_zero (show left ≠ 0 by omega)
  have again : 1 ≤ (retryFrom toLower (more + 1 + 1) env closure (more + 1) (1 + 1) (some e)).1 :=
    retryFrom_runs toLower calm (more + 1 + 1) more (1 + 1) (some e)
  rw [retryFrom, calm.context 1, outcome]
  simp only [if_neg settled, calm.sleep 1]
  exact Nat.add_le_add_left again 1

end

/-! ## Every error -/

theorem domain_errors_kept_iff (toLower : String → String) (policy : RetryPolicy)
    (env : TransactionEnvironment) (calm : Undisturbed env) (closure : Nat → Option GoError)
    (e : GoError) (first : closure 1 = some e) :
    KeepsDomains e (runTxn toLower policy env closure) ↔ TextAgrees toLower policy e := by
  have renamed := normalize_wraps_iff toLower e
  unfold TextAgrees
  rcases runTxn_failed toLower policy calm first with ⟨settled, outcome⟩ | ⟨again, runs⟩
  · rw [outcome]
    constructor
    · rintro ⟨-, returned, same, wraps⟩
      cases same
      have agreed := renamed.mp wraps
      split_ifs at agreed ⊢ with conflict retried
      · exact agreed
      · exact ⟨settled.resolve_right (not_not.mpr retried), agreed⟩
    · intro agrees
      refine ⟨rfl, _, rfl, renamed.mpr ?_⟩
      split_ifs at agrees ⊢
      · exact agrees
      · exact agrees.2
  · constructor
    · rintro ⟨once, -⟩
      omega
    intro agrees
    split_ifs at agrees with conflict
    · exact absurd ((agrees .casConflict).mpr rfl) (not_wraps_of_retried again.1)
    · exact absurd agrees.1 again.2
    · exact absurd again.1 ‹_›

/-- A store that serves every attempt. -/
def quietEnvironment : TransactionEnvironment where
  contextErr _ := none
  begin _ := none
  commit _ := none
  sleep _ := none

/-- `strings.ToLower` on ASCII texts. -/
def asciiLower (text : String) : String := String.ofList (text.toList.map Char.toLower)

theorem quietEnvironment_undisturbed : Undisturbed quietEnvironment :=
  ⟨fun _ => rfl, fun _ => rfl, fun _ => rfl⟩

theorem locked_object_error_kept :
    KeepsDomains DomainError.objectLocked.raised
      (runTxn asciiLower ⟨3⟩ quietEnvironment fun _ => some DomainError.objectLocked.raised) := by
  refine (domain_errors_kept_iff asciiLower ⟨3⟩ quietEnvironment quietEnvironment_undisturbed
    (fun _ => some DomainError.objectLocked.raised) _ rfl).mpr ?_
  have conflict : isWriteConflict asciiLower DomainError.objectLocked.raised = false := by
    decide +kernel
  have transient : shouldRetryTransactionError asciiLower DomainError.objectLocked.raised = false := by
    decide +kernel
  simp [TextAgrees, conflict, transient]

/-- `checkDeleteKMSAdmission`'s refusal. -/
def kmsDeleteRefusal : GoError :=
  DomainError.kmsKeyUnavailable.detailed "kms key \"k1\" state \"disabled\" does not allow delete"

/-- A refusal that quotes a client's name. -/
def quotedNameRefusal :
    GoError := DomainError.invalidArgument.detailed "bucket \"optimistic\" is taken"

/-- A refused delete runs three times and comes back as an unavailable store, and a client's name
turns an invalid argument into a conflict. -/
theorem domain_errors_renamed :
    (runTxn asciiLower ⟨3⟩ quietEnvironment fun _ => some kmsDeleteRefusal) =
        (3, some (DomainError.unavailable.detailed kmsDeleteRefusal.text)) ∧
      ¬ KeepsDomains kmsDeleteRefusal
        (runTxn asciiLower ⟨3⟩ quietEnvironment fun _ => some kmsDeleteRefusal) ∧
      (runTxn asciiLower ⟨3⟩ quietEnvironment fun _ => some quotedNameRefusal) =
        (1, some DomainError.casConflict.raised) := by
  have retried : (runTxn asciiLower ⟨3⟩ quietEnvironment fun _ => some kmsDeleteRefusal) =
      (3, some (DomainError.unavailable.detailed kmsDeleteRefusal.text)) := by decide +kernel
  refine ⟨retried, ?_, by decide +kernel⟩
  rintro ⟨once, -⟩
  rw [retried] at once
  cases once

end Namros.Guarantees
