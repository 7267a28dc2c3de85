import Mathlib.Logic.Basic

/-!
# Transactions with rollback

A transaction body reads and rewrites a state and may fail; a failed body leaves no
trace. The state type, the error type and the results are parameters. The lemmas below
are the only ones needed to take a body apart: what a successful (or failed) sequence of
steps says about its first step and about the rest.
-/

namespace Namros.Library

variable {σ ε α β : Type} {a : α} {b : β}

/-- A sequence of fallible computations succeeds step by step. -/
theorem bind_eq_ok {x : Except ε α} {f : α → Except ε β} :
    (x >>= f) = .ok b ↔ ∃ a, x = .ok a ∧ f a = .ok b := by
  cases x <;> simp [bind, Except.bind]

/-- A check was passed. -/
theorem refuse_eq_ok {c : Prop} [Decidable c] {e : ε} {x : Except ε α} :
    (if c then .error e else x) = .ok a ↔ ¬ c ∧ x = .ok a := by
  by_cases c <;> simp [*]

theorem mapError_ok {ε' : Type} {f : ε → ε'} {x : Except ε α} (ran : x.mapError f = .ok a) :
    x = .ok a := by
  cases x with
  | error e => cases ran
  | ok b => cases ran; rfl

/-- A transaction body over states `σ`: on failure the intermediate state is dropped. -/
abbrev Transaction (σ ε α : Type) := StateT σ (Except ε) α

variable {x body y : Transaction σ ε α} {s t : σ} {r : β × σ} {e e' : ε} {c : Prop} {u : Unit}
  {v value : Option α} {o : Except ε α}

namespace Transaction

/-- Refuse with `error` when `condition` holds. -/
def failIf (condition : Prop) [Decidable condition] (error : ε) : Transaction σ ε Unit :=
  if condition then throw error else pure ()

/-- Unwrap an optional value, refusing with `error` when it is absent. -/
def orFail (value : Option α) (error : ε) : Transaction σ ε α :=
  match value with
  | some a => pure a
  | none => throw error

/-- Run `body` only when `condition` holds. -/
def onlyIf (condition : Prop) [Decidable condition] (body : Transaction σ ε Unit) :
    Transaction σ ε Unit :=
  if condition then body else pure ()

/-- A computation that does not touch the state. -/
def ofOutcome (outcome : Except ε α) : Transaction σ ε α :=
  match outcome with
  | .ok a => pure a
  | .error e => throw e

@[simp] theorem run_pure (a : α) (s : σ) :
    (pure a : Transaction σ ε α).run s = .ok (a, s) := rfl

@[simp] theorem run_throw (e : ε) (s : σ) :
    (throw e : Transaction σ ε α).run s = .error e := rfl

@[simp] theorem run_get (s : σ) : (get : Transaction σ ε σ).run s = .ok (s, s) := rfl

theorem run_bind (x : Transaction σ ε α) (f : α → Transaction σ ε β) (s : σ) :
    (x >>= f).run s = match x.run s with
      | .ok (a, t) => (f a).run t
      | .error e => .error e := by
  change (Except.bind (x.run s) fun p => (f p.1).run p.2) = _
  cases x.run s <;> rfl

/-- A successful sequence is a successful first step followed by a successful rest. -/
theorem run_bind_ok {f : α → Transaction σ ε β} :
    (x >>= f).run s = .ok r ↔
      ∃ a t, x.run s = .ok (a, t) ∧ (f a).run t = .ok r := by
  rw [run_bind]
  cases first : x.run s with
  | error e => simp
  | ok p =>
    obtain ⟨a, t⟩ := p
    constructor
    · exact fun rest => ⟨a, t, rfl, rest⟩
    · rintro ⟨a', t', same, rest⟩
      cases same
      exact rest

/-- The first step of a run that succeeds, and the rest. -/
theorem of_bind {f : α → Transaction σ ε β} (ran : (x >>= f).run s = .ok r) :
    ∃ a t, x.run s = .ok (a, t) ∧ (f a).run t = .ok r :=
  run_bind_ok.mp ran

/-- What follows a step that is known. -/
theorem past {f : α → Transaction σ ε β} (ran : (x >>= f).run s = .ok r)
    (first : x.run s = .ok (a, t)) : (f a).run t = .ok r := by
  rwa [run_bind, first] at ran

theorem exists_run_bind {f : α → Transaction σ ε β} (first : x.run s = .ok (a, t))
    (rest : ∃ r, (f a).run t = .ok r) : ∃ r, (x >>= f).run s = .ok r := by
  obtain ⟨r, rest⟩ := rest
  exact ⟨r, run_bind_ok.mpr ⟨a, t, first, rest⟩⟩

/-- A failed sequence failed in its first step, or after it. -/
theorem run_bind_error {f : α → Transaction σ ε β} :
    (x >>= f).run s = .error e ↔
      x.run s = .error e ∨ ∃ a t, x.run s = .ok (a, t) ∧ (f a).run t = .error e := by
  rw [run_bind]
  cases first : x.run s with
  | error e' => simp
  | ok p =>
    obtain ⟨a, t⟩ := p
    constructor
    · exact fun rest => Or.inr ⟨a, t, rfl, rest⟩
    rintro (failed | ⟨a', t', same, rest⟩)
    · cases failed
    · cases same
      exact rest

@[simp] theorem run_failIf_ok [Decidable c] :
    (failIf c e : Transaction σ ε Unit).run s = .ok (u, t) ↔ ¬ c ∧ s = t := by
  unfold failIf
  split
  · simp only [run_throw, reduceCtorEq, *, not_true_eq_false, false_and]
  · simp only [run_pure, Except.ok.injEq, Prod.mk.injEq, *, not_false_eq_true, true_and]

@[simp] theorem run_failIf_error [Decidable c] :
    (failIf c e : Transaction σ ε Unit).run s = .error e' ↔ c ∧ e = e' := by
  unfold failIf
  split
  · simp only [run_throw, Except.error.injEq, *, true_and]
  · simp only [run_pure, reduceCtorEq, *, false_and]

@[simp] theorem run_orFail_ok :
    (orFail v e : Transaction σ ε α).run s = .ok (a, t) ↔ v = some a ∧ s = t := by
  cases v with
  | none => simp only [orFail, run_throw, reduceCtorEq, false_and]
  | some b => simp only [orFail, run_pure, Except.ok.injEq, Prod.mk.injEq, Option.some.injEq]

@[simp] theorem run_orFail_error :
    (orFail v e : Transaction σ ε α).run s = .error e' ↔ v = none ∧ e = e' := by
  cases v with
  | none => simp only [orFail, run_throw, Except.error.injEq, true_and]
  | some b => simp only [orFail, run_pure, reduceCtorEq, false_and]

@[simp] theorem run_ofOutcome_ok :
    (ofOutcome o : Transaction σ ε α).run s = .ok (a, t) ↔ o = .ok a ∧ s = t := by
  cases o with
  | error e => simp only [ofOutcome, run_throw, reduceCtorEq, false_and]
  | ok b => simp only [ofOutcome, run_pure, Except.ok.injEq, Prod.mk.injEq]

@[simp] theorem run_ofOutcome_error :
    (ofOutcome o : Transaction σ ε α).run s = .error e ↔ o = .error e := by
  cases o with
  | error e' => simp only [ofOutcome, run_throw, Except.error.injEq]
  | ok b => simp only [ofOutcome, run_pure, reduceCtorEq]

/-! A sequence that begins with a check. -/

theorem failIf_bind_ok [Decidable c] {f : Unit → Transaction σ ε α} {r : α × σ} :
    (failIf c e >>= f).run s = .ok r ↔ ¬ c ∧ (f ()).run s = .ok r := by
  simp only [run_bind_ok, run_failIf_ok]
  constructor
  · rintro ⟨_, _, ⟨no, rfl⟩, rest⟩
    exact ⟨no, rest⟩
  · exact fun ⟨no, rest⟩ => ⟨_, s, ⟨no, rfl⟩, rest⟩

theorem orFail_bind_ok {f : α → Transaction σ ε β} :
    (orFail v e >>= f).run s = .ok r ↔ ∃ a, v = some a ∧ (f a).run s = .ok r := by
  simp [run_bind_ok, run_orFail_ok, and_assoc, -StateT.run_bind]

theorem ofOutcome_bind_ok {f : α → Transaction σ ε β} :
    (ofOutcome o >>= f).run s = .ok r ↔ ∃ a, o = .ok a ∧ (f a).run s = .ok r := by
  simp [run_bind_ok, run_ofOutcome_ok, and_assoc, -StateT.run_bind]

/-- The body with its result dropped. -/
def dropResult (body : Transaction σ ε α) : Transaction σ ε Unit := do
  let _ ← body
  pure ()

theorem run_dropResult_ok :
    (dropResult body).run s = .ok (u, t) ↔ ∃ a, body.run s = .ok (a, t) := by
  constructor
  · intro ran
    obtain ⟨a, s₁, step, rest⟩ := of_bind ran
    cases rest
    exact ⟨a, step⟩
  · rintro ⟨a, step⟩
    exact run_bind_ok.mpr ⟨a, t, step, rfl⟩

/-- The state left by a call: the body's final state, or the old one when it failed. -/
def settle (body : Transaction σ ε α) (s : σ) : σ :=
  match body.run s with
  | .ok (_, t) => t
  | .error _ => s

/-- What holds before a call and is kept by its successful outcomes holds after it. -/
theorem settle_induction {P : σ → Prop} (before : P s)
    (kept : ∀ a t, body.run s = .ok (a, t) → P t) : P (body.settle s) := by
  unfold settle
  cases ran : body.run s with
  | error e => exact before
  | ok p =>
    obtain ⟨a, t⟩ := p
    exact kept a t ran

theorem settle_dropResult (body : Transaction σ ε α) (s : σ) :
    (dropResult body).settle s = body.settle s := by
  unfold settle dropResult
  rw [run_bind]
  cases body.run s <;> rfl

/-- The error a call ends in. -/
def failure (body : Transaction σ ε α) (s : σ) : Option ε :=
  match body.run s with
  | .ok _ => none
  | .error e => some e

theorem failure_eq_some : body.failure s = some e ↔ body.run s = .error e := by
  unfold failure
  cases body.run s <;> simp

theorem run_settle (succeeds : body.failure s = none) :
    ∃ a, body.run s = .ok (a, body.settle s) := by
  unfold failure at succeeds
  unfold settle
  cases ran : body.run s with
  | error e => simp [ran] at succeeds
  | ok p => exact ⟨p.1, rfl⟩

/-- The body succeeds in every state. -/
def Total (body : Transaction σ ε α) : Prop := ∀ s, ∃ a t, body.run s = .ok (a, t)

namespace Total

theorem pure (a : α) : Total (Pure.pure a : Transaction σ ε α) := fun s => ⟨a, s, rfl⟩

theorem bind {f : α → Transaction σ ε β} (first : Total x) (rest : ∀ a, Total (f a)) :
    Total (x >>= f) := by
  intro s
  obtain ⟨a, t, step⟩ := first s
  obtain ⟨b, u, later⟩ := rest a t
  exact ⟨b, u, run_bind_ok.mpr ⟨a, t, step, later⟩⟩

theorem ite [Decidable c] (yes : Total x) (no : Total y) : Total (if c then x else y) := by
  split
  · exact yes
  · exact no

theorem onlyIf [Decidable c] {body : Transaction σ ε Unit} (total : Total body) :
    Total (Transaction.onlyIf c body) :=
  ite total (pure ())

end Total

/-- Every error the body ends in satisfies `P`. -/
def Raises (P : ε → Prop) (body : Transaction σ ε α) : Prop := ∀ s e, body.run s = .error e → P e

namespace Raises

variable {P : ε → Prop}

theorem of_total (total : Total body) : Raises P body := by
  intro s e failed
  obtain ⟨a, t, ran⟩ := total s
  rw [ran] at failed
  cases failed

theorem throw (raised : P e) : Raises P (MonadExcept.throw e : Transaction σ ε α) := by
  intro s e' failed
  rw [run_throw, Except.error.injEq] at failed
  rwa [← failed]

theorem bind {f : α → Transaction σ ε β} (first : Raises P x) (rest : ∀ a, Raises P (f a)) :
    Raises P (x >>= f) := by
  intro s e failed
  obtain here | ⟨a, t, -, later⟩ := run_bind_error.mp failed
  · exact first s e here
  · exact rest a t e later

theorem ite [Decidable c] (yes : Raises P x) (no : Raises P y) : Raises P (if c then x else y) := by
  split
  · exact yes
  · exact no

theorem orFail (raised : P e) : Raises P (Transaction.orFail value e : Transaction σ ε α) := by
  intro s e' failed
  rw [← (run_orFail_error.mp failed).2]
  exact raised

theorem ofOutcome {ran : Except ε α} (each : ∀ e, ran = .error e → P e) :
    Raises P (Transaction.ofOutcome ran : Transaction σ ε α) :=
  fun _ e failed => each e (run_ofOutcome_error.mp failed)

end Raises

/-- What holds before the body holds after it. -/
def Maintains (P : σ → Prop) (body : Transaction σ ε α) : Prop :=
  ∀ s a t, P s → body.run s = .ok (a, t) → P t

namespace Maintains

variable {P : σ → Prop}

theorem pure (a : α) : Maintains P (Pure.pure a : Transaction σ ε α) := by
  intro s b t before ran
  rw [run_pure, Except.ok.injEq, Prod.mk.injEq] at ran
  rwa [← ran.2]

theorem throw (e : ε) : Maintains P (MonadExcept.throw e : Transaction σ ε α) := by
  intro s b t _ ran
  rw [run_throw] at ran
  cases ran

theorem bind {f : α → Transaction σ ε β} (first : Maintains P x) (rest : ∀ a, Maintains P (f a)) :
    Maintains P (x >>= f) := by
  intro s b u before ran
  obtain ⟨a, t, step, later⟩ := of_bind ran
  exact rest a t b u (first s a t before step) later

theorem ite [Decidable c] (yes : c → Maintains P x) (no : ¬ c → Maintains P y) : Maintains P
    (if c then x else y) := by
  split
  · exact yes ‹_›
  · exact no ‹_›

theorem settle (maintains : Maintains P body) (before : P s) : P (body.settle s) :=
  settle_induction before fun a t ran => maintains s a t before ran

theorem dropResult (maintains : Maintains P body) : Maintains P body.dropResult :=
  bind maintains fun _ => pure ()

end Maintains

end Transaction

end Namros.Library
