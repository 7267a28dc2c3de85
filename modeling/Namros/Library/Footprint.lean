import Mathlib.Data.List.AList
import Namros.Library.Transaction

/-!
# Footprints of transactions

Which keys of a store a transaction body leaves alone. A footprint is proved by the shape
of the body: a read changes nothing, a write changes one key, and a sequence leaves alone
what all its steps leave alone.
-/

namespace Namros.Library

section ReadOnly

variable {σ ε α β : Type}

/-- The body changes nothing. -/
def ReadOnly (body : Transaction σ ε α) : Prop := ∀ s a t, body.run s = .ok (a, t) → t = s

namespace ReadOnly

open Transaction

theorem pure (a : α) : ReadOnly (Pure.pure a : Transaction σ ε α) := by
  intro s b t ran
  rw [run_pure, Except.ok.injEq, Prod.mk.injEq] at ran
  exact ran.2.symm

theorem throw (e : ε) : ReadOnly (MonadExcept.throw e : Transaction σ ε α) := by
  intro s b t ran
  rw [run_throw] at ran
  cases ran

theorem bind {x : Transaction σ ε α} {f : α → Transaction σ ε β}
    (first : ReadOnly x) (rest : ∀ a, ReadOnly (f a)) : ReadOnly (x >>= f) := by
  intro s b u ran
  obtain ⟨a, t, step, later⟩ := of_bind ran
  rw [rest a t b u later, first s a t step]

theorem ite {c : Prop} [Decidable c] {x y : Transaction σ ε α} (yes : ReadOnly x)
    (no : ReadOnly y) : ReadOnly (if c then x else y) := by
  split
  · exact yes
  · exact no

theorem failIf (c : Prop) [Decidable c] (e : ε) :
    ReadOnly (Transaction.failIf c e : Transaction σ ε Unit) :=
  ite (throw e) (pure ())

theorem orFail (v : Option α) (e : ε) :
    ReadOnly (Transaction.orFail v e : Transaction σ ε α) := by
  cases v with
  | none => exact throw e
  | some a => exact pure a

theorem ofOutcome (o : Except ε α) :
    ReadOnly (Transaction.ofOutcome o : Transaction σ ε α) := by
  cases o with
  | error e => exact throw e
  | ok a => exact pure a

end ReadOnly

end ReadOnly

variable {κ : Type} [DecidableEq κ] {V : κ → Type} {ε α β : Type}

/-- Two stores hold the same values at the keys in `P`. -/
def Agree (P : κ → Prop) (s t : AList V) : Prop := ∀ k, P k → s.lookup k = t.lookup k

namespace Agree

variable {P Q : κ → Prop} {s t u : AList V}

theorem refl (s : AList V) : Agree P s s := fun _ _ => rfl

theorem trans (h : Agree P s t) (h' : Agree P t u) : Agree P s u :=
  fun k selected => (h k selected).trans (h' k selected)

theorem mono (h : Agree Q s t) (implied : ∀ k, P k → Q k) : Agree P s t :=
  fun k selected => h k (implied k selected)

theorem insert_outside {k : κ} (outside : ¬ P k) (v : V k) (s : AList V) :
    Agree P (s.insert k v) s := by
  intro j selected
  rw [AList.lookup_insert_ne]
  rintro rfl
  exact outside selected

theorem erase_outside {k : κ} (outside : ¬ P k) (s : AList V) : Agree P (s.erase k) s := by
  intro j selected
  rw [AList.lookup_erase_ne]
  rintro rfl
  exact outside selected

end Agree

/-- The body leaves the keys in `P` alone. -/
def Keeps (P : κ → Prop) (body : Transaction (AList V) ε α) : Prop :=
  ∀ s a t, body.run s = .ok (a, t) → Agree P t s

/-- The body writes no other keys than those in `W`. -/
abbrev Writes (W : κ → Prop) (body : Transaction (AList V) ε α) : Prop :=
  Keeps (fun k => ¬ W k) body

namespace Keeps

open Transaction

variable {P : κ → Prop}

theorem of_readOnly {body : Transaction (AList V) ε α} (h : ReadOnly body) : Keeps P body := by
  intro s a t ran
  rw [h s a t ran]
  exact Agree.refl s

theorem mono {Q : κ → Prop} {body : Transaction (AList V) ε α} (h : Keeps Q body)
    (implied : ∀ k, P k → Q k) : Keeps P body :=
  fun s a t ran => (h s a t ran).mono implied

theorem pure (a : α) : Keeps P (Pure.pure a : Transaction (AList V) ε α) := by
  intro s b t ran
  rw [run_pure, Except.ok.injEq, Prod.mk.injEq] at ran
  rw [← ran.2]
  exact Agree.refl s

theorem throw (e : ε) : Keeps P (MonadExcept.throw e : Transaction (AList V) ε α) := by
  intro s b t ran
  rw [run_throw] at ran
  cases ran

theorem bind {x : Transaction (AList V) ε α} {f : α → Transaction (AList V) ε β}
    (first : Keeps P x) (rest : ∀ a, Keeps P (f a)) : Keeps P (x >>= f) := by
  intro s b u ran
  obtain ⟨a, t, step, later⟩ := of_bind ran
  exact (rest a t b u later).trans (first s a t step)

theorem read {x : Transaction (AList V) ε α} {f : α → Transaction (AList V) ε β}
    (first : ReadOnly x) (rest : ∀ a, Keeps P (f a)) : Keeps P (x >>= f) :=
  bind (of_readOnly first) rest

theorem ite {c : Prop} [Decidable c] {x y : Transaction (AList V) ε α} (yes : c → Keeps P x)
    (no : ¬ c → Keeps P y) : Keeps P (if c then x else y) := by
  split
  · exact yes ‹_›
  · exact no ‹_›

theorem failIf (c : Prop) [Decidable c] (e : ε) :
    Keeps P (Transaction.failIf c e : Transaction (AList V) ε Unit) :=
  ite (fun _ => throw e) fun _ => pure ()

theorem onlyIf {c : Prop} [Decidable c] {body : Transaction (AList V) ε Unit}
    (kept : c → Keeps P body) : Keeps P (Transaction.onlyIf c body) :=
  ite kept fun _ => pure ()

theorem orFail (v : Option α) (e : ε) :
    Keeps P (Transaction.orFail v e : Transaction (AList V) ε α) := by
  cases v with
  | none => exact throw e
  | some a => exact pure a

theorem ofOutcome (o : Except ε α) :
    Keeps P (Transaction.ofOutcome o : Transaction (AList V) ε α) := by
  cases o with
  | error e => exact throw e
  | ok a => exact pure a

theorem dropResult {body : Transaction (AList V) ε α} (h : Keeps P body) :
    Keeps P body.dropResult :=
  bind h fun _ => pure ()

/-- A property of the kept keys is maintained. -/
theorem maintains {I : AList V → Prop} {body : Transaction (AList V) ε α} (h : Keeps P body)
    (depends : ∀ s t, Agree P t s → I s → I t) : Maintains I body :=
  fun s a t before ran => depends s t (h s a t ran) before

end Keeps

end Namros.Library
