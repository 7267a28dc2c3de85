/-!
# Attempts at a task

One attempt after the other is made at a task. The first that begins it leaves a mark, and every
later one takes the mark for the end of the task, whether or not the first came that far. When
do the attempts report the task as done only when it is?
-/

namespace Namros.Library

/-- What an attempt does to a task that is not begun. -/
inductive AttemptKind
  /-- It fails and changes nothing. -/
  | refused
  /-- It changes nothing, and reports the task as done. -/
  | misreported
  | completed
  /-- It begins the task, does not complete it, and reports it as done or not. -/
  | abandoned (reported : Bool)
deriving DecidableEq

section

variable {α β σ : Type}

/-- Attempts in order: what each returns, with the state after it. -/
def attempts (call : α → σ → β × σ) : List α → σ → List (β × σ)
  | [], _ => []
  | a :: rest, s => call a s :: attempts call rest (call a s).2

/-- The first attempt that begins the task completes it, or fails and leaves only attempts that
are stopped before they look at the mark. -/
def NeverPremature (kind : α → AttemptKind) (stopped : α → Prop) : List α → Prop
  | [] => True
  | a :: rest =>
    match kind a with
    | .refused => NeverPremature kind stopped rest
    | .misreported => False
    | .completed => True
    | .abandoned reported => reported = false ∧ ∀ b ∈ rest, stopped b

instance decidableNeverPremature (kind : α → AttemptKind) (stopped : α → Prop)
    [DecidablePred stopped] : (as : List α) → Decidable (NeverPremature kind stopped as)
  | [] => inferInstanceAs (Decidable True)
  | a :: rest =>
    have := decidableNeverPremature kind stopped rest
    match h : kind a with
    | .refused => decidable_of_iff (NeverPremature kind stopped rest) (by simp [NeverPremature, h])
    | .misreported => isFalse (by simp [NeverPremature, h])
    | .completed => isTrue (by simp [NeverPremature, h])
    | .abandoned reported =>
      decidable_of_iff (reported = false ∧ ∀ b ∈ rest, stopped b) (by simp [NeverPremature, h])

/-- An attempt of each kind, from a state where the task is not begun: what it returns and the
state after it. -/
def AttemptKind.Effect (reported : β → Prop) (unbegun begun done : σ → Prop) (outcome : β × σ) :
    AttemptKind → Prop
  | .refused => ¬ reported outcome.1 ∧ unbegun outcome.2
  | .misreported => reported outcome.1 ∧ ¬ done outcome.2
  | .completed => done outcome.2
  | .abandoned r => (reported outcome.1 ↔ r = true) ∧ begun outcome.2

/-- How the attempts act on the states of the task: not begun, begun but not done, done. -/
structure TaskLaws (call : α → σ → β × σ) (reported : β → Prop) (unbegun begun done : σ → Prop)
    (kind : α → AttemptKind) (stopped : α → Prop) : Prop where
  first : ∀ {a s}, unbegun s → (kind a).Effect reported unbegun begun done (call a s)
  marked : ∀ {a s}, begun s → (reported (call a s).1 ↔ ¬ stopped a) ∧ begun (call a s).2
  undone : ∀ {s}, begun s → ¬ done s
  remains : ∀ {a s}, done s → done (call a s).2

variable {call : α → σ → β × σ} {reported : β → Prop} {unbegun begun done : σ → Prop}
  {kind : α → AttemptKind} {stopped : α → Prop} {as : List α} {s : σ}

/-- No attempt reports a task that is not done. -/
def Truthful (reported : β → Prop) (done : σ → Prop) (outcomes : List (β × σ)) : Prop :=
  ∀ outcome ∈ outcomes, reported outcome.1 → done outcome.2

theorem truthful_of_silent (silent : ∀ a s, ¬ reported (call a s).1) :
    Truthful reported done (attempts call as s) := by
  induction as generalizing s with
  | nil => intro outcome member; cases member
  | cons a rest ih =>
    intro outcome member
    rcases List.mem_cons.mp member with rfl | later
    · exact fun reports => absurd reports (silent a s)
    · exact ih outcome later

theorem TaskLaws.truthful_of_done
    (laws : TaskLaws call reported unbegun begun done kind stopped) (finished : done s) :
    Truthful reported done (attempts call as s) := by
  induction as generalizing s with
  | nil => intro outcome member; cases member
  | cons a rest ih =>
    intro outcome member
    rcases List.mem_cons.mp member with rfl | later
    · exact fun _ => laws.remains finished
    · exact ih (laws.remains finished) outcome later

theorem TaskLaws.truthful_of_begun
    (laws : TaskLaws call reported unbegun begun done kind stopped) (marked : begun s) :
    Truthful reported done (attempts call as s) ↔ ∀ a ∈ as, stopped a := by
  induction as generalizing s with
  | nil => simp [Truthful, attempts]
  | cons a rest ih =>
    obtain ⟨reports, still⟩ := laws.marked (a := a) marked
    have undone := laws.undone still
    simp only [Truthful, attempts, List.forall_mem_cons, reports] at ih ⊢
    rw [ih still]
    constructor
    · rintro ⟨first, others⟩
      exact ⟨Classical.byContradiction fun free => undone (first free), others⟩
    · rintro ⟨first, others⟩
      exact ⟨fun free => absurd first free, others⟩

/-- The rule for attempts at a task that is not begun. -/
theorem TaskLaws.truthful_iff
    (laws : TaskLaws call reported unbegun begun done kind stopped) (fresh : unbegun s) :
    Truthful reported done (attempts call as s) ↔ NeverPremature kind stopped as := by
  induction as generalizing s with
  | nil => simp [Truthful, attempts, NeverPremature]
  | cons a rest ih =>
    have split : Truthful reported done (attempts call (a :: rest) s) ↔
        (reported (call a s).1 → done (call a s).2) ∧
          Truthful reported done (attempts call rest (call a s).2) :=
      List.forall_mem_cons
    rw [split]
    have effect := laws.first (a := a) fresh
    cases what : kind a with
    | refused =>
      obtain ⟨silent, still⟩ := what ▸ effect
      simp [NeverPremature, what, ih still, silent]
    | misreported =>
      obtain ⟨reports, undone⟩ := what ▸ effect
      simp [NeverPremature, what, reports, undone]
    | completed =>
      have finished : done (call a s).2 := by
        rw [what] at effect
        exact effect
      simp [NeverPremature, what, finished, laws.truthful_of_done finished]
    | abandoned r =>
      obtain ⟨reports, marked⟩ := what ▸ effect
      simp [NeverPremature, what, reports, laws.undone marked, laws.truthful_of_begun marked]

end

end Namros.Library
