import Namros.Library.ByteString

/-!
# Path-shaped keys

A path key is a list of components, each written after a separator. When no component
holds the separator, a key that ends in an unfinished component covers exactly the keys
that go on from there, so scans by string prefix are scans by leading components.
Components are written with a prefix code, so string prefixes survive the encoding.
-/

namespace Namros.Library

/-! ## Prefix codes -/

section PrefixCode

variable {α β : Type}

/-- No code word is empty, and no code word starts another one's continuation. -/
structure PrefixCode (code : α → List β) : Prop where
  nonempty : ∀ a, code a ≠ []
  decodes : ∀ a b x, code a <+: code b ++ x → a = b

theorem PrefixCode.flatMap_isPrefix_iff {code : α → List β} (h : PrefixCode code)
    {s t : List α} : s.flatMap code <+: t.flatMap code ↔ s <+: t := by
  induction s generalizing t with
  | nil => simp
  | cons a s ih =>
    cases t with
    | nil => simp [h.nonempty a]
    | cons b t =>
      rw [List.flatMap_cons, List.flatMap_cons, List.cons_prefix_cons]
      constructor
      · intro starts
        have same : a = b := h.decodes a b _ ((List.prefix_append _ _).trans starts)
        subst same
        exact ⟨rfl, ih.mp ((List.prefix_append_right_inj _).mp starts)⟩
      · rintro ⟨rfl, rest⟩
        exact (List.prefix_append_right_inj _).mpr (ih.mpr rest)

theorem PrefixCode.flatMap_injective {code : α → List β} (h : PrefixCode code) :
    Function.Injective fun s : List α => s.flatMap code := by
  intro s t same
  change s.flatMap code = t.flatMap code at same
  have forth : s <+: t := h.flatMap_isPrefix_iff.mp (same ▸ List.prefix_rfl)
  have back : t <+: s := h.flatMap_isPrefix_iff.mp (same ▸ List.prefix_rfl)
  exact forth.eq_of_length_le back.length_le

end PrefixCode

/-! ## Paths -/

namespace Path

/-- The separator byte, `/`. -/
def separator : UInt8 := 0x2f

def join (components : List Bytes) : Bytes :=
  components.flatMap (separator :: ·)

def Closed (component : Bytes) : Prop := separator ∉ component
deriving Decidable

@[simp] theorem join_nil : join [] = [] := rfl

@[simp] theorem join_cons (c : Bytes) (cs : List Bytes) :
    join (c :: cs) = separator :: (c ++ join cs) := rfl

theorem join_append (cs ds : List Bytes) : join (cs ++ ds) = join cs ++ join ds := by
  simp [join]

/-- Either nothing follows, or a separator does. -/
private theorem join_head (cs : List Bytes) : join cs = [] ∨ ∃ x, join cs = separator :: x := by
  cases cs with
  | nil => exact Or.inl rfl
  | cons c cs => exact Or.inr ⟨_, rfl⟩

private theorem open_prefix_iff {e c : Bytes} {cs : List Bytes} (closed : Closed e) :
    e <+: c ++ join cs ↔ e <+: c := by
  induction e generalizing c with
  | nil => simp
  | cons b e ih =>
    have rest : Closed e := fun h => closed (List.mem_cons_of_mem _ h)
    have notSeparator : b ≠ separator := fun h => closed (h ▸ List.mem_cons_self)
    cases c with
    | nil =>
      rcases join_head cs with empty | ⟨x, starts⟩
      · simp [empty]
      · rw [List.nil_append, starts, List.cons_prefix_cons]
        simp [notSeparator]
    | cons d c => rw [List.cons_append, List.cons_prefix_cons, List.cons_prefix_cons, ih rest]

private theorem component_prefix_iff {p c x : Bytes} {cs : List Bytes} (left : Closed p)
    (right : Closed c) :
    p ++ separator :: x <+: c ++ join cs ↔ p = c ∧ separator :: x <+: join cs := by
  induction p generalizing c with
  | nil =>
    cases c with
    | nil => simp
    | cons d c =>
      have notSeparator : d ≠ separator := fun h => right (h ▸ List.mem_cons_self)
      simp [List.cons_prefix_cons, notSeparator.symm]
  | cons b p ih =>
    have rest : Closed p := fun h => left (List.mem_cons_of_mem _ h)
    have notSeparator : b ≠ separator := fun h => left (h ▸ List.mem_cons_self)
    cases c with
    | nil =>
      rcases join_head cs with empty | ⟨y, starts⟩
      · simp [empty]
      · simp [starts, List.cons_prefix_cons, notSeparator]
    | cons d c =>
      have rest' : Closed c := fun h => right (List.mem_cons_of_mem _ h)
      rw [List.cons_append, List.cons_append, List.cons_prefix_cons, ih rest rest',
        List.cons.injEq, and_assoc]

/-- A path with an unfinished last component covers the paths that continue it. -/
theorem open_isPrefix_iff {ps qs : List Bytes} {e : Bytes} (left : ∀ c ∈ ps, Closed c)
    (closed : Closed e) (right : ∀ c ∈ qs, Closed c) :
    join ps ++ separator :: e <+: join qs ↔ ∃ c r, qs = ps ++ c :: r ∧ e <+: c := by
  induction ps generalizing qs with
  | nil =>
    cases qs with
    | nil => simp
    | cons c r =>
      rw [join_nil, List.nil_append, join_cons, List.cons_prefix_cons, open_prefix_iff closed]
      constructor
      · rintro ⟨-, starts⟩
        exact ⟨c, r, rfl, starts⟩
      · rintro ⟨c', r', same, starts⟩
        cases same
        exact ⟨rfl, starts⟩
  | cons p ps ih =>
    cases qs with
    | nil => simp
    | cons c r =>
      have step : join (p :: ps) ++ separator :: e <+: join (c :: r) ↔
          p = c ∧ join ps ++ separator :: e <+: join r := by
        have split : ∃ x, join ps ++ separator :: e = separator :: x := by
          cases ps with
          | nil => exact ⟨e, rfl⟩
          | cons p' ps' => exact ⟨_, rfl⟩
        obtain ⟨x, hx⟩ := split
        rw [join_cons, join_cons, List.cons_append, List.append_assoc, hx,
          List.cons_prefix_cons]
        simp only [true_and]
        exact component_prefix_iff (left p (List.mem_cons_self)) (right c (List.mem_cons_self))
      rw [step, ih (fun d h => left d (List.mem_cons_of_mem _ h))
        (fun d h => right d (List.mem_cons_of_mem _ h))]
      constructor
      · rintro ⟨rfl, d, r', rfl, starts⟩
        exact ⟨d, r', rfl, starts⟩
      · rintro ⟨d, r', same, starts⟩
        cases same
        exact ⟨rfl, d, r', rfl, starts⟩

theorem join_injective {ps qs : List Bytes} (left : ∀ c ∈ ps, Closed c)
    (right : ∀ c ∈ qs, Closed c) (same : join ps = join qs) : ps = qs := by
  have extended : ∀ rs : List Bytes, join rs ++ [separator] = join (rs ++ [[]]) := by
    intro rs
    rw [join_append]
    rfl
  have covers : ∀ {rs ts : List Bytes}, (∀ c ∈ rs, Closed c) → (∀ c ∈ ts, Closed c) →
      join rs = join ts → ∃ c r, ts ++ [[]] = rs ++ c :: r := by
    intro rs ts hr ht eq
    have closed : ∀ c ∈ ts ++ [[]], Closed c := by
      intro c member
      rcases List.mem_append.mp member with old | last
      · exact ht c old
      · rw [List.mem_singleton.mp last]
        exact List.not_mem_nil
    have starts : join rs ++ separator :: [] <+: join (ts ++ [[]]) :=
      ⟨[], by rw [List.append_nil, eq, ← extended]⟩
    obtain ⟨c, r, shape, -⟩ := (open_isPrefix_iff hr List.not_mem_nil closed).mp starts
    exact ⟨c, r, shape⟩
  obtain ⟨c, r, forth⟩ := covers left right same
  obtain ⟨d, u, back⟩ := covers right left same.symm
  have lengths := congrArg List.length forth
  have lengths' := congrArg List.length back
  simp only [List.length_append, List.length_cons, List.length_nil] at lengths lengths'
  have equal : ps.length = qs.length := by omega
  exact ((List.append_inj forth equal.symm).1).symm

end Path

end Namros.Library
