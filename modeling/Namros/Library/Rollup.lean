import Mathlib.Data.List.TakeWhile
import Namros.Library.ByteString
import Namros.Library.Paging

/-!
# Listings that roll names up

A sorted list of names is listed one entry per name, except that all names that share a
stem are rolled up into one entry. A page of such a listing ends with a token that only
says where its last entry stands; the next page goes on behind that entry, or behind every
name that starts with it. The theorems say when following the tokens lists everything.
-/

namespace Namros.Library

namespace Rollup

/-- A predicate that never comes back selects a tail of the list. -/
theorem filter_eq_dropWhile {α : Type} {p : α → Bool} {l : List α}
    (closed : l.Pairwise fun a b => p a → p b) : l.filter p = l.dropWhile fun a => !p a := by
  induction l with
  | nil => rfl
  | cons a l ih =>
    obtain ⟨first, rest⟩ := List.pairwise_cons.mp closed
    by_cases selected : p a = true
    · have all : l.filter p = l := List.filter_eq_self.mpr fun b member => first b member selected
      simp [selected, all]
    · simp [selected, ih rest]

section

variable {α γ : Type} [DecidableEq γ] (group : α → Option γ)

/-- The listing, behind names of the group `current` that were rolled up already. -/
def rollupFrom (group : α → Option γ) : Option γ → List α → List (α ⊕ γ)
  | _, [] => []
  | current, a :: rest =>
    match group a with
    | none => .inl a :: rollupFrom group none rest
    | some c =>
      if current = some c then rollupFrom group current rest
      else .inr c :: rollupFrom group (some c) rest

/-- The entries of a list of names. -/
def rollup (names : List α) : List (α ⊕ γ) := rollupFrom group none names

variable {group} {a b : α} {names : List α} {c : γ} {x y : α ⊕ γ} {rest : List (α ⊕ γ)}

theorem rollupFrom_some (c : γ) (names : List α) :
    rollupFrom group (some c) names =
      rollup group (names.dropWhile fun a => group a = some c) := by
  induction names with
  | nil => rfl
  | cons a names ih =>
    cases grouped : group a with
    | none => simp [rollup, rollupFrom, grouped]
    | some d =>
      by_cases same : d = c
      · subst same
        simp [rollupFrom, grouped, ih]
      · have other : c ≠ d := fun back => same back.symm
        simp [rollup, rollupFrom, grouped, same, other]

theorem rollup_nil : rollup group ([] : List α) = [] := rfl

theorem rollup_cons_none (single : group a = none) :
    rollup group (a :: names) = .inl a :: rollup group names := by
  simp [rollup, rollupFrom, single]

theorem rollup_cons_some (grouped : group a = some c) :
    rollup group (a :: names) =
      .inr c :: rollup group (names.dropWhile fun b => group b = some c) := by
  rw [← rollupFrom_some]
  simp [rollup, rollupFrom, grouped]

/-- What a tail of the names is listed as is a tail of the listing. -/
theorem rollup_suffix {tail : List α} (suffix : tail <:+ names) :
    rollup group tail <:+ rollup group names := by
  induction names with
  | nil =>
    obtain rfl := List.suffix_nil.mp suffix
    exact List.suffix_rfl
  | cons a names ih =>
    rcases List.suffix_cons_iff.mp suffix with rfl | inner
    · exact List.suffix_rfl
    refine (ih inner).trans ?_
    cases grouped : group a with
    | none =>
      rw [rollup_cons_none grouped]
      exact List.suffix_cons _ _
    | some c =>
      rw [rollup_cons_some grouped]
      cases names with
      | nil => exact List.nil_suffix
      | cons b names =>
        by_cases same : group b = some c
        · have step : rollup group (b :: names) = .inr c ::
              rollup group ((b :: names).dropWhile fun d => group d = some c) := by
            rw [rollup_cons_some same, List.dropWhile_cons_of_pos (by simpa using same)]
          exact step ▸ List.suffix_rfl
        · rw [List.dropWhile_cons_of_neg (by simpa using same)]
          exact List.suffix_cons _ _

end

/-- How names are coded as byte strings and rolled up: the names of one group are exactly
those whose code starts with the group's stem. `closes` marks the single names whose place
is read as a stem. -/
structure Listing (α γ : Type) where
  code : α → Bytes
  group : α → Option γ
  stem : γ → Bytes
  closes : α → Bool
  gathers : ∀ {a b : α} {c : γ}, group a = some c → (stem c <+: code b ↔ group b = some c)

namespace Listing

variable {α γ : Type} (L : Listing α γ)

/-- Where an entry stands among the codes. -/
def place : α ⊕ γ → Bytes
  | .inl a => L.code a
  | .inr c => L.stem c

def closing : α ⊕ γ → Bool
  | .inl a => L.closes a
  | .inr _ => true

/-- The names the next page is taken from, after a page whose last entry is `x`. -/
def beyond (x : α ⊕ γ) (a : α) : Bool :=
  decide (L.place x < L.code a) && !(L.closing x && decide (L.place x <+: L.code a))

/-- The entry `y` is lost behind `x`: it starts with the place of `x`, read as a stem. -/
def Hides (x y : α ⊕ γ) : Prop := L.closing x ∧ L.place x <+: L.place y

/-- The names are listed in the order of their codes, without repetition. -/
def Sorted (names : List α) : Prop := names.Pairwise fun a b => L.code a < L.code b

/-- The listing in which every token stands for the entry it names. -/
def exact : Listing α γ := { L with closes := fun _ => false }

variable {L} {a b : α} {names : List α} {c : γ} {x y : α ⊕ γ} {rest : List (α ⊕ γ)}

theorem beyond_iff :
    L.beyond x a = true ↔
      L.place x < L.code a ∧ ¬ (L.closing x = true ∧ L.place x <+: L.code a) := by
  cases reading : L.closing x <;> simp [beyond, reading]

theorem Sorted.filter (sorted : L.Sorted names) (p : α → Bool) :
    L.Sorted (names.filter p) := List.Pairwise.sublist List.filter_sublist sorted

theorem Sorted.tail (sorted : L.Sorted (a :: names)) : L.Sorted names :=
    (List.pairwise_cons.mp sorted).2

/-- What lies beyond an entry is closed upwards. -/
theorem beyond_of_lt (less : L.code a < L.code b) (reached : L.beyond x a = true) :
    L.beyond x b = true := by
  obtain ⟨above, outside⟩ := beyond_iff.mp reached
  refine beyond_iff.mpr ⟨above.trans less, fun ⟨closing, starts⟩ => outside ⟨closing, ?_⟩⟩
  exact Bytes.isPrefix_of_between (le_of_lt above) (le_of_lt less) starts

theorem Sorted.filter_beyond (sorted : L.Sorted names) (x : α ⊕ γ) :
    names.filter (L.beyond x) <:+ names := by
  rw [filter_eq_dropWhile (sorted.imp fun less => beyond_of_lt less)]
  exact List.dropWhile_suffix _

theorem beyond_exact (reached : L.beyond x a = true) : L.exact.beyond x a = true := by
  obtain ⟨above, outside⟩ := beyond_iff.mp reached
  refine beyond_iff.mpr ⟨above, fun ⟨closing, starts⟩ => outside ⟨?_, starts⟩⟩
  cases x with
  | inl b => exact absurd closing Bool.false_ne_true
  | inr c => rfl

theorem exact_eq (never : ∀ a, L.closes a = false) : L.exact = L := by
  have closes : L.closes = fun _ => false := funext never
  unfold exact
  rw [← closes]

theorem filter_beyond_exact (x : α ⊕ γ) (names : List α) :
    names.filter (L.beyond x) = (names.filter (L.exact.beyond x)).filter (L.beyond x) := by
  rw [List.filter_filter]
  refine List.filter_congr fun a _ => ?_
  cases reached : L.beyond x a with
  | false => simp
  | true => simp [beyond_exact reached]

theorem stem_isPrefix (grouped : L.group a = some c) : L.stem c <+: L.code a :=
  (L.gathers grouped).mpr grouped

/-- The names after a token: all of them, or those beyond the entry it stands for. -/
def namesAfter (L : Listing α γ) (names : List α) : Option (α ⊕ γ) → List α
  | none => names
  | some x => names.filter (L.beyond x)

theorem Sorted.namesAfter_suffix (sorted : L.Sorted names) (token : Option (α ⊕ γ)) :
    L.namesAfter names token <:+ names := by
  cases token with
  | none => exact List.suffix_rfl
  | some x => exact sorted.filter_beyond x

theorem Sorted.namesAfter (sorted : L.Sorted names) (token : Option (α ⊕ γ)) :
    L.Sorted (L.namesAfter names token) := by
  cases token with
  | none => exact sorted
  | some x => exact sorted.filter _

section

variable [DecidableEq γ]

/-- Behind a group of names lie those of other groups. -/
theorem Sorted.dropWhile_group (sorted : L.Sorted (a :: names)) (grouped : L.group a = some c) :
    (names.dropWhile fun b => L.group b = some c) =
      (a :: names).filter (L.beyond (.inr c)) := by
  have self : L.beyond (.inr c) a = false := by
    rw [Bool.eq_false_iff, ne_eq, beyond_iff]
    rintro ⟨-, outside⟩
    exact outside ⟨rfl, stem_isPrefix grouped⟩
  have agree : ∀ b ∈ names, (!L.beyond (.inr c) b) = decide (L.group b = some c) := by
    intro b member
    have less := (List.pairwise_cons.mp sorted).1 b member
    have above : L.stem c < L.code b :=
      lt_of_le_of_lt (Bytes.le_of_isPrefix (stem_isPrefix grouped)) less
    have same := L.gathers (b := b) grouped
    simp [beyond, place, closing, above, same]
  rw [List.filter_cons_of_neg (by simp [self]),
    filter_eq_dropWhile (sorted.tail.imp fun less => beyond_of_lt less)]
  clear self sorted
  induction names with
  | nil => rfl
  | cons b names ih =>
    have head := agree b List.mem_cons_self
    have rest := ih fun d member => agree d (List.mem_cons_of_mem _ member)
    simp only [List.dropWhile_cons, head, rest]

/-! ## What is listed -/

variable (L) in
/-- The entries of a list of names. -/
abbrev entries (names : List α) : List (α ⊕ γ) := rollup L.group names

/-- Induction along the entries of a listing. -/
@[elab_as_elim]
theorem entries_induction {motive : List α → Prop} (names : List α) (nil : motive [])
    (single : ∀ a names, L.group a = none → motive names → motive (a :: names))
    (grouped : ∀ a c names, L.group a = some c →
      motive (names.dropWhile fun b => L.group b = some c) → motive (a :: names)) :
    motive names := by
  induction size : names.length using Nat.strong_induction_on generalizing names with
  | _ size ih =>
    subst size
    cases names with
    | nil => exact nil
    | cons a names =>
      cases group : L.group a with
      | none => exact single a names group (ih names.length (by simp) names rfl)
      | some c =>
        refine grouped a c names group (ih _ ?_ _ rfl)
        have shorter := (List.dropWhile_suffix (l := names) fun b => L.group b = some c).length_le
        rw [List.length_cons]
        omega

theorem mem_dropWhile_group (other : L.group a ≠ some c) :
    a ∈ (names.dropWhile fun b => L.group b = some c) ↔ a ∈ names := by
  refine ⟨fun member => (List.dropWhile_suffix _).subset member, fun member => ?_⟩
  rw [← List.takeWhile_append_dropWhile (p := fun b => L.group b = some c) (l := names)] at member
  rcases List.mem_append.mp member with taken | kept
  · exact absurd (by simpa using List.mem_takeWhile_imp taken) other
  · exact kept

theorem mem_entries_inl (names : List α) :
    .inl a ∈ L.entries names ↔ a ∈ names ∧ L.group a = none := by
  induction names using entries_induction (L := L) with
  | nil => simp [rollup_nil]
  | single b names group ih =>
    rw [entries, rollup_cons_none group, List.mem_cons, List.mem_cons, ih, Sum.inl.injEq]
    constructor
    · rintro (rfl | ⟨member, none⟩)
      · exact ⟨.inl rfl, group⟩
      · exact ⟨.inr member, none⟩
    · rintro ⟨rfl | member, none⟩
      · exact .inl rfl
      · exact .inr ⟨member, none⟩
  | grouped b c names group ih =>
    rw [entries, rollup_cons_some group, List.mem_cons, ih, List.mem_cons]
    constructor
    · rintro (clash | ⟨member, none⟩)
      · cases clash
      · exact ⟨.inr ((List.dropWhile_suffix _).subset member), none⟩
    rintro ⟨rfl | member, none⟩
    · rw [group] at none
      cases none
    · exact .inr ⟨(mem_dropWhile_group (by simp [none])).mpr member, none⟩

theorem mem_entries_inr (names : List α) :
    .inr c ∈ L.entries names ↔ ∃ a ∈ names, L.group a = some c := by
  induction names using entries_induction (L := L) with
  | nil => simp [rollup_nil]
  | single b names group ih =>
    rw [entries, rollup_cons_none group, List.mem_cons, ih]
    simp [group]
  | grouped b d names group ih =>
    rw [entries, rollup_cons_some group, List.mem_cons, ih, Sum.inr.injEq]
    constructor
    · rintro (rfl | ⟨a, member, inGroup⟩)
      · exact ⟨b, List.mem_cons_self, group⟩
      · exact ⟨a, List.mem_cons_of_mem _ ((List.dropWhile_suffix _).subset member), inGroup⟩
    rintro ⟨a, member, inGroup⟩
    by_cases same : c = d
    · exact .inl same
    rcases List.mem_cons.mp member with rfl | member
    · rw [group, Option.some.injEq] at inGroup
      exact absurd inGroup.symm same
    · have other : L.group a ≠ some d := by simp [inGroup, same]
      exact .inr ⟨a, (mem_dropWhile_group other).mpr member, inGroup⟩

/-- Names that are not rolled up are listed one by one. -/
theorem entries_append {singles : List α} (single : ∀ a ∈ singles, L.group a = none)
    (names : List α) :
    L.entries (singles ++ names) = singles.map .inl ++ L.entries names := by
  induction singles with
  | nil => rfl
  | cons a singles ih =>
    have first : L.entries (a :: (singles ++ names)) = _ :=
      rollup_cons_none (single a List.mem_cons_self)
    have rest := ih fun b member => single b (List.mem_cons_of_mem _ member)
    rw [List.cons_append, first]
    exact congrArg (Sum.inl a :: ·) rest

/-- Every entry stands for a name, and no name up to that one lies behind the entry. -/
theorem represented (listed : x ∈ L.entries names) :
    ∃ b ∈ names, L.place x <+: L.code b ∧
      ∀ a, L.code a ≤ L.code b → L.exact.beyond x a = false := by
  cases x with
  | inl b =>
    refine ⟨b, ((mem_entries_inl names).mp listed).1, ⟨[], List.append_nil _⟩, fun a le => ?_⟩
    rw [Bool.eq_false_iff, ne_eq, beyond_iff]
    rintro ⟨above, -⟩
    exact absurd above (not_lt.mpr le)
  | inr c =>
    obtain ⟨b, member, grouped⟩ := (mem_entries_inr names).mp listed
    refine ⟨b, member, stem_isPrefix grouped, fun a le => ?_⟩
    rw [Bool.eq_false_iff, ne_eq, beyond_iff]
    rintro ⟨above, outside⟩
    exact outside ⟨rfl, Bytes.isPrefix_of_between (le_of_lt above) le (stem_isPrefix grouped)⟩

theorem Sorted.entries_nodup (sorted : L.Sorted names) : (L.entries names).Nodup := by
  induction names using entries_induction (L := L) with
  | nil => exact List.nodup_nil
  | single a names group ih =>
    rw [entries, rollup_cons_none group]
    refine List.nodup_cons.mpr ⟨fun again => ?_, ih sorted.tail⟩
    have member := ((mem_entries_inl names).mp again).1
    exact lt_irrefl _ ((List.pairwise_cons.mp sorted).1 a member)
  | grouped a c names group ih =>
    rw [entries, rollup_cons_some group]
    have rest := sorted.dropWhile_group group
    refine List.nodup_cons.mpr ⟨fun again => ?_, ih ?_⟩
    · obtain ⟨b, member, inGroup⟩ := (mem_entries_inr _).mp again
      rw [rest] at member
      exact (beyond_iff.mp (List.mem_filter.mp member).2).2 ⟨rfl, stem_isPrefix inGroup⟩
    · rw [rest]
      exact sorted.filter _

/-- The names behind an entry are listed as the entries that follow it. -/
theorem Sorted.entries_behind (sorted : L.Sorted names) {n : Nat}
    (found : (L.entries names)[n]? = some x) :
    L.entries (names.filter (L.exact.beyond x)) = (L.entries names).drop (n + 1) := by
  induction names using entries_induction (L := L) generalizing n with
  | nil => simp [rollup_nil] at found
  | single a names group ih =>
    have listed : L.entries (a :: names) = _ := rollup_cons_none group
    rw [listed] at found ⊢
    have first := (List.pairwise_cons.mp sorted).1
    cases n with
    | zero =>
      cases found
      have self : L.exact.beyond (.inl a) a = false := by
        rw [Bool.eq_false_iff, ne_eq, beyond_iff]
        exact fun above => lt_irrefl _ above.1
      have all : names.filter (L.exact.beyond (.inl a)) = names :=
        List.filter_eq_self.mpr fun b member =>
          beyond_iff.mpr ⟨first b member, fun reading => Bool.false_ne_true reading.1⟩
      rw [List.filter_cons_of_neg (by simp [self]), all]
      rfl
    | succ n =>
      rw [List.getElem?_cons_succ] at found
      obtain ⟨b, member, -, below⟩ := represented (List.mem_of_getElem? found)
      rw [List.filter_cons_of_neg (by simp [below a (le_of_lt (first b member))])]
      exact ih sorted.tail found
  | grouped a c names group ih =>
    have listed : L.entries (a :: names) = _ := rollup_cons_some group
    rw [listed] at found ⊢
    have rest := sorted.dropWhile_group group
    cases n with
    | zero =>
      cases found
      rw [rest]
      rfl
    | succ n =>
      rw [List.getElem?_cons_succ] at found
      have kept := ih (by rw [rest]; exact sorted.filter _) found
      rw [List.drop_succ_cons, ← kept]
      -- The names of the group come before the one the entry stands for.
      obtain ⟨b, member, -, below⟩ := represented (List.mem_of_getElem? found)
      have split := List.takeWhile_append_dropWhile (p := fun b => L.group b = some c) (l := names)
      have apart : L.Sorted (a :: (names.takeWhile fun b => L.group b = some c) ++
          names.dropWhile fun b => L.group b = some c) := by
        rw [List.cons_append, split]
        exact sorted
      have gone : (a :: names.takeWhile fun b => L.group b = some c).filter
          (L.exact.beyond x) = [] := by
        refine List.filter_eq_nil_iff.mpr fun d taken => ?_
        have less := (List.pairwise_append.mp apart).2.2 d taken b member
        simp [below d (le_of_lt less)]
      have whole : a :: names = (a :: (names.takeWhile fun b => L.group b = some c)) ++
          names.dropWhile fun b => L.group b = some c := by
        rw [List.cons_append, split]
      rw [whole, List.filter_append, gone, List.nil_append]

/-! ## Resuming behind an entry -/

/-- The entry a name is listed under. -/
def Under (L : Listing α γ) (b : α) (y : α ⊕ γ) : Prop :=
  y = .inl b ∨ ∃ c, y = .inr c ∧ L.group b = some c

theorem under_first (listed : L.entries (b :: names) = y :: rest) : L.Under b y := by
  cases group : L.group b with
  | none =>
    rw [entries, rollup_cons_none group] at listed
    exact .inl (List.cons.inj listed).1.symm
  | some c =>
    rw [entries, rollup_cons_some group] at listed
    exact .inr ⟨c, (List.cons.inj listed).1.symm, group⟩

/-- A name that lies behind an entry and starts with its place is listed under an entry that
is hidden. -/
theorem hides_under (listed : x ∈ L.entries names) (behind : L.exact.beyond x b = true)
    (reading : L.closing x = true) (starts : L.place x <+: L.code b) (under : L.Under b y) :
    L.Hides x y := by
  refine ⟨reading, ?_⟩
  rcases under with rfl | ⟨c, rfl, group⟩
  · exact starts
  rcases List.prefix_or_prefix_of_prefix starts (stem_isPrefix group) with within | around
  · exact within
  -- The stem of the entry is no longer than the place of `x`, so `x` is in its group.
  cases x with
  | inl a =>
    have single := ((mem_entries_inl names).mp listed).2
    rw [(L.gathers group).mp around] at single
    cases single
  | inr d =>
    obtain ⟨a, -, inGroup⟩ := (mem_entries_inr names).mp listed
    have same := (L.gathers group).mp (around.trans (stem_isPrefix inGroup))
    rw [inGroup, Option.some.injEq] at same
    exact absurd ⟨rfl, same ▸ stem_isPrefix group⟩ (beyond_iff.mp behind).2

/-- Where the next entry is not hidden, the next page misses no name. -/
theorem Sorted.beyond_eq_exact (sorted : L.Sorted names) (listed : x ∈ L.entries names)
    (next : L.entries (names.filter (L.exact.beyond x)) = y :: rest) (clear : ¬ L.Hides x y) :
    names.filter (L.beyond x) = names.filter (L.exact.beyond x) := by
  have kept := sorted.filter (L.exact.beyond x)
  rw [filter_beyond_exact]
  cases behind : names.filter (L.exact.beyond x) with
  | nil => rfl
  | cons b tail =>
    have first := (List.mem_filter.mp (behind ▸ List.mem_cons_self : b ∈ names.filter _)).2
    rw [behind] at next kept
    have reached : L.beyond x b = true := by
      refine beyond_iff.mpr ⟨(beyond_iff.mp first).1, fun ⟨reading, starts⟩ => clear ?_⟩
      exact hides_under listed first reading starts (under_first next)
    refine List.filter_eq_self.mpr fun a member => ?_
    rcases List.mem_cons.mp member with rfl | later
    · exact reached
    · exact beyond_of_lt ((List.pairwise_cons.mp kept).1 a later) reached

/-- A hidden entry is on no later page. -/
theorem not_mem_of_hides (names : List α) (hidden : L.Hides x y) :
    y ∉ L.entries (names.filter (L.beyond x)) := by
  intro listed
  obtain ⟨b, member, starts, -⟩ := represented listed
  have reached := (List.mem_filter.mp member).2
  exact (beyond_iff.mp reached).2 ⟨hidden.1, hidden.2.trans starts⟩

/-- What is listed beyond an entry of a page lies beyond the page before it. -/
theorem beyond_listed (listed : y ∈ L.entries (names.filter (L.beyond x))) :
    (names.filter (L.beyond x)).filter (L.beyond y) = names.filter (L.beyond y) := by
  obtain ⟨b, member, -, below⟩ := represented listed
  rw [List.filter_filter]
  refine List.filter_congr fun a _ => ?_
  cases reached : L.beyond y a with
  | false => rfl
  | true =>
    have above : L.code b < L.code a := by
      by_contra notAbove
      have behind := beyond_exact reached
      rw [below a (not_lt.mp notAbove)] at behind
      cases behind
    exact beyond_of_lt above (List.mem_filter.mp member).2

theorem namesAfter_listed {token : Option (α ⊕ γ)}
    (listed : x ∈ L.entries (L.namesAfter names token)) :
    (L.namesAfter names token).filter (L.beyond x) = L.namesAfter names (some x) := by
  cases token with
  | none => rfl
  | some y => exact beyond_listed listed

/-- A sorted listing, resumed beyond its entries. -/
def Sorted.pager {names : List α} (sorted : L.Sorted names) : Pager (α ⊕ γ) where
  after token := L.entries (L.namesAfter names token)
  Hides := L.Hides
  resumes := by
    intro token i x found
    have behind := (sorted.namesAfter token).entries_behind found
    rw [← namesAfter_listed (List.mem_of_getElem? found), ← behind, filter_beyond_exact]
    exact (rollup_suffix (((sorted.namesAfter token).filter _).filter_beyond x)).sublist
  complete := by
    intro token i x y found next
    have listed : x ∈ L.entries (L.namesAfter names token) := List.mem_of_getElem? found
    have behind := (sorted.namesAfter token).entries_behind found
    have follows : (L.entries (L.namesAfter names token)).drop (i + 1) =
        y :: (L.entries (L.namesAfter names token)).drop (i + 2) := by
      obtain ⟨inside, same⟩ := List.getElem?_eq_some_iff.mp next
      rw [List.drop_eq_getElem_cons inside, same]
    rw [← namesAfter_listed listed]
    constructor
    · intro same hidden
      apply not_mem_of_hides (L.namesAfter names token) hidden
      rw [same, follows]
      exact List.mem_cons_self
    · intro clear
      rw [(sorted.namesAfter token).beyond_eq_exact listed (behind.trans follows) clear, behind]

/-- When no name is read as a stem, no page ends with an entry that hides another one. -/
theorem Sorted.pager_unhidden (sorted : L.Sorted names) (never : ∀ a, L.closes a = false)
    {limit : Nat} (positive : 0 < limit) :
    sorted.pager.Unhidden limit (sorted.pager.after none) := by
  intro page later x y before after
  have whole : 0 < page * limit := Nat.mul_pos later positive
  have shift : page * limit - 1 + 1 = page * limit := by omega
  have behind := sorted.entries_behind before
  rw [exact_eq never] at behind
  exact (sorted.pager.complete before (by rwa [shift])).mp behind

end

end Listing

end Rollup

end Namros.Library
