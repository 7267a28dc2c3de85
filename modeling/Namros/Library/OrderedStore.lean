import Mathlib.Data.List.AList
import Mathlib.Data.List.Sort
import Mathlib.Data.List.TakeWhile
import Namros.Library.ByteString

/-!
# An ordered key-value store with cursor listings

A finite map from typed keys to values whose types depend on the key, listed in the
order of the keys' byte encodings. A listing returns at most `limit` keys of a range and,
when it stopped because of the limit, the last key as the cursor of the next listing.
The theorems say what one listing returns and that following cursors visits every key of
the range once, in order, even when the visited keys are deleted on the way.
-/

namespace Namros.Library

/-- The byte encoding of typed keys. -/
structure KeyCode (κ : Type) where
  encode : κ → Bytes
  nonempty : ∀ k, encode k ≠ []

namespace OrderedStore

variable {κ : Type} {V : κ → Type} (code : KeyCode κ)

/-- The stored keys whose encoding satisfies `P`, in encoded order. -/
def keysWhere (P : Bytes → Bool) (s : AList V) : List κ :=
  (s.keys.filter fun k => P (code.encode k)).insertionSort
    fun a b => code.encode a ≤ code.encode b

/-- No two stored keys that satisfy `P` have one encoding. -/
def Distinct (P : Bytes → Bool) (s : AList V) : Prop :=
  ∀ a ∈ s, ∀ b ∈ s, P (code.encode a) → P (code.encode b) →
    code.encode a = code.encode b → a = b

variable {code} {P Q : Bytes → Bool} {s t : AList V} {k : κ} {i limit : Nat}
  {start cursor stop p : Bytes}

@[simp] theorem mem_keysWhere : k ∈ keysWhere code P s ↔ k ∈ s ∧ P (code.encode k) := by
  simp [keysWhere, AList.mem_keys]

theorem keysWhere_congr_selection (agree : ∀ k, P (code.encode k) = Q (code.encode k)) :
    keysWhere code P s = keysWhere code Q s := by
  simp only [keysWhere, agree]

theorem keysWhere_eq_nil (empty : ∀ x, P x = false) : keysWhere code P s = [] := by
  simp [keysWhere, empty]

theorem keysWhere_nodup : (keysWhere code P s).Nodup :=
  (List.perm_insertionSort _ _).nodup_iff.mpr (s.keys_nodup.filter _)

theorem keysWhere_sorted :
    (keysWhere code P s).Pairwise fun a b => code.encode a ≤ code.encode b := by
  have : Std.Total fun a b : κ => code.encode a ≤ code.encode b :=
    ⟨fun a b => le_total (code.encode a) (code.encode b)⟩
  have : IsTrans κ fun a b => code.encode a ≤ code.encode b := ⟨fun _ _ _ => le_trans⟩
  exact List.pairwise_insertionSort _ _

theorem Distinct.keysWhere_strict (distinct : Distinct code P s) :
    (keysWhere code P s).Pairwise fun a b => code.encode a < code.encode b := by
  have nodup : (keysWhere code P s).Nodup := keysWhere_nodup
  refine List.Pairwise.imp_of_mem ?_ (keysWhere_sorted.and nodup)
  intro a b ma mb related
  refine lt_of_le_of_ne related.1 fun same => related.2 ?_
  rw [mem_keysWhere] at ma mb
  exact distinct a ma.1 b mb.1 ma.2 mb.2 same

private theorem eq_of_mem_iff {l₁ l₂ : List κ} (nodup₁ : l₁.Nodup) (nodup₂ : l₂.Nodup)
    (sorted₁ : l₁.Pairwise fun a b => code.encode a ≤ code.encode b)
    (sorted₂ : l₂.Pairwise fun a b => code.encode a ≤ code.encode b)
    (members : ∀ k, k ∈ l₁ ↔ k ∈ l₂)
    (distinct : ∀ a ∈ l₁, ∀ b ∈ l₁, code.encode a = code.encode b → a = b) : l₁ = l₂ := by
  have perm : l₁.Perm l₂ := (List.perm_ext_iff_of_nodup nodup₁ nodup₂).mpr members
  refine List.Perm.eq_of_pairwise ?_ sorted₁ sorted₂ perm
  intro a b ma mb forth back
  exact distinct a ma b ((members b).mpr mb) (le_antisymm forth back)

/-- The listing depends only on which selected keys are present. -/
theorem Distinct.keysWhere_congr (distinct : Distinct code P s)
    (members : ∀ k, P (code.encode k) → (k ∈ s ↔ k ∈ t)) :
    keysWhere code P s = keysWhere code P t := by
  refine eq_of_mem_iff keysWhere_nodup keysWhere_nodup keysWhere_sorted keysWhere_sorted ?_ ?_
  · intro k
    rw [mem_keysWhere, mem_keysWhere]
    exact and_congr_left fun selected => members k selected
  · intro a ma b mb same
    rw [mem_keysWhere] at ma mb
    exact distinct a ma.1 b mb.1 ma.2 mb.2 same

/-- Selecting further is filtering the listing. -/
theorem Distinct.filter_keysWhere (distinct : Distinct code P s) :
    (keysWhere code P s).filter (fun k => Q (code.encode k)) =
      keysWhere code (fun x => P x && Q x) s := by
  refine eq_of_mem_iff (keysWhere_nodup.filter _) keysWhere_nodup (keysWhere_sorted.filter _)
    keysWhere_sorted ?_ ?_
  · intro k
    simp only [List.mem_filter, mem_keysWhere, Bool.and_eq_true, and_assoc]
  · intro a ma b mb same
    rw [List.mem_filter, mem_keysWhere] at ma mb
    exact distinct a ma.1.1 b mb.1.1 ma.1.2 mb.1.2 same

private theorem filter_above {r : κ → κ → Prop} [DecidableRel r] (asymm : ∀ a b, r a b → ¬ r b a)
    {l : List κ} (sorted : l.Pairwise r) (inside : i < l.length) :
    l.filter (fun k => decide (r (l.get ⟨i, inside⟩) k)) = l.drop (i + 1) := by
  induction l generalizing i with
  | nil => simp at inside
  | cons a l ih =>
    obtain ⟨below, rest⟩ := List.pairwise_cons.mp sorted
    cases i with
    | zero =>
      have self : ¬ r a a := fun h => asymm a a h h
      simp only [List.get_eq_getElem, List.getElem_cons_zero, Nat.zero_add,
        List.drop_succ_cons, List.drop_zero, List.filter_cons, self, decide_false,
        Bool.false_eq_true, if_false]
      exact List.filter_eq_self.mpr fun k member => decide_eq_true (below k member)
    | succ i =>
      have inside' : i < l.length := Nat.lt_of_succ_lt_succ inside
      have notAbove : ¬ r (l.get ⟨i, inside'⟩) a := asymm _ _ (below _ (List.get_mem l ⟨i, inside'⟩))
      simp only [List.get_eq_getElem, List.getElem_cons_succ, List.drop_succ_cons,
        List.filter_cons]
      rw [if_neg (by simpa using notAbove)]
      exact ih rest inside'

theorem Distinct.mono (distinct : Distinct code P s) (implied : ∀ x, Q x → P x)
    (members : ∀ k, Q (code.encode k) → k ∈ t → k ∈ s) : Distinct code Q t :=
  fun a ma b mb qa qb => distinct a (members a qa ma) b (members b qb mb) (implied _ qa)
    (implied _ qb)

/-! ## One listing -/

section Listing

variable (code)

/-- The first `limit` keys, with the last of them as the next cursor when the limit was
reached. -/
def page (limit : Nat) (keys : List κ) : List κ × Bytes :=
  (keys.take limit,
    if limit ≤ keys.length then ((keys.take limit).getLast?.map code.encode).getD [] else [])

/-- The keys from `start` up to `stop` (unbounded when empty), as the store's iterator
meets them before it leaves `required`. -/
def iterate (start stop required : Bytes) (s : AList V) : List κ :=
  (keysWhere code (fun x => decide (start ≤ x) && (stop.isEmpty || decide (x < stop))) s).takeWhile
    fun k => required.isPrefixOf (code.encode k)

/-- One listing of `[start, stop)` after `cursor`. A cursor below `start` is ignored, one at
or above `stop` ends the listing. -/
def listRange (start stop cursor : Bytes) (limit : Nat) (required : Bytes) (s : AList V) :
    List κ × Bytes :=
  let limit := if limit = 0 then 128 else limit
  if stop ≠ [] ∧ stop ≤ start then ([], [])
  else if cursor ≠ [] ∧ start ≤ cursor ∧ (stop = [] ∨ cursor < stop) then
    page code limit (iterate code (cursor ++ [0]) stop required s)
  else if cursor ≠ [] ∧ stop ≠ [] ∧ stop ≤ cursor then ([], [])
  else page code limit (iterate code start stop required s)

/-- One listing of the keys with a given prefix. -/
def list (p cursor : Bytes) (limit : Nat) (s : AList V) : List κ × Bytes :=
  listRange code p (Bytes.prefixRangeEnd p) cursor limit p s

variable {code}

theorem page_nil (positive : 0 < limit) : page code limit ([] : List κ) = ([], []) := by
  simp [page, Nat.not_le.mpr positive]

theorem iterate_unrequired (start stop : Bytes) :
    iterate code start stop [] s = keysWhere code
      (fun x => decide (start ≤ x) && (stop.isEmpty || decide (x < stop))) s :=
  List.takeWhile_eq_self_iff.mpr fun _ _ => rfl

/-- The keys from `start` up to `stop` (unbounded when empty) above a cursor. -/
def rangeAfter (start cursor stop x : Bytes) : Bool :=
  decide (start ≤ x) && decide (cursor < x) && (stop.isEmpty || decide (x < stop))

theorem rangeAfter_iff {x : Bytes} (bounded : stop ≠ []) :
    rangeAfter start cursor stop x = true ↔ start ≤ x ∧ cursor < x ∧ x < stop := by
  have nonempty : stop.isEmpty = false := by simpa using bounded
  simp [rangeAfter, nonempty, and_assoc]

/-- The range of a prefix selects the keys with that prefix. -/
theorem keysWhere_prefixRange (ends : Bytes.prefixRangeEnd p ≠ []) :
    keysWhere code (rangeAfter p [] (Bytes.prefixRangeEnd p)) s =
      keysWhere code (fun x => p.isPrefixOf x) s := by
  refine keysWhere_congr_selection fun k => ?_
  rw [Bool.eq_iff_iff, rangeAfter_iff ends, List.isPrefixOf_iff_prefix, Bytes.isPrefix_iff_range]
  constructor
  · rintro ⟨from_, -, upto⟩
    exact ⟨from_, .inr upto⟩
  · rintro ⟨from_, unbounded | upto⟩
    · exact absurd unbounded ends
    · exact ⟨from_, Bytes.nil_lt (code.nonempty k), upto⟩

/-- From a key of a range on, behind every key that starts as it does. -/
theorem Distinct.keysWhere_skip (bounded : stop ≠ [])
    (distinct : Distinct code (rangeAfter start cursor stop) s) (ends : Bytes.prefixRangeEnd p ≠ [])
    (reached : k ∈ keysWhere code (rangeAfter start cursor stop) s) (starts : p <+: code.encode k) :
    keysWhere code (rangeAfter (Bytes.prefixRangeEnd p) [] stop) s =
      (keysWhere code (rangeAfter start cursor stop) s).filter fun j =>
        decide (p < code.encode j) && !decide (p <+: code.encode j) := by
  have inside := (rangeAfter_iff bounded).mp (mem_keysWhere.mp reached).2
  have further := distinct.filter_keysWhere (Q := fun x => decide (p < x) && !decide (p <+: x))
  refine Eq.trans (keysWhere_congr_selection fun j => ?_) further.symm
  rw [Bool.eq_iff_iff, Bool.and_eq_true, rangeAfter_iff bounded, rangeAfter_iff bounded,
    Bytes.prefixRangeEnd_le_iff ends]
  simp only [Bool.and_eq_true, decide_eq_true_eq, Bool.not_eq_true', decide_eq_false_iff_not]
  constructor
  · rintro ⟨⟨above, outside⟩, -, upto⟩
    -- a key behind the prefix range is above every key that starts with the prefix
    have later : code.encode k < code.encode j := by
      by_contra notAbove
      exact outside (Bytes.isPrefix_of_between (le_of_lt above) (not_lt.mp notAbove) starts)
    exact ⟨⟨inside.1.trans (le_of_lt later), inside.2.1.trans later, upto⟩, above, outside⟩
  · rintro ⟨⟨-, -, upto⟩, above, outside⟩
    exact ⟨⟨above, outside⟩, Bytes.nil_lt (code.nonempty j), upto⟩

/-- Without a required prefix a listing is a page of the keys of the range above the cursor. -/
theorem listRange_eq (positive : 0 < limit) :
    listRange code start stop cursor limit [] s =
      page code limit (keysWhere code (rangeAfter start cursor stop) s) := by
  have none (R : Bytes → Bool) (empty : ∀ x, R x = false) :
      page code limit (keysWhere code R s) = ([], []) := by
    rw [keysWhere_eq_nil empty, page_nil positive]
  unfold listRange rangeAfter
  simp only [iterate_unrequired, Nat.ne_of_gt positive, if_false]
  split
  · rename_i crossed
    refine (none _ fun x => ?_).symm
    have bounded : stop.isEmpty = false := by simpa using crossed.1
    have disjoint : ¬ (start ≤ x ∧ x < stop) := fun h =>
      absurd (lt_of_le_of_lt h.1 h.2) (not_lt.mpr crossed.2)
    simp only [bounded, Bool.false_or, Bool.and_eq_false_iff, decide_eq_false_iff_not]
    tauto
  · split
    · rename_i inside
      congr 3
      funext x
      have above : cursor ++ [0] ≤ x ↔ start ≤ x ∧ cursor < x := by
        rw [← Bytes.lt_iff_append_zero_le]
        exact ⟨fun h => ⟨le_trans inside.2.1 (le_of_lt h), h⟩, fun h => h.2⟩
      simp only [above, Bool.decide_and]
    · split
      · rename_i beyond
        refine (none _ fun x => ?_).symm
        have bounded : stop.isEmpty = false := by simpa using beyond.2.1
        have disjoint : ¬ (cursor < x ∧ x < stop) := fun h =>
          absurd (lt_trans h.1 h.2) (not_lt.mpr beyond.2.2)
        simp only [bounded, Bool.false_or, Bool.and_eq_false_iff, decide_eq_false_iff_not]
        tauto
      · rename_i notInside notBeyond
        congr 1
        refine keysWhere_congr_selection fun k => ?_
        have above : start ≤ code.encode k → (stop = [] ∨ code.encode k < stop) →
            cursor < code.encode k := by
          intro from_ upto
          by_cases absent : cursor = []
          · subst absent
            exact Bytes.nil_lt (code.nonempty k)
          by_cases lower : start ≤ cursor
          · exfalso
            by_cases unbounded : stop = []
            · exact notInside ⟨absent, lower, Or.inl unbounded⟩
            · by_cases within : cursor < stop
              · exact notInside ⟨absent, lower, Or.inr within⟩
              · exact notBeyond ⟨absent, unbounded, not_lt.mp within⟩
          · exact lt_of_lt_of_le (not_le.mp lower) from_
        rw [Bool.eq_iff_iff]
        simp only [Bool.and_eq_true, Bool.or_eq_true, decide_eq_true_eq, List.isEmpty_iff]
        exact ⟨fun h => ⟨⟨h.1, above h.1 h.2⟩, h.2⟩, fun h => ⟨h.1.1, h.2⟩⟩

/-- Selected by prefix, above a cursor. -/
def afterCursor (p cursor x : Bytes) : Bool :=
  p.isPrefixOf x && decide (cursor < x)

/-- A prefix listing is a page of the keys with that prefix above the cursor. -/
theorem list_eq (positive : 0 < limit) :
    list code p cursor limit s = page code limit (keysWhere code (afterCursor p cursor) s) := by
  have inPrefix (x : Bytes) : (p.isPrefixOf x = true) ↔
      p ≤ x ∧ (Bytes.prefixRangeEnd p = [] ∨ x < Bytes.prefixRangeEnd p) := by
    rw [List.isPrefixOf_iff_prefix, Bytes.isPrefix_iff_range]
  -- every key the iterator meets has the prefix, so the required prefix never stops it
  have unfiltered (start : Bytes) (above : p ≤ start) :
      iterate code start (Bytes.prefixRangeEnd p) p s =
        iterate code start (Bytes.prefixRangeEnd p) [] s := by
    rw [iterate_unrequired]
    refine List.takeWhile_eq_self_iff.mpr fun k member => ?_
    simp only [mem_keysWhere, Bool.and_eq_true, Bool.or_eq_true, decide_eq_true_eq,
      List.isEmpty_iff] at member
    exact (inPrefix _).mpr ⟨le_trans above member.2.1, member.2.2⟩
  have relaxed : list code p cursor limit s =
      listRange code p (Bytes.prefixRangeEnd p) cursor limit [] s := by
    unfold list listRange
    dsimp only
    split
    · rfl
    split
    · rename_i inside
      have above : p ≤ cursor ++ [0] :=
        le_trans inside.2.1 (le_of_lt (Bytes.lt_iff_append_zero_le.mpr (le_refl _)))
      rw [unfiltered _ above]
    · rw [unfiltered p (le_refl _)]
  rw [relaxed, listRange_eq positive]
  congr 1
  refine keysWhere_congr_selection fun k => ?_
  rw [Bool.eq_iff_iff]
  simp only [afterCursor, rangeAfter, Bool.and_eq_true, Bool.or_eq_true, decide_eq_true_eq,
    List.isEmpty_iff, inPrefix]
  tauto

theorem afterCursor_nil (p : Bytes) (k : κ) :
    afterCursor p [] (code.encode k) = p.isPrefixOf (code.encode k) := by
  simp [afterCursor, Bytes.nil_lt (code.nonempty k)]

theorem Distinct.above {next : Bytes} (distinct : Distinct code (afterCursor p cursor) s)
    (above : cursor < next) : Distinct code (afterCursor p next) s := by
  refine distinct.mono (fun x selected => ?_) fun _ _ m => m
  simp only [afterCursor, Bool.and_eq_true, decide_eq_true_eq] at selected ⊢
  exact ⟨selected.1, lt_trans above selected.2⟩

/-- A page either ends the listing or leaves exactly the keys above its cursor, which is
the last key of the page. -/
theorem page_selected (positive : 0 < limit) (distinct : Distinct code P s) :
    let keys := keysWhere code P s
    ((page code limit keys).2 = [] ∧ keys.length < limit) ∨
      (limit ≤ keys.length ∧ (∃ k ∈ keys, (page code limit keys).2 = code.encode k) ∧
        keysWhere code (fun x => P x && decide ((page code limit keys).2 < x)) s =
          keys.drop limit) := by
  intro keys
  by_cases full : limit ≤ keys.length
  · right
    have inside : limit - 1 < keys.length := by omega
    have next : (page code limit keys).2 = code.encode (keys.get ⟨limit - 1, inside⟩) := by
      have last : (keys.take limit).getLast? = some (keys.get ⟨limit - 1, inside⟩) := by
        rw [List.getLast?_take, if_neg (Nat.ne_of_gt positive), List.getElem?_eq_getElem inside]
        rfl
      simp [page, full, last]
    -- what the listing leaves out are the keys above its last one
    have rest := filter_above (fun a b h => lt_asymm h) distinct.keysWhere_strict inside
    rw [Nat.sub_add_cancel positive] at rest
    rw [next, ← distinct.filter_keysWhere]
    exact ⟨full, ⟨_, List.get_mem keys _, rfl⟩, rest⟩
  · left
    exact ⟨by simp [page, full], Nat.lt_of_not_le full⟩

/-- A page of a prefix listing. -/
theorem page_next (positive : 0 < limit) (distinct : Distinct code (afterCursor p cursor) s) :
    let keys := keysWhere code (afterCursor p cursor) s
    ((page code limit keys).2 = [] ∧ keys.length < limit) ∨
      ((page code limit keys).2 ≠ [] ∧ limit ≤ keys.length ∧ cursor < (page code limit keys).2 ∧
        keysWhere code (afterCursor p (page code limit keys).2) s = keys.drop limit) := by
  intro keys
  refine (page_selected positive distinct).imp_right ?_
  rintro ⟨full, ⟨k, member, next⟩, rest⟩
  have above := (mem_keysWhere.mp member).2
  simp only [afterCursor, Bool.and_eq_true, decide_eq_true_eq] at above
  change (page code limit keys).2 = _ at next
  change keysWhere code (fun x => _ && decide ((page code limit keys).2 < x)) s = _ at rest
  rw [next] at rest ⊢
  refine ⟨code.nonempty k, full, above.2, ?_⟩
  rw [← rest]
  refine keysWhere_congr_selection fun j => ?_
  rw [Bool.eq_iff_iff]
  simp only [afterCursor, Bool.and_eq_true, decide_eq_true_eq]
  constructor
  · exact fun h => ⟨⟨h.1, lt_trans above.2 h.2⟩, h.2⟩
  · exact fun h => ⟨h.1.1, h.2⟩

end Listing

/-! ## Following cursors -/

section Pages

variable (code)

/-- The keys met by listing page after page until no cursor is returned. -/
def scanPages (p : Bytes) (limit : Nat) (s : AList V) : Nat → Bytes → List κ
  | 0, _ => []
  | fuel + 1, cursor =>
    let listed := list code p cursor limit s
    listed.1 ++ if listed.2 = [] then [] else scanPages p limit s fuel listed.2

/-- The keys with prefix `p`, listed `limit` at a time. -/
def scan (p : Bytes) (limit : Nat) (s : AList V) : List κ :=
  scanPages code p limit s (s.keys.length + 1) []

/-- Page after page, `visit` every listed key; `visit` may change the store. -/
def visitPages (visit : κ → AList V → AList V) (p : Bytes) (limit : Nat) :
    Nat → Bytes → AList V → AList V
  | 0, _, s => s
  | fuel + 1, cursor, s =>
    let listed := list code p cursor limit s
    let visited := listed.1.foldl (fun s k => visit k s) s
    if listed.2 = [] then visited else visitPages visit p limit fuel listed.2 visited

/-- Visit every key with prefix `p`. -/
def visitAll (visit : κ → AList V → AList V) (p : Bytes) (limit : Nat) (s : AList V) : AList V :=
  visitPages code visit p limit (s.keys.length + 1) [] s

variable {code}

theorem keysWhere_length_le : (keysWhere code P s).length ≤ s.keys.length := by
  simp only [keysWhere, List.length_insertionSort]
  exact List.length_filter_le _ _

theorem scanPages_eq (positive : 0 < limit) (fuel : Nat) (cursor : Bytes)
    (distinct : Distinct code (afterCursor p cursor) s)
    (enough : (keysWhere code (afterCursor p cursor) s).length < fuel) :
    scanPages code p limit s fuel cursor = keysWhere code (afterCursor p cursor) s := by
  induction fuel generalizing cursor with
  | zero => exact absurd enough (Nat.not_lt_zero _)
  | succ fuel ih =>
    simp only [scanPages, list_eq positive]
    rcases page_next positive distinct with ⟨last, short⟩ | ⟨more, full, above, rest⟩
    · rw [if_pos last, List.append_nil]
      exact List.take_of_length_le (Nat.le_of_lt short)
    rw [if_neg more, ih _ (distinct.above above), rest]
    · exact List.take_append_drop _ _
    · rw [rest, List.length_drop]
      omega

theorem keysWhere_afterCursor_nil :
    keysWhere code (afterCursor p []) s = keysWhere code (fun x => p.isPrefixOf x) s :=
  keysWhere_congr_selection fun k => afterCursor_nil p k

theorem distinct_afterCursor_nil (distinct : Distinct code (fun x => p.isPrefixOf x) s) :
    Distinct code (afterCursor p []) s := by
  refine distinct.mono (fun x selected => ?_) fun _ _ m => m
  simp only [afterCursor, Bool.and_eq_true] at selected
  exact selected.1

/-- Following cursors lists every key with the prefix once, in order. -/
theorem scan_eq (positive : 0 < limit) (distinct : Distinct code (fun x => p.isPrefixOf x) s) :
    scan code p limit s = keysWhere code (fun x => p.isPrefixOf x) s := by
  rw [scan, scanPages_eq positive _ _ (distinct_afterCursor_nil distinct)
    (Nat.lt_succ_of_le keysWhere_length_le), keysWhere_afterCursor_nil]

section Visit

variable {visit : κ → AList V → AList V} {p : Bytes}

/-- Visiting a key leaves the presence of the other keys with prefix `p` alone. -/
def VisitsOnly (code : KeyCode κ) (visit : κ → AList V → AList V) (p : Bytes) : Prop :=
  ∀ k k' s, p.isPrefixOf (code.encode k') → k' ≠ k → (k' ∈ visit k s ↔ k' ∈ s)

private theorem VisitsOnly.foldl_mem (only : VisitsOnly code visit p)
    (selected : p.isPrefixOf (code.encode k)) {keys : List κ} (absent : k ∉ keys) :
    k ∈ keys.foldl (fun s k => visit k s) s ↔ k ∈ s := by
  induction keys generalizing s with
  | nil => rfl
  | cons a keys ih =>
    rw [List.mem_cons, not_or] at absent
    rw [List.foldl_cons, ih absent.2, only a k s selected absent.1]

theorem VisitsOnly.visitPages_eq (only : VisitsOnly code visit p) (positive : 0 < limit)
    (fuel : Nat) (cursor : Bytes) (distinct : Distinct code (afterCursor p cursor) s)
    (enough : (keysWhere code (afterCursor p cursor) s).length < fuel) :
    visitPages code visit p limit fuel cursor s =
      (keysWhere code (afterCursor p cursor) s).foldl (fun s k => visit k s) s := by
  induction fuel generalizing cursor s with
  | zero => exact absurd enough (Nat.not_lt_zero _)
  | succ fuel ih =>
    simp only [visitPages, list_eq positive]
    rcases page_next positive distinct with ⟨last, short⟩ | ⟨more, full, above, rest⟩
    · rw [if_pos last]
      simp only [page, List.take_of_length_le (Nat.le_of_lt short)]
    have nodup : (keysWhere code (afterCursor p cursor) s).Nodup := keysWhere_nodup
    generalize shape : keysWhere code (afterCursor p cursor) s = keys at *
    generalize reached : (page code limit keys).2 = next at *
    -- a key above the reached cursor was not visited, so its presence is unchanged
    have unvisited : ∀ k, afterCursor p next (code.encode k) →
        (k ∈ (keys.take limit).foldl (fun s k => visit k s) s ↔ k ∈ s) := by
      intro k selected
      by_cases present : k ∈ keys.take limit
      · exfalso
        have dropped : k ∈ keys.drop limit := by
          rw [← rest, mem_keysWhere]
          have inside := List.mem_of_mem_take present
          rw [← shape, mem_keysWhere] at inside
          exact ⟨inside.1, selected⟩
        exact List.disjoint_take_drop nodup (le_refl limit) present dropped
      · simp only [afterCursor, Bool.and_eq_true] at selected
        exact only.foldl_mem selected.1 present
    have distinct' : Distinct code (afterCursor p next)
        ((keys.take limit).foldl (fun s k => visit k s) s) :=
      (distinct.above above).mono (fun _ h => h) fun k selected m => (unvisited k selected).mp m
    have same : keysWhere code (afterCursor p next)
        ((keys.take limit).foldl (fun s k => visit k s) s) = keys.drop limit := by
      rw [distinct'.keysWhere_congr unvisited, rest]
    rw [if_neg more]
    simp only [page]
    rw [ih _ distinct' (by rw [same, List.length_drop]; omega), same, ← List.foldl_append,
      List.take_append_drop]

/-- Following cursors visits every key with the prefix once, in the order of the start state. -/
theorem VisitsOnly.visitAll_eq (only : VisitsOnly code visit p) (positive : 0 < limit)
    (distinct : Distinct code (fun x => p.isPrefixOf x) s) :
    visitAll code visit p limit s =
      (keysWhere code (fun x => p.isPrefixOf x) s).foldl (fun s k => visit k s) s := by
  rw [visitAll, only.visitPages_eq positive _ _ (distinct_afterCursor_nil distinct)
    (Nat.lt_succ_of_le keysWhere_length_le), keysWhere_afterCursor_nil]

end Visit

/-- What no visited key changes, a whole visit does not change. -/
theorem lookup_visitAll [DecidableEq κ] {visit : κ → AList V → AList V} (positive : 0 < limit)
    (kept : ∀ j s, p.isPrefixOf (code.encode j) → (visit j s).lookup k = s.lookup k) (s : AList V) :
    (visitAll code visit p limit s).lookup k = s.lookup k := by
  have fold (keys : List κ) (selected : ∀ j ∈ keys, p.isPrefixOf (code.encode j)) (s : AList V) :
      (keys.foldl (fun s k => visit k s) s).lookup k = s.lookup k := by
    induction keys generalizing s with
    | nil => rfl
    | cons j keys ih =>
      rw [List.foldl_cons, ih fun i m => selected i (List.mem_cons_of_mem _ m),
        kept j s (selected j List.mem_cons_self)]
  have pages (fuel : Nat) (cursor : Bytes) (s : AList V) :
      (visitPages code visit p limit fuel cursor s).lookup k = s.lookup k := by
    induction fuel generalizing cursor s with
    | zero => rfl
    | succ fuel ih =>
      have visited := fold (list code p cursor limit s).1 (fun j member => by
        rw [list_eq positive] at member
        have found := mem_keysWhere.mp (List.mem_of_mem_take member)
        simp only [afterCursor, Bool.and_eq_true] at found
        exact found.2.1) s
      unfold visitPages
      dsimp only
      split
      · exact visited
      · rw [ih, visited]
  exact pages _ _ s

end Pages

/-! ## Erasing several keys -/

section Erase

variable [DecidableEq κ]

def eraseAll (keys : List κ) (s : AList V) : AList V :=
  keys.foldl (fun s k => s.erase k) s

theorem lookup_eraseAll (k : κ) (keys : List κ) (s : AList V) :
    (eraseAll keys s).lookup k = if k ∈ keys then none else s.lookup k := by
  induction keys generalizing s with
  | nil => rfl
  | cons a keys ih =>
    rw [eraseAll, List.foldl_cons, ← eraseAll, ih]
    by_cases same : k = a
    · subst same
      simp
    · simp [same, AList.lookup_erase_ne same]

theorem visitsOnly_erase (code : KeyCode κ) (p : Bytes) :
    VisitsOnly code (fun k (s : AList V) => s.erase k) p := by
  intro k k' s _ differs
  simp [AList.mem_erase, differs]

end Erase

end OrderedStore

end Namros.Library
