import Mathlib.Data.List.Basic

/-!
# Following the pages of a listing

A server lists what comes after a token; a page holds at most `limit` entries, and a full
page is followed by the page after its last entry. A token may stand for too much: then the
page that follows it leaves entries out. The theorems say that following the pages ends,
repeats nothing, and lists everything exactly when no page ends with such a token.
-/

namespace Namros.Library

/-- A listing that can be resumed after each of its entries. Resuming never goes back, and
leaves out nothing unless the entry hides the one that follows it. -/
structure Pager (ε : Type) where
  after : Option ε → List ε
  Hides : ε → ε → Prop
  resumes : ∀ {token i x}, (after token)[i]? = some x →
    (after (some x)).Sublist ((after token).drop (i + 1))
  complete : ∀ {token i x y}, (after token)[i]? = some x → (after token)[i + 1]? = some y →
    (after (some x) = (after token).drop (i + 1) ↔ ¬ Hides x y)

namespace Pager

variable {ε : Type} (P : Pager ε)

/-- The pages of at most `limit` entries, each taken after the last entry of the one before
it. The first argument bounds the number of pages. -/
def pages (limit : Nat) : Nat → Option ε → Option (List (List ε))
  | 0, _ => none
  | fuel + 1, token =>
    let listed := P.after token
    if listed.length ≤ limit then some [listed]
    else
      match listed[limit - 1]? with
      | none => none
      | some last => (pages limit fuel (some last)).map (listed.take limit :: ·)

/-- No page ends with an entry that hides the first entry of the next one. -/
def Unhidden (limit : Nat) (listed : List ε) : Prop :=
  ∀ page, 0 < page → ∀ x y, listed[page * limit - 1]? = some x →
    listed[page * limit]? = some y → ¬ P.Hides x y

variable {P} {limit fuel : Nat} {token : Option ε} {x : ε}

/-- A full page, and what the server lists after it. -/
theorem next_page (positive : 0 < limit) (full : limit < (P.after token).length) :
    ∃ x y, (P.after token)[limit - 1]? = some x ∧ (P.after token)[limit]? = some y ∧
      (P.after (some x)).Sublist ((P.after token).drop limit) ∧
      (P.after (some x) = (P.after token).drop limit ↔ ¬ P.Hides x y) := by
  obtain ⟨x, last⟩ : ∃ x, (P.after token)[limit - 1]? = some x :=
    ⟨_, List.getElem?_eq_getElem (by omega)⟩
  obtain ⟨y, next⟩ : ∃ y, (P.after token)[limit]? = some y := ⟨_, List.getElem?_eq_getElem full⟩
  have shift : limit - 1 + 1 = limit := Nat.sub_add_cancel positive
  have resumed := P.resumes last
  have complete := P.complete last (by rwa [shift])
  rw [shift] at resumed complete
  exact ⟨x, y, last, next, resumed, complete⟩

/-- Following the pages ends. -/
theorem pages_end (positive : 0 < limit) (enough : (P.after token).length < fuel) :
    ∃ listed, P.pages limit fuel token = some listed := by
  induction fuel generalizing token with
  | zero => omega
  | succ fuel ih =>
    rw [pages]
    by_cases short : (P.after token).length ≤ limit
    · exact ⟨_, if_pos short⟩
    obtain ⟨x, y, last, -, resumed, -⟩ := next_page positive (Nat.lt_of_not_le short)
    have fewer := resumed.length_le
    rw [List.length_drop] at fewer
    have left : (P.after (some x)).length < fuel := by omega
    obtain ⟨listed, rest⟩ := ih left
    simp only [if_neg short, last, rest, Option.map_some]
    exact ⟨_, rfl⟩

/-- A full page is followed by the pages after its last entry. -/
theorem pages_full {listed : List (List ε)} (full : limit < (P.after token).length)
    (last : (P.after token)[limit - 1]? = some x)
    (followed : P.pages limit (fuel + 1) token = some listed) :
    ∃ rest, P.pages limit fuel (some x) = some rest ∧
      listed.flatten = (P.after token).take limit ++ rest.flatten := by
  rw [pages] at followed
  simp only [if_neg (Nat.not_le.mpr full), last, Option.map_eq_some_iff] at followed
  obtain ⟨rest, continued, rfl⟩ := followed
  exact ⟨rest, continued, List.flatten_cons⟩

/-- The pages list nothing twice and nothing that is not an entry. -/
theorem pages_sublist (positive : 0 < limit) {listed : List (List ε)}
    (followed : P.pages limit fuel token = some listed) :
    listed.flatten.Sublist (P.after token) := by
  induction fuel generalizing token listed with
  | zero => cases followed
  | succ fuel ih =>
    by_cases short : (P.after token).length ≤ limit
    · rw [pages, if_pos short] at followed
      cases followed
      simp
    have full := Nat.lt_of_not_le short
    obtain ⟨x, y, last, -, within, -⟩ := next_page positive full
    obtain ⟨rest, continued, whole⟩ := pages_full full last followed
    have later := (ih continued).trans within
    have joined := later.append_left ((P.after token).take limit)
    rw [List.take_append_drop] at joined
    rwa [whole]

/-- The end of the first page and the ends of the later ones. -/
theorem unhidden_iff (positive : 0 < limit) {listed : List ε} {y : ε}
    (last : listed[limit - 1]? = some x) (next : listed[limit]? = some y) :
    P.Unhidden limit listed ↔ ¬ P.Hides x y ∧ P.Unhidden limit (listed.drop limit) := by
  have shift : ∀ page, 0 < page →
      (listed.drop limit)[page * limit - 1]? = listed[(page + 1) * limit - 1]? ∧
      (listed.drop limit)[page * limit]? = listed[(page + 1) * limit]? := by
    intro page later
    have some_page : 0 < page * limit := Nat.mul_pos later positive
    have longer : (page + 1) * limit = page * limit + limit := Nat.succ_mul page limit
    rw [List.getElem?_drop, List.getElem?_drop, longer]
    exact ⟨congrArg (listed[·]?) (by omega), congrArg (listed[·]?) (by omega)⟩
  constructor
  · intro clear
    refine ⟨clear 1 Nat.one_pos x y (by rwa [Nat.one_mul]) (by rwa [Nat.one_mul]), ?_⟩
    intro page later u v before after
    rw [(shift page later).1] at before
    rw [(shift page later).2] at after
    exact clear (page + 1) (Nat.succ_pos page) u v before after
  · rintro ⟨first, others⟩ page later u v before after
    rcases Nat.lt_or_ge 1 page with many | one
    · obtain ⟨page, rfl⟩ : ∃ n, page = n + 1 := ⟨page - 1, by omega⟩
      have some_page : 0 < page := by omega
      rw [← (shift page some_page).1] at before
      rw [← (shift page some_page).2] at after
      exact others page some_page u v before after
    · obtain rfl : page = 1 := by omega
      rw [Nat.one_mul] at before after
      cases before.symm.trans last
      cases after.symm.trans next
      exact first

/-- Following the pages lists everything exactly when no page hides what follows it. -/
theorem pages_complete (positive : 0 < limit) {listed : List (List ε)}
    (followed : P.pages limit fuel token = some listed) :
    listed.flatten = P.after token ↔ P.Unhidden limit (P.after token) := by
  induction fuel generalizing token listed with
  | zero => cases followed
  | succ fuel ih =>
    by_cases short : (P.after token).length ≤ limit
    · rw [pages, if_pos short] at followed
      cases followed
      refine ⟨fun _ page later x y _ next => ?_, fun _ => by simp⟩
      obtain ⟨within, -⟩ := List.getElem?_eq_some_iff.mp next
      have longer : limit ≤ page * limit := Nat.le_mul_of_pos_left limit later
      omega
    · have full := Nat.lt_of_not_le short
      obtain ⟨x, y, last, next, within, exactly⟩ := next_page positive full
      obtain ⟨rest, continued, whole⟩ := pages_full full last followed
      have later := ih continued
      have sublist := pages_sublist positive continued
      rw [unhidden_iff positive last next, whole]
      constructor
      · intro all
        have tail : rest.flatten = (P.after token).drop limit := by
          rw [← List.append_cancel_left_eq ((P.after token).take limit), all,
            List.take_append_drop]
        have same : P.after (some x) = (P.after token).drop limit :=
          within.antisymm (tail ▸ sublist)
        exact ⟨exactly.mp same, same ▸ later.mp (tail.trans same.symm)⟩
      · rintro ⟨first, others⟩
        have same := exactly.mpr first
        rw [later.mpr (same ▸ others), same, List.take_append_drop]

/-- The ends of the pages, checked one by one. -/
theorem pageEnds_of_checked {listed : List ε} {clear : ε → ε → Prop} [∀ x, DecidablePred (clear x)]
    (positive : 0 < limit)
    (checked : decide (∀ page < listed.length, 0 < page → ∀ x ∈ listed[page * limit - 1]?,
      ∀ y ∈ listed[page * limit]?, clear x y) = true) :
    ∀ page, 0 < page → ∀ x y, listed[page * limit - 1]? = some x →
      listed[page * limit]? = some y → clear x y := by
  intro page later x y before after
  have inside := (List.getElem?_eq_some_iff.mp after).1
  have wider := Nat.le_mul_of_pos_right page positive
  exact of_decide_eq_true checked page (by omega) later x before y after

/-! ## Listings resumed with a tail of what follows -/

section Tails

variable [DecidableEq ε]

/-- What is listed after a token of `listed`. -/
def tailAfter (listed : List ε) (resume : ε → List ε) : Option ε → List ε
  | none => listed
  | some x => if x ∈ listed then resume x else []

variable {listed : List ε} {resume : ε → List ε}

theorem tailAfter_suffix (tails : ∀ {i x}, listed[i]? = some x → resume x <:+ listed.drop (i + 1))
    (token : Option ε) : tailAfter listed resume token <:+ listed := by
  cases token with
  | none => exact List.suffix_rfl
  | some x =>
    change (if x ∈ listed then resume x else []) <:+ listed
    split
    · rename_i member
      obtain ⟨i, found⟩ := List.mem_iff_getElem?.mp member
      exact (tails found).trans (List.drop_suffix _ _)
    · exact List.nil_suffix

/-- Where an entry that is listed after a token stands in the whole listing. -/
theorem tailAfter_drop (tails : ∀ {i x}, listed[i]? = some x → resume x <:+ listed.drop (i + 1))
    (token : Option ε) : ∃ n, tailAfter listed resume token = listed.drop n :=
  ⟨_, List.suffix_iff_eq_drop.mp (tailAfter_suffix tails token)⟩

/-- A listing without repetition that each entry resumes with a tail of what follows. -/
def ofTails (nodup : listed.Nodup)
    (tails : ∀ {i x}, listed[i]? = some x → resume x <:+ listed.drop (i + 1)) : Pager ε where
  after := tailAfter listed resume
  Hides x y := y ∉ resume x
  resumes := by
    intro token i x found
    obtain ⟨n, dropped⟩ := tailAfter_drop tails token
    rw [dropped, List.getElem?_drop] at found
    have member : x ∈ listed := List.mem_of_getElem? found
    rw [dropped, List.drop_drop]
    change (if x ∈ listed then resume x else []).Sublist _
    rw [if_pos member]
    exact (tails found).sublist
  complete := by
    intro token i x y found next
    obtain ⟨n, dropped⟩ := tailAfter_drop tails token
    rw [dropped, List.getElem?_drop] at found next
    have member : x ∈ listed := List.mem_of_getElem? found
    obtain ⟨inside, same⟩ := List.getElem?_eq_some_iff.mp next
    have follows : listed.drop (n + i + 1) = y :: listed.drop (n + i + 2) := by
      rw [← same]
      exact List.drop_eq_getElem_cons inside
    have tail := tails found
    rw [dropped, List.drop_drop]
    change (if x ∈ listed then resume x else []) = listed.drop (n + i + 1) ↔ _
    rw [if_pos member, follows, not_not]
    rw [follows] at tail
    constructor
    · intro all
      rw [all]
      exact List.mem_cons_self
    intro kept
    rcases List.suffix_cons_iff.mp tail with all | less
    · exact all
    · have once : (y :: listed.drop (n + i + 2)).Nodup := follows ▸ nodup.sublist (List.drop_sublist _ _)
      exact absurd (less.subset kept) (List.nodup_cons.mp once).1

end Tails

end Pager

/-! ## Clients -/

/-- A client that asks for page after page, as long as a page comes with a request for the
next one, and for at most `fuel` pages. -/
def followPagesWith {ρ π : Type} (serve : ρ → Option (π × Option ρ)) : Nat → ρ → Option (List π)
  | 0, _ => none
  | fuel + 1, req =>
    match serve req with
    | none => none
    | some (page, none) => some [page]
    | some (page, some next) => (followPagesWith serve fuel next).map (page :: ·)

/-- A client whose every page leads to a next one collects pages for ever. -/
theorem followPagesWith_endless {ρ π : Type} {serve : ρ → Option (π × Option ρ)} {R : ρ → Prop}
    (leads : ∀ req, R req → ∃ page next, serve req = some (page, some next) ∧ R next)
    (fuel : Nat) {req : ρ} (start : R req) : followPagesWith serve fuel req = none := by
  induction fuel generalizing req with
  | zero => rfl
  | succ fuel ih =>
    obtain ⟨page, next, served, again⟩ := leads req start
    simp [followPagesWith, served, ih again]

/-- If a server cuts its pages from the listing that a request stands for, a client collects
the pages of that listing. -/
theorem Pager.followPagesWith_eq {ε ρ π τ : Type} {P : Pager ε} {limit : Nat} {token : Option ε}
    {serve : ρ → Option (π × Option ρ)}
    (Serves : ρ → Option ε → Prop) {content : π → τ} {render : List ε → τ}
    (last : ∀ {req token}, Serves req token → (P.after token).length ≤ limit →
      ∃ page, serve req = some (page, none) ∧ content page = render (P.after token))
    (full : ∀ {req token x}, Serves req token → limit < (P.after token).length →
      (P.after token)[limit - 1]? = some x →
      ∃ page next, serve req = some (page, some next) ∧
        content page = render ((P.after token).take limit) ∧ Serves next (some x)) {req : ρ}
    (serves : Serves req token) (fuel : Nat) :
    (followPagesWith serve fuel req).map (·.map content) =
      (P.pages limit fuel token).map (·.map render) := by
  induction fuel generalizing req token with
  | zero => rfl
  | succ fuel ih =>
    rw [followPagesWith, pages]
    by_cases short : (P.after token).length ≤ limit
    · obtain ⟨page, served, shown⟩ := last serves short
      simp [served, short, shown]
    have more : limit < (P.after token).length := Nat.lt_of_not_le short
    obtain ⟨x, found⟩ : ∃ x, (P.after token)[limit - 1]? = some x :=
      ⟨_, List.getElem?_eq_getElem (by omega)⟩
    obtain ⟨page, next, served, shown, resumed⟩ := full serves more found
    have later := ih resumed
    simp only [served, if_neg short, found]
    rw [Option.map_map, Option.map_map]
    have joined := congrArg (Option.map (render ((P.after token).take limit) :: ·)) later
    rw [Option.map_map, Option.map_map] at joined
    rw [← shown] at joined
    simpa [Function.comp_def, shown] using joined

end Namros.Library
