import Mathlib.Data.Set.Basic
import Namros.Library.Glob
import Namros.Source.Policy

/-!
# Policy decisions

`PolicyDocument.Decide` against the matching of IAM. A deny overrides every allow in any order
of the statements. But actions and resources go through one test, which ignores case for both,
trims the pattern and knows `*` only as the whole pattern or at its end: a deny of
`b/*/private` denies nothing. The patterns read as IAM reads them are those without blanks at
their ends, without `?` and with `*` only as the last character.
-/

namespace Namros.Guarantees

open Library Source

/-- The Unicode tables behind `strings.EqualFold` and `strings.ToLower`: both go character by
character, tell ASCII characters apart that differ in more than case, and know no case of
blanks. -/
structure CaseTables (platform : Platform) where
  folds : Char → Char → Prop
  lower : Char → Char
  equalFold_iff : ∀ a b : String,
    platform.equalFold a b = true ↔ List.Forall₂ folds a.toList b.toList
  toLower_eq : ∀ a : String, (platform.toLower a).toList = a.toList.map lower
  refl : ∀ c, folds c c
  ascii : ∀ c d, c.toNat < 128 → d.toNat < 128 → folds c d ∨ lower c = lower d →
    c.toLower = d.toLower
  blank : ∀ c d, isSpace c = true → folds c d ∨ lower c = lower d → d = c

namespace CaseTables

variable {platform : Platform} (tables : CaseTables platform)

/-- Equal up to case by one of the tables. -/
def AnyCase (c d : Char) : Prop := tables.folds c d ∨ tables.lower c = tables.lower d

/-- Equal up to case by both. -/
def BothCases (c d : Char) : Prop := tables.folds c d ∧ tables.lower c = tables.lower d

/-- The statement matches as IAM has it: actions without case, resources with it. -/
structure IAMMatches (s : PolicyStatement) (principal : Principal)
    (action resource : String) : Prop where
  principals : principalMatches s.principals principal
  actions : ∃ p ∈ s.actions, GlobMatches tables.folds p.toList action.toList
  resources : ∃ p ∈ s.resources, GlobMatches Eq p.toList resource.toList

/-- Some allow matches and no deny does. -/
def IAMAllows (principal : Principal) (action resource : String) (p : PolicyDocument) : Prop :=
  (∃ s ∈ p.statements, s.effect = "Allow" ∧ tables.IAMMatches s principal action resource) ∧
    ∀ s ∈ p.statements, s.effect = "Deny" → ¬ tables.IAMMatches s principal action resource

/-- Case decides nothing about the request: a pattern of an action that matches up to case by
one table matches by both, and a pattern of a resource that matches up to case matches. -/
def CaseAside (p : PolicyDocument) (action resource : String) : Prop :=
  ∀ s ∈ p.statements,
    (∀ a ∈ s.actions, GlobMatches tables.AnyCase a.toList action.toList →
      GlobMatches tables.BothCases a.toList action.toList) ∧
    ∀ r ∈ s.resources, GlobMatches tables.AnyCase r.toList resource.toList →
      GlobMatches Eq r.toList resource.toList

end CaseTables

/-- The document allows and denies with these patterns and `*`. -/
def WrittenWith (actions resources : Set String) (p : PolicyDocument) : Prop :=
  ∀ s ∈ p.statements, (s.effect = "Allow" ∨ s.effect = "Deny") ∧
    (∀ a ∈ s.actions, a = "*" ∨ a ∈ actions) ∧ ∀ r ∈ s.resources, r = "*" ∨ r ∈ resources

/-- A pattern without blanks at its ends, and with no wildcard but a `*` as its last
character. -/
structure PlainPattern (pattern : String) : Prop where
  trimmed : trimSpace pattern = pattern
  nonempty : pattern ≠ ""
  noQuestionMark : '?' ∉ pattern.toList
  starLast : '*' ∉ pattern.toList.dropLast

variable {platform : Platform} (tables : CaseTables platform)

/-! ## One pattern -/

theorem forall₂_map_eq_iff {f : Char → Char} {p v : List Char} :
    List.Forall₂ (fun c d => f c = f d) p v ↔ p.map f = v.map f := by
  rw [← List.forall₂_eq_eq_eq, List.forall₂_map_left_iff, List.forall₂_map_right_iff]

theorem map_isPrefix_map_iff {f : Char → Char} {p v : List Char} :
    p.map f <+: v.map f ↔ ∃ u, u <+: v ∧ List.Forall₂ (fun c d => f c = f d) p u := by
  simp only [forall₂_map_eq_iff]
  constructor
  · intro starts
    refine ⟨v.take p.length, List.take_prefix _ _, ?_⟩
    rw [List.prefix_iff_eq_take.mp starts, List.length_map, List.map_take]
  · rintro ⟨u, ⟨w, rfl⟩, same⟩
    rw [same, List.map_append]
    exact List.prefix_append _ _

theorem rel_of_isPrefix {R : Char → Char → Prop} {l r r' u : List Char} {c d : Char}
    (alike : List.Forall₂ R (l ++ c :: r) u) (starts : u <+: l ++ d :: r') : R c d := by
  induction l generalizing u with
  | nil =>
    cases alike with
    | cons here _ =>
      obtain ⟨rfl, -⟩ := List.cons_prefix_cons.mp starts
      exact here
  | cons e l ih =>
    cases alike with
    | cons _ rest => exact ih rest (List.cons_prefix_cons.mp starts).2

section Pattern

variable {pattern value : String} {same : Char → Char → Prop}

/-- What `actionMatches` compares, once the pattern is trimmed. -/
theorem actionMatches_iff (trimmed : trimSpace pattern = pattern) (nonempty : pattern ≠ "") :
    actionMatches platform pattern value = true ↔
      pattern = "*" ∨ List.Forall₂ tables.folds pattern.toList value.toList ∨
        pattern.toList.getLast? = some '*' ∧ ∃ u, u <+: value.toList ∧
          List.Forall₂ (fun c d => tables.lower c = tables.lower d) pattern.toList.dropLast u := by
  rw [← map_isPrefix_map_iff, ← tables.equalFold_iff]
  unfold actionMatches
  simp only [trimmed, if_neg nonempty]
  by_cases all : pattern = "*"
  · simp [all]
  · by_cases folded : platform.equalFold pattern value = true
    · simp [folded]
    · by_cases star : pattern.toList.getLast? = some '*'
      · simp [all, folded, star, tables.toLower_eq]
      · simp [all, folded, star]

/-- What the code matches is a match up to case. -/
theorem globMatches_of_actionMatches (trimmed : trimSpace pattern = pattern)
    (nonempty : pattern ≠ "") (matched : actionMatches platform pattern value = true) :
    GlobMatches tables.AnyCase pattern.toList value.toList := by
  rcases (actionMatches_iff tables trimmed nonempty).mp matched with
    rfl | folded | ⟨star, u, ⟨w, rest⟩, lowered⟩
  · exact globMatches_star _
  · exact globMatches_of_forall₂ (folded.imp fun c d alike => .inr (.inr (.inl alike)))
  · obtain ⟨p, whole⟩ := List.getLast?_eq_some_iff.mp star
    rw [whole, List.dropLast_concat] at lowered
    rw [whole, ← rest]
    have start : GlobMatches tables.AnyCase p u :=
      globMatches_of_forall₂ (lowered.imp fun c d alike => .inr (.inr (.inr alike)))
    exact start.append (globMatches_star w)

/-- What a plain pattern matches whatever the table, the code matches. -/
theorem actionMatches_of_globMatches (plain : PlainPattern pattern)
    (matched : GlobMatches tables.BothCases pattern.toList value.toList) :
    actionMatches platform pattern value = true := by
  rw [actionMatches_iff tables plain.trimmed plain.nonempty]
  by_cases star : pattern.toList.getLast? = some '*'
  · obtain ⟨p, whole⟩ := List.getLast?_eq_some_iff.mp star
    have stars : '*' ∉ p := by simpa [whole] using plain.starLast
    have ones : '?' ∉ p := fun member => plain.noQuestionMark (by simp [whole, member])
    rw [whole, globMatches_append stars ones] at matched
    obtain ⟨u, w, split, alike, -⟩ := matched
    refine .inr (.inr ⟨star, u, ⟨w, split.symm⟩, ?_⟩)
    rw [whole, List.dropLast_concat]
    exact alike.imp fun c d both => both.2
  · have stars : '*' ∉ pattern.toList := by
      intro member
      rcases List.eq_nil_or_concat' pattern.toList with none | ⟨p, c, whole⟩
      · simp [none] at member
      · have inside := plain.starLast
        simp only [whole, List.dropLast_concat, List.getLast?_concat, Option.some.injEq,
          List.mem_append, List.mem_singleton] at inside star member
        exact member.elim inside (star ∘ Eq.symm)
    rw [← List.append_nil pattern.toList, globMatches_append stars plain.noQuestionMark] at matched
    obtain ⟨u, w, split, alike, rest⟩ := matched
    obtain rfl := globMatches_nil.mp rest
    rw [List.append_nil] at split
    rw [split]
    exact .inr (.inl (alike.imp fun c d both => both.1))

/-- A blank in front or at the end: the code matches the trimmed text, which the pattern itself
does not match. -/
theorem trimmed_not_matched (blanks : trimSpace pattern ≠ pattern) (rest : trimSpace pattern ≠ "") :
    actionMatches platform pattern (trimSpace pattern) = true ∧
      ¬ GlobMatches tables.AnyCase pattern.toList (trimSpace pattern).toList := by
  have twice : trimSpace (trimSpace pattern) = trimSpace pattern := by
    simp [trimSpace, trimText_trimText]
  have once : actionMatches platform pattern = actionMatches platform (trimSpace pattern) := by
    funext value
    simp only [actionMatches, twice]
  constructor
  · rw [once, actionMatches_iff tables twice rest]
    exact .inr (.inl (List.forall₂_same.mpr fun c _ => tables.refl c))
  · intro matched
    have plain {c : Char} (blank : isSpace c = true) : c ≠ '*' ∧ c ≠ '?' := by
      constructor <;> rintro rfl <;> exact absurd blank (by decide)
    obtain ⟨left, right, blankLeft, blankRight, split⟩ := exists_trimText isSpace pattern.toList
    have starts (c : Char) : (trimText isSpace pattern.toList).head? = some c → isSpace c = false :=
      head_trimText
    have ends (c : Char) : (trimText isSpace pattern.toList).getLast? = some c →
        isSpace c = false := getLast_trimText
    have text : (trimSpace pattern).toList = trimText isSpace pattern.toList := by simp [trimSpace]
    have changed : trimText isSpace pattern.toList ≠ pattern.toList := by
      simpa [← text, String.toList_inj] using blanks
    rw [text] at matched
    generalize trimText isSpace pattern.toList = kept at *
    rw [split] at matched changed
    cases left with
    | cons c left =>
      have blank := blankLeft c List.mem_cons_self
      rw [List.append_assoc, List.cons_append, globMatches_cons (plain blank)] at matched
      obtain ⟨d, w, rfl, alike, -⟩ := matched
      obtain rfl := tables.blank c d blank alike
      simp [starts d rfl] at blank
    | nil =>
      rcases List.eq_nil_or_concat' right with rfl | ⟨right, c, rfl⟩
      · simp at changed
      · have blank := blankRight c (by simp)
        rw [← List.append_assoc] at matched
        obtain ⟨d, last, alike⟩ := matched.getLast (plain blank)
        obtain rfl := tables.blank c d blank alike
        simp [ends d last] at blank

/-- A wildcard that is not a last `*` is compared as it stands. -/
theorem wildcard_not_matched (tables : CaseTables platform) (trimmed : trimSpace pattern = pattern)
    {l r : List Char} {w : Char} (whole : pattern.toList = l ++ w :: r)
    (wild : w = '?' ∨ w = '*' ∧ r ≠ []) :
    actionMatches platform pattern (String.ofList (l ++ 'x' :: r)) = false := by
  have nonempty : pattern ≠ "" := by
    rintro rfl
    simp at whole
  have apart : ¬ tables.AnyCase w 'x' := by
    rcases wild with rfl | ⟨rfl, -⟩
    · exact fun alike => absurd (tables.ascii '?' 'x' (by decide) (by decide) alike) (by decide)
    · exact fun alike => absurd (tables.ascii '*' 'x' (by decide) (by decide) alike) (by decide)
  rw [Bool.eq_false_iff, ne_eq, actionMatches_iff tables trimmed nonempty, String.toList_ofList,
    whole]
  rintro (rfl | folded | ⟨star, u, starts, lowered⟩)
  · -- a `*` alone has nothing behind it
    change ['*'] = l ++ w :: r at whole
    cases l with
    | nil =>
      obtain ⟨rfl, rfl⟩ := List.cons.inj whole
      simp at wild
    | cons c l => simp at whole
  · exact apart (.inl (rel_of_isPrefix folded (List.prefix_refl _)))
  · have inner : r ≠ [] := by
      rintro rfl
      rcases wild with rfl | ⟨-, none⟩
      · simp at star
      · exact none rfl
    rw [List.dropLast_append_of_ne_nil (by simp), List.dropLast_cons_of_ne_nil inner] at lowered
    have here := rel_of_isPrefix (R := fun c d => tables.lower c = tables.lower d) lowered starts
    exact apart (.inr here)

/-- Every other pattern is read differently from IAM for some text, and case has no part
in it. -/
theorem exists_misread (notPlain : ¬ PlainPattern pattern) (refl : ∀ c, same c c)
    (cased : ∀ c d, same c d → tables.AnyCase c d) : ∃ value : String,
    (GlobMatches tables.AnyCase pattern.toList value.toList →
      GlobMatches Eq pattern.toList value.toList) ∧
    ¬ (actionMatches platform pattern value = true ↔
      GlobMatches same pattern.toList value.toList) := by
  by_cases empty : trimSpace pattern = ""
  · refine ⟨pattern, fun _ => globMatches_self (fun _ => rfl) _, fun read => ?_⟩
    have unmatched : actionMatches platform pattern pattern = false := by simp [actionMatches, empty]
    exact Bool.false_ne_true (unmatched.symm.trans (read.mpr (globMatches_self refl _)))
  · by_cases trimmed : trimSpace pattern = pattern
    · rw [trimmed] at empty
      obtain ⟨l, w, r, whole, wild⟩ : ∃ l w r, pattern.toList = l ++ w :: r ∧
          (w = '?' ∨ w = '*' ∧ r ≠ []) := by
        by_contra none
        refine notPlain ⟨trimmed, empty, fun one => ?_, fun star => ?_⟩
        · obtain ⟨l, r, whole⟩ := List.append_of_mem one
          exact none ⟨l, _, r, whole, .inl rfl⟩
        · obtain ⟨l, r, whole⟩ := List.append_of_mem star
          have last := List.dropLast_append_getLast (String.toList_eq_nil_iff.not.mpr empty)
          rw [whole, List.append_assoc, List.cons_append] at last
          exact none ⟨l, _, _, last.symm, .inr ⟨rfl, by simp⟩⟩
      have matched {R : Char → Char → Prop} (refl : ∀ c, R c c) :
          GlobMatches R pattern.toList (l ++ 'x' :: r) := by
        rw [whole]
        apply globMatches_of_forall₂
        apply List.rel_append (List.forall₂_same.mpr fun c _ => .inr (.inr (refl c)))
        exact .cons (wild.elim (.inr ∘ .inl) fun star => .inl star.1)
          (List.forall₂_same.mpr fun c _ => .inr (.inr (refl c)))
      have unmatched := wildcard_not_matched tables trimmed whole wild
      refine ⟨String.ofList (l ++ 'x' :: r), fun _ => ?_, fun read => ?_⟩
      · simpa using matched fun _ => rfl
      · exact Bool.false_ne_true (unmatched.symm.trans (read.mpr (by simpa using matched refl)))
    · obtain ⟨matched, unmatched⟩ := trimmed_not_matched tables trimmed empty
      exact ⟨trimSpace pattern, fun alike => absurd alike unmatched,
        fun read => unmatched ((read.mp matched).imp cased)⟩

/-- A plain pattern is read as IAM reads it where case has no part in it. -/
theorem actionMatches_plain (plain : PlainPattern pattern)
    (cased : ∀ c d, same c d → tables.AnyCase c d) {strict : Char → Char → Prop}
    (strictly : ∀ c d, strict c d → same c d ∧ tables.BothCases c d)
    (aside : GlobMatches tables.AnyCase pattern.toList value.toList →
      GlobMatches strict pattern.toList value.toList) :
    actionMatches platform pattern value = true ↔
      GlobMatches same pattern.toList value.toList := by
  constructor
  · intro matched
    have any := globMatches_of_actionMatches tables plain.trimmed plain.nonempty matched
    exact (aside any).imp fun c d alike => (strictly c d alike).1
  · intro matched
    have both := (aside (matched.imp cased)).imp fun c d alike => (strictly c d alike).2
    exact actionMatches_of_globMatches tables plain both

end Pattern

/-! ## Documents -/

section Documents

variable {principal : Principal} {action resource : String}

/-- What the loop allows: nothing that a deny matches, and else what was allowed before it or an
allow matches. -/
theorem decideFrom_allowed (tables : CaseTables platform) (allowSid : Option String)
    {statements : List PolicyStatement}
    (effects : ∀ s ∈ statements, s.effect = "Allow" ∨ s.effect = "Deny") :
    (decideFrom platform principal action resource allowSid statements).allowed = true ↔
      (allowSid.isSome ∨ ∃ s ∈ statements, s.effect = "Allow" ∧
        s.matches platform principal action resource) ∧
      ∀ s ∈ statements, s.effect = "Deny" → s.matches platform principal action resource = false := by
  have folded (text : String) : platform.equalFold text text = true :=
    (tables.equalFold_iff _ _).mpr (List.forall₂_same.mpr fun c _ => tables.refl c)
  have differ : platform.equalFold "Allow" "Deny" = false := by
    rw [Bool.eq_false_iff, ne_eq, tables.equalFold_iff]
    exact fun alike => absurd alike.length_eq (by decide)
  induction statements generalizing allowSid with
  | nil => simp [decideFrom]
  | cons s statements ih =>
    obtain ⟨effect, effects⟩ := List.forall_mem_cons.mp effects
    rw [decideFrom]
    cases matched : s.matches platform principal action resource with
    | false => simp [ih _ effects, matched]
    | true =>
      rcases effect with allow | deny
      · simp [ih _ effects, matched, allow, differ, folded]
      · simp [matched, deny, folded]

variable {A R : Set String}

theorem plainPattern_star : PlainPattern "*" := by
  constructor <;> decide

/-- A statement of plain patterns matches as IAM has it. -/
theorem matches_iff {s : PolicyStatement} (actions : ∀ a ∈ s.actions, PlainPattern a)
    (resources : ∀ r ∈ s.resources, PlainPattern r)
    (aside : (∀ a ∈ s.actions, GlobMatches tables.AnyCase a.toList action.toList →
        GlobMatches tables.BothCases a.toList action.toList) ∧
      ∀ r ∈ s.resources, GlobMatches tables.AnyCase r.toList resource.toList →
        GlobMatches Eq r.toList resource.toList) :
    s.matches platform principal action resource = true ↔
      tables.IAMMatches s principal action resource := by
  have byAction : ∀ a ∈ s.actions, (actionMatches platform a action = true ↔
      GlobMatches tables.folds a.toList action.toList) := fun a member =>
    actionMatches_plain tables (actions a member) (fun _ _ => .inl)
      (fun _ _ both => ⟨both.1, both⟩) (aside.1 a member)
  have byResource : ∀ r ∈ s.resources, (actionMatches platform r resource = true ↔
      GlobMatches Eq r.toList resource.toList) := fun r member =>
    actionMatches_plain tables (resources r member) (fun c _ same => .inl (same ▸ tables.refl c))
      (fun c _ same => ⟨same, same ▸ ⟨tables.refl c, rfl⟩⟩) (aside.2 r member)
  simp only [PolicyStatement.matches, matchesAny, Bool.and_eq_true, List.any_eq_true]
  constructor
  · rintro ⟨⟨principals, a, memberA, matchedA⟩, r, memberR, matchedR⟩
    exact ⟨principals, ⟨a, memberA, (byAction a memberA).mp matchedA⟩,
      r, memberR, (byResource r memberR).mp matchedR⟩
  · rintro ⟨principals, ⟨a, memberA, matchedA⟩, r, memberR, matchedR⟩
    exact ⟨⟨principals, a, memberA, (byAction a memberA).mpr matchedA⟩,
      r, memberR, (byResource r memberR).mpr matchedR⟩

/-- Anyone may do these actions to these resources. -/
def anyoneMay (action resource : String) : PolicyDocument :=
  ⟨"", [{ effect := "Allow", principals := ["*"], actions := [action], resources := [resource] }]⟩

theorem anyoneMay_decided (tables : CaseTables platform) {a r : String}
    (decided : ((anyoneMay a r).decide platform principal action resource).allowed = true ↔
      tables.IAMAllows principal action resource (anyoneMay a r)) :
    actionMatches platform a action = true ∧ actionMatches platform r resource = true ↔
      GlobMatches tables.folds a.toList action.toList ∧ GlobMatches Eq r.toList resource.toList := by
  have anyone : principalMatches ["*"] principal = true := by
    have star : trimSpace "*" = "*" := by decide
    simp [principalMatches, star]
  have byIAM : tables.IAMAllows principal action resource (anyoneMay a r) ↔
      GlobMatches tables.folds a.toList action.toList ∧ GlobMatches Eq r.toList resource.toList := by
    constructor
    · rintro ⟨⟨s, member, -, -, matchedA, matchedR⟩, -⟩
      obtain rfl := List.mem_singleton.mp member
      exact ⟨by simpa using matchedA, by simpa using matchedR⟩
    · rintro ⟨matchedA, matchedR⟩
      refine ⟨⟨_, List.mem_singleton.mpr rfl, rfl, anyone, ?_, ?_⟩, by simp [anyoneMay]⟩
      · exact ⟨a, List.mem_singleton.mpr rfl, matchedA⟩
      · exact ⟨r, List.mem_singleton.mpr rfl, matchedR⟩
  rw [← byIAM, ← decided, PolicyDocument.decide, decideFrom_allowed tables none (by simp [anyoneMay])]
  simp [anyoneMay, PolicyStatement.matches, matchesAny, anyone]

theorem actionMatches_star (value : String) : actionMatches platform "*" value = true := by
  have star : trimSpace "*" = "*" := by decide
  simp [actionMatches, star]

end Documents

/-- A platform with the case of ASCII letters. -/
def asciiPlatform : Platform :=
  { plainPlatform with
    toLower := fun text => String.ofList (text.toList.map Char.toLower)
    equalFold := fun a b => a.toList.map Char.toLower == b.toList.map Char.toLower }

theorem toNat_toLower (c : Char) :
    c.toLower.toNat = if 65 ≤ c.toNat ∧ c.toNat ≤ 90 then c.toNat + 32 else c.toNat := by
  have upper : c.val ≥ 'A'.val ∧ c.val ≤ 'Z'.val ↔ 65 ≤ c.toNat ∧ c.toNat ≤ 90 := Iff.rfl
  unfold Char.toLower
  by_cases letter : 65 ≤ c.toNat ∧ c.toNat ≤ 90
  · rw [dif_pos (upper.mpr letter), if_pos letter]
    change (c.val.toNat + 32) % 2 ^ 32 = _
    change _ ≤ c.val.toNat ∧ c.val.toNat ≤ 90 at letter
    exact Nat.mod_eq_of_lt (by omega)
  · rw [dif_neg (upper.not.mpr letter), if_neg letter]

theorem toLower_blank {c d : Char} (blank : isSpace c = true) (alike : c.toLower = d.toLower) :
    d = c := by
  have code := congrArg Char.toNat alike
  have spaces : ¬ (65 ≤ c.toNat ∧ c.toNat ≤ 122) := by
    simp [isSpace] at blank
    omega
  apply Char.toNat_inj.mp
  have first := toNat_toLower c
  have second := toNat_toLower d
  split at first <;> split at second <;> omega

def asciiTables : CaseTables asciiPlatform where
  folds c d := c.toLower = d.toLower
  lower := Char.toLower
  equalFold_iff _ _ := beq_iff_eq.trans forall₂_map_eq_iff.symm
  toLower_eq _ := String.toList_ofList
  refl _ := rfl
  ascii _ _ _ _ alike := alike.elim id id
  blank _ _ blank alike := toLower_blank blank (alike.elim id id)

/-- Anyone may do anything, but not to the resources `b/*/p`. -/
def innerStar : PolicyDocument :=
  ⟨"", [{ effect := "Allow", principals := ["*"], actions := ["*"], resources := ["*"] },
    { effect := "Deny", principals := ["*"], actions := ["*"], resources := ["b/*/p"] }]⟩

end Namros.Guarantees
