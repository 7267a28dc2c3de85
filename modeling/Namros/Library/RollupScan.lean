import Namros.Library.Rollup
import Namros.Library.OrderedStore

/-!
# Scanning a range for a page of a rolled-up listing

A store lists a range of its keys batch by batch. Every key is read as a single entry, as a
member of a group, or as nothing; at the first member of a group the scan writes one entry for
the whole group and goes on behind the group's stem. It stops once there is one entry more
than the page holds. The theorem says that this collects the entries of the rolled-up listing
of the range, up to that one more.
-/

namespace Namros.Library

open Rollup OrderedStore

/-- How a scan reads the keys of a store. -/
structure RollupScan (κ ε γ : Type) where
  classify : κ → Option (ε ⊕ γ)
  rolled : γ → ε
  stem : γ → Bytes

namespace RollupScan

variable {κ ε γ : Type}

/-- What a scan has collected: entries, and the groups that have an entry. -/
structure Progress (ε γ : Type) where
  entries : List ε := []
  groups : List γ := []
deriving DecidableEq

/-- How the loop over one batch of keys ends: with more entries than a page holds, at a member
of a group, or at the end of the batch. -/
inductive BatchEnd (γ : Type)
  | full
  | skipTo (group : γ)
  | scanned
deriving DecidableEq

variable [DecidableEq γ] (S : RollupScan κ ε γ)

def addGroup (progress : Progress ε γ) (c : γ) : Progress ε γ :=
  if c ∈ progress.groups then progress
  else { entries := progress.entries ++ [S.rolled c], groups := c :: progress.groups }

/-- The loop over one batch of keys. -/
def collect (limit : Nat) : List κ → Progress ε γ → Progress ε γ × BatchEnd γ
  | [], progress => (progress, .scanned)
  | key :: keys, progress =>
    match S.classify key with
    | none => collect limit keys progress
    | some (.inr c) => (S.addGroup progress c, .skipTo c)
    | some (.inl entry) =>
      let progress := { progress with entries := progress.entries ++ [entry] }
      if limit < progress.entries.length then (progress, .full)
      else collect limit keys progress

variable {V : κ → Type} (code : KeyCode κ)

/-- The loop over the batches, for at most `fuel` of them. -/
def loop (limit : Nat) (stop : Bytes) (s : AList V) :
    Nat → Bytes → Bytes → Progress ε γ → Option (Progress ε γ)
  | 0, _, _, _ => none
  | fuel + 1, start, cursor, progress =>
    if limit < progress.entries.length then some progress
    else
      let (keys, next) := listRange code start stop cursor (limit + 1) [] s
      if keys = [] then some progress
      else
        match S.collect limit keys progress with
        | (progress, .full) => some progress
        | (progress, .skipTo c) =>
          if Bytes.prefixRangeEnd (S.stem c) ≠ [] then
            loop limit stop s fuel (Bytes.prefixRangeEnd (S.stem c)) [] progress
          else if next = [] then some progress
          else loop limit stop s fuel start next progress
        | (progress, .scanned) =>
          if next = [] then some progress
          else loop limit stop s fuel start next progress

/-! ## What is collected -/

/-- The scan reads the listed keys as the rolled-up listing `L` groups them. -/
structure Reads (L : Listing κ γ) (single : κ → ε) (stop : Bytes) (listed : κ → Prop)
    (s : AList V) : Prop where
  coded : ∀ k, L.code k = code.encode k
  stemmed : ∀ c, L.stem c = S.stem c
  ends : ∀ c, Bytes.prefixRangeEnd (S.stem c) ≠ []
  bounded : stop ≠ []
  classify : ∀ k, listed k → S.classify k =
    some (match L.group k with
      | some c => .inr c
      | none => .inl (single k))
  distinct : ∀ j ∈ s, ∀ k ∈ s, listed j → listed k → code.encode j = code.encode k → j = k

variable {S code} {L : Listing κ γ} {single : κ → ε} {stop : Bytes} {listed : κ → Prop}
  {s : AList V} {limit : Nat}

/-- The keys of the range behind `start` and `cursor`. -/
abbrev remaining (code : KeyCode κ) (stop start cursor : Bytes) (s : AList V) : List κ :=
  keysWhere code (rangeAfter start cursor stop) s

/-- The entries a page is cut from: what was collected before and what remains. -/
def pageEntries (S : RollupScan κ ε γ) (L : Listing κ γ) (single : κ → ε) (limit : Nat)
    (collected : List ε) (keys : List κ) : List ε :=
  (collected ++ (L.entries keys).map (Sum.elim single S.rolled)).take (limit + 1)

omit [DecidableEq γ] in
/-- A range that goes on beyond an entry of the listing under a prefix. -/
theorem remaining_beyond {p start cursor : Bytes} {x : κ ⊕ γ}
    (coded : ∀ k, L.code k = code.encode k)
    (distinct : Distinct code (fun y => p.isPrefixOf y) s) (bounded : Bytes.prefixRangeEnd p ≠ [])
    (resumes : ∀ k, start ≤ code.encode k ∧ cursor < code.encode k ↔
      p ≤ code.encode k ∧ L.place x < code.encode k ∧
        ¬ (L.closing x = true ∧ L.place x <+: code.encode k)) :
    remaining code (Bytes.prefixRangeEnd p) start cursor s =
      (keysWhere code (fun y => p.isPrefixOf y) s).filter (L.beyond x) := by
  have further := distinct.filter_keysWhere (Q := fun y =>
    decide (L.place x < y) && !(L.closing x && decide (L.place x <+: y)))
  simp only [← coded] at further
  refine Eq.trans (keysWhere_congr_selection fun k => ?_) further.symm
  have beyond := Listing.beyond_iff (L := L) (x := x) (a := k)
  rw [Listing.beyond, coded] at beyond
  rw [Bool.eq_iff_iff, Bool.and_eq_true, rangeAfter_iff bounded, List.isPrefixOf_iff_prefix,
    Bytes.isPrefix_iff_range, or_iff_right bounded, beyond, ← and_assoc, resumes k]
  tauto

theorem pageEntries_singles {singles : List κ} (alone : ∀ k ∈ singles, L.group k = none)
    (collected : List ε) (keys : List κ) :
    S.pageEntries L single limit collected (singles ++ keys) =
      S.pageEntries L single limit (collected ++ singles.map single) keys := by
  have joined := Listing.entries_append alone keys
  unfold pageEntries
  rw [joined, List.map_append, List.map_map, List.append_assoc]
  rfl

theorem pageEntries_full {collected : List ε} (full : collected.length = limit + 1)
    (keys : List κ) : S.pageEntries L single limit collected keys = collected := by
  unfold pageEntries
  rw [← full, List.take_left]

theorem pageEntries_end {collected : List ε} (short : collected.length ≤ limit + 1) :
    S.pageEntries L single limit collected [] = collected := by
  have nothing : L.entries [] = [] := rollup_nil
  unfold pageEntries
  rw [nothing, List.map_nil, List.append_nil, List.take_of_length_le short]

namespace Reads

variable (reading : S.Reads code L single stop listed s)

include reading

/-- A batch is read up to its end, up to the entry that overfills the page, or up to a member
of a group. -/
theorem collect_spec {keys : List κ} (members : ∀ k ∈ keys, listed k) {progress : Progress ε γ}
    (room : progress.entries.length ≤ limit)
    (fresh : ∀ c ∈ progress.groups, ∀ k ∈ keys, L.group k ≠ some c) :
    ∃ singles rest, keys = singles ++ rest ∧ (∀ k ∈ singles, L.group k = none) ∧
      let entries := progress.entries ++ singles.map single
      (rest = [] ∧ entries.length ≤ limit ∧
        S.collect limit keys progress = ({ progress with entries }, .scanned)) ∨
      (entries.length = limit + 1 ∧
        S.collect limit keys progress = ({ progress with entries }, .full)) ∨
      (∃ k c rest', rest = k :: rest' ∧ L.group k = some c ∧ entries.length ≤ limit ∧
        S.collect limit keys progress =
          ({ entries := entries ++ [S.rolled c], groups := c :: progress.groups }, .skipTo c)) := by
  induction keys generalizing progress with
  | nil =>
    refine ⟨[], [], rfl, fun k absent => absurd absent List.not_mem_nil, .inl ⟨rfl, ?_, ?_⟩⟩
    · simpa using room
    · simp [collect]
  | cons k keys ih =>
    have read := reading.classify k (members k List.mem_cons_self)
    cases group : L.group k with
    | some c =>
      have unseen : c ∉ progress.groups := fun seen => fresh c seen k List.mem_cons_self group
      refine ⟨[], k :: keys, rfl, fun k absent => absurd absent List.not_mem_nil,
        .inr (.inr ⟨k, c, keys, rfl, group, by simpa using room, ?_⟩)⟩
      simp [collect, read, group, addGroup, unseen]
    | none =>
      rw [collect, read]
      simp only [group]
      by_cases full : limit < (progress.entries ++ [single k]).length
      · refine ⟨[k], keys, rfl, by simpa using group, .inr (.inl ⟨?_, ?_⟩)⟩
        · simp only [List.length_append, List.length_singleton, List.map_cons, List.map_nil]
            at full ⊢
          omega
        · rw [if_pos full]
          rfl
      · rw [if_neg full]
        have space : ({ progress with entries := progress.entries ++ [single k] } :
            Progress ε γ).entries.length ≤ limit := Nat.le_of_not_lt full
        obtain ⟨singles, rest, split, alone, outcome⟩ :=
          ih (fun j member => members j (List.mem_cons_of_mem _ member)) space
            (fun c seen j member => fresh c seen j (List.mem_cons_of_mem _ member))
        refine ⟨k :: singles, rest, by rw [split, List.cons_append],
          List.forall_mem_cons.mpr ⟨group, alone⟩, ?_⟩
        have regroup : progress.entries ++ (k :: singles).map single =
            progress.entries ++ [single k] ++ singles.map single := by simp
        rw [regroup]
        exact outcome

omit [DecidableEq γ] in
/-- Behind a key of the range, only the new cursor counts. -/
theorem remaining_above {start cursor : Bytes} {k : κ}
    (reached : k ∈ remaining code stop start cursor s) :
    remaining code stop start (code.encode k) s =
      keysWhere code (fun x => rangeAfter start cursor stop x && decide (code.encode k < x)) s := by
  have bounded := reading.bounded
  have inside := (rangeAfter_iff bounded).mp (mem_keysWhere.mp reached).2
  refine keysWhere_congr_selection fun j => ?_
  rw [Bool.eq_iff_iff, Bool.and_eq_true, rangeAfter_iff bounded, rangeAfter_iff bounded,
    decide_eq_true_eq]
  constructor
  · rintro ⟨from_, above, upto⟩
    exact ⟨⟨from_, inside.2.1.trans above, upto⟩, above⟩
  · rintro ⟨⟨from_, -, upto⟩, above⟩
    exact ⟨from_, above, upto⟩

variable {start cursor : Bytes}
  (inside : ∀ k ∈ remaining code stop start cursor s, listed k)

include inside

omit [DecidableEq γ] in
/-- The selection of a range within the listing names no key twice. -/
theorem distinct_remaining : Distinct code (rangeAfter start cursor stop) s := by
  intro j stored k stored' selected selected' same
  have here := inside j (mem_keysWhere.mpr ⟨stored, selected⟩)
  have here' := inside k (mem_keysWhere.mpr ⟨stored', selected'⟩)
  exact reading.distinct j stored k stored' here here' same

omit [DecidableEq γ] in
/-- Behind a member of a group, the scan goes on beyond the stem. -/
theorem remaining_behind {k : κ} {c : γ} (reached : k ∈ remaining code stop start cursor s)
    (grouped : L.group k = some c) :
    remaining code stop (Bytes.prefixRangeEnd (S.stem c)) [] s =
      (remaining code stop start cursor s).filter (L.beyond (.inr c)) := by
  have starts : S.stem c <+: code.encode k := by
    have stem := Listing.stem_isPrefix grouped
    rwa [reading.coded, reading.stemmed] at stem
  have skipped := (reading.distinct_remaining inside).keysWhere_skip reading.bounded
    (reading.ends c) reached starts
  refine skipped.trans (List.filter_congr fun j _ => ?_)
  simp [Listing.beyond, Listing.place, Listing.closing, reading.coded, reading.stemmed]

/-- The keys behind a member of a group, and what they are listed as. -/
theorem pageEntries_rolled {singles rest : List κ} {k : κ} {c : γ}
    (split : remaining code stop start cursor s = singles ++ k :: rest)
    (alone : ∀ j ∈ singles, L.group j = none) (grouped : L.group k = some c) (collected : List ε) :
    S.pageEntries L single limit collected (remaining code stop start cursor s) =
      S.pageEntries L single limit (collected ++ singles.map single ++ [S.rolled c])
        (remaining code stop (Bytes.prefixRangeEnd (S.stem c)) [] s) := by
  have sorted : L.Sorted (remaining code stop start cursor s) := by
    unfold Listing.Sorted
    simp only [reading.coded]
    exact (reading.distinct_remaining inside).keysWhere_strict
  have reached : k ∈ remaining code stop start cursor s := by simp [split]
  have entries : L.entries (remaining code stop start cursor s) =
      singles.map .inl ++ .inr c :: L.entries (rest.dropWhile fun j => L.group j = some c) := by
    rw [split, Listing.entries_append alone]
    exact congrArg (_ ++ ·) (rollup_cons_some grouped)
  have place : (L.entries (remaining code stop start cursor s))[singles.length]? =
      some (.inr c) := by
    rw [entries, List.getElem?_append_right (by simp)]
    simp
  have behind := sorted.entries_behind place
  have next : (remaining code stop start cursor s).filter (L.exact.beyond (.inr c)) =
      remaining code stop (Bytes.prefixRangeEnd (S.stem c)) [] s :=
    (reading.remaining_behind inside reached grouped).symm
  have tail : (singles.map Sum.inl ++ Sum.inr c :: L.entries (rest.dropWhile
      fun j => L.group j = some c)).drop (singles.length + 1) =
        L.entries (rest.dropWhile fun j => L.group j = some c) := by
    rw [List.drop_append]
    simp
  rw [next, entries, tail] at behind
  unfold pageEntries
  rw [behind, entries]
  simp [List.map_map, Function.comp_def]

omit [DecidableEq γ] in
/-- A batch is the last one, or its cursor leaves exactly the keys behind it. -/
theorem remaining_page (limit : Nat) :
    ∃ next, page code (limit + 1) (remaining code stop start cursor s) =
        ((remaining code stop start cursor s).take (limit + 1), next) ∧
      (next = [] ∧ (remaining code stop start cursor s).length ≤ limit ∨
        next ≠ [] ∧ limit + 1 ≤ (remaining code stop start cursor s).length ∧
          remaining code stop start next s =
            (remaining code stop start cursor s).drop (limit + 1)) := by
  refine ⟨_, rfl, ?_⟩
  rcases page_selected (Nat.succ_pos limit) (reading.distinct_remaining inside) with
    ⟨last, short⟩ | ⟨more, ⟨k, reached, next⟩, above⟩
  · exact .inl ⟨last, Nat.le_of_lt_succ short⟩
  refine .inr ⟨?_, more, ?_⟩
  · intro empty
    exact code.nonempty k (next.symm.trans empty)
  · have behind := reading.remaining_above reached
    rw [next] at above
    exact (congrArg (remaining code stop start · s) next).trans (behind.trans above)

end Reads

/-- The scan collects the entries of what remains, up to one more than a page holds, in no
more batches than keys remain. -/
theorem Reads.loop_spec (reading : S.Reads code L single stop listed s) {fuel : Nat}
    {start cursor : Bytes} {progress : Progress ε γ}
    (inside : ∀ k ∈ remaining code stop start cursor s, listed k)
    (room : progress.entries.length ≤ limit + 1)
    (fresh : ∀ c ∈ progress.groups, ∀ k ∈ remaining code stop start cursor s,
      L.group k ≠ some c)
    (enough : (remaining code stop start cursor s).length < fuel) :
    ∃ final, S.loop code limit stop s fuel start cursor progress = some final ∧
      final.entries =
        S.pageEntries L single limit progress.entries (remaining code stop start cursor s) := by
  induction fuel generalizing start cursor progress with
  | zero => exact absurd enough (Nat.not_lt_zero _)
  | succ fuel ih =>
    by_cases full : limit < progress.entries.length
    · refine ⟨progress, by rw [loop, if_pos full], (pageEntries_full ?_ _).symm⟩
      omega
    have batch : listRange code start stop cursor (limit + 1) [] s =
        page code (limit + 1) (remaining code stop start cursor s) :=
      listRange_eq (Nat.succ_pos limit)
    obtain ⟨next, taken, paged⟩ := reading.remaining_page inside limit
    rw [loop, if_neg full, batch, taken]
    dsimp only
    by_cases done : (remaining code stop start cursor s).take (limit + 1) = []
    · have nothing : remaining code stop start cursor s = [] := by simpa using done
      refine ⟨progress, if_pos done, ?_⟩
      rw [nothing, pageEntries_end room]
    rw [if_neg done]
    have members : ∀ k ∈ (remaining code stop start cursor s).take (limit + 1),
        k ∈ remaining code stop start cursor s := fun k member => List.mem_of_mem_take member
    obtain ⟨singles, rest, split, alone, outcome⟩ := reading.collect_spec
      (fun k member => inside k (members k member)) (Nat.le_of_not_lt full)
      (fun c seen k member => fresh c seen k (members k member))
    have whole : remaining code stop start cursor s =
        singles ++ (rest ++ (remaining code stop start cursor s).drop (limit + 1)) := by
      rw [← List.append_assoc, ← split, List.take_append_drop]
    rcases outcome with ⟨rfl, short, scanned⟩ | ⟨overfull, stopped⟩ |
        ⟨k, c, rest', rfl, grouped, short, skipped⟩
    · rw [scanned]
      dsimp only
      rw [List.append_nil] at split
      rcases paged with ⟨rfl, last⟩ | ⟨onward, more, behind⟩
      · refine ⟨_, if_pos rfl, ?_⟩
        rw [whole, pageEntries_singles alone, List.nil_append,
          List.drop_eq_nil_of_le (Nat.le_succ_of_le last), pageEntries_end (by omega)]
      rw [if_neg onward]
      have fewer : (remaining code stop start next s).length < fuel := by
        rw [behind, List.length_drop]
        omega
      have kept : ∀ j ∈ remaining code stop start next s,
          j ∈ remaining code stop start cursor s := by
        rw [behind]
        exact fun j member => List.mem_of_mem_drop member
      have space : ({ progress with entries := progress.entries ++ singles.map single } :
          Progress ε γ).entries.length ≤ limit + 1 := Nat.le_succ_of_le short
      obtain ⟨final, ends, collected⟩ := ih (fun j member => inside j (kept j member)) space
        (fun c seen j member => fresh c seen j (kept j member)) fewer
      refine ⟨final, ends, ?_⟩
      rw [collected, behind, ← pageEntries_singles alone]
      conv_rhs => rw [whole, List.nil_append]
    · rw [stopped]
      refine ⟨_, rfl, ?_⟩
      rw [whole, pageEntries_singles alone, pageEntries_full overfull]
    · rw [skipped]
      have reached : k ∈ remaining code stop start cursor s := by
        rw [whole]
        simp
      have behind := reading.remaining_behind inside reached grouped
      dsimp only
      rw [if_pos (reading.ends c)]
      have outside : ∀ j, L.group j = some c → L.beyond (.inr c) j = false := by
        intro j member
        rw [Bool.eq_false_iff, ne_eq, Listing.beyond_iff]
        exact fun passed => passed.2 ⟨rfl, Listing.stem_isPrefix member⟩
      have fewer : (remaining code stop (Bytes.prefixRangeEnd (S.stem c)) [] s).length <
          fuel := by
        have shorter : ((remaining code stop start cursor s).filter
            (L.beyond (.inr c))).length < (remaining code stop start cursor s).length :=
          List.length_filter_lt_length_iff_exists.mpr ⟨k, reached, by simp [outside k grouped]⟩
        rw [behind]
        omega
      have kept : ∀ j ∈ remaining code stop (Bytes.prefixRangeEnd (S.stem c)) [] s,
          j ∈ remaining code stop start cursor s ∧ L.group j ≠ some c := by
        rw [behind]
        intro j member
        obtain ⟨before, passed⟩ := List.mem_filter.mp member
        refine ⟨before, fun other => ?_⟩
        rw [outside j other] at passed
        cases passed
      have space : (⟨progress.entries ++ singles.map single ++ [S.rolled c],
          c :: progress.groups⟩ : Progress ε γ).entries.length ≤ limit + 1 := by
        rw [List.length_append, List.length_singleton]
        omega
      obtain ⟨final, ends, collected⟩ := ih
        (fun j member => inside j (kept j member).1) space
        (fun d seen j member => by
          rcases List.mem_cons.mp seen with rfl | earlier
          · exact (kept j member).2
          · exact fresh d earlier j (kept j member).1) fewer
      refine ⟨final, ends, ?_⟩
      rw [collected, reading.pageEntries_rolled inside whole alone grouped]

end RollupScan

end Namros.Library
