import Namros.Library.Interleaving
import Namros.Source.IdGenerator

/-!
# The order of generated ids

A timestamp and a sequence are one number, which every assignment raises; both are written with a
fixed number of digits, so the ids of one kind are ordered as those numbers are.
-/

namespace Namros.Guarantees

open Library Source

/-! ## Runs -/

/-- One generator with calls of `NewID`, and the ids returned so far with the numbers of their calls
and their kinds, in the order in which timestamps and sequences were assigned. -/
structure IDSystem where
  generator : ProcessGenerator
  calls : List (String × NewIDCall)
  issued : List (Nat × String × Bytes) := []

/-- A call takes its next step, with the readings of the clock and the entropy source. -/
structure IDEvent where
  index : Nat
  now : Int64
  entropy : Except String Bytes

/-- What a call's step adds to the ids. -/
def newlyIssued (index : Nat) (kind : String) : NewIDCall → List (Nat × String × Bytes)
  | .returned (.ok id) => [(index, kind, id)]
  | _ => []

def IDSystem.step (sys : IDSystem) (event : IDEvent) : IDSystem :=
  match sys.calls[event.index]? with
  | none | some (_, .returned _) => sys
  | some (kind, call) =>
    let (next, generator) := call.step kind sys.generator event.now event.entropy
    { generator
      calls := sys.calls.set event.index (kind, next)
      issued := sys.issued ++ newlyIssued event.index kind next }

/-! ## The order of ids -/

theorem length_formatBase36 (value : UInt64) (width : Nat) :
    (formatBase36 value width).length = width := by
  induction width generalizing value with
  | zero => rfl
  | succ width ih => simp [formatBase36, ih]

theorem digit_lt : ∀ i < 36, ∀ j < i,
    base36Alphabet.getD j 0 < base36Alphabet.getD i 0 := by decide +kernel

theorem formatBase36_lt {a b : UInt64} {width : Nat} (less : a.toNat < b.toNat)
    (fits : b.toNat < 36 ^ width) : formatBase36 a width < formatBase36 b width := by
  induction width generalizing a b with
  | zero => simp at fits; omega
  | succ width ih =>
    simp only [formatBase36]
    have quotients : (a / 36).toNat = a.toNat / 36 ∧ (b / 36).toNat = b.toNat / 36 := by simp
    have remainders : (a % 36).toNat = a.toNat % 36 ∧ (b % 36).toNat = b.toNat % 36 := by simp
    by_cases lower : (a / 36).toNat < (b / 36).toNat
    · have fits : (b / 36).toNat < 36 ^ width := by
        rw [pow_succ] at fits
        omega
      exact Bytes.append_lt_append (by simp only [length_formatBase36]) (ih lower fits) _ _
    · have same : a / 36 = b / 36 := UInt64.toNat_inj.mp (by omega)
      rw [same]
      refine List.append_left_lt (List.cons_lt_cons_iff.mpr (.inl ?_))
      exact digit_lt _ (by omega) _ (by omega)

/-- A timestamp and a sequence as one number. -/
def stamp (t q : UInt64) : Nat := t.toNat * 36 ^ 4 + q.toNat

/-- Ids are ordered by their stamps, whatever the entropy. -/
theorem formatID_lt (generatorID : Bytes) (kind : String) {t t' q q' : UInt64} (e e' : Bytes)
    (fits : q.toNat < 36 ^ 4) (fits' : q'.toNat < 36 ^ 4) (less : stamp t q < stamp t' q') :
    formatID generatorID kind t q e < formatID generatorID kind t' q' e' := by
  simp only [formatID, List.intercalate, List.intersperse, List.flatten_cons, List.flatten_nil]
  refine List.append_left_lt (List.append_left_lt ?_)
  simp only [stamp] at less
  by_cases same : t.toNat = t'.toNat
  · obtain rfl := UInt64.toNat_inj.mp same
    refine List.append_left_lt (List.append_left_lt (List.append_left_lt (List.append_left_lt ?_)))
    exact Bytes.append_lt_append (by simp only [length_formatBase36])
      (formatBase36_lt (by omega) fits') _ _
  · exact Bytes.append_lt_append (by simp only [length_formatBase36])
      (formatBase36_lt (by omega) (t'.toNat_lt.trans (by decide))) _ _

/-! ## Every run -/

/-- What a step of a call does with the generator: an id is of a stamp after the last one. -/
structure Stamps (kind : String) (g g' : ProcessGenerator) (next : NewIDCall) : Prop where
  generatorID : g'.generatorID = g.generatorID
  sequence : g'.sequence.toNat < 36 ^ 4
  kept : stamp g.lastUnixNano g.sequence ≤ stamp g'.lastUnixNano g'.sequence
  fresh : ∀ id, next = .returned (.ok id) →
    stamp g.lastUnixNano g.sequence < stamp g'.lastUnixNano g'.sequence ∧
      ∃ e, id = formatID g.generatorID kind g'.lastUnixNano g'.sequence e

variable {g : ProcessGenerator}

/-- A round assigns the stamp it leaves in the generator, or changes nothing. -/
theorem nextTimestampAndSequence_cases (bounded : g.sequence.toNat < 36 ^ 4) (now : Int64) :
    let result := g.nextTimestampAndSequence now
    (result.2 = g ∧ ∀ assigned, result.1 ≠ some (.ok assigned)) ∨
      result.1 = some (.ok (result.2.lastUnixNano, result.2.sequence)) ∧
        result.2.generatorID = g.generatorID ∧ result.2.sequence.toNat < 36 ^ 4 ∧
        stamp g.lastUnixNano g.sequence < stamp result.2.lastUnixNano result.2.sequence := by
  dsimp only [ProcessGenerator.nextTimestampAndSequence]
  split
  · exact .inl ⟨rfl, by simp⟩
  split
  · next above =>
    have above := UInt64.lt_iff_toNat_lt.mp above
    exact .inr ⟨rfl, rfl, by simp, by simp [stamp]; omega⟩
  split
  · next same =>
    have below : g.sequence.toNat < 36 ^ 4 - 1 := UInt64.lt_iff_toNat_lt.mp same.2
    have next : (g.sequence + 1).toNat = g.sequence.toNat + 1 := by
      rw [UInt64.toNat_add]
      exact Nat.mod_eq_of_lt (by simp; omega)
    refine .inr ⟨by rw [same.1], rfl, ?_, ?_⟩ <;> simp only [stamp] <;> omega
  · exact .inl ⟨rfl, by simp⟩

theorem newIDRound_stamps (bounded : g.sequence.toNat < 36 ^ 4) (kind : String) (now : Int64)
    (entropy : Except String Bytes) :
    Stamps kind g (newIDRound kind g now entropy).2 (newIDRound kind g now entropy).1 := by
  have round := nextTimestampAndSequence_cases bounded now
  unfold newIDRound
  generalize g.nextTimestampAndSequence now = result at round ⊢
  obtain ⟨answer, g'⟩ := result
  dsimp only at round
  rcases round with ⟨rfl, unassigned⟩ | ⟨rfl, same, fits, later⟩
  · rcases answer with _ | _ | assigned
    · exact ⟨rfl, bounded, le_rfl, by simp⟩
    · exact ⟨rfl, bounded, le_rfl, by simp [bind, Except.bind]⟩
    · exact absurd rfl (unassigned assigned)
  · refine ⟨same, fits, later.le, fun id returned => ⟨later, ?_⟩⟩
    cases entropy with
    | error text => cases returned
    | ok read =>
      cases returned
      exact ⟨read, by rw [same]⟩

theorem NewIDCall.step_stamps (bounded : g.sequence.toNat < 36 ^ 4) (kind : String) (now : Int64)
    (entropy : Except String Bytes) {call : NewIDCall}
    (unreturned : ∀ answer, call ≠ .returned answer) :
    Stamps kind g (call.step kind g now entropy).2 (call.step kind g now entropy).1 := by
  cases call with
  | start =>
    simp only [NewIDCall.step]
    split
    · exact ⟨rfl, bounded, le_rfl, by simp⟩
    · exact newIDRound_stamps bounded kind now entropy
  | waiting => exact newIDRound_stamps bounded kind now entropy
  | returned answer => exact absurd rfl (unreturned answer)

/-- The ids are of stamps up to the last one, and in the order of their stamps. -/
structure IDsOrdered (sys : IDSystem) : Prop where
  sequence : sys.generator.sequence.toNat < 36 ^ 4
  stamped : ∀ entry ∈ sys.issued, ∃ t q e,
    entry.2.2 = formatID sys.generator.generatorID entry.2.1 t q e ∧ q.toNat < 36 ^ 4 ∧
      stamp t q ≤ stamp sys.generator.lastUnixNano sys.generator.sequence
  increasing : sys.issued.Pairwise fun a b => a.2.1 = b.2.1 → a.2.2 < b.2.2
  returned : ∀ index kind id, sys.calls[index]? = some (kind, .returned (.ok id)) →
    (index, kind, id) ∈ sys.issued

theorem mem_newlyIssued {index : Nat} {kind : String} {next : NewIDCall}
    {entry : Nat × String × Bytes} : entry ∈ newlyIssued index kind next ↔
      ∃ id, next = .returned (.ok id) ∧ entry = (index, kind, id) := by
  unfold newlyIssued
  split <;> simp_all

theorem IDsOrdered.step {sys : IDSystem} (h : IDsOrdered sys) (event : IDEvent) :
    IDsOrdered (sys.step event) := by
  unfold IDSystem.step
  split
  · exact h
  · exact h
  next kind call unreturned found =>
  have stamps := NewIDCall.step_stamps h.sequence kind event.now event.entropy
    unreturned
  generalize call.step kind sys.generator event.now event.entropy = result at stamps ⊢
  obtain ⟨next, g⟩ := result
  dsimp only at stamps ⊢
  refine ⟨stamps.sequence, ?_, ?_, ?_⟩
  · intro entry member
    rw [stamps.generatorID]
    rcases List.mem_append.mp member with old | new
    · obtain ⟨t, q, e, same, fits, le⟩ := h.stamped entry old
      exact ⟨t, q, e, same, fits, le.trans stamps.kept⟩
    · obtain ⟨id, returned, rfl⟩ := mem_newlyIssued.mp new
      obtain ⟨-, e, same⟩ := stamps.fresh id returned
      exact ⟨_, _, e, same, stamps.sequence, le_rfl⟩
  · refine List.pairwise_append.mpr ⟨h.increasing, ?_, ?_⟩
    · unfold newlyIssued
      split <;> simp
    · intro entry old new added same
      obtain ⟨t, q, e, eq, fits, le⟩ := h.stamped entry old
      obtain ⟨id, returned, rfl⟩ := mem_newlyIssued.mp added
      obtain ⟨later, e', rfl⟩ := stamps.fresh id returned
      rw [eq, same]
      exact formatID_lt _ _ e e' fits stamps.sequence (le.trans_lt later)
  · intro index kind' id there
    rcases getElem?_set_cases there with ⟨rfl, same⟩ | ⟨-, there⟩
    · cases same
      exact List.mem_append_right _ (mem_newlyIssued.mpr ⟨id, rfl, rfl⟩)
    · exact List.mem_append_left _ (h.returned index kind' id there)

/-- Whatever the clock and the entropy source return and however the calls are interleaved: the ids
of one kind increase in the order of their stamps, and every id that a call returned is one of
them. -/
theorem ids_increase (generatorID : Bytes) (kinds : List String) (events : List IDEvent) :
    let final := events.foldl IDSystem.step
      { generator := { generatorID }, calls := kinds.map (·, .start) }
    (∀ kind, ((final.issued.filter (·.2.1 = kind)).map (·.2.2)).Pairwise (· < ·)) ∧
      ∀ index kind id, final.calls[index]? = some (kind, .returned (.ok id)) →
        (index, kind, id) ∈ final.issued := by
  have start : IDsOrdered { generator := { generatorID }, calls := kinds.map (·, .start) } :=
    ⟨by simp, by simp, .nil, by simp⟩
  have ordered := List.foldlRecOn (motive := IDsOrdered) events IDSystem.step start
    fun _ h event _ => h.step event
  refine ⟨fun kind => List.pairwise_map.mpr ?_, ordered.returned⟩
  refine (ordered.increasing.filter _).imp_of_mem fun here there less => ?_
  have same := (List.mem_filter.mp here).2
  have same' := (List.mem_filter.mp there).2
  simp only [decide_eq_true_eq] at same same'
  exact less (same.trans same'.symm)

end Namros.Guarantees
