import Mathlib.Algebra.BigOperators.Group.Finset.Piecewise
import Mathlib.Algebra.BigOperators.Ring.Finset
import Mathlib.Order.Lattice.Nat
import Namros.Source.MultipartOutcomes

/-!
# The life of one upload

An upload as a state machine of its own: its record, its completion record, its parts and the
keys it is listed under. `Step` says everything a call can do to these; `Sound` is what holds
of them in every state, and `Evolves` how they can have changed between two states. Nothing
here refers to a store: the calls of the repository are shown to be such steps in
`Multipart.LifecycleSteps`.
-/

namespace Namros.Multipart

open Source

/-- What the repository keeps about one upload. -/
@[ext]
structure UploadState where
  upload : Option MultipartUpload
  completion : Option MultipartCompletionRecord
  part : Nat → Option MultipartPart
  listed : String → Option String

/-- Nothing is kept about an upload that was never created. -/
def UploadState.unused : UploadState := ⟨none, none, fun _ => none, fun _ => none⟩

/-! ## Measures of the parts -/

/-- The greatest part number a request may have. -/
def lastPartNumber : Nat := 10000

/-- A sum over the stored parts. -/
def partSum (weight : MultipartPart → Int) (part : Nat → Option MultipartPart) : Int :=
  ∑ n ∈ Finset.range (lastPartNumber + 1), (part n).elim 0 weight

def partCount (part : Nat → Option MultipartPart) : Int := partSum (fun _ => 1) part

def partBytes (part : Nat → Option MultipartPart) : Int :=
  wrapInt64 (partSum (fun p => p.sizeBytes) part)

/-- The greatest number of a stored part. -/
def partMax (part : Nat → Option MultipartPart) : Nat :=
  (Finset.range (lastPartNumber + 1)).sup fun n => if (part n).isSome then n else 0

section Measures

variable {part : Nat → Option MultipartPart} {weight : MultipartPart → Int} {n : Nat}

theorem partSum_none : partSum weight (fun _ => none) = 0 := by
  simp [partSum]

theorem partBytes_none : partBytes (fun _ => none) = 0 := by
  rw [partBytes, partSum_none, wrapInt64, Int.zero_bmod]

theorem wrapInt64_add_left (m n : Int) : wrapInt64 (wrapInt64 m + n) = wrapInt64 (m + n) :=
  Int.bmod_add_bmod

theorem partSum_update (inside : n ≤ lastPartNumber) (p : MultipartPart) :
    partSum weight (Function.update part n (some p)) =
      partSum weight part - (part n).elim 0 weight + weight p := by
  have member : n ∈ Finset.range (lastPartNumber + 1) := by
    rw [Finset.mem_range]
    omega
  have split : ∀ f : Nat → Option MultipartPart, partSum weight f =
      (f n).elim 0 weight +
        ∑ m ∈ (Finset.range (lastPartNumber + 1)).erase n, (f m).elim 0 weight :=
    fun f => (Finset.add_sum_erase _ (fun m => (f m).elim 0 weight) member).symm
  have others : ∑ m ∈ (Finset.range (lastPartNumber + 1)).erase n,
        (Function.update part n (some p) m).elim 0 weight =
      ∑ m ∈ (Finset.range (lastPartNumber + 1)).erase n, (part m).elim 0 weight := by
    refine Finset.sum_congr rfl fun m away => ?_
    rw [Function.update_of_ne (Finset.ne_of_mem_erase away)]
  rw [split, split part, others, Function.update_self, Option.elim_some]
  omega

/-- Removing some of the stored parts. -/
theorem partCount_remove {removed : Finset Nat}
    (present : ∀ m ∈ removed, m ≤ lastPartNumber ∧ (part m).isSome) :
    partCount (fun m => if m ∈ removed then none else part m) =
      partCount part - removed.card := by
  have inside : removed ⊆ Finset.range (lastPartNumber + 1) := by
    intro m member
    have bound := (present m member).1
    rw [Finset.mem_range]
    omega
  have pointwise : ∀ m, ((if m ∈ removed then none else part m).elim 0 fun _ => 1 : Int) =
      (part m).elim 0 (fun _ => 1) - if m ∈ removed then 1 else 0 := by
    intro m
    split
    · rename_i member
      obtain ⟨p, stored⟩ := Option.isSome_iff_exists.mp (present m member).2
      rw [stored]
      simp
    · simp
  have counted : ∑ m ∈ Finset.range (lastPartNumber + 1), (if m ∈ removed then 1 else 0 : Int) =
      removed.card := by
    rw [← Finset.sum_filter, Finset.filter_mem_eq_inter, Finset.inter_eq_right.mpr inside]
    simp
  unfold partCount partSum
  rw [Finset.sum_congr rfl fun m _ => pointwise m, Finset.sum_sub_distrib, counted]

theorem partMax_le_iff {bound : Nat} :
    partMax part ≤ bound ↔ ∀ m ≤ lastPartNumber, (part m).isSome → m ≤ bound := by
  unfold partMax
  rw [Finset.sup_le_iff]
  constructor
  · intro all m inside stored
    have below := all m (Finset.mem_range.mpr (by omega))
    rwa [if_pos stored] at below
  intro all m member
  split
  · rename_i stored
    exact all m (by have := Finset.mem_range.mp member; omega) stored
  · exact Nat.zero_le _

theorem partMax_none : partMax (fun _ => none) = 0 := by
  refine Nat.le_zero.mp (partMax_le_iff.mpr fun m _ stored => ?_)
  simp at stored

theorem partMax_update (inside : n ≤ lastPartNumber) (p : MultipartPart) :
    partMax (Function.update part n (some p)) = max (partMax part) n := by
  refine eq_of_forall_ge_iff fun bound => ?_
  rw [max_le_iff, partMax_le_iff, partMax_le_iff]
  constructor
  · intro all
    refine ⟨fun m below stored => all m below ?_, all n inside (by simp)⟩
    by_cases same : m = n
    · simp [same]
    · rwa [Function.update_of_ne same]
  · rintro ⟨old, new⟩ m below stored
    by_cases same : m = n
    · exact same ▸ new
    · rw [Function.update_of_ne same] at stored
      exact old m below stored

end Measures

/-! ## Steps -/

/-- No result of completing an upload is set. -/
def Unset (upload : MultipartUpload) : Prop :=
  upload.completedVersionID = "" ∧ upload.completedETag = "" ∧ upload.completedSizeBytes = 0 ∧
    upload.completedPartCount = 0

/-- A new upload. -/
structure Opened (b u : String) (upload : MultipartUpload) : Prop where
  bucketID : upload.bucketID = b
  uploadID : upload.uploadID = u
  active : upload.state = .active
  partCount : upload.partCount = 0
  partBytes : upload.totalPartSizeBytes = 0
  partMax : upload.maxPartNumber = 0
  cleanup : upload.partsCleanupState = .unset
  result : Unset upload
  named : upload.key ≠ ""

/-- The fields a part changes, and only a part. -/
def SameParts (upload upload' : MultipartUpload) : Prop :=
  upload'.partCount = upload.partCount ∧
    upload'.totalPartSizeBytes = upload.totalPartSizeBytes ∧
    upload'.maxPartNumber = upload.maxPartNumber

/-- The identity of an upload. -/
def SameUpload (upload upload' : MultipartUpload) : Prop :=
  upload'.bucketID = upload.bucketID ∧ upload'.uploadID = upload.uploadID ∧
    upload'.key = upload.key

/-- What completing an upload sets. -/
def SameResult (upload upload' : MultipartUpload) : Prop :=
  upload'.completedVersionID = upload.completedVersionID ∧
    upload'.completedETag = upload.completedETag ∧
    upload'.completedSizeBytes = upload.completedSizeBytes ∧
    upload'.completedPartCount = upload.completedPartCount

/-- Two completion records that differ in their state and update time only. -/
def SameCompletion (record record' : MultipartCompletionRecord) : Prop :=
  { record' with state := record.state, updatedAt := record.updatedAt } = record

/-- What a call can do to the records of the upload `u` of bucket `b`; `drawn` says that the
call drew the id `u`. -/
inductive Step (drawn : Prop) (b u : String) : UploadState → UploadState → Prop
  | skip (v : UploadState) : Step drawn b u v v
  | create {v : UploadState} {upload : MultipartUpload} (issued : drawn)
      (absent : v.upload = none) (opened : Opened b u upload) :
      Step drawn b u v { v with
        upload := some upload
        listed := Function.update v.listed upload.key (some u) }
  | putPart {v : UploadState} {upload : MultipartUpload} (found : v.upload = some upload)
      (active : upload.state = .active) {n : Nat} (positive : 1 ≤ n) (inside : n ≤ lastPartNumber)
      {part : MultipartPart} (numbered : part.partNumber = n) (now : Time) :
      Step drawn b u v { v with
        upload := some (applyMultipartPartSummary upload part (v.part n) now)
        part := Function.update v.part n (some part)
        listed := Function.update v.listed upload.key (some u) }
  | prepare {v : UploadState} {upload : MultipartUpload} (found : v.upload = some upload)
      (active : upload.state = .active) (absent : v.completion = none)
      (record : MultipartCompletionRecord) :
      Step drawn b u v { v with completion := some record }
  | mark {v : UploadState} {record : MultipartCompletionRecord}
      (found : v.completion = some record) {state : MultipartCompletionState}
      (forward : multipartCompletionStateRank record.state < multipartCompletionStateRank state)
      (now : Time) :
      Step drawn b u v { v with completion := some { record with state := state, updatedAt := now } }
  | close {v : UploadState} {upload upload' : MultipartUpload} (found : v.upload = some upload)
      (active : upload.state = .active)
      (closed : upload'.state = .completed ∨ upload'.state = .aborted)
      (same : SameUpload upload upload') (parts : SameParts upload upload')
      (uncleaned : upload'.partsCleanupDeleted = 0 ∧ upload'.partsCleanupState = .pending) :
      Step drawn b u v { v with
        upload := some upload'
        listed := Function.update v.listed upload.key none }
  | cleanup {v : UploadState} {upload upload' : MultipartUpload} (found : v.upload = some upload)
      (closed : upload.state = .completed ∨ upload.state = .aborted)
      (sameState : upload'.state = upload.state) (same : SameUpload upload upload')
      (parts : SameParts upload upload') (result : SameResult upload upload')
      (removed : Finset Nat) (present : ∀ n ∈ removed, (v.part n).isSome)
      (deleted : upload'.partsCleanupDeleted = upload.partsCleanupDeleted + removed.card)
      (finished : upload'.partsCleanupState = .done → ∀ n, (v.part n).isSome → n ∈ removed) :
      Step drawn b u v { v with
        upload := some upload'
        part := fun n => if n ∈ removed then none else v.part n
        listed := Function.update v.listed upload.key none }

/-! ## What holds in every state -/

structure Sound (b u : String) (v : UploadState) : Prop where
  /-- The upload record carries its own identity. -/
  identified : ∀ {upload}, v.upload = some upload → upload.bucketID = b ∧ upload.uploadID = u
  /-- An upload is active, completed or aborted. -/
  known : ∀ {upload}, v.upload = some upload →
    upload.state = .active ∨ upload.state = .completed ∨ upload.state = .aborted
  /-- The upload is listed exactly under its key, and exactly while it is active. -/
  listed : ∀ key id, v.listed key = some id ↔
    id = u ∧ ∃ upload, v.upload = some upload ∧ upload.state = .active ∧ upload.key = key
  /-- Without an upload record there is nothing. -/
  unopened : v.upload = none → v.completion = none ∧ ∀ n, v.part n = none
  /-- Parts are stored under their own numbers. -/
  numbered : ∀ {n part}, v.part n = some part → n ≤ lastPartNumber ∧ part.partNumber = n
  /-- The summary of an active upload is that of its parts. -/
  summary : ∀ {upload}, v.upload = some upload → upload.state = .active →
    upload.partCount = partCount v.part ∧ upload.totalPartSizeBytes = partBytes v.part ∧
      upload.maxPartNumber = partMax v.part ∧ upload.partsCleanupState ≠ .done
  /-- The parts of a closed upload are counted until they are gone. -/
  cleaned : ∀ {upload}, v.upload = some upload → upload.state ≠ .active →
    upload.partsCleanupDeleted + partCount v.part = upload.partCount ∧
      (upload.partsCleanupState = .done → ∀ n, v.part n = none)
  /-- An active upload has no result. -/
  unset : ∀ {upload}, v.upload = some upload → upload.state = .active → Unset upload
  /-- An upload has a key. -/
  named : ∀ {upload}, v.upload = some upload → upload.key ≠ ""

variable {upload upload' : MultipartUpload}

namespace Sound

variable {drawn : Prop} {b u : String} {v v' : UploadState}

theorem initial : Sound b u .unused where
  identified found := nomatch found
  known found := nomatch found
  listed := by simp [UploadState.unused]
  unopened _ := ⟨rfl, fun _ => rfl⟩
  numbered found := nomatch found
  summary found := nomatch found
  cleaned found := nomatch found
  unset found := nomatch found
  named found := nomatch found

/-- A closed upload is not listed. -/
private theorem unlisted (h : Sound b u v) (found : v.upload = some upload)
    (closed : upload'.state ≠ .active) (k id : String) :
    Function.update v.listed upload.key none k = some id ↔
      id = u ∧ ∃ w, some upload' = some w ∧ w.state = .active ∧ w.key = k := by
  have nobody : ¬ (id = u ∧ ∃ w, some upload' = some w ∧ w.state = .active ∧ w.key = k) := by
    rintro ⟨-, w, same, active, -⟩
    cases same
    exact closed active
  rw [iff_false_right nobody]
  by_cases same : k = upload.key
  · rw [same, Function.update_self]
    exact fun none => nomatch none
  rw [Function.update_of_ne same]
  intro present
  obtain ⟨-, w, stored, -, key⟩ := (h.listed k id).mp present
  rw [found] at stored
  cases stored
  exact same key.symm

theorem create (h : Sound b u v) (absent : v.upload = none) (opened : Opened b u upload) :
    Sound b u { v with
      upload := some upload
      listed := Function.update v.listed upload.key (some u) } := by
  obtain ⟨noCompletion, noParts⟩ := h.unopened absent
  have empty : v.part = fun _ => none := funext noParts
  refine ⟨?_, ?_, fun k id => ?_, (fun none => nomatch none), h.numbered, ?_, ?_, ?_, ?_⟩
  · rintro _ ⟨rfl⟩
    exact ⟨opened.bucketID, opened.uploadID⟩
  · rintro _ ⟨rfl⟩
    exact .inl opened.active
  · change Function.update v.listed upload.key (some u) k = some id ↔ _
    by_cases same : k = upload.key
    · subst same
      rw [Function.update_self]
      simp [opened.active, eq_comm]
    · rw [Function.update_of_ne same, h.listed, absent]
      simp [Ne.symm same]
  · rintro _ ⟨rfl⟩ -
    have zero : partCount v.part = 0 ∧ partBytes v.part = 0 ∧ partMax v.part = 0 := by
      rw [empty]
      exact ⟨partSum_none, partBytes_none, partMax_none⟩
    refine ⟨?_, ?_, ?_, ?_⟩
    · rw [opened.partCount, zero.1]
    · rw [opened.partBytes, zero.2.1]
    · rw [opened.partMax, zero.2.2]
      rfl
    · rw [opened.cleanup]
      exact fun done => nomatch done
  · rintro _ ⟨rfl⟩ closed
    exact absurd opened.active closed
  · rintro _ ⟨rfl⟩ -
    exact opened.result
  · rintro _ ⟨rfl⟩
    exact opened.named

/-- The summary after one more part. -/
theorem summary_putPart {n : Nat} {part : MultipartPart} {parts : Nat → Option MultipartPart}
    (inside : n ≤ lastPartNumber) (numbered : part.partNumber = n) (now : Time)
    (count : upload.partCount = partCount parts)
    (bytes : upload.totalPartSizeBytes = partBytes parts)
    (greatest : upload.maxPartNumber = partMax parts) :
    let after := applyMultipartPartSummary upload part (parts n) now
    after.partCount = partCount (Function.update parts n (some part)) ∧
      after.totalPartSizeBytes = partBytes (Function.update parts n (some part)) ∧
      after.maxPartNumber = partMax (Function.update parts n (some part)) := by
  have counted : partSum (fun _ => 1) (Function.update parts n (some part)) =
      partSum (fun _ => 1) parts - (parts n).elim 0 (fun _ => 1) + 1 := partSum_update inside part
  have summed : partSum (fun p => p.sizeBytes) (Function.update parts n (some part)) =
      partSum (fun p => p.sizeBytes) parts - (parts n).elim 0 (fun p => p.sizeBytes) +
        part.sizeBytes := partSum_update inside part
  have latest : ((partMax (Function.update parts n (some part)) : Nat) : Int) =
      max (partMax parts : Int) (part.partNumber : Int) := by
    rw [partMax_update inside, numbered]
    omega
  unfold partCount partBytes at *
  cases old : parts n with
  | none =>
    rw [old] at counted summed
    simp only [Option.elim_none] at counted summed
    refine ⟨?_, ?_, ?_⟩
    · rw [counted]
      simp only [applyMultipartPartSummary]
      omega
    · rw [summed]
      simp only [applyMultipartPartSummary, bytes]
      rw [wrapInt64_add_left]
      exact congrArg wrapInt64 (by omega)
    · rw [latest, ← greatest]
      rfl
  | some previous =>
    rw [old] at counted summed
    simp only [Option.elim_some] at counted summed
    refine ⟨?_, ?_, ?_⟩
    · rw [counted]
      simp only [applyMultipartPartSummary]
      omega
    · rw [summed]
      simp only [applyMultipartPartSummary, bytes]
      rw [wrapInt64_add_left]
      exact congrArg wrapInt64 (by omega)
    · rw [latest, ← greatest]
      rfl

theorem putPart (h : Sound b u v) (found : v.upload = some upload) (active : upload.state = .active)
    {n : Nat} (inside : n ≤ lastPartNumber) {part : MultipartPart} (numbered : part.partNumber = n)
    (now : Time) :
    Sound b u { v with
      upload := some (applyMultipartPartSummary upload part (v.part n) now)
      part := Function.update v.part n (some part)
      listed := Function.update v.listed upload.key (some u) } := by
  obtain ⟨count, bytes, greatest, unfinished⟩ := h.summary found active
  have after := summary_putPart inside numbered now count bytes greatest
  obtain ⟨sameBucket, sameID, sameState⟩ :=
    applyMultipartPartSummary_identity upload part (v.part n) now
  have sameKey : (applyMultipartPartSummary upload part (v.part n) now).key = upload.key := by
    cases v.part n <;> rfl
  have sameCleanup : (applyMultipartPartSummary upload part (v.part n) now).partsCleanupState =
      upload.partsCleanupState := by
    cases v.part n <;> rfl
  have sameResult : Unset (applyMultipartPartSummary upload part (v.part n) now) ↔
      Unset upload := by
    cases v.part n <;> rfl
  have stillActive := sameState.trans active
  obtain ⟨bucket, id⟩ := h.identified found
  refine ⟨?_, ?_, fun k id => ?_, (fun none => nomatch none), ?_, ?_, ?_, ?_, ?_⟩
  · rintro _ ⟨rfl⟩
    exact ⟨sameBucket.trans bucket, sameID.trans id⟩
  · rintro _ ⟨rfl⟩
    exact .inl stillActive
  · have listed := h.listed k id
    rw [found] at listed
    by_cases same : k = upload.key
    · subst same
      simp [stillActive, sameKey, eq_comm]
    · simpa [same, sameKey, active, stillActive] using listed
  · intro m p stored
    by_cases same : m = n
    · subst same
      simp only [Function.update_self, Option.some.injEq] at stored
      exact ⟨inside, stored ▸ numbered⟩
    · simp only [Function.update_of_ne same] at stored
      exact h.numbered stored
  · rintro _ ⟨rfl⟩ -
    refine ⟨after.1, after.2.1, after.2.2, ?_⟩
    rw [sameCleanup]
    exact unfinished
  · rintro _ ⟨rfl⟩ closed
    exact absurd stillActive closed
  · rintro _ ⟨rfl⟩ -
    exact sameResult.mpr (h.unset found active)
  · rintro _ ⟨rfl⟩
    rw [sameKey]
    exact h.named found

theorem close (h : Sound b u v) (found : v.upload = some upload) (active : upload.state = .active)
    (closed : upload'.state = .completed ∨ upload'.state = .aborted)
    (same : SameUpload upload upload') (parts : SameParts upload upload')
    (uncleaned : upload'.partsCleanupDeleted = 0 ∧ upload'.partsCleanupState = .pending) :
    Sound b u { v with
      upload := some upload'
      listed := Function.update v.listed upload.key none } := by
  have inactive : upload'.state ≠ .active := by
    rcases closed with state | state <;> rw [state] <;> decide
  obtain ⟨count, -, -, -⟩ := h.summary found active
  obtain ⟨bucket, id⟩ := h.identified found
  refine ⟨?_, ?_, h.unlisted found inactive, (fun none => nomatch none), h.numbered, ?_, ?_, ?_, ?_⟩
  · rintro _ ⟨rfl⟩
    exact ⟨same.1.trans bucket, same.2.1.trans id⟩
  · rintro _ ⟨rfl⟩
    exact .inr closed
  · rintro _ ⟨rfl⟩ active'
    exact absurd active' inactive
  · rintro _ ⟨rfl⟩ -
    refine ⟨?_, fun done => ?_⟩
    · rw [uncleaned.1, parts.1, count]
      exact zero_add _
    · rw [uncleaned.2] at done
      cases done
  · rintro _ ⟨rfl⟩ active'
    exact absurd active' inactive
  · rintro _ ⟨rfl⟩
    rw [same.2.2]
    exact h.named found

theorem cleanup (h : Sound b u v) (found : v.upload = some upload)
    (closed : upload.state = .completed ∨ upload.state = .aborted)
    (sameState : upload'.state = upload.state) (same : SameUpload upload upload')
    (parts : SameParts upload upload') (removed : Finset Nat)
    (present : ∀ n ∈ removed, (v.part n).isSome)
    (deleted : upload'.partsCleanupDeleted = upload.partsCleanupDeleted + removed.card)
    (finished : upload'.partsCleanupState = .done → ∀ n, (v.part n).isSome → n ∈ removed) :
    Sound b u { v with
      upload := some upload'
      part := fun n => if n ∈ removed then none else v.part n
      listed := Function.update v.listed upload.key none } := by
  have inactive : upload.state ≠ .active := by
    rcases closed with state | state <;> rw [state] <;> decide
  have inactive' : upload'.state ≠ .active := fun active => inactive (sameState ▸ active)
  obtain ⟨counted, -⟩ := h.cleaned found inactive
  obtain ⟨bucket, id⟩ := h.identified found
  have inside : ∀ n ∈ removed, n ≤ lastPartNumber ∧ (v.part n).isSome := by
    intro n member
    obtain ⟨p, stored⟩ := Option.isSome_iff_exists.mp (present n member)
    exact ⟨(h.numbered stored).1, present n member⟩
  refine ⟨?_, ?_, h.unlisted found inactive', (fun none => nomatch none), ?_, ?_, ?_, ?_, ?_⟩
  · rintro _ ⟨rfl⟩
    exact ⟨same.1.trans bucket, same.2.1.trans id⟩
  · rintro _ ⟨rfl⟩
    rw [sameState]
    exact .inr closed
  · intro n p stored
    simp only at stored
    split at stored
    · cases stored
    · exact h.numbered stored
  · rintro _ ⟨rfl⟩ active'
    exact absurd active' inactive'
  · rintro _ ⟨rfl⟩ -
    refine ⟨?_, fun done n => ?_⟩
    · rw [partCount_remove inside, deleted, parts.1]
      omega
    have all := finished done n
    simp only [ite_eq_left_iff]
    intro away
    rw [← Option.not_isSome_iff_eq_none]
    exact fun stored => away (all stored)
  · rintro _ ⟨rfl⟩ active'
    exact absurd active' inactive'
  · rintro _ ⟨rfl⟩
    rw [same.2.2]
    exact h.named found

theorem step (h : Sound b u v) (moved : Step drawn b u v v') : Sound b u v' := by
  cases moved with
  | skip => exact h
  | create issued absent opened => exact h.create absent opened
  | putPart found active positive inside numbered now =>
    exact h.putPart found active inside numbered now
  | prepare found active absent record =>
    refine ⟨h.identified, h.known, h.listed, fun missing => ?_, h.numbered, h.summary, h.cleaned,
      h.unset, h.named⟩
    rw [found] at missing
    cases missing
  | mark found forward now =>
    refine ⟨h.identified, h.known, h.listed, fun missing => ?_, h.numbered, h.summary, h.cleaned,
      h.unset, h.named⟩
    have none := (h.unopened missing).1
    rw [found] at none
    cases none
  | close found active closed same parts uncleaned =>
    exact h.close found active closed same parts uncleaned
  | cleanup found closed sameState same parts result removed present deleted finished =>
    exact h.cleanup found closed sameState same parts removed present deleted finished

end Sound

/-! ## The parts that were written -/

/-- The parts written so far, when those of `v` are written over earlier ones. -/
def UploadState.written (v : UploadState) (earlier : Nat → Option MultipartPart) (n : Nat) :
    Option MultipartPart :=
  (v.part n).or (earlier n)

/-- What the parts written so far, and replaced by none since, say about a state. -/
structure Recorded (v : UploadState) (written : Nat → Option MultipartPart) : Prop where
  /-- The stored parts are among those that were written. -/
  stored : ∀ {n part}, v.part n = some part → written n = some part
  /-- Every written part is still there until the upload is closed. -/
  kept : (∀ {upload}, v.upload = some upload → upload.state = .active) → written = v.part
  /-- The summary of an upload, closed or not, is that of the written parts. -/
  summary : ∀ {upload}, v.upload = some upload →
    upload.partCount = partCount written ∧ upload.totalPartSizeBytes = partBytes written ∧
      upload.maxPartNumber = partMax written

namespace Recorded

variable {drawn : Prop} {b u : String} {v v' : UploadState} {written : Nat → Option MultipartPart}

theorem initial : Recorded .unused (UploadState.unused.written fun _ => none) where
  stored found := nomatch found
  kept _ := rfl
  summary found := nomatch found

/-- Without a new part, nothing more is written. -/
theorem written_eq (h : Recorded v written)
    (fewer : ∀ {n part}, v'.part n = some part → v.part n = some part) :
    v'.written written = written := by
  funext n
  unfold UploadState.written
  cases stored : v'.part n with
  | none => rfl
  | some part =>
    rw [h.stored (fewer stored)]
    rfl

/-- Steps that write no part and leave the summary. -/
private theorem unwritten (h : Recorded v written)
    (fewer : ∀ {n part}, v'.part n = some part → v.part n = some part)
    (kept : (∀ {upload}, v'.upload = some upload → upload.state = .active) →
      v'.part = v.part ∧ ∀ {upload}, v.upload = some upload → upload.state = .active)
    (summary : ∀ {upload'}, v'.upload = some upload' →
      ∃ upload, v.upload = some upload ∧ SameParts upload upload') :
    Recorded v' (v'.written written) := by
  rw [h.written_eq fewer]
  refine ⟨fun found => h.stored (fewer found), fun active => ?_, fun found => ?_⟩
  · obtain ⟨same, before⟩ := kept active
    rw [same]
    exact h.kept before
  · obtain ⟨upload, before, count, bytes, greatest⟩ := summary found
    rw [count, bytes, greatest]
    exact h.summary before

theorem step (h : Recorded v written) (sound : Sound b u v) (moved : Step drawn b u v v') :
    Recorded v' (v'.written written) := by
  cases moved with
  | skip =>
    exact h.unwritten id (fun active => ⟨rfl, active⟩) fun found => ⟨_, found, rfl, rfl, rfl⟩
  | @create upload issued absent opened =>
    have all : written = v.part := h.kept fun found => nomatch absent.symm.trans found
    have nothing : written = fun _ => none := all.trans (funext (sound.unopened absent).2)
    have still : ({ v with
        upload := some upload
        listed := Function.update v.listed upload.key (some u) } : UploadState).written written =
          written := h.written_eq id
    rw [still]
    refine ⟨h.stored, fun _ => all, ?_⟩
    rintro _ ⟨rfl⟩
    rw [nothing, opened.partCount, opened.partBytes, opened.partMax, partMax_none]
    exact ⟨partSum_none.symm, partBytes_none.symm, rfl⟩
  | @putPart upload found active n positive inside part numbered now =>
    have all : written = v.part := by
      refine h.kept fun {w} found' => ?_
      rw [found] at found'
      cases found'
      exact active
    have grown : ({ v with
        upload := some (applyMultipartPartSummary upload part (v.part n) now)
        part := Function.update v.part n (some part)
        listed := Function.update v.listed upload.key (some u) } : UploadState).written written =
        Function.update v.part n (some part) := by
      funext m
      unfold UploadState.written
      rw [all]
      by_cases same : m = n
      · subst same
        simp
      · simp [Function.update_of_ne same]
    rw [grown]
    refine ⟨id, fun _ => rfl, ?_⟩
    rintro _ ⟨rfl⟩
    obtain ⟨count, bytes, greatest⟩ := h.summary found
    rw [all] at count bytes greatest
    exact Sound.summary_putPart inside numbered now count bytes greatest
  | prepare found active absent record =>
    exact h.unwritten id (fun active => ⟨rfl, active⟩) fun found => ⟨_, found, rfl, rfl, rfl⟩
  | mark found forward now =>
    exact h.unwritten id (fun active => ⟨rfl, active⟩) fun found => ⟨_, found, rfl, rfl, rfl⟩
  | close found active closed same parts uncleaned =>
    refine h.unwritten id (fun active' => ?_) ?_
    · have state := active' rfl
      rcases closed with other | other <;> rw [other] at state <;> cases state
    · rintro _ ⟨rfl⟩
      exact ⟨_, found, parts⟩
  | cleanup found closed sameState same parts result removed present deleted finished =>
    refine h.unwritten (fun {n part} stored => ?_) (fun active' => ?_) ?_
    · simp only at stored
      split at stored
      · cases stored
      · exact stored
    · have state := sameState.symm.trans (active' rfl)
      rcases closed with other | other <;> rw [other] at state <;> cases state
    · rintro _ ⟨rfl⟩
      exact ⟨_, found, parts⟩

end Recorded

/-! ## How the records of an upload change -/

/-- What may have become of the records of an upload between two states. -/
structure Evolves (v v' : UploadState) : Prop where
  /-- An upload record is never lost; a closed upload keeps its state, its result and the
  summary of its parts. -/
  upload : ∀ {upload}, v.upload = some upload → ∃ upload', v'.upload = some upload' ∧
    SameUpload upload upload' ∧
    (upload.state ≠ .active → upload'.state = upload.state ∧ SameResult upload upload' ∧
      SameParts upload upload')
  /-- A completion record keeps everything but its state, which moves forward, and its
  update time. -/
  completion : ∀ {record}, v.completion = some record → ∃ record',
    v'.completion = some record' ∧ SameCompletion record record' ∧
      multipartCompletionStateRank record.state ≤ multipartCompletionStateRank record'.state

namespace Evolves

variable {drawn : Prop} {b u : String} {v v' v'' : UploadState}

theorem refl (v : UploadState) : Evolves v v where
  upload found := ⟨_, found, ⟨rfl, rfl, rfl⟩, fun _ => ⟨rfl, ⟨rfl, rfl, rfl, rfl⟩, rfl, rfl, rfl⟩⟩
  completion found := ⟨_, found, rfl, le_rfl⟩

theorem trans (h : Evolves v v') (h' : Evolves v' v'') : Evolves v v'' where
  upload found := by
    obtain ⟨upload', found', same, closed⟩ := h.upload found
    obtain ⟨upload'', found'', same', closed'⟩ := h'.upload found'
    refine ⟨upload'', found'', ⟨same'.1.trans same.1, same'.2.1.trans same.2.1,
      same'.2.2.trans same.2.2⟩, fun inactive => ?_⟩
    obtain ⟨state, result, parts⟩ := closed inactive
    obtain ⟨state', result', parts'⟩ := closed' (by rw [state]; exact inactive)
    exact ⟨state'.trans state,
      ⟨result'.1.trans result.1, result'.2.1.trans result.2.1, result'.2.2.1.trans result.2.2.1,
        result'.2.2.2.trans result.2.2.2⟩,
      parts'.1.trans parts.1, parts'.2.1.trans parts.2.1, parts'.2.2.trans parts.2.2⟩
  completion found := by
    obtain ⟨record', found', same, forward⟩ := h.completion found
    obtain ⟨record'', found'', same', forward'⟩ := h'.completion found'
    refine ⟨record'', found'', ?_, forward.trans forward'⟩
    unfold SameCompletion at same same' ⊢
    rw [← same'] at same
    exact same

theorem of_step (moved : Step drawn b u v v') : Evolves v v' := by
  cases moved with
  | skip => exact refl v
  | create issued absent opened =>
    refine ⟨fun found => ?_, (refl v).completion⟩
    rw [absent] at found
    cases found
  | @putPart upload found active n _ _ part _ now =>
    refine ⟨fun {old} found' => ?_, (refl v).completion⟩
    rw [found] at found'
    cases found'
    obtain ⟨sameBucket, sameID, -⟩ := applyMultipartPartSummary_identity upload part (v.part n) now
    refine ⟨_, rfl, ⟨sameBucket, sameID, ?_⟩, fun closed => absurd active closed⟩
    cases v.part n <;> rfl
  | prepare found active absent record =>
    refine ⟨(refl v).upload, fun {old} found' => ?_⟩
    rw [absent] at found'
    cases found'
  | mark found forward now =>
    refine ⟨(refl v).upload, fun {old} found' => ?_⟩
    rw [found] at found'
    cases found'
    exact ⟨_, rfl, rfl, forward.le⟩
  | close found active closed same parts uncleaned =>
    refine ⟨fun {old} found' => ?_, (refl v).completion⟩
    rw [found] at found'
    cases found'
    exact ⟨_, rfl, same, fun inactive => absurd active inactive⟩
  | cleanup found closed sameState same parts result removed present deleted finished =>
    refine ⟨fun {old} found' => ?_, (refl v).completion⟩
    rw [found] at found'
    cases found'
    exact ⟨_, rfl, same, fun _ => ⟨sameState, result, parts⟩⟩

end Evolves

/-- An upload appears only when its id is drawn. -/
theorem Step.drawn_of_new {drawn : Prop} {b u : String} {v v' : UploadState}
    (moved : Step drawn b u v v') (absent : v.upload = none) (present : v'.upload ≠ none) :
    drawn := by
  cases moved with
  | skip => exact absurd absent present
  | create issued _ _ => exact issued
  | putPart found => exact nomatch absent.symm.trans found
  | prepare found => exact nomatch absent.symm.trans found
  | mark => exact absurd absent present
  | close found => exact nomatch absent.symm.trans found
  | cleanup found => exact nomatch absent.symm.trans found

end Namros.Multipart
