import Namros.Library.Attempts
import Namros.Source.PhysicalStore

/-!
# Retried deletions

Both SBS stores mark a segment as deleted before they release its space, and answer every later
deletion from the mark. A deletion that fails in between is therefore reported as done by the
next one. The two theorems say for which sequences of calls this does not happen.
-/

namespace Namros.Guarantees

open Library Source

/-- The answers that callers take for a deletion: nil and `ErrNotFound`. -/
def reportsDeleted : Except StorageError Unit → Bool
  | .ok _ => true
  | .error .notFound => true
  | .error (.missing _) => true
  | .error _ => false

theorem reportsDeleted_context (e : ContextError) : reportsDeleted (.error e.error) = false := by
  cases e <;> rfl

/-- A call that its context or the delete admission ends. -/
def endedEarly (admissionError : StorageError) : AttemptKind :=
  if reportsDeleted (.error admissionError) then .misreported else .refused

/-! ## Chunks -/

section

variable {addr : PhysicalSegmentAddress} {chunkError : Nat → Option ClientError}
variable {volume : ChunkVolume} {i j count : Nat} {id : UInt64}

/-- A segment has fewer than 2^32 chunks, so that their ids differ. -/
theorem chunkID_injective (hi : i < 2 ^ 32) (hj : j < 2 ^ 32)
    (same : addr.chunkID i = addr.chunkID j) : i = j := by
  have same := congrArg UInt64.toNat same
  have := addr.startChunkID.toNat_lt
  simp only [PhysicalSegmentAddress.chunkID, UInt64.toNat_add, UInt64.toNat_ofNat'] at same
  omega

theorem lt_of_lt_chunkCount (less : i < addr.chunkCount.toNat) : i < 2 ^ 32 :=
  Nat.lt_trans less addr.chunkCount.toNat_lt

/-- The loop touches only the chunks it was given. -/
theorem deletePhysicalChunks_frame (outside : ∀ j, i ≤ j → j < i + count → id ≠ addr.chunkID j) :
    (deletePhysicalChunks addr chunkError i count volume).2 id = volume id := by
  induction count generalizing i volume with
  | zero => rfl
  | succ count ih =>
    unfold deletePhysicalChunks
    split
    · rfl
    · rw [ih fun j lower upper => outside j (by omega) (by omega)]
      exact if_neg (outside i (Nat.le_refl i) (by omega))

theorem deletePhysicalChunks_none (gone : volume id = none) :
    (deletePhysicalChunks addr chunkError i count volume).2 id = none := by
  induction count generalizing i volume with
  | zero => exact gone
  | succ count ih =>
    unfold deletePhysicalChunks
    split
    · exact gone
    · exact ih (by simp [gone])

/-- Without a failure, every chunk is deleted. -/
theorem deletePhysicalChunks_complete (works : ∀ j, i ≤ j → j < i + count → chunkError j = none) :
    (deletePhysicalChunks addr chunkError i count volume).1 = .ok () ∧
      ∀ j, i ≤ j → j < i + count →
        (deletePhysicalChunks addr chunkError i count volume).2 (addr.chunkID j) = none := by
  induction count generalizing i volume with
  | zero => exact ⟨rfl, fun j lower upper => by omega⟩
  | succ count ih =>
    unfold deletePhysicalChunks
    rw [works i (Nat.le_refl i) (by omega)]
    dsimp only
    obtain ⟨answer, gone⟩ := @ih
      (fun id => if id = addr.chunkID i then none else volume id) (i + 1)
      fun j lower upper => works j (by omega) (by omega)
    refine ⟨answer, fun j lower upper => ?_⟩
    by_cases first : j = i
    · exact deletePhysicalChunks_none (by simp [first])
    · exact gone j (by omega) (by omega)

/-- With a failure, the chunk it is about stays. -/
theorem deletePhysicalChunks_abandoned (addr : PhysicalSegmentAddress) (volume : ChunkVolume)
    (bound : i + count ≤ 2 ^ 32) (fails : ∃ j, i ≤ j ∧ j < i + count ∧ chunkError j ≠ none) :
    (∃ detail, (deletePhysicalChunks addr chunkError i count volume).1 =
        .error (.unavailable detail)) ∧
      ∃ j, i ≤ j ∧ j < i + count ∧
        (deletePhysicalChunks addr chunkError i count volume).2 (addr.chunkID j) =
          volume (addr.chunkID j) := by
  induction count generalizing i volume with
  | zero => omega
  | succ count ih =>
    unfold deletePhysicalChunks
    cases first : chunkError i with
    | some e => exact ⟨⟨_, rfl⟩, i, Nat.le_refl i, by omega, rfl⟩
    | none =>
      obtain ⟨k, lower, upper, failed⟩ := fails
      have later : i ≠ k := fun same => failed (same ▸ first)
      obtain ⟨answer, j, lower, upper, kept⟩ := ih (i := i + 1)
        (fun id => if id = addr.chunkID i then none else volume id) (by omega)
        ⟨k, by omega, by omega, failed⟩
      refine ⟨answer, j, by omega, by omega, kept.trans (if_neg fun same => ?_)⟩
      have := chunkID_injective (by omega) (by omega) same
      omega

end

/-! ## The physical-chunk store -/

section

variable {config : PhysicalConfig} {addr : PhysicalSegmentAddress} {ref : SegmentRef}
variable {s : PhysicalStore} {answers : PhysicalDeleteAnswers}

def physicalKind (addr : PhysicalSegmentAddress) (answers : PhysicalDeleteAnswers) : AttemptKind :=
  match answers.contextError, answers.admissionError with
  | some _, _ => .refused
  | none, some e => endedEarly e
  | none, none =>
    if ∀ i < addr.chunkCount.toNat, answers.chunkError i = none then .completed
    else .abandoned false

/-- Every chunk of the segment is deleted. -/
def ChunksDeleted (addr : PhysicalSegmentAddress) (s : PhysicalStore) : Prop :=
  ∀ i < addr.chunkCount.toNat, s.volume (addr.chunkID i) = none

/-- Every chunk of the segment is there. -/
def ChunksStored (addr : PhysicalSegmentAddress) (s : PhysicalStore) : Prop :=
  ∀ i < addr.chunkCount.toNat, s.volume (addr.chunkID i) ≠ none

/-- No deletion brings a chunk back, and one that its context ends does nothing. -/
theorem deleteSegment_volume_none {id : UInt64} (gone : s.volume id = none) :
    (s.deleteSegment config answers ref).2.volume id = none := by
  unfold PhysicalStore.deleteSegment
  split
  · exact gone
  split
  · exact gone
  split
  · exact gone
  split
  · exact gone
  split
  · exact gone
  dsimp only
  split
  · exact deletePhysicalChunks_none gone
  · exact gone

/-- The states of the segment: stored, and marked with some chunk left. -/
def PhysicalStored (addr : PhysicalSegmentAddress) (ref : SegmentRef) (s : PhysicalStore) : Prop :=
  ref.segmentID ∉ s.deleted ∧ ChunksStored addr s

def PhysicalMarked (addr : PhysicalSegmentAddress) (ref : SegmentRef) (s : PhysicalStore) : Prop :=
  ref.segmentID ∈ s.deleted ∧ ¬ ChunksDeleted addr s

theorem endedEarly_effect {σ : Type} {unbegun begun done : σ → Prop} (e : StorageError) {s : σ}
    (still : unbegun s) (undone : ¬ done s) :
    (endedEarly e).Effect (fun answer => reportsDeleted answer = true) unbegun begun done
      (.error e, s) := by
  unfold endedEarly
  split
  · next reports => exact ⟨reports, undone⟩
  · next silent => exact ⟨silent, still⟩

theorem physical_laws (deleter : config.deletesChunks = true)
    (decoded : decodePhysicalSegmentID ref.segmentID = .ok addr)
    (volume : addr.volumeID = config.volumeID) (nonempty : addr.chunkCount ≠ 0) :
    TaskLaws (fun answers s => s.deleteSegment config answers ref)
      (fun answer => reportsDeleted answer = true) (PhysicalStored addr ref)
      (PhysicalMarked addr ref) (ChunksDeleted addr) (physicalKind addr)
      (fun answers => answers.contextError.isSome = true) where
  first := by
    rintro answers s ⟨unmarked, stored⟩
    have first : 0 < addr.chunkCount.toNat :=
      UInt32.lt_iff_toNat_lt.mp (UInt32.pos_iff_ne_zero.mpr nonempty)
    have undone : ¬ ChunksDeleted addr s := fun gone => stored 0 first (gone 0 first)
    cases context : answers.contextError with
    | some e =>
      simp only [PhysicalStore.deleteSegment, physicalKind, context]
      exact ⟨by simp [reportsDeleted_context], unmarked, stored⟩
    | none =>
      cases admission : answers.admissionError with
      | some e =>
        simp only [PhysicalStore.deleteSegment, context, decoded, volume, ne_eq, not_true, if_false,
          unmarked, admission, physicalKind]
        exact endedEarly_effect e ⟨unmarked, stored⟩ undone
      | none =>
        simp only [PhysicalStore.deleteSegment, context, decoded, volume, ne_eq, not_true, if_false,
          unmarked, admission, deleter, if_true, physicalKind]
        split
        · next works =>
          intro i less
          exact (deletePhysicalChunks_complete fun j _ upper => works j (by omega)).2 i
            (Nat.zero_le i) (by omega)
        · next fails =>
          have bound : 0 + addr.chunkCount.toNat ≤ 2 ^ 32 := by
            have := addr.chunkCount.toNat_lt
            omega
          have failing : ∃ j, 0 ≤ j ∧ j < 0 + addr.chunkCount.toNat ∧
              answers.chunkError j ≠ none := by
            simpa using fails
          obtain ⟨⟨detail, reply⟩, j, -, upper, kept⟩ :=
            deletePhysicalChunks_abandoned addr s.volume bound failing
          refine ⟨by rw [reply]; simp [reportsDeleted], List.mem_cons_self, fun gone => ?_⟩
          exact stored j (by omega) (kept.symm.trans (gone j (by omega)))
  marked := by
    rintro answers s ⟨marked, undone⟩
    unfold PhysicalStore.deleteSegment
    cases answers.contextError with
    | some e => exact ⟨by simp [reportsDeleted_context], marked, undone⟩
    | none =>
      simp only [decoded, volume, marked, ne_eq, not_true, if_false, if_true]
      exact ⟨by simp [reportsDeleted], marked, undone⟩
  undone := fun marked => marked.2
  remains := fun gone i less => deleteSegment_volume_none (gone i less)

end

/-! ## The volume-offset store -/

section

variable {config : OffsetConfig} {extent : OffsetExtent} {ref : SegmentRef}
variable {s : OffsetStore} {answers : OffsetDeleteAnswers}

def offsetKind (answers : OffsetDeleteAnswers) : AttemptKind :=
  match answers.contextError, answers.admissionError, answers.saveError, answers.discardError with
  | some _, _, _, _ => .refused
  | none, some e, _, _ => endedEarly e
  | none, none, some e, _ => .abandoned (reportsDeleted (.error e))
  | none, none, none, some e => .abandoned (reportsDeleted (.error (mapSBSError e)))
  | none, none, none, none => .completed

/-- A deletion, with every extent discarded so far. -/
def offsetDelete (config : OffsetConfig) (ref : SegmentRef) (answers : OffsetDeleteAnswers)
    (at_ : OffsetStore × List OffsetExtent) :
    Except StorageError Unit × OffsetStore × List OffsetExtent :=
  let (answer, s, discarded) := at_.1.deleteSegment config answers ref
  (answer, s, discarded.toList ++ at_.2)

/-- The extent of the segment is discarded, if it has any block. -/
def ExtentDiscarded (extent : OffsetExtent) (at_ : OffsetStore × List OffsetExtent) : Prop :=
  extent.paddedLength ≠ 0 → extent ∈ at_.2

def OffsetStored (extent : OffsetExtent) (ref : SegmentRef)
    (at_ : OffsetStore × List OffsetExtent) : Prop :=
  ref.segmentID ∉ at_.1.state.deleted ∧ ¬ ExtentDiscarded extent at_

def OffsetMarked (extent : OffsetExtent) (ref : SegmentRef)
    (at_ : OffsetStore × List OffsetExtent) : Prop :=
  ref.segmentID ∈ at_.1.state.deleted ∧ ¬ ExtentDiscarded extent at_

theorem offset_laws (decoded : decodeSegmentID ref.segmentID = .ok (config.volumeID, extent))
    (nonempty : extent.paddedLength ≠ 0) :
    TaskLaws (offsetDelete config ref) (fun answer => reportsDeleted answer = true)
      (OffsetStored extent ref) (OffsetMarked extent ref) (ExtentDiscarded extent) offsetKind
      (fun answers => answers.contextError.isSome = true) where
  first := by
    rintro answers ⟨s, log⟩ ⟨unmarked, undone⟩
    unfold offsetDelete OffsetStore.deleteSegment offsetKind
    cases answers.contextError with
    | some e => exact ⟨by simp [reportsDeleted_context], unmarked, undone⟩
    | none =>
      simp only [decoded, ne_eq, not_true_eq_false, if_false, if_neg unmarked]
      cases answers.admissionError with
      | some e => exact endedEarly_effect e ⟨unmarked, undone⟩ undone
      | none =>
        cases answers.saveError with
        | some e => exact ⟨Iff.rfl, List.mem_cons_self, undone⟩
        | none =>
          simp only [OffsetStore.saveState, if_neg nonempty]
          cases answers.discardError with
          | some e => exact ⟨Iff.rfl, List.mem_cons_self, undone⟩
          | none => exact fun _ => List.mem_cons_self
  marked := by
    rintro answers at_ ⟨marked, undone⟩
    unfold offsetDelete OffsetStore.deleteSegment
    cases answers.contextError with
    | some e => exact ⟨by simp [reportsDeleted_context], marked, undone⟩
    | none =>
      simp only [decoded, marked, ne_eq, not_true, if_false, if_true]
      exact ⟨by simp [reportsDeleted], marked, undone⟩
  undone := fun marked => marked.2
  remains := fun gone some => List.mem_append_right _ (gone some)

end

/-! ## Both stores -/

variable {ref : SegmentRef}

/-- An id with a volume that has a colon is refused, with an error nobody takes for a
deletion. -/
theorem decode_colon (format : AddressFormat) (parts : AddressParts)
    (colon : ':' ∈ parts.volumeID.toList) :
    ∃ e, format.decode (format.encode parts) = .error e ∧ reportsDeleted (.error e) = false := by
  cases decoded : format.decode (format.encode parts) with
  | ok parts' => exact absurd colon (format.colon_notMem_of_decode decoded)
  | error e =>
    obtain ⟨detail, rfl⟩ := format.decode_error decoded
    exact ⟨_, rfl, rfl⟩

theorem decodePhysicalSegmentID_colon {addr : PhysicalSegmentAddress}
    (colon : ':' ∈ addr.volumeID.toList) :
    ∃ e, decodePhysicalSegmentID (encodePhysicalSegmentID addr) = .error e ∧
      reportsDeleted (.error e) = false := by
  unfold decodePhysicalSegmentID encodePhysicalSegmentID
  generalize parts : AddressParts.mk _ _ _ _ = address
  obtain ⟨e, invalid, silent⟩ := decode_colon physicalFormat address
    (by rw [← parts]; exact colon)
  exact ⟨e, by rw [invalid]; rfl, silent⟩

theorem decodeSegmentID_colon {volumeID : String} (extent : OffsetExtent)
    (colon : ':' ∈ volumeID.toList) :
    ∃ e, decodeSegmentID (encodeSegmentID volumeID extent) = .error e ∧
      reportsDeleted (.error e) = false := by
  unfold decodeSegmentID encodeSegmentID
  generalize parts : AddressParts.mk _ _ _ _ = address
  obtain ⟨e, invalid, silent⟩ := decode_colon offsetFormat address
    (by rw [← parts]; exact colon)
  exact ⟨e, by rw [invalid]; rfl, silent⟩

theorem physical_truthful_iff {config : PhysicalConfig} {addr : PhysicalSegmentAddress}
    {s : PhysicalStore} {calls : List PhysicalDeleteAnswers} (deleter : config.deletesChunks = true)
    (volume : addr.volumeID = config.volumeID) (id : ref.segmentID = encodePhysicalSegmentID addr)
    (stored : PhysicalStored addr ref s) :
    Truthful (fun answer => reportsDeleted answer = true) (ChunksDeleted addr)
        (attempts (fun answers s => s.deleteSegment config answers ref) calls s) ↔
      ':' ∈ config.volumeID.toList ∨ addr.chunkCount = 0 ∨
        NeverPremature (physicalKind addr) (fun answers => answers.contextError.isSome = true)
          calls := by
  by_cases colon : ':' ∈ config.volumeID.toList
  · obtain ⟨e, invalid, silent⟩ := decodePhysicalSegmentID_colon (volume ▸ colon)
    refine iff_of_true (truthful_of_silent fun answers s => ?_) (.inl colon)
    unfold PhysicalStore.deleteSegment
    cases answers.contextError with
    | some e => simp [reportsDeleted_context]
    | none => simp [id, invalid, silent]
  have decoded : decodePhysicalSegmentID ref.segmentID = .ok addr :=
    id ▸ decodePhysicalSegmentID_encode (volume ▸ colon)
  by_cases empty : addr.chunkCount = 0
  · refine iff_of_true (fun _ _ _ i less => ?_) (.inr (.inl empty))
    simp [empty] at less
  · rw [(physical_laws deleter decoded volume empty).truthful_iff stored]
    simp [colon, empty]

theorem offset_truthful_iff {config : OffsetConfig} {extent : OffsetExtent} {s : OffsetStore}
    {calls : List OffsetDeleteAnswers} (id : ref.segmentID = encodeSegmentID config.volumeID extent)
    (unmarked : ref.segmentID ∉ s.state.deleted) :
    Truthful (fun answer => reportsDeleted answer = true) (ExtentDiscarded extent)
        (attempts (offsetDelete config ref) calls (s, [])) ↔
      ':' ∈ config.volumeID.toList ∨ extent.paddedLength = 0 ∨
        NeverPremature offsetKind (fun answers => answers.contextError.isSome = true) calls := by
  by_cases colon : ':' ∈ config.volumeID.toList
  · obtain ⟨e, invalid, silent⟩ := decodeSegmentID_colon extent colon
    refine iff_of_true (truthful_of_silent fun answers at_ => ?_) (.inl colon)
    unfold offsetDelete OffsetStore.deleteSegment
    cases answers.contextError with
    | some e => simp [reportsDeleted_context]
    | none => simp [id, invalid, silent]
  have decoded : decodeSegmentID ref.segmentID = .ok (config.volumeID, extent) :=
    id ▸ decodeSegmentID_encode colon extent
  by_cases empty : extent.paddedLength = 0
  · exact iff_of_true (fun _ _ _ some => absurd empty some) (.inr (.inl empty))
  have stored : OffsetStored extent ref (s, []) :=
    ⟨unmarked, fun discarded => List.not_mem_nil (discarded empty)⟩
  rw [(offset_laws decoded empty).truthful_iff stored]
  simp [colon, empty]

/-- A sequence of deletions of a stored segment reports it as deleted only once its space is
released: for each store exactly under the condition on the right. -/
theorem deletions_truthful_iff {physical : PhysicalConfig} {addr : PhysicalSegmentAddress}
    {chunked : SegmentRef} {chunkStore : PhysicalStore} {chunkCalls : List PhysicalDeleteAnswers}
    {offset : OffsetConfig} {extent : OffsetExtent} {placed : SegmentRef}
    {offsetStore : OffsetStore} {offsetCalls : List OffsetDeleteAnswers}
    (deleter : physical.deletesChunks = true) (volume : addr.volumeID = physical.volumeID)
    (chunkedID : chunked.segmentID = encodePhysicalSegmentID addr)
    (stored : PhysicalStored addr chunked chunkStore)
    (placedID : placed.segmentID = encodeSegmentID offset.volumeID extent)
    (unmarked : placed.segmentID ∉ offsetStore.state.deleted) :
    (Truthful (fun answer => reportsDeleted answer = true) (ChunksDeleted addr)
        (attempts (fun answers s => s.deleteSegment physical answers chunked) chunkCalls
          chunkStore) ↔
      ':' ∈ physical.volumeID.toList ∨ addr.chunkCount = 0 ∨
        NeverPremature (physicalKind addr) (fun answers => answers.contextError.isSome = true)
          chunkCalls) ∧
    (Truthful (fun answer => reportsDeleted answer = true) (ExtentDiscarded extent)
        (attempts (offsetDelete offset placed) offsetCalls (offsetStore, [])) ↔
      ':' ∈ offset.volumeID.toList ∨ extent.paddedLength = 0 ∨
        NeverPremature offsetKind (fun answers => answers.contextError.isSome = true)
          offsetCalls) :=
  ⟨physical_truthful_iff deleter volume chunkedID stored, offset_truthful_iff placedID unmarked⟩

/-! ### Two chunks, and one extent -/

def twoChunks : PhysicalSegmentAddress :=
  { volumeID := "v", startChunkID := 5, chunkCount := 2, sizeBytes := 8 }

def twoChunkConfig : PhysicalConfig := { volumeID := "v", chunkSize := 4 }

def twoChunkRef : SegmentRef :=
  physicalSegmentRef twoChunkConfig { storageClassID := "hot" } twoChunks "" 0

def twoChunkStore : PhysicalStore :=
  { volume := fun id => if id = 5 ∨ id = 6 then some [1, 2, 3, 4] else none }

def oneBlock : OffsetExtent := { offset := 0, paddedLength := 4, sequence := 1 }

def oneBlockConfig : OffsetConfig := { volumeID := "v", blockSize := 4, volumeSize := 64 }

def oneBlockRef : SegmentRef :=
  offsetSegmentRef oneBlockConfig { storageClassID := "hot" } oneBlock 4 "" 0

theorem twoChunkStore_stored : PhysicalStored twoChunks twoChunkRef twoChunkStore :=
  ⟨List.not_mem_nil, by unfold ChunksStored; decide⟩

/-- The calls of both stores: refused once, then completed, then repeated. -/
def chunkRetries : List PhysicalDeleteAnswers :=
  [{ admissionError := some (.isProtected "held") }, {}, {}]

def offsetRetries : List OffsetDeleteAnswers :=
  [{ admissionError := some (.isProtected "held") }, {}, {}]

theorem refused_then_completed_is_truthful :
    PhysicalStored twoChunks twoChunkRef twoChunkStore ∧
      Truthful (fun answer => reportsDeleted answer = true) (ChunksDeleted twoChunks)
        (attempts (fun answers s => s.deleteSegment twoChunkConfig answers twoChunkRef)
          chunkRetries twoChunkStore) ∧
      Truthful (fun answer => reportsDeleted answer = true) (ExtentDiscarded oneBlock)
        (attempts (offsetDelete oneBlockConfig oneBlockRef) offsetRetries ({}, [])) := by
  have unmarked : oneBlockRef.segmentID ∉ ({} : OffsetStore).state.deleted := List.not_mem_nil
  obtain ⟨chunks, blocks⟩ :=
    @deletions_truthful_iff twoChunkConfig twoChunks twoChunkRef twoChunkStore chunkRetries
      oneBlockConfig oneBlock oneBlockRef {} offsetRetries rfl rfl rfl twoChunkStore_stored rfl
      unmarked
  exact ⟨twoChunkStore_stored, chunks.mpr (by decide), blocks.mpr (by decide)⟩

/-- A failed request, and the call is repeated. -/
theorem failed_release_reported_as_deleted :
    ¬ Truthful (fun answer => reportsDeleted answer = true) (ChunksDeleted twoChunks)
        (attempts (fun answers s => s.deleteSegment twoChunkConfig answers twoChunkRef)
          [{ chunkError := fun i => if i = 1 then some (.other "timeout") else none }, {}]
          twoChunkStore) ∧
      ¬ Truthful (fun answer => reportsDeleted answer = true) (ExtentDiscarded oneBlock)
        (attempts (offsetDelete oneBlockConfig oneBlockRef)
          [{ discardError := some (.sbs .unavailable "timeout") }, {}] ({}, [])) := by
  constructor
  · rw [physical_truthful_iff rfl rfl rfl twoChunkStore_stored]
    decide
  · rw [offset_truthful_iff rfl List.not_mem_nil]
    decide

end Namros.Guarantees
