import Namros.Guarantees.ChunkRoundTrip

/-!
# Isolation of segments of the physical-chunk store

Deleting one segment does not change what is read of another, before and after a restart, unless
both are empty: all empty segments share one id, and the mark of one is the mark of all until
the store is opened again.
-/

namespace Namros.Guarantees

open Library Source

section

variable {config : PhysicalConfig} {readChunk : ReadChunk} {r : PhysicalReader}
variable {s t u : PhysicalStore} {addr : PhysicalSegmentAddress}

/-! ## What is read of a segment -/

/-- The results of reads with these buffers. -/
def readResults (config : PhysicalConfig) (readChunk : ReadChunk) :
    List Nat → PhysicalReader → PhysicalStore → List ReadResult
  | [], _, _ => []
  | n :: buffers, r, s =>
    let (result, r', s') := r.read config readChunk none 0 n s
    result :: readResults config readChunk buffers r' s'

/-- The outcome of `GetSegment` and of reads with these buffers. -/
def getOutcome (config : PhysicalConfig) (readChunk : ReadChunk) (ref : SegmentRef)
    (off length : UInt64) (buffers : List Nat) (s : PhysicalStore) :
    Except StorageError (List ReadResult) :=
  (s.getSegment config none ref off length true).map fun r =>
    readResults config readChunk buffers r s

/-- From the reader's position on, chunks are cached only with their content. -/
def CleanAhead (config : PhysicalConfig) (r : PhysicalReader) (s : PhysicalStore) : Prop :=
  r.remaining ≠ 0 → ∀ entry ∈ s.cache.entries,
    ∀ k, r.nextOffset.toNat / config.chunkSize.toNat ≤ k → k < r.addr.chunkCount.toNat →
      entry.chunkID = r.addr.chunkID k → s.volume entry.chunkID = some entry.data

/-- The reader's range is inside its segment. -/
structure Ranged (config : PhysicalConfig) (r : PhysicalReader) : Prop where
  unwrapped : Unwrapped config r.addr.sizeBytes.toNat
  covers : ∀ o < r.addr.sizeBytes.toNat, o / config.chunkSize.toNat < r.addr.chunkCount.toNat
  position : r.nextOffset.toNat + r.remaining.toNat ≤ r.addr.sizeBytes.toNat

/-- Two stores with the same content of the segment, as far as it is still to be read. -/
structure Alike (config : PhysicalConfig) (r : PhysicalReader) (s t : PhysicalStore) : Prop where
  volume : ∀ id ∈ chunkIDs r.addr, t.volume id = s.volume id
  left : CleanAhead config r s
  right : CleanAhead config r t

/-- Past a chunk, the range goes on with the next. -/
theorem advance_div (positive : 0 < config.chunkSize.toNat) (ranged : Ranged config r)
    (more : 0 < r.remaining.toNat)
    (goesOn : (r.advance (r.nextWindow config).chunkLength).remaining ≠ 0) :
    (r.advance (r.nextWindow config).chunkLength).nextOffset.toNat / config.chunkSize.toNat =
      r.nextOffset.toNat / config.chunkSize.toNat + 1 := by
  obtain ⟨-, -, length⟩ := nextWindow_numbers positive (.inr ranged.unwrapped) ranged.position
  obtain ⟨-, -, offset, rest⟩ := advance_numbers positive (.inr ranged.unwrapped) ranged.position more
  have left := UInt64.lt_iff_toNat_lt.mp (UInt64.pos_iff_ne_zero.mpr goesOn)
  have whole := Nat.div_add_mod' r.nextOffset.toNat config.chunkSize.toNat
  have part := Nat.mod_lt r.nextOffset.toNat positive
  rw [UInt64.toNat_zero] at left
  have boundary : (r.advance (r.nextWindow config).chunkLength).nextOffset.toNat =
      (r.nextOffset.toNat / config.chunkSize.toNat + 1) * config.chunkSize.toNat := by
    rw [Nat.add_mul, Nat.one_mul]
    omega
  rw [boundary, Nat.mul_div_cancel _ positive]

/-- What the next chunk brings, by its content alone. -/
theorem next_clean (positive : 0 < config.chunkSize.toNat) (faithful : Faithful readChunk)
    (ranged : Ranged config r) (more : r.remaining ≠ 0) (clean : CleanAhead config r s) :
    match windowAnswer readChunk (s.volume (r.nextWindow config).physicalChunkID)
        (r.nextWindow config) with
    | .ok data => ∃ s', r.readNextChunk config readChunk none 0 s =
          (.ok data, r.advance (r.nextWindow config).chunkLength, s') ∧
        s'.volume = s.volume ∧
        CleanAhead config (r.advance (r.nextWindow config).chunkLength) s'
    | .error e => ∃ s', r.readNextChunk config readChunk none 0 s = (.error e, r, s') ∧
        s'.volume = s.volume ∧ CleanAhead config r s' := by
  have more' : 0 < r.remaining.toNat := UInt64.lt_iff_toNat_lt.mp (UInt64.pos_iff_ne_zero.mpr more)
  obtain ⟨id, -, -⟩ := nextWindow_numbers positive (.inr ranged.unwrapped) ranged.position
  have inside := ranged.covers r.nextOffset.toNat (by have := ranged.position; omega)
  have current : ∀ entry ∈ s.cache.entries,
      entry.chunkID = (r.nextWindow config).physicalChunkID →
        s.volume (r.nextWindow config).physicalChunkID = some entry.data := by
    intro entry member same
    rw [← same]
    exact clean more entry member _ (Nat.le_refl _) inside (same.trans id)
  have spec := readNextChunk_spec 0 faithful current
  generalize windowAnswer readChunk (s.volume (r.nextWindow config).physicalChunkID)
    (r.nextWindow config) = answer at spec
  cases answer with
  | ok data =>
    obtain ⟨cache, next, entries⟩ := spec
    refine ⟨_, next, rfl, fun goesOn entry member k lower upper same => ?_⟩
    rw [advance_div positive ranged more' goesOn] at lower
    rcases entries entry member with old | new
    · exact clean more entry old k (by omega) upper same
    -- the chunk that was added is behind the reader
    have here : r.addr.chunkID k = r.addr.chunkID
        (r.nextOffset.toNat / config.chunkSize.toNat) := by
      rw [← id, ← new.id]
      exact same.symm
    have := chunkID_injective (lt_of_lt_chunkCount upper) (lt_of_lt_chunkCount inside) here
    omega
  | error e =>
    refine ⟨_, spec, by simp, fun goesOn entry member k lower upper same => ?_⟩
    simp only [recordPhysicalRepair_cache] at member
    simp only [recordPhysicalRepair_volume]
    exact clean goesOn entry member k lower upper same

/-- A read from either store gives the same. -/
theorem Alike.read {n : Nat} (alike : Alike config r s t) (positive : 0 < config.chunkSize.toNat)
    (faithful : Faithful readChunk) (ranged : Ranged config r) :
    ∃ result r' s' t', r.read config readChunk none 0 n s = (result, r', s') ∧
      r.read config readChunk none 0 n t = (result, r', t') ∧ Alike config r' s' t' ∧
      Ranged config r' := by
  unfold PhysicalReader.read
  by_cases none : n = 0
  · exact ⟨_, _, s, t, if_pos none, if_pos none, alike, ranged⟩
  rw [if_neg none, if_neg none]
  by_cases closed : r.closed = true
  · exact ⟨_, _, s, t, if_pos closed, if_pos closed, alike, ranged⟩
  rw [if_neg closed, if_neg closed]
  by_cases buffered : r.buf ≠ []
  · exact ⟨_, _, s, t, if_pos buffered, if_pos buffered,
      ⟨alike.volume, alike.left, alike.right⟩, ⟨ranged.unwrapped, ranged.covers, ranged.position⟩⟩
  rw [if_neg buffered, if_neg buffered]
  by_cases ended : r.remaining = 0
  · exact ⟨_, _, s, t, if_pos ended, if_pos ended, alike, ranged⟩
  rw [if_neg ended, if_neg ended]
  have more : 0 < r.remaining.toNat := UInt64.lt_iff_toNat_lt.mp (UInt64.pos_iff_ne_zero.mpr ended)
  obtain ⟨id, -, -⟩ := nextWindow_numbers positive (.inr ranged.unwrapped) ranged.position
  obtain ⟨-, short, offset, rest⟩ :=
    advance_numbers positive (.inr ranged.unwrapped) ranged.position more
  have inside := ranged.covers r.nextOffset.toNat (by have := ranged.position; omega)
  have content : t.volume (r.nextWindow config).physicalChunkID =
      s.volume (r.nextWindow config).physicalChunkID := by
    rw [id]
    exact alike.volume _ (mem_chunkIDs inside)
  have left := next_clean positive faithful ranged ended alike.left
  have right := next_clean positive faithful ranged ended alike.right
  rw [content] at right
  cases answer : windowAnswer readChunk (s.volume (r.nextWindow config).physicalChunkID)
      (r.nextWindow config) with
  | ok data =>
    rw [answer] at left right
    obtain ⟨s', fromLeft, sameLeft, cleanLeft⟩ := left
    obtain ⟨t', fromRight, sameRight, cleanRight⟩ := right
    rw [fromLeft, fromRight]
    refine ⟨_, _, s', t', rfl, rfl, ⟨?_, cleanLeft, cleanRight⟩,
      ⟨ranged.unwrapped, ranged.covers, ?_⟩⟩
    · intro id member
      rw [sameLeft, sameRight]
      exact alike.volume id member
    · show (r.advance _).nextOffset.toNat + (r.advance _).remaining.toNat ≤ r.addr.sizeBytes.toNat
      have := ranged.position
      omega
  | error e =>
    rw [answer] at left right
    obtain ⟨s', fromLeft, sameLeft, cleanLeft⟩ := left
    obtain ⟨t', fromRight, sameRight, cleanRight⟩ := right
    rw [fromLeft, fromRight]
    refine ⟨_, _, s', t', rfl, rfl, ⟨?_, cleanLeft, cleanRight⟩, ranged⟩
    intro id member
    rw [sameLeft, sameRight]
    exact alike.volume id member

theorem Alike.readResults {buffers : List Nat} (alike : Alike config r s t)
    (positive : 0 < config.chunkSize.toNat) (faithful : Faithful readChunk)
    (ranged : Ranged config r) :
    readResults config readChunk buffers r t = readResults config readChunk buffers r s := by
  induction buffers generalizing r s t with
  | nil => rfl
  | cons n buffers ih =>
    obtain ⟨result, r', s', t', left, right, alike', ranged'⟩ :=
      alike.read (n := n) positive faithful ranged
    simp only [Guarantees.readResults, left, right, ih alike' ranged']

/-! ## Deletions of another segment -/

variable {ref ref₁ ref₂ : SegmentRef} {req req₁ req₂ : PutSegmentRequest}
variable {addr₁ addr₂ : PhysicalSegmentAddress} {live live₁ live₂ : Prop}

/-- A deletion that succeeds finds its segment unmarked, and marks it. -/
theorem deleteSegment_ok {answers : PhysicalDeleteAnswers}
    (succeeds : (s.deleteSegment config answers ref).1 = .ok ()) :
    ref.segmentID ∉ s.deleted ∧
      ref.segmentID ∈ (s.deleteSegment config answers ref).2.deleted ∧
      ∃ addr, decodePhysicalSegmentID ref.segmentID = .ok addr := by
  unfold PhysicalStore.deleteSegment at succeeds ⊢
  cases context : answers.contextError with
  | some e => simp [context] at succeeds
  | none =>
    cases decoded : decodePhysicalSegmentID ref.segmentID with
    | error e => simp [context, decoded] at succeeds
    | ok addr =>
      by_cases foreign : addr.volumeID ≠ config.volumeID
      · simp [context, decoded, foreign] at succeeds
      by_cases marked : ref.segmentID ∈ s.deleted
      · simp [context, decoded, foreign, marked] at succeeds
      cases admission : answers.admissionError with
      | some e => simp [context, decoded, foreign, marked, admission] at succeeds
      | none =>
        refine ⟨marked, ?_, addr, rfl⟩
        dsimp only
        rw [if_neg foreign, if_neg marked]
        split <;> exact List.mem_cons_self

theorem Coherent.cleanAhead (coherent : Coherent config s) : CleanAhead config r s :=
  fun _ entry member _ _ _ _ => (coherent entry member).2

/-- Stores with the same marks and the same content of the segment give the same. -/
theorem getOutcome_congr {off length : UInt64} {buffers : List Nat}
    (returned : Returned config u live req ref addr) (positive : 0 < config.chunkSize.toNat)
    (unwrapped : Unwrapped config req.sizeBytes.toNat) (faithful : Faithful readChunk)
    (marks : ref.segmentID ∈ t.deleted ↔ ref.segmentID ∈ s.deleted)
    (volume : ∀ id ∈ chunkIDs addr, t.volume id = s.volume id)
    (left : Coherent config s) (right : Coherent config t) :
    getOutcome config readChunk ref off length buffers t =
      getOutcome config readChunk ref off length buffers s := by
  have same : t.getSegment config none ref off length true =
      s.getSegment config none ref off length true := by simp only [PhysicalStore.getSegment, marks]
  unfold getOutcome
  rw [same]
  cases got : s.getSegment config none ref off length true with
  | error e => rfl
  | ok r =>
    obtain ⟨opened, -⟩ := getSegment_ok returned.segmentID got
    have ranged : Ranged config r := by
      refine ⟨?_, ?_, ?_⟩
      · rw [opened.segment, returned.sizeBytes]
        exact unwrapped
      · rw [opened.segment]
        exact returned.covers
      · rw [opened.segment, opened.offset, opened.remaining]
        exact opened.inside
    have alike : Alike config r s t :=
      ⟨opened.segment ▸ volume, left.cleanAhead, right.cleanAhead⟩
    exact congrArg Except.ok (alike.readResults positive faithful ranged)

/-- `GetSegment` and the reads after it give the same from both stores, for every range. -/
def SameOutcome (config : PhysicalConfig) (readChunk : ReadChunk) (ref : SegmentRef)
    (s t : PhysicalStore) : Prop :=
  ∀ off length buffers, getOutcome config readChunk ref off length buffers t =
    getOutcome config readChunk ref off length buffers s

/-- In any run from an empty store, a deletion that succeeds changes nothing of what is read of
the segment of another put, before and after a restart, unless both segments are empty. -/
theorem deletion_isolated_iff {platform : Platform} {requests : List PutSegmentRequest}
    {events : List PhysicalEvent} {i j : Nat} {answers : PhysicalDeleteAnswers}
    (positive : 0 < config.chunkSize)
    (sizes : ∀ req ∈ requests, Unwrapped config req.sizeBytes.toNat) (faithful : Faithful readChunk)
    (run : Throughout (PhysicalSystem.step config platform readChunk)
      (fun sys event => FreshChunks config platform readChunk sys event ∧ LiveReads sys event)
      { calls := requests.map (·, .start) } events) :
    let final := events.foldl (PhysicalSystem.step config platform readChunk)
      { calls := requests.map (·, .start) }
    let after := (final.store.deleteSegment config answers ref₁).2
    final.calls[i]? = some (req₁, .returned (.ok ref₁)) →
      final.calls[j]? = some (req₂, .returned (.ok ref₂)) → i ≠ j →
      (final.store.deleteSegment config answers ref₁).1 = .ok () →
      (SameOutcome config readChunk ref₂ final.store after ∧
          SameOutcome config readChunk ref₂ final.store.reopen after.reopen ↔
        ¬ (req₁.sizeBytes = 0 ∧ req₂.sizeBytes = 0)) := by
  have positive : 0 < config.chunkSize.toNat := UInt64.lt_iff_toNat_lt.mp positive
  have sound := run.invariant (I := Sound config) (.fresh sizes) fun sys event inv meets =>
    inv.step positive faithful meets.1 meets.2
  intro final after first second distinct succeeds
  obtain ⟨addr₁, returned₁⟩ := sound.calls first
  obtain ⟨addr₂, returned₂⟩ := sound.calls second
  obtain ⟨unmarked, marked, decoded, valid⟩ := deleteSegment_ok succeeds
  have effect : DeleteEffect config addr₁ ref₁ final.store after := by
    apply (deleteSegment_effect config answers final.store returned₁.segmentID).resolve_left
    intro same
    rw [same] at marked
    exact unmarked marked
  have colon : ':' ∉ config.volumeID.toList := by
    rw [returned₁.segmentID] at valid
    rw [← returned₁.volumeID]
    exact (decodePhysicalSegmentID_ok valid).2
  have apart : ∀ id ∈ chunkIDs addr₁, id ∉ chunkIDs addr₂ := by
    rw [← returned₁.chunksOf, ← returned₂.chunksOf]
    exact sound.apart first second distinct
  constructor
  · rintro ⟨same, -⟩ ⟨empty₁, empty₂⟩
    -- both have the id that is marked now and was not before
    have ids : ref₂.segmentID = ref₁.segmentID := by
      rw [returned₁.segmentID, returned₂.segmentID, returned₁.placed, returned₂.placed,
        returned₁.unset empty₁, returned₂.unset empty₂]
      simp [putAddress, empty₁, empty₂]
    have opens : ∃ r, final.store.getSegment config none ref₂ 0 0 true = .ok r :=
      getSegment_opens returned₂.segmentID returned₂.volumeID colon (ids ▸ unmarked) (by simp)
    obtain ⟨r, got⟩ := opens
    have answer := same 0 0 []
    unfold getOutcome at answer
    cases again : after.getSegment config none ref₂ 0 0 true with
    | error e =>
      rw [got, again] at answer
      cases answer
    | ok r' =>
      obtain ⟨-, -, free, -⟩ := getSegment_ok returned₂.segmentID again
      exact free (ids ▸ marked)
  · intro nonempty
    have other := returned₁.segmentID_ne returned₂ colon apart nonempty
    have marks : ref₂.segmentID ∈ after.deleted ↔ ref₂.segmentID ∈ final.store.deleted := by
      rw [effect.marked]
      simp [other]
    have content : ∀ id ∈ chunkIDs addr₂, after.volume id = final.store.volume id :=
      fun id member => effect.volume id fun own => apart id own member
    have unwrapped := sound.sizes _ (List.mem_of_getElem? second)
    have empty (s : PhysicalStore) : Coherent config s.reopen := by
      intro entry member
      cases member
    exact ⟨fun off length buffers => getOutcome_congr returned₂ positive unwrapped faithful marks
        content sound.coherent (effect.coherent sound.coherent),
      fun off length buffers => getOutcome_congr (s := final.store.reopen) (t := after.reopen)
        returned₂ positive unwrapped faithful .rfl content (empty _) (empty _)⟩

end

/-! ### Runs -/

theorem other_segment_read_as_before :
    let final := putAndRead.foldl
      (PhysicalSystem.step smallChunks plainPlatform plainReadChunk)
      { calls := [physicalPut [1, 2, 3, 4, 5, 6], physicalPut []].map (·, .start) }
    ∃ ref₁ ref₂, final.calls[0]? = some (physicalPut [1, 2, 3, 4, 5, 6], .returned (.ok ref₁)) ∧
      final.calls[1]? = some (physicalPut [], .returned (.ok ref₂)) ∧
      (final.store.deleteSegment smallChunks {} ref₁).1 = .ok () ∧
      SameOutcome smallChunks plainReadChunk ref₂ final.store
        (final.store.deleteSegment smallChunks {} ref₁).2 := by
  intro final
  have sizes : ∀ req ∈ [physicalPut [1, 2, 3, 4, 5, 6], physicalPut []],
      Unwrapped smallChunks req.sizeBytes.toNat := by
    unfold Unwrapped
    decide
  obtain ⟨ref₁, ref₂, first, second, succeeds⟩ : ∃ ref₁ ref₂,
      final.calls[0]? = some (physicalPut [1, 2, 3, 4, 5, 6], .returned (.ok ref₁)) ∧
        final.calls[1]? = some (physicalPut [], .returned (.ok ref₂)) ∧
        (final.store.deleteSegment smallChunks {} ref₁).1 = .ok () := ⟨_, _, rfl, rfl, rfl⟩
  have isolated := deletion_isolated_iff (by decide) sizes plainReadChunk_faithful
    (by decide +kernel) first second (by decide) succeeds
  exact ⟨ref₁, ref₂, first, second, succeeds, (isolated.mpr (by decide)).1⟩

/-- A segment of no bytes is deleted: the other of no bytes is not found any more. -/
theorem other_empty_segment_affected :
    let final := [PhysicalEvent.serve 0 (.start { allocated := .ok 0 }),
        .serve 1 (.start { allocated := .ok 0 })].foldl
      (PhysicalSystem.step smallChunks plainPlatform plainReadChunk)
      { calls := [physicalPut [], physicalPut []].map (·, .start) }
    ∃ ref₁ ref₂, final.calls[0]? = some (physicalPut [], .returned (.ok ref₁)) ∧
      final.calls[1]? = some (physicalPut [], .returned (.ok ref₂)) ∧
      (final.store.deleteSegment smallChunks {} ref₁).1 = .ok () ∧
      getOutcome smallChunks plainReadChunk ref₂ 0 0 [1] final.store = .ok [.eof] ∧
      getOutcome smallChunks plainReadChunk ref₂ 0 0 [1]
        (final.store.deleteSegment smallChunks {} ref₁).2 = .error .notFound :=
  ⟨_, _, rfl, rfl, rfl, rfl, rfl⟩

end Namros.Guarantees
