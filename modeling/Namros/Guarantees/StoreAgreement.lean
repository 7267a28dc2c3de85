import Namros.Guarantees.ChunkRoundTrip
import Namros.Guarantees.ShardedSegments

/-!
# Reads of the four segment stores

The local store, with plain files and with shards, clips a range at the end of the payload; the
two SBS stores refuse a range that goes past it. Four stores that hold one payload answer a read
alike exactly where the range starts behind the payload or ends inside it.
-/

namespace Namros.Guarantees

open Library Source

/-- A segment of the volume-offset store, opened and read to the end. -/
def readOffsetStore (config : OffsetConfig) (readVolume : ReadVolume) (ref : SegmentRef)
    (off length : UInt64) (s : OffsetStore) : SegmentRead :=
  .of do
    let r ← s.getSegment config none ref off length
    r.copyRest readVolume none r.remaining.toNat

/-- A segment of the `PhysicalStore`, opened and read to the end. -/
def readPhysicalStore (config : PhysicalConfig) (readChunk : ReadChunk) (now : Time)
    (ref : SegmentRef) (off length : UInt64) (s : PhysicalStore) : SegmentRead :=
  .of do
    let r ← s.getSegment config none ref off length true
    (r.copyRest config readChunk none now r.remaining.toNat s).1

/-- All answers are `ErrInvalidRange`, or all are the same bytes. -/
def ReadsAgree (answers : List SegmentRead) : Prop :=
  (∀ answer ∈ answers, answer = .failed .invalidRange) ∨
    ∃ data, ∀ answer ∈ answers, answer = .bytes data

/-! ## Holding a payload -/

structure HeldInFile (payload : List UInt8) (ref : SegmentRef) (s : LocalStore) : Prop where
  named : ref.segmentID ≠ ""
  plain : ref.placement.layout ≠ ecLayout
  file : s.file ref.segmentID = some payload

/-- The payload is in an extent of the volume, which reads it back. -/
structure HeldInExtent (config : OffsetConfig) (readVolume : ReadVolume) (payload : List UInt8)
    (extent : OffsetExtent) (ref : SegmentRef) (s : OffsetStore) : Prop where
  id : decodeSegmentID ref.segmentID = .ok (config.volumeID, extent)
  present : ref.segmentID ∉ s.state.deleted
  size : ref.sizeBytes.toNat = payload.length
  stored : ∀ o n : UInt64, o.toNat + n.toNat ≤ payload.length →
    ∃ data, readVolume (extent.offset + o) n = .ok (some data) ∧
      data.take n.toNat = (payload.drop o.toNat).take n.toNat

structure HeldInChunks (config : PhysicalConfig) (payload : List UInt8)
    (addr : PhysicalSegmentAddress) (ref : SegmentRef) (s : PhysicalStore) : Prop where
  id : decodePhysicalSegmentID ref.segmentID = .ok addr
  volume : addr.volumeID = config.volumeID
  present : ref.segmentID ∉ s.deleted
  positive : 0 < config.chunkSize.toNat
  holds : Holds config s addr payload
  coherent : Coherent config s

section

variable {payload : List UInt8} {ref : SegmentRef} {off length size : UInt64}

/-- The range that the SBS stores read, or refuse. -/
def checkedRange (payload : List UInt8) (off length : UInt64) : SegmentRead :=
  if off.toNat + rangeLength payload.length off length ≤ payload.length then
    .bytes ((payload.drop off.toNat).take (rangeLength payload.length off length))
  else .failed .invalidRange

/-- The check of a range in the SBS stores, and the reader it opens. -/
theorem checked_read {α : Type} {copy : α → Except StorageError (List UInt8)}
    (opened : UInt64 → α) (whole : payload.length = size.toNat)
    (copies : ∀ n : UInt64, off.toNat + n.toNat ≤ payload.length →
      copy (opened n) = .ok ((payload.drop off.toNat).take n.toNat)) :
    SegmentRead.of ((if off > size then .error .invalidRange
      else if off + (if length = 0 then size - off else length) < off ∨
          off + (if length = 0 then size - off else length) > size then .error .invalidRange
        else .ok (opened (if length = 0 then size - off else length))) >>= copy) =
      checkedRange payload off length := by
  unfold checkedRange
  by_cases start : off.toNat ≤ payload.length
  · have numbers : (if length = 0 then size - off else length).toNat =
        rangeLength payload.length off length := by
      unfold rangeLength
      split
      · rw [UInt64.toNat_sub_of_le _ _ (UInt64.le_iff_toNat_le.mpr (by omega)), whole]
      · rfl
    generalize (if length = 0 then size - off else length) = n at numbers ⊢
    have short := n.toNat_lt
    have small := size.toNat_lt
    simp only [gt_iff_lt, UInt64.lt_iff_toNat_lt, UInt64.toNat_add, ← whole, ← numbers]
    by_cases inside : off.toNat + n.toNat ≤ payload.length
    · rw [if_neg (by omega), if_neg (by omega), if_pos inside]
      exact congrArg SegmentRead.of (copies n inside)
    · rw [if_neg (by omega), if_pos (by omega), if_neg inside]
      rfl
  · rw [if_pos (UInt64.lt_iff_toNat_lt.mpr (by omega)), if_neg (by omega)]
    rfl

/-! ## The four reads -/

theorem HeldInFile.read {s : LocalStore} (held : HeldInFile payload ref s)
    (newEncoder : NewEncoder) (small : payload.length < 2 ^ 63) :
    s.getSegment newEncoder none ref off length =
      if payload.length < off.toNat then .failed .invalidRange
      else if length = 0 then .bytes (payload.drop off.toNat)
      else .bytes ((payload.drop off.toNat).take (asInt64 length).toNat) := by
  unfold LocalStore.getSegment
  simp only [held.named, held.plain, held.file, if_false, gt_iff_lt]
  by_cases beyond : payload.length < off.toNat
  · rw [if_pos beyond, if_pos beyond]
  have seekable : ¬ asInt64 off < 0 := by
    rw [asInt64_eq (by omega)]
    omega
  rw [if_neg beyond, if_neg beyond, if_neg seekable]

/-- The rest of a reader of an extent. -/
theorem HeldInExtent.copyRest {config : OffsetConfig} {readVolume : ReadVolume}
    {extent : OffsetExtent} {s : OffsetStore}
    (held : HeldInExtent config readVolume payload extent ref s) {rounds : Nat} {r : LegacyReader}
    (base : r.extentOffset = extent.offset) (enough : r.remaining.toNat ≤ rounds)
    (inside : r.nextOffset.toNat + r.remaining.toNat ≤ payload.length) :
    r.copyRest readVolume none rounds =
      .ok ((payload.drop r.nextOffset.toNat).take r.remaining.toNat) := by
  induction rounds generalizing r with
  | zero => simp [LegacyReader.copyRest, Nat.le_zero.mp enough]
  | succ rounds ih =>
    unfold LegacyReader.copyRest
    by_cases ended : r.remaining = 0
    · simp [ended]
    have more : 0 < r.remaining.toNat :=
      UInt64.lt_iff_toNat_lt.mp (UInt64.pos_iff_ne_zero.mpr ended)
    have chunk : legacySegmentReadChunkSize.toNat = 65536 := by decide
    generalize shape : minUint64 legacySegmentReadChunkSize r.remaining = n
    have step : n.toNat = min 65536 r.remaining.toNat := by
      rw [← shape, minUint64_toNat, chunk]
    have small := held.size ▸ ref.sizeBytes.toNat_lt
    obtain ⟨data, answered, cut⟩ := held.stored r.nextOffset n (by omega)
    have long : ¬ data.length < n.toNat := by
      have := congrArg List.length cut
      simp only [List.length_take, List.length_drop] at this
      omega
    have offset : (r.nextOffset + n).toNat = r.nextOffset.toNat + n.toNat := by
      rw [UInt64.toNat_add]
      exact Nat.mod_eq_of_lt (by omega)
    have rest : (r.remaining - n).toNat = r.remaining.toNat - n.toNat :=
      UInt64.toNat_sub_of_le _ _ (UInt64.le_iff_toNat_le.mpr (by omega))
    have later := ih (r := ⟨extent.offset, r.nextOffset + n, r.remaining - n⟩) rfl
      (by dsimp only; omega) (by dsimp only; omega)
    have join : (payload.drop r.nextOffset.toNat).take n.toNat ++
        (payload.drop (r.nextOffset.toNat + n.toNat)).take (r.remaining.toNat - n.toNat) =
          (payload.drop r.nextOffset.toNat).take r.remaining.toNat := by
      rw [← List.drop_drop, ← List.take_add, Nat.add_sub_cancel' (by omega)]
    simp only [offset, rest] at later
    simp only [ended, LegacyReader.readNextChunk, shape, base, answered, long, cut, if_false,
      ← join]
    exact bind_eq_ok.mpr ⟨_, rfl, bind_eq_ok.mpr ⟨_, later, rfl⟩⟩

theorem HeldInExtent.read {config : OffsetConfig} {readVolume : ReadVolume}
    {extent : OffsetExtent} {s : OffsetStore}
    (held : HeldInExtent config readVolume payload extent ref s) :
    readOffsetStore config readVolume ref off length s = checkedRange payload off length := by
  unfold readOffsetStore OffsetStore.getSegment
  simp only [held.id, held.present, ne_eq, not_true_eq_false, if_false]
  exact checked_read (LegacyReader.mk extent.offset off) held.size.symm fun n inside =>
    held.copyRest rfl le_rfl inside

theorem HeldInChunks.read {config : PhysicalConfig} {readChunk : ReadChunk} {now : Time}
    {addr : PhysicalSegmentAddress} {s : PhysicalStore}
    (held : HeldInChunks config payload addr ref s) (faithful : Faithful readChunk)
    (small : payload.length < 2 ^ 63) :
    readPhysicalStore config readChunk now ref off length s = checkedRange payload off length := by
  unfold readPhysicalStore PhysicalStore.getSegment
  simp only [held.id, held.volume, held.present, ne_eq, not_true_eq_false, if_false]
  have whole := held.holds.size
  have ends : EndsUnwrapped config addr.sizeBytes.toNat := by
    unfold EndsUnwrapped Unwrapped
    omega
  refine checked_read (PhysicalReader.mk ref addr off · true [] false) whole fun n inside => ?_
  obtain ⟨cache, copied, -⟩ := copyRest_holds (r := ⟨ref, addr, off, n, true, [], false⟩) now
    held.positive ends held.holds (whole ▸ inside) le_rfl faithful held.coherent
  exact congrArg Prod.fst copied

theorem HeldInShards.read {newEncoder : NewEncoder} {req : PutSegmentRequest} {missing : Finset Nat}
    {ref : SegmentRef} {s : LocalStore} {off length : UInt64}
    (held : HeldInShards newEncoder req missing ref s) (named : ref.segmentID ≠ "") :
    s.getSegment newEncoder none ref off length = s.getECSegment newEncoder none ref off length := by
  obtain ⟨_, _, _, _, put, -⟩ := held.put
  obtain ⟨_, _, _, _, -, written⟩ := putECSegment_ok held.declared put
  simp [LocalStore.getSegment, named, written.layout]

/-! ## Agreement -/

/-- The four stores agree on a read exactly where its range starts behind the payload or ends
inside it. -/
theorem stores_agree_iff {newEncoder : NewEncoder} {req : PutSegmentRequest}
    {missing : Finset Nat} {offsetConfig : OffsetConfig} {readVolume : ReadVolume}
    {extent : OffsetExtent} {physicalConfig : PhysicalConfig} {readChunk : ReadChunk}
    {addr : PhysicalSegmentAddress} {fileRef shardsRef extentRef chunksRef : SegmentRef}
    {files shards : LocalStore} {offsets : OffsetStore} {physical : PhysicalStore}
    (inFile : HeldInFile req.reader fileRef files) (lawful : LawfulEncoders newEncoder)
    (inShards : HeldInShards newEncoder req missing shardsRef shards)
    (named : shardsRef.segmentID ≠ "")
    (inExtent : HeldInExtent offsetConfig readVolume req.reader extent extentRef offsets)
    (inChunks : HeldInChunks physicalConfig req.reader addr chunksRef physical)
    (faithful : Faithful readChunk) (now : Time) (off length : UInt64) :
    ReadsAgree [files.getSegment newEncoder none fileRef off length,
        shards.getSegment newEncoder none shardsRef off length,
        readOffsetStore offsetConfig readVolume extentRef off length offsets,
        readPhysicalStore physicalConfig readChunk now chunksRef off length physical] ↔
      req.reader.length < off.toNat ∨ off.toNat + length.toNat ≤ req.reader.length := by
  obtain ⟨small, coded⟩ := inShards.getECSegment_eq lawful off length
  rw [inFile.read newEncoder small, inShards.read named, coded, inExtent.read,
    inChunks.read faithful small]
  generalize req.reader = payload at small ⊢
  have zero : length = 0 ↔ length.toNat = 0 := by rw [← UInt64.toNat_inj]; rfl
  unfold ReadsAgree checkedRange rangeLength
  simp only [List.forall_mem_cons, List.not_mem_nil, false_implies, implies_true, and_true]
  by_cases beyond : payload.length < off.toNat
  · rw [if_pos beyond, if_pos beyond, if_neg (by split <;> omega)]
    simp [beyond]
  by_cases inside : off.toNat + length.toNat ≤ payload.length
  · have sliced : sliceECPayload payload off length = _ :=
      (sliceECPayload_eq_iff small (by omega)).mpr (by omega)
    have fits : off.toNat + (if length = 0 then payload.length - off.toNat else length.toNat) ≤
        payload.length := by
      split <;> omega
    rw [if_neg beyond, if_neg beyond, if_pos fits, sliced]
    simp only [inside, or_true, iff_true]
    refine .inr ⟨_, ?_, ?_, rfl, rfl⟩
    · split
      · rw [List.take_of_length_le (by rw [List.length_drop])]
      · rw [asInt64_eq (by omega), Int.toNat_natCast]
    split
    · rw [List.take_of_length_le (by rw [List.length_drop]; omega),
        List.take_of_length_le (by rw [List.length_drop])]
    · rfl
  · -- the SBS stores refuse what the file clips
    have some : ¬ length = 0 := by rw [zero]; omega
    rw [if_neg beyond, if_neg beyond, if_neg some, if_neg some, if_neg inside]
    simp [beyond, inside]

end

/-! ## One payload in four stores -/

def plainFile : LocalStore where
  file _ := some [1, 2, 3]

def plainRef : SegmentRef := { segmentID := "s", sizeBytes := 3 }

def oneExtent : OffsetConfig := { volumeID := "v", blockSize := 4, volumeSize := 8 }

/-- A volume that has the payload from its fourth byte on. -/
def oneExtentVolume : ReadVolume := fun offset length =>
  .ok (some (([0, 0, 0, 0, 1, 2, 3, 0].drop offset.toNat).take length.toNat))

def extentRef : SegmentRef :=
  offsetSegmentRef oneExtent {} { offset := 4, paddedLength := 4, sequence := 1 } 3 "" 0

def chunkAddress : PhysicalSegmentAddress :=
  { volumeID := "v", startChunkID := 7, chunkCount := 1, sizeBytes := 3 }

def chunkRef : SegmentRef := { segmentID := encodePhysicalSegmentID chunkAddress }

def oneChunkStore : PhysicalStore where
  volume _ := some [1, 2, 3, 0]

theorem inExtent : HeldInExtent oneExtent oneExtentVolume [1, 2, 3]
    { offset := 4, paddedLength := 4, sequence := 1 } extentRef {} where
  id := by decide +kernel
  present := by decide
  size := rfl
  stored o n inside := by
    refine ⟨_, rfl, ?_⟩
    have offset : ((4 : UInt64) + o).toNat = 4 + o.toNat := by
      rw [UInt64.toNat_add]
      exact Nat.mod_eq_of_lt (by simp at inside ⊢; omega)
    rw [List.take_take, Nat.min_self, offset, ← List.drop_drop]
    change (([1, 2, 3] ++ [0] : List UInt8).drop o.toNat).take n.toNat = _
    rw [List.drop_append_of_le_length (by simp at inside ⊢; omega),
      List.take_append_of_le_length (by simp at inside ⊢; omega)]

theorem inChunks : HeldInChunks smallChunks [1, 2, 3] chunkAddress chunkRef oneChunkStore where
  id := by decide +kernel
  volume := rfl
  present := by decide
  positive := by decide
  holds :=
    { size := rfl
      covers := by decide
      chunks := by decide }
  coherent := by simp [Coherent, oneChunkStore]

/-- A range inside the payload. -/
theorem stores_agree_inside :
    ReadsAgree [plainFile.getSegment newMirror none plainRef 1 1,
      halfMirror.getSegment newMirror none mirroredRef 1 1,
      readOffsetStore oneExtent oneExtentVolume extentRef 1 1 {},
      readPhysicalStore smallChunks plainReadChunk 0 chunkRef 1 1 oneChunkStore] :=
  (stores_agree_iff ⟨by decide, by decide, rfl⟩ newMirror_lawful mirroredPut_held (by decide)
    inExtent inChunks plainReadChunk_faithful 0 1 1).mpr (.inr (by decide))

/-- A range that goes past the end is clipped by the local store and refused by the SBS stores. -/
theorem past_end_disagreement :
    plainFile.getSegment newMirror none plainRef 1 3 = .bytes [2, 3] ∧
      halfMirror.getSegment newMirror none mirroredRef 1 3 = .bytes [2, 3] ∧
      readOffsetStore oneExtent oneExtentVolume extentRef 1 3 {} = .failed .invalidRange ∧
      readPhysicalStore smallChunks plainReadChunk 0 chunkRef 1 3 oneChunkStore =
        .failed .invalidRange := by
  decide +kernel

end Namros.Guarantees
