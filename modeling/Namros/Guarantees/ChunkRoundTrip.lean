import Namros.Guarantees.ChunkRuns

/-!
# Round trip of the physical-chunk store

What a reader of a returned segment delivers is the payload that was put, whatever else is going
on, provided the volume's id has no colon and the segment is not marked as deleted: it was not
deleted, and, if it is empty, no other empty segment was.
-/

namespace Namros.Guarantees

open Library Source

section

variable {config : PhysicalConfig} {platform : Platform} {readChunk : ReadChunk}
  {sys : PhysicalSystem} {ref : SegmentRef} {addr : PhysicalSegmentAddress}

/-- The reader was opened, has delivered the first bytes of its range, at least one a read, and
ends without an error where the range ends. -/
def YieldsPayload (sys : PhysicalSystem) (o : OpenedReader) : Prop :=
  ∃ req ref r, sys.calls[o.source]? = some (req, .returned (.ok ref)) ∧ o.reader = .ok r ∧
    o.delivered <+: (req.reader.drop o.off.toNat).take
      (rangeLength req.sizeBytes.toNat o.off o.length) ∧
    o.reads ≤ o.delivered.length ∧
    (o.ended = none ∨ o.ended = some (.ok ()) ∧ o.delivered =
      (req.reader.drop o.off.toNat).take (rangeLength req.sizeBytes.toNat o.off o.length))

/-- Every reader was opened. -/
def AllOpened (sys : PhysicalSystem) : Prop := ∀ o ∈ sys.readers, ∃ r, o.reader = .ok r

theorem getSegment_opens {s : PhysicalStore} {off length : UInt64}
    (id : ref.segmentID = encodePhysicalSegmentID addr) (volume : addr.volumeID = config.volumeID)
    (colon : ':' ∉ config.volumeID.toList) (unmarked : ref.segmentID ∉ s.deleted)
    (inside : off.toNat + length.toNat ≤ addr.sizeBytes.toNat) :
    ∃ r, s.getSegment config none ref off length true = .ok r := by
  have start : ¬ off > addr.sizeBytes :=
    UInt64.not_lt.mpr (UInt64.le_iff_toNat_le.mpr (by omega))
  have bound := addr.sizeBytes.toNat_lt
  have stop : off.toNat +
      (if length = 0 then addr.sizeBytes - off else length).toNat ≤ addr.sizeBytes.toNat := by
    split
    · rw [UInt64.toNat_sub_of_le _ _ (UInt64.le_iff_toNat_le.mpr (by omega))]
      omega
    · exact inside
  unfold PhysicalStore.getSegment
  rw [id, decodePhysicalSegmentID_encode (volume ▸ colon)]
  dsimp only
  rw [if_neg (by simp [volume]), if_neg (id ▸ unmarked), if_neg start]
  generalize (if length = 0 then addr.sizeBytes - off else length) = readLength at stop
  have sum : (off + readLength).toNat = off.toNat + readLength.toNat := by
    rw [UInt64.toNat_add]
    exact Nat.mod_eq_of_lt (by omega)
  rw [if_neg]
  · exact ⟨_, rfl⟩
  · rw [UInt64.lt_iff_toNat_lt, gt_iff_lt, UInt64.lt_iff_toNat_lt, sum]
    omega

theorem AllOpened.step (sound : Sound config sys) (opened : AllOpened sys)
    (colon : ':' ∉ config.volumeID.toList) {event : PhysicalEvent}
    (unmarked : OpensUnmarked sys event) :
    AllOpened (sys.step config platform readChunk event) := by
  cases event with
  | serve index action =>
    simp only [PhysicalSystem.step]
    split <;> exact opened
  | get index off length =>
    simp only [PhysicalSystem.step]
    split
    · next req ref found =>
      intro o member
      rcases List.mem_append.mp member with old | new
      · exact opened o old
      obtain rfl := List.mem_singleton.mp new
      obtain ⟨inside, undeleted, others⟩ := unmarked _ found ref rfl
      obtain ⟨addr, returned⟩ := sound.calls found
      have free : ref.segmentID ∉ sys.store.deleted := by
        intro marked
        rcases sound.marked_cases colon found marked with own | ⟨empty, i, member, c, at_, other⟩
        · exact undeleted own
        · exact others empty i member c at_ other
      exact getSegment_opens returned.segmentID returned.volumeID colon free
        (returned.sizeBytes ▸ inside)
    · exact opened
  | read index n now =>
    simp only [PhysicalSystem.step]
    split
    · split
      · exact forall_mem_set opened ⟨_, receive_reader ..⟩
      · exact opened
    · exact opened
  | delete index answers =>
    simp only [PhysicalSystem.step]
    split
    · split <;> exact opened
    · exact opened
  | restart => intro o member; cases member

/-- What every reader has delivered, in any run from an empty store: any interleaving of puts,
readers, deletions and restarts, with chunk ids that are fresh and a faithful volume. -/
theorem reads_yield_payload {requests : List PutSegmentRequest} {events : List PhysicalEvent}
    (positive : 0 < config.chunkSize) (chunkSize : config.chunkSize.toNat < 2 ^ 62)
    (sizes : ∀ req ∈ requests, req.sizeBytes.toNat < 2 ^ 62) (faithful : Faithful readChunk)
    (colon : ':' ∉ config.volumeID.toList)
    (run : Throughout (PhysicalSystem.step config platform readChunk)
      (fun sys event => FreshChunks config platform readChunk sys event ∧ LiveReads sys event ∧
        OpensUnmarked sys event) { calls := requests.map (·, .start) } events) :
    let final := events.foldl (PhysicalSystem.step config platform readChunk)
      { calls := requests.map (·, .start) }
    ∀ o ∈ final.readers, YieldsPayload final o := by
  have start : Sound config { calls := requests.map (·, .start) } :=
    .fresh fun req member => by
      have := sizes req member
      unfold Unwrapped
      omega
  obtain ⟨sound, opened⟩ := run.invariant (I := fun sys => Sound config sys ∧ AllOpened sys)
    ⟨start, fun o member => by cases member⟩ fun sys event inv meets =>
      ⟨inv.1.step positive faithful meets.1 meets.2.1, inv.2.step inv.1 colon meets.2.2⟩
  intro final o member
  obtain ⟨r, reader⟩ := opened o member
  obtain ⟨req, ref, found, stands⟩ := sound.readers o member
  obtain ⟨decoded, inside, positioned, progress, ended⟩ := stands r reader
  have behind : r.nextOffset.toNat - o.off.toNat ≤
      rangeLength req.sizeBytes.toNat o.off o.length := by
    have := positioned.stop
    omega
  have delivered : o.delivered <+: (req.reader.drop o.off.toNat).take
      (r.nextOffset.toNat - o.off.toNat) := ⟨r.buf, positioned.read⟩
  exact ⟨req, ref, r, found, reader, delivered.trans (List.take_prefix_take_left behind),
    progress, ended⟩

end

/-! ### Runs -/

/-- A volume that returns the range that is stored. -/
def plainReadChunk : ReadChunk
  | some content, off, length => .ok (some ((content.drop off.toNat).take length.toNat))
  | none, _, _ => .error (.sbs .notFound "no such chunk")

theorem plainReadChunk_faithful : Faithful plainReadChunk where
  stored _ := ⟨_, rfl, by rw [List.take_take, Nat.min_self]⟩

def smallChunks : PhysicalConfig :=
  { volumeID := "v", chunkSize := 4, verifyReadback := true, writeConcurrency := 2
    fullChunkWriteMaxBytes := 8, chunkCacheMaxBytes := 8 }

def physicalPut (reader : List UInt8) : PutSegmentRequest :=
  { reader := reader, sizeBytes := .ofNat reader.length, storageClass := { storageClassID := "hot" } }

/-- A put of two chunks, whose second chunk is written first, and one of no bytes; the first is
read from its second byte on. -/
def putAndRead : List PhysicalEvent :=
  [.serve 0 (.start { allocated := .ok 5 }), .serve 0 .round, .serve 0 .round,
   .serve 1 (.start { allocated := .ok 0 }), .serve 0 (.write 1 .stored), .serve 0 (.cache 1),
   .serve 0 (.write 0 .stored), .serve 0 (.cache 0), .serve 0 (.finish none 0), .get 0 1 0,
   .read 0 2 0, .read 0 7 0, .get 1 0 0, .read 0 1 0, .read 0 1 0, .read 0 1 0, .read 1 1 0]

theorem put_is_read_back :
    let final := putAndRead.foldl
      (PhysicalSystem.step smallChunks plainPlatform plainReadChunk)
      { calls := [physicalPut [1, 2, 3, 4, 5, 6], physicalPut []].map (·, .start) }
    (∀ o ∈ final.readers, YieldsPayload final o) ∧
      final.readers.map (·.delivered) = [[2, 3, 4, 5, 6], []] := by
  have sizes : ∀ req ∈ [physicalPut [1, 2, 3, 4, 5, 6], physicalPut []],
      req.sizeBytes.toNat < 2 ^ 62 := by decide
  exact ⟨reads_yield_payload (by decide) (by decide) sizes plainReadChunk_faithful (by decide)
    (by decide +kernel), by decide +kernel⟩

/-- A segment of no bytes is deleted, and another of no bytes is opened: they have one id. -/
def deleteAndOpenOther : List PhysicalEvent :=
  [.serve 0 (.start { allocated := .ok 0 }), .serve 1 (.start { allocated := .ok 0 }),
   .delete 0 {}, .get 1 0 0]

theorem other_empty_segment_not_found :
    let final := deleteAndOpenOther.foldl
      (PhysicalSystem.step smallChunks plainPlatform plainReadChunk)
      { calls := [physicalPut [], physicalPut []].map (·, .start) }
    final.removed = [0] ∧ ¬ ∀ o ∈ final.readers, YieldsPayload final o := by
  intro final
  refine ⟨by decide +kernel, fun yields => ?_⟩
  have unopened : ∃ o ∈ final.readers, o.source = 1 ∧ o.reader.toOption = none := by decide +kernel
  obtain ⟨o, member, -, none⟩ := unopened
  obtain ⟨req, ref, r, -, opened, -⟩ := yields o member
  rw [opened] at none
  cases none

end Namros.Guarantees
