import Namros.Guarantees.ChunkWriting

/-!
# Runs of the physical-chunk store

Any number of puts interleave, each with its goroutines, with readers, deletions and restarts in
between.
-/

namespace Namros.Guarantees

open Library Source

/-! ## Runs -/

/-- A reader that `GetSegment` returned for the segment of the put at `source`, with what it has
delivered, in how many reads, and how it ended. -/
structure OpenedReader where
  source : Nat
  off : UInt64
  length : UInt64
  reader : Except StorageError PhysicalReader
  delivered : List UInt8 := []
  reads : Nat := 0
  ended : Option (Except StorageError Unit) := none

/-- The store with its puts and readers, the chunk ids the allocator has given out, and the puts
whose segments a deletion has marked, ever and since the store was opened. -/
structure PhysicalSystem where
  store : PhysicalStore := {}
  calls : List (PutSegmentRequest × PhysicalPut)
  allocated : List UInt64 := []
  (removed marked : List Nat := [])
  readers : List OpenedReader := []

inductive PhysicalEvent
  | serve (index : Nat) (action : PutAction)
  | get (index : Nat) (off length : UInt64)
  | read (index n : Nat) (now : Time)
  | delete (index : Nat) (answers : PhysicalDeleteAnswers)
  | restart

/-- The chunk ids a put has just been given. -/
def newChunks : PhysicalPut → PhysicalPut → List UInt64
  | .start, .writing p => chunkIDs p.addr
  | _, _ => []

def OpenedReader.receive (o : OpenedReader) (r : PhysicalReader) : ReadResult → OpenedReader
  | .bytes data =>
    { o with reader := .ok r, delivered := o.delivered ++ data, reads := o.reads + 1 }
  | .eof => { o with reader := .ok r, ended := some (.ok ()) }
  | .failed e => { o with reader := .ok r, ended := some (.error e) }

theorem receive_reader (o : OpenedReader) (r : PhysicalReader) (result : ReadResult) :
    (o.receive r result).reader = .ok r := by
  cases result <;> rfl

/-- A call whose process ends returns nothing. -/
def lost : PhysicalPut → PhysicalPut
  | .writing _ => .returned (.error (.other "process ended"))
  | call => call

section

variable (config : PhysicalConfig) (platform : Platform) (readChunk : ReadChunk)

def PhysicalSystem.step (sys : PhysicalSystem) : PhysicalEvent → PhysicalSystem
  | .serve index action =>
    match sys.calls[index]? with
    | none => sys
    | some (req, call) =>
      let (next, store) := call.serve config platform readChunk req sys.store action
      { sys with
        store := store
        calls := sys.calls.set index (req, next)
        allocated := newChunks call next ++ sys.allocated }
  | .get index off length =>
    match sys.calls[index]? with
    | some (_, .returned (.ok ref)) =>
      { sys with
        readers := sys.readers ++
          [{ source := index, off := off, length := length
             reader := sys.store.getSegment config none ref off length true }] }
    | _ => sys
  | .read index n now =>
    match sys.readers[index]? with
    | some o =>
      match o.reader, o.ended with
      | .ok r, none =>
        let (result, r', store) := r.read config readChunk none now n sys.store
        { sys with store := store, readers := sys.readers.set index (o.receive r' result) }
      | _, _ => sys
    | none => sys
  | .delete index answers =>
    match sys.calls[index]? with
    | some (_, .returned (.ok ref)) =>
      let (_, store) := sys.store.deleteSegment config answers ref
      if ref.segmentID ∉ sys.store.deleted ∧ ref.segmentID ∈ store.deleted then
        { sys with
          store := store, removed := index :: sys.removed, marked := index :: sys.marked }
      else { sys with store := store }
    | _ => sys
  | .restart =>
    { sys with
      store := sys.store.reopen
      calls := sys.calls.map fun c => (c.1, lost c.2)
      marked := []
      readers := [] }

end

/-! ## Deletions -/

section

variable {config : PhysicalConfig} {addr : PhysicalSegmentAddress} {ref : SegmentRef}
variable {s : PhysicalStore} {entry : CacheEntry}

theorem mem_evicted {indices : List Nat} {cache : ChunkCache}
    (member : entry ∈ (indices.foldl (fun cache i =>
      cache.evictCachedChunk config.chunkCacheMaxBytes (addr.chunkID i)) cache).entries) :
    entry ∈ cache.entries ∧
      (config.chunkCacheMaxBytes ≠ 0 → ∀ i ∈ indices, entry.chunkID ≠ addr.chunkID i) := by
  induction indices generalizing cache with
  | nil => exact ⟨member, fun _ i none => by cases none⟩
  | cons first others ih =>
    obtain ⟨kept, apart⟩ := ih member
    obtain ⟨old, other⟩ := mem_evictCachedChunk kept
    refine ⟨old, fun enabled i inside => ?_⟩
    rcases List.mem_cons.mp inside with rfl | later
    · exact other enabled
    · exact apart enabled i later

/-- What a deletion does: nothing, or it marks the segment, takes its chunks out of the cache and
touches only them in the volume. -/
structure DeleteEffect (config : PhysicalConfig) (addr : PhysicalSegmentAddress)
    (ref : SegmentRef) (s t : PhysicalStore) : Prop where
  marked : t.deleted = ref.segmentID :: s.deleted
  unmarked : ref.segmentID ∉ s.deleted
  volume : ∀ id, id ∉ chunkIDs addr → t.volume id = s.volume id
  cache : ∀ entry ∈ t.cache.entries, entry ∈ s.cache.entries ∧
    (config.chunkCacheMaxBytes ≠ 0 → entry.chunkID ∉ chunkIDs addr)

theorem deleteSegment_effect (config : PhysicalConfig) (answers : PhysicalDeleteAnswers)
    (s : PhysicalStore) (id : ref.segmentID = encodePhysicalSegmentID addr) :
    (s.deleteSegment config answers ref).2 = s ∨
      DeleteEffect config addr ref s (s.deleteSegment config answers ref).2 := by
  unfold PhysicalStore.deleteSegment
  split
  · exact .inl rfl
  split
  · exact .inl rfl
  · next found decoded =>
    rw [id] at decoded
    obtain ⟨rfl, -⟩ := decodePhysicalSegmentID_ok decoded
    split
    · exact .inl rfl
    split
    · exact .inl rfl
    · next unmarked =>
      split
      · exact .inl rfl
      have cache : ∀ entry ∈ ((List.range found.chunkCount.toNat).foldl (fun cache i =>
          cache.evictCachedChunk config.chunkCacheMaxBytes (found.chunkID i))
          s.cache).entries, entry ∈ s.cache.entries ∧
            (config.chunkCacheMaxBytes ≠ 0 → entry.chunkID ∉ chunkIDs found) := by
        intro entry member
        obtain ⟨old, apart⟩ := mem_evicted member
        refine ⟨old, fun enabled own => ?_⟩
        obtain ⟨i, inside, same⟩ := List.mem_map.mp own
        exact apart enabled i inside same.symm
      right
      split
      · refine ⟨rfl, unmarked, fun id outside => ?_, cache⟩
        apply deletePhysicalChunks_frame
        rintro j - upper rfl
        exact outside (mem_chunkIDs (by omega))
      · exact ⟨rfl, unmarked, fun _ _ => rfl, cache⟩

theorem DeleteEffect.touches {t : PhysicalStore} (effect : DeleteEffect config addr ref s t) :
    Touches (chunkIDs addr) s t :=
  ⟨effect.volume, fun entry member => .inl (effect.cache entry member).1⟩

theorem DeleteEffect.coherent {t : PhysicalStore} (effect : DeleteEffect config addr ref s t)
    (coherent : Coherent config s) : Coherent config t := by
  intro entry member
  obtain ⟨old, apart⟩ := effect.cache entry member
  obtain ⟨enabled, same⟩ := coherent entry old
  exact ⟨enabled, (effect.volume _ (apart enabled)).trans same⟩

end

end Namros.Guarantees
