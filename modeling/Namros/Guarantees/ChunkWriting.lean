import Namros.Guarantees.ChunkReading
import Namros.Library.Interleaving

/-!
# Writing physical chunks

A put whose chunks are allocated keeps, over every order in which its goroutines end, that each
chunk it has taken from the reader is still to be written or is in the volume. When it returns a
reference, the chunks hold its payload.
-/

namespace Namros.Guarantees

open Library Source

variable {id : UInt64} {i : Nat} {writes : List ChunkWrite} {writeErr : Option StorageError}
  {addr : PhysicalSegmentAddress} {p' : PutProgress}

section

variable {config : PhysicalConfig} {req : PutSegmentRequest} {s t : PhysicalStore}
variable {p : PutProgress} {own : List UInt64}

/-! ## What a step touches -/

/-- A step that changes only these chunks, and caches only these. -/
structure Touches (own : List UInt64) (s t : PhysicalStore) : Prop where
  volume : ∀ id, id ∉ own → t.volume id = s.volume id
  cache : ∀ entry ∈ t.cache.entries, entry ∈ s.cache.entries ∨ entry.chunkID ∈ own

/-- No chunk with this id is cached. -/
def Uncached (s : PhysicalStore) (id : UInt64) : Prop :=
  ∀ entry ∈ s.cache.entries, entry.chunkID ≠ id

theorem Touches.refl : Touches own s s := ⟨fun _ _ => rfl, fun _ member => .inl member⟩

theorem Touches.uncached (touches : Touches own s t) (other : id ∉ own) (uncached : Uncached s id) :
    Uncached t id := by
  intro entry member same
  rcases touches.cache entry member with old | new
  · exact uncached entry old same
  · exact other (same ▸ new)

/-! ## A put in progress -/

/-- The address of a put's segment. -/
def putAddress (config : PhysicalConfig) (req : PutSegmentRequest) (startChunkID : UInt64) :
    PhysicalSegmentAddress :=
  { volumeID := config.volumeID, startChunkID := startChunkID
    chunkCount := physicalChunkCount req.sizeBytes config.chunkSize, sizeBytes := req.sizeBytes }

/-- What is read for the `i`-th chunk. -/
def chunkPayload (config : PhysicalConfig) (req : PutSegmentRequest) (i : Nat) : List UInt8 :=
  (req.reader.drop (i * config.chunkSize.toNat)).take
    (min config.chunkSize.toNat (req.sizeBytes.toNat - i * config.chunkSize.toNat))

/-- What is to be in the volume for the `i`-th chunk. -/
def ChunkWritten (config : PhysicalConfig) (req : PutSegmentRequest) (s : PhysicalStore)
    (addr : PhysicalSegmentAddress) (i : Nat) : Prop :=
  s.volume (addr.chunkID i) = some (config.writePayload (chunkPayload config req i))

/-- A goroutine of the put, which has started `next` of them. -/
structure WriteSound (config : PhysicalConfig) (req : PutSegmentRequest) (s : PhysicalStore)
    (addr : PhysicalSegmentAddress) (next : Nat) (w : ChunkWrite) : Prop where
  started : w.logicalChunk < next
  payload : w.payload = config.writePayload (chunkPayload config req w.logicalChunk)
  uncached : w.written = false → Uncached s (addr.chunkID w.logicalChunk)
  stored : w.written = true → ChunkWritten config req s addr w.logicalChunk

structure Writing (config : PhysicalConfig) (req : PutSegmentRequest) (s : PhysicalStore)
    (p : PutProgress) : Prop where
  addr : p.addr = putAddress config req p.addr.startChunkID
  counted : p.addr.chunkCount ≠ 0
  next : p.next ≤ p.addr.chunkCount.toNat
  split : p.digested ++ p.reader = req.reader
  digested : p.digested.length = min (p.next * config.chunkSize.toNat) req.sizeBytes.toNat
  writes : ∀ w ∈ p.writes, WriteSound config req s p.addr p.next w
  distinct : (p.writes.map (·.logicalChunk)).Nodup
  written : p.writeErr = none → ∀ i < p.next,
    (∃ w ∈ p.writes, w.logicalChunk = i ∧ w.written = false) ∨ ChunkWritten config req s p.addr i
  unread : ∀ i, p.next ≤ i → i < p.addr.chunkCount.toNat → Uncached s (p.addr.chunkID i)

theorem Writing.frame (writing : Writing config req s p) (touches : Touches own s t)
    (apart : ∀ id ∈ chunkIDs p.addr, id ∉ own) : Writing config req t p := by
  have other {i : Nat} (less : i < p.addr.chunkCount.toNat) : p.addr.chunkID i ∉ own :=
    apart _ (mem_chunkIDs less)
  have kept {i : Nat} (less : i < p.addr.chunkCount.toNat)
      (stored : ChunkWritten config req s p.addr i) : ChunkWritten config req t p.addr i :=
    (touches.volume _ (other less)).trans stored
  have next := writing.next
  exact
    { writing with
      writes := fun w member =>
        have sound := writing.writes w member
        have less : w.logicalChunk < p.addr.chunkCount.toNat :=
          Nat.lt_of_lt_of_le sound.started next
        { sound with
          uncached := fun pending => touches.uncached (other less) (sound.uncached pending)
          stored := fun done => kept less (sound.stored done) }
      written := fun noError i less =>
        (writing.written noError i less).imp_right (kept (Nat.lt_of_lt_of_le less next))
      unread := fun i lower upper =>
        touches.uncached (other upper) (writing.unread i lower upper) }

/-! ### The loop -/

/-- The length of the next chunk. -/
theorem Writing.length_toNat (writing : Writing config req s p)
    (less : p.next < p.addr.chunkCount.toNat) :
    p.next * config.chunkSize.toNat < req.sizeBytes.toNat ∧
    (minUint64 config.chunkSize
        (p.addr.sizeBytes - UInt64.ofNat p.next * config.chunkSize)).toNat =
      min config.chunkSize.toNat (req.sizeBytes.toNat - p.next * config.chunkSize.toNat) := by
  have size : p.addr.sizeBytes = req.sizeBytes := by rw [writing.addr]; rfl
  have count : p.addr.chunkCount = physicalChunkCount req.sizeBytes config.chunkSize := by
    rw [writing.addr]; rfl
  have inside : p.next * config.chunkSize.toNat < req.sizeBytes.toNat :=
    mul_lt_of_lt_physicalChunkCount (count ▸ less)
  have index : (UInt64.ofNat p.next).toNat = p.next := by
    have := lt_of_lt_chunkCount less
    rw [UInt64.toNat_ofNat']
    exact Nat.mod_eq_of_lt (by omega)
  have offset : (UInt64.ofNat p.next * config.chunkSize).toNat =
      p.next * config.chunkSize.toNat := by
    have := req.sizeBytes.toNat_lt
    rw [UInt64.toNat_mul, index]
    exact Nat.mod_eq_of_lt (by omega)
  refine ⟨inside, ?_⟩
  rw [size, minUint64_toNat,
    UInt64.toNat_sub_of_le _ _ (UInt64.le_iff_toNat_le.mpr (by omega)), offset]

/-- What is left of the reader. -/
theorem Writing.reader_eq (writing : Writing config req s p)
    (inside : p.next * config.chunkSize.toNat < req.sizeBytes.toNat) :
    p.reader = req.reader.drop (p.next * config.chunkSize.toNat) := by
  have read : p.digested.length = p.next * config.chunkSize.toNat := by
    rw [writing.digested, Nat.min_eq_left (by omega)]
  rw [← writing.split, ← read, List.drop_left]

/-- A chunk is taken from the reader, and its goroutine started. -/
theorem Writing.launch (writing : Writing config req s p) {length : Nat}
    (less : p.next < p.addr.chunkCount.toNat)
    (inside : p.next * config.chunkSize.toNat < req.sizeBytes.toNat)
    (size : length = min config.chunkSize.toNat
      (req.sizeBytes.toNat - p.next * config.chunkSize.toNat))
    (enough : length ≤ p.reader.length) :
    Writing config req s
      { p with
        next := p.next + 1
        reader := p.reader.drop length
        digested := p.digested ++ p.reader.take length
        writes := p.writes ++
          [{ logicalChunk := p.next, payload := config.writePayload (p.reader.take length) }] } where
  addr := writing.addr
  counted := writing.counted
  next := less
  split := by rw [List.append_assoc, List.take_append_drop, writing.split]
  digested := by
    rw [List.length_append, List.length_take, writing.digested, Nat.add_mul]
    omega
  writes := by
    intro w member
    rcases List.mem_append.mp member with old | new
    · have sound := writing.writes w old
      exact { sound with started := Nat.lt_succ_of_lt sound.started }
    obtain rfl := List.mem_singleton.mp new
    exact
      { started := Nat.lt_succ_self _
        payload := by
          rw [writing.reader_eq inside, size]
          rfl
        uncached := fun _ => writing.unread p.next (Nat.le_refl _) less
        stored := by simp }
  distinct := by
    rw [List.map_append, List.nodup_append]
    refine ⟨writing.distinct, by simp, fun i old j new => ?_⟩
    obtain ⟨w, member, rfl⟩ := List.mem_map.mp old
    have started := (writing.writes w member).started
    simp at new
    omega
  written := by
    intro noError i bound
    by_cases earlier : i < p.next
    · refine (writing.written noError i earlier).imp_left fun pending => ?_
      obtain ⟨w, member, rest⟩ := pending
      exact ⟨w, List.mem_append_left _ member, rest⟩
    · obtain rfl : i = p.next := Nat.eq_of_le_of_lt_succ (Nat.not_lt.mp earlier) bound
      exact .inl ⟨_, List.mem_append_right _ (List.mem_singleton_self _), rfl, rfl⟩
  unread := fun i lower upper => writing.unread i (Nat.le_of_succ_le lower) upper

theorem Writing.round (writing : Writing config req s p) (positive : 0 < config.chunkSize.toNat) :
    Writing config req s (config.putRound p) := by
  unfold PhysicalConfig.putRound
  split
  · exact writing
  · next going =>
    have less : p.next < p.addr.chunkCount.toNat := by
      by_contra ended
      exact going (.inr (Nat.not_lt.mp ended))
    obtain ⟨inside, length⟩ := writing.length_toNat less
    dsimp only
    generalize minUint64 config.chunkSize
      (p.addr.sizeBytes - UInt64.ofNat p.next * config.chunkSize) = readLength at length
    split
    · next zero =>
      rw [zero, UInt64.toNat_zero] at length
      omega
    split
    · exact { writing with }
    · next enough =>
      split
      · exact writing
      · exact writing.launch less inside length (Nat.not_lt.mp enough)

/-! ### The goroutines -/

section

variable {index : Nat} {w : ChunkWrite}

/-- A step about one chunk leaves the others. -/
theorem Writing.other (writing : Writing config req s p)
    (touches : Touches [p.addr.chunkID w.logicalChunk] s t) (started : w.logicalChunk < p.next)
    (less : i < p.addr.chunkCount.toNat) (other : i ≠ w.logicalChunk) :
    (Uncached s (p.addr.chunkID i) → Uncached t (p.addr.chunkID i)) ∧
      (ChunkWritten config req s p.addr i → ChunkWritten config req t p.addr i) := by
  have outside : p.addr.chunkID i ∉ [p.addr.chunkID w.logicalChunk] := by
    intro inside
    exact other (chunkID_injective (lt_of_lt_chunkCount less)
      (lt_of_lt_chunkCount (Nat.lt_of_lt_of_le started writing.next))
      (List.mem_singleton.mp inside))
  exact ⟨touches.uncached outside, (touches.volume _ outside).trans⟩

/-- The goroutine of one chunk ends or goes on, and the others stay. -/
theorem Writing.settle (writing : Writing config req s p) (member : w ∈ p.writes)
    (touches : Touches [p.addr.chunkID w.logicalChunk] s t)
    (distinct : (writes.map (·.logicalChunk)).Nodup)
    (from_ : ∀ w' ∈ writes, w' ∈ p.writes ∧ w'.logicalChunk ≠ w.logicalChunk ∨
      WriteSound config req t p.addr p.next w')
    (kept : ∀ w' ∈ p.writes, w'.logicalChunk ≠ w.logicalChunk → w' ∈ writes)
    (result : writeErr = none →
      p.writeErr = none ∧ ChunkWritten config req t p.addr w.logicalChunk) :
    Writing config req t { p with writes := writes, writeErr := writeErr } := by
  have started := (writing.writes w member).started
  have next := writing.next
  exact
    { addr := writing.addr
      counted := writing.counted
      next := writing.next
      split := writing.split
      digested := writing.digested
      writes := by
        intro w' member
        rcases from_ w' member with ⟨old, other⟩ | sound
        · have sound := writing.writes w' old
          have same := writing.other touches started (Nat.lt_of_lt_of_le sound.started next) other
          exact
            { sound with
              uncached := fun pending => same.1 (sound.uncached pending)
              stored := fun done => same.2 (sound.stored done) }
        · exact sound
      distinct := distinct
      written := by
        intro noError i less
        obtain ⟨before, here⟩ := result noError
        by_cases this : i = w.logicalChunk
        · exact .inr (this ▸ here)
        have same := writing.other touches started (Nat.lt_of_lt_of_le less next) this
        refine (writing.written before i less).imp ?_ same.2
        rintro ⟨w', member, rfl, pending⟩
        exact ⟨w', kept w' member this, rfl, pending⟩
      unread := by
        intro i lower upper
        have later : i ≠ w.logicalChunk := (Nat.lt_of_lt_of_le started lower).ne'
        exact (writing.other touches started upper later).1 (writing.unread i lower upper) }

/-- Two goroutines of a put are about different chunks. -/
theorem logicalChunk_ne {w' : ChunkWrite} (distinct : (writes.map (·.logicalChunk)).Nodup)
    (found : writes[index]? = some w) (at_ : writes[i]? = some w') (other : i ≠ index) :
    w'.logicalChunk ≠ w.logicalChunk := by
  intro same
  have inside : i < (writes.map (·.logicalChunk)).length := by
    rw [List.length_map]
    exact (List.getElem?_eq_some_iff.mp at_).1
  apply other
  apply (List.getElem?_inj inside distinct).mp
  simp [found, at_, same]

/-- A goroutine ends. -/
theorem Writing.ended (writing : Writing config req s p) (found : p.writes[index]? = some w)
    (touches : Touches [p.addr.chunkID w.logicalChunk] s t) (result : writeErr = none →
      p.writeErr = none ∧ ChunkWritten config req t p.addr w.logicalChunk) :
    Writing config req t { p with writes := p.writes.eraseIdx index, writeErr := writeErr } := by
  refine writing.settle (List.mem_of_getElem? found) touches
    (((List.eraseIdx_sublist p.writes index).map _).nodup writing.distinct) ?_ ?_ result
  · intro w' member
    obtain ⟨i, other, at_⟩ := List.mem_eraseIdx_iff_getElem?.mp member
    exact .inl ⟨List.mem_of_getElem? at_, logicalChunk_ne writing.distinct found at_ other⟩
  intro w' member apart
  obtain ⟨i, at_⟩ := List.mem_iff_getElem?.mp member
  refine List.mem_eraseIdx_iff_getElem?.mpr ⟨i, ?_, at_⟩
  rintro rfl
  rw [found] at at_
  exact apart (congrArg ChunkWrite.logicalChunk (Option.some.inj at_).symm)

/-- A goroutine has written its chunk, and is to cache it. -/
theorem Writing.stored (writing : Writing config req s p) (found : p.writes[index]? = some w)
    (touches : Touches [p.addr.chunkID w.logicalChunk] s t)
    (here : ChunkWritten config req t p.addr w.logicalChunk) :
    Writing config req t { p with writes := p.writes.set index { w with written := true } } := by
  have sound := writing.writes w (List.mem_of_getElem? found)
  refine writing.settle (List.mem_of_getElem? found) touches ?_ ?_ ?_ fun noError => ⟨noError, here⟩
  · have same : (p.writes.set index { w with written := true }).map (·.logicalChunk) =
        p.writes.map (·.logicalChunk) := by
      apply List.ext_getElem?
      intro j
      by_cases this : index = j
      · subst this
        rw [List.getElem?_map, List.getElem?_set_self (List.getElem?_eq_some_iff.mp found).1]
        simp [found]
      · simp [List.getElem?_set_ne this]
    simpa only [same] using writing.distinct
  · intro w' member
    obtain ⟨j, at_⟩ := List.mem_iff_getElem?.mp member
    rcases getElem?_set_cases at_ with ⟨-, rfl⟩ | ⟨other, at_⟩
    · exact .inr ⟨sound.started, sound.payload, fun pending => by simp at pending, fun _ => here⟩
    · exact .inl ⟨List.mem_of_getElem? at_, logicalChunk_ne writing.distinct found at_ other⟩
  · intro w' member apart
    obtain ⟨j, at_⟩ := List.mem_iff_getElem?.mp member
    have other : index ≠ j := by
      rintro rfl
      rw [found] at at_
      exact apart (congrArg ChunkWrite.logicalChunk (Option.some.inj at_).symm)
    exact List.mem_of_getElem? ((List.getElem?_set_ne other).trans at_)

/-- What a step of a put in progress keeps. -/
structure PutStep (config : PhysicalConfig) (req : PutSegmentRequest) (s : PhysicalStore)
    (p : PutProgress) (p' : PutProgress) (t : PhysicalStore) : Prop where
  writing : Writing config req t p'
  coherent : Coherent config t
  addr : p'.addr = p.addr
  touches : Touches (chunkIDs p.addr) s t
  deleted : t.deleted = s.deleted

/-- A step about one of the chunks of a segment. -/
theorem Touches.segment (touches : Touches [addr.chunkID i] s t)
    (less : i < addr.chunkCount.toNat) :
    Touches (chunkIDs addr) s t where
  volume id outside := by
    apply touches.volume
    intro same
    exact outside (List.mem_singleton.mp same ▸ mem_chunkIDs less)
  cache entry member := by
    refine (touches.cache entry member).imp_right fun same => ?_
    rw [List.mem_singleton.mp same]
    exact mem_chunkIDs less

/-- A chunk that is not cached gets another content. -/
theorem Coherent.store (coherent : Coherent config s) (uncached : Uncached s id)
    (content : Option (List UInt8)) :
    Coherent config
      { s with volume := fun other => if other = id then content else s.volume other } := by
  intro entry member
  obtain ⟨enabled, same⟩ := coherent entry member
  exact ⟨enabled, (if_neg (uncached entry member)).trans same⟩

theorem Touches.store (id : UInt64) (content : Option (List UInt8)) :
    Touches [id] s
      { s with volume := fun other => if other = id then content else s.volume other } where
  volume _ outside := if_neg fun same => outside (List.mem_singleton.mpr same)
  cache _ member := .inl member

/-- The step of a goroutine that writes its chunk. -/
theorem Writing.writeChunk (writing : Writing config req s p) (coherent : Coherent config s)
    {answer : WriteAnswer} (served : config.writeChunk index answer p s = (p', t)) :
    PutStep config req s p p' t := by
  unfold PhysicalConfig.writeChunk at served
  split at served
  · next logicalChunk payload found =>
    have sound := writing.writes _ (List.mem_of_getElem? found)
    have less : logicalChunk < p.addr.chunkCount.toNat :=
      Nat.lt_of_lt_of_le sound.started writing.next
    cases answer with
    | failed e content =>
      cases served
      have touches := Touches.store (s := s) (p.addr.chunkID logicalChunk) content
      exact ⟨writing.ended found touches (by simp), coherent.store (sound.uncached rfl) content,
        rfl, touches.segment less, rfl⟩
    | stored =>
      have touches := Touches.store (s := s) (p.addr.chunkID logicalChunk) (some payload)
      have coherent' := coherent.store (sound.uncached rfl) (some payload)
      have here : ChunkWritten config req
          { s with volume := fun other =>
              if other = p.addr.chunkID logicalChunk then some payload else s.volume other }
          p.addr logicalChunk := by
        rw [ChunkWritten, ← sound.payload]
        exact if_pos rfl
      dsimp only at served
      split at served
      · cases served
        exact ⟨writing.stored found touches here, coherent', rfl, touches.segment less, rfl⟩
      · cases served
        exact ⟨writing.ended found touches fun noError => ⟨noError, here⟩, coherent', rfl,
          touches.segment less, rfl⟩
  · cases served
    exact ⟨writing, coherent, rfl, .refl, rfl⟩

/-- The step of a goroutine that caches its chunk. -/
theorem Writing.cacheWritten (writing : Writing config req s p) (coherent : Coherent config s)
    (served : config.cacheWritten index p s = (p', t)) : PutStep config req s p p' t := by
  unfold PhysicalConfig.cacheWritten at served
  split at served
  · next logicalChunk payload found =>
    cases served
    have sound := writing.writes _ (List.mem_of_getElem? found)
    have here := sound.stored rfl
    have less : logicalChunk < p.addr.chunkCount.toNat :=
      Nat.lt_of_lt_of_le sound.started writing.next
    have touches : Touches [p.addr.chunkID logicalChunk] s
        { s with
          cache := s.cache.cacheChunk config.chunkCacheMaxBytes (p.addr.chunkID logicalChunk)
            payload } :=
      ⟨fun _ _ => rfl, fun entry member => (mem_cacheChunk member).imp_right fun new => by
        simp [new.2]⟩
    refine ⟨writing.ended found touches fun noError => ⟨noError, here⟩, ?_, rfl,
      touches.segment less, rfl⟩
    intro entry member
    rcases mem_cacheChunk member with old | ⟨enabled, rfl⟩
    · exact coherent entry old
    · refine ⟨enabled, ?_⟩
      rw [ChunkWritten, ← sound.payload] at here
      exact here
  · cases served
    exact ⟨writing, coherent, rfl, .refl, rfl⟩

end

/-! ### The end -/

@[simp] theorem recordPhysicalOrphan_volume (ref : SegmentRef) (reason : DeleteReason)
    (now : Time) :
    (s.recordPhysicalOrphan ref reason now).volume = s.volume := by
  unfold PhysicalStore.recordPhysicalOrphan
  split <;> rfl

@[simp] theorem recordPhysicalOrphan_cache (ref : SegmentRef) (reason : DeleteReason) (now : Time) :
    (s.recordPhysicalOrphan ref reason now).cache = s.cache := by
  unfold PhysicalStore.recordPhysicalOrphan
  split <;> rfl

@[simp] theorem recordPhysicalOrphan_deleted (ref : SegmentRef) (reason : DeleteReason)
    (now : Time) : (s.recordPhysicalOrphan ref reason now).deleted = s.deleted := by
  unfold PhysicalStore.recordPhysicalOrphan
  split <;> rfl

@[simp] theorem recordPhysicalRepair_volume (ref : SegmentRef) (reason : PhysicalRepairReason)
    (detail : String) (now : Time) :
    (s.recordPhysicalRepair ref reason detail now).volume = s.volume := by
  unfold PhysicalStore.recordPhysicalRepair
  split <;> rfl

@[simp] theorem recordPhysicalRepair_cache (ref : SegmentRef) (reason : PhysicalRepairReason)
    (detail : String) (now : Time) :
    (s.recordPhysicalRepair ref reason detail now).cache = s.cache := by
  unfold PhysicalStore.recordPhysicalRepair
  split <;> rfl

@[simp] theorem recordPhysicalRepair_deleted (ref : SegmentRef) (reason : PhysicalRepairReason)
    (detail : String) (now : Time) :
    (s.recordPhysicalRepair ref reason detail now).deleted = s.deleted := by
  unfold PhysicalStore.recordPhysicalRepair
  split <;> rfl

/-- Once every chunk is read and written, they hold the payload. -/
theorem Writing.holds (writing : Writing config req s p) (positive : 0 < config.chunkSize.toNat)
    (all : p.addr.chunkCount.toNat ≤ p.next) (noWrites : p.writes = [])
    (noError : p.writeErr = none) (atEnd : p.reader = []) : Holds config s p.addr req.reader := by
  have size : p.addr.sizeBytes = req.sizeBytes := by rw [writing.addr]; rfl
  have count : p.addr.chunkCount = physicalChunkCount req.sizeBytes config.chunkSize := by
    rw [writing.addr]; rfl
  have counted : physicalChunkCount req.sizeBytes config.chunkSize ≠ 0 := count ▸ writing.counted
  have covered := le_mul_physicalChunkCount positive counted
  have last : p.next = p.addr.chunkCount.toNat := Nat.le_antisymm writing.next all
  have length : req.reader.length = req.sizeBytes.toNat := by
    rw [← writing.split, atEnd, List.append_nil, writing.digested, last, count,
      Nat.min_eq_right covered]
  refine ⟨by rw [length, size], fun o inside => ?_, fun i less => ?_⟩
  · rw [count]
    exact div_lt_physicalChunkCount counted (size ▸ inside)
  rcases writing.written noError i (last ▸ less) with ⟨w, member, -⟩ | stored
  · rw [noWrites] at member
    cases member
  have same : chunkPayload config req i = payloadChunk config req.reader i := by
    unfold chunkPayload payloadChunk
    rw [← length, ← List.length_drop, List.take_eq_take_iff]
    omega
  rw [← same]
  exact stored

/-- What reading a segment does to the store. -/
structure ReadEffect (config : PhysicalConfig) (addr : PhysicalSegmentAddress)
    (s t : PhysicalStore) : Prop where
  volume : t.volume = s.volume
  deleted : t.deleted = s.deleted
  coherent : Coherent config t
  own : ∀ entry ∈ t.cache.entries, entry ∈ s.cache.entries ∨ entry.chunkID ∈ chunkIDs addr

section

variable {addr : PhysicalSegmentAddress} {payload : List UInt8}

theorem ReadEffect.refl (coherent : Coherent config s) : ReadEffect config addr s s :=
  ⟨rfl, rfl, coherent, fun _ member => .inl member⟩

theorem CacheAfter.effect {cache : ChunkCache} (after : CacheAfter config addr s cache) :
    ReadEffect config addr s { s with cache := cache } :=
  ⟨rfl, rfl, after.coherent, after.own⟩

theorem ReadEffect.touches (effect : ReadEffect config addr s t) : Touches (chunkIDs addr) s t :=
  ⟨fun _ _ => by rw [effect.volume], effect.own⟩

theorem Holds.of_volume (holds : Holds config s addr payload) (same : t.volume = s.volume) :
    Holds config t addr payload :=
  ⟨holds.size, holds.covers, by rw [same]; exact holds.chunks⟩

/-- A change of the queues alone. -/
theorem ReadEffect.queues (effect : ReadEffect config addr s t) {u : PhysicalStore}
    (volume : u.volume = t.volume) (cache : u.cache = t.cache) (deleted : u.deleted = t.deleted) :
    ReadEffect config addr s u where
  volume := volume.trans effect.volume
  deleted := deleted.trans effect.deleted
  coherent := by
    unfold Coherent
    rw [cache, volume]
    exact effect.coherent
  own := by
    rw [cache]
    exact effect.own

end

variable {platform : Platform} {readChunk : ReadChunk} {contextError : Option ContextError}
variable {now : Time}

/-- Verifying a segment reads it, if anything. -/
theorem verifySegmentReadback_effect {payload : List UInt8} {ref : SegmentRef} {wantSize : UInt64}
    {wantDigestHex : String} (holds : Holds config s addr payload) (coherent : Coherent config s)
    (positive : 0 < config.chunkSize.toNat) (unwrapped : Unwrapped config addr.sizeBytes.toNat)
    (faithful : Faithful readChunk) (id : ref.segmentID = encodePhysicalSegmentID addr)
    {answer : Except (PhysicalRepairReason × StorageError) Unit}
    (verified : config.verifySegmentReadback platform readChunk contextError now ref wantSize
      wantDigestHex s = (answer, t)) : ReadEffect config addr s t := by
  unfold PhysicalConfig.verifySegmentReadback at verified
  dsimp only at verified
  split at verified
  · cases verified
    exact .refl coherent
  · next r got =>
    obtain ⟨opened, rfl, -⟩ := getSegment_ok id got
    obtain rfl := opened.segment
    have position : r.nextOffset.toNat + r.remaining.toNat ≤ r.addr.sizeBytes.toNat := by
      rw [opened.offset, opened.remaining]
      exact opened.inside
    obtain ⟨cache, copied, after⟩ := copyRest_holds now positive (.inr unwrapped) holds position
      (Nat.le_refl _) faithful coherent
    rw [copied] at verified
    dsimp only at verified
    split at verified
    · cases verified
      exact after.effect
    split at verified
    · cases verified
      exact after.effect
    · cases verified
      exact after.effect

/-- How a put ends: not yet, with an error, or with a reference to the payload. -/
inductive PutEnds (config : PhysicalConfig) (req : PutSegmentRequest) (s : PhysicalStore)
    (p : PutProgress) : PhysicalPut → PhysicalStore → Prop
  | waits : PutEnds config req s p (.writing p) s
  | fails {t : PhysicalStore} (e : StorageError) (effect : ReadEffect config p.addr s t) :
      PutEnds config req s p (.returned (.error e)) t
  | returns {t : PhysicalStore} (digestHex : String) (now : Time)
      (holds : Holds config t p.addr req.reader) (effect : ReadEffect config p.addr s t) :
      PutEnds config req s p
        (.returned (.ok (physicalSegmentRef config req.storageClass p.addr digestHex now))) t

theorem Writing.finishPut (writing : Writing config req s p) (coherent : Coherent config s)
    (positive : 0 < config.chunkSize.toNat) (unwrapped : Unwrapped config req.sizeBytes.toNat)
    (faithful : Faithful readChunk) {next : PhysicalPut}
    (served : config.finishPut platform readChunk contextError now req p s = (next, t)) :
    PutEnds config req s p next t := by
  have size : p.addr.sizeBytes = req.sizeBytes := by rw [writing.addr]; rfl
  have orphaned (ref : SegmentRef) : ReadEffect config p.addr s
      (s.recordPhysicalOrphan ref .publishFailed now) :=
    (ReadEffect.refl coherent).queues (by simp) (by simp) (by simp)
  unfold PhysicalConfig.finishPut at served
  dsimp only at served
  split at served
  · cases served
    exact .waits
  · next noWrites =>
    have noWrites : p.writes = [] := Classical.not_not.mp noWrites
    split at served
    · cases served
      refine .fails _ ?_
      split
      · exact orphaned _
      · exact .refl coherent
    · split at served
      · cases served
        exact .waits
      · next all =>
        split at served
        · cases served
          exact .fails _ (orphaned _)
        · cases served
          exact .fails _ (orphaned _)
        · next noError atEnd =>
          have atEnd : p.reader = [] := by
            unfold ensureEmptyReader at atEnd
            split at atEnd
            · cases atEnd
            · next empty => exact Classical.not_not.mp empty
          have holds := writing.holds positive (Nat.not_lt.mp all) noWrites noError atEnd
          split at served
          · split at served
            · next verified =>
              cases served
              have effect := verifySegmentReadback_effect holds coherent positive
                (size ▸ unwrapped) faithful rfl verified
              exact .fails _ (effect.queues (by simp) (by simp) (by simp))
            · next verified =>
              cases served
              have effect := verifySegmentReadback_effect holds coherent positive
                (size ▸ unwrapped) faithful rfl verified
              exact .returns _ _ (holds.of_volume effect.volume) effect
          · cases served
            exact .returns _ _ holds (.refl coherent)

end

end Namros.Guarantees
