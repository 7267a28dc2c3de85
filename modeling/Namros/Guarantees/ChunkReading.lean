import Namros.Guarantees.SegmentDeletion
import Namros.Library.Rounding

/-!
# Reading physical chunks

What one `readNextChunk` answers, in terms of the volume alone. A chunk in the cache has the
content it has in the volume, so that it makes no difference where it is read.
-/

namespace Namros.Guarantees

open Library Source

/-! ## The cache -/

section

variable {cache : ChunkCache} {maxBytes chunkID off length : UInt64} {data : List UInt8}
variable {entry : CacheEntry}

theorem mem_remove (member : entry ∈ (cache.remove chunkID).entries) :
    entry ∈ cache.entries ∧ entry.chunkID ≠ chunkID := by
  unfold ChunkCache.remove at member
  split at member
  · next absent =>
    have other := List.find?_eq_none.mp absent entry member
    exact ⟨member, by simpa using other⟩
  · simpa using List.mem_filter.mp member

theorem mem_evictFromBack {entries : List CacheEntry} {bytes : UInt64}
    (member : entry ∈ (evictFromBack maxBytes entries bytes).1) : entry ∈ entries := by
  induction entries generalizing bytes with
  | nil => exact member
  | cons tail others ih =>
    unfold evictFromBack at member
    split at member
    · exact List.mem_cons_of_mem _ (ih member)
    · exact member

/-- Caching a chunk adds at most that chunk. -/
theorem mem_cacheChunk (member : entry ∈ (cache.cacheChunk maxBytes chunkID data).entries) :
    entry ∈ cache.entries ∨
      maxBytes ≠ 0 ∧ entry = { chunkID := chunkID, data := data } := by
  unfold ChunkCache.cacheChunk at member
  split at member
  · exact .inl member
  · next large =>
    have inside := mem_evictFromBack (List.mem_reverse.mp member)
    rcases List.mem_cons.mp (List.mem_reverse.mp inside) with rfl | old
    · exact .inr ⟨fun zero => large (.inl zero), rfl⟩
    · exact .inl (mem_remove old).1

theorem mem_evictCachedChunk (member : entry ∈ (cache.evictCachedChunk maxBytes chunkID).entries) :
    entry ∈ cache.entries ∧ (maxBytes ≠ 0 → entry.chunkID ≠ chunkID) := by
  unfold ChunkCache.evictCachedChunk at member
  split at member
  · next zero => exact ⟨member, fun enabled => absurd zero enabled⟩
  · exact ⟨(mem_remove member).1, fun _ => (mem_remove member).2⟩

end

/-! ## The next chunk of a reader -/

/-- The volume returns what is stored in a chunk. -/
structure Faithful (readChunk : ReadChunk) : Prop where
  stored : ∀ {content : List UInt8} {off length : UInt64},
    off.toNat + length.toNat ≤ content.length →
      ∃ data, readChunk (some content) off length = .ok (some data) ∧
        data.take length.toNat = (content.drop off.toNat).take length.toNat

section

variable {config : PhysicalConfig} {readChunk : ReadChunk} {now : Time} {r : PhysicalReader}
variable {s : PhysicalStore} {window : ChunkWindow} {content data : List UInt8}

/-- What is read from a chunk with this content. -/
def windowAnswer (readChunk : ReadChunk) (content : Option (List UInt8)) (window : ChunkWindow) :
    Except StorageError (List UInt8) :=
  (fetchWindow readChunk content window).map (·.take window.chunkLength.toNat)

/-- The window of a chunk, cut out of its content. -/
def cutWindow (window : ChunkWindow) (content : List UInt8) : List UInt8 :=
  (content.drop window.chunkOffset.toNat).take window.chunkLength.toNat

theorem windowAnswer_stored (faithful : Faithful readChunk)
    (inside : window.chunkOffset.toNat + window.chunkLength.toNat ≤ content.length) :
    windowAnswer readChunk (some content) window = .ok (cutWindow window content) := by
  obtain ⟨data, answer, same⟩ := faithful.stored inside
  have long : ¬ data.length < window.chunkLength.toNat := by
    have lengths := congrArg List.length same
    simp only [List.length_take, List.length_drop] at lengths
    omega
  simp only [windowAnswer, fetchWindow, answer, if_neg long, Except.map, same, cutWindow]

/-- An entry of the cache that reading the next chunk has added. -/
structure CachedFrom (config : PhysicalConfig) (readChunk : ReadChunk) (r : PhysicalReader)
    (s : PhysicalStore) (entry : CacheEntry) : Prop where
  enabled : config.chunkCacheMaxBytes ≠ 0
  id : entry.chunkID = (r.nextWindow config).physicalChunkID
  whole : (r.nextWindow config).chunkOffset = 0 ∧
    (r.nextWindow config).chunkLength = config.chunkSize
  data : windowAnswer readChunk (s.volume (r.nextWindow config).physicalChunkID)
    (r.nextWindow config) = .ok entry.data

/-- `readNextChunk` in terms of the volume, if the chunk it reads is cached only with its
content. -/
theorem readNextChunk_spec (now : Time) (faithful : Faithful readChunk)
    (clean : ∀ entry ∈ s.cache.entries,
      entry.chunkID = (r.nextWindow config).physicalChunkID →
        s.volume (r.nextWindow config).physicalChunkID = some entry.data) :
    match windowAnswer readChunk (s.volume (r.nextWindow config).physicalChunkID)
        (r.nextWindow config) with
    | .ok data => ∃ cache,
        r.readNextChunk config readChunk none now s =
          (.ok data, r.advance (r.nextWindow config).chunkLength, { s with cache := cache }) ∧
        ∀ entry ∈ cache.entries,
          entry ∈ s.cache.entries ∨ CachedFrom config readChunk r s entry
    | .error e =>
        r.readNextChunk config readChunk none now s =
          (.error e, r, s.recordPhysicalRepair r.ref .readFailed e.text now) := by
  generalize lookup : (if r.allowCache then
      s.cache.readCachedChunk config.chunkCacheMaxBytes (r.nextWindow config).physicalChunkID
        (r.nextWindow config).chunkOffset (r.nextWindow config).chunkLength
    else none) = hit
  simp only [PhysicalReader.readNextChunk, lookup]
  cases hit with
  | some found =>
    obtain ⟨cached, cache⟩ := found
    split at lookup
    · -- a hit is a range of a cached chunk, and leaves the same entries
      obtain ⟨-, lookup⟩ := Option.ite_none_left_eq_some.mp lookup
      split at lookup
      · cases lookup
      next entry found =>
      obtain ⟨inside, lookup⟩ := Option.ite_none_left_eq_some.mp lookup
      cases lookup
      have member := List.mem_of_find?_eq_some found
      have wrap : ¬ _ < (r.nextWindow config).chunkOffset := fun wraps => inside (.inl wraps)
      have sum := toNat_add_of_le (UInt64.not_lt.mp wrap)
      have stop := mt (fun beyond => inside (.inr (.inr beyond))) id
      rw [clean entry member (by simpa using List.find?_some found),
        windowAnswer_stored faithful (by omega), sum, Nat.add_sub_cancel_left]
      refine ⟨_, rfl, fun e kept => .inl ?_⟩
      rcases List.mem_cons.mp kept with rfl | kept
      · exact member
      · exact (List.mem_filter.mp kept).1
    · cases lookup
  | none =>
    cases fetched : fetchWindow readChunk (s.volume (r.nextWindow config).physicalChunkID)
        (r.nextWindow config) with
    | error e => simp only [windowAnswer, fetched, Except.map]
    | ok data =>
      simp only [windowAnswer, fetched, Except.map]
      split
      · next whole =>
        refine ⟨_, rfl, fun entry member => (mem_cacheChunk member).imp_right ?_⟩
        rintro ⟨enabled, rfl⟩
        refine ⟨enabled, rfl, ⟨whole.1, whole.2.1⟩, ?_⟩
        rw [windowAnswer, fetched, whole.2.1]
        rfl
      · exact ⟨s.cache, rfl, fun entry member => .inl member⟩

end

/-! ## Positions -/

variable {chunkSize : UInt64} {i : Nat}

section

variable {config : PhysicalConfig} {r : PhysicalReader} {size : Nat} {a b : UInt64}

theorem minUint64_toNat : (minUint64 a b).toNat = min a.toNat b.toNat := by
  unfold minUint64
  split
  · next less =>
    have := UInt64.lt_iff_toNat_lt.mp less
    omega
  · next notLess =>
    have := UInt64.le_iff_toNat_le.mp (UInt64.not_lt.mp notLess)
    omega

theorem maxUint64_of_le (le : b ≤ a) : maxUint64 a b = a := by
  unfold maxUint64
  split
  · rfl
  · next notLess => exact UInt64.le_antisymm le (UInt64.not_lt.mp notLess) |>.symm ▸ rfl

theorem physicalChunkCount_toNat {size : UInt64} (counted : physicalChunkCount size chunkSize ≠ 0) :
    (physicalChunkCount size chunkSize).toNat = (size.toNat - 1) / chunkSize.toNat + 1 ∧
      0 < size.toNat := by
  unfold physicalChunkCount at counted ⊢
  split at counted
  · exact absurd rfl counted
  · next nonempty =>
    have positive : 0 < size.toNat :=
      UInt64.lt_iff_toNat_lt.mp (UInt64.pos_iff_ne_zero.mpr nonempty)
    rw [if_neg nonempty]
    dsimp only at counted ⊢
    split at counted
    · exact absurd rfl counted
    · next small =>
      rw [if_neg small, UInt64.toNat_toUInt32]
      have last : (size - 1).toNat = size.toNat - 1 :=
        UInt64.toNat_sub_of_le _ _ (UInt64.le_iff_toNat_le.mpr positive)
      have count : ((size - 1) / chunkSize + 1).toNat = (size.toNat - 1) / chunkSize.toNat + 1 := by
        have := size.toNat_lt
        have : (size.toNat - 1) / chunkSize.toNat ≤ size.toNat - 1 := Nat.div_le_self _ _
        rw [UInt64.toNat_add, UInt64.toNat_div, last]
        exact Nat.mod_eq_of_lt (show _ + 1 < _ by omega)
      rw [count] at small ⊢
      exact ⟨Nat.mod_eq_of_lt (by omega), positive⟩

/-- A byte of the segment is in one of its chunks. -/
theorem div_lt_physicalChunkCount {size : UInt64} (counted : physicalChunkCount size chunkSize ≠ 0)
    (inside : i < size.toNat) :
    i / chunkSize.toNat < (physicalChunkCount size chunkSize).toNat := by
  have before : i / chunkSize.toNat ≤ (size.toNat - 1) / chunkSize.toNat :=
    Nat.div_le_div_right (by omega)
  have count := (physicalChunkCount_toNat counted).1
  omega

/-- Each of its chunks begins inside the segment. -/
theorem mul_lt_of_lt_physicalChunkCount {size : UInt64}
    (less : i < (physicalChunkCount size chunkSize).toNat) : i * chunkSize.toNat < size.toNat := by
  have counted : physicalChunkCount size chunkSize ≠ 0 := by
    intro none
    simp [none] at less
  obtain ⟨count, positive⟩ := physicalChunkCount_toNat counted
  have before : i * chunkSize.toNat ≤ (size.toNat - 1) / chunkSize.toNat * chunkSize.toNat :=
    Nat.mul_le_mul_right _ (by omega)
  have := Nat.div_mul_le_self (size.toNat - 1) chunkSize.toNat
  omega

/-- Together they cover it. -/
theorem le_mul_physicalChunkCount {size : UInt64} (positive : 0 < chunkSize.toNat)
    (counted : physicalChunkCount size chunkSize ≠ 0) :
    size.toNat ≤ (physicalChunkCount size chunkSize).toNat * chunkSize.toNat := by
  rw [(physicalChunkCount_toNat counted).1, Nat.add_mul, Nat.one_mul]
  have := Nat.div_add_mod' (size.toNat - 1) chunkSize.toNat
  have := Nat.mod_lt (size.toNat - 1) positive
  omega

/-- Nothing wraps around while a segment of this size is read. -/
def Unwrapped (config : PhysicalConfig) (size : Nat) : Prop :=
  size + config.chunkSize.toNat < 2 ^ 64

/-- A segment of less than a chunk never meets the end of its chunk. -/
def EndsUnwrapped (config : PhysicalConfig) (size : Nat) : Prop :=
  size < config.chunkSize.toNat ∨ Unwrapped config size

theorem nextWindow_numbers (positive : 0 < config.chunkSize.toNat)
    (unwrapped : EndsUnwrapped config size)
    (position : r.nextOffset.toNat + r.remaining.toNat ≤ size) :
    (r.nextWindow config).physicalChunkID =
        r.addr.chunkID (r.nextOffset.toNat / config.chunkSize.toNat) ∧
      (r.nextWindow config).chunkOffset.toNat = r.nextOffset.toNat % config.chunkSize.toNat ∧
      (r.nextWindow config).chunkLength.toNat = min r.remaining.toNat
        (config.chunkSize.toNat - r.nextOffset.toNat % config.chunkSize.toNat) := by
  unfold EndsUnwrapped Unwrapped at unwrapped
  have whole := Nat.div_add_mod' r.nextOffset.toNat config.chunkSize.toNat
  have ends : r.nextOffset.toNat / config.chunkSize.toNat * config.chunkSize.toNat +
      config.chunkSize.toNat < 2 ^ 64 := by
    rcases unwrapped with small | large
    · rw [Nat.div_eq_of_lt (by omega), Nat.zero_mul, Nat.zero_add]
      exact config.chunkSize.toNat_lt
    · omega
  have part := Nat.mod_lt r.nextOffset.toNat positive
  have chunk : (r.nextOffset / config.chunkSize).toNat =
      r.nextOffset.toNat / config.chunkSize.toNat := UInt64.toNat_div _ _
  have start : (r.nextOffset / config.chunkSize * config.chunkSize).toNat =
      r.nextOffset.toNat / config.chunkSize.toNat * config.chunkSize.toNat := by
    rw [UInt64.toNat_mul, chunk]
    exact Nat.mod_eq_of_lt (by have := r.nextOffset.toNat_lt; omega)
  have copyStart : maxUint64 r.nextOffset (r.nextOffset / config.chunkSize * config.chunkSize) =
      r.nextOffset := maxUint64_of_le (UInt64.le_iff_toNat_le.mpr (by omega))
  have copyEnd : (minUint64 (r.nextOffset + r.remaining)
      (r.nextOffset / config.chunkSize * config.chunkSize + config.chunkSize)).toNat =
        min (r.nextOffset.toNat + r.remaining.toNat)
          (r.nextOffset.toNat / config.chunkSize.toNat * config.chunkSize.toNat +
            config.chunkSize.toNat) := by
    rw [minUint64_toNat, UInt64.toNat_add, UInt64.toNat_add, start]
    rw [Nat.mod_eq_of_lt (by omega), Nat.mod_eq_of_lt ends]
  refine ⟨?_, ?_, ?_⟩
  · have same : r.nextOffset / config.chunkSize =
        UInt64.ofNat (r.nextOffset.toNat / config.chunkSize.toNat) := by
      rw [← chunk, UInt64.ofNat_toNat]
    simp only [PhysicalReader.nextWindow, PhysicalSegmentAddress.chunkID, same]
  · simp only [PhysicalReader.nextWindow, copyStart]
    rw [UInt64.toNat_sub_of_le _ _ (UInt64.le_iff_toNat_le.mpr (by omega)), start]
    omega
  · simp only [PhysicalReader.nextWindow, copyStart]
    rw [UInt64.toNat_sub_of_le _ _ (UInt64.le_iff_toNat_le.mpr (by omega)), copyEnd]
    omega

end

/-! ## Payloads in chunks -/

/-- The `i`-th chunk of a payload. -/
def payloadChunk (config : PhysicalConfig) (payload : List UInt8) (i : Nat) : List UInt8 :=
  (payload.drop (i * config.chunkSize.toNat)).take config.chunkSize.toNat

/-- The chunks of the segment hold the payload. -/
structure Holds (config : PhysicalConfig) (s : PhysicalStore) (addr : PhysicalSegmentAddress)
    (payload : List UInt8) : Prop where
  size : payload.length = addr.sizeBytes.toNat
  covers : ∀ o < addr.sizeBytes.toNat, o / config.chunkSize.toNat < addr.chunkCount.toNat
  chunks : ∀ i < addr.chunkCount.toNat,
    s.volume (addr.chunkID i) = some (config.writePayload (payloadChunk config payload i))

section

variable {config : PhysicalConfig} {readChunk : ReadChunk} {now : Time} {r : PhysicalReader}
variable {s : PhysicalStore} {payload chunk : List UInt8} {entry : CacheEntry}

/-- A chunk is written from its start, with nothing or zeros after it. -/
theorem writePayload_eq (config : PhysicalConfig) (chunk : List UInt8) :
    ∃ padding, config.writePayload chunk = chunk ++ padding := by
  unfold PhysicalConfig.writePayload
  split
  · exact ⟨_, rfl⟩
  · exact ⟨[], (List.append_nil chunk).symm⟩

theorem writePayload_whole (whole : chunk.length = config.chunkSize.toNat) :
    config.writePayload chunk = chunk := by
  have full : UInt64.ofNat chunk.length = config.chunkSize := by rw [whole, UInt64.ofNat_toNat]
  have long : config.shouldFullChunkWrite (.ofNat chunk.length) = false := by
    simp [PhysicalConfig.shouldFullChunkWrite, full]
  simp [PhysicalConfig.writePayload, long]

/-- What a reader is about to read of a payload that is held. -/
structure Reads (config : PhysicalConfig) (s : PhysicalStore) (payload : List UInt8)
    (r : PhysicalReader) : Prop where
  positive : 0 < config.chunkSize.toNat
  unwrapped : EndsUnwrapped config r.addr.sizeBytes.toNat
  holds : Holds config s r.addr payload
  position : r.nextOffset.toNat + r.remaining.toNat ≤ r.addr.sizeBytes.toNat
  more : 0 < r.remaining.toNat

theorem Reads.content (reads : Reads config s payload r) :
    s.volume (r.nextWindow config).physicalChunkID = some (config.writePayload
        (payloadChunk config payload (r.nextOffset.toNat / config.chunkSize.toNat))) ∧
      (r.nextWindow config).chunkOffset.toNat + (r.nextWindow config).chunkLength.toNat ≤
        (payloadChunk config payload
          (r.nextOffset.toNat / config.chunkSize.toNat)).length := by
  obtain ⟨positive, unwrapped, holds, position, more⟩ := reads
  obtain ⟨id, offset, length⟩ := nextWindow_numbers positive unwrapped position
  have inside := holds.covers r.nextOffset.toNat (by omega)
  refine ⟨by rw [id]; exact holds.chunks _ inside, ?_⟩
  have whole := Nat.div_add_mod' r.nextOffset.toNat config.chunkSize.toNat
  have part := Nat.mod_lt r.nextOffset.toNat positive
  have size := holds.size
  simp only [payloadChunk, List.length_take, List.length_drop]
  omega

theorem Reads.answer (reads : Reads config s payload r) (faithful : Faithful readChunk) :
    windowAnswer readChunk (s.volume (r.nextWindow config).physicalChunkID) (r.nextWindow config) =
      .ok ((payload.drop r.nextOffset.toNat).take (r.nextWindow config).chunkLength.toNat) := by
  obtain ⟨content, inside⟩ := reads.content
  obtain ⟨padding, written⟩ := writePayload_eq config
    (payloadChunk config payload (r.nextOffset.toNat / config.chunkSize.toNat))
  obtain ⟨id, offset, length⟩ := nextWindow_numbers reads.positive reads.unwrapped reads.position
  have part := Nat.mod_lt r.nextOffset.toNat reads.positive
  have whole := Nat.div_add_mod' r.nextOffset.toNat config.chunkSize.toNat
  rw [content, written, windowAnswer_stored faithful (by simp; omega)]
  unfold cutWindow
  rw [List.drop_append_of_le_length (by omega), List.take_append_of_le_length (by simp; omega)]
  -- a part of a chunk is a part of the payload
  rw [payloadChunk, List.drop_take, List.take_take, List.drop_drop, Nat.min_eq_left (by omega),
    offset, whole]

/-- A chunk is cached as it is held. -/
theorem Reads.cached (reads : Reads config s payload r) (faithful : Faithful readChunk)
    (cached : CachedFrom config readChunk r s entry) :
    s.volume entry.chunkID = some entry.data := by
  obtain ⟨content, inside⟩ := reads.content
  have data := cached.data
  generalize chunk : payloadChunk config payload (r.nextOffset.toNat / config.chunkSize.toNat) =
    whole at content inside
  have length : whole.length = config.chunkSize.toNat := by
    have offset := congrArg UInt64.toNat cached.whole.1
    have size := congrArg UInt64.toNat cached.whole.2
    have short : whole.length ≤ config.chunkSize.toNat := by
      rw [← chunk]
      exact List.length_take_le _ _
    omega
  rw [content, writePayload_whole length, windowAnswer_stored faithful inside] at data
  have same : cutWindow (r.nextWindow config) whole = entry.data := Except.ok.inj data
  rw [cached.id, content, writePayload_whole length, ← same, cutWindow, cached.whole.1,
    cached.whole.2, UInt64.toNat_zero, List.drop_zero, ← length, List.take_length]

/-! ### Reads -/

/-- The ids of the chunks of a segment. -/
def chunkIDs (addr : PhysicalSegmentAddress) : List UInt64 :=
  (List.range addr.chunkCount.toNat).map addr.chunkID

/-- Whatever is cached is cached with its content. -/
def Coherent (config : PhysicalConfig) (s : PhysicalStore) : Prop :=
  ∀ entry ∈ s.cache.entries,
    config.chunkCacheMaxBytes ≠ 0 ∧ s.volume entry.chunkID = some entry.data

/-- The cache after a read of this segment. -/
structure CacheAfter (config : PhysicalConfig) (addr : PhysicalSegmentAddress) (s : PhysicalStore)
    (cache : ChunkCache) : Prop where
  coherent : Coherent config { s with cache := cache }
  own : ∀ entry ∈ cache.entries, entry ∈ s.cache.entries ∨ entry.chunkID ∈ chunkIDs addr

theorem mem_chunkIDs {addr : PhysicalSegmentAddress} (less : i < addr.chunkCount.toNat) :
    addr.chunkID i ∈ chunkIDs addr :=
  List.mem_map_of_mem (List.mem_range.mpr less)

/-- The next chunk of a segment whose payload is held. -/
theorem Reads.next (now : Time) (reads : Reads config s payload r) (faithful : Faithful readChunk)
    (coherent : Coherent config s) :
    ∃ cache,
      r.readNextChunk config readChunk none now s =
        (.ok ((payload.drop r.nextOffset.toNat).take (r.nextWindow config).chunkLength.toNat),
          r.advance (r.nextWindow config).chunkLength, { s with cache := cache }) ∧
      CacheAfter config r.addr s cache := by
  have clean : ∀ entry ∈ s.cache.entries,
      entry.chunkID = (r.nextWindow config).physicalChunkID →
        s.volume (r.nextWindow config).physicalChunkID = some entry.data :=
    fun entry member id => id ▸ (coherent entry member).2
  have spec := readNextChunk_spec now faithful clean
  rw [reads.answer faithful] at spec
  obtain ⟨cache, next, entries⟩ := spec
  refine ⟨cache, next, fun entry member => ?_, fun entry member => ?_⟩
  · rcases entries entry member with old | new
    · exact coherent entry old
    · exact ⟨new.enabled, reads.cached faithful new⟩
  refine (entries entry member).imp_right fun new => ?_
  have inside := reads.holds.covers r.nextOffset.toNat
    (by have := reads.position; have := reads.more; omega)
  rw [new.id, (nextWindow_numbers reads.positive reads.unwrapped reads.position).1]
  exact mem_chunkIDs inside

/-- The reader after that chunk. -/
theorem advance_numbers {size : Nat} (positive : 0 < config.chunkSize.toNat)
    (unwrapped : EndsUnwrapped config size)
    (position : r.nextOffset.toNat + r.remaining.toNat ≤ size) (more : 0 < r.remaining.toNat) :
    let length := (r.nextWindow config).chunkLength.toNat
    0 < length ∧ length ≤ r.remaining.toNat ∧
      (r.advance (r.nextWindow config).chunkLength).nextOffset.toNat =
        r.nextOffset.toNat + length ∧
      (r.advance (r.nextWindow config).chunkLength).remaining.toNat =
        r.remaining.toNat - length := by
  obtain ⟨-, -, short⟩ := nextWindow_numbers positive unwrapped position
  have part := Nat.mod_lt r.nextOffset.toNat positive
  unfold EndsUnwrapped Unwrapped at unwrapped
  have := config.chunkSize.toNat_lt
  refine ⟨by omega, by omega, ?_, ?_⟩
  · simp only [PhysicalReader.advance, UInt64.toNat_add]
    exact Nat.mod_eq_of_lt (by omega)
  · exact UInt64.toNat_sub_of_le _ _ (UInt64.le_iff_toNat_le.mpr (by omega))

/-- Where a reader stands that has delivered these bytes of a range of the payload. -/
structure Positioned (payload : List UInt8) (off stop : Nat) (delivered : List UInt8)
    (r : PhysicalReader) : Prop where
  unclosed : r.closed = false
  start : off ≤ r.nextOffset.toNat
  stop : r.nextOffset.toNat + r.remaining.toNat = stop
  read : delivered ++ r.buf = (payload.drop off).take (r.nextOffset.toNat - off)

/-- A `Read` delivers the next bytes, at least one of them, or the end. -/
theorem read_positioned (now : Time) {off stop n : Nat} {delivered : List UInt8}
    (positioned : Positioned payload off stop delivered r) (positive : 0 < config.chunkSize.toNat)
    (unwrapped : EndsUnwrapped config r.addr.sizeBytes.toNat)
    (holds : Holds config s r.addr payload) (within : stop ≤ r.addr.sizeBytes.toNat)
    (faithful : Faithful readChunk) (coherent : Coherent config s) (some : 0 < n) :
    (∃ data r' cache,
      r.read config readChunk none now n s = (.bytes data, r', { s with cache := cache }) ∧
      data ≠ [] ∧ Positioned payload off stop (delivered ++ data) r' ∧ r'.addr = r.addr ∧
      CacheAfter config r.addr s cache) ∨
    r.read config readChunk none now n s = (.eof, r, s) ∧
      delivered = (payload.drop off).take (stop - off) := by
  obtain ⟨unclosed, start, stops, read⟩ := positioned
  unfold PhysicalReader.read
  rw [if_neg (by omega), if_neg (by simp [unclosed])]
  by_cases buffered : r.buf = []
  · rw [if_neg (by simp [buffered])]
    rw [buffered, List.append_nil] at read
    by_cases ended : r.remaining = 0
    · rw [if_pos ended]
      refine .inr ⟨rfl, ?_⟩
      rw [read, ← stops, ended]
      simp
    · rw [if_neg ended]
      have more : 0 < r.remaining.toNat :=
        UInt64.lt_iff_toNat_lt.mp (UInt64.pos_iff_ne_zero.mpr ended)
      have reads : Reads config s payload r :=
        ⟨positive, unwrapped, holds, by omega, more⟩
      obtain ⟨cache, next, after⟩ := reads.next now faithful coherent
      obtain ⟨progress, short, offset, rest⟩ :=
        advance_numbers positive unwrapped reads.position more
      have size := holds.size
      rw [next]
      refine .inl ⟨_, _, cache, rfl, ?_, ⟨unclosed, ?_, ?_, ?_⟩, rfl, after⟩
      · simp only [ne_eq, List.take_eq_nil_iff, List.drop_eq_nil_iff]
        omega
      · show off ≤ (r.advance _).nextOffset.toNat
        omega
      · show (r.advance _).nextOffset.toNat + (r.advance _).remaining.toNat = stop
        omega
      · have grown (n : Nat) : r.nextOffset.toNat + n - off = r.nextOffset.toNat - off + n := by
          omega
        rw [List.append_assoc, List.take_append_drop, read, offset, grown, List.take_add,
          List.drop_drop, Nat.add_sub_cancel' start]
  · rw [if_pos buffered]
    refine .inl ⟨_, _, s.cache, rfl, ?_, ⟨unclosed, start, stops, ?_⟩, rfl, coherent,
      fun entry member => .inl member⟩
    · simp [List.take_eq_nil_iff, buffered]
      omega
    · rw [List.append_assoc, List.take_append_drop]
      exact read

/-- `io.Copy` of a held segment copies the rest of it. -/
theorem copyRest_holds {rounds : Nat} (now : Time) (positive : 0 < config.chunkSize.toNat)
    (unwrapped : EndsUnwrapped config r.addr.sizeBytes.toNat)
    (holds : Holds config s r.addr payload)
    (position : r.nextOffset.toNat + r.remaining.toNat ≤ r.addr.sizeBytes.toNat)
    (enough : r.remaining.toNat ≤ rounds) (faithful : Faithful readChunk)
    (coherent : Coherent config s) :
    ∃ cache,
      r.copyRest config readChunk none now rounds s =
        (.ok ((payload.drop r.nextOffset.toNat).take r.remaining.toNat),
          { s with cache := cache }) ∧
      CacheAfter config r.addr s cache := by
  induction rounds generalizing r s with
  | zero =>
    refine ⟨s.cache, ?_, coherent, fun entry member => .inl member⟩
    simp [PhysicalReader.copyRest, Nat.le_zero.mp enough]
  | succ rounds ih =>
    unfold PhysicalReader.copyRest
    by_cases ended : r.remaining = 0
    · refine ⟨s.cache, ?_, coherent, fun entry member => .inl member⟩
      simp [ended]
    have more : 0 < r.remaining.toNat :=
      UInt64.lt_iff_toNat_lt.mp (UInt64.pos_iff_ne_zero.mpr ended)
    have reads : Reads config s payload r := ⟨positive, unwrapped, holds, position, more⟩
    obtain ⟨cache, next, after⟩ := reads.next now faithful coherent
    obtain ⟨progress, short, offset, rest⟩ :=
      advance_numbers positive unwrapped reads.position more
    obtain ⟨cache', copied, after'⟩ := ih (r := r.advance (r.nextWindow config).chunkLength)
      (s := { s with cache := cache }) unwrapped
      ⟨holds.size, holds.covers, holds.chunks⟩
      (show (r.advance _).nextOffset.toNat + (r.advance _).remaining.toNat ≤
        r.addr.sizeBytes.toNat by omega)
      (by omega) after.coherent
    have join : (payload.drop r.nextOffset.toNat).take (r.nextWindow config).chunkLength.toNat ++
        (payload.drop (r.nextOffset.toNat + (r.nextWindow config).chunkLength.toNat)).take
          (r.remaining.toNat - (r.nextWindow config).chunkLength.toNat) =
        (payload.drop r.nextOffset.toNat).take r.remaining.toNat := by
      rw [← List.drop_drop, ← List.take_add, Nat.add_sub_cancel' short]
    refine ⟨cache', ?_, after'.coherent, fun entry member => ?_⟩
    · rw [if_neg ended, next]
      simp only [copied, offset, rest, join]
    · rcases after'.own entry member with old | own
      · exact after.own entry old
      · exact .inr own

end

/-! ## Opening a reader -/

section

variable {config : PhysicalConfig} {addr addr' : PhysicalSegmentAddress} {ref : SegmentRef}
variable {s : PhysicalStore} {off length : UInt64} {r : PhysicalReader}

/-- An id is read back only as its own address, in a volume without a colon. -/
theorem decodePhysicalSegmentID_ok
    (decoded : decodePhysicalSegmentID (encodePhysicalSegmentID addr) = .ok addr') :
    addr' = addr ∧ ':' ∉ addr.volumeID.toList := by
  have colon : ':' ∉ addr.volumeID.toList := by
    intro colon
    obtain ⟨e, invalid, -⟩ := decodePhysicalSegmentID_colon colon
    rw [invalid] at decoded
    cases decoded
  rw [decodePhysicalSegmentID_encode colon] at decoded
  exact ⟨(Except.ok.inj decoded).symm, colon⟩

/-- The bytes a range asks for. -/
def rangeLength (size : Nat) (off length : UInt64) : Nat :=
  if length = 0 then size - off.toNat else length.toNat

/-- What `getSegment` returns for a range. -/
structure Opened (addr : PhysicalSegmentAddress) (off length : UInt64) (r : PhysicalReader) :
    Prop where
  segment : r.addr = addr
  offset : r.nextOffset = off
  buf : r.buf = []
  unclosed : r.closed = false
  remaining : r.remaining.toNat = rangeLength addr.sizeBytes.toNat off length
  inside : off.toNat + rangeLength addr.sizeBytes.toNat off length ≤ addr.sizeBytes.toNat

theorem getSegment_ok {contextError : Option ContextError} {allowCache : Bool}
    (id : ref.segmentID = encodePhysicalSegmentID addr)
    (got : s.getSegment config contextError ref off length allowCache = .ok r) :
    Opened addr off length r ∧ contextError = none ∧
      ref.segmentID ∉ s.deleted ∧ ':' ∉ addr.volumeID.toList := by
  unfold PhysicalStore.getSegment at got
  split at got
  · cases got
  split at got
  · cases got
  · next found decoded =>
    rw [id] at decoded
    obtain ⟨rfl, colon⟩ := decodePhysicalSegmentID_ok decoded
    obtain ⟨-, got⟩ := refuse_eq_ok.mp got
    obtain ⟨unmarked, got⟩ := refuse_eq_ok.mp got
    obtain ⟨start, got⟩ := refuse_eq_ok.mp got
    generalize shape : (if length = 0 then found.sizeBytes - off else length) =
      readLength at got
    obtain ⟨range, got⟩ := refuse_eq_ok.mp got
    cases got
    have start := UInt64.le_iff_toNat_le.mp (UInt64.not_lt.mp start)
    obtain ⟨wrap, stop⟩ := not_or.mp range
    have sum := toNat_add_of_le (UInt64.not_lt.mp wrap)
    have stop := UInt64.le_iff_toNat_le.mp (UInt64.not_lt.mp stop)
    have remaining : readLength.toNat =
        rangeLength found.sizeBytes.toNat off length := by
      rw [← shape]
      unfold rangeLength
      split
      · exact UInt64.toNat_sub_of_le _ _ (UInt64.le_iff_toNat_le.mpr start)
      · rfl
    exact
      ⟨{ segment := rfl, offset := rfl, buf := rfl, unclosed := rfl
         remaining := remaining
         inside := by rw [← remaining, ← sum]; exact stop },
        rfl, unmarked, colon⟩

end

end Namros.Guarantees
