import Mathlib.Data.Set.Lattice
import Mathlib.Order.CompletePartialOrder
import Mathlib.Order.Interval.Set.Disjoint
import Namros.Library.Interleaving
import Namros.Library.Rounding
import Namros.Source.OffsetStore

/-!
# Extents of the volume-offset store

Any number of puts interleave, with restarts of the store in between. Extents are given out in
order and never overlap, and every write stays in the extent of its segment, as long as rounding
the declared size up to whole blocks does not exceed 64 bits. A size that does is given an
extent shorter than itself, down to an empty one, and is streamed all the same.
-/

namespace Namros.Guarantees

open Library Source

/-! ## Runs -/

/-- The store with its puts in flight, the extents given out so far (latest first) and every
`Write` sent. -/
structure OffsetSystem where
  store : OffsetStore := {}
  calls : List (PutSegmentRequest × OffsetPut)
  extents : List OffsetExtent := []
  writes : List OffsetWrite := []

inductive OffsetEvent
  /-- The put at `index` takes its next step. -/
  | serve (index : Nat) (answers : OffsetAnswers)
  /-- The process ends, and with it the puts in flight; the store is opened again. -/
  | restart

/-- The extent a call has just been given. -/
def newExtents : OffsetPut → OffsetPut → List OffsetExtent
  | .start, .streaming extent _ => [extent]
  | _, _ => []

def inFlight : OffsetPut → Bool
  | .streaming _ _ => true
  | _ => false

def OffsetSystem.step (platform : Platform) (config : OffsetConfig) (sys : OffsetSystem) :
    OffsetEvent → OffsetSystem
  | .serve index answers =>
    match sys.calls[index]? with
    | none => sys
    | some (req, call) =>
      let ((store, next), write) := call.serve platform config answers req sys.store
      { store := store
        calls := sys.calls.set index (req, next)
        extents := newExtents call next ++ sys.extents
        writes := write.toList ++ sys.writes }
  | .restart =>
    { sys with
      store := sys.store.reload
      calls := sys.calls.filter fun c => ¬ inFlight c.2 }

/-- The volume bytes of an extent. -/
def extentBytes (extent : OffsetExtent) : Set Nat :=
  Set.Ico extent.offset.toNat (extent.offset.toNat + extent.paddedLength.toNat)

/-- The volume bytes of a write. -/
def writeBytes (write : OffsetWrite) : Set Nat :=
  Set.Ico write.offset.toNat (write.offset.toNat + write.data.length)

/-- Every write is inside the volume and inside its extent, and extents do not overlap. -/
structure ExtentsSound (config : OffsetConfig) (sys : OffsetSystem) : Prop where
  inside : ∀ write ∈ sys.writes, write.extent ∈ sys.extents ∧
    writeBytes write ⊆ extentBytes write.extent ∧ writeBytes write ⊆ Set.Iio config.volumeSize.toNat
  disjoint : sys.extents.Pairwise fun extent extent' =>
    Disjoint (extentBytes extent) (extentBytes extent')

/-- Rounding the size up to whole blocks stays within 64 bits. -/
def Rounds (config : OffsetConfig) (req : PutSegmentRequest) : Prop :=
  req.sizeBytes ≤ alignUp req.sizeBytes config.blockSize

/-! ## Rounding in 64 bits -/

section

variable {value alignment : UInt64}

theorem alignUp_of_dvd (even : alignment.toNat ∣ value.toNat) :
    alignUp value alignment = value := by
  unfold alignUp
  split
  · rfl
  have none : value % alignment = 0 := by
    apply UInt64.toNat_inj.mp
    exact Nat.mod_eq_zero_of_dvd even
  simp [none]

/-- In general, `alignUp` rounds up modulo 2^64. -/
theorem alignUp_toNat (positive : 0 < alignment.toNat) :
    (alignUp value alignment).toNat = roundUp value.toNat alignment.toNat % 2 ^ 64 := by
  by_cases even : alignment.toNat ∣ value.toNat
  · rw [alignUp_of_dvd even, roundUp_of_dvd even, Nat.mod_eq_of_lt value.toNat_lt]
  have odd : value.toNat % alignment.toNat ≠ 0 := fun zero => even (Nat.dvd_of_mod_eq_zero zero)
  have below := Nat.mod_lt value.toNat positive
  have padding : (alignment.toNat - value.toNat % alignment.toNat) % alignment.toNat =
      alignment.toNat - value.toNat % alignment.toNat := Nat.mod_eq_of_lt (by omega)
  have nonzero : ¬ (alignment = 0 ∨ value = 0) := by
    rintro (rfl | rfl)
    · simp at positive
    · simp at odd
  have remainder : ¬ value % alignment = 0 := by
    intro zero
    apply odd
    have := congrArg UInt64.toNat zero
    rwa [UInt64.toNat_mod, UInt64.toNat_zero] at this
  have wide := alignment.toNat_lt
  simp only [alignUp, if_neg nonzero, if_neg remainder, UInt64.toNat_sub, UInt64.toNat_add,
    UInt64.toNat_mod, roundUp, padding]
  omega

theorem alignUp_toNat_of_lt (positive : 0 < alignment.toNat)
    (small : roundUp value.toNat alignment.toNat < 2 ^ 64) :
    (alignUp value alignment).toNat = roundUp value.toNat alignment.toNat := by
  rw [alignUp_toNat positive, Nat.mod_eq_of_lt small]

/-- A result that is not below the value has not wrapped around. -/
theorem roundUp_lt_of_le_alignUp (positive : 0 < alignment.toNat)
    (kept : value ≤ alignUp value alignment) : roundUp value.toNat alignment.toNat < 2 ^ 64 := by
  have kept := UInt64.le_iff_toNat_le.mp kept
  rw [alignUp_toNat positive] at kept
  have short : (alignment.toNat - value.toNat % alignment.toNat) % alignment.toNat < 2 ^ 64 :=
    lt_trans (Nat.mod_lt _ positive) alignment.toNat_lt
  unfold roundUp at kept ⊢
  omega

/-- The payload of a write is a whole number of blocks. -/
theorem dvd_writePayloadChunkSize (blockSize : UInt64) (positive : 0 < blockSize.toNat) :
    blockSize.toNat ∣ (legacySegmentWritePayloadChunkSize blockSize).toNat ∧
      0 < (legacySegmentWritePayloadChunkSize blockSize).toNat := by
  unfold legacySegmentWritePayloadChunkSize
  split
  · next zero => simp [zero] at positive
  split
  · exact ⟨dvd_rfl, positive⟩
  dsimp only
  have size : (legacySegmentReadChunkSize -
      legacySegmentReadChunkSize % blockSize).toNat =
        65536 - 65536 % blockSize.toNat := by
    have below : 65536 % blockSize.toNat ≤ 65536 := Nat.mod_le _ _
    simp only [legacySegmentReadChunkSize, UInt64.toNat_sub, UInt64.toNat_mod, UInt64.toNat_mul]
    simp
    omega
  split
  · exact ⟨dvd_rfl, positive⟩
  · next some =>
    have nonzero : 65536 - 65536 % blockSize.toNat ≠ 0 := by
      rw [← size]
      exact fun zero => some (UInt64.toNat_inj.mp zero)
    rw [size]
    exact ⟨Nat.dvd_sub_mod 65536, Nat.pos_of_ne_zero nonzero⟩

end

/-! ## The stream of a put -/

section

variable {blockSize size : UInt64} {stream next : StreamState}

/-- What is still to be written, in whole blocks, fills the extent. -/
structure Fills (blockSize size : UInt64) (padded : Nat) (stream : StreamState) : Prop where
  read : stream.readPayloadBytes.toNat ≤ size.toNat
  rest : stream.writtenPaddedBytes.toNat +
    roundUp (size.toNat - stream.readPayloadBytes.toNat) blockSize.toNat = padded

/-- How much a round reads and writes. -/
theorem round_lengths {left : UInt64} (positive : 0 < blockSize.toNat)
    (small : roundUp left.toNat blockSize.toNat < 2 ^ 64) :
    let chunkSize := legacySegmentWritePayloadChunkSize blockSize
    let readLength := if chunkSize < left then chunkSize else left
    readLength.toNat ≤ left.toNat ∧ readLength.toNat ≤ (alignUp readLength blockSize).toNat ∧
      (alignUp readLength blockSize).toNat +
          roundUp (left.toNat - readLength.toNat) blockSize.toNat =
        roundUp left.toNat blockSize.toNat := by
  intro chunkSize readLength
  obtain ⟨whole, -⟩ := dvd_writePayloadChunkSize blockSize positive
  by_cases shorter : chunkSize < left
  · have below := UInt64.lt_iff_toNat_lt.mp shorter
    have split : left.toNat = chunkSize.toNat + (left.toNat - chunkSize.toNat) := by omega
    have aligned : alignUp chunkSize blockSize = chunkSize := alignUp_of_dvd whole
    simp only [readLength, if_pos shorter, aligned]
    refine ⟨below.le, le_rfl, ?_⟩
    conv_rhs => rw [split]
    exact (roundUp_add whole).symm
  · simp only [readLength, if_neg shorter, alignUp_toNat_of_lt positive small]
    exact ⟨le_rfl, le_roundUp, by simp [roundUp_of_dvd (dvd_zero _)]⟩

/-- A write stays within what is left of the extent. -/
theorem Fills.write {contextError : Option StorageError} {padded : Nat} {relativeOffset : UInt64}
    {data : List UInt8} (fills : Fills blockSize size padded stream)
    (positive : 0 < blockSize.toNat) (small : padded < 2 ^ 64)
    (ran : streamNext contextError blockSize size stream = .write relativeOffset data next) :
    relativeOffset = stream.writtenPaddedBytes ∧ relativeOffset.toNat + data.length ≤ padded ∧
      Fills blockSize size padded next := by
  obtain ⟨read, rest⟩ := fills
  unfold streamNext at ran
  split at ran
  · cases ran
  split at ran
  · next unread =>
    split at ran
    · cases ran
    have left : (size - stream.readPayloadBytes).toNat =
        size.toNat - stream.readPayloadBytes.toNat :=
      UInt64.toNat_sub_of_le _ _ (UInt64.le_iff_toNat_le.mpr read)
    have room : roundUp (size - stream.readPayloadBytes).toNat blockSize.toNat < 2 ^ 64 := by
      rw [left]
      omega
    obtain ⟨reads, grows, sum⟩ := round_lengths positive room
    dsimp only at ran
    generalize (if _ < size - stream.readPayloadBytes then _ else _) = readLength
      at ran reads grows sum
    generalize alignUp readLength blockSize = writeLength at ran grows sum
    rw [left] at reads sum
    split at ran
    · cases ran
    split at ran
    · cases ran
    · next enough =>
      cases ran
      have length : (stream.reader.take readLength.toNat ++
          List.replicate (writeLength.toNat - readLength.toNat) 0).length =
            writeLength.toNat := by
        simp only [List.length_append, List.length_take, List.length_replicate]
        omega
      have readSum : (stream.readPayloadBytes + readLength).toNat =
          stream.readPayloadBytes.toNat + readLength.toNat := by
        rw [UInt64.toNat_add]
        exact Nat.mod_eq_of_lt (by have := size.toNat_lt; omega)
      have writeSum : (stream.writtenPaddedBytes + writeLength).toNat =
          stream.writtenPaddedBytes.toNat + writeLength.toNat := by
        rw [UInt64.toNat_add]
        exact Nat.mod_eq_of_lt (by omega)
      refine ⟨rfl, by rw [length]; omega, ?_, ?_⟩
      · simp only [readSum]
        omega
      · simp only [readSum, writeSum, Nat.sub_add_eq]
        omega
  · split at ran <;> cases ran

end

/-! ## The layout of the volume -/

variable {extent : OffsetExtent} {store : OffsetStore}

section

variable {platform : Platform} {config : OffsetConfig} {sys : OffsetSystem} {index : Nat}
variable {req : PutSegmentRequest} {call : OffsetPut} {answers : OffsetAnswers}

/-- The end of an extent. -/
def extentEnd (extent : OffsetExtent) : Nat :=
  extent.offset.toNat + extent.paddedLength.toNat

/-- The extent of a put that is streaming was given out, and the stream fills it. -/
def Streams (config : OffsetConfig) (extents : List OffsetExtent) :
    PutSegmentRequest × OffsetPut → Prop
  | (req, .streaming extent stream) => extent ∈ extents ∧
      Fills config.blockSize req.sizeBytes extent.paddedLength.toNat stream
  | _ => True

/-- A write inside an extent that was given out. -/
structure Inside (extents : List OffsetExtent) (write : OffsetWrite) : Prop where
  given : write.extent ∈ extents
  starts : write.extent.offset.toNat ≤ write.offset.toNat
  ends : write.offset.toNat + write.data.length ≤ extentEnd write.extent

/-- Both states of the allocator are past every extent, which lie in order. -/
structure Laid (config : OffsetConfig) (sys : OffsetSystem) : Prop where
  even : config.blockSize.toNat ∣ sys.store.state.nextOffset.toNat
  savedEven : config.blockSize.toNat ∣ sys.store.disk.nextOffset.toNat
  past : ∀ extent ∈ sys.extents, extentEnd extent ≤ sys.store.state.nextOffset.toNat
  savedPast : ∀ extent ∈ sys.extents, extentEnd extent ≤ sys.store.disk.nextOffset.toNat
  ordered : sys.extents.Pairwise fun later earlier => extentEnd earlier ≤ later.offset.toNat
  fits : ∀ extent ∈ sys.extents, extent.paddedLength ≠ 0 →
    extentEnd extent ≤ config.volumeSize.toNat
  rounds : ∀ c ∈ sys.calls, Rounds config c.1
  streams : ∀ c ∈ sys.calls, Streams config sys.extents c
  writes : ∀ write ∈ sys.writes, Inside sys.extents write

theorem Laid.sound (laid : Laid config sys) : ExtentsSound config sys := by
  refine ⟨fun write sent => ?_, laid.ordered.imp fun before => ?_⟩
  · obtain ⟨given, starts, ends⟩ := laid.writes write sent
    have within : writeBytes write ⊆ extentBytes write.extent := Set.Ico_subset_Ico starts ends
    refine ⟨given, within, fun byte member => ?_⟩
    have inExtent := within member
    have nonempty : write.extent.paddedLength ≠ 0 := by
      intro empty
      simp [extentBytes, empty] at inExtent
    exact lt_of_lt_of_le inExtent.2 (laid.fits _ given nonempty)
  · exact (Set.Ico_disjoint_Ico.mpr (le_trans (min_le_right _ _)
      (le_trans before (le_max_left _ _))))

/-- The allocator after an extent of this size. -/
def advanced (config : OffsetConfig) (req : PutSegmentRequest) (state : AdapterState) :
    AdapterState :=
  { state with
    sequence := state.sequence + 1
    nextOffset :=
      alignUp state.nextOffset config.blockSize + alignUp req.sizeBytes config.blockSize }

/-- That extent. -/
def nextExtent (config : OffsetConfig) (req : PutSegmentRequest) (state : AdapterState) :
    OffsetExtent :=
  { offset := alignUp state.nextOffset config.blockSize
    paddedLength := alignUp req.sizeBytes config.blockSize
    sequence := state.sequence + 1 }

/-- The extent is in the volume. -/
def HasSpace (config : OffsetConfig) (extent : OffsetExtent) : Prop :=
  ¬ (extent.paddedLength > 0 ∧ (extent.offset + extent.paddedLength < extent.offset ∨
    extent.offset + extent.paddedLength > config.volumeSize))

/-- What the critical section of a put can do. -/
inductive Allocates (config : OffsetConfig) (req : PutSegmentRequest) (s : OffsetStore) :
    OffsetStore → OffsetPut → Prop
  | refused (e : StorageError) : Allocates config req s s (.returned (.error e))
  | unsaved (e : StorageError) (space : HasSpace config (nextExtent config req s.state)) :
      Allocates config req s { s with state := advanced config req s.state }
        (.returned (.error e))
  | saved (space : HasSpace config (nextExtent config req s.state)) :
      Allocates config req s
        { state := advanced config req s.state, disk := advanced config req s.state }
        (.streaming (nextExtent config req s.state) { reader := req.reader })

theorem allocateExtent_allocates (config : OffsetConfig) (answers : OffsetAnswers)
    (req : PutSegmentRequest) (s : OffsetStore) :
    Allocates config req s (allocateExtent config answers req s).1
      (allocateExtent config answers req s).2 := by
  unfold allocateExtent
  cases answers.contextError with
  | some e => exact .refused e
  | none =>
    dsimp only
    split
    · exact .refused _
    cases answers.fenceError with
    | some e => exact .refused e
    | none =>
      dsimp only
      split
      · exact .refused _
      · next space =>
        cases answers.saveError with
        | some e => exact .unsaved e space
        | none => exact .saved space

/-- An extent with space ends where its offsets say, inside the volume unless it is empty. -/
theorem HasSpace.fits (space : HasSpace config extent) :
    (extent.offset + extent.paddedLength).toNat = extentEnd extent ∧
      (extent.paddedLength ≠ 0 → extentEnd extent ≤ config.volumeSize.toNat) := by
  by_cases empty : extent.paddedLength = 0
  · exact ⟨by simp [extentEnd, empty], fun filled => absurd empty filled⟩
  have positive : extent.paddedLength > 0 := UInt64.pos_iff_ne_zero.mpr empty
  have bounds := not_or.mp fun outside => space ⟨positive, outside⟩
  have ends := toNat_add_of_le (UInt64.not_lt.mp bounds.1)
  refine ⟨ends, fun _ => ?_⟩
  rw [extentEnd, ← ends]
  exact UInt64.le_iff_toNat_le.mp (UInt64.not_lt.mp bounds.2)

section

variable {state : AdapterState}

theorem nextExtent_offset (even : config.blockSize.toNat ∣ state.nextOffset.toNat) :
    (nextExtent config req state).offset = state.nextOffset :=
  alignUp_of_dvd even

theorem nextExtent_padded (positive : 0 < config.blockSize.toNat) (rounds : Rounds config req) :
    (nextExtent config req state).paddedLength.toNat =
      roundUp req.sizeBytes.toNat config.blockSize.toNat :=
  alignUp_toNat_of_lt positive (roundUp_lt_of_le_alignUp positive rounds)

theorem advanced_nextOffset (space : HasSpace config (nextExtent config req state)) :
    (advanced config req state).nextOffset.toNat = extentEnd (nextExtent config req state) :=
  space.fits.1

/-- The allocator stays at a multiple of the block size, and moves forward. -/
theorem advanced_even (positive : 0 < config.blockSize.toNat) (rounds : Rounds config req)
    (even : config.blockSize.toNat ∣ state.nextOffset.toNat)
    (space : HasSpace config (nextExtent config req state)) :
    config.blockSize.toNat ∣ (advanced config req state).nextOffset.toNat ∧
      state.nextOffset.toNat ≤ (advanced config req state).nextOffset.toNat := by
  rw [advanced_nextOffset space, extentEnd, nextExtent_offset even,
    nextExtent_padded positive rounds]
  exact ⟨Nat.dvd_add even (dvd_roundUp positive), Nat.le_add_right _ _⟩

end

theorem Streams.mono {extents more : List OffsetExtent} {c : PutSegmentRequest × OffsetPut}
    (streams : Streams config extents c) (kept : extents ⊆ more) : Streams config more c := by
  obtain ⟨req, _ | ⟨extent, stream⟩ | answer⟩ := c
  · trivial
  · exact ⟨kept streams.1, streams.2⟩
  · trivial

theorem Inside.mono {extents more : List OffsetExtent} {write : OffsetWrite}
    (inside : Inside extents write) (kept : extents ⊆ more) : Inside more write :=
  ⟨kept inside.given, inside.starts, inside.ends⟩

/-! ### A step -/

/-- A step that gives out no extent leaves the allocator at one of its two former offsets. -/
theorem Laid.keep (laid : Laid config sys) {calls : List (PutSegmentRequest × OffsetPut)}
    {writes : List OffsetWrite} (state : store.state.nextOffset = sys.store.state.nextOffset ∨
      store.state.nextOffset = sys.store.disk.nextOffset)
    (disk : store.disk.nextOffset = sys.store.state.nextOffset ∨
      store.disk.nextOffset = sys.store.disk.nextOffset) (rounds : ∀ c ∈ calls, Rounds config c.1)
    (streams : ∀ c ∈ calls, Streams config sys.extents c)
    (inside : ∀ write ∈ writes, Inside sys.extents write) :
    Laid config { store := store, calls := calls, extents := sys.extents, writes := writes } := by
  have either {offset : UInt64} (known : offset = sys.store.state.nextOffset ∨
      offset = sys.store.disk.nextOffset) :
      config.blockSize.toNat ∣ offset.toNat ∧
        ∀ extent ∈ sys.extents, extentEnd extent ≤ offset.toNat := by
    rcases known with rfl | rfl
    · exact ⟨laid.even, laid.past⟩
    · exact ⟨laid.savedEven, laid.savedPast⟩
  exact
    { even := (either state).1
      savedEven := (either disk).1
      past := (either state).2
      savedPast := (either disk).2
      ordered := laid.ordered
      fits := laid.fits
      rounds := rounds
      streams := streams
      writes := inside }

/-- Recording an orphan does not move the allocator. -/
theorem recordLegacyOrphan_offsets (answers : OffsetAnswers) (ref : SegmentRef)
    (reason : DeleteReason) (s : OffsetStore) :
    let t := (s.recordLegacyOrphan answers ref reason).2
    t.state.nextOffset = s.state.nextOffset ∧
      (t.disk.nextOffset = s.state.nextOffset ∨ t.disk.nextOffset = s.disk.nextOffset) := by
  unfold OffsetStore.recordLegacyOrphan
  split
  · exact ⟨rfl, .inr rfl⟩
  · cases answers.saveError with
    | some e => exact ⟨rfl, .inr rfl⟩
    | none => exact ⟨rfl, .inl rfl⟩

theorem failedPut_offsets {digested : List UInt8} {e : StorageError} {s t : OffsetStore}
    {next : OffsetPut}
    (failed : failedPut platform config answers req extent digested e s = (t, next)) :
    (∃ answer, next = .returned answer) ∧ t.state.nextOffset = s.state.nextOffset ∧
      (t.disk.nextOffset = s.state.nextOffset ∨ t.disk.nextOffset = s.disk.nextOffset) := by
  have offsets := recordLegacyOrphan_offsets answers
    (offsetSegmentRef config req.storageClass extent req.sizeBytes
      (platform.sha256Hex digested) answers.now) .publishFailed s
  unfold failedPut at failed
  dsimp only at failed
  split at failed
  · next recorded =>
    rw [recorded] at offsets
    cases failed
    exact ⟨⟨_, rfl⟩, offsets⟩
  · next recorded =>
    rw [recorded] at offsets
    cases failed
    exact ⟨⟨_, rfl⟩, offsets⟩

/-- The start of a put. -/
theorem Laid.allocate (laid : Laid config sys) (positive : 0 < config.blockSize.toNat)
    (rounds : Rounds config req) {next : OffsetPut}
    (allocates : Allocates config req sys.store store next) :
    Laid config
      { store := store
        calls := sys.calls.set index (req, next)
        extents := newExtents .start next ++ sys.extents
        writes := sys.writes } := by
  have allRound := forall_mem_set (i := index) (b := (req, next))
    (P := fun c : PutSegmentRequest × OffsetPut => Rounds config c.1) laid.rounds rounds
  cases allocates with
  | refused e =>
    exact laid.keep (.inl rfl) (.inr rfl) allRound (forall_mem_set laid.streams trivial) laid.writes
  | unsaved e space =>
    obtain ⟨even, grows⟩ := advanced_even positive rounds laid.even space
    exact
      { even := even
        savedEven := laid.savedEven
        past := fun extent given => le_trans (laid.past extent given) grows
        savedPast := laid.savedPast
        ordered := laid.ordered
        fits := laid.fits
        rounds := allRound
        streams := forall_mem_set laid.streams trivial
        writes := laid.writes }
  | saved space =>
    obtain ⟨even, grows⟩ := advanced_even positive rounds laid.even space
    have start : (nextExtent config req sys.store.state).offset = sys.store.state.nextOffset :=
      nextExtent_offset laid.even
    have padded : (nextExtent config req sys.store.state).paddedLength.toNat =
        roundUp req.sizeBytes.toNat config.blockSize.toNat := nextExtent_padded positive rounds
    have past : ∀ extent ∈ nextExtent config req sys.store.state :: sys.extents,
        extentEnd extent ≤ (advanced config req sys.store.state).nextOffset.toNat := by
      intro extent given
      rcases List.mem_cons.mp given with rfl | given
      · exact (advanced_nextOffset space).ge
      · exact le_trans (laid.past extent given) grows
    have fills : Fills config.blockSize req.sizeBytes
        (nextExtent config req sys.store.state).paddedLength.toNat { reader := req.reader } :=
      ⟨Nat.zero_le _, by rw [padded]; simp⟩
    exact
      { even := even
        savedEven := even
        past := past
        savedPast := past
        ordered := by
          refine List.Pairwise.cons (fun extent given => ?_) laid.ordered
          rw [start]
          exact laid.past extent given
        fits := by
          intro extent given
          rcases List.mem_cons.mp given with rfl | given
          · exact space.fits.2
          · exact laid.fits extent given
        rounds := allRound
        streams := forall_mem_set
          (fun c member => (laid.streams c member).mono (List.subset_cons_self _ _))
          ⟨List.mem_cons_self, fills⟩
        writes := fun write sent =>
          (laid.writes write sent).mono (List.subset_cons_self _ _) }

/-- A put whose extent was given out goes on or ends, with the write it sends. -/
theorem Laid.proceed (laid : Laid config sys) (rounds : Rounds config req) {next : OffsetPut}
    {write : Option OffsetWrite} (state : store.state.nextOffset = sys.store.state.nextOffset)
    (disk : store.disk.nextOffset = sys.store.state.nextOffset ∨
      store.disk.nextOffset = sys.store.disk.nextOffset)
    (streams : Streams config sys.extents (req, next))
    (inside : ∀ w ∈ write, Inside sys.extents w) :
    Laid config
      { store := store, calls := sys.calls.set index (req, next), extents := sys.extents
        writes := write.toList ++ sys.writes } := by
  refine laid.keep (.inl state) disk
    (forall_mem_set (P := fun c : PutSegmentRequest × OffsetPut => Rounds config c.1) laid.rounds rounds)
    (forall_mem_set laid.streams streams) fun w sent => ?_
  rcases List.mem_append.mp sent with new | old
  · exact inside w (Option.mem_toList.mp new)
  · exact laid.writes w old

/-- A write of the stream is inside its extent. -/
theorem Laid.inside (laid : Laid config sys) (positive : 0 < config.blockSize.toNat)
    {stream next : StreamState} {relativeOffset : UInt64} {data : List UInt8}
    (streams : Streams config sys.extents (req, .streaming extent stream))
    (ran : streamNext answers.contextError config.blockSize req.sizeBytes stream =
      .write relativeOffset data next) :
    Inside sys.extents
        { extent := extent, offset := extent.offset + relativeOffset, data := data } ∧
      Streams config sys.extents (req, .streaming extent next) := by
  obtain ⟨given, fills⟩ := streams
  obtain ⟨-, short, fills⟩ := fills.write positive extent.paddedLength.toNat_lt ran
  have past := laid.past extent given
  have bound := sys.store.state.nextOffset.toNat_lt
  have offset : (extent.offset + relativeOffset).toNat =
      extent.offset.toNat + relativeOffset.toNat := by
    rw [UInt64.toNat_add]
    unfold extentEnd at past
    exact Nat.mod_eq_of_lt (by omega)
  exact
    ⟨{ given := given
       starts := by simp only [offset]; omega
       ends := by simp only [offset, extentEnd]; omega },
      given, fills⟩

theorem Laid.serve (laid : Laid config sys) (positive : 0 < config.blockSize.toNat)
    (found : sys.calls[index]? = some (req, call)) {next : OffsetPut} {write : Option OffsetWrite}
    (served : call.serve platform config answers req sys.store = ((store, next), write)) :
    Laid config
      { store := store
        calls := sys.calls.set index (req, next)
        extents := newExtents call next ++ sys.extents
        writes := write.toList ++ sys.writes } := by
  have member := List.mem_of_getElem? found
  have rounds := laid.rounds _ member
  have streams := laid.streams _ member
  cases call with
  | start =>
    obtain ⟨allocated, rfl⟩ := Prod.mk.inj served
    have allocates := allocateExtent_allocates config answers req sys.store
    rw [allocated] at allocates
    exact laid.allocate positive rounds allocates
  | returned answer =>
    cases served
    exact laid.proceed rounds rfl (.inr rfl) trivial (by simp)
  | streaming extent stream =>
    simp only [OffsetPut.serve] at served
    split at served
    · next e ran =>
      obtain ⟨failed, rfl⟩ := Prod.mk.inj served
      obtain ⟨⟨answer, rfl⟩, state, disk⟩ := failedPut_offsets failed
      exact laid.proceed rounds state disk trivial (by simp)
    · cases served
      exact laid.proceed rounds rfl (.inr rfl) trivial (by simp)
    · next relativeOffset data later ran =>
      obtain ⟨inside, streams⟩ := laid.inside positive streams ran
      split at served
      · obtain ⟨failed, rfl⟩ := Prod.mk.inj served
        obtain ⟨⟨answer, rfl⟩, state, disk⟩ := failedPut_offsets failed
        exact laid.proceed rounds state disk trivial (by simpa using inside)
      · cases served
        exact laid.proceed rounds rfl (.inr rfl) streams (by simpa using inside)

theorem Laid.step (laid : Laid config sys) (positive : 0 < config.blockSize.toNat)
    (event : OffsetEvent) : Laid config (sys.step platform config event) := by
  cases event with
  | serve index answers =>
    simp only [OffsetSystem.step]
    split
    · exact laid
    · next req call found => exact laid.serve positive found rfl
  | restart =>
    exact laid.keep (.inr rfl) (.inr rfl)
      (fun c member => laid.rounds c (List.mem_of_mem_filter member))
      (fun c member => laid.streams c (List.mem_of_mem_filter member)) laid.writes

theorem Laid.fresh {requests : List PutSegmentRequest}
    (rounds : ∀ req ∈ requests, Rounds config req) :
    Laid config { calls := requests.map (·, .start) } where
  even := dvd_zero _
  savedEven := dvd_zero _
  past := by simp
  savedPast := by simp
  ordered := .nil
  fits := by simp
  rounds := by simpa using rounds
  streams := by simp [Streams]
  writes := by simp

end

/-! ## Any interleaving of puts -/

/-- The store is opened fresh with any puts to serve: over any interleaving of them and of
restarts, writes stay in their extents and extents apart. -/
theorem extents_sound {platform : Platform} {config : OffsetConfig}
    {requests : List PutSegmentRequest} {events : List OffsetEvent}
    (positive : 0 < config.blockSize) (rounds : ∀ req ∈ requests, Rounds config req) :
    ExtentsSound config
      (events.foldl (OffsetSystem.step platform config) { calls := requests.map (·, .start) }) := by
  have run : Laid config
      (events.foldl (OffsetSystem.step platform config) { calls := requests.map (·, .start) }) :=
    List.foldlRecOn events _ (Laid.fresh rounds) fun _ laid event _ => laid.step positive event
  exact run.sound

def offsetPut (sizeBytes : UInt64) (reader : List UInt8) : PutSegmentRequest :=
  { reader := reader, sizeBytes := sizeBytes, storageClass := { storageClassID := "hot" } }

def offsetVolume (blockSize volumeSize : UInt64) : OffsetConfig :=
  { volumeID := "v", blockSize := blockSize, volumeSize := volumeSize }

/-- A put that ends too short, another beside it, and a third after a restart. -/
def offsetPuts : List PutSegmentRequest :=
  [offsetPut 3 [1, 2, 3], offsetPut 6 [4, 5], offsetPut 5 [6, 7, 8, 9, 10]]

def offsetRun : List OffsetEvent :=
  [.serve 1 {}, .serve 0 {}, .serve 1 {}, .serve 0 {}, .serve 0 {}, .restart, .serve 2 {},
    .serve 2 {}]

theorem puts_and_restart_stay_apart :
    (∀ req ∈ offsetPuts, Rounds (offsetVolume 4 64) req) ∧
      ExtentsSound (offsetVolume 4 64)
        (offsetRun.foldl (OffsetSystem.step plainPlatform (offsetVolume 4 64))
          { calls := offsetPuts.map (·, .start) }) := by
  have rounds : ∀ req ∈ offsetPuts, Rounds (offsetVolume 4 64) req := by
    unfold Rounds
    decide
  exact ⟨rounds, extents_sound (by decide) rounds⟩

/-- The first write of a segment of 2^64 - 1 bytes: its extent is empty. -/
theorem first_write_of_oversized {reader : List UInt8} (enough : 65536 ≤ reader.length) :
    ([.serve 0 {}, .serve 0 {}].foldl
      (OffsetSystem.step plainPlatform (offsetVolume 4096 65536))
      { calls := [(offsetPut 18446744073709551615 reader, .start)] }).writes =
        [{ extent := { offset := 0, paddedLength := 0, sequence := 1 }, offset := 0
           data := reader.take 65536 }] := by
  have short : ¬ reader.length < 65536 := by omega
  have next : streamNext none 4096 18446744073709551615 { reader := reader } =
      .write 0 (reader.take 65536)
        { reader := reader.drop 65536, digested := reader.take 65536
          readPayloadBytes := 65536, writtenPaddedBytes := 65536 } := by
    have chunkSize : legacySegmentWritePayloadChunkSize 4096 = 65536 := by decide
    have aligned : alignUp 65536 4096 = 65536 := by decide
    simp [streamNext, chunkSize, aligned, short]
  let req := offsetPut 18446744073709551615 reader
  let extent : OffsetExtent := { offset := 0, paddedLength := 0, sequence := 1 }
  have allocated : OffsetSystem.step plainPlatform (offsetVolume 4096 65536)
      { calls := [(req, .start)] } (.serve 0 {}) =
        { store := { state := { sequence := 1 }, disk := { sequence := 1 } }
          calls := [(req, .streaming extent { reader := reader })]
          extents := [extent] } := by
    have padded : alignUp 18446744073709551615 4096 = 0 := by decide
    have offset : alignUp 0 4096 = 0 := by decide
    simp [OffsetSystem.step, OffsetPut.serve, allocateExtent, OffsetStore.saveState, newExtents,
      req, offsetPut, offsetVolume, extent, padded, offset]
  rw [List.foldl_cons, List.foldl_cons, List.foldl_nil, allocated]
  simp [OffsetSystem.step, OffsetPut.serve, req, offsetPut, offsetVolume, extent, next]

theorem oversized_outside_extent {reader : List UInt8} (enough : 65536 ≤ reader.length) :
    ¬ ExtentsSound (offsetVolume 4096 65536)
      ([.serve 0 {}, .serve 0 {}].foldl
        (OffsetSystem.step plainPlatform (offsetVolume 4096 65536))
        { calls := [(offsetPut 18446744073709551615 reader, .start)] }) := by
  intro sound
  have inside := sound.inside
  rw [first_write_of_oversized enough] at inside
  have within := (inside _ (List.mem_singleton_self _)).2.1
  have some : 0 < (reader.take 65536).length := by
    rw [List.length_take]
    omega
  have first : 0 ∈ extentBytes { offset := 0, paddedLength := 0, sequence := 1 } :=
    within (by simpa [writeBytes] using some)
  simp [extentBytes] at first

theorem oversized_segment_written_outside :
    ¬ ExtentsSound (offsetVolume 4096 65536)
      ([.serve 0 {}, .serve 0 {}].foldl
        (OffsetSystem.step plainPlatform (offsetVolume 4096 65536))
        { calls := [(offsetPut 18446744073709551615 (List.replicate 65536 0), .start)] }) :=
  oversized_outside_extent List.length_replicate.ge

end Namros.Guarantees
