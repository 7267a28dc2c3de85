import Namros.Guarantees.ChunkSystem

/-!
# What the runs of the physical-chunk store keep

The chunks of different puts are apart, the cache shows the volume's content, a returned segment
holds its payload until it is deleted, and a reader stands where it should. A put keeps this
from its start to its end.
-/

namespace Namros.Guarantees

open Library Source

variable {config : PhysicalConfig} {platform : Platform} {readChunk : ReadChunk}
  {sys : PhysicalSystem} {s t : PhysicalStore} {live : Prop} {req : PutSegmentRequest}
  {ref : SegmentRef} {addr : PhysicalSegmentAddress} {c : PutSegmentRequest × PhysicalPut}

/-- The chunk ids of a put that is writing or has returned a reference. -/
def chunksOf : PhysicalPut → List UInt64
  | .writing p => chunkIDs p.addr
  | .returned (.ok ref) => ref.placement.chunks.map (·.chunkID)
  | _ => []

/-- A put that has returned a reference, to a segment that holds its payload while it is live. -/
structure Returned (config : PhysicalConfig) (s : PhysicalStore) (live : Prop)
    (req : PutSegmentRequest) (ref : SegmentRef) (addr : PhysicalSegmentAddress) : Prop where
  placed : addr = putAddress config req addr.startChunkID
  made : ∃ digestHex now, ref = physicalSegmentRef config req.storageClass addr digestHex now
  size : req.reader.length = req.sizeBytes.toNat
  covers : ∀ o < addr.sizeBytes.toNat, o / config.chunkSize.toNat < addr.chunkCount.toNat
  unset : req.sizeBytes = 0 → addr.startChunkID = 0
  holds : live → Holds config s addr req.reader

def CallSound (config : PhysicalConfig) (s : PhysicalStore) (live : Prop) :
    PutSegmentRequest × PhysicalPut → Prop
  | (req, .writing p) => Writing config req s p
  | (req, .returned (.ok ref)) => ∃ addr, Returned config s live req ref addr
  | _ => True

/-- A reader stands where it should in the payload. -/
structure ReaderSound (req : PutSegmentRequest) (ref : SegmentRef) (o : OpenedReader)
    (r : PhysicalReader) : Prop where
  decoded : decodePhysicalSegmentID ref.segmentID = .ok r.addr
  inside : o.off.toNat + rangeLength req.sizeBytes.toNat o.off o.length ≤ req.sizeBytes.toNat
  positioned : Positioned req.reader o.off.toNat
    (o.off.toNat + rangeLength req.sizeBytes.toNat o.off o.length) o.delivered r
  progress : o.reads ≤ o.delivered.length
  ended : o.ended = none ∨ o.ended = some (.ok ()) ∧ o.delivered =
    (req.reader.drop o.off.toNat).take (rangeLength req.sizeBytes.toNat o.off o.length)

structure Sound (config : PhysicalConfig) (sys : PhysicalSystem) : Prop where
  sizes : ∀ c ∈ sys.calls, Unwrapped config c.1.sizeBytes.toNat
  coherent : Coherent config sys.store
  cached : ∀ entry ∈ sys.store.cache.entries, entry.chunkID ∈ sys.allocated
  owned : ∀ c ∈ sys.calls, ∀ id ∈ chunksOf c.2, id ∈ sys.allocated
  apart : ∀ {i j : Nat} {c c' : PutSegmentRequest × PhysicalPut},
    sys.calls[i]? = some c → sys.calls[j]? = some c' → i ≠ j →
      ∀ id ∈ chunksOf c.2, id ∉ chunksOf c'.2
  calls : ∀ {i : Nat} {c : PutSegmentRequest × PhysicalPut},
    sys.calls[i]? = some c → CallSound config sys.store (i ∉ sys.removed) c
  marks : ∀ id ∈ sys.store.deleted, ∃ i ∈ sys.marked, ∃ req ref,
    sys.calls[i]? = some (req, .returned (.ok ref)) ∧ ref.segmentID = id
  readers : ∀ o ∈ sys.readers, ∃ req ref,
    sys.calls[o.source]? = some (req, .returned (.ok ref)) ∧
      ∀ r, o.reader = .ok r → ReaderSound req ref o r

theorem Returned.chunksOf (returned : Returned config s live req ref addr) :
    chunksOf (.returned (.ok ref)) = chunkIDs addr := by
  obtain ⟨digestHex, now, rfl⟩ := returned.made
  simp [Guarantees.chunksOf, physicalSegmentRef, physicalPlacementChunks, chunkIDs]

theorem Returned.segmentID (returned : Returned config s live req ref addr) :
    ref.segmentID = encodePhysicalSegmentID addr := by
  obtain ⟨digestHex, now, rfl⟩ := returned.made
  rfl

theorem Returned.volumeID (returned : Returned config s live req ref addr) :
    addr.volumeID = config.volumeID := by
  rw [returned.placed]
  rfl

theorem Returned.sizeBytes (returned : Returned config s live req ref addr) :
    addr.sizeBytes = req.sizeBytes := by
  rw [returned.placed]
  rfl

/-- Segments with different chunks have different ids, unless both are empty. -/
theorem Returned.segmentID_ne {live' : Prop} {req' : PutSegmentRequest} {ref' : SegmentRef}
    {addr' : PhysicalSegmentAddress} (first : Returned config s live req ref addr)
    (second : Returned config s live' req' ref' addr') (colon : ':' ∉ config.volumeID.toList)
    (apart : ∀ id ∈ chunkIDs addr, id ∉ chunkIDs addr')
    (nonempty : ¬ (req.sizeBytes = 0 ∧ req'.sizeBytes = 0)) : ref'.segmentID ≠ ref.segmentID := by
  intro same
  rw [first.segmentID, second.segmentID] at same
  have decoded := decodePhysicalSegmentID_encode (first.volumeID ▸ colon)
  rw [← same, decodePhysicalSegmentID_encode (second.volumeID ▸ colon)] at decoded
  cases decoded
  -- the first chunk would be in both
  have sizes : req.sizeBytes = req'.sizeBytes := first.sizeBytes.symm.trans second.sizeBytes
  have some : req.sizeBytes ≠ 0 := fun empty => nonempty ⟨empty, sizes ▸ empty⟩
  have positive := UInt64.lt_iff_toNat_lt.mp (UInt64.pos_iff_ne_zero.mpr some)
  rw [← first.sizeBytes] at positive
  have inside := first.covers 0 positive
  exact apart _ (mem_chunkIDs inside) (mem_chunkIDs inside)

theorem Holds.frame {payload : List UInt8} {own : List UInt64} (holds : Holds config s addr payload)
    (touches : Touches own s t) (apart : ∀ id ∈ chunkIDs addr, id ∉ own) :
    Holds config t addr payload :=
  ⟨holds.size, holds.covers, fun i less =>
    (touches.volume _ (apart _ (mem_chunkIDs less))).trans (holds.chunks i less)⟩

/-- A put is not affected by a step about other chunks. -/
theorem CallSound.frame {own : List UInt64} (sound : CallSound config s live c)
    (touches : Touches own s t) (apart : ∀ id ∈ chunksOf c.2, id ∉ own) :
    CallSound config t live c := by
  obtain ⟨req, _ | p | (e | ref)⟩ := c
  · trivial
  · exact Writing.frame sound touches apart
  · trivial
  obtain ⟨addr, returned⟩ := sound
  refine ⟨addr, { returned with holds := fun alive => (returned.holds alive).frame touches ?_ }⟩
  rw [← returned.chunksOf]
  exact apart

theorem CallSound.mono {live' : Prop} (sound : CallSound config s live c) (less : live' → live) :
    CallSound config s live' c := by
  obtain ⟨req, _ | p | (e | ref)⟩ := c
  · trivial
  · exact sound
  · trivial
  · obtain ⟨addr, returned⟩ := sound
    exact ⟨addr, { returned with holds := fun alive => returned.holds (less alive) }⟩

/-! ## Puts -/

section

variable {index : Nat} {req : PutSegmentRequest} {call next : PhysicalPut}

/-- A put that has not returned a reference takes a step about its own chunks, the new ones
included. -/
theorem Sound.advance (sound : Sound config sys) (found : sys.calls[index]? = some (req, call))
    (unreturned : ∀ ref, call ≠ .returned (.ok ref)) (added : List UInt64)
    (fresh : ∀ id ∈ added, id ∉ sys.allocated)
    (chunks : ∀ id ∈ chunksOf next, id ∈ chunksOf call ∨ id ∈ added)
    (touches : Touches (chunksOf call) sys.store t) (coherent : Coherent config t)
    (deleted : t.deleted = sys.store.deleted)
    (here : CallSound config t (index ∉ sys.removed) (req, next)) :
    Sound config
      { sys with
        store := t
        calls := sys.calls.set index (req, next)
        allocated := added ++ sys.allocated } := by
  have mine := sound.owned _ (List.mem_of_getElem? found)
  have known {id : UInt64} (old : id ∈ sys.allocated) : id ∈ added ++ sys.allocated :=
    List.mem_append_right _ old
  have new {id : UInt64} (member : id ∈ chunksOf next) : id ∈ added ++ sys.allocated := by
    rcases chunks id member with old | fresh
    · exact known (mine id old)
    · exact List.mem_append_left _ fresh
  -- no chunk of the put is one of another's
  have alone {j : Nat} {c : PutSegmentRequest × PhysicalPut} (at_ : sys.calls[j]? = some c)
      (other : j ≠ index) (id : UInt64) (member : id ∈ chunksOf c.2) : id ∉ chunksOf next := by
    intro own
    rcases chunks id own with old | new
    · exact sound.apart at_ found other id member old
    · exact fresh id new (sound.owned c (List.mem_of_getElem? at_) id member)
  have stays {i : Nat} {req' : PutSegmentRequest} {ref : SegmentRef}
      (at_ : sys.calls[i]? = some (req', .returned (.ok ref))) :
      (sys.calls.set index (req, next))[i]? = some (req', .returned (.ok ref)) := by
    have other : index ≠ i := by
      rintro rfl
      rw [found] at at_
      exact unreturned ref (congrArg Prod.snd (Option.some.inj at_))
    exact (List.getElem?_set_ne other).trans at_
  exact
    { sizes := forall_mem_set (P := fun c : PutSegmentRequest × PhysicalPut =>
        Unwrapped config c.1.sizeBytes.toNat) sound.sizes
          (sound.sizes (req, call) (List.mem_of_getElem? found))
      coherent := coherent
      cached := by
        intro entry member
        rcases touches.cache entry member with old | own
        · exact known (sound.cached entry old)
        · exact known (mine _ own)
      owned := by
        apply forall_mem_set
        · exact fun c member id own => known (sound.owned c member id own)
        · exact fun id own => new own
      apart := by
        intro i j c c' first second other id member
        rcases getElem?_set_cases first with ⟨rfl, rfl⟩ | ⟨apart, at_⟩
        · rcases getElem?_set_cases second with ⟨rfl, -⟩ | ⟨apart', at_'⟩
          · exact absurd rfl other
          · exact fun own => alone at_' apart' id own member
        · rcases getElem?_set_cases second with ⟨rfl, rfl⟩ | ⟨apart', at_'⟩
          · exact alone at_ apart id member
          · exact sound.apart at_ at_' other id member
      calls := by
        intro j c at_
        rcases getElem?_set_cases at_ with ⟨rfl, rfl⟩ | ⟨other, at_⟩
        · exact here
        · exact (sound.calls at_).frame touches fun id member =>
            sound.apart at_ found other id member
      marks := by
        intro id marked
        obtain ⟨i, member, req', ref, at_, same⟩ := sound.marks id (deleted ▸ marked)
        exact ⟨i, member, req', ref, stays at_, same⟩
      readers := by
        intro o member
        obtain ⟨req', ref, at_, stands⟩ := sound.readers o member
        exact ⟨req', ref, stays at_, stands⟩ }

/-- How a put begins. -/
inductive PutBegins (config : PhysicalConfig) (req : PutSegmentRequest) : PhysicalPut → Prop
  | refused (e : StorageError) : PutBegins config req (.returned (.error e))
  | empty (digestHex : String) (now : Time) (size : req.sizeBytes = 0) (nothing : req.reader = []) :
      PutBegins config req (.returned (.ok
        (physicalSegmentRef config req.storageClass { volumeID := config.volumeID } digestHex now)))
  | allocated (startChunkID : UInt64)
      (counted : physicalChunkCount req.sizeBytes config.chunkSize ≠ 0) :
      PutBegins config req
        (.writing { addr := putAddress config req startChunkID, reader := req.reader })

theorem beginPut_begins (config : PhysicalConfig) (platform : Platform) (answers : PutAnswers)
    (req : PutSegmentRequest) : PutBegins config req (config.beginPut platform answers req) := by
  unfold PhysicalConfig.beginPut
  cases answers.contextError with
  | some e => exact .refused _
  | none =>
    dsimp only
    split
    · exact .refused _
    cases answers.fenceError with
    | some e => exact .refused _
    | none =>
      dsimp only
      split
      · next size =>
        unfold ensureEmptyReader
        split
        · exact .refused _
        · next nothing => exact .empty _ _ size (Classical.not_not.mp nothing)
      · split
        · exact .refused _
        · next counted =>
          cases answers.allocated with
          | error e => exact .refused _
          | ok startChunkID => exact .allocated startChunkID counted

/-- The start of a put. -/
theorem Sound.begin (sound : Sound config sys) (found : sys.calls[index]? = some (req, .start))
    (begins : PutBegins config req next)
    (fresh : ∀ id ∈ newChunks .start next, id ∉ sys.allocated) :
    Sound config
      { sys with
        calls := sys.calls.set index (req, next)
        allocated := newChunks .start next ++ sys.allocated } := by
  refine sound.advance found (fun ref => by simp) _ fresh ?_ (t := sys.store) .refl
    sound.coherent rfl ?_
  · intro id member
    cases begins with
    | refused e => cases member
    | empty digestHex now size nothing => cases member
    | allocated startChunkID counted => exact .inr member
  · cases begins with
    | refused e => trivial
    | empty digestHex now size nothing =>
      refine ⟨_, ?_, ⟨digestHex, now, rfl⟩, by simp [size, nothing], by simp, fun _ => rfl,
        fun _ => ?_⟩
      · simp [putAddress, size, physicalChunkCount]
      · exact ⟨by simp [nothing], by simp, by simp⟩
    | allocated startChunkID counted =>
      exact
        { addr := rfl
          counted := counted
          next := Nat.zero_le _
          split := rfl
          digested := by simp
          writes := by simp
          distinct := by simp
          written := by simp
          unread := by
            intro i _ less entry member same
            exact fresh _ (mem_chunkIDs less) (same ▸ sound.cached entry member) }

/-- A step of a put in progress. -/
theorem Sound.progress (sound : Sound config sys) {p p' : PutProgress}
    (found : sys.calls[index]? = some (req, .writing p))
    (step : PutStep config req sys.store p p' t) :
    Sound config { sys with store := t, calls := sys.calls.set index (req, .writing p') } := by
  refine sound.advance found (fun ref => by simp) [] (by simp) ?_ step.touches step.coherent
    step.deleted step.writing
  intro id member
  rw [chunksOf, step.addr] at member
  exact .inl member

/-- The end of a put. -/
theorem Sound.finish (sound : Sound config sys) {p : PutProgress}
    (found : sys.calls[index]? = some (req, .writing p))
    (ends : PutEnds config req sys.store p next t) :
    Sound config { sys with store := t, calls := sys.calls.set index (req, next) } := by
  have writing : Writing config req sys.store p := sound.calls found
  cases ends with
  | waits =>
    exact sound.advance found (fun ref => by simp) [] (by simp) (fun _ => .inl) .refl
      sound.coherent rfl writing
  | fails e effect =>
    exact sound.advance found (fun ref => by simp) [] (by simp)
      (fun id member => by cases member) effect.touches effect.coherent effect.deleted trivial
  | returns digestHex now holds effect =>
    have size : p.addr.sizeBytes = req.sizeBytes := by rw [writing.addr]; rfl
    have counted : physicalChunkCount req.sizeBytes config.chunkSize ≠ 0 := by
      have := writing.counted
      rw [writing.addr] at this
      exact this
    have nonempty : req.sizeBytes ≠ 0 := fun empty => counted (by simp [physicalChunkCount, empty])
    have returned : Returned config t (index ∉ sys.removed) req
        (physicalSegmentRef config req.storageClass p.addr digestHex now) p.addr :=
      ⟨writing.addr, ⟨digestHex, now, rfl⟩, size ▸ holds.size, holds.covers,
        fun empty => absurd empty nonempty, fun _ => holds⟩
    refine sound.advance found (fun ref => by simp) [] (by simp) ?_ effect.touches
      effect.coherent effect.deleted ⟨p.addr, returned⟩
    intro id member
    rw [returned.chunksOf] at member
    exact .inl member

theorem putRound_addr (config : PhysicalConfig) (p : PutProgress) :
    (config.putRound p).addr = p.addr := by
  unfold PhysicalConfig.putRound
  dsimp only
  repeat' split
  all_goals rfl

theorem Sound.serve (sound : Sound config sys) (positive : 0 < config.chunkSize.toNat)
    (faithful : Faithful readChunk)
    (found : sys.calls[index]? = some (req, call)) {action : PutAction}
    (served : call.serve config platform readChunk req sys.store action = (next, t))
    (fresh : ∀ id ∈ newChunks call next, id ∉ sys.allocated) :
    Sound config
      { sys with
        store := t
        calls := sys.calls.set index (req, next)
        allocated := newChunks call next ++ sys.allocated } := by
  have idle (nothing : next = call) (same : t = sys.store) (none : newChunks call next = []) :
      Sound config
        { sys with
          store := t
          calls := sys.calls.set index (req, next)
          allocated := newChunks call next ++ sys.allocated } := by
    obtain ⟨inside, here⟩ := List.getElem?_eq_some_iff.mp found
    rw [none, nothing, same, ← here, List.set_getElem_self]
    exact sound
  cases call with
  | returned answer =>
    have same : (PhysicalPut.returned answer, sys.store) = (next, t) := by
      cases action <;> exact served
    cases same
    exact idle rfl rfl rfl
  | start =>
    cases action with
    | start answers =>
      cases served
      exact sound.begin found (beginPut_begins config platform answers req) fresh
    | round => cases served; exact idle rfl rfl rfl
    | write i answer => cases served; exact idle rfl rfl rfl
    | cache i => cases served; exact idle rfl rfl rfl
    | finish contextError now => cases served; exact idle rfl rfl rfl
  | writing p =>
    have writing : Writing config req sys.store p := sound.calls found
    cases action with
    | start answers => cases served; exact idle rfl rfl rfl
    | round =>
      cases served
      exact sound.progress found ⟨writing.round positive, sound.coherent,
        putRound_addr config p, .refl, rfl⟩
    | write i answer =>
      cases served
      exact sound.progress found (writing.writeChunk sound.coherent rfl)
    | cache i =>
      cases served
      exact sound.progress found (writing.cacheWritten sound.coherent rfl)
    | finish contextError now =>
      have unwrapped := sound.sizes _ (List.mem_of_getElem? found)
      have ends := writing.finishPut sound.coherent positive unwrapped faithful served
      cases next <;> exact sound.finish found ends

end

end Namros.Guarantees
