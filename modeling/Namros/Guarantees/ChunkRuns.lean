import Namros.Guarantees.ChunkInvariant

/-!
# Readers, deletions and restarts of the physical-chunk store

The other steps keep the invariant too, and with them every run. A segment is marked as deleted
only by its own deletion, or, as all empty segments have one id, by that of another empty one.
-/

namespace Namros.Guarantees

open Library Source

variable {config : PhysicalConfig} {platform : Platform} {readChunk : ReadChunk}
  {sys : PhysicalSystem} {s t : PhysicalStore} {live : Prop} {req : PutSegmentRequest}
  {ref : SegmentRef} {addr : PhysicalSegmentAddress} {c : PutSegmentRequest × PhysicalPut}

/-! ## Readers -/

section

variable {index n : Nat} {now : Time} {o : OpenedReader} {r : PhysicalReader}

/-- The store changes as by reading one segment. -/
theorem Sound.reading (sound : Sound config sys) {source : Nat}
    (found : sys.calls[source]? = some (req, .returned (.ok ref)))
    (returned : Returned config sys.store (source ∉ sys.removed) req ref addr)
    (effect : ReadEffect config addr sys.store t) : Sound config { sys with store := t } := by
  have chunks := returned.chunksOf
  exact
    { sound with
      coherent := effect.coherent
      cached := by
        intro entry member
        rcases effect.own entry member with old | own
        · exact sound.cached entry old
        · exact sound.owned _ (List.mem_of_getElem? found) _ (chunks ▸ own)
      marks := fun id marked => sound.marks id (effect.deleted ▸ marked)
      calls := by
        intro j c at_
        by_cases same : j = source
        · subst same
          obtain rfl : (req, .returned (.ok ref)) = c := Option.some.inj (found.symm.trans at_)
          exact ⟨addr, { returned with
            holds := fun alive => (returned.holds alive).of_volume effect.volume }⟩
        · refine (sound.calls at_).frame effect.touches fun id member => ?_
          rw [← chunks]
          exact sound.apart at_ found same id member }

/-- A reader is opened. -/
theorem Sound.get (sound : Sound config sys) {off length : UInt64} :
    Sound config (sys.step config platform readChunk (.get index off length)) := by
  simp only [PhysicalSystem.step]
  split
  · next req ref found =>
    refine { sound with readers := fun o member => ?_ }
    rcases List.mem_append.mp member with old | new
    · exact sound.readers o old
    obtain rfl := List.mem_singleton.mp new
    refine ⟨req, ref, found, fun r got => ?_⟩
    dsimp only at got
    obtain ⟨addr, returned⟩ := sound.calls found
    have id := returned.segmentID
    obtain ⟨opened, -, -, colon⟩ := getSegment_ok id got
    obtain ⟨segment, offset, buf, unclosed, remaining, inside⟩ := opened
    rw [returned.sizeBytes] at remaining inside
    exact
      { decoded := by
          rw [id, segment]
          exact decodePhysicalSegmentID_encode colon
        inside := inside
        positioned := ⟨unclosed, by rw [offset], by rw [offset, remaining], by simp [buf, offset]⟩
        progress := Nat.zero_le _
        ended := .inl rfl }
  · exact sound

/-- A reader is read. -/
theorem Sound.read (sound : Sound config sys) (positive : 0 < config.chunkSize.toNat)
    (faithful : Faithful readChunk) (nonempty : 0 < n)
    (alive : ∀ o ∈ sys.readers[index]?, o.source ∉ sys.removed) :
    Sound config (sys.step config platform readChunk (.read index n now)) := by
  simp only [PhysicalSystem.step]
  split
  · next o found =>
    split
    · next r opened unended =>
      obtain ⟨req, ref, at_, stands⟩ := sound.readers o (List.mem_of_getElem? found)
      obtain ⟨decoded, inside, positioned, progress, -⟩ := stands r opened
      obtain ⟨addr, returned⟩ := sound.calls at_
      obtain rfl : r.addr = addr := by
        rw [returned.segmentID] at decoded
        exact (decodePhysicalSegmentID_ok decoded).1
      have size := returned.sizeBytes
      have unwrapped := sound.sizes _ (List.mem_of_getElem? at_)
      have holds := returned.holds (alive o found)
      have reading := read_positioned now positioned positive (.inr (size ▸ unwrapped)) holds
        (size ▸ inside) faithful sound.coherent nonempty
      have others (o' : OpenedReader) (source : o'.source = o.source)
          (stands : ∀ r, o'.reader = .ok r → ReaderSound req ref o' r) :
          ∀ o'' ∈ sys.readers.set index o', ∃ req ref,
            sys.calls[o''.source]? = some (req, .returned (.ok ref)) ∧
              ∀ r, o''.reader = .ok r → ReaderSound req ref o'' r :=
        forall_mem_set sound.readers ⟨req, ref, source ▸ at_, stands⟩
      rcases reading with ⟨data, r', cache, got, some, stands', segment, after⟩ | ⟨got, whole⟩
      · rw [got]
        refine { sound.reading at_ returned after.effect with readers := others _ rfl ?_ }
        intro r'' same
        cases same
        refine ⟨segment ▸ decoded, inside, stands', ?_, .inl unended⟩
        have : 0 < data.length := List.length_pos_of_ne_nil some
        show o.reads + 1 ≤ (o.delivered ++ data).length
        rw [List.length_append]
        omega
      · rw [got]
        refine { sound with readers := others _ rfl ?_ }
        intro r'' same
        cases same
        rw [Nat.add_sub_cancel_left] at whole
        exact ⟨decoded, inside, positioned, progress, .inr ⟨rfl, whole⟩⟩
    · exact sound
  · exact sound

end

/-! ## Deletions and restarts -/

theorem Sound.delete (sound : Sound config sys) {index : Nat} {answers : PhysicalDeleteAnswers} :
    Sound config (sys.step config platform readChunk (.delete index answers)) := by
  simp only [PhysicalSystem.step]
  split
  · next req ref found =>
    obtain ⟨addr, returned⟩ := sound.calls found
    rcases deleteSegment_effect config answers sys.store returned.segmentID with same | effect
    · rw [same, if_neg fun changed => changed.1 changed.2]
      exact sound
    generalize (sys.store.deleteSegment config answers ref).2 = t at effect
    have marked : ref.segmentID ∈ t.deleted := by
      rw [effect.marked]
      exact List.mem_cons_self
    rw [if_pos ⟨effect.unmarked, marked⟩]
    exact
      { sizes := sound.sizes
        coherent := effect.coherent sound.coherent
        cached := fun entry member => sound.cached entry (effect.cache entry member).1
        owned := sound.owned
        apart := sound.apart
        calls := by
          intro j c at_
          by_cases same : j = index
          · subst same
            obtain rfl : (req, .returned (.ok ref)) = c := Option.some.inj (found.symm.trans at_)
            exact ⟨addr, { returned with
              holds := fun alive => absurd List.mem_cons_self alive }⟩
          · refine ((sound.calls at_).frame effect.touches fun id member => ?_).mono
              fun alive => mt (List.mem_cons_of_mem _) alive
            rw [← returned.chunksOf]
            exact sound.apart at_ found same id member
        marks := by
          intro id mark
          rw [effect.marked] at mark
          rcases List.mem_cons.mp mark with rfl | old
          · exact ⟨index, List.mem_cons_self, req, ref, found, rfl⟩
          · obtain ⟨i, member, rest⟩ := sound.marks id old
            exact ⟨i, List.mem_cons_of_mem _ member, rest⟩
        readers := sound.readers }
  · exact sound

/-- A segment is marked only if it was deleted itself since the store was opened, or it is empty
and so is one that was. -/
theorem Sound.marked_cases (sound : Sound config sys) (colon : ':' ∉ config.volumeID.toList)
    {index : Nat} (found : sys.calls[index]? = some (req, .returned (.ok ref)))
    (marked : ref.segmentID ∈ sys.store.deleted) :
    index ∈ sys.marked ∨ req.sizeBytes = 0 ∧
      ∃ i ∈ sys.marked, ∃ c ∈ sys.calls[i]?, c.1.sizeBytes = 0 := by
  obtain ⟨i, member, req', ref', at_, same⟩ := sound.marks _ marked
  by_cases itself : i = index
  · exact .inl (itself ▸ member)
  obtain ⟨addr, returned⟩ := sound.calls found
  obtain ⟨addr', returned'⟩ := sound.calls at_
  by_cases empty : req'.sizeBytes = 0 ∧ req.sizeBytes = 0
  · exact .inr ⟨empty.2, i, member, _, at_, empty.1⟩
  have apart : ∀ id ∈ chunkIDs addr', id ∉ chunkIDs addr := by
    rw [← returned.chunksOf, ← returned'.chunksOf]
    exact sound.apart at_ found itself
  exact absurd same.symm (returned'.segmentID_ne returned colon apart empty)

theorem lookup_lost {calls : List (PutSegmentRequest × PhysicalPut)} {i : Nat}
    (at_ : (calls.map fun c => (c.1, lost c.2))[i]? = some c) :
    ∃ call, calls[i]? = some (c.1, call) ∧ c.2 = lost call := by
  rw [List.getElem?_map] at at_
  obtain ⟨⟨req, call⟩, found, rfl⟩ := Option.map_eq_some_iff.mp at_
  exact ⟨call, found, rfl⟩

theorem mem_chunksOf_lost {call : PhysicalPut} {id : UInt64} (member : id ∈ chunksOf (lost call)) :
    id ∈ chunksOf call := by
  cases call with
  | start => exact member
  | writing p => cases member
  | returned answer => exact member

theorem Sound.restart (sound : Sound config sys) :
    Sound config (sys.step config platform readChunk .restart) where
  sizes := by
    intro c member
    obtain ⟨c', member', rfl⟩ := List.mem_map.mp member
    exact sound.sizes c' member'
  coherent := by intro entry member; cases member
  cached := by intro entry member; cases member
  owned := by
    intro c member id own
    obtain ⟨c', member', rfl⟩ := List.mem_map.mp member
    exact sound.owned c' member' id (mem_chunksOf_lost own)
  apart := by
    intro i j c c' first second other id member own
    obtain ⟨call, found, same⟩ := lookup_lost first
    obtain ⟨call', found', same'⟩ := lookup_lost second
    rw [same] at member
    rw [same'] at own
    exact sound.apart found found' other id (mem_chunksOf_lost member) (mem_chunksOf_lost own)
  calls := by
    intro i c at_
    obtain ⟨call, found, same⟩ := lookup_lost at_
    obtain ⟨req, next⟩ := c
    obtain rfl : next = lost call := same
    have before := sound.calls found
    cases call with
    | start => trivial
    | writing p => trivial
    | returned answer =>
      cases answer with
      | error e => trivial
      | ok ref =>
        obtain ⟨addr, returned⟩ := before
        exact ⟨addr, { returned with holds := fun alive => (returned.holds alive).of_volume rfl }⟩
  marks := by intro id marked; cases marked
  readers := by intro o member; cases member

/-! ## Every run -/

/-- The allocator gives out ids it has not given out before. -/
def FreshChunks (config : PhysicalConfig) (platform : Platform) (readChunk : ReadChunk)
    (sys : PhysicalSystem) : PhysicalEvent → Prop
  | .serve index action => ∀ c ∈ sys.calls[index]?,
      ∀ id ∈ newChunks c.2 (c.2.serve config platform readChunk c.1 sys.store action).1,
        id ∉ sys.allocated
  | _ => True

instance decidableFreshChunks (config : PhysicalConfig) (platform : Platform)
    (readChunk : ReadChunk) (sys : PhysicalSystem) :
    (event : PhysicalEvent) → Decidable (FreshChunks config platform readChunk sys event)
  | .serve index action =>
    -- the ids that are given out, not all numbers, are to be looked at
    have (c : PutSegmentRequest × PhysicalPut) : Decidable (∀ id ∈ newChunks c.2
        (c.2.serve config platform readChunk c.1 sys.store action).1, id ∉ sys.allocated) :=
      List.decidableBAll _ _
    inferInstanceAs (Decidable (∀ c ∈ sys.calls[index]?,
      ∀ id ∈ newChunks c.2 (c.2.serve config platform readChunk c.1 sys.store action).1,
        id ∉ sys.allocated))
  | .get _ _ _ | .read _ _ _ | .delete _ _ | .restart => inferInstanceAs (Decidable True)

/-- Segments are read, with buffers that are not empty, until they are deleted. -/
def LiveReads (sys : PhysicalSystem) : PhysicalEvent → Prop
  | .read index n _ => 0 < n ∧ ∀ o ∈ sys.readers[index]?, o.source ∉ sys.removed
  | _ => True

instance decidableLiveReads (sys : PhysicalSystem) (event : PhysicalEvent) :
    Decidable (LiveReads sys event) := by
  cases event <;> dsimp only [LiveReads] <;> infer_instance

def returnedRef : PhysicalPut → Option SegmentRef
  | .returned (.ok ref) => some ref
  | _ => none

/-- Ranges inside a segment are asked for that was not deleted since the store was opened; for
an empty segment, neither was another empty one. -/
def OpensUnmarked (sys : PhysicalSystem) : PhysicalEvent → Prop
  | .get index off length => ∀ c ∈ sys.calls[index]?, ∀ _ ∈ returnedRef c.2,
      off.toNat + length.toNat ≤ c.1.sizeBytes.toNat ∧ index ∉ sys.marked ∧
        (c.1.sizeBytes = 0 → ∀ i ∈ sys.marked, ∀ c' ∈ sys.calls[i]?, c'.1.sizeBytes ≠ 0)
  | _ => True

instance decidableOpensUnmarked (sys : PhysicalSystem) (event : PhysicalEvent) :
    Decidable (OpensUnmarked sys event) := by
  cases event <;> dsimp only [OpensUnmarked] <;> infer_instance

theorem Sound.step (sound : Sound config sys) (positive : 0 < config.chunkSize.toNat)
    (faithful : Faithful readChunk) {event : PhysicalEvent}
    (fresh : FreshChunks config platform readChunk sys event) (live : LiveReads sys event) :
    Sound config (sys.step config platform readChunk event) := by
  cases event with
  | serve index action =>
    simp only [PhysicalSystem.step]
    split
    · exact sound
    · next req call found => exact sound.serve positive faithful found rfl (fresh _ found)
  | get index off length => exact sound.get
  | read index n now => exact sound.read positive faithful live.1 live.2
  | delete index answers => exact sound.delete
  | restart => exact sound.restart

theorem Sound.fresh {requests : List PutSegmentRequest}
    (sizes : ∀ req ∈ requests, Unwrapped config req.sizeBytes.toNat) :
    Sound config { calls := requests.map (·, .start) } where
  sizes := by simpa using sizes
  coherent := by intro entry member; cases member
  cached := by intro entry member; cases member
  owned := by
    intro c member id own
    obtain ⟨req, -, rfl⟩ := List.mem_map.mp member
    cases own
  apart := by
    intro i j c c' first second other id own
    obtain ⟨req, -, rfl⟩ := List.mem_map.mp (List.mem_of_getElem? first)
    cases own
  calls := by
    intro i c at_
    obtain ⟨req, -, rfl⟩ := List.mem_map.mp (List.mem_of_getElem? at_)
    trivial
  marks := by intro id marked; cases marked
  readers := by intro o member; cases member

end Namros.Guarantees
