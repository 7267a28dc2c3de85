import Namros.Guarantees.ConcurrentDrains
import Namros.Index.Progress
import Namros.Source.SegmentReading

/-!
# The content of a drained version

A drain copies the stored bytes of every segment on the source volume and publishes the
references the segment store gave the copies. The store knows nothing of encryption, so such a
reference has no envelope: of an encrypted segment the gateway then serves the ciphertext.
Where every moved segment is plaintext and the copies are placed off the source volume, the
version reads as before.
-/

namespace Namros.Guarantees

open Library Source Index Transaction

/-! ## What the segment store promises -/

/-- The segment store returns on read exactly the bytes that were put: `holds g ref bytes` says
that `ref` refers to `bytes` in state `g`. -/
structure ReadsBack {σ : Type} (store : SegmentStore σ)
    (holds : σ → SegmentRef → List UInt8 → Prop) : Prop where
  /-- A range inside the segment; length 0 reads to the end. -/
  read {g : σ} {ref : SegmentRef} {bytes : List UInt8} {off length : UInt64} :
    holds g ref bytes → off.toNat + length.toNat ≤ bytes.length →
      (store.getSegment ref off length g).map SegmentReader.content =
        .ok (if length = 0 then bytes.drop off.toNat
          else (bytes.drop off.toNat).take length.toNat)
  sized {g : σ} {ref : SegmentRef} {bytes : List UInt8} :
    holds g ref bytes → bytes.length = ref.sizeBytes.toNat
  put {g g' : σ} {req : PutSegmentRequest} {ref : SegmentRef} :
    store.putSegment req g = (.ok ref, g') → holds g' ref req.reader
  /-- The request says nothing of encryption, nor does the reference. -/
  unwrapped {g g' : σ} {req : PutSegmentRequest} {ref : SegmentRef} :
    store.putSegment req g = (.ok ref, g') → ref.encryption = {}
  /-- A write leaves the other segments. -/
  kept {g g' : σ} {req : PutSegmentRequest} {answer : Except StorageError SegmentRef}
    {ref : SegmentRef} {bytes : List UInt8} :
    store.putSegment req g = (answer, g') → holds g ref bytes → holds g' ref bytes

/-! ## What is guaranteed, and of which versions -/

section

variable {σ : Type} (store : SegmentStore σ) (encryption : Option DecryptSegment)

/-- The bytes the gateway serves for a range of a version. -/
def servedRange (bucketID key versionID : String) (offset length : UInt64) (s : Store) (g : σ) :
    Except (Error ⊕ StorageError) (List UInt8) :=
  match (getObjectVersion bucketID key versionID).run s with
  | .error e => .error (.inl e)
  | .ok (version, _) =>
    match openObjectReaders store encryption (objectHeadFromVersion version) offset length g with
    | .error e => .error (.inr e)
    | .ok readers => .ok (readers.flatMap SegmentReader.content)

/-- The manifest of the version a request names. -/
def manifestOf (s : Store) (req : MoveObjectVersionRequest) : List SegmentRef :=
  (versionSegments s req.bucketID req.key req.versionID).getD []

/-- What a call returned. -/
def returnedRefs : MoveCall → List SegmentRef
  | .returned _ _ result _ => result.publishedSegmentRefs
  | _ => []

/-- What is needed to read the segment under another reference. -/
def SameReading (ref ref' : SegmentRef) : Prop :=
  ref'.encryption = ref.encryption ∧ segmentLogicalSize ref' = segmentLogicalSize ref

/-- A drain left the version as readable as it was, and off the source volume. -/
structure ContentKept (req : MoveObjectVersionRequest) (s : Store) (g : σ)
    (moved : MoveOutcome σ) : Prop where
  bytes : ∀ offset length,
    servedRange store encryption req.bucketID req.key req.versionID offset length moved.store
        moved.segments =
      servedRange store encryption req.bucketID req.key req.versionID offset length s g
  off : ∀ ref ∈ returnedRefs moved.call, segmentRefVolumeID ref ≠ req.sourceVolumeID
  fields : List.Forall₂ SameReading (manifestOf s req) (manifestOf moved.store req)

/-- The references the store gives the copies of the segments on a volume. -/
def placements (sourceVolumeID : String) (version : ObjectVersion) :
    List SegmentRef → σ → List SegmentRef
  | [], _ => []
  | ref :: refs, g =>
    if segmentRefVolumeID ref ≠ sourceVolumeID then placements sourceVolumeID version refs g
    else
      match copySegment store version ref g with
      | (.error _, g') => placements sourceVolumeID version refs g'
      | (.ok copied, g') => copied :: placements sourceVolumeID version refs g'

/-- The segments to move are plaintext, and they have somewhere else to go: the target volume of
the request, or where the store puts them when the request names none. -/
structure Movable (req : MoveObjectVersionRequest) (s : Store) (g : σ) : Prop where
  plaintext : ∀ ref ∈ manifestOf s req, segmentRefVolumeID ref = req.sourceVolumeID →
    ref.encryption = {}
  target : ∀ ref ∈ manifestOf s req, segmentRefVolumeID ref = req.sourceVolumeID →
    req.targetVolumeID ≠ req.sourceVolumeID
  placed : req.targetVolumeID = "" → ∀ version t,
    (getObjectVersion req.bucketID req.key req.versionID).run s = .ok (version, t) →
      ∀ copied ∈ placements store req.sourceVolumeID version version.allSegmentRefs g,
        segmentRefVolumeID copied ≠ req.sourceVolumeID

end

/-! ## Reading under two references -/

variable {refs : List SegmentRef}

section

variable {σ : Type} {store : SegmentStore σ} {encryption : Option DecryptSegment}
variable {holds : σ → SegmentRef → List UInt8 → Prop} {g g' : σ} {ref ref' : SegmentRef}
variable {bytes : List UInt8}

/-- Two references read alike, each in its state of the store. -/
structure ReadAlike (store : SegmentStore σ) (encryption : Option DecryptSegment)
    (g g' : σ) (ref ref' : SegmentRef) : Prop where
  size : segmentLogicalSize ref' = segmentLogicalSize ref
  content : ∀ offset length, offset.toNat + length.toNat ≤ (segmentLogicalSize ref).toNat →
    (openSegmentReader store encryption ref' offset length g').map SegmentReader.content =
      (openSegmentReader store encryption ref offset length g).map SegmentReader.content

/-- A projection of a computation is determined by one of its first step. -/
theorem map_bind_congr {ε α β γ δ : Type} {x x' : Except ε α} {k k' : α → Except ε β}
    {f : α → γ} {h : β → δ} (same : x'.map f = x.map f)
    (next : ∀ a a', f a' = f a → (k' a').map h = (k a).map h) :
    (x' >>= k').map h = (x >>= k).map h := by
  cases x with
  | error e =>
    cases x' with
    | error e' => cases same; rfl
    | ok a' => cases same
  | ok a =>
    cases x' with
    | error e' => cases same
    | ok a' => exact next a a' (Except.ok.inj same)

/-- A segment that stayed where it was. -/
theorem ReadsBack.stays (faithful : ReadsBack store holds) (old : holds g ref bytes)
    (new : holds g' ref bytes) : ReadAlike store encryption g g' ref ref := by
  have whole : (0 : UInt64).toNat + ref.sizeBytes.toNat ≤ bytes.length := by
    simp [faithful.sized old]
  refine ⟨rfl, fun offset length inside => ?_⟩
  by_cases encrypted : ref.encryption.algorithm = ""
  · simp only [openSegmentReader, encrypted, if_true]
    have within : offset.toNat + length.toNat ≤ bytes.length := by
      simpa [faithful.sized old, segmentLogicalSize, encrypted] using inside
    rw [faithful.read old within, faithful.read new within]
  -- what a decrypting reader returns is determined by the ciphertext
  simp only [openSegmentReader, if_neg encrypted]
  cases encryption with
  | none => rfl
  | some decryptSegment =>
    dsimp only
    split
    · rfl
    have same : (store.getSegment ref 0 ref.sizeBytes g').map SegmentReader.content =
        (store.getSegment ref 0 ref.sizeBytes g).map SegmentReader.content := by
      rw [faithful.read old whole, faithful.read new whole]
    refine map_bind_congr same fun reader reader' content => ?_
    rw [content]
    refine map_bind_congr (f := SegmentReader.content) rfl fun plaintext plaintext' alike => ?_
    simp only [plaintextRangeReader, alike]
    split
    · rfl
    · split <;> rfl

/-- A plaintext segment and a copy of it. -/
theorem ReadsBack.copy (faithful : ReadsBack store holds) (old : holds g ref bytes)
    (new : holds g' ref' bytes) (plain : ref.encryption = {}) (plain' : ref'.encryption = {}) :
    ReadAlike store encryption g g' ref ref' := by
  have size : ref'.sizeBytes = ref.sizeBytes :=
    UInt64.toNat_inj.mp ((faithful.sized new).symm.trans (faithful.sized old))
  refine ⟨by simp [segmentLogicalSize, plain, plain', size], fun offset length inside => ?_⟩
  have within : offset.toNat + length.toNat ≤ bytes.length := by
    simpa [faithful.sized old, segmentLogicalSize, plain] using inside
  simp only [openSegmentReader, plain, plain', if_true]
  rw [faithful.read old within, faithful.read new within]

/-- The loop over two manifests that read alike, segment by segment. -/
theorem openReaders_alike {refs' : List SegmentRef}
    (alike : List.Forall₂ (ReadAlike store encryption g g') refs refs') (offset length : UInt64) :
    (openReaders store encryption g' refs' offset length).map
        (Prod.map (List.map SegmentReader.content) id) =
      (openReaders store encryption g refs offset length).map
        (Prod.map (List.map SegmentReader.content) id) := by
  induction alike generalizing offset length with
  | nil => rfl
  | @cons ref ref' refs refs' head _ ih =>
    unfold openReaders
    rw [head.size]
    split
    · rfl
    dsimp only
    split
    · exact ih _ _
    · next begins =>
      generalize taken : (if segmentLogicalSize ref - offset > length then length
        else segmentLogicalSize ref - offset) = readLength
      have inside := taken ▸ readLength_inside begins
      refine map_bind_congr (head.content offset readLength inside)
        fun reader reader' content => ?_
      refine map_bind_congr (ih 0 (length - readLength)) fun left left' readers => ?_
      obtain ⟨contents, remaining⟩ := Prod.mk.inj readers
      simp_all [Except.map, pure, Except.pure]

end

/-! ## The copy loop -/

variable {progress : MoveProgress}

section

variable {σ : Type} {store : SegmentStore σ} {holds : σ → SegmentRef → List UInt8 → Prop}
variable {req : MoveObjectVersionRequest} {g g' : σ} {ref copied : SegmentRef}

/-- A copy holds the bytes of its source, and no write loses a segment. -/
theorem ReadsBack.copySegment_ok (faithful : ReadsBack store holds) {version : ObjectVersion}
    (ran : copySegment store version ref g = (.ok copied, g')) :
    copied.encryption = {} ∧ (∀ bytes, holds g ref bytes → holds g' copied bytes) ∧
      ∀ other bytes, holds g other bytes → holds g' other bytes := by
  unfold copySegment at ran
  cases read : store.getSegment ref 0 ref.sizeBytes g with
  | error e => rw [read] at ran; cases ran
  | ok reader =>
    rw [read] at ran
    dsimp only at ran
    split at ran
    · cases ran
    · next written put =>
      split at ran
      · cases ran
      cases ran
      refine ⟨faithful.unwrapped put, fun bytes old => ?_, fun _ _ => faithful.kept put⟩
      have size := faithful.sized old
      have whole : (0 : UInt64).toNat + ref.sizeBytes.toNat ≤ bytes.length := by simp [size]
      have content := faithful.read old whole
      rw [read] at content
      have same : reader.content = bytes := by
        by_cases zero : ref.sizeBytes = 0
        · simpa [Except.map, zero] using content
        · simpa [Except.map, zero, ← size] using content
      exact same ▸ faithful.put put

/-- A reference of the old manifest and the one in its place. -/
structure Replaced (holds : σ → SegmentRef → List UInt8 → Prop) (req : MoveObjectVersionRequest)
    (g g' : σ) (ref ref' : SegmentRef) : Prop where
  stays : segmentRefVolumeID ref ≠ req.sourceVolumeID → ref' = ref
  unwrapped : segmentRefVolumeID ref = req.sourceVolumeID → ref'.encryption = {}
  copied : segmentRefVolumeID ref = req.sourceVolumeID →
    ∀ bytes, holds g ref bytes → holds g' ref' bytes
  placed : segmentRefVolumeID ref = req.sourceVolumeID →
    req.targetVolumeID = "" ∨ segmentRefVolumeID ref' = req.targetVolumeID

/-- What a loop over `refs` that met no error has done. -/
structure LoopDone (store : SegmentStore σ) (holds : σ → SegmentRef → List UInt8 → Prop)
    (req : MoveObjectVersionRequest) (refs : List SegmentRef) (progress progress' : MoveProgress)
    (g g' : σ) (news : List SegmentRef) : Prop where
  replacement : progress'.replacementRefs = progress.replacementRefs ++ news
  replaced : List.Forall₂ (Replaced holds req g g') refs news
  copied : progress'.draft.copied = progress.draft.copied +
    refs.countP fun ref => segmentRefVolumeID ref = req.sourceVolumeID
  kept : ∀ ref bytes, holds g ref bytes → holds g' ref bytes
  placed : (∀ ref ∈ news, segmentRefVolumeID ref ≠ req.sourceVolumeID) ↔
    ∀ ref ∈ placements store req.sourceVolumeID progress.version refs g,
      segmentRefVolumeID ref ≠ req.sourceVolumeID

/-- A copy either counts as to be retried, or gives the reference that is kept. -/
theorem copy_cases (req : MoveObjectVersionRequest) (ref : SegmentRef) (progress : MoveProgress)
    (answer : Except String SegmentRef) :
    (progress.copy req ref answer).version = progress.version ∧
      ((progress.copy req ref answer).draft.retryable = progress.draft.retryable + 1 ∨
        ∃ copied, answer = .ok copied ∧
          (req.targetVolumeID = "" ∨ segmentRefVolumeID copied = req.targetVolumeID) ∧
          (progress.copy req ref answer).draft.retryable = progress.draft.retryable ∧
          (progress.copy req ref answer).draft.copied = progress.draft.copied + 1 ∧
          (progress.copy req ref answer).replacementRefs =
            progress.replacementRefs ++ [copied]) := by
  unfold MoveProgress.copy
  cases answer with
  | error text => exact ⟨rfl, .inl rfl⟩
  | ok copied =>
    dsimp only
    split
    · exact ⟨rfl, .inl rfl⟩
    · next right =>
      have checked : req.targetVolumeID = "" ∨ segmentRefVolumeID copied = req.targetVolumeID := by
        by_contra wrong
        exact right (not_or.mp wrong)
      exact ⟨rfl, .inr ⟨copied, rfl, checked, rfl, rfl, rfl⟩⟩

/-- The count of copies to retry only grows. -/
theorem copyLoop_retryable (store : SegmentStore σ) (req : MoveObjectVersionRequest)
    (refs : List SegmentRef) (progress : MoveProgress) (g : σ) :
    progress.draft.retryable ≤ (copyLoop store req refs progress g).1.draft.retryable := by
  induction refs generalizing progress g with
  | nil => exact le_rfl
  | cons ref refs ih =>
    unfold copyLoop
    split
    · exact ih (progress.skip req ref) g
    generalize copySegment store progress.version ref g = answered
    refine le_trans ?_ (ih _ answered.2)
    rcases (copy_cases req ref progress (answered.1.mapError StorageError.text)).2 with
      retried | ⟨_, _, _, same, _⟩
    · rw [retried]; omega
    · exact same.ge

/-- A loop that has met no error. -/
theorem ReadsBack.copyLoop_done (faithful : ReadsBack store holds)
    (started : 0 ≤ progress.draft.retryable)
    (finished : (copyLoop store req refs progress g).1.draft.retryable ≤ 0) :
    ∃ news, LoopDone store holds req refs progress (copyLoop store req refs progress g).1 g
      (copyLoop store req refs progress g).2 news := by
  induction refs generalizing progress g with
  | nil => exact ⟨[], by simp [copyLoop], .nil, by simp [copyLoop], fun _ _ old => old, by
      simp [placements]⟩
  | cons ref refs ih =>
    by_cases elsewhere : segmentRefVolumeID ref ≠ req.sourceVolumeID
    · have unfolded : copyLoop store req (ref :: refs) progress g =
          copyLoop store req refs (progress.skip req ref) g := by
        rw [copyLoop, if_pos elsewhere]
      rw [unfolded] at finished ⊢
      obtain ⟨news, done⟩ := ih (show 0 ≤ (progress.skip req ref).draft.retryable from started) finished
      refine ⟨ref :: news, ?_, .cons ⟨fun _ => rfl, ?_, ?_, ?_⟩ done.replaced, ?_, done.kept, ?_⟩
      · simpa [MoveProgress.skip] using done.replacement
      · exact fun here => absurd here elsewhere
      · exact fun here => absurd here elsewhere
      · exact fun here => absurd here elsewhere
      · simpa [elsewhere, MoveProgress.skip] using done.copied
      · rw [placements, if_pos elsewhere, List.forall_mem_cons]
        exact (and_iff_right elsewhere).trans done.placed
    · have here : segmentRefVolumeID ref = req.sourceVolumeID := not_not.mp elsewhere
      cases answered : copySegment store progress.version ref g with
      | mk answer g₁ =>
      have unfolded : copyLoop store req (ref :: refs) progress g =
          copyLoop store req refs
            (progress.copy req ref (answer.mapError StorageError.text)) g₁ := by
        rw [copyLoop, if_neg elsewhere, answered]
      rw [unfolded] at finished ⊢
      have later := copyLoop_retryable store req refs
        (progress.copy req ref (answer.mapError StorageError.text)) g₁
      obtain ⟨version, retried | ⟨copied, accepted, checked, same, counted, appended⟩⟩ :=
        copy_cases req ref progress (answer.mapError StorageError.text)
      · omega
      obtain rfl := mapError_ok accepted
      obtain ⟨news, done⟩ := ih (same ▸ started) finished
      obtain ⟨unwrapped, moved, kept⟩ := faithful.copySegment_ok answered
      refine ⟨copied :: news, ?_, .cons ⟨fun off => absurd here off, fun _ => unwrapped,
        fun _ bytes old => done.kept _ _ (moved bytes old), fun _ => checked⟩
        (done.replaced.imp fun old new replaced => ⟨replaced.stays, replaced.unwrapped,
          fun on bytes held => replaced.copied on bytes (kept _ _ held), replaced.placed⟩),
        ?_, fun other bytes old => done.kept _ _ (kept _ _ old), ?_⟩
      · rw [done.replacement, appended, List.append_assoc, List.singleton_append]
      · rw [done.copied, counted, List.countP_cons_of_pos (by simpa using here)]
        push_cast
        ring
      rw [placements, if_neg elsewhere, answered]
      simp only [List.forall_mem_cons]
      rw [← version]
      exact and_congr_right fun _ => done.placed

end

/-! ## The whole call -/

section

variable {σ : Type} {store : SegmentStore σ} {platform : Platform} {contexts : Nat → CallContext}
variable {req : MoveObjectVersionRequest} {s : Store} {g : σ} {U : Set String}

/-- What a successful call has done: it read the version, went through the copy loop without an
error and published what the loop gave, if that copied anything. -/
structure MoveDone (store : SegmentStore σ) (req : MoveObjectVersionRequest) (s : Store) (g : σ)
    (moved : MoveOutcome σ) (progress : MoveProgress) : Prop where
  named : req.sourceVolumeID ≠ ""
  read : (getObjectVersion req.bucketID req.key req.versionID).run s = .ok (progress.version, s)
  fresh : progress.replacementRefs = [] ∧ progress.draft.copied = 0 ∧
    progress.draft.retryable = 0
  finished : (copyLoop store req progress.version.allSegmentRefs progress g).1.draft.retryable ≤ 0
  segments : moved.segments = (copyLoop store req progress.version.allSegmentRefs progress g).2
  returned : returnedRefs moved.call =
    (copyLoop store req progress.version.allSegmentRefs progress g).1.replacementRefs
  manifest : versionSegments moved.store req.bucketID req.key req.versionID =
    some (if (copyLoop store req progress.version.allSegmentRefs progress g).1.draft.copied = 0
      then progress.version.allSegmentRefs
      else (copyLoop store req progress.version.allSegmentRefs progress g).1.replacementRefs)
  consistent : ∃ U, Consistent U (objectIndex moved.store)

/-- The record of a call that succeeds. -/
theorem recordMove_succeeded {context : CallContext} {published : Option PublishRefsResult}
    {draft : OperationDraft} {result : MoveObjectVersionResult} {err : Option DrainError}
    {t : Store} {call : MoveCall}
    (ran : recordMove context req published draft result err s = (t, call))
    (succeeded : Succeeded call) :
    err = none ∧ returnedRefs call = result.publishedSegmentRefs ∧
      versionSegments t = versionSegments s ∧ objectIndex t = objectIndex s := by
  unfold recordMove at ran
  cases put : (putVolumeDrainOperation context (req.operation draft (context.now 1))).run s with
  | error e => rw [put] at ran; cases ran; cases succeeded
  | ok recorded =>
    rw [put] at ran
    cases ran
    obtain ⟨manifests, index⟩ := putVolumeDrainOperation_manifest put
    exact ⟨succeeded, rfl, manifests, index⟩

/-- The end of a loop, for a call that succeeds. -/
theorem finishMove_succeeded (h : Consistent U (objectIndex s)) {publishing recording : CallContext}
    {t : Store} {call : MoveCall}
    (ran : recordedMove recording req (finishMove platform publishing req progress s) =
      (t, call)) (succeeded : Succeeded call) :
    progress.draft.retryable ≤ 0 ∧ returnedRefs call = progress.replacementRefs ∧
      versionSegments t req.bucketID req.key req.versionID =
        (if progress.draft.copied = 0 then versionSegments s req.bucketID req.key req.versionID
          else some progress.replacementRefs) ∧
      ∃ V, Consistent V (objectIndex t) := by
  unfold finishMove at ran
  dsimp only at ran
  split at ran
  · cases (recordMove_succeeded ran succeeded).1
  · next settled =>
    have settled : progress.draft.retryable ≤ 0 := not_lt.mp settled
    split at ran
    · next uncopied =>
      obtain ⟨-, returned, manifests, index⟩ := recordMove_succeeded ran succeeded
      exact ⟨settled, returned, by rw [manifests, if_pos uncopied], U, index ▸ h⟩
    · next copied =>
      split at ran
      · cases (recordMove_succeeded ran succeeded).1
      · next published s₁ publish =>
        obtain ⟨-, returned, manifests, index⟩ := recordMove_succeeded ran succeeded
        have manifest := publishObjectVersionRefs_manifest h publish req.bucketID req.key
          req.versionID
        refine ⟨settled, returned, ?_, U, index ▸ (publishObjectVersionRefs_renewed h publish).consistent⟩
        rw [manifests, manifest, if_pos ⟨rfl, rfl, rfl⟩, if_neg copied]

theorem moveObjectVersion_succeeded (h : Consistent U (objectIndex s))
    (succeeded : Succeeded (moveObjectVersion store platform contexts req s g).call) :
    ∃ progress, MoveDone store req s g (moveObjectVersion store platform contexts req s g)
      progress := by
  unfold moveObjectVersion startMove at succeeded ⊢
  by_cases missing : req.bucketID = "" ∨ req.key = "" ∨ req.versionID = ""
  · simp only [if_pos missing] at succeeded
    cases succeeded
  simp only [if_neg missing] at succeeded ⊢
  by_cases unnamed : req.sourceVolumeID = ""
  · simp only [if_pos unnamed] at succeeded
    cases succeeded
  simp only [if_neg unnamed] at succeeded ⊢
  cases read : (getObjectVersion req.bucketID req.key req.versionID).run s with
  | error e => simp only [read] at succeeded; cases succeeded
  | ok ran =>
    obtain ⟨version, s₁⟩ := ran
    obtain ⟨rfl, manifest⟩ := getObjectVersion_manifest h read
    simp only [read] at succeeded ⊢
    by_cases empty : version.allSegmentRefs = []
    · simp only [if_pos empty] at succeeded ⊢
      generalize recorded : recordedMove (contexts 2) req _ = moved at succeeded ⊢
      obtain ⟨-, returned, manifests, index⟩ := recordMove_succeeded recorded succeeded
      refine ⟨{ version := version, draft := {} }, unnamed, read, ⟨rfl, rfl, rfl⟩, ?_, ?_, ?_, ?_,
        U, index ▸ h⟩
      · simp [empty, copyLoop]
      · simp [empty, copyLoop]
      · simpa [empty, copyLoop] using returned
      · simpa [empty, copyLoop, manifests] using manifest
    · simp only [if_neg empty] at succeeded ⊢
      generalize recorded : recordedMove (contexts 2) req _ = moved at succeeded ⊢
      obtain ⟨settled, returned, stored, consistent⟩ := finishMove_succeeded h recorded succeeded
      refine ⟨{ version := version
                draft := { startedAt := (contexts 0).now 0, cursor := req.versionID,
                           scanned := version.allSegmentRefs.length } },
        unnamed, read, ⟨rfl, rfl, rfl⟩, settled, rfl, returned, ?_, consistent⟩
      rw [stored, manifest]
      exact (apply_ite some _ _ _).symm

/-- A stored manifest is the one a version is read with. -/
theorem getObjectVersion_of_manifest (h : Consistent U (objectIndex s)) {b k id : String}
    (stored : versionSegments s b k id = some refs) :
    ∃ v, (getObjectVersion b k id).run s = .ok (v, s) ∧ v.allSegmentRefs = refs := by
  obtain ⟨v, found, hydrated⟩ := Option.bind_eq_some_iff.mp stored
  obtain ⟨full, complete, rfl⟩ := Option.map_eq_some_iff.mp hydrated
  have hydrated : hydrateWith (chunksOf s v) v = .ok full := by
    cases ran : hydrateWith (chunksOf s v) v with
    | error e => rw [ran] at complete; cases complete
    | ok w => rw [ran] at complete; cases complete; rfl
  have searched := findVersionByID_finds h.versions found hydrated
  exact ⟨full, run_bind_ok.mpr ⟨_, s, searched, rfl⟩, rfl⟩

theorem forall₂_mem {α β : Type} {R : α → β → Prop} {l : List α} {l' : List β}
    (related : List.Forall₂ R l l') {a : α} (present : a ∈ l) : ∃ b ∈ l', R a b := by
  induction related with
  | nil => cases present
  | cons head _ ih =>
    rcases List.mem_cons.mp present with rfl | later
    · exact ⟨_, List.mem_cons_self, head⟩
    · obtain ⟨b, member, rel⟩ := ih later
      exact ⟨b, List.mem_cons_of_mem _ member, rel⟩

variable {holds : σ → SegmentRef → List UInt8 → Prop} {encryption : Option DecryptSegment}

/-- A manifest without a segment on the source volume is published as it was. -/
theorem replaced_none {g' : σ} {news : List SegmentRef}
    (replaced : List.Forall₂ (Replaced holds req g g') refs news)
    (off : ∀ ref ∈ refs, segmentRefVolumeID ref ≠ req.sourceVolumeID) : news = refs := by
  have same : List.Forall₂ (fun ref ref' => ref = ref') refs news :=
    ((List.forall₂_and_left _ _).mpr ⟨off, replaced⟩).imp fun _ _ both => (both.2.stays both.1).symm
  exact (List.forall₂_eq_eq_eq ▸ same).symm

/-- The segments of a version are in the store. -/
def Present (holds : σ → SegmentRef → List UInt8 → Prop) (s : Store)
    (req : MoveObjectVersionRequest) (g : σ) : Prop :=
  ∀ ref ∈ manifestOf s req, ∃ bytes, holds g ref bytes

/-- Where the moved segments are plaintext, every segment reads as the one it replaces. -/
theorem ReadsBack.alike (faithful : ReadsBack store holds) {g' : σ} {news : List SegmentRef}
    (kept : ∀ ref bytes, holds g ref bytes → holds g' ref bytes)
    (present : ∀ ref ∈ refs, ∃ bytes, holds g ref bytes)
    (plain : ∀ ref ∈ refs, segmentRefVolumeID ref = req.sourceVolumeID → ref.encryption = {})
    (replaced : List.Forall₂ (Replaced holds req g g') refs news) :
    List.Forall₂ (fun ref ref' => ReadAlike store encryption g g' ref ref' ∧
      SameReading ref ref') refs news := by
  have known := (List.forall₂_and_left _ _).mpr
    ⟨fun ref member => And.intro (present ref member) (plain ref member), replaced⟩
  refine known.imp fun ref ref' ⟨⟨⟨bytes, held⟩, plain⟩, new⟩ => ?_
  by_cases here : segmentRefVolumeID ref = req.sourceVolumeID
  · have alike : ReadAlike store encryption g g' ref ref' :=
      faithful.copy held (new.copied here bytes held) (plain here) (new.unwrapped here)
    exact ⟨alike, (new.unwrapped here).trans (plain here).symm, alike.size⟩
  · rw [new.stays here]
    exact ⟨faithful.stays held (kept ref bytes held), rfl, rfl⟩

/-- A successful drain by its manifests: `news` in place of the one of `version`. -/
structure Republished (store : SegmentStore σ) (holds : σ → SegmentRef → List UInt8 → Prop)
    (req : MoveObjectVersionRequest) (s : Store) (g : σ) (moved : MoveOutcome σ)
    (version : ObjectVersion) (news : List SegmentRef) : Prop where
  named : req.sourceVolumeID ≠ ""
  read : (getObjectVersion req.bucketID req.key req.versionID).run s = .ok (version, s)
  old : manifestOf s req = version.allSegmentRefs
  returned : returnedRefs moved.call = news
  manifest : versionSegments moved.store req.bucketID req.key req.versionID = some news
  consistent : ∃ V, Consistent V (objectIndex moved.store)
  replaced : List.Forall₂ (Replaced holds req g moved.segments) version.allSegmentRefs news
  kept : ∀ ref bytes, holds g ref bytes → holds moved.segments ref bytes
  placed : (∀ ref ∈ news, segmentRefVolumeID ref ≠ req.sourceVolumeID) ↔
    ∀ ref ∈ placements store req.sourceVolumeID version version.allSegmentRefs g,
      segmentRefVolumeID ref ≠ req.sourceVolumeID

theorem MoveDone.republished (faithful : ReadsBack store holds)
    (consistent : Consistent U (objectIndex s)) {moved : MoveOutcome σ}
    (done : MoveDone store req s g moved progress) :
    ∃ news, Republished store holds req s g moved progress.version news := by
  obtain ⟨empty, uncopied, unfailed⟩ := done.fresh
  obtain ⟨news, loop⟩ := faithful.copyLoop_done unfailed.ge done.finished
  refine ⟨news, done.named, done.read, ?_, ?_, ?_, done.consistent, ?_, ?_, loop.placed⟩
  · rw [manifestOf, (getObjectVersion_manifest consistent done.read).2, Option.getD_some]
  · rw [done.returned, loop.replacement, empty, List.nil_append]
  · rw [done.manifest, loop.replacement, empty, List.nil_append, loop.copied, uncopied, zero_add]
    split
    · next none =>
      have off : ∀ ref ∈ progress.version.allSegmentRefs,
          segmentRefVolumeID ref ≠ req.sourceVolumeID := by
        simpa using none
      rw [replaced_none loop.replaced off]
    · rfl
  · exact done.segments ▸ loop.replaced
  · exact done.segments ▸ loop.kept

variable {moved : MoveOutcome σ} {version : ObjectVersion} {news : List SegmentRef}

theorem Republished.new (done : Republished store holds req s g moved version news) :
    manifestOf moved.store req = news := by
  rw [manifestOf, done.manifest, Option.getD_some]

theorem Republished.movable (done : Republished store holds req s g moved version news)
    (kept : ContentKept store encryption req s g moved) : Movable store req s g := by
  obtain ⟨-, off, fields⟩ := kept
  rw [done.returned] at off
  rw [done.old, done.new] at fields
  have both := done.replaced.mp (fun _ _ replaced same => And.intro replaced same) fields
  refine ⟨fun ref member here => ?_, fun ref member here same => ?_,
    fun _ version' t read' copied made => ?_⟩
  · obtain ⟨ref', -, replaced, same⟩ := forall₂_mem both (done.old ▸ member)
    exact same.1.symm.trans (replaced.unwrapped here)
  · obtain ⟨ref', placed, replaced⟩ := forall₂_mem done.replaced (done.old ▸ member)
    rcases replaced.placed here with none | target
    · exact done.named (same ▸ none)
    · exact off ref' placed (target.trans same)
  · cases done.read.symm.trans read'
    exact done.placed.mp off copied made

theorem Republished.off (done : Republished store holds req s g moved version news)
    (movable : Movable store req s g) :
    ∀ ref ∈ news, segmentRefVolumeID ref ≠ req.sourceVolumeID := by
  by_cases free : req.targetVolumeID = ""
  · exact done.placed.mpr (movable.placed free version s done.read)
  intro ref' member
  obtain ⟨ref, old, replaced⟩ := forall₂_mem done.replaced.flip member
  by_cases here : segmentRefVolumeID ref = req.sourceVolumeID
  · rw [(replaced.placed here).resolve_left free]
    exact movable.target ref (done.old ▸ old) here
  · exact (replaced.stays here).symm ▸ here

theorem Republished.contentKept (done : Republished store holds req s g moved version news)
    (faithful : ReadsBack store holds) (present : Present holds s req g)
    (movable : Movable store req s g) : ContentKept store encryption req s g moved := by
  have alike : List.Forall₂ (fun ref ref' =>
      ReadAlike store encryption g moved.segments ref ref' ∧ SameReading ref ref')
      version.allSegmentRefs news :=
    faithful.alike done.kept (done.old ▸ present) (done.old ▸ movable.plaintext) done.replaced
  refine ⟨fun offset length => ?_, done.returned ▸ done.off movable, ?_⟩
  · obtain ⟨V, consistent⟩ := done.consistent
    obtain ⟨version', read', rfl⟩ := getObjectVersion_of_manifest consistent done.manifest
    have same : (openObjectReaders store encryption (objectHeadFromVersion version') offset length
          moved.segments).map (List.map SegmentReader.content) =
        (openObjectReaders store encryption (objectHeadFromVersion version) offset length g).map
          (List.map SegmentReader.content) := by
      unfold openObjectReaders
      split
      · rfl
      refine map_bind_congr (openReaders_alike (alike.imp fun _ _ both => both.1) offset length)
        fun left left' readers => ?_
      obtain ⟨contents, remaining⟩ := Prod.mk.inj readers
      rw [id, id] at remaining
      simp only [remaining]
      split
      · rfl
      · exact congrArg Except.ok contents
    unfold servedRange
    rw [done.read, read']
    dsimp only
    split
    · next e failed =>
      rw [failed] at same
      split
      · next e' failed' => rw [failed'] at same; cases same; rfl
      · next readers opened => rw [opened] at same; cases same
    · next readers' opened' =>
      rw [opened'] at same
      split
      · next e failed => rw [failed] at same; cases same
      · next readers opened =>
        rw [opened] at same
        have contents : readers'.map SegmentReader.content = readers.map SegmentReader.content :=
          Except.ok.inj same
        rw [List.flatMap_def, List.flatMap_def, contents]
  · rw [done.old, done.new]
    exact alike.imp fun _ _ both => both.2

/-- In every store that object calls lead to, a drain that succeeds leaves the version readable
and off the source volume exactly where it moved plaintext only, to another volume. -/
theorem drain_keeps_content_iff {σ : Type} (store : SegmentStore σ)
    (holds : σ → SegmentRef → List UInt8 → Prop) (faithful : ReadsBack store holds)
    (encryption : Option DecryptSegment) (platform : Platform)
    (calls : List (CallContext × ObjectCall)) (fresh : NeverRepeats calls)
    (contexts : Nat → CallContext) (req : MoveObjectVersionRequest) (g : σ)
    (present : Present holds (runCalls platform calls ∅) req g)
    (succeeded : Succeeded
      (moveObjectVersion store platform contexts req (runCalls platform calls ∅) g).call) :
    ContentKept store encryption req (runCalls platform calls ∅) g
        (moveObjectVersion store platform contexts req (runCalls platform calls ∅) g) ↔
      Movable store req (runCalls platform calls ∅) g := by
  have start : Consistent (∅ : Set String) (objectIndex (∅ : Store)) := Consistent.empty
  obtain ⟨V, consistent⟩ : ∃ V, Consistent V (objectIndex (runCalls platform calls ∅)) :=
    runCalls_consistent start fresh fun _ _ _ _ issued => issued
  generalize runCalls platform calls ∅ = s at *
  obtain ⟨progress, done⟩ := moveObjectVersion_succeeded consistent succeeded
  generalize moveObjectVersion store platform contexts req s g = moved at *
  obtain ⟨news, republished⟩ := done.republished faithful consistent
  exact ⟨republished.movable, republished.contentKept faithful present⟩

end

/-! ## An encrypted segment -/

/-- A store that keeps segments by id and puts new ones on one volume. -/
def memoryStore (volumeID : String) : SegmentStore (List (String × List UInt8)) where
  getSegment ref off length g :=
    match g.lookup ref.segmentID with
    | none => .error .notFound
    | some content =>
      if off.toNat > content.length then .error .invalidRange
      else .ok
        { content := if length = 0 then content.drop off.toNat
            else (content.drop off.toNat).take length.toNat }
  putSegment req g :=
    let segmentID := "c" ++ toString g.length
    if g.lookup segmentID ≠ none then (.error (.other "segment exists"), g)
    else if req.reader.length ≠ req.sizeBytes.toNat then
      (.error (.invalidArgument "size mismatch"), g)
    else
      (.ok { segmentID := segmentID, storageClass := req.storageClass, sizeBytes := req.sizeBytes,
             placement := { parameters := [("volume_id", volumeID)] } },
        (segmentID, req.reader) :: g)

def inMemory (g : List (String × List UInt8)) (ref : SegmentRef) (bytes : List UInt8) : Prop :=
  g.lookup ref.segmentID = some bytes ∧ bytes.length = ref.sizeBytes.toNat

/-- A write of the memory store that succeeds. -/
theorem memoryStore_put {volumeID : String} {req : PutSegmentRequest}
    {g g' : List (String × List UInt8)} {ref : SegmentRef}
    (ran : (memoryStore volumeID).putSegment req g = (.ok ref, g')) :
    g.lookup ref.segmentID = none ∧ req.reader.length = ref.sizeBytes.toNat ∧
      ref.encryption = {} ∧ g' = (ref.segmentID, req.reader) :: g := by
  simp only [memoryStore] at ran
  split at ran
  · cases ran
  · next unused =>
    split at ran
    · cases ran
    · next size =>
      cases ran
      exact ⟨not_not.mp unused, not_not.mp size, rfl, rfl⟩

theorem memoryStore_readsBack (volumeID : String) : ReadsBack (memoryStore volumeID) inMemory where
  read {g ref bytes off length} held inside := by
    have begins : ¬ off.toNat > bytes.length := by omega
    simp [memoryStore, held.1, begins, Except.map]
  sized held := held.2
  put ran := by
    obtain ⟨-, size, -, rfl⟩ := memoryStore_put ran
    exact ⟨by simp, size⟩
  unwrapped ran := (memoryStore_put ran).2.2.1
  kept {g g' req answer ref bytes} ran held := by
    cases answer with
    | error e =>
      have same : g' = g := by
        simp only [memoryStore] at ran
        split at ran
        · cases ran; rfl
        · split at ran <;> cases ran
          rfl
      exact same ▸ held
    | ok new =>
      obtain ⟨unused, -, -, rfl⟩ := memoryStore_put ran
      have other : (ref.segmentID == new.segmentID) = false := by
        refine beq_eq_false_iff_ne.mpr fun same => ?_
        cases (same ▸ unused).symm.trans held.1
      exact ⟨by simpa [List.lookup_cons, other] using held.1, held.2⟩

/-- Three stored bytes, the last two of which are what was encrypted. -/
def sealed (segmentID volumeID : String) : SegmentRef :=
  { placed segmentID volumeID with
    sizeBytes := 3
    encryption := { algorithm := "AES256-GCM", plaintextSizeBytes := 2 } }

def unwrap : DecryptSegment := fun _ ciphertext => .ok { content := ciphertext.drop 1 }

/-- A version with the given segments. -/
def versionOf (refs : List SegmentRef) : List (CallContext × ObjectCall) :=
  [(numberedContext 1 1, .createBucket { tenantID := "t", name := "b", region := "r" }),
   (numberedContext 2 2, .putObjectVersion
     { bucketID := "bkt_1", key := "k", sizeBytes := 2, segmentRefs := refs })]

def twoSegments : List (String × List UInt8) := [("s1", [1, 2, 3]), ("s2", [4, 5, 6])]

def drainContexts (n : Nat) : CallContext := numberedContext (3 + n) 3

/-- The drain of `v1`. -/
def drained (refs : List SegmentRef) : MoveOutcome (List (String × List UInt8)) :=
  moveObjectVersion (memoryStore "v3") plainPlatform drainContexts
    (drainFrom "v1" "v3") (runCalls plainPlatform (versionOf refs) ∅) twoSegments

/-- A plaintext segment on `v1` and an encrypted one on `v2`. -/
def mixedSegments : List SegmentRef :=
  [{ placed "s1" "v1" with sizeBytes := 3 }, sealed "s2" "v2"]

/-- The plaintext segment moves, the encrypted one stays. -/
theorem drained_plaintext_reads_the_same :
    Succeeded (drained mixedSegments).call ∧
      ContentKept (memoryStore "v3") (some unwrap) (drainFrom "v1" "v3")
        (runCalls plainPlatform (versionOf mixedSegments) ∅) twoSegments
        (drained mixedSegments) := by
  have manifest : manifestOf (runCalls plainPlatform (versionOf mixedSegments) ∅)
      (drainFrom "v1" "v3") = mixedSegments := by decide +kernel
  have present : Present inMemory (runCalls plainPlatform (versionOf mixedSegments) ∅)
      (drainFrom "v1" "v3") twoSegments := by
    rw [Present, manifest]
    simp only [mixedSegments, List.forall_mem_cons, List.not_mem_nil, false_imp_iff,
      implies_true, and_true]
    exact ⟨⟨[1, 2, 3], by decide +kernel, rfl⟩, [4, 5, 6], by decide +kernel, rfl⟩
  have movable : Movable (memoryStore "v3") (drainFrom "v1" "v3")
      (runCalls plainPlatform (versionOf mixedSegments) ∅) twoSegments := by
    refine ⟨?_, fun _ _ _ => by decide, fun free => absurd free (by decide)⟩
    decide +kernel
  have kept := drain_keeps_content_iff (memoryStore "v3") inMemory
    (memoryStore_readsBack "v3") (some unwrap) plainPlatform (versionOf mixedSegments)
    (by decide +kernel) drainContexts (drainFrom "v1" "v3") twoSegments present
    (by decide +kernel)
  exact ⟨by decide +kernel, kept.mpr movable⟩

/-- One encrypted segment, on `v1`. -/
def sealedSegments : List SegmentRef := [sealed "s1" "v1"]

/-- The drain copies the ciphertext under a reference without an envelope. -/
theorem drained_ciphertext_is_served :
    ReadsBack (memoryStore "v3") inMemory ∧ NeverRepeats (versionOf sealedSegments) ∧
      Present inMemory (runCalls plainPlatform (versionOf sealedSegments) ∅)
        (drainFrom "v1" "v3") twoSegments ∧
      Succeeded (drained sealedSegments).call ∧
      servedRange (memoryStore "v3") (some unwrap) "bkt_1" "k" "ver_2" 0 2
        (runCalls plainPlatform (versionOf sealedSegments) ∅) twoSegments = .ok [2, 3] ∧
      servedRange (memoryStore "v3") (some unwrap) "bkt_1" "k" "ver_2" 0 2
        (drained sealedSegments).store (drained sealedSegments).segments = .ok [1, 2] ∧
      ¬ ContentKept (memoryStore "v3") (some unwrap) (drainFrom "v1" "v3")
        (runCalls plainPlatform (versionOf sealedSegments) ∅) twoSegments
        (drained sealedSegments) := by
  have manifest : manifestOf (runCalls plainPlatform (versionOf sealedSegments) ∅)
      (drainFrom "v1" "v3") = sealedSegments := by decide +kernel
  have before : servedRange (memoryStore "v3") (some unwrap) "bkt_1" "k" "ver_2" 0 2
      (runCalls plainPlatform (versionOf sealedSegments) ∅) twoSegments = .ok [2, 3] := by
    decide +kernel
  have after : servedRange (memoryStore "v3") (some unwrap) "bkt_1" "k" "ver_2" 0 2
      (drained sealedSegments).store (drained sealedSegments).segments = .ok [1, 2] := by
    decide +kernel
  refine ⟨memoryStore_readsBack "v3", by decide +kernel, ?_, by decide +kernel, before, after,
    fun kept => ?_⟩
  · rw [Present, manifest]
    simp only [sealedSegments, List.forall_mem_singleton]
    exact ⟨[1, 2, 3], by decide +kernel, rfl⟩
  · have same := kept.bytes 0 2
    exact absurd (after.symm.trans (same.trans before)) (by decide)

end Namros.Guarantees
