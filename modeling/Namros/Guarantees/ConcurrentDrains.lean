import Namros.Guarantees.IndexInvariant
import Namros.Index.Drains

/-!
# Drains of one version from several volumes

Any number of `MoveObjectVersion` calls interleave. Each reads a manifest, copies the segments
of its source volume one by one and publishes a whole manifest; the publish only checks that
the stored manifest still has a segment on the source volume. A publish over a manifest that
another call replaced in between brings back what that call had moved away. In runs without
such a publish, and whose copies land on none of the drained volumes, a version is off every
drained volume once its calls have succeeded. A manifest never holds anything but what it held
before and what successful publishes copied.
-/

namespace Namros.Guarantees

open Library Source Index

/-! ## What is guaranteed, and in which runs -/

/-- No segment of a manifest is on the volume. -/
def OffVolume (volumeID : String) (manifest : Option (List SegmentRef)) : Prop :=
  ∀ refs, manifest = some refs → ∀ ref ∈ refs, segmentRefVolumeID ref ≠ volumeID

/-- The call returned without an error. -/
def Succeeded : MoveCall → Prop
  | .returned _ _ _ err => err = none
  | _ => False

instance (call : MoveCall) : Decidable (Succeeded call) := by
  cases call <;> dsimp only [Succeeded] <;> infer_instance

/-- The segments a call has copied so far. -/
def copies (draft : OperationDraft) : List SegmentRef :=
  (draft.attempts.filter fun attempt => attempt.status == volumeDrainAttemptCopied).map
    VolumeDrainAttempt.targetRef

/-- The segments copied by a call whose publish succeeded. -/
def publishedCopies : MoveCall → List SegmentRef
  | .recording (some _) draft _ _ | .returned (some _) draft _ _ => copies draft
  | _ => []

/-- Once every call on the version has succeeded, its manifest is off their source volumes. -/
def Drained (b k id : String) (sys : DrainSystem) : Prop :=
  (∀ c ∈ sys.calls, Targets c.1 b k id → Succeeded c.2) →
    ∀ c ∈ sys.calls, Targets c.1 b k id →
      OffVolume c.1.sourceVolumeID (versionSegments sys.store b k id)

/-- An original segment, or one copied by a call on the version whose publish succeeded. -/
def Accounted (b k id : String) (original : Option (List SegmentRef))
    (calls : List (MoveObjectVersionRequest × MoveCall)) (ref : SegmentRef) : Prop :=
  (∃ refs, original = some refs ∧ ref ∈ refs) ∨
    ∃ c ∈ calls, Targets c.1 b k id ∧ ref ∈ publishedCopies c.2

/-- Every segment of the manifest is accounted for. -/
def AccountedFor (b k id : String) (original : Option (List SegmentRef)) (sys : DrainSystem) :
    Prop :=
  ∀ refs, versionSegments sys.store b k id = some refs → ∀ ref ∈ refs,
    Accounted b k id original sys.calls ref

/-- A call that is about to publish finds the manifest it read. -/
def PublishesOverRead (s : Store) : Option (MoveObjectVersionRequest × MoveCall) → Prop
  | some (req, .copying [] progress) =>
    progress.draft.retryable ≤ 0 → progress.draft.copied ≠ 0 →
      versionSegments s req.bucketID req.key req.versionID = some progress.version.allSegmentRefs
  | _ => True

/-- A copy that passes the call's own check of its target volume is on no volume the version is
drained from. -/
def PlacedOff (calls : List (MoveObjectVersionRequest × MoveCall)) :
    Option (MoveObjectVersionRequest × MoveCall) → Except String SegmentRef → Prop
  | some (req, _), .ok ref =>
    (req.targetVolumeID = "" ∨ segmentRefVolumeID ref = req.targetVolumeID) →
      ∀ c ∈ calls, Targets c.1 req.bucketID req.key req.versionID →
        segmentRefVolumeID ref ≠ c.1.sourceVolumeID
  | _, _ => True

/-- No publish comes over another one, and no copy lands on a drained volume. -/
def Uncrossed (sys : DrainSystem) : DrainEvent → Prop
  | .serve index _ => PublishesOverRead sys.store sys.calls[index]?
  | .copied index answer => PlacedOff sys.calls sys.calls[index]? answer

/-- Every step of the run is uncrossed. -/
def RunUncrossed (platform : Platform) : DrainSystem → List DrainEvent → Prop
  | _, [] => True
  | sys, event :: events =>
    Uncrossed sys event ∧ RunUncrossed platform (sys.step platform event) events

/-! ## One call -/

variable {ref : SegmentRef} {rest : List SegmentRef} {progress : MoveProgress} {b k id : String}

section

variable {req : MoveObjectVersionRequest} {M M' : Manifests} {call next : MoveCall}

/-- What the loop of a call knows: a manifest without a segment on the source volume stays so,
what the call will publish is off the source volume or off all drained ones, and a segment on
the source volume is still ahead or was counted. -/
structure CopyLoop (req : MoveObjectVersionRequest) (drained : Set String)
    (manifest : Option (List SegmentRef)) (remaining : List SegmentRef) (progress : MoveProgress) :
    Prop where
  clean : (∀ ref ∈ progress.version.allSegmentRefs, segmentRefVolumeID ref ≠ req.sourceVolumeID) →
    OffVolume req.sourceVolumeID manifest
  kept : ∀ ref ∈ progress.replacementRefs,
    (ref ∈ progress.version.allSegmentRefs ∧ segmentRefVolumeID ref ≠ req.sourceVolumeID) ∨
      segmentRefVolumeID ref ∉ drained
  ahead : ∀ ref ∈ progress.version.allSegmentRefs, segmentRefVolumeID ref = req.sourceVolumeID →
    ref ∈ remaining ∨ 0 < progress.draft.copied ∨ 0 < progress.draft.retryable
  inside : remaining ⊆ progress.version.allSegmentRefs
  copied : 0 ≤ progress.draft.copied
  retryable : 0 ≤ progress.draft.retryable

/-- The invariant of a call on a version with this manifest. -/
def Cleared (req : MoveObjectVersionRequest) (drained : Set String)
    (manifest : Option (List SegmentRef)) : MoveCall → Prop
  | .start => True
  | .copying remaining progress => CopyLoop req drained manifest remaining progress
  | .recording _ _ _ err | .returned _ _ _ err =>
    err = none → OffVolume req.sourceVolumeID manifest

variable {drained : Set String} {manifest manifest' : Option (List SegmentRef)}

/-- A change that adds nothing on drained volumes. -/
def Shrinks (drained : Set String) (manifest manifest' : Option (List SegmentRef)) : Prop :=
  ∀ volumeID ∈ drained, OffVolume volumeID manifest → OffVolume volumeID manifest'

/-- The invariant of a call outlives the publishes of others. -/
theorem Cleared.of_shrinks (cleared : Cleared req drained manifest call)
    (source : req.sourceVolumeID ∈ drained) (shrinks : Shrinks drained manifest manifest') :
    Cleared req drained manifest' call := by
  cases call with
  | start => trivial
  | copying remaining progress =>
    exact { cleared with clean := fun off => shrinks _ source (cleared.clean off) }
  | recording published draft result err => exact fun ok => shrinks _ source (cleared ok)
  | returned published draft result err => exact fun ok => shrinks _ source (cleared ok)

/-- Passing over a segment that is elsewhere. -/
theorem CopyLoop.skip (loop : CopyLoop req drained manifest (ref :: rest) progress)
    (off : segmentRefVolumeID ref ≠ req.sourceVolumeID) :
    CopyLoop req drained manifest rest (progress.skip req ref) where
  clean := loop.clean
  kept := by
    intro other member
    rcases List.mem_append.mp member with before | last
    · exact loop.kept other before
    · obtain rfl : other = ref := by simpa using last
      exact .inl ⟨loop.inside (by simp), off⟩
  ahead := by
    intro other member here
    rcases loop.ahead other member here with waiting | counted
    · rcases List.mem_cons.mp waiting with rfl | later
      · exact absurd here off
      · exact .inl later
    · exact .inr counted
  inside := fun other later => loop.inside (List.mem_cons_of_mem _ later)
  copied := loop.copied
  retryable := loop.retryable

/-- A copy is counted, as copied or as retryable, and goes into the manifest only when it is
where it should be. -/
theorem CopyLoop.copy {answer : Except String SegmentRef}
    (loop : CopyLoop req drained manifest (ref :: rest) progress)
    (placed : ∀ copied, answer = .ok copied →
      (req.targetVolumeID = "" ∨ segmentRefVolumeID copied = req.targetVolumeID) →
        segmentRefVolumeID copied ∉ drained) :
    CopyLoop req drained manifest rest (progress.copy req ref answer) := by
  have inside : rest ⊆ progress.version.allSegmentRefs :=
    fun other later => loop.inside (List.mem_cons_of_mem _ later)
  have copied := loop.copied
  have retryable := loop.retryable
  cases answer with
  | error text =>
    refine ⟨loop.clean, loop.kept, fun _ _ _ => .inr (.inr ?_), inside, copied, ?_⟩ <;>
      simp only [MoveProgress.copy, MoveProgress.retry] <;> omega
  | ok copiedRef =>
    by_cases elsewhere : req.targetVolumeID ≠ "" ∧ segmentRefVolumeID copiedRef ≠ req.targetVolumeID
    · refine ⟨?_, ?_, ?_, ?_, ?_, ?_⟩ <;>
        simp only [MoveProgress.copy, if_pos elsewhere, MoveProgress.retry]
      · exact loop.clean
      · exact loop.kept
      · exact fun _ _ _ => .inr (.inr (by omega))
      · exact inside
      · exact copied
      · omega
    · have right : req.targetVolumeID = "" ∨ segmentRefVolumeID copiedRef = req.targetVolumeID := by
        by_contra neither
        exact elsewhere (not_or.mp neither)
      refine ⟨?_, ?_, ?_, ?_, ?_, ?_⟩ <;> simp only [MoveProgress.copy, if_neg elsewhere]
      · exact loop.clean
      · intro other member
        rcases List.mem_append.mp member with before | last
        · exact loop.kept other before
        · obtain rfl : other = copiedRef := by simpa using last
          exact .inr (placed other rfl right)
      · exact fun _ _ _ => .inr (.inl (by omega))
      · exact inside
      · omega
      · exact retryable

/-- One served step of a call on the version: its invariant holds afterwards, and the manifest
gains nothing on drained volumes. -/
theorem Cleared.serve (target : Targets req b k id) (source : req.sourceVolumeID ∈ drained)
    (cleared : Cleared req drained (M b k id) call)
    (uncrossed : ∀ progress, call = .copying [] progress → progress.draft.retryable ≤ 0 →
      progress.draft.copied ≠ 0 → M b k id = some progress.version.allSegmentRefs)
    (step : ServeStep req M call M' next) :
    Cleared req drained (M' b k id) next ∧ Shrinks drained (M b k id) (M' b k id) := by
  have unchanged : Shrinks drained (M b k id) (M b k id) := fun _ _ off => off
  obtain ⟨rfl, rfl, rfl⟩ := target
  cases step with
  | waits => exact ⟨cleared, unchanged⟩
  | refused e => exact ⟨(fun failed => nomatch failed), unchanged⟩
  | empty read =>
    refine ⟨fun _ refs stored ref member => ?_, unchanged⟩
    rw [read] at stored
    cases stored
    cases member
  | read read fresh =>
    refine ⟨⟨fun off refs stored ref member => ?_, (fun ref none => nomatch none),
      fun ref member _ => .inl member, List.Subset.refl _, ?_, ?_⟩, unchanged⟩
    · rw [read] at stored
      cases stored
      exact off ref member
    · exact fresh.1.ge
    · exact fresh.2.1.ge
  | skips off => exact ⟨CopyLoop.skip cleared off, unchanged⟩
  | givesUp => exact ⟨(fun failed => nomatch failed), unchanged⟩
  | @nothing progress _ _ uncopied =>
    refine ⟨fun _ => CopyLoop.clean cleared fun ref member here => ?_, unchanged⟩
    rcases CopyLoop.ahead cleared ref member here with ahead | copied | retryable
    · cases ahead
    · omega
    · omega
  | @publishes progress _ _ _ _ copied _ replaced =>
    have read := uncrossed progress rfl copied.1 copied.2
    rw [replaced, if_pos ⟨rfl, rfl, rfl⟩]
    constructor
    · intro _ refs stored ref member
      cases stored
      rcases CopyLoop.kept cleared ref member with ⟨-, off⟩ | undrained
      · exact off
      · exact fun here => undrained (here ▸ source)
    · intro volumeID onList off refs stored ref member
      cases stored
      rcases CopyLoop.kept cleared ref member with ⟨before, -⟩ | undrained
      · exact off _ read ref before
      · exact fun here => undrained (here ▸ onList)
  | records succeeded => exact ⟨fun ok => cleared (succeeded ok), unchanged⟩

/-- The answer to a copy. -/
theorem Cleared.answer (cleared : Cleared req drained manifest call)
    {copied : Except String SegmentRef}
    (placed : ∀ ref, copied = .ok ref →
      (req.targetVolumeID = "" ∨ segmentRefVolumeID ref = req.targetVolumeID) →
        segmentRefVolumeID ref ∉ drained) :
    Cleared req drained manifest (call.answer req copied) := by
  cases call with
  | copying remaining progress =>
    cases remaining with
    | nil => exact cleared
    | cons ref rest =>
      simp only [MoveCall.answer]
      split
      · exact cleared
      · exact CopyLoop.copy cleared placed
  | _ => exact cleared

end

/-! ## All calls -/

variable {index : Nat} {req : MoveObjectVersionRequest} {call next : MoveCall} {s : Store}

section

variable {platform : Platform} {U : Set String} {sys : DrainSystem} {b k id : String}

/-- The volumes a version is drained from. -/
def drainedVolumes (b k id : String) (sys : DrainSystem) : Set String :=
  { volumeID | ∃ c ∈ sys.calls, Targets c.1 b k id ∧ c.1.sourceVolumeID = volumeID }

/-- The invariant of a run: the index is consistent and every call on the version is cleared. -/
structure DrainsCleared (U : Set String) (b k id : String) (sys : DrainSystem) : Prop where
  consistent : Consistent U (objectIndex sys.store)
  cleared : ∀ c ∈ sys.calls, Targets c.1 b k id →
    Cleared c.1 (drainedVolumes b k id sys) (versionSegments sys.store b k id) c.2

/-- Replacing a call by its next state changes no request. -/
theorem drainedVolumes_set {store : Store} (found : sys.calls[index]? = some (req, call)) :
    drainedVolumes b k id { store := store, calls := sys.calls.set index (req, next) } =
      drainedVolumes b k id sys := by
  have requests : (sys.calls.set index (req, next)).map Prod.fst = sys.calls.map Prod.fst := by
    refine List.ext_getElem? fun i => ?_
    by_cases same : index = i
    · subst same
      obtain ⟨inside, here⟩ := List.getElem?_eq_some_iff.mp found
      simp [inside, here]
    · simp [List.getElem?_set_ne same]
  have volumes : ∀ calls : List (MoveObjectVersionRequest × MoveCall),
      { volumeID | ∃ c ∈ calls, Targets c.1 b k id ∧ c.1.sourceVolumeID = volumeID } =
        { volumeID | ∃ r ∈ calls.map Prod.fst, Targets r b k id ∧ r.sourceVolumeID = volumeID } := by
    intro calls
    ext volumeID
    simp
  rw [drainedVolumes, drainedVolumes, volumes, volumes, requests]

theorem DrainsCleared.step (inv : DrainsCleared U b k id sys) {event : DrainEvent}
    (uncrossed : Uncrossed sys event) : DrainsCleared U b k id (sys.step platform event) := by
  cases event with
  | serve index context =>
    cases found : sys.calls[index]? with
    | none => simpa only [DrainSystem.step, found] using inv
    | some c =>
      obtain ⟨req, call⟩ := c
      have member : (req, call) ∈ sys.calls := List.mem_of_getElem? found
      obtain ⟨consistent, step⟩ :
          Consistent U (objectIndex (call.serve platform context req sys.store).1) ∧ _ :=
        serve_step inv.consistent req call
      simp only [DrainSystem.step, found]
      refine ⟨consistent, fun c present target => ?_⟩
      rw [drainedVolumes_set found]
      by_cases here : Targets req b k id
      · have source : req.sourceVolumeID ∈ drainedVolumes b k id sys := ⟨_, member, here, rfl⟩
        have read : ∀ progress, call = .copying [] progress → progress.draft.retryable ≤ 0 →
            progress.draft.copied ≠ 0 →
              versionSegments sys.store b k id = some progress.version.allSegmentRefs := by
          obtain ⟨rfl, rfl, rfl⟩ := here
          rintro progress rfl
          have publishes : PublishesOverRead sys.store sys.calls[index]? := uncrossed
          rwa [found] at publishes
        obtain ⟨cleared, shrinks⟩ := (inv.cleared _ member here).serve here source read step
        rcases List.mem_or_eq_of_mem_set present with other | rfl
        · exact (inv.cleared c other target).of_shrinks ⟨c, other, target, rfl⟩ shrinks
        · exact cleared
      · rw [step.elsewhere here]
        rcases List.mem_or_eq_of_mem_set present with other | rfl
        · exact inv.cleared c other target
        · exact absurd target here
  | copied index answer =>
    cases found : sys.calls[index]? with
    | none => simpa only [DrainSystem.step, found] using inv
    | some c =>
      obtain ⟨req, call⟩ := c
      have member : (req, call) ∈ sys.calls := List.mem_of_getElem? found
      simp only [DrainSystem.step, found]
      refine ⟨inv.consistent, fun c present target => ?_⟩
      rw [drainedVolumes_set found]
      rcases List.mem_or_eq_of_mem_set present with other | rfl
      · exact inv.cleared c other target
      refine (inv.cleared _ member target).answer fun ref answered right drained => ?_
      obtain ⟨c, other, target', onVolume⟩ := drained
      obtain ⟨rfl, rfl, rfl⟩ := target
      have placed : PlacedOff sys.calls sys.calls[index]? answer := uncrossed
      rw [found, answered] at placed
      exact placed right c other target' onVolume.symm

/-- A run of uncrossed steps. -/
theorem DrainsCleared.run {events : List DrainEvent} (inv : DrainsCleared U b k id sys)
    (uncrossed : RunUncrossed platform sys events) :
    DrainsCleared U b k id (sys.run platform events) := by
  induction events generalizing sys with
  | nil => exact inv
  | cons event events ih => exact ih (inv.step uncrossed.1) uncrossed.2

theorem DrainsCleared.begin (consistent : Consistent U (objectIndex s))
    (reqs : List MoveObjectVersionRequest) : DrainsCleared U b k id (.begin s reqs) := by
  refine ⟨consistent, fun c present _ => ?_⟩
  obtain ⟨req, -, rfl⟩ := List.mem_map.mp present
  trivial

theorem DrainsCleared.drained (inv : DrainsCleared U b k id sys) : Drained b k id sys := by
  intro succeeded c present target
  have returned := succeeded c present target
  have cleared := inv.cleared c present target
  obtain ⟨req, call⟩ := c
  cases call with
  | returned published draft result err => exact cleared returned
  | _ => exact False.elim returned

end

/-! ## Where the segments of a manifest come from -/

section

variable {req : MoveObjectVersionRequest} {M M' : Manifests} {call next : MoveCall}
  {allowed : SegmentRef → Prop}

@[simp] theorem copies_skip (progress : MoveProgress) (ref : SegmentRef) :
    copies (progress.skip req ref).draft = copies progress.draft := by
  simp [copies, MoveProgress.skip, volumeDrainAttemptSkipped, volumeDrainAttemptCopied]

/-- The manifest a call read is allowed, and what it will publish is allowed or its own copy. -/
def Sourced (allowed : SegmentRef → Prop) : MoveCall → Prop
  | .copying remaining progress =>
    (∀ ref ∈ progress.version.allSegmentRefs, allowed ref) ∧
      remaining ⊆ progress.version.allSegmentRefs ∧
      ∀ ref ∈ progress.replacementRefs, allowed ref ∨ ref ∈ copies progress.draft
  | _ => True

theorem Sourced.mono {allowed' : SegmentRef → Prop} (sourced : Sourced allowed call)
    (grows : ∀ ref, allowed ref → allowed' ref) : Sourced allowed' call := by
  cases call with
  | copying remaining progress =>
    obtain ⟨read, inside, published⟩ := sourced
    exact ⟨fun ref member => grows ref (read ref member), inside,
      fun ref member => (published ref member).imp_left (grows ref)⟩
  | _ => trivial

/-- A served step: the call keeps what it published, and the manifest holds allowed segments and
published copies. -/
theorem Sourced.serve (sourced : Sourced allowed call) (target : Targets req b k id)
    (manifest : ∀ refs, M b k id = some refs → ∀ ref ∈ refs, allowed ref)
    (step : ServeStep req M call M' next) :
    Sourced allowed next ∧ publishedCopies call ⊆ publishedCopies next ∧
      ∀ refs, M' b k id = some refs → ∀ ref ∈ refs, allowed ref ∨ ref ∈ publishedCopies next := by
  have unchanged : ∀ refs, M b k id = some refs → ∀ ref ∈ refs,
      allowed ref ∨ ref ∈ publishedCopies next :=
    fun refs stored ref member => .inl (manifest refs stored ref member)
  cases step with
  | waits => exact ⟨sourced, List.Subset.refl _, unchanged⟩
  | refused | empty | givesUp | nothing => exact ⟨trivial, List.nil_subset _, unchanged⟩
  | @read version draft read fresh =>
    obtain ⟨rfl, rfl, rfl⟩ := target
    refine ⟨⟨manifest _ read, List.Subset.refl _, ?_⟩, List.nil_subset _, unchanged⟩
    intro ref none
    cases none
  | @skips ref rest progress off =>
    obtain ⟨read, inside, published⟩ := sourced
    refine ⟨⟨read, fun other later => inside (List.mem_cons_of_mem _ later), ?_⟩,
      List.nil_subset _, unchanged⟩
    intro other member
    rcases List.mem_append.mp member with before | last
    · simpa using published other before
    · obtain rfl : other = ref := by simpa using last
      exact .inl (read other (inside (by simp)))
  | @publishes progress draft _ _ _ copied attempts replaced =>
    refine ⟨trivial, List.nil_subset _, fun refs stored ref member => ?_⟩
    rw [replaced, if_pos target] at stored
    cases stored
    have same : copies draft = copies progress.draft := by rw [copies, attempts, copies]
    simpa [publishedCopies, same] using sourced.2.2 ref member
  | @records published draft result result' err err' succeeded =>
    refine ⟨trivial, ?_, unchanged⟩
    cases published <;> exact List.Subset.refl _

theorem Sourced.answer (sourced : Sourced allowed call) (copied : Except String SegmentRef) :
    Sourced allowed (call.answer req copied) := by
  cases call with
  | copying remaining progress =>
    cases remaining with
    | nil => exact sourced
    | cons ref rest =>
      obtain ⟨read, inside, published⟩ := sourced
      have inside' : rest ⊆ progress.version.allSegmentRefs :=
        fun other later => inside (List.mem_cons_of_mem _ later)
      simp only [MoveCall.answer]
      split
      · exact ⟨read, inside, published⟩
      cases copied with
      | error text => exact ⟨read, inside', by simpa [MoveProgress.copy, MoveProgress.retry,
          copies, volumeDrainAttemptRetryable, volumeDrainAttemptCopied] using published⟩
      | ok copiedRef =>
        simp only [MoveProgress.copy]
        split
        · exact ⟨read, inside', by simpa [MoveProgress.retry, copies,
            volumeDrainAttemptRetryable, volumeDrainAttemptCopied] using published⟩
        refine ⟨read, inside', fun other member => ?_⟩
        simp only [copies, List.filter_append, List.map_append, List.mem_append]
        rcases List.mem_append.mp member with before | last
        · exact (published other before).imp_right .inl
        · obtain rfl : other = copiedRef := by simpa using last
          exact .inr (.inr (by simp))
  | _ => exact sourced

end

section

variable {platform : Platform} {U : Set String} {sys : DrainSystem} {b k id : String}
  {original : Option (List SegmentRef)}

/-- What is accounted for stays so when a call moves on. -/
theorem Accounted.set {calls : List (MoveObjectVersionRequest × MoveCall)}
    (found : calls[index]? = some (req, call))
    (grows : Targets req b k id → publishedCopies call ⊆ publishedCopies next)
    (accounted : Accounted b k id original calls ref) :
    Accounted b k id original (calls.set index (req, next)) ref := by
  obtain ⟨inside, -⟩ := List.getElem?_eq_some_iff.mp found
  refine accounted.imp_right ?_
  rintro ⟨c, present, target, copied⟩
  obtain ⟨i, here⟩ := List.mem_iff_getElem?.mp present
  by_cases same : index = i
  · subst same
    cases found.symm.trans here
    exact ⟨(req, next), List.mem_set inside _, target, grows target copied⟩
  · exact ⟨c, List.mem_of_getElem? ((List.getElem?_set_ne same).trans here), target, copied⟩

/-- The invariant of every run: the manifest, and what the calls on the version read and will
publish, are accounted for. -/
structure DrainsAccounted (U : Set String) (b k id : String) (original : Option (List SegmentRef))
    (sys : DrainSystem) : Prop where
  consistent : Consistent U (objectIndex sys.store)
  manifest : AccountedFor b k id original sys
  sourced : ∀ c ∈ sys.calls, Targets c.1 b k id →
    Sourced (Accounted b k id original sys.calls) c.2

theorem DrainsAccounted.step (inv : DrainsAccounted U b k id original sys) (event : DrainEvent) :
    DrainsAccounted U b k id original (sys.step platform event) := by
  cases event with
  | serve index context =>
    cases found : sys.calls[index]? with
    | none => simpa only [DrainSystem.step, found] using inv
    | some c =>
      obtain ⟨req, call⟩ := c
      have member : (req, call) ∈ sys.calls := List.mem_of_getElem? found
      obtain ⟨inside, -⟩ := List.getElem?_eq_some_iff.mp found
      obtain ⟨consistent, step⟩ :
          Consistent U (objectIndex (call.serve platform context req sys.store).1) ∧ _ :=
        serve_step inv.consistent req call
      simp only [DrainSystem.step, found]
      by_cases here : Targets req b k id
      · obtain ⟨sourced, grows, manifest⟩ :=
          (inv.sourced _ member here).serve here inv.manifest step
        refine ⟨consistent, fun refs stored ref held => ?_, fun c present target => ?_⟩
        · rcases manifest refs stored ref held with accounted | copied
          · exact accounted.set found fun _ => grows
          · exact .inr ⟨(req, _), List.mem_set inside _, here, copied⟩
        have kept : Sourced (Accounted b k id original sys.calls) c.2 := by
          rcases List.mem_or_eq_of_mem_set present with other | rfl
          · exact inv.sourced c other target
          · exact sourced
        exact kept.mono fun ref accounted => accounted.set found fun _ => grows
      · have accounts : ∀ ref, Accounted b k id original sys.calls ref → Accounted b k id original
            (sys.calls.set index (req, (call.serve platform context req sys.store).2)) ref :=
          fun ref accounted => accounted.set found fun target => absurd target here
        refine ⟨consistent, fun refs stored ref held => ?_, fun c present target => ?_⟩
        · rw [step.elsewhere here] at stored
          exact accounts ref (inv.manifest refs stored ref held)
        · rcases List.mem_or_eq_of_mem_set present with other | rfl
          · exact (inv.sourced c other target).mono accounts
          · exact absurd target here
  | copied index answer =>
    cases found : sys.calls[index]? with
    | none => simpa only [DrainSystem.step, found] using inv
    | some c =>
      obtain ⟨req, call⟩ := c
      have member : (req, call) ∈ sys.calls := List.mem_of_getElem? found
      have grows : publishedCopies call ⊆ publishedCopies (call.answer req answer) := by
        cases call with
        | copying remaining progress => exact List.nil_subset _
        | _ => exact List.Subset.refl _
      simp only [DrainSystem.step, found]
      refine ⟨inv.consistent, fun refs stored ref held =>
        (inv.manifest refs stored ref held).set found fun _ => grows, fun c present target => ?_⟩
      have kept : Sourced (Accounted b k id original sys.calls) c.2 := by
        rcases List.mem_or_eq_of_mem_set present with other | rfl
        · exact inv.sourced c other target
        · exact (inv.sourced _ member target).answer answer
      exact kept.mono fun ref accounted => accounted.set found fun _ => grows

theorem DrainsAccounted.run (inv : DrainsAccounted U b k id original sys)
    (events : List DrainEvent) : DrainsAccounted U b k id original (sys.run platform events) := by
  induction events generalizing sys with
  | nil => exact inv
  | cons event events ih => exact ih (inv.step event)

theorem DrainsAccounted.begin (consistent : Consistent U (objectIndex s))
    (reqs : List MoveObjectVersionRequest) :
    DrainsAccounted U b k id (versionSegments s b k id) (.begin s reqs) := by
  refine ⟨consistent, fun refs stored ref held => .inl ⟨refs, stored, held⟩,
    fun c present _ => ?_⟩
  obtain ⟨req, -, rfl⟩ := List.mem_map.mp present
  trivial

end

/-- In every store that object calls lead to and for every interleaving of drains: a version is
off the drained volumes once its drains have succeeded, if no publish was disturbed; and its
segments are original ones or copies of successful publishes in any case. -/
theorem concurrent_drains (platform : Platform) (calls : List (CallContext × ObjectCall))
    (fresh : NeverRepeats calls) (reqs : List MoveObjectVersionRequest)
    (events : List DrainEvent) (b k id : String) :
    (RunUncrossed platform (.begin (runCalls platform calls ∅) reqs) events →
      Drained b k id ((DrainSystem.begin (runCalls platform calls ∅) reqs).run platform events)) ∧
    AccountedFor b k id (versionSegments (runCalls platform calls ∅) b k id)
      ((DrainSystem.begin (runCalls platform calls ∅) reqs).run platform events) := by
  have start : Consistent (∅ : Set String) (objectIndex (∅ : Store)) := Consistent.empty
  have reached : ∃ V, Consistent V (objectIndex (runCalls platform calls ∅)) :=
    runCalls_consistent start fresh fun _ _ _ _ issued => issued
  obtain ⟨V, consistent⟩ := reached
  constructor
  · intro uncrossed
    exact ((DrainsCleared.begin consistent reqs).run uncrossed).drained
  · exact ((DrainsAccounted.begin consistent reqs).run events).manifest

/-! ## Two drains -/

instance (volumeID : String) (manifest : Option (List SegmentRef)) :
    Decidable (OffVolume volumeID manifest) :=
  decidable_of_iff (∀ ref ∈ manifest.getD [], segmentRefVolumeID ref ≠ volumeID)
    (by cases manifest <;> simp [OffVolume])

deriving instance Decidable for Drained

instance (s : Store) : DecidablePred (PublishesOverRead s)
  | some (_, .copying [] _) => inferInstanceAs (Decidable (_ → _ → _))
  | none | some (_, .start) | some (_, .copying (_ :: _) _) | some (_, .recording _ _ _ _)
  | some (_, .returned _ _ _ _) => inferInstanceAs (Decidable True)

instance (calls : List (MoveObjectVersionRequest × MoveCall)) : DecidableRel (PlacedOff calls)
  | some (_, _), .ok _ => inferInstanceAs (Decidable (_ → _))
  | none, .ok _ | none, .error _ | some (_, _), .error _ => inferInstanceAs (Decidable True)

instance (sys : DrainSystem) (event : DrainEvent) : Decidable (Uncrossed sys event) := by
  cases event <;> dsimp only [Uncrossed] <;> infer_instance

instance decidableRunUncrossed (platform : Platform) :
    (sys : DrainSystem) → (events : List DrainEvent) → Decidable (RunUncrossed platform sys events)
  | _, [] => inferInstanceAs (Decidable True)
  | sys, event :: events =>
    have := decidableRunUncrossed platform (sys.step platform event) events
    inferInstanceAs (Decidable (_ ∧ _))

/-- A segment on a volume. -/
def placed (segmentID volumeID : String) : SegmentRef :=
  { segmentID := segmentID, placement := { parameters := [("volume_id", volumeID)] } }

/-- A version with a segment on `v1` and one on `v2`. -/
def twoVolumeCalls : List (CallContext × ObjectCall) :=
  [(numberedContext 1 1, .createBucket { tenantID := "t", name := "b", region := "r" }),
   (numberedContext 2 2, .putObjectVersion
     { bucketID := "bkt_1", key := "k", sizeBytes := 4,
       segmentRefs := [placed "s1" "v1", placed "s2" "v2"] })]

/-- The drain of one of its volumes. -/
def drainFrom (source target : String) : MoveObjectVersionRequest :=
  { sourceVolumeID := source, targetVolumeID := target, bucketID := "bkt_1", key := "k",
    versionID := "ver_2" }

def twoDrains : DrainSystem :=
  .begin (runCalls plainPlatform twoVolumeCalls ∅) [drainFrom "v1" "v3", drainFrom "v2" "v4"]

def served (index : Nat) : DrainEvent := .serve index (numberedContext 3 3)

/-- The second drain begins when the first has returned. -/
def oneAfterTheOther : List DrainEvent :=
  [served 0, .copied 0 (.ok (placed "c1" "v3")), served 0, served 0, served 0,
   served 1, served 1, .copied 1 (.ok (placed "c2" "v4")), served 1, served 1]

/-- Both drains read the manifest before either publishes. -/
def sideBySide : List DrainEvent :=
  [served 0, served 1, .copied 0 (.ok (placed "c1" "v3")), served 0, served 1,
   .copied 1 (.ok (placed "c2" "v4")), served 0, served 1, served 0, served 1]

/-- Drains that follow each other leave both volumes. -/
theorem drains_one_after_the_other :
    NeverRepeats twoVolumeCalls ∧ RunUncrossed plainPlatform twoDrains oneAfterTheOther ∧
      (∀ c ∈ (twoDrains.run plainPlatform oneAfterTheOther).calls, Succeeded c.2) ∧
      Drained "bkt_1" "k" "ver_2" (twoDrains.run plainPlatform oneAfterTheOther) ∧
      AccountedFor "bkt_1" "k" "ver_2"
        (versionSegments (runCalls plainPlatform twoVolumeCalls ∅) "bkt_1" "k" "ver_2")
        (twoDrains.run plainPlatform oneAfterTheOther) := by
  have fresh : NeverRepeats twoVolumeCalls := by decide +kernel
  have uncrossed : RunUncrossed plainPlatform twoDrains oneAfterTheOther := by decide +kernel
  obtain ⟨drained, accounted⟩ := concurrent_drains plainPlatform twoVolumeCalls fresh
    [drainFrom "v1" "v3", drainFrom "v2" "v4"] oneAfterTheOther "bkt_1" "k" "ver_2"
  exact ⟨fresh, uncrossed, by decide +kernel, drained uncrossed, accounted⟩

/-- The second publish puts the segment on `v1` back that the first one had moved; both calls
report success. -/
theorem lost_publish_returns_to_drained_volume :
    NeverRepeats twoVolumeCalls ∧
      (∀ c ∈ (twoDrains.run plainPlatform sideBySide).calls, Succeeded c.2) ∧
      versionSegments (twoDrains.run plainPlatform sideBySide).store "bkt_1" "k" "ver_2" =
        some [placed "s1" "v1", placed "c2" "v4"] ∧
      ¬ Drained "bkt_1" "k" "ver_2" (twoDrains.run plainPlatform sideBySide) := by
  decide +kernel

end Namros.Guarantees
