import Namros.Index.Moves
import Namros.Source.Drain

/-!
# What the steps of a drain do to manifests

The stored manifest of a version, as the drain worker's transactions read and write it: reading
a version changes nothing, a publish replaces the manifest of its version and of no other, and
the record of the operation touches none.
-/

namespace Namros.Index

open Library Source Transaction

variable {platform : Platform} {context : CallContext} {s t : Store} {U : Set String}

theorem getObjectVersion_manifest (h : Consistent U (objectIndex s)) {b k id : String}
    {v : ObjectVersion} (ran : (getObjectVersion b k id).run s = .ok (v, t)) :
    s = t ∧ versionSegments s b k id = some v.allSegmentRefs := by
  refine ⟨getObjectVersion_indexed h.versions ran, ?_⟩
  obtain ⟨found, s₁, searched, ran⟩ := of_bind ran
  obtain ⟨⟨K, version⟩, rfl, ran⟩ := orFail_bind_ok.mp ran
  cases ran
  exact findVersionByID_segments h.versions searched

/-- A publish replaces the manifest of its version. -/
theorem publishObjectVersionRefs_manifest {req : PublishObjectVersionRefsRequest}
    {r : PublishRefsResult} (h : Consistent U (objectIndex s))
    (ran : (publishObjectVersionRefs platform context req).run s = .ok (r, t)) (b k id : String) :
    versionSegments t b k id =
      if b = req.bucketID ∧ k = req.key ∧ id = req.versionID then some req.segmentRefs
      else versionSegments s b k id := by
  obtain ⟨version, s₁, s₂, live, -, stored, headed⟩ := publishObjectVersionRefs_ok ran
  obtain ⟨-, ran⟩ := failIf_bind_ok.mp ran
  obtain ⟨nonempty, -⟩ := failIf_bind_ok.mp ran
  obtain ⟨K, searched, -⟩ := requireLiveVersion_ok live
  obtain ⟨rfl, -, current, sameBucket, sameKey, sameID, sorted⟩ :=
    findVersionByID_some h.versions searched
  have kept : versionSegments t = versionSegments s₂ :=
    versionSegments_of_agree ((keeps_updateHeadOf _ _ _ _ s₂ _ t headed).mono fun K segment =>
      headKey_apart K segment)
  have storable := h.versions.storable current
    (v := { version with
      segmentRefs := req.segmentRefs, segmentRef := firstSegmentRef req.segmentRefs })
    ⟨sameBucket, sameKey, sameID, sorted⟩
  rw [kept, setObjectVersion_versionSegments h.versions stored storable]
  simp [ObjectVersion.allSegmentRefs, normalizeSegmentRefs, nonempty, sameBucket, sameKey, sorted]

/-- The keys the record of a drain operation is written under. -/
def drainRecordKey : Key → Prop
  | .sequence _ | .volumeDrainOperation _ => True
  | _ => False

theorem keeps_putVolumeDrainOperation (req : PutVolumeDrainOperationRequest) :
    Writes drainRecordKey (putVolumeDrainOperation context req) := by
  refine .bind (.bind (.failIf _ _) fun _ => .bind (keeps_getJSON _) fun _ =>
    .bind (keeps_setJSON _ (by simp [drainRecordKey])) fun _ => .pure _) fun _ => ?_
  refine .bind (.ofOutcome _) fun _ => .bind (keeps_setJSON _ (by simp [drainRecordKey])) fun _ => ?_
  exact .pure _

/-- The record of an operation leaves versions and their manifests alone. -/
theorem putVolumeDrainOperation_manifest {req : PutVolumeDrainOperationRequest}
    {record : VolumeDrainOperationRecord}
    (ran : (putVolumeDrainOperation context req).run s = .ok (record, t)) :
    versionSegments t = versionSegments s ∧ objectIndex t = objectIndex s := by
  have kept := keeps_putVolumeDrainOperation req s record t ran
  refine ⟨versionSegments_of_agree (kept.mono ?_), objectIndex_congr (kept.mono ?_)⟩
  · intro K segment record
    cases K <;> first | exact segment | exact record
  · intro K index record
    cases K <;> first | exact index | exact record

/-! ## Steps of a call, as the manifests see them -/

/-- The manifests of a store, by bucket, key and version. -/
abbrev Manifests := String → String → String → Option (List SegmentRef)

/-- The version a call drains. -/
def Targets (req : MoveObjectVersionRequest) (b k id : String) : Prop :=
  req.bucketID = b ∧ req.key = k ∧ req.versionID = id
deriving Decidable

/-- What a call that is served can do. Every step but a publish leaves the manifests alone. -/
inductive ServeStep (req : MoveObjectVersionRequest) (M : Manifests) :
    MoveCall → Manifests → MoveCall → Prop
  | waits (call : MoveCall) : ServeStep req M call M call
  | refused (e : Error) : ServeStep req M .start M (.refused e)
  | empty {version : ObjectVersion} {draft : OperationDraft}
      (read : M req.bucketID req.key req.versionID = some []) (none : draft.attempts = []) :
      ServeStep req M .start M (.recording Option.none draft { version := version } Option.none)
  | read {version : ObjectVersion} {draft : OperationDraft}
      (read : M req.bucketID req.key req.versionID = some version.allSegmentRefs)
      (fresh : draft.copied = 0 ∧ draft.retryable = 0 ∧ draft.attempts = []) :
      ServeStep req M .start M
        (.copying version.allSegmentRefs { version := version, draft := draft })
  | skips {ref : SegmentRef} {rest : List SegmentRef} {progress : MoveProgress}
      (off : segmentRefVolumeID ref ≠ req.sourceVolumeID) :
      ServeStep req M (.copying (ref :: rest) progress) M (.copying rest (progress.skip req ref))
  | givesUp {progress : MoveProgress} {draft : OperationDraft} {e : DrainError} :
      ServeStep req M (.copying [] progress) M (.recording none draft {} (some e))
  | nothing {progress : MoveProgress} {draft : OperationDraft} {result : MoveObjectVersionResult}
      (uncopied : progress.draft.retryable ≤ 0 ∧ progress.draft.copied = 0)
      (attempts : draft.attempts = progress.draft.attempts) :
      ServeStep req M (.copying [] progress) M (.recording none draft result none)
  | publishes {progress : MoveProgress} {draft : OperationDraft}
      {result : MoveObjectVersionResult} {published : PublishRefsResult} {M' : Manifests}
      (copied : progress.draft.retryable ≤ 0 ∧ progress.draft.copied ≠ 0)
      (attempts : draft.attempts = progress.draft.attempts)
      (replaced : ∀ b k id, M' b k id =
        if Targets req b k id then some progress.replacementRefs else M b k id) :
      ServeStep req M (.copying [] progress) M' (.recording (some published) draft result none)
  | records {published : Option PublishRefsResult} {draft : OperationDraft}
      {result result' : MoveObjectVersionResult} {err err' : Option DrainError}
      (succeeded : err' = none → err = none) :
      ServeStep req M (.recording published draft result err) M
        (.returned published draft result' err')

/-- A step of a call on another version leaves the manifest alone. -/
theorem ServeStep.elsewhere {req : MoveObjectVersionRequest} {M M' : Manifests}
    {call next : MoveCall} {b k id : String} (step : ServeStep req M call M' next)
    (other : ¬ Targets req b k id) : M' b k id = M b k id := by
  cases step with
  | publishes _ _ replaced => rw [replaced, if_neg other]
  | _ => rfl

theorem startMove_step (h : Consistent U (objectIndex s)) (req : MoveObjectVersionRequest) :
    Consistent U (objectIndex (startMove context req s).1) ∧
      ServeStep req (versionSegments s) .start (versionSegments (startMove context req s).1)
        (startMove context req s).2 := by
  unfold startMove
  split
  · exact ⟨h, .refused _⟩
  split
  · exact ⟨h, .refused _⟩
  cases ran : (getObjectVersion req.bucketID req.key req.versionID).run s with
  | error e => exact ⟨h, .refused e⟩
  | ok result =>
    obtain ⟨version, t⟩ := result
    obtain ⟨rfl, manifest⟩ := getObjectVersion_manifest h ran
    dsimp only
    split
    · next nothing => exact ⟨h, .empty (nothing ▸ manifest) rfl⟩
    · exact ⟨h, .read manifest ⟨rfl, rfl, rfl⟩⟩

/-- A served call does one of these steps, and the index stays consistent. -/
theorem serve_step (h : Consistent U (objectIndex s)) (req : MoveObjectVersionRequest)
    (call : MoveCall) :
    Consistent U (objectIndex (call.serve platform context req s).1) ∧
      ServeStep req (versionSegments s) call
        (versionSegments (call.serve platform context req s).1)
        (call.serve platform context req s).2 := by
  cases call with
  | start => exact startMove_step h req
  | copying remaining progress =>
    cases remaining with
    | nil =>
      simp only [MoveCall.serve, finishMove]
      split
      · exact ⟨h, .givesUp⟩
      next retryable =>
      split
      · next uncopied => exact ⟨h, .nothing ⟨Int.not_lt.mp retryable, uncopied⟩ rfl⟩
      next copied =>
      split
      · exact ⟨h, .givesUp⟩
      next published t ran =>
      refine ⟨(publishObjectVersionRefs_renewed h ran).consistent,
        .publishes ⟨Int.not_lt.mp retryable, copied⟩ rfl fun b k id => ?_⟩
      rw [publishObjectVersionRefs_manifest h ran]
      simp only [Targets, eq_comm]
    | cons ref rest =>
      simp only [MoveCall.serve]
      split
      · next off => exact ⟨h, .skips off⟩
      · exact ⟨h, .waits _⟩
  | recording published draft result err =>
    simp only [MoveCall.serve, recordMove]
    split
    · exact ⟨h, .records (by simp)⟩
    · next record t ran =>
      obtain ⟨manifests, index⟩ := putVolumeDrainOperation_manifest ran
      refine ⟨index ▸ h, ?_⟩
      rw [manifests]
      exact .records id
  | returned published draft result err => exact ⟨h, .waits _⟩

end Namros.Index
