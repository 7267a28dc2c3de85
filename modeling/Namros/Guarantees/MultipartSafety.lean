import Namros.Multipart.Steps

/-!
# Completing against aborting

Complete, abort and part-upload requests and the abort worker run interleaved on one upload.
A completion commits its version before it closes the upload, and neither `AbortMultipartUpload`
nor `PutMultipartPart` looks at the completion record: an abort or a part upload that falls
between the two deletes segments of the committed version. When aborts and part replacements
keep clear of recorded and running completions, no committed segment is ever deleted.
-/

namespace Namros.Guarantees

open Library Source Index Multipart Transaction

/-- What a request does in an event, if the event runs its transaction. -/
def AdmittedEvent (target : MultipartUploadRequest) (sys : MultipartSystem) :
    MultipartEvent → Prop
  | .serve index _ => ∀ r ∈ sys.requests[index]?, Admits target sys r
  | _ => True

/-- Every event of the run meets the condition in the state it finds. -/
def AdmittedRun (platform : Platform) (target : MultipartUploadRequest) :
    MultipartSystem → List MultipartEvent → Prop
  | _, [] => True
  | sys, event :: events =>
    AdmittedEvent target sys event ∧ AdmittedRun platform target (sys.step platform target event) events

/-- The contexts of the transactions of a run. -/
def transactionContexts (events : List MultipartEvent) : List CallContext :=
  events.filterMap fun
    | .serve _ context => some context
    | _ => none

/-- The segments written in a run. -/
def writtenSegments (events : List MultipartEvent) : List String :=
  events.filterMap fun
    | .putSegment _ segmentRef _ => some segmentRef.segmentID
    | _ => none

/-- Version and segment ids drawn in the run are new: no version id was issued before or is
issued twice, and no segment id is written twice or names a segment of a committed version. -/
structure FreshIDs (issued : Set String) (s : Store) (events : List MultipartEvent) : Prop where
  versions : ((transactionContexts events).flatMap issuedVersionIDs).Nodup
  named : "" ∉ (transactionContexts events).flatMap issuedVersionIDs
  unissued : ∀ id ∈ (transactionContexts events).flatMap issuedVersionIDs, id ∉ issued
  segments : (writtenSegments events).Nodup
  unreferenced : ∀ id ∈ writtenSegments events, ¬ CommittedReference s id

/-- A new upload on a consistent store, with requests that did not start yet. -/
structure UploadStart (target : MultipartUploadRequest) (issued : Set String)
    (sys : MultipartSystem) : Prop where
  consistent : Consistent issued (objectIndex sys.store)
  upload : ∃ upload, (uploadRecords target sys.store).upload = some upload ∧
    upload.Identified target
  completion : (uploadRecords target sys.store).completion = none
  parts : ∀ n, (uploadRecords target sys.store).part n = none
  requests : ∀ r ∈ sys.requests, r.Starting
  deletions : sys.deletions = []

variable {platform : Platform} {target : MultipartUploadRequest} {issued used all : Set String}
  {sys : MultipartSystem}

theorem UploadStart.safe (start : UploadStart target issued sys)
    (unreferenced : ∀ x ∈ all, ¬ CommittedReference sys.store x) :
    Safe target issued ∅ all sys := by
  have nothing : ∀ r ∈ sys.requests, r.scheduled = [] ∧ r.resumed = none ∧ r.cleans = none ∧
      r.begun = none ∧ r.held = [] ∧ r.inFlight = none := by
    intro r member
    have starting := start.requests r member
    cases r <;> first | exact starting.elim | exact ⟨rfl, rfl, rfl, rfl, rfl, rfl⟩
  have spared : ∀ x, x ∉ doomed sys := by
    intro x dead
    rw [doomed, start.deletions] at dead
    obtain ⟨r, member, waiting⟩ := List.mem_flatMap.mp dead
    rw [(nothing r member).1] at waiting
    cases waiting
  constructor
  case consistent => exact start.consistent
  case identified =>
    intro upload found
    obtain ⟨u, present, identified⟩ := start.upload
    rw [present] at found
    cases found
    exact identified
  case recorded =>
    intro c found
    rw [start.completion] at found
    cases found
  case committed => exact fun x dead => absurd dead (spared x)
  case unclaimed => exact fun _ => unreferenced
  case parts => exact fun _ n part found => spared _
  case partsUsed =>
    intro n part found
    rw [start.parts n] at found
    cases found
  case partsDistinct =>
    intro m n p q found
    rw [start.parts m] at found
    cases found
  case doomedUsed => exact fun x dead => absurd dead (spared x)
  case usedAll => exact Set.empty_subset all
  case requests =>
    intro i r here
    exact .idle (by simp [(nothing r (List.mem_of_getElem? here)).2])
  case flights =>
    intro i j p q x here _ flying
    rw [(nothing p (List.mem_of_getElem? here)).2.2.2.2.2] at flying
    cases flying

/-! ## Steps and runs -/

theorem step_safe {issued' used' : Set String} (h : Safe target issued used all sys)
    {event : MultipartEvent} (moreIssued : issued ⊆ issued') (moreUsed : used ⊆ used')
    (within : used' ⊆ all)
    (issues : ∀ i context, event = .serve i context → IssuesFresh context issued issued')
    (writes : ∀ i ref etag, event = .putSegment i ref etag →
      ref.segmentID ∉ used ∧ ref.segmentID ∈ used')
    (admitted : AdmittedEvent target sys event) :
    Safe target issued' used' all (sys.step platform target event) := by
  have kept := (h.issue moreIssued).widen moreUsed within
  cases event with
  | serve index context =>
    rw [MultipartSystem.step]
    split
    · exact kept
    · rename_i request here
      exact (serve_safe h (issues _ _ rfl) here (admitted request here)).widen moreUsed within
  | putSegment index segmentRef etag =>
    rw [MultipartSystem.step]
    split
    · rename_i partNumber here
      obtain ⟨fresh, written⟩ := writes _ _ _ rfl
      exact (h.issue moreIssued).write here moreUsed within fresh written
    · exact kept
  | deleteSegment index =>
    rw [MultipartSystem.step]
    split
    · rename_i byWorker ref rest here
      exact kept.delete here List.mem_cons_self (fun x => List.mem_cons_of_mem _) rfl
        fun D => .idle rfl
    · rename_i previous here
      exact kept.delete here List.mem_cons_self (fun x => List.not_mem_nil.elim) rfl
        fun D => .idle rfl
    · exact kept
  | stop index =>
    cases here : sys.requests[index]? with
    | some r => exact kept.idle here rfl rfl
    | none =>
      have same : sys.requests.set index .finished = sys.requests :=
        List.set_eq_of_length_le (List.getElem?_eq_none_iff.mp here)
      rw [MultipartSystem.step, same]
      exact kept

variable {events : List MultipartEvent}

theorem run_safe (h : Safe target issued used all sys)
    (versions : ((transactionContexts events).flatMap issuedVersionIDs).Nodup)
    (named : "" ∉ (transactionContexts events).flatMap issuedVersionIDs)
    (unissued : ∀ id ∈ (transactionContexts events).flatMap issuedVersionIDs, id ∉ issued)
    (segments : (writtenSegments events).Nodup)
    (unused : ∀ id ∈ writtenSegments events, id ∉ used ∧ id ∈ all)
    (admitted : AdmittedRun platform target sys events) :
    ∃ issued' used', Safe target issued' used' all (sys.run platform target events) := by
  induction events generalizing sys issued used with
  | nil => exact ⟨issued, used, h⟩
  | cons event events ih =>
    obtain ⟨here, later⟩ := admitted
    cases event with
    | serve index context =>
      change (issuedVersionIDs context ++ (transactionContexts events).flatMap _).Nodup at versions
      change "" ∉ issuedVersionIDs context ++ _ at named
      change ∀ id ∈ issuedVersionIDs context ++ _, _ at unissued
      obtain ⟨-, distinct, apart⟩ := List.nodup_append.mp versions
      have issues : IssuesFresh context issued (issued ∪ {id | id ∈ issuedVersionIDs context}) :=
        issuesFresh_of_issued (fun empty => named (List.mem_append_left _ empty))
          fun id drawn => unissued id (List.mem_append_left _ drawn)
      refine ih (step_safe h issues.grows subset_rfl h.usedAll ?_ ?_ here) distinct
        (fun empty => named (List.mem_append_right _ empty)) ?_ segments unused later
      · rintro i c ⟨⟩
        exact issues
      · rintro i ref etag ⟨⟩
      · rintro id drawn (old | new)
        · exact unissued id (List.mem_append_right _ drawn) old
        · exact apart id new id drawn rfl
    | putSegment index segmentRef etag =>
      change (segmentRef.segmentID :: writtenSegments events).Nodup at segments
      change ∀ id ∈ segmentRef.segmentID :: writtenSegments events, _ at unused
      obtain ⟨fresh, inside⟩ := unused _ List.mem_cons_self
      obtain ⟨notLater, distinct⟩ := List.nodup_cons.mp segments
      have within : used ∪ {segmentRef.segmentID} ⊆ all := by
        rintro x (old | rfl)
        · exact h.usedAll old
        · exact inside
      refine ih (step_safe h subset_rfl Set.subset_union_left within ?_ ?_ here) versions named
        unissued distinct ?_ later
      · rintro i c ⟨⟩
      · rintro i ref e ⟨⟩
        exact ⟨fresh, .inr rfl⟩
      intro id member
      obtain ⟨unusedID, insideID⟩ := unused id (List.mem_cons_of_mem _ member)
      refine ⟨?_, insideID⟩
      rintro (old | rfl)
      · exact unusedID old
      · exact notLater member
    | deleteSegment index =>
      refine ih (step_safe h subset_rfl subset_rfl h.usedAll ?_ ?_ here) versions named unissued
        segments unused later
      · rintro i c ⟨⟩
      · rintro i ref e ⟨⟩
    | stop index =>
      refine ih (step_safe h subset_rfl subset_rfl h.usedAll ?_ ?_ here) versions named unissued
        segments unused later
      · rintro i c ⟨⟩
      · rintro i ref e ⟨⟩

theorem AdmittedRun.take {sys : MultipartSystem} (admitted : AdmittedRun platform target sys events)
    (n : Nat) : AdmittedRun platform target sys (events.take n) := by
  induction events generalizing n sys with
  | nil =>
    rw [List.take_nil]
    exact admitted
  | cons event events ih =>
    cases n with
    | zero => trivial
    | succ n => exact ⟨admitted.1, ih admitted.2 n⟩

theorem FreshIDs.take {s : Store} (fresh : FreshIDs issued s events) (n : Nat) : FreshIDs issued s
    (events.take n) := by
  have written : (writtenSegments (events.take n)).Sublist (writtenSegments events) :=
    (List.take_sublist n events).filterMap _
  have drawn : ((transactionContexts (events.take n)).flatMap issuedVersionIDs).Sublist
      ((transactionContexts events).flatMap issuedVersionIDs) := by
    conv_rhs => rw [← List.take_append_drop n events]
    rw [transactionContexts, transactionContexts, List.filterMap_append, List.flatMap_append]
    exact List.sublist_append_left _ _
  exact ⟨fresh.versions.sublist drawn, fun empty => fresh.named (drawn.subset empty),
    fun id member => fresh.unissued id (drawn.subset member), fresh.segments.sublist written,
    fun id member => fresh.unreferenced id (written.subset member)⟩

/-- In every state of an admitted run, no segment that was passed to `DeleteSegment` is
referenced by a committed version. -/
theorem admitted_run_spares_committed_segments (platform : Platform)
    (target : MultipartUploadRequest) (issued : Set String) (sys : MultipartSystem)
    (events : List MultipartEvent) (start : UploadStart target issued sys)
    (fresh : FreshIDs issued sys.store events)
    (admitted : AdmittedRun platform target sys events) (n : Nat) :
    ∀ ref ∈ (sys.run platform target (events.take n)).deletions,
      ¬ CommittedReference (sys.run platform target (events.take n)).store ref.segmentID := by
  have fresh := fresh.take n
  have safe : Safe target issued ∅ {id | id ∈ writtenSegments (events.take n)} sys :=
    start.safe fresh.unreferenced
  obtain ⟨issued', used', reached⟩ := run_safe safe fresh.versions fresh.named fresh.unissued
    fresh.segments (fun id member => ⟨fun none => none, member⟩) (admitted.take n)
  intro ref deleted
  exact reached.committed _ (List.mem_append_left _ (List.mem_map_of_mem deleted))

/-! ## Sample runs -/

instance (sys : MultipartSystem) (r : Request) : Decidable (Admits target sys r) := by
  cases r <;> dsimp only [Admits] <;> infer_instance

instance (sys : MultipartSystem) (event : MultipartEvent) :
    Decidable (AdmittedEvent target sys event) := by
  cases event <;> dsimp only [AdmittedEvent] <;> infer_instance

instance decidableAdmittedRun (sys : MultipartSystem) (events : List MultipartEvent) :
    Decidable (AdmittedRun platform target sys events) :=
  match events with
  | [] => .isTrue trivial
  | event :: events =>
    have := decidableAdmittedRun (sys.step platform target event) events
    inferInstanceAs (Decidable (_ ∧ _))

/-- A committed version found by its key. -/
theorem committedReference_of (b k sk : String) {s : Store} {x : String}
    (committed : ∃ v ∈ (objectIndex s).version b k sk, v.state = .committed)
    (referenced : ∃ refs ∈ versionSegments s b k sk, x ∈ refs.map SegmentRef.segmentID) :
    CommittedReference s x := by
  obtain ⟨v, present, committed⟩ := committed
  obtain ⟨refs, stored, member⟩ := referenced
  exact ⟨b, k, sk, v, refs, present, committed, stored, member⟩

/-- A bucket and an upload of one key. -/
def sampleUploadStore : Store :=
  (createMultipartUpload (numberedContext 2 2) { bucketID := "bkt_1", key := "k" }).settle
    ((createBucket (numberedContext 1 1) { tenantID := "t", name := "b", region := "r" }).settle ∅)

def sampleTarget : MultipartUploadRequest :=
  { bucketID := "bkt_1", key := "k", uploadID := "upl_2" }

/-- Two uploads of part 1, a completion and an abort. -/
def sampleRequests : MultipartSystem :=
  { store := sampleUploadStore
    requests := [.uploadPart 1, .uploadPart 1, .complete [{ partNumber := 1 }], .abort false]
    deletions := [] }

theorem sampleRequests_start : UploadStart sampleTarget ∅ sampleRequests where
  consistent := by
    have bucket := settle_induction (P := fun s => objectIndex s = objectIndex ∅) rfl
      fun _ _ created => objectIndex_of_keeps
        (keeps_createBucket (numberedContext 1 1) { tenantID := "t", name := "b", region := "r" })
        bucketKey_outside created
    have empty : objectIndex sampleUploadStore = objectIndex ∅ :=
      settle_induction (P := fun s => objectIndex s = objectIndex ∅) bucket fun _ _ created =>
        (objectIndex_of_keeps (keeps_createMultipartUpload _) multipartKey_outside created).trans
          bucket
    change Consistent ∅ (objectIndex sampleUploadStore)
    rw [empty]
    exact Consistent.empty
  upload := by
    have stored : ∃ u ∈ (uploadRecords sampleTarget sampleUploadStore).upload,
        u.bucketID = "bkt_1" ∧ u.uploadID = "upl_2" := by decide +kernel
    exact stored
  completion := by decide +kernel
  parts n := by
    have noParts : ∀ entry ∈ sampleUploadStore.entries,
        (asMultipartPart entry.1 entry.2).isNone := by decide +kernel
    refine Option.eq_none_iff_forall_ne_some.mpr fun part stored => ?_
    change sampleUploadStore.lookup (.multipartPart sampleTarget.bucketID sampleTarget.uploadID n) =
      some part at stored
    cases noParts _ (AList.mem_lookup_iff.mp stored)
  requests := by simp [sampleRequests, Request.Starting]
  deletions := rfl

/-- Where no version id was issued, nothing is referenced. -/
theorem UploadStart.no_reference (start : UploadStart target ∅ sys) (x : String) :
    ¬ CommittedReference sys.store x := by
  rintro ⟨b, k, sk, v, refs, present, -⟩
  exact start.consistent.issuedOnly present

/-- Requests 0 and 1 store part 1 with segments A and B. -/
def uploadEvents (index n : Nat) (segmentID : String) : List MultipartEvent :=
  [.serve index (numberedContext n 3), .putSegment index { segmentID := segmentID } "\"00\"",
   .serve index (numberedContext (n + 1) 3)]

/-- `count` transactions of the completion. -/
def completeEvents (n count : Nat) : List MultipartEvent :=
  (List.range count).map fun m => .serve 2 (numberedContext (n + m) 4)

/-- Part 1 is replaced, then completed; the abort comes too late. -/
def orderlyEvents : List MultipartEvent :=
  uploadEvents 0 3 "A" ++ uploadEvents 1 5 "B" ++ [.deleteSegment 1] ++ completeEvents 7 11 ++
    [.serve 3 (numberedContext 18 5)]

theorem orderlyEvents_spare_committed_segments :
    (∀ ref ∈ (sampleRequests.run plainPlatform sampleTarget (orderlyEvents.take 19)).deletions,
      ¬ CommittedReference (sampleRequests.run plainPlatform sampleTarget
        (orderlyEvents.take 19)).store ref.segmentID) ∧
      (sampleRequests.run plainPlatform sampleTarget (orderlyEvents.take 19)).deletions.map
        SegmentRef.segmentID = ["A"] ∧
      CommittedReference (sampleRequests.run plainPlatform sampleTarget
        (orderlyEvents.take 19)).store "B" := by
  refine ⟨admitted_run_spares_committed_segments plainPlatform sampleTarget ∅ sampleRequests
    orderlyEvents sampleRequests_start ⟨by decide +kernel, by decide +kernel, fun _ _ none => none,
      by decide +kernel, fun id _ => sampleRequests_start.no_reference id⟩ (by decide +kernel) 19,
    by decide +kernel, ?_⟩
  exact committedReference_of "bkt_1" "k" "ver_10" (by decide +kernel)
    (by decide +kernel)

/-- The completion commits, then an abort, or an upload of the same part, runs before the upload
is completed. -/
def abortedEvents : List MultipartEvent :=
  uploadEvents 0 3 "A" ++ completeEvents 5 7 ++ [.serve 3 (numberedContext 12 5), .deleteSegment 3]

def replacedEvents : List MultipartEvent :=
  uploadEvents 0 3 "A" ++ completeEvents 5 7 ++ uploadEvents 1 12 "B" ++ [.deleteSegment 1]

/-- Both the abort and the part upload delete a segment of the committed version. -/
theorem committed_segment_deleted :
    UploadStart sampleTarget ∅ sampleRequests ∧
      FreshIDs ∅ sampleRequests.store abortedEvents ∧
      (∃ ref ∈ (sampleRequests.run plainPlatform sampleTarget abortedEvents).deletions,
        CommittedReference (sampleRequests.run plainPlatform sampleTarget
          abortedEvents).store ref.segmentID) ∧
      FreshIDs ∅ sampleRequests.store replacedEvents ∧
      ∃ ref ∈ (sampleRequests.run plainPlatform sampleTarget replacedEvents).deletions,
        CommittedReference (sampleRequests.run plainPlatform sampleTarget
          replacedEvents).store ref.segmentID := by
  refine ⟨sampleRequests_start, ⟨by decide +kernel, by decide +kernel, fun _ _ none => none,
      by decide +kernel, fun id _ => sampleRequests_start.no_reference id⟩,
    ⟨{ segmentID := "A" }, by decide +kernel, ?_⟩, ⟨by decide +kernel, by decide +kernel,
      fun _ _ none => none, by decide +kernel, fun id _ => sampleRequests_start.no_reference id⟩,
    ⟨{ segmentID := "A" }, by decide +kernel, ?_⟩⟩
  · exact committedReference_of "bkt_1" "k" "ver_8" (by decide +kernel)
      (by decide +kernel)
  · exact committedReference_of "bkt_1" "k" "ver_8" (by decide +kernel)
      (by decide +kernel)

end Namros.Guarantees
