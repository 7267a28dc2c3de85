import Namros.Index.Manifests
import Namros.Multipart.Invariant
import Namros.Multipart.LifecycleSteps

/-!
# Steps keep doomed segments apart

Each transaction of a multipart request keeps the invariant, an abort or a part replacement
only under the condition stated for it.
-/

namespace Namros.Multipart

open Library Source Index Transaction

variable {target : MultipartUploadRequest} {issued issued' used all : Set String}
  {sys : MultipartSystem} {s t : Store} {platform : Platform} {context : CallContext}

/-! ## Quiet stores -/

theorem multipartKey_outside (k : Key) : indexKey k → ¬ multipartKey k := by
  cases k <;> simp [indexKey, multipartKey]

theorem multipartKey_apart (k : Key) : segmentKey k → ¬ multipartKey k := by
  cases k <;> simp [segmentKey, multipartKey]

/-- A step on multipart records only. -/
theorem Quiet.of_agree (h : Safe target issued used all sys) (grows : issued ⊆ issued')
    (agree : Agree (fun k => ¬ multipartKey k) t sys.store)
    (identified : ∀ upload, (uploadRecords target t).upload = some upload →
      upload.Identified target)
    (opened : Open target t → Open target sys.store)
    (recorded : (uploadRecords target t).completion.map (fun c => (c.upload, c.objectVersionID)) =
      (uploadRecords target sys.store).completion.map fun c => (c.upload, c.objectVersionID))
    (parts : ∀ n part, (uploadRecords target t).part n = some part →
      (uploadRecords target sys.store).part n = some part) :
    Quiet target issued issued' sys.store t := by
  have index := objectIndex_congr (agree.mono multipartKey_outside)
  have segments := versionSegments_of_agree (agree.mono multipartKey_apart)
  refine ⟨?_, grows, identified, opened, recorded, parts, fun id _ x => ?_, fun x => ?_⟩
  · rw [index]
    exact h.consistent.mono grows
  · rw [references_congr segments]
    exact fun references => references
  · rw [committedReference_congr index segments]
    exact .inl

variable {upload : MultipartUpload}

/-- Closing the upload, with its other records unchanged. -/
theorem Quiet.of_closed (h : Safe target issued used all sys) (grows : issued ⊆ issued')
    (identified : upload.Identified target) (closed : upload.state ≠ .active)
    (records : uploadRecords target t =
      { uploadRecords target sys.store with upload := some upload })
    (agree : Agree (fun k => ¬ multipartKey k) t sys.store) :
    Quiet target issued issued' sys.store t := by
  refine .of_agree h grows agree ?_ ?_ (by rw [records]) (by rw [records]; exact fun _ _ => id)
  · rw [records]
    rintro u ⟨⟩
    exact identified
  rintro ⟨-, u, found, active⟩
  rw [records] at found
  cases found
  exact absurd active closed

theorem Safe.issue (h : Safe target issued used all sys) (grows : issued ⊆ issued') :
    Safe target issued' used all sys :=
  h.quiet (.of_agree h grows (.refl _) h.identified (fun opened => opened) rfl fun _ _ => id)

/-! ## Requests that hold nothing -/

variable {D : List String} {r : Request}

theorem RequestSafe.idle (nothing : (r.resumed, r.cleans, r.begun, r.held, r.inFlight) =
      (none, none, none, [], none)) : RequestSafe target issued used s D r := by
  simp only [Prod.mk.injEq] at nothing
  obtain ⟨resumes, cleans, begins, holds, flies⟩ := nothing
  refine ⟨?_, ?_, ?_, ?_, ?_⟩ <;> simp [resumes, cleans, begins, holds, flies]

theorem RequestSafe.cleaning : RequestSafe target issued used s D (.cleanup target) := by
  refine ⟨by rintro _ ⟨⟩, ?_, by rintro _ ⟨⟩, by rintro _ _ ⟨⟩, by rintro _ ⟨⟩⟩
  rintro upload ⟨⟩
  rfl

variable {c : MultipartCompletionRecord}

/-- A request that carries the recorded completion. -/
theorem RequestSafe.carrying (atTarget : c.upload = target)
    (stored : ∃ d, (uploadRecords target s).completion = some d ∧
      d.objectVersionID = c.objectVersionID)
    (nothing : (r.resumed, r.cleans, r.begun, r.held, r.inFlight) =
      (some c, none, none, [], none)) : RequestSafe target issued used s D r := by
  simp only [Prod.mk.injEq] at nothing
  obtain ⟨carried, cleans, begins, holds, flies⟩ := nothing
  refine ⟨fun d same => ?_, by simp [cleans], by simp [begins], by simp [holds], by simp [flies]⟩
  rw [carried] at same
  cases same
  exact ⟨atTarget, stored⟩

/-- The system after request `i` was served. -/
def served (sys : MultipartSystem) (i : Nat) (outcome : Store × Request) : MultipartSystem :=
  { sys with store := outcome.1, requests := sys.requests.set i outcome.2 }

variable {i : Nat} {r : Request}

/-- The outcome of a transaction, success or failure. -/
theorem served_attempt {α : Type} {body : Tx α} {succeeded : α → Request}
    {failed : Error → Request} {P : MultipartSystem → Prop}
    (success : ∀ a t, body.run sys.store = .ok (a, t) → P (served sys i (t, succeeded a)))
    (failure : ∀ e, P (served sys i (sys.store, failed e))) :
    P (served sys i (attempt body sys.store succeeded failed)) := by
  unfold attempt
  split
  · exact success _ _ ‹_›
  · exact failure _

/-- The request takes the next state, which holds nothing; the store step was quiet. -/
theorem Safe.idle (h : Safe target issued used all sys) (here : sys.requests[i]? = some r)
    {next : Request} (unscheduled : next.scheduled = [])
    (nothing : (next.resumed, next.cleans, next.begun, next.held, next.inFlight) =
      (none, none, none, [], none)) :
    Safe target issued used all (served sys i (sys.store, next)) :=
  h.advance here (.idle nothing) unscheduled (by simp_all)

theorem Safe.cleaning (h : Safe target issued used all sys) (here : sys.requests[i]? = some r) :
    Safe target issued used all (served sys i (sys.store, .cleanup target)) :=
  h.advance here .cleaning rfl nofun

theorem Safe.carry (h : Safe target issued used all sys) (here : sys.requests[i]? = some r)
    {next : Request} (before : r.resumed = some c) (unscheduled : next.scheduled = [])
    (carried : (next.resumed, next.cleans, next.begun, next.held, next.inFlight) =
      (some c, none, none, [], none)) :
    Safe target issued used all (served sys i (sys.store, next)) := by
  obtain ⟨atTarget, stored⟩ := (h.requests i r here).resumes c before
  exact h.advance here (.carrying atTarget stored carried) unscheduled
    (by simp_all)

variable (target issued used all platform context) in
/-- Serving such a request keeps the invariant. -/
def ServesSafely (r : Request) : Prop :=
  ∀ {sys : MultipartSystem} {i : Nat}, Safe target issued used all sys →
    sys.requests[i]? = some r →
      Safe target issued used all (served sys i (r.serve platform context target sys.store))

/-! ## Completing -/

variable {requested : List CompletePart}

theorem serve_complete :
    ServesSafely target issued used all platform context (.complete requested) := by
  intro sys i h here
  refine served_attempt (fun upload t read => ?_) fun _ => ?_
  · obtain ⟨rfl, -⟩ := getUpload_ok read
    split
    · exact h.cleaning here
    · exact h.idle here rfl rfl
    · exact h.idle here rfl rfl
  · exact h.idle here rfl rfl

theorem serve_findCompletion :
    ServesSafely target issued used all platform context (.findCompletion requested upload) := by
  intro sys i h here
  refine served_attempt (fun record t read => ?_) fun e => ?_
  · obtain ⟨rfl, found⟩ := getMultipartCompletion_ok read
    exact h.advance here (.carrying (h.recorded record found).1 ⟨record, found, rfl⟩ rfl) rfl nofun
  · split
    · exact h.idle here rfl rfl
    · exact h.idle here rfl rfl

variable {selected : List MultipartPart}

theorem selectCompleteParts_subset {available : List MultipartPart}
    (chosen : selectCompleteParts available requested = some selected) :
    ∀ part ∈ selected, part ∈ available := by
  induction requested generalizing selected with
  | nil =>
    cases chosen
    simp
  | cons req rest ih =>
    simp only [selectCompleteParts, bind, Option.bind_eq_some_iff] at chosen
    obtain ⟨part, found, chosen⟩ := chosen
    split at chosen
    · cases chosen
    obtain ⟨later, chosenLater, shape⟩ := Option.bind_eq_some_iff.mp chosen
    cases shape
    intro other member
    rcases List.mem_cons.mp member with rfl | member
    · exact List.mem_reverse.mp (List.mem_of_find?_eq_some found)
    · exact ih chosenLater other member

theorem serve_readParts :
    ServesSafely target issued used all platform context (.readParts requested upload) := by
  intro sys i h here
  refine served_attempt (fun parts t read => ?_) fun e => ?_
  · obtain ⟨-, read⟩ := failIf_bind_ok.mp read
    obtain ⟨_, -, read⟩ := ofOutcome_bind_ok.mp read
    obtain ⟨_, _, step, read⟩ := of_bind read
    obtain ⟨-, -, rfl⟩ := getActiveUpload_ok step
    obtain ⟨_, _, step, read⟩ := of_bind read
    obtain ⟨rfl, stored⟩ := partsNumbered_ok step
    cases read
    unfold afterParts
    split
    · exact h.idle here rfl rfl
    rename_i selected chosen
    split
    · exact h.idle here rfl rfl
    refine h.advance here ?_ rfl nofun
    refine ⟨by rintro _ ⟨⟩, by rintro _ ⟨⟩, by rintro _ ⟨⟩, fun opened x member => ?_,
      by rintro _ ⟨⟩⟩
    obtain ⟨part, picked, rfl⟩ := List.mem_map.mp member
    obtain ⟨n, found⟩ := stored part (selectCompleteParts_subset chosen part picked)
    exact h.parts opened n part found
  · exact h.idle here rfl rfl

/-- Nothing references a segment through an id that was not issued. -/
theorem Safe.issued_of_references (h : Safe target issued used all sys) {b id x : String}
    (references : References sys.store b id x) : id ∈ issued := by
  obtain ⟨k, refs, stored, -⟩ := references
  obtain ⟨v, present, -⟩ := Option.bind_eq_some_iff.mp stored
  exact h.consistent.issuedOnly (congrArg (Option.map metadata) present)

variable {etag : String}

/-- A step on object records only. -/
theorem Quiet.of_objects (h : Safe target issued used all sys)
    (consistent : Consistent issued' (objectIndex t)) (grows : issued ⊆ issued')
    (agree : Agree (fun k => ¬ objectCallKey k) t sys.store)
    (references : ∀ id ∈ issued, ∀ x, References t target.bucketID id x →
      References sys.store target.bucketID id x)
    (committed : ∀ x, CommittedReference t x → CommittedReference sys.store x ∨
      ∃ c, (uploadRecords target sys.store).completion = some c ∧
        References sys.store target.bucketID c.objectVersionID x) :
    Quiet target issued issued' sys.store t := by
  have records : uploadRecords target t = uploadRecords target sys.store := by
    simp only [uploadRecords, UploadRecords.mk.injEq]
    refine ⟨agree _ ?_, agree _ ?_, funext fun n => agree _ ?_⟩ <;>
      simp [objectCallKey, sharedRecordKey, objectRecordKey, sharedObjectKey, bucketKey]
  refine ⟨consistent, grows, ?_, ?_, ?_, ?_, references, committed⟩
  · rw [records]
    exact h.identified
  · rw [Open, Open, records]
    exact fun opened => opened
  · rw [records]
  · rw [records]
    exact fun _ _ found => found

theorem serve_beginObject (h : Safe target issued used all sys)
    (issues : IssuesFresh context issued issued')
    (here : sys.requests[i]? = some (.beginObject upload selected etag)) :
    Safe target issued' used all (served sys i
      ((Request.beginObject upload selected etag).serve platform context target sys.store)) := by
  refine served_attempt (fun pending t begun => ?_) fun e => ?_
  · have versions := h.consistent.versions
    obtain ⟨current, s₁, versionID, s₂, headed, drawn, stored, rfl⟩ := beginPutObject_ok begun
    obtain ⟨rfl, -⟩ := currentHydratedHead_indexed versions headed
    obtain ⟨rfl, named, fresh, member⟩ := nextObjectVersionID_fresh issues drawn
    have adds {b id x : String} (found : References t b id x) := setObjectVersion_references
      versions stored (h.consistent.storable_of_fresh rfl named fresh) found
    have quiet : Quiet target issued issued' sys.store t := by
      refine .of_objects h (beginPutObject_renewed h.consistent issues begun).consistent issues.grows
        (beginPutObject_records begun).outside (fun id old x found => ?_) fun x found => .inl ?_
      · rcases adds found with known | ⟨-, rfl, -⟩
        · exact known
        · exact absurd old fresh
      · rcases setObjectVersion_committedReference versions stored
          (h.consistent.storable_of_fresh rfl named fresh) found with old | ⟨⟨⟩, -⟩
        exact old
    have h' := h.quiet quiet
    refine h'.advance here ?_ rfl nofun
    refine ⟨by rintro _ ⟨⟩, by rintro _ ⟨⟩, ?_, (h'.requests i _ here).held, by rintro _ ⟨⟩⟩
    rintro id ⟨⟩
    refine ⟨member, fun x found => ?_⟩
    rcases adds found with known | ⟨-, -, new⟩
    · exact absurd (h.issued_of_references known) fresh
    · change x ∈ selected.map (SegmentRef.segmentID ∘ MultipartPart.segmentRef)
      rw [← List.map_map]
      cases selected <;> exact new
  · have h := h.issue issues.grows
    split
    · exact h.idle here rfl rfl
    · exact h.idle here rfl rfl

theorem serve_abortTooLarge :
    ServesSafely target issued used all platform context .abortTooLarge := by
  intro sys i h here
  refine served_attempt (fun parts t aborted => ?_) fun e => ?_
  · obtain ⟨⟨upload, identified, closed, records⟩, -, -, agree⟩ :=
      abortMultipartUpload_ok h.identified aborted
    have quiet := h.quiet (.of_closed h subset_rfl identified (by simp [closed]) records agree)
    exact quiet.cleaning here
  · exact h.idle here rfl rfl

theorem completion_agree (target : MultipartUploadRequest) (record : MultipartCompletionRecord)
    (s : Store) : Agree (fun k => ¬ multipartKey k)
      (s.insert (.multipartCompletion target.bucketID target.uploadID) record) s :=
  .insert_outside (fun outside => outside trivial) _ _

theorem serve_prepare {pending : PendingObjectVersion} :
    ServesSafely target issued used all platform context (.prepare selected etag pending) := by
  intro sys i h here
  refine served_attempt (fun record t prepared => ?_) fun e => ?_
  · obtain ⟨⟨atTarget, version⟩, ⟨found, rfl⟩ | ⟨absent, active, rfl⟩⟩ :=
      prepareMultipartCompletion_ok prepared
    · exact h.advance here (.carrying atTarget ⟨record, found, rfl⟩ rfl) rfl nofun
    have agree := completion_agree target record sys.store
    have h' := h.record here (congrArg some version.symm) atTarget ⟨absent, active⟩
      uploadRecords_insert_completion
      (objectIndex_congr (agree.mono multipartKey_outside))
      (versionSegments_of_agree (agree.mono multipartKey_apart))
    exact h'.advance here (.carrying atTarget ⟨record, lookup_insert_self _, rfl⟩ rfl) rfl
      nofun
  · exact h.idle here rfl rfl

/-! ## Resuming -/

theorem serve_resume : ServesSafely target issued used all platform context (.resume c) := by
  intro sys i h here
  refine served_attempt (fun version t read => ?_) fun e => ?_
  · obtain rfl := getObjectVersion_indexed h.consistent.versions read
    split
    · exact h.carry here rfl rfl rfl
    · exact h.carry here rfl rfl rfl
  · split
    · exact h.carry here rfl rfl rfl
    · exact h.idle here rfl rfl

theorem serve_commit : ServesSafely target issued used all platform context (.commit c) := by
  intro sys i h here
  refine served_attempt (fun head t committed => ?_) fun e => ?_
  · obtain ⟨atTarget, d, stored, same⟩ := (h.requests i _ here).resumes c rfl
    obtain ⟨references, becomes⟩ := commitObjectVersion_references h.consistent committed
    have quiet : Quiet target issued issued sys.store t := by
      refine .of_objects h (commitObjectVersion_advances h.consistent committed).consistent subset_rfl
        (commitObjectVersion_records committed).outside (fun _ _ _ => references) fun x found => ?_
      rcases becomes found with known | named
      · exact .inl known
      · refine .inr ⟨d, stored, ?_⟩
        rw [same, ← atTarget]
        exact named
    exact (h.quiet quiet).carry here rfl rfl rfl
  · split
    · exact h.carry here rfl rfl rfl
    · exact h.idle here rfl rfl

theorem serve_confirmHead :
    ServesSafely target issued used all platform context (.confirmHead c) := by
  intro sys i h here
  refine served_attempt (fun head t read => ?_) fun e => ?_
  · obtain rfl := getHead_indexed h.consistent.versions read
    split
    · exact h.carry here rfl rfl rfl
    · exact h.idle here rfl rfl
  · exact h.idle here rfl rfl

/-- Marking the completion of the upload. -/
theorem quiet_mark (h : Safe target issued used all sys) {state : MultipartCompletionState}
    {record : MultipartCompletionRecord}
    (marked : (markMultipartCompletionState context target state).run sys.store =
      .ok (record, t)) : Quiet target issued issued sys.store t := by
  obtain ⟨before, found, rfl | ⟨-, rfl⟩⟩ := markMultipartCompletionState_ok marked
  · exact .of_agree h subset_rfl (.refl _) h.identified id rfl fun _ _ => id
  refine .of_agree h subset_rfl (completion_agree _ _ _) ?_ ?_ ?_ ?_
  · rw [uploadRecords_insert_completion]
    exact h.identified
  · rintro ⟨absent, -⟩
    rw [uploadRecords_insert_completion] at absent
    cases absent
  · rw [uploadRecords_insert_completion, found]
    rfl
  · rw [uploadRecords_insert_completion]
    exact fun _ _ found => found

theorem serve_markPublished :
    ServesSafely target issued used all platform context (.markPublished c) := by
  intro sys i h here
  have atTarget := ((h.requests i _ here).resumes c rfl).1
  refine served_attempt (fun record t marked => ?_) fun e => ?_
  · rw [atTarget] at marked
    exact (h.quiet (quiet_mark h marked)).carry here rfl rfl rfl
  · exact h.carry here rfl rfl rfl

theorem serve_finish : ServesSafely target issued used all platform context (.finish c) := by
  intro sys i h here
  obtain ⟨rfl, -⟩ := (h.requests i _ here).resumes c rfl
  refine served_attempt (fun upload t completed => ?_) fun e => ?_
  · obtain ⟨upload, found, ⟨-, rfl⟩ | ⟨closed, closes⟩⟩ := completeMultipartUpload_cases completed
    · exact h.carry here rfl rfl rfl
    obtain ⟨identified, records, agree⟩ := closes.records (h.identified upload found)
    have quiet := h.quiet (.of_closed h subset_rfl identified (by simp [closed]) records agree)
    exact quiet.carry here rfl rfl rfl
  · exact h.idle here rfl rfl

theorem serve_markCompleted :
    ServesSafely target issued used all platform context (.markCompleted c) := by
  intro sys i h here
  obtain ⟨rfl, -⟩ := (h.requests i _ here).resumes c rfl
  refine served_attempt (fun record t marked => ?_) fun e => ?_
  · exact (h.quiet (quiet_mark h marked)).cleaning here
  · exact h.cleaning here

theorem serve_cleanup {upload : MultipartUploadRequest} :
    ServesSafely target issued used all platform context (.cleanup upload) := by
  intro sys i h here
  obtain rfl := (h.requests i _ here).cleans upload rfl
  refine served_attempt (fun result t cleaned => ?_) fun e => ?_
  · obtain ⟨before, after, numbers, found, inactive, sameState, same, -, -, -, -, -, stored⟩ :=
      cleanupMultipartUploadParts_cases cleaned
    obtain ⟨atBucket, atID⟩ := h.identified before found
    have identified : after.Identified upload := ⟨same.1.trans atBucket, same.2.1.trans atID⟩
    have erased : uploadRecords upload (OrderedStore.eraseAll
        (numbers.map (.multipartPart upload.bucketID upload.uploadID)) sys.store) = _ :=
      congrArg UploadState.records (uploadState_eraseAll numbers)
    have records := setMultipartUpload_records stored identified
    rw [erased] at records
    have quiet : Quiet upload issued issued sys.store t := by
      refine .of_agree h subset_rfl ((keeps_setMultipartUpload _ _ _ _ stored).trans
        (eraseParts_agree numbers fun n outside => outside trivial)) ?_ ?_ (by rw [records]; rfl)
        fun n part present => ?_
      · rw [records]
        rintro u ⟨⟩
        exact identified
      · rintro ⟨-, u, present, active⟩
        rw [records] at present
        cases present
        exact absurd active (sameState.trans_ne inactive)
      · simp only [records, UploadState.records] at present
        split at present
        · cases present
        · exact present
    exact (h.quiet quiet).idle here rfl rfl
  · exact h.idle here rfl rfl

/-! ## Aborting -/

/-- An abort dooms the parts of the upload, provided no completion is recorded. -/
theorem serve_abort (h : Safe target issued used all sys) {byWorker : Bool}
    (here : sys.requests[i]? = some (.abort byWorker))
    (admitted : (uploadRecords target sys.store).completion = none ∨
      ∃ upload, (uploadRecords target sys.store).upload = some upload ∧
        upload.state = .completed) :
    Safe target issued used all (served sys i
      ((Request.abort byWorker).serve platform context target sys.store)) := by
  refine served_attempt (fun parts t aborted => ?_) fun e => ?_
  · obtain ⟨⟨upload, identified, closed, records⟩, ⟨before, found, uncompleted⟩, stored, agree⟩ :=
      abortMultipartUpload_ok h.identified aborted
    have absent : (uploadRecords target sys.store).completion = none := by
      rcases admitted with absent | ⟨u, present, completed⟩
      · exact absent
      · rw [found] at present
        cases present
        exact absurd completed uncompleted
    have h' := h.quiet (.of_closed h subset_rfl identified (by simp [closed]) records agree)
    have absent' : (uploadRecords target t).completion = none := by rw [records]; exact absent
    have notOpen : ¬ Open target t := by
      rintro ⟨-, u, present, active⟩
      rw [records] at present
      cases present
      rw [closed] at active
      cases active
    refine h'.schedule here (fun x member => ?_) rfl fun D => .idle rfl
    obtain ⟨ref, listed, rfl⟩ := List.mem_map.mp member
    obtain ⟨part, returned, rfl⟩ := List.mem_map.mp listed
    obtain ⟨n, present⟩ := stored part returned
    have used := h.partsUsed n part present
    refine ⟨used, h'.unclaimed absent' _ (h.usedAll used), fun c found => ?_,
      fun isOpen => absurd isOpen notOpen, fun isOpen => absurd isOpen notOpen,
      fun j q _ there flying => ?_⟩
    · rw [show (uploadRecords target t).completion = none from absent'] at found
      cases found
    · exact ((h.requests j q there).inFlight _ flying).2.2 n part present rfl
  · exact h.idle here rfl rfl

theorem serve_deleteParts {byWorker : Bool} :
    ServesSafely target issued used all platform context (.deleteParts byWorker []) := by
  intro sys i h here
  cases byWorker with
  | true => exact h.idle here rfl rfl
  | false => exact h.cleaning here

/-! ## Uploading -/

theorem serve_uploadPart {partNumber : Int} :
    ServesSafely target issued used all platform context (.uploadPart partNumber) := by
  intro sys i h here
  refine served_attempt (fun upload t read => ?_) fun e => ?_
  · obtain ⟨rfl, -⟩ := getUpload_ok read
    split
    · exact h.idle here rfl rfl
    · exact h.idle here rfl rfl
  · exact h.idle here rfl rfl

/-- The replaced part, once the new one is stored. -/
private theorem expendable_previous {n : Nat} {part old : MultipartPart}
    (h : Safe target issued used all sys)
    (h' : Safe target issued used all ⟨t, sys.requests.set i .finished, sys.deletions⟩)
    (here : sys.requests[i]? = some r) (flying : r.inFlight = some part.segmentRef.segmentID)
    (present : (uploadRecords target sys.store).part n = some old)
    (records : uploadRecords target t = { uploadRecords target sys.store with
      upload := some upload
      part := Function.update (uploadRecords target sys.store).part n (some part) })
    (absent : (uploadRecords target sys.store).completion = none)
    (unheld : ∀ r ∈ sys.requests, old.segmentRef.segmentID ∉ r.held) :
    Expendable target used ⟨t, sys.requests.set i .finished, sys.deletions⟩ i
      old.segmentRef.segmentID := by
  have absent' : (uploadRecords target t).completion = none := by
    rw [records]
    exact absent
  have member := h.partsUsed n old present
  refine ⟨member, h'.unclaimed absent' _ (h.usedAll member), fun c found => ?_,
    fun _ m p found => ?_, fun _ j q other there => ?_, fun j q other there flies => ?_⟩
  · rw [show (uploadRecords target t).completion = none from absent'] at found
    cases found
  · rw [show uploadRecords target t = _ from records] at found
    dsimp only at found
    by_cases same : m = n
    · rw [same, Function.update_self] at found
      cases found
      -- the new segment was in flight, so it is no stored part
      exact (((h.requests i r here).inFlight _ flying).2.2 n old present).symm
    · rw [Function.update_of_ne same] at found
      exact fun sameID => same (h.partsDistinct m n p old found present sameID)
  · rcases getElem?_set_cases there with ⟨rfl, -⟩ | ⟨-, there⟩
    · exact absurd rfl other
    · exact unheld q (List.mem_of_getElem? there)
  · rcases getElem?_set_cases there with ⟨rfl, -⟩ | ⟨-, there⟩
    · exact absurd rfl other
    · exact ((h.requests j q there).inFlight _ flies).2.2 n old present rfl

/-- A stored part dooms the part it replaces, provided no completion is recorded and none has
read that part. -/
theorem serve_putPart (h : Safe target issued used all sys) {partNumber : Int}
    {segmentRef : SegmentRef} (here : sys.requests[i]? = some (.putPart partNumber segmentRef etag))
    (admitted : ∀ part, (uploadRecords target sys.store).part partNumber.toNat = some part →
      (∃ upload, (uploadRecords target sys.store).upload = some upload ∧
        upload.state ≠ .active) ∨
      ((uploadRecords target sys.store).completion = none ∧
        ∀ r ∈ sys.requests, part.segmentRef.segmentID ∉ r.held)) :
    Safe target issued used all (served sys i
      ((Request.putPart partNumber segmentRef etag).serve platform context target
        sys.store)) := by
  refine served_attempt (fun stored t put => ?_) fun e => ?_
  · obtain ⟨-, -, new, previous, upload, found, isActive, set⟩ := putMultipartPart_cases put
    obtain ⟨sameBucket, sameID, sameState⟩ :=
      applyMultipartPartSummary_identity upload stored.1 stored.2 (context.now 0)
    obtain ⟨atBucket, atID⟩ := h.identified upload found
    have identified : MultipartUpload.Identified target _ :=
      ⟨sameBucket.trans atBucket, sameID.trans atID⟩
    have records := setMultipartUpload_records set identified
    rw [uploadRecords_insert_part] at records
    have agree : Agree (fun k => ¬ multipartKey k) t sys.store :=
      (keeps_setMultipartUpload _ _ _ _ set).trans
        (.insert_outside (fun no => no trivial) _ _)
    have active : ∃ upload, (uploadRecords target sys.store).upload = some upload ∧
      upload.state = .active := ⟨upload, found, isActive⟩
    have flying : (Request.putPart partNumber segmentRef etag).inFlight =
        some stored.1.segmentRef.segmentID := by
      rw [new]
      rfl
    have h' := h.storePart here flying active identified records
      (objectIndex_congr (agree.mono multipartKey_outside))
      (versionSegments_of_agree (agree.mono multipartKey_apart))
    rcases stored with ⟨part, _ | old⟩
    · exact h'
    have present : (uploadRecords target sys.store).part partNumber.toNat = some old :=
      previous.symm
    obtain ⟨absent, unheld⟩ := (admitted old present).resolve_left (by
      rintro ⟨_, same, closed⟩
      cases found.symm.trans same
      exact closed isActive)
    have finished : (sys.requests.set i .finished)[i]? = some .finished := by
      rw [List.getElem?_set_self]
      exact (List.getElem?_eq_some_iff.mp here).1
    have scheduled := h'.schedule (r := .deletePrevious old.segmentRef) finished
      (fun x member => ?_) rfl fun D => .idle rfl
    · rw [List.set_set] at scheduled
      exact scheduled
    · obtain rfl := List.mem_singleton.mp member
      exact expendable_previous h h' here flying present records absent unheld
  · exact h.idle here rfl rfl

/-! ## Any transaction -/

/-- The condition under which a transaction dooms only segments nobody needs: an abort meets no
recorded completion, and a replaced part is in no recorded completion and was read by none. What
the repository refuses anyway is admitted. -/
def Admits (target : MultipartUploadRequest) (sys : MultipartSystem) : Request → Prop
  | .abort _ =>
    (uploadRecords target sys.store).completion = none ∨
      ∃ upload ∈ (uploadRecords target sys.store).upload, upload.state = .completed
  | .putPart partNumber _ _ =>
    ∀ part ∈ (uploadRecords target sys.store).part partNumber.toNat,
      (∃ upload ∈ (uploadRecords target sys.store).upload, upload.state ≠ .active) ∨
        ((uploadRecords target sys.store).completion = none ∧
          ∀ r ∈ sys.requests, part.segmentRef.segmentID ∉ r.held)
  | _ => True

theorem serve_safe (h : Safe target issued used all sys)
    (issues : IssuesFresh context issued issued') (here : sys.requests[i]? = some r)
    (admitted : Admits target sys r) :
    Safe target issued' used all (served sys i (r.serve platform context target sys.store)) := by
  have h' := h.issue issues.grows
  have waits : Safe target issued' used all (served sys i (sys.store, r)) := by
    obtain ⟨below, rfl⟩ := List.getElem?_eq_some_iff.mp here
    rwa [served, List.set_getElem_self]
  cases r with
  | beginObject upload selected etag => exact serve_beginObject h issues here
  | complete requested => exact serve_complete h' here
  | findCompletion requested upload => exact serve_findCompletion h' here
  | readParts requested upload => exact serve_readParts h' here
  | abortTooLarge => exact serve_abortTooLarge h' here
  | prepare selected etag pending => exact serve_prepare h' here
  | resume completion => exact serve_resume h' here
  | commit completion => exact serve_commit h' here
  | confirmHead completion => exact serve_confirmHead h' here
  | markPublished completion => exact serve_markPublished h' here
  | finish completion => exact serve_finish h' here
  | markCompleted completion => exact serve_markCompleted h' here
  | cleanup upload => exact serve_cleanup h' here
  | abort byWorker => exact serve_abort h' here admitted
  | uploadPart partNumber => exact serve_uploadPart h' here
  | putPart partNumber segmentRef etag => exact serve_putPart h' here admitted
  | deleteParts byWorker refs =>
    cases refs with
    | nil => exact serve_deleteParts h' here
    | cons ref refs => exact waits
  | putSegment partNumber => exact waits
  | deletePrevious previous => exact waits
  | finished => exact waits

end Namros.Multipart
