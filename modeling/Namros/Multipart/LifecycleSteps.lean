import Namros.Multipart.Lifecycle
import Namros.Source.Outcomes

/-!
# The repository's calls as steps of an upload

Seen through the records of any one upload, every multipart call of the repository is a step
of the upload's life: the calls for another upload leave them alone, and a failed call writes
nothing.
-/

namespace Namros.Multipart

open Library Source Transaction

/-- The records of the upload `u` of bucket `b`. -/
def uploadState (b u : String) (s : Store) : UploadState where
  upload := s.lookup (.multipartUpload b u)
  completion := s.lookup (.multipartCompletion b u)
  part n := s.lookup (.multipartPart b u n)
  listed key := s.lookup (.multipartUploadByKey b key u)

/-- The keys of those records. -/
def uploadKey (b u : String) : Key → Prop
  | .multipartUpload b' u' | .multipartCompletion b' u' | .multipartPart b' u' _
  | .multipartUploadByKey b' _ u' => b' = b ∧ u' = u
  | _ => False

variable {upload : MultipartUpload} {x : Unit} {target : MultipartUploadRequest}
  {record : MultipartCompletionRecord} {limit : Int}

section

variable {s t : Store} {b u : String} {context : CallContext} {drawn : Prop}

theorem uploadState_congr (same : Agree (uploadKey b u) t s) :
    uploadState b u t = uploadState b u s := by
  ext1
  · exact same _ ⟨rfl, rfl⟩
  · exact same _ ⟨rfl, rfl⟩
  · exact funext fun n => same _ ⟨rfl, rfl⟩
  · exact funext fun key => same _ ⟨rfl, rfl⟩

theorem uploadState_of_keeps {α : Type} {W : Key → Prop} {body : Tx α} {a : α}
    (keeps : Writes W body) (apart : ∀ k, uploadKey b u k → ¬ W k)
    (ran : body.run s = .ok (a, t)) : uploadState b u t = uploadState b u s :=
  uploadState_congr ((keeps s a t ran).mono apart)

theorem tenantUsageKey_apart (k : Key) : uploadKey b u k → ¬ tenantUsageKey k := by
  cases k <;> simp [uploadKey, tenantUsageKey]

/-- A write outside the records of an upload. -/
theorem uploadState_insert_outside {k : Key} (outside : ¬ uploadKey b u k) (value : k.Value) :
    uploadState b u (s.insert k value) = uploadState b u s :=
  uploadState_congr (Agree.insert_outside outside value s)

@[simp] theorem uploadState_insert_part (n : Nat) (part : MultipartPart) :
    uploadState b u (s.insert (.multipartPart b u n) part) =
      { uploadState b u s with part := Function.update (uploadState b u s).part n (some part) } := by
  simp only [uploadState, UploadState.mk.injEq]
  refine ⟨lookup_insert_ne _ (by simp), lookup_insert_ne _ (by simp), funext fun m => ?_,
    funext fun key => lookup_insert_ne _ (by simp)⟩
  by_cases same : m = n
  · subst same
    rw [Function.update_self, lookup_insert_self]
  · rw [Function.update_of_ne same, lookup_insert_ne _ (by simpa using same)]

@[simp] theorem uploadState_insert_completion (record : MultipartCompletionRecord) :
    uploadState b u (s.insert (.multipartCompletion b u) record) =
      { uploadState b u s with completion := some record } := by
  simp only [uploadState, UploadState.mk.injEq]
  exact ⟨lookup_insert_ne _ (by simp), lookup_insert_self _,
    funext fun n => lookup_insert_ne _ (by simp), funext fun key => lookup_insert_ne _ (by simp)⟩

/-- Storing an upload record, seen from its own upload. -/
theorem setMultipartUpload_state (ran : (setMultipartUpload upload).run s = .ok (x, t))
    (bucket : upload.bucketID = b) (id : upload.uploadID = u) :
    uploadState b u t = { uploadState b u s with
      upload := some upload
      listed := Function.update (uploadState b u s).listed upload.key
        (if upload.state = .active then some u else none) } := by
  subst bucket
  subst id
  replace ran := past ran rfl
  -- both branches write the index entry of the upload and nothing else
  have written : t.lookup (.multipartUploadByKey upload.bucketID upload.key upload.uploadID) =
      (if upload.state = .active then some upload.uploadID else none) ∧
      ∀ k, k ≠ .multipartUploadByKey upload.bucketID upload.key upload.uploadID →
        t.lookup k = (s.insert (.multipartUpload upload.bucketID upload.uploadID) upload).lookup k := by
    split at ran
    · rename_i inactive
      cases ran
      rw [if_neg inactive]
      exact ⟨lookup_erase_self, fun k differs => lookup_erase_ne differs⟩
    · rename_i active
      cases ran
      rw [if_pos (not_not.mp active)]
      exact ⟨lookup_insert_self _, fun k differs => lookup_insert_ne _ differs⟩
  obtain ⟨index, elsewhere⟩ := written
  simp only [uploadState, UploadState.mk.injEq]
  refine ⟨?_, ?_, funext fun n => ?_, funext fun key => ?_⟩
  · rw [elsewhere _ (by simp), lookup_insert_self]
  · rw [elsewhere _ (by simp), lookup_insert_ne _ (by simp)]
  · rw [elsewhere _ (by simp), lookup_insert_ne _ (by simp)]
  by_cases same : key = upload.key
  · subst same
    rw [Function.update_self, index]
  · rw [Function.update_of_ne same, elsewhere _ (by simpa using same),
      lookup_insert_ne _ (by simp)]

/-- The records of an upload without its index entries. -/
def UploadState.records (v : UploadState) : UploadRecords := ⟨v.upload, v.completion, v.part⟩

theorem uploadRecords_insert_part {n : Nat} {part : MultipartPart} :
    uploadRecords target (s.insert (.multipartPart target.bucketID target.uploadID n) part) =
      { uploadRecords target s with
        part := Function.update (uploadRecords target s).part n (some part) } :=
  congrArg UploadState.records (uploadState_insert_part n part)

theorem uploadRecords_insert_completion :
    uploadRecords target (s.insert (.multipartCompletion target.bucketID target.uploadID) record) =
      { uploadRecords target s with completion := some record } :=
  congrArg UploadState.records (uploadState_insert_completion record)

theorem setMultipartUpload_records (ran : (setMultipartUpload upload).run s = .ok (x, t))
    (identified : upload.Identified target) :
    uploadRecords target t = { uploadRecords target s with upload := some upload } :=
  congrArg UploadState.records (setMultipartUpload_state ran identified.1 identified.2)

/-- Storing an upload record, seen from another upload. -/
theorem setMultipartUpload_other (ran : (setMultipartUpload upload).run s = .ok (x, t))
    (other : ¬ (upload.bucketID = b ∧ upload.uploadID = u)) :
    uploadState b u t = uploadState b u s := by
  have keeps : Keeps (fun k => ¬ uploadKey upload.bucketID upload.uploadID k)
      (setMultipartUpload upload) := by
    refine .bind (writes_setJSON _ ⟨rfl, rfl⟩) fun _ => .ite ?_ ?_
    · exact fun _ => writes_deleteKey ⟨rfl, rfl⟩
    · exact fun _ => writes_setJSON _ ⟨rfl, rfl⟩
  refine uploadState_of_keeps keeps (fun k mine theirs => other ?_) ran
  cases k <;> simp only [uploadKey] at mine theirs
  all_goals exact ⟨theirs.1.symm.trans mine.1, theirs.2.symm.trans mine.2⟩

/-! ## Calls -/

/-- A created upload is stored under a new name in an existing bucket and its tenant charged. -/
theorem createMultipartUpload_ok {req : CreateMultipartUploadRequest} {r : MultipartUpload}
    (ran : (createMultipartUpload context req).run s = .ok (r, t)) :
    ∃ bucket s₁, s.lookup (.bucketByID r.bucketID) = some bucket ∧
      (∃ n, context.newID .upload n = some r.uploadID) ∧
      s.lookup (.multipartUpload r.bucketID r.uploadID) = none ∧
      Opened r.bucketID r.uploadID r ∧
      (setMultipartUpload r).run s = .ok ((), s₁) ∧
      (applyTenantActiveUploadDelta bucket.tenantID 1 (context.now 0) (context.now 1)).run s₁ =
        .ok ((), t) := by
  obtain ⟨valid, ran⟩ := failIf_bind_ok.mp ran
  obtain ⟨_, -, ran⟩ := ofOutcome_bind_ok.mp ran
  obtain ⟨bucket, _, required, ran⟩ := of_bind ran
  obtain ⟨found, rfl⟩ := requireBucket_ok required
  obtain ⟨_, _, enforced, ran⟩ := of_bind ran
  obtain rfl := (readOnly_enforceTenantActiveUploadQuota _ _ _ _ enforced).symm
  obtain ⟨uploadID, _, drawn, ran⟩ := of_bind ran
  obtain ⟨rfl, absent, n, -, issued⟩ := nextFreeID_drawn drawn
  obtain ⟨_, s₁, stored, ran⟩ := of_bind ran
  obtain ⟨_, s₂, counted, ran⟩ := of_bind ran
  cases ran
  refine ⟨bucket, s₁, found, ⟨n, issued⟩, absent, ?_, stored, counted⟩
  exact ⟨rfl, rfl, rfl, rfl, rfl, rfl, rfl, ⟨rfl, rfl, rfl, rfl⟩, fun empty => valid (.inr empty)⟩

theorem createMultipartUpload_step {req : CreateMultipartUploadRequest} {r : MultipartUpload}
    (ran : (createMultipartUpload context req).run s = .ok (r, t)) (b u : String) :
    Step (∃ n, context.newID .upload n = some u) b u (uploadState b u s) (uploadState b u t) := by
  obtain ⟨bucket, s₁, -, issued, absent, opened, stored, counted⟩ :=
    createMultipartUpload_ok ran
  rw [uploadState_of_keeps (keeps_applyTenantActiveUploadDelta _ _ _ _) tenantUsageKey_apart
    counted]
  by_cases own : r.bucketID = b ∧ r.uploadID = u
  · obtain ⟨rfl, rfl⟩ := own
    rw [setMultipartUpload_state stored rfl rfl, if_pos opened.active]
    exact .create issued absent opened
  · rw [setMultipartUpload_other stored own]
    exact .skip _

/-! ### Parts -/

/-- A part is stored under its number in an active upload, whose summary follows. -/
theorem putMultipartPart_cases {req : PutMultipartPartRequest}
    {r : MultipartPart × Option MultipartPart}
    (ran : (putMultipartPart context req).run s = .ok (r, t)) :
    (1 ≤ req.partNumber ∧ req.partNumber ≤ maxMultipartParts) ∧
      r.1.partNumber = req.partNumber.toNat ∧ r.1.segmentRef = req.segmentRef ∧
      r.2 = (uploadRecords req.upload s).part req.partNumber.toNat ∧
      ∃ upload, (uploadRecords req.upload s).upload = some upload ∧ upload.state = .active ∧
        (setMultipartUpload (applyMultipartPartSummary upload r.1 r.2 (context.now 0))).run
          (s.insert (.multipartPart req.upload.bucketID req.upload.uploadID req.partNumber.toNat)
            r.1) = .ok ((), t) := by
  obtain ⟨valid, ran⟩ := failIf_bind_ok.mp ran
  push Not at valid
  obtain ⟨upload, _, step, ran⟩ := of_bind ran
  obtain ⟨found, active, rfl⟩ := getActiveUpload_ok step
  replace ran := past ran rfl
  replace ran := past ran rfl
  obtain ⟨_, s₂, stored, ran⟩ := of_bind ran
  cases ran
  refine ⟨valid.2.2.2, rfl, rfl, ?_, upload, found, active, stored⟩
  change ((uploadRecords req.upload s).part req.partNumber.toNat).orElse _ = _
  rw [Option.orElse_eq_or, Option.or_none]

theorem putMultipartPart_step {req : PutMultipartPartRequest}
    {r : MultipartPart × Option MultipartPart} (sound : ∀ b u, Sound b u (uploadState b u s))
    (ran : (putMultipartPart context req).run s = .ok (r, t)) (b u : String) :
    Step drawn b u (uploadState b u s) (uploadState b u t) := by
  obtain ⟨⟨positive, inside⟩, numbered, -, previous, upload, found, active, stored⟩ :=
    putMultipartPart_cases ran
  obtain ⟨sameBucket, sameID⟩ := (sound _ _).identified found
  obtain ⟨keptBucket, keptID, keptState⟩ :=
    applyMultipartPartSummary_identity upload r.1 r.2 (context.now 0)
  have keptKey : (applyMultipartPartSummary upload r.1 r.2 (context.now 0)).key = upload.key := by
    cases r.2 <;> rfl
  by_cases own : req.upload.bucketID = b ∧ req.upload.uploadID = u
  · obtain ⟨rfl, rfl⟩ := own
    rw [setMultipartUpload_state stored (keptBucket.trans sameBucket) (keptID.trans sameID),
      uploadState_insert_part, keptState, active, keptKey, if_pos rfl, previous]
    have bound : req.partNumber.toNat ≤ lastPartNumber := by
      unfold lastPartNumber
      unfold maxMultipartParts at inside
      omega
    exact Step.putPart (v := uploadState _ _ s) found active (by omega) bound numbered _
  · rw [setMultipartUpload_other stored (by rw [keptBucket, keptID, sameBucket, sameID]; exact own),
      uploadState_insert_outside (k := .multipartPart _ _ _) own]
    exact .skip _

/-! ### Completion records -/

/-- Storing a completion record is a step of its own upload only. -/
theorem completion_step (step : Step drawn target.bucketID target.uploadID
      (uploadState target.bucketID target.uploadID s)
      { uploadState target.bucketID target.uploadID s with completion := some record })
    (b u : String) : Step drawn b u (uploadState b u s)
      (uploadState b u (s.insert (.multipartCompletion target.bucketID target.uploadID) record)) := by
  by_cases own : target.bucketID = b ∧ target.uploadID = u
  · obtain ⟨rfl, rfl⟩ := own
    rw [uploadState_insert_completion]
    exact step
  · rw [uploadState_insert_outside (k := .multipartCompletion _ _) own]
    exact .skip _

/-- A completion is recorded once, while the upload is active. -/
theorem prepareMultipartCompletion_ok {req : CompletionRequest}
    (ran : (prepareMultipartCompletion context req).run s = .ok (record, t)) :
    (record.upload = req.upload ∧ record.objectVersionID = req.objectVersionID) ∧
      (((uploadRecords req.upload s).completion = some record ∧ s = t) ∨
        ((uploadRecords req.upload s).completion = none ∧
          (∃ upload, (uploadRecords req.upload s).upload = some upload ∧
            upload.state = .active) ∧
          t = s.insert (.multipartCompletion req.upload.bucketID req.upload.uploadID) record)) := by
  obtain ⟨-, ran⟩ := failIf_bind_ok.mp ran
  replace ran := past ran rfl
  split at ran
  · rename_i existing stored
    obtain ⟨matching, ran⟩ := failIf_bind_ok.mp ran
    cases ran
    simp only [multipartCompletionMatches, Bool.and_eq_true, beq_iff_eq, not_not] at matching
    obtain ⟨⟨⟨⟨⟨⟨⟨bucket, key⟩, upload⟩, version⟩, -⟩, -⟩, -⟩, -⟩ := matching
    refine ⟨⟨?_, version⟩, .inl ⟨stored, rfl⟩⟩
    rw [MultipartCompletionRecord.upload, bucket, GoString.text.inj key, upload]
  · rename_i absent
    obtain ⟨upload, _, step, ran⟩ := of_bind ran
    obtain ⟨rfl, found⟩ := getUpload_ok step
    obtain ⟨active, ran⟩ := failIf_bind_ok.mp ran
    cases ran
    exact ⟨⟨rfl, rfl⟩, .inr ⟨absent, ⟨upload, found, not_not.mp active⟩, rfl⟩⟩

/-- Marking a completion moves its state forward, or changes nothing. -/
theorem markMultipartCompletionState_ok {req : MultipartUploadRequest}
    {state : MultipartCompletionState} {r : MultipartCompletionRecord}
    (ran : (markMultipartCompletionState context req state).run s = .ok (r, t)) :
    ∃ record, (uploadRecords req s).completion = some record ∧
      (s = t ∨ multipartCompletionStateRank record.state < multipartCompletionStateRank state ∧
        t = s.insert (.multipartCompletion req.bucketID req.uploadID)
          { record with state := state, updatedAt := context.now 0 }) := by
  obtain ⟨record, _, step, ran⟩ := of_bind ran
  obtain ⟨rfl, found⟩ := getMultipartCompletion_ok step
  refine ⟨record, found, ?_⟩
  split at ran
  · rename_i forward
    cases ran
    exact .inr ⟨forward, rfl⟩
  · cases ran
    exact .inl rfl

theorem markMultipartCompletionState_step {req : MultipartUploadRequest}
    {state : MultipartCompletionState} {r : MultipartCompletionRecord}
    (ran : (markMultipartCompletionState context req state).run s = .ok (r, t))
    (b u : String) : Step drawn b u (uploadState b u s) (uploadState b u t) := by
  obtain ⟨record, found, rfl | ⟨forward, rfl⟩⟩ := markMultipartCompletionState_ok ran
  · exact .skip _
  · exact completion_step (.mark found forward _) b u

/-! ### Closing -/

/-- An active upload's record is stored as closed, and the upload is counted off its tenant's. -/
structure Closes (context : CallContext) (upload upload' : MultipartUpload) (s t : Store) :
    Prop where
  active : upload.state = .active
  same : SameUpload upload upload'
  parts : SameParts upload upload'
  uncleaned : upload'.partsCleanupDeleted = 0 ∧ upload'.partsCleanupState = .pending
  stored : ∃ s₁, (setMultipartUpload upload').run s = .ok ((), s₁) ∧
    (applyTenantActiveUploadDeltaForBucket upload'.bucketID (-1) (context.now 0)
      (context.now 1)).run s₁ = .ok ((), t)

section

variable {upload upload' : MultipartUpload} {target : MultipartUploadRequest}

theorem Closes.step (closes : Closes context upload upload' s t)
    (sound : ∀ b u, Sound b u (uploadState b u s))
    (found : (uploadRecords target s).upload = some upload)
    (closed : upload'.state = .completed ∨ upload'.state = .aborted)
    (b u : String) : Step drawn b u (uploadState b u s) (uploadState b u t) := by
  obtain ⟨s₁, stored, counted⟩ := closes.stored
  obtain ⟨sameBucket, sameID⟩ := (sound _ _).identified found
  have same := closes.same
  have inactive : upload'.state ≠ .active := by
    rcases closed with state | state <;> rw [state] <;> decide
  rw [uploadState_of_keeps (keeps_applyTenantActiveUploadDeltaForBucket _ _ _ _)
    tenantUsageKey_apart counted]
  by_cases own : target.bucketID = b ∧ target.uploadID = u
  · obtain ⟨rfl, rfl⟩ := own
    rw [setMultipartUpload_state stored (same.1.trans sameBucket) (same.2.1.trans sameID),
      if_neg inactive, same.2.2]
    exact .close found closes.active closed same closes.parts closes.uncleaned
  · rw [setMultipartUpload_other stored
      (by rw [same.1, same.2.1, sameBucket, sameID]; exact own)]
    exact .skip _

theorem Closes.records (closes : Closes context upload upload' s t)
    (named : upload.Identified target) : upload'.Identified target ∧
      uploadRecords target t = { uploadRecords target s with upload := some upload' } ∧
      Agree (fun k => ¬ multipartKey k) t s := by
  obtain ⟨s₁, stored, counted⟩ := closes.stored
  have named' : upload'.Identified target :=
    ⟨closes.same.1.trans named.1, closes.same.2.1.trans named.2⟩
  have usage := keeps_applyTenantActiveUploadDeltaForBucket upload'.bucketID (-1) (context.now 0)
    (context.now 1)
  have counts : Agree (fun k => ¬ multipartKey k) t s₁ := by
    refine (usage _ _ _ counted).mono fun k outside inside => outside ?_
    cases k <;> first | exact inside.elim | trivial
  refine ⟨named', ?_, counts.trans (keeps_setMultipartUpload _ _ _ _ stored)⟩
  rw [← setMultipartUpload_records stored named']
  exact congrArg UploadState.records (uploadState_of_keeps usage tenantUsageKey_apart counted)

end

/-- Completing finds the upload completed, or closes it. -/
theorem completeMultipartUpload_cases {req : CompletionRequest} {r : MultipartUpload}
    (ran : (completeMultipartUpload context req).run s = .ok (r, t)) :
    ∃ upload, (uploadRecords req.upload s).upload = some upload ∧
      (upload.state = .completed ∧ s = t ∨
        r.state = .completed ∧ Closes context upload r s t) := by
  obtain ⟨-, ran⟩ := failIf_bind_ok.mp ran
  obtain ⟨upload, _, step, ran⟩ := of_bind ran
  obtain ⟨rfl, found⟩ := getUpload_ok step
  refine ⟨upload, found, ?_⟩
  split at ran
  · rename_i completed
    cases ran
    exact .inl ⟨completed, rfl⟩
  · rename_i active
    obtain ⟨_, -, ran⟩ := ofOutcome_bind_ok.mp ran
    obtain ⟨_, s₁, stored, ran⟩ := of_bind ran
    obtain ⟨_, s₂, counted, ran⟩ := of_bind ran
    cases ran
    exact .inr ⟨rfl, active, ⟨rfl, rfl, rfl⟩, ⟨rfl, rfl, rfl⟩, ⟨rfl, rfl⟩, s₁, stored, counted⟩
  · cases ran

/-- Aborting finds the upload aborted, or closes it; either way it returns stored parts. -/
theorem abortMultipartUpload_cases {r : List MultipartPart}
    (ran : (abortMultipartUpload context target).run s = .ok (r, t)) :
    (∀ part ∈ r, ∃ n, (uploadRecords target s).part n = some part) ∧
    ∃ upload, (uploadRecords target s).upload = some upload ∧
      (upload.state = .aborted ∧ s = t ∨
        ∃ upload' : MultipartUpload, upload'.state = .aborted ∧
          Closes context upload upload' s t) := by
  obtain ⟨upload, _, step, ran⟩ := of_bind ran
  obtain ⟨rfl, found⟩ := getUpload_ok step
  split at ran
  · rename_i aborted
    obtain ⟨rfl, listed⟩ := listParts_ok ran
    exact ⟨listed, upload, found, .inl ⟨aborted, rfl⟩⟩
  · rename_i active
    obtain ⟨parts, _, step, ran⟩ := of_bind ran
    obtain ⟨rfl, listed⟩ := listParts_ok step
    obtain ⟨_, s₁, stored, ran⟩ := of_bind ran
    obtain ⟨_, s₂, counted, ran⟩ := of_bind ran
    cases ran
    refine ⟨listed, upload, found, .inr ⟨_, ?_, active, ?_, ?_, ?_, s₁, stored, counted⟩⟩
    · rfl
    · exact ⟨rfl, rfl, rfl⟩
    · exact ⟨rfl, rfl, rfl⟩
    · exact ⟨rfl, rfl⟩
  · cases ran

/-- An accepted abort leaves the upload aborted and returns stored parts. -/
theorem abortMultipartUpload_ok {parts : List MultipartPart}
    (identified : ∀ upload, (uploadRecords target s).upload = some upload →
      upload.Identified target)
    (ran : (abortMultipartUpload context target).run s = .ok (parts, t)) :
    (∃ upload : MultipartUpload, upload.Identified target ∧ upload.state = .aborted ∧
      uploadRecords target t = { uploadRecords target s with upload := some upload }) ∧
    (∃ upload, (uploadRecords target s).upload = some upload ∧ upload.state ≠ .completed) ∧
    (∀ part ∈ parts, ∃ n, (uploadRecords target s).part n = some part) ∧
    Agree (fun k => ¬ multipartKey k) t s := by
  obtain ⟨listed, upload, found, ⟨aborted, rfl⟩ | ⟨upload', aborted, closes⟩⟩ :=
    abortMultipartUpload_cases ran
  · refine ⟨⟨upload, identified upload found, aborted, ?_⟩, ⟨upload, found, by simp [aborted]⟩,
      listed, .refl _⟩
    rw [← found]
  · obtain ⟨named, records, agree⟩ := closes.records (identified upload found)
    exact ⟨⟨upload', named, aborted, records⟩, ⟨upload, found, by simp [closes.active]⟩, listed,
      agree⟩

/-! ## Cleanup -/

/-- The keys of the stored parts, in order. -/
def partKeys (b u : String) (s : Store) : List Key :=
  OrderedStore.keysWhere keyCode (fun x => (partPrefix b u).isPrefixOf x) s

def partNumberOf : Key → Nat
  | .multipartPart _ _ n => n
  | _ => 0

theorem mem_partKeys {K : Key} :
    K ∈ partKeys b u s ↔ ∃ n, K = .multipartPart b u n ∧ ((uploadState b u s).part n).isSome := by
  rw [partKeys, OrderedStore.mem_keysWhere, List.isPrefixOf_iff_prefix]
  change _ ∧ partPrefix b u <+: K.encode ↔ _
  rw [partPrefix_isPrefix_iff]
  constructor
  · rintro ⟨member, n, rfl⟩
    exact ⟨n, rfl, AList.lookup_isSome.mpr member⟩
  · rintro ⟨n, rfl, stored⟩
    exact ⟨AList.lookup_isSome.mp stored, n, rfl⟩

/-- The numbers of the stored parts, in order. -/
def partNumbers (b u : String) (s : Store) : List Nat := (partKeys b u s).map partNumberOf

theorem partKeys_eq : partKeys b u s = (partNumbers b u s).map (.multipartPart b u) := by
  rw [partNumbers, List.map_map]
  refine (List.map_id _).symm.trans (List.map_congr_left fun K member => ?_)
  obtain ⟨n, rfl, -⟩ := mem_partKeys.mp member
  rfl

theorem partNumbers_nodup : (partNumbers b u s).Nodup := by
  have nodup : (partKeys b u s).Nodup := OrderedStore.keysWhere_nodup
  rw [partKeys_eq] at nodup
  exact nodup.of_map _

theorem mem_partNumbers {n : Nat} :
    n ∈ partNumbers b u s ↔ ((uploadState b u s).part n).isSome := by
  have member : Key.multipartPart b u n ∈ partKeys b u s ↔ n ∈ partNumbers b u s := by
    rw [partKeys_eq]
    simp
  rw [← member, mem_partKeys]
  simp

/-- The part records of a sound upload are counted by their keys. -/
theorem partCount_eq_length (sound : Sound b u (uploadState b u s)) :
    partCount (uploadState b u s).part = (partKeys b u s).length := by
  have inside : (partNumbers b u s).toFinset ⊆ Finset.range (lastPartNumber + 1) := by
    intro n member
    rw [List.mem_toFinset, mem_partNumbers, Option.isSome_iff_exists] at member
    obtain ⟨part, stored⟩ := member
    have bound := (sound.numbered stored).1
    rw [Finset.mem_range]
    omega
  have pointwise : ∀ n, ((uploadState b u s).part n).elim 0 (fun _ => (1 : Int)) =
      if n ∈ (partNumbers b u s).toFinset then 1 else 0 := by
    intro n
    simp only [List.mem_toFinset, mem_partNumbers]
    cases (uploadState b u s).part n <;> simp
  unfold partCount partSum
  rw [Finset.sum_congr rfl fun n _ => pointwise n, ← Finset.sum_filter,
    Finset.filter_mem_eq_inter, Finset.inter_eq_right.mpr inside, partKeys_eq, List.length_map,
    ← List.toFinset_card_of_nodup partNumbers_nodup]
  simp

theorem partKeysForCleanup_run (req : MultipartUploadRequest) (limit : Nat) (s : Store) :
    (partKeysForCleanup req limit).run s = .ok
      (((partKeys req.bucketID req.uploadID s).take limit,
        decide (limit < (partKeys req.bucketID req.uploadID s).length)), s) := by
  have listed : (OrderedStore.list keyCode (partPrefix req.bucketID req.uploadID) [] (limit + 1)
      s).1 = (partKeys req.bucketID req.uploadID s).take (limit + 1) := by
    rw [OrderedStore.list_eq (Nat.succ_pos limit), partKeys, OrderedStore.keysWhere_congr_selection
      fun k => OrderedStore.afterCursor_nil _ k]
    rfl
  change Except.ok _ = Except.ok _
  rw [listed, List.length_take, List.take_take, Nat.min_eq_left (Nat.le_succ limit)]
  by_cases more : limit < (partKeys req.bucketID req.uploadID s).length
  · rw [if_pos (by omega), decide_eq_true more]
  · rw [if_neg (by omega), decide_eq_false more, List.take_of_length_le (by omega),
      List.take_of_length_le (by omega)]

/-- The parts left when the parts with some numbers were erased. -/
theorem uploadState_eraseAll (numbers : List Nat) :
    uploadState b u (OrderedStore.eraseAll (numbers.map (.multipartPart b u)) s) =
      { uploadState b u s with
        part := fun n => if n ∈ numbers.toFinset then none else (uploadState b u s).part n } := by
  simp only [uploadState, UploadState.mk.injEq]
  refine ⟨?_, ?_, funext fun n => ?_, funext fun key => ?_⟩ <;>
    rw [OrderedStore.lookup_eraseAll] <;> simp

theorem uploadState_eraseAll_other {b' u' : String} (numbers : List Nat)
    (other : ¬ (b' = b ∧ u' = u)) :
    uploadState b u (OrderedStore.eraseAll (numbers.map (.multipartPart b' u')) s) =
      uploadState b u s := by
  refine uploadState_congr fun k mine => ?_
  rw [OrderedStore.lookup_eraseAll, if_neg]
  intro member
  obtain ⟨n, -, rfl⟩ := List.mem_map.mp member
  exact other mine

/-- A cleanup removes the first parts of a closed upload; once it reports the end, all of them. -/
theorem cleanupMultipartUploadParts_cases {req : MultipartUploadRequest} {r : CleanupResult}
    (ran : (cleanupMultipartUploadParts context req limit).run s = .ok (r, t)) :
    ∃ upload upload' numbers, (uploadRecords req s).upload = some upload ∧
      upload.state ≠ .active ∧ upload'.state = upload.state ∧ SameUpload upload upload' ∧
      SameParts upload upload' ∧ SameResult upload upload' ∧
      numbers.Sublist (partNumbers req.bucketID req.uploadID s) ∧
      upload'.partsCleanupDeleted = upload.partsCleanupDeleted + numbers.length ∧
      (upload'.partsCleanupState = .done → numbers = partNumbers req.bucketID req.uploadID s) ∧
      (setMultipartUpload upload').run (OrderedStore.eraseAll
        (numbers.map (.multipartPart req.bucketID req.uploadID)) s) = .ok ((), t) := by
  obtain ⟨upload, _, step, ran⟩ := of_bind ran
  obtain ⟨rfl, found⟩ := getUpload_ok step
  obtain ⟨inactive, ran⟩ := failIf_bind_ok.mp ran
  obtain ⟨-, ran⟩ := failIf_bind_ok.mp ran
  rw [run_bind, partKeysForCleanup_run] at ran
  replace ran := past ran rfl
  obtain ⟨_, s₂, stored, ran⟩ := of_bind ran
  cases ran
  rw [partKeys_eq, ← List.map_take, List.length_map, List.length_map] at stored
  refine ⟨upload, _, _, found, inactive, ?_, ?_, ?_, ?_, List.take_sublist _ _, ?_, fun done => ?_,
    stored⟩
  · rfl
  · exact ⟨rfl, rfl, rfl⟩
  · exact ⟨rfl, rfl, rfl⟩
  · exact ⟨rfl, rfl, rfl, rfl⟩
  · rfl
  -- a cleanup that reports the end took every stored part
  rw [List.take_of_length_le]
  by_contra more
  simp [Nat.lt_of_not_le more] at done

theorem cleanupMultipartUploadParts_step {req : MultipartUploadRequest} {r : CleanupResult}
    (sound : ∀ b u, Sound b u (uploadState b u s))
    (ran : (cleanupMultipartUploadParts context req limit).run s = .ok (r, t)) (b u : String) :
    Step drawn b u (uploadState b u s) (uploadState b u t) := by
  obtain ⟨upload, upload', numbers, found, inactive, sameState, same, parts, result, inside, deleted,
    all, stored⟩ := cleanupMultipartUploadParts_cases ran
  obtain ⟨sameBucket, sameID⟩ := (sound _ _).identified found
  by_cases own : req.bucketID = b ∧ req.uploadID = u
  · obtain ⟨rfl, rfl⟩ := own
    rw [setMultipartUpload_state stored (same.1.trans sameBucket) (same.2.1.trans sameID),
      uploadState_eraseAll, if_neg (by rw [sameState]; exact inactive), same.2.2]
    refine Step.cleanup (v := uploadState _ _ s) found
      (((sound _ _).known found).resolve_left inactive) sameState same parts result _
      (fun n member => ?_) ?_ (fun done n present => ?_)
    · exact mem_partNumbers.mp (inside.subset (List.mem_toFinset.mp member))
    · rw [deleted, List.toFinset_card_of_nodup (partNumbers_nodup.sublist inside)]
    · rw [List.mem_toFinset, all done]
      exact mem_partNumbers.mpr present
  · rw [setMultipartUpload_other stored (by rw [same.1, same.2.1, sameBucket, sameID]; exact own),
      uploadState_eraseAll_other _ own]
    exact .skip _

theorem eraseParts_agree {P : Key → Prop} (numbers : List Nat)
    (apart : ∀ n, ¬ P (.multipartPart b u n)) :
    Agree P (OrderedStore.eraseAll (numbers.map (.multipartPart b u)) s) s := by
  intro k selected
  rw [OrderedStore.lookup_eraseAll, if_neg]
  intro member
  obtain ⟨n, -, rfl⟩ := List.mem_map.mp member
  exact apart n selected

end

end Namros.Multipart
