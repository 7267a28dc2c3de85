import Namros.Source.Footprints
import Namros.Source.MultipartGateway

/-!
# The records of multipart uploads

The records of one upload, what the reading calls return of them, and which records the writing
calls leave alone.
-/

namespace Namros.Source

open Library Transaction

variable {s t : Store} {context : CallContext}

/-! ## Parts of an upload -/

theorem partPrefix_isPrefix_iff (b u : String) (K : Key) :
    partPrefix b u <+: K.encode ↔ ∃ n, K = .multipartPart b u n := by
  refine below_nil_isPrefix_family (.multipartPart b u) (fun n => ⟨_, _, rfl⟩)
    (fun J c r shape => ?_) K
  cases J <;> simp [Key.path, optionalComponent, bytes_inj] at shape ⊢
  exact ⟨shape.1, shape.2.1⟩

theorem part_path_inj (b u : String) (m n : Nat)
    (same : (Key.multipartPart b u m).path = (Key.multipartPart b u n).path) :
    Key.multipartPart b u m = .multipartPart b u n := by
  simp only [Key.path, List.cons.injEq, true_and, and_true] at same
  rw [leftPadInt_inj.mp same]

theorem mem_partRecords {b u : String} {K : Key} {part : MultipartPart} :
    (K, part) ∈ recordsUnder asMultipartPart (partPrefix b u) s ↔
      ∃ n, K = .multipartPart b u n ∧ s.lookup (.multipartPart b u n) = some part := by
  have decoded n : asMultipartPart (.multipartPart b u n) = some := rfl
  rw [mem_recordsUnder_family (partPrefix_isPrefix_iff b u) (part_path_inj b u)]
  simp only [decoded, Option.bind_fun_some]

/-! ## Footprint -/

def multipartKey : Key → Prop
  | .multipartUpload _ _ | .multipartUploadByKey _ (.text _) _ | .multipartPart _ _ _
  | .multipartCompletion _ _ | .tenantUsage _ => True
  | _ => False

theorem readOnly_getUpload (req : MultipartUploadRequest) : ReadOnly (getUpload req) := by
  refine .bind (.failIf _ _) fun _ => .bind (readOnly_getJSON _) fun _ => ?_
  exact .bind (.orFail _ _) fun _ => .bind (.failIf _ _) fun _ => .pure _

theorem readOnly_getMultipartCompletion (req : MultipartUploadRequest) :
    ReadOnly (getMultipartCompletion req) := by
  refine .bind (readOnly_getJSON _) fun _ => .bind (.orFail _ _) fun _ => ?_
  exact .bind (.failIf _ _) fun _ => .pure _

theorem readOnly_listParts (req : MultipartUploadRequest) : ReadOnly (listParts req) :=
  .bind (readOnly_scanRecords _ _) fun _ => .pure _

theorem keeps_setMultipartUpload (upload : MultipartUpload) :
    Writes multipartKey (setMultipartUpload upload) := by
  refine .bind (writes_setJSON _ trivial) fun _ => .ite ?_ ?_
  · exact fun _ => writes_deleteKey trivial
  · exact fun _ => writes_setJSON _ trivial

def tenantUsageKey : Key → Prop
  | .tenantUsage _ => True
  | _ => False

theorem keeps_applyTenantActiveUploadDelta (tenantID : String) (delta : Int) (now hostNow : Time) :
    Writes tenantUsageKey
      (applyTenantActiveUploadDelta tenantID delta now hostNow) := by
  refine .ite (fun _ => .pure _) fun _ => .bind (keeps_getJSON _) fun tenant => ?_
  split
  · exact .pure _
  · refine .bind (keeps_getJSON _) fun _ => .bind (.ofOutcome _) fun _ => ?_
    exact writes_setJSON _ trivial

theorem keeps_applyTenantActiveUploadDeltaForBucket (bucketID : String) (delta : Int)
    (now hostNow : Time) : Writes tenantUsageKey
      (applyTenantActiveUploadDeltaForBucket bucketID delta now hostNow) := by
  refine .bind (keeps_getJSON _) fun bucket => ?_
  split
  · exact .pure _
  · exact keeps_applyTenantActiveUploadDelta _ _ _ _

theorem readOnly_enforceTenantActiveUploadQuota (tenantID : String) :
    ReadOnly (enforceTenantActiveUploadQuota tenantID) :=
  .ite (.pure _) (.bind (readOnly_getJSON _) fun _ => .bind (readOnly_getJSON _) fun _ =>
    .failIf _ _)

theorem keeps_createMultipartUpload (req : CreateMultipartUploadRequest) :
    Writes multipartKey (createMultipartUpload context req) := by
  refine .bind (.failIf _ _) fun _ => .bind (.ofOutcome _) fun _ =>
    .read (readOnly_requireBucket _) fun _ =>
      .read (readOnly_enforceTenantActiveUploadQuota _) fun _ =>
        .read (readOnly_nextFreeID _ _) fun _ =>
          .bind (keeps_setMultipartUpload _) fun _ => .bind ?_ fun _ => .pure _
  refine (keeps_applyTenantActiveUploadDelta _ _ _ _).mono fun k outside inside => outside ?_
  cases k <;> first | exact inside.elim | trivial

/-! ## The records of one upload -/

structure UploadRecords where
  upload : Option MultipartUpload
  completion : Option MultipartCompletionRecord
  part : Nat → Option MultipartPart

def uploadRecords (target : MultipartUploadRequest) (s : Store) : UploadRecords where
  upload := s.lookup (.multipartUpload target.bucketID target.uploadID)
  completion := s.lookup (.multipartCompletion target.bucketID target.uploadID)
  part n := s.lookup (.multipartPart target.bucketID target.uploadID n)

variable {target : MultipartUploadRequest}

/-- An upload record stored under its own identity. -/
def MultipartUpload.Identified (target : MultipartUploadRequest) (upload : MultipartUpload) :
    Prop :=
  upload.bucketID = target.bucketID ∧ upload.uploadID = target.uploadID

/-! ## Reading -/

variable {req : MultipartUploadRequest}

theorem getUpload_ok {upload : MultipartUpload} (ran : (getUpload req).run s = .ok (upload, t)) :
    s = t ∧ (uploadRecords req s).upload = some upload := by
  obtain ⟨-, ran⟩ := failIf_bind_ok.mp ran
  replace ran := past ran rfl
  obtain ⟨_, found, ran⟩ := orFail_bind_ok.mp ran
  obtain ⟨-, ran⟩ := failIf_bind_ok.mp ran
  cases ran
  exact ⟨rfl, found⟩

theorem getActiveUpload_ok {upload : MultipartUpload}
    (ran : (getActiveUpload req).run s = .ok (upload, t)) :
    (uploadRecords req s).upload = some upload ∧ upload.state = .active ∧ s = t := by
  obtain ⟨_, _, step, ran⟩ := of_bind ran
  obtain ⟨rfl, found⟩ := getUpload_ok step
  obtain ⟨active, ran⟩ := failIf_bind_ok.mp ran
  cases ran
  exact ⟨found, not_not.mp active, rfl⟩

theorem getMultipartCompletion_ok {record : MultipartCompletionRecord}
    (ran : (getMultipartCompletion req).run s = .ok (record, t)) :
    s = t ∧ (uploadRecords req s).completion = some record := by
  replace ran := past ran rfl
  obtain ⟨_, found, ran⟩ := orFail_bind_ok.mp ran
  obtain ⟨-, ran⟩ := failIf_bind_ok.mp ran
  cases ran
  exact ⟨rfl, found⟩

variable {parts : List MultipartPart}

theorem listParts_ok (ran : (listParts req).run s = .ok (parts, t)) :
    s = t ∧ ∀ part ∈ parts, ∃ n, (uploadRecords req s).part n = some part := by
  replace ran := past ran rfl
  cases ran
  refine ⟨rfl, fun part member => ?_⟩
  rw [List.mem_mergeSort, List.mem_map] at member
  obtain ⟨⟨K, part⟩, member, rfl⟩ := member
  obtain ⟨n, -, stored⟩ := mem_partRecords.mp member
  exact ⟨n, stored⟩

theorem partsNumbered_ok {b u : String} {partNumbers : List Int}
    (ran : (partsNumbered b u partNumbers).run s = .ok (parts, t)) :
    s = t ∧ ∀ part ∈ parts, ∃ n, s.lookup (.multipartPart b u n) = some part := by
  induction partNumbers generalizing parts t with
  | nil =>
    cases ran
    exact ⟨rfl, by simp⟩
  | cons partNumber rest ih =>
    replace ran := past ran rfl
    obtain ⟨later, _, step, ran⟩ := of_bind ran
    obtain ⟨rfl, stored⟩ := ih step
    cases ran
    refine ⟨rfl, fun part member => ?_⟩
    rcases List.mem_append.mp member with first | member
    · exact ⟨_, Option.mem_toList.mp first⟩
    · exact stored part member

theorem applyMultipartPartSummary_identity (upload : MultipartUpload) (part : MultipartPart)
    (previous : Option MultipartPart) (now : Time) :
    (applyMultipartPartSummary upload part previous now).bucketID = upload.bucketID ∧
      (applyMultipartPartSummary upload part previous now).uploadID = upload.uploadID ∧
      (applyMultipartPartSummary upload part previous now).state = upload.state := by
  cases previous <;> exact ⟨rfl, rfl, rfl⟩

end Namros.Source
