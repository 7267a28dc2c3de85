import Namros.Guarantees.IndexInvariant
import Namros.Multipart.Accounting
import Namros.Source.Tenants

/-!
# Accounting of active uploads

The `ActiveUploads` counter of a tenant should be the number of active uploads in the tenant's
existing buckets, so that `CreateMultipartUpload` refuses with `ErrQuotaExceeded` only when that
many uploads are really open. `DeleteBucket` looks at heads and versions and not at uploads: a
bucket with active uploads goes, its uploads are no longer counted by anyone, and the counter
keeps them. In runs that delete no bucket with an active upload the counter is right in every
store reached.
-/

namespace Namros.Guarantees

open Library Source Multipart Transaction

/-- The calls that move uploads and buckets. -/
inductive UploadCall
  | createBucket (req : CreateBucketRequest)
  | createMultipartUpload (req : CreateMultipartUploadRequest)
  | completeMultipartUpload (req : CompletionRequest)
  | abortMultipartUpload (req : MultipartUploadRequest)
  | deleteBucket (bucketID : String)

/-- The closure of a call. -/
def uploadCallBody (context : CallContext) : UploadCall → Tx Unit
  | .createBucket req => dropResult (createBucket context req)
  | .createMultipartUpload req => dropResult (createMultipartUpload context req)
  | .completeMultipartUpload req => dropResult (completeMultipartUpload context req)
  | .abortMultipartUpload req => dropResult (abortMultipartUpload context req)
  | .deleteBucket bucketID => deleteBucket bucketID

/-- The store after a sequence of calls; a failed call leaves it as it was. -/
def runUploadCalls (calls : List (CallContext × UploadCall)) (s : Store) : Store :=
  calls.foldl (fun s call => (uploadCallBody call.1 call.2).settle s) s

/-- A bucket deletion that goes through finds no active upload in the bucket. -/
def DeletesIdle (s : Store) : UploadCall → Prop
  | .deleteBucket bucketID => (deleteBucket bucketID).failure s = none → Idle s bucketID
  | _ => True

/-- Every bucket deletion of the run does. -/
def RunDeletesIdle (s : Store) : List (CallContext × UploadCall) → Prop
  | [] => True
  | call :: rest =>
    DeletesIdle s call.2 ∧ RunDeletesIdle ((uploadCallBody call.1 call.2).settle s) rest

instance (s : Store) (call : UploadCall) : Decidable (DeletesIdle s call) := by
  cases call <;> dsimp only [DeletesIdle] <;> infer_instance

instance decidableRunDeletesIdle : (s : Store) → (calls : List (CallContext × UploadCall)) →
    Decidable (RunDeletesIdle s calls)
  | _, [] => isTrue trivial
  | s, call :: rest =>
    have := decidableRunDeletesIdle ((uploadCallBody call.1 call.2).settle s) rest
    inferInstanceAs (Decidable (DeletesIdle s call.2 ∧ _))

/-- A quota refusal for the tenant means that so many uploads are open. -/
def RefusedAtQuota (tenantID : String) (s : Store) : Prop :=
  ∀ context req text bucket, s.lookup (.bucketByID req.bucketID) = some bucket →
    bucket.tenantID = tenantID →
    (createMultipartUpload context req).run s = .error (.quotaExceeded text) →
    ∃ quota, s.lookup (.tenantQuota tenantID) = some quota ∧ 0 < quota.maxActiveUploads ∧
      quota.maxActiveUploads ≤ openUploadCount tenantID s

variable {T : String} {s : Store}

theorem refusedAtQuota (h : Accounted T s) : RefusedAtQuota T s := by
  intro context req text bucket found mine refused
  obtain ⟨bucket', quota, found', limit, positive, reached⟩ := createMultipartUpload_refused refused
  rw [found] at found'
  cases found'
  subst mine
  rw [h.counted] at reached
  exact ⟨quota, limit, positive, reached⟩

/-- One call. -/
theorem uploadCall_accounted {call : CallContext × UploadCall} (h : Accounted T s)
    (idle : DeletesIdle s call.2) : Accounted T ((uploadCallBody call.1 call.2).settle s) := by
  obtain ⟨context, call⟩ := call
  refine settle_induction h fun a t ran => ?_
  cases call with
    (try replace ran := (run_dropResult_ok.mp ran).choose_spec)
  | createBucket req => exact createBucket_accounted h ran
  | createMultipartUpload req => exact createMultipartUpload_accounted h ran
  | completeMultipartUpload req => exact completeMultipartUpload_accounted h ran
  | abortMultipartUpload req => exact abortMultipartUpload_accounted h ran
  | deleteBucket bucketID =>
    have succeeds : (deleteBucket bucketID).failure s = none := by
      unfold Transaction.failure
      rw [show (deleteBucket bucketID).run s = .ok (a, t) from ran]
    exact deleteBucket_accounted h (idle succeeds) ran

/-- Every run. -/
theorem runUploadCalls_accounted {calls : List (CallContext × UploadCall)} (h : Accounted T s)
    (idle : RunDeletesIdle s calls) : Accounted T (runUploadCalls calls s) := by
  unfold runUploadCalls
  induction calls generalizing s with
  | nil => exact h
  | cons call rest ih => exact ih (uploadCall_accounted h idle.1) idle.2

/-- From a store in which the accounts of a tenant are in order, in every run that deletes no
bucket with an active upload, the tenant's counter is the number of active uploads in its
existing buckets, and a quota refusal means that so many are open. -/
theorem active_uploads_counted {calls : List (CallContext × UploadCall)} (start : Accounted T s)
    (idle : RunDeletesIdle s calls) :
    activeUploads T (runUploadCalls calls s) = openUploadCount T (runUploadCalls calls s) ∧
      RefusedAtQuota T (runUploadCalls calls s) :=
  have h := runUploadCalls_accounted start idle
  ⟨h.counted, refusedAtQuota h⟩

/-- A tenant with a quota of one upload. -/
def tenantStore : Store :=
  (putTenantQuota (numberedContext 0 0) { tenantID := "t", maxActiveUploads := 1 }).settle
    ((createTenant (numberedContext 0 0) { tenantID := "t" }).settle ∅)

theorem tenantStore_accounted : Accounted "t" tenantStore := by
  refine accounted_initial (by decide) (by decide +kernel) (by decide +kernel) ?_
  have listed : tenantStore.keys = [.tenantQuota "t", .tenant "t"] := by decide +kernel
  simp [listed]

/-- A bucket is created, an upload is started in it, and the bucket is deleted; another bucket is
created. -/
def abandonedUpload : List (CallContext × UploadCall) :=
  [(numberedContext 1 1, .createBucket { tenantID := "t", name := "b", region := "r" }),
   (numberedContext 2 2, .createMultipartUpload { bucketID := "bkt_1", key := "k" }),
   (numberedContext 3 3, .deleteBucket "bkt_1"),
   (numberedContext 4 4, .createBucket { tenantID := "t", name := "c", region := "r" })]

/-- The counter stays at one with no upload open, and the next upload is refused. -/
theorem abandoned_upload_counted :
    activeUploads "t" (runUploadCalls abandonedUpload tenantStore) = 1 ∧
      openUploadCount "t" (runUploadCalls abandonedUpload tenantStore) = 0 ∧
      (createMultipartUpload (numberedContext 5 5) { bucketID := "bkt_4", key := "k" }).failure
        (runUploadCalls abandonedUpload tenantStore) =
          some (.quotaExceeded "tenant \"t\" active multipart uploads 1 reached max 1") := by
  decide +kernel

/-- An upload is aborted before its bucket is deleted. -/
def abortedUpload : List (CallContext × UploadCall) :=
  [(numberedContext 1 1, .createBucket { tenantID := "t", name := "b", region := "r" }),
   (numberedContext 2 2, .createMultipartUpload { bucketID := "bkt_1", key := "k" }),
   (numberedContext 3 3, .abortMultipartUpload
     { bucketID := "bkt_1", key := "k", uploadID := "upl_2" }),
   (numberedContext 4 4, .deleteBucket "bkt_1")]

theorem aborted_upload_counted :
    activeUploads "t" (runUploadCalls abortedUpload tenantStore) =
        openUploadCount "t" (runUploadCalls abortedUpload tenantStore) ∧
      RefusedAtQuota "t" (runUploadCalls abortedUpload tenantStore) ∧
      (runUploadCalls abortedUpload tenantStore).lookup (.bucketByID "bkt_1") = none :=
  have counted := active_uploads_counted tenantStore_accounted
    (show RunDeletesIdle tenantStore abortedUpload by decide +kernel)
  ⟨counted.1, counted.2, by decide +kernel⟩

end Namros.Guarantees
