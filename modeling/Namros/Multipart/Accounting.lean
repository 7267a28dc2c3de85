import Namros.Library.Census
import Namros.Multipart.LifecycleSteps

/-!
# Open uploads of a tenant

`TenantUsage.ActiveUploads` is moved by one when an upload is created, completed or aborted
(`repository.go:322-376`), in the transaction that moves the upload. What it should count are
the active uploads in the tenant's existing buckets; the lemmas say how each call moves that
number.
-/

namespace Namros.Multipart

open Library Source Transaction

/-- The key is that of an active upload in an existing bucket of the tenant. -/
def openUpload (tenantID : String) (s : Store) : Key → Bool
  | .multipartUpload b u =>
    (s.lookup (.multipartUpload b u)).any (fun upload : MultipartUpload => upload.state = .active) &&
      (s.lookup (.bucketByID b)).any (fun bucket : Bucket => bucket.tenantID = tenantID)
  | _ => false

/-- The number of active uploads in the tenant's existing buckets. -/
def openUploadCount (tenantID : String) (s : Store) : Nat := census (openUpload tenantID s) s

/-- `ActiveUploads` of the tenant, zero without a usage record. -/
def activeUploads (tenantID : String) (s : Store) : Int :=
  ((s.lookup (.tenantUsage tenantID)).map TenantUsage.activeUploads).getD 0

/-- The upload `u` of bucket `b` is active. -/
def ActiveAt (s : Store) (b u : String) : Prop :=
  ∃ upload, s.lookup (.multipartUpload b u) = some upload ∧ upload.state = .active

/-- The bucket exists and is the tenant's. -/
def BucketOf (s : Store) (tenantID b : String) : Prop :=
  ∃ bucket, s.lookup (.bucketByID b) = some bucket ∧ bucket.tenantID = tenantID

/-- The accounts of a tenant are in order: its record exists, uploads are filed under their own
names, every active upload lies in an existing bucket, and the counter is right. -/
structure Accounted (tenantID : String) (s : Store) : Prop where
  named : tenantID ≠ ""
  tenant : (s.lookup (.tenant tenantID)).isSome
  filed : ∀ b u upload, s.lookup (.multipartUpload b u) = some upload →
    upload.bucketID = b ∧ upload.uploadID = u
  housed : ∀ b u, ActiveAt s b u → (s.lookup (.bucketByID b)).isSome
  counted : activeUploads tenantID s = openUploadCount tenantID s

variable {b : String} {bucket : Bucket} {upload : MultipartUpload} {x : Unit}

section

variable {T : String} {s t : Store} {context : CallContext}

theorem openUpload_iff {u : String} :
    openUpload T s (.multipartUpload b u) = true ↔ ActiveAt s b u ∧ BucketOf s T b := by
  simp [openUpload, ActiveAt, BucketOf, Option.any_eq_true]

theorem bucketOf_found (found : s.lookup (.bucketByID b) = some bucket)
    (others : ¬ bucket.tenantID = T) : ¬ BucketOf s T b := by
  rintro ⟨bucket', found', mine⟩
  rw [found] at found'
  cases found'
  exact others mine

theorem openUpload_stored (k : Key) (holds : openUpload T s k = true) : k ∈ s := by
  cases k with
  | multipartUpload b u =>
    obtain ⟨⟨upload, stored, -⟩, -⟩ := openUpload_iff.mp holds
    exact AList.lookup_isSome.mp (by rw [stored]; rfl)
  | _ => cases holds

/-! ## The writes -/

/-- The records accounts are read from, uploads apart. -/
def accountKey : Key → Prop
  | .bucketByID _ | .tenant _ | .tenantUsage _ => True
  | _ => False

theorem keepsAccounts_setMultipartUpload (upload : MultipartUpload) :
    Keeps accountKey (setMultipartUpload upload) := by
  refine .bind (keeps_setJSON _ id) fun _ => .ite ?_ ?_
  · exact fun _ => keeps_deleteKey id
  · exact fun _ => keeps_setJSON _ id

theorem setMultipartUpload_lookup (ran : (setMultipartUpload upload).run s = .ok (x, t))
    (b u : String) :
    t.lookup (.multipartUpload b u) =
      if upload.bucketID = b ∧ upload.uploadID = u then some upload
      else s.lookup (.multipartUpload b u) := by
  split
  · rename_i own
    exact congrArg UploadState.upload (setMultipartUpload_state ran own.1 own.2)
  · rename_i other
    exact congrArg UploadState.upload (setMultipartUpload_other ran other)

theorem tenantUsageAfter_activeUploads {existing usage : TenantUsage} {tenantID : String}
    {delta : Int} {now hostNow : Time}
    (built : tenantUsageAfter existing tenantID delta now hostNow = .ok usage) :
    usage.activeUploads = max 0 (existing.activeUploads + delta) := by
  unfold tenantUsageAfter at built
  split at built
  · cases built
  split at built
  · cases built
  · cases built
    rfl

/-- The counter of a tenant with a record moves by the delta and stops at zero; the counters of
other tenants stay. -/
theorem applyTenantActiveUploadDelta_counts {tenantID : String} {delta : Int} {now hostNow : Time}
    (named : T ≠ "") (tenant : (s.lookup (.tenant T)).isSome)
    (ran : (applyTenantActiveUploadDelta tenantID delta now hostNow).run s = .ok (x, t)) :
    activeUploads T t =
      if tenantID = T then max 0 (activeUploads T s + delta) else activeUploads T s := by
  unfold applyTenantActiveUploadDelta at ran
  split at ran
  · rename_i anonymous
    cases ran
    rw [if_neg (by rw [anonymous]; exact Ne.symm named)]
  replace ran := past ran rfl
  split at ran
  · rename_i absent
    cases ran
    split
    · rename_i same
      subst same
      simp [absent] at tenant
    · rfl
  · replace ran := past ran rfl
    obtain ⟨usage, built, ran⟩ := ofOutcome_bind_ok.mp ran
    cases ran
    split
    · rename_i same
      subst same
      unfold activeUploads
      rw [AList.lookup_insert, Option.map_some, Option.getD_some,
        tenantUsageAfter_activeUploads built]
      cases s.lookup (.tenantUsage tenantID) <;> rfl
    · rename_i other
      unfold activeUploads
      rw [AList.lookup_insert_ne (by simpa using Ne.symm other)]

/-! ## An upload record is stored -/

/-- One upload record is stored; the other uploads, the buckets and the tenants stay. -/
structure Stores (upload : MultipartUpload) (s t : Store) : Prop where
  uploads : ∀ b u, t.lookup (.multipartUpload b u) =
    if upload.bucketID = b ∧ upload.uploadID = u then some upload
    else s.lookup (.multipartUpload b u)
  buckets : ∀ b, t.lookup (.bucketByID b) = s.lookup (.bucketByID b)
  tenants : ∀ tenantID, t.lookup (.tenant tenantID) = s.lookup (.tenant tenantID)

theorem stores_of_run {s₁ : Store} (stored : (setMultipartUpload upload).run s = .ok (x, s₁))
    (counted : Agree (fun k => ¬ tenantUsageKey k) t s₁) : Stores upload s t where
  uploads b u := (counted (.multipartUpload b u) id).trans (setMultipartUpload_lookup stored b u)
  buckets b := (counted (.bucketByID b) id).trans
    (keepsAccounts_setMultipartUpload upload _ _ _ stored (.bucketByID b) trivial)
  tenants tenantID := (counted (.tenant tenantID) id).trans
    (keepsAccounts_setMultipartUpload upload _ _ _ stored (.tenant tenantID) trivial)

namespace Stores

variable {upload : MultipartUpload}

theorem bucketOf (h : Stores upload s t) (b : String) : BucketOf t T b ↔ BucketOf s T b := by
  simp [BucketOf, h.buckets]

theorem activeAt_other (h : Stores upload s t) {u : String}
    (other : ¬ (upload.bucketID = b ∧ upload.uploadID = u)) : ActiveAt t b u ↔ ActiveAt s b u := by
  simp [ActiveAt, h.uploads, other]

theorem activeAt_self (h : Stores upload s t) :
    ActiveAt t upload.bucketID upload.uploadID ↔ upload.state = .active := by
  simp [ActiveAt, h.uploads]

theorem openUpload_other (h : Stores upload s t) (k : Key)
    (other : k ≠ .multipartUpload upload.bucketID upload.uploadID) :
    openUpload T t k = openUpload T s k := by
  cases k with
  | multipartUpload b u =>
    have different : ¬ (upload.bucketID = b ∧ upload.uploadID = u) := by
      rintro ⟨rfl, rfl⟩
      exact other rfl
    rw [Bool.eq_iff_iff, openUpload_iff, openUpload_iff, h.activeAt_other different, h.bucketOf]
  | _ => rfl

/-- An upload in another tenant's bucket is never counted. -/
theorem count_other (h : Stores upload s t) (others : ¬ BucketOf s T upload.bucketID) :
    openUploadCount T t = openUploadCount T s := by
  refine census_same openUpload_stored openUpload_stored fun k => ?_
  by_cases own : k = .multipartUpload upload.bucketID upload.uploadID
  · subst own
    rw [Bool.eq_iff_iff, openUpload_iff, openUpload_iff, h.bucketOf]
    simp [others]
  · exact h.openUpload_other k own

/-- The accounts stay in order if the counter moves with the number of open uploads. -/
theorem accounted (h : Stores upload s t) (before : Accounted T s)
    (bucket : upload.state = .active → (s.lookup (.bucketByID upload.bucketID)).isSome)
    (counted : activeUploads T t = openUploadCount T t) : Accounted T t where
  named := before.named
  tenant := by
    rw [h.tenants]
    exact before.tenant
  filed b u record found := by
    rw [h.uploads] at found
    split at found
    · rename_i own
      cases found
      exact own
    · exact before.filed b u record found
  housed b u active := by
    rw [h.buckets]
    by_cases own : upload.bucketID = b ∧ upload.uploadID = u
    · obtain ⟨rfl, rfl⟩ := own
      exact bucket (h.activeAt_self.mp active)
    · exact before.housed b u ((h.activeAt_other own).mp active)
  counted := counted

end Stores

/-- Creating an upload. -/
theorem createMultipartUpload_accounted {req : CreateMultipartUploadRequest} {r : MultipartUpload}
    (h : Accounted T s) (ran : (createMultipartUpload context req).run s = .ok (r, t)) :
    Accounted T t := by
  obtain ⟨bucket, s₁, found, -, absent, opened, stored, charged⟩ := createMultipartUpload_ok ran
  have kept := keepsAccounts_setMultipartUpload r _ _ _ stored
  have stores := stores_of_run stored (keeps_applyTenantActiveUploadDelta _ _ _ _ _ _ _ charged)
  have counter := applyTenantActiveUploadDelta_counts h.named
    (by rw [kept (.tenant T) trivial]; exact h.tenant) charged
  have unmoved : activeUploads T s₁ = activeUploads T s := by
    unfold activeUploads
    rw [kept (.tenantUsage T) trivial]
  have closed : openUpload T s (.multipartUpload r.bucketID r.uploadID) = false := by
    rw [Bool.eq_false_iff, ne_eq, openUpload_iff]
    rintro ⟨⟨upload, present, -⟩, -⟩
    rw [absent] at present
    cases present
  refine stores.accounted h (fun _ => by rw [found]; rfl) ?_
  rw [counter, unmoved, h.counted]
  split
  · rename_i mine
    have gained : openUploadCount T t = openUploadCount T s + 1 := by
      refine census_gain openUpload_stored openUpload_stored closed ?_ stores.openUpload_other
      exact openUpload_iff.mpr ⟨stores.activeAt_self.mpr opened.active,
        (stores.bucketOf _).mpr ⟨bucket, found, mine⟩⟩
    omega
  · rename_i others
    have same := stores.count_other (bucketOf_found found others)
    omega

/-- Closing an active upload, by completion or by abortion. -/
theorem closeUpload_accounted {target : MultipartUploadRequest} {upload' : MultipartUpload}
    (h : Accounted T s) (present : (uploadRecords target s).upload = some upload)
    (closed : upload'.state ≠ .active) (closes : Closes context upload upload' s t) :
    Accounted T t := by
  obtain ⟨active, same, -, -, s₁, stored, charged⟩ := closes
  have present : s.lookup (.multipartUpload target.bucketID target.uploadID) = some upload := present
  obtain ⟨sameBucket, sameID⟩ := h.filed _ _ _ present
  have atBucket : upload'.bucketID = target.bucketID := same.1.trans sameBucket
  have atID : upload'.uploadID = target.uploadID := same.2.1.trans sameID
  have wasActive : ActiveAt s upload'.bucketID upload'.uploadID := by
    rw [atBucket, atID]
    exact ⟨upload, present, active⟩
  obtain ⟨bucket, found⟩ := Option.isSome_iff_exists.mp (h.housed _ _ wasActive)
  have kept := keepsAccounts_setMultipartUpload upload' _ _ _ stored
  have stores := stores_of_run stored
    (keeps_applyTenantActiveUploadDeltaForBucket _ _ _ _ _ _ _ charged)
  obtain ⟨_, _, read, charged⟩ := of_bind charged
  rw [run_getJSON, kept (.bucketByID upload'.bucketID) trivial, found] at read
  cases read
  have counter := applyTenantActiveUploadDelta_counts h.named
    (by rw [kept (.tenant T) trivial]; exact h.tenant) charged
  have unmoved : activeUploads T s₁ = activeUploads T s := by
    unfold activeUploads
    rw [kept (.tenantUsage T) trivial]
  have notOpen : openUpload T t (.multipartUpload upload'.bucketID upload'.uploadID) = false := by
    rw [Bool.eq_false_iff, ne_eq, openUpload_iff, stores.activeAt_self]
    exact fun both => closed both.1
  refine stores.accounted h (fun reopened => absurd reopened closed) ?_
  rw [counter, unmoved, h.counted]
  split
  · rename_i mine
    have lost : openUploadCount T s = openUploadCount T t + 1 :=
      census_gain openUpload_stored openUpload_stored notOpen
        (openUpload_iff.mpr ⟨wasActive, bucket, found, mine⟩)
        fun k other => (stores.openUpload_other k other).symm
    omega
  · rename_i others
    have same := stores.count_other (bucketOf_found found others)
    omega

theorem completeMultipartUpload_accounted {req : CompletionRequest} {r : MultipartUpload}
    (h : Accounted T s) (ran : (completeMultipartUpload context req).run s = .ok (r, t)) :
    Accounted T t := by
  obtain ⟨upload, found, ⟨-, rfl⟩ | ⟨completed, closes⟩⟩ := completeMultipartUpload_cases ran
  · exact h
  · exact closeUpload_accounted h found (by simp [completed]) closes

theorem abortMultipartUpload_accounted {req : MultipartUploadRequest} {r : List MultipartPart}
    (h : Accounted T s) (ran : (abortMultipartUpload context req).run s = .ok (r, t)) :
    Accounted T t := by
  obtain ⟨-, upload, found, ⟨-, rfl⟩ | ⟨upload', aborted, closes⟩⟩ :=
    abortMultipartUpload_cases ran
  · exact h
  · exact closeUpload_accounted h found (by simp [aborted]) closes

/-! ## Buckets -/

/-- No upload of the bucket is active. -/
def Idle (s : Store) (b : String) : Prop := ∀ u, ¬ ActiveAt s b u

/-- The key is that of an active upload of the bucket. -/
def activeIn (b : String) (s : Store) : Key → Bool
  | .multipartUpload b' u => b' = b &&
      (s.lookup (.multipartUpload b' u)).any (fun upload : MultipartUpload => upload.state = .active)
  | _ => false

theorem idle_iff : Idle s b ↔ ∀ k ∈ s.keys, activeIn b s k = false := by
  constructor
  · intro idle k _
    cases k with
    | multipartUpload b' u =>
      rw [Bool.eq_false_iff]
      intro active
      simp only [activeIn, Bool.and_eq_true, decide_eq_true_eq, Option.any_eq_true] at active
      obtain ⟨rfl, upload, stored, active⟩ := active
      exact idle u ⟨upload, stored, active⟩
    | _ => rfl
  · rintro none u ⟨upload, stored, active⟩
    have listed : Key.multipartUpload b u ∈ s.keys := AList.lookup_isSome.mp (by rw [stored]; rfl)
    have idle := none _ listed
    simp [activeIn, stored, active] at idle

instance (s : Store) (b : String) : Decidable (Idle s b) := decidable_of_iff _ idle_iff.symm

/-- The accounts of a tenant are in order before its first upload. -/
theorem accounted_initial (named : T ≠ "") (tenant : (s.lookup (.tenant T)).isSome)
    (unused : s.lookup (.tenantUsage T) = none)
    (empty : ∀ k ∈ s.keys, ∀ b u, k ≠ .multipartUpload b u) : Accounted T s := by
  have absent : ∀ b u, s.lookup (.multipartUpload b u) = none := by
    intro b u
    rw [AList.lookup_eq_none]
    exact fun listed => empty _ listed b u rfl
  have none : openUploadCount T s = 0 := by
    refine List.length_eq_zero_iff.mpr (List.filter_eq_nil_iff.mpr fun k listed => ?_)
    cases k with
    | multipartUpload b u => exact absurd rfl (empty _ listed b u)
    | _ => simp [openUpload]
  exact ⟨named, tenant, by simp [absent], by simp [ActiveAt, absent], by
    simp [activeUploads, unused, none]⟩

/-- Buckets come and go where no upload is active; the accounts stay in order. -/
theorem Accounted.of_buckets (h : Accounted T s)
    (uploads : ∀ b u, t.lookup (.multipartUpload b u) = s.lookup (.multipartUpload b u))
    (tenant : t.lookup (.tenant T) = s.lookup (.tenant T))
    (usage : t.lookup (.tenantUsage T) = s.lookup (.tenantUsage T))
    (buckets : ∀ b, ¬ Idle s b → t.lookup (.bucketByID b) = s.lookup (.bucketByID b)) :
    Accounted T t := by
  have active : ∀ b u, ActiveAt t b u ↔ ActiveAt s b u := by simp [ActiveAt, uploads]
  have busy : ∀ b u, ActiveAt s b u → t.lookup (.bucketByID b) = s.lookup (.bucketByID b) :=
    fun b u there => buckets b fun idle => idle u there
  have same : openUploadCount T t = openUploadCount T s :=
    census_same openUpload_stored openUpload_stored fun k => by
      cases k with
      | multipartUpload b u =>
        rw [Bool.eq_iff_iff, openUpload_iff, openUpload_iff, active b u]
        exact and_congr_right fun there => by simp [BucketOf, busy b u there]
      | _ => rfl
  refine ⟨h.named, by rw [tenant]; exact h.tenant, ?_, ?_, ?_⟩
  · intro b u upload found
    rw [uploads] at found
    exact h.filed b u upload found
  · intro b u there
    rw [active] at there
    rw [busy b u there]
    exact h.housed b u there
  · rw [same, ← h.counted]
    simp [activeUploads, usage]

theorem createBucketFrom_lookup {req : CreateBucketRequest} {remaining attempt : Nat}
    (ran : (createBucketFrom context req remaining attempt).run s = .ok (bucket, t)) :
    s.lookup (.bucketByID bucket.bucketID) = none ∧
      ∀ b, b ≠ bucket.bucketID → t.lookup (.bucketByID b) = s.lookup (.bucketByID b) := by
  induction remaining generalizing attempt with
  | zero => cases ran
  | succ remaining ih =>
    obtain ⟨bucketID, -, ran⟩ := orFail_bind_ok.mp ran
    replace ran := past ran rfl
    split at ran
    · exact ih ran
    rename_i absent
    dsimp only at ran
    generalize made : (if req.objectLockEnabled = true then _ else _ : Bucket) = locked at ran
    have named : locked.bucketID = bucketID := by
      rw [← made]
      split <;> rfl
    replace ran := past ran rfl
    replace ran := past ran rfl
    cases ran
    rw [named]
    refine ⟨absent, fun b other => ?_⟩
    rw [AList.lookup_insert_ne (by simp), AList.lookup_insert_ne (by simpa using other)]

/-- A new bucket gets an id no bucket has, so no active upload lies under it. -/
theorem createBucket_accounted {req : CreateBucketRequest} (h : Accounted T s)
    (ran : (createBucket context req).run s = .ok (bucket, t)) : Accounted T t := by
  have kept := keeps_createBucket context req s bucket t ran
  obtain ⟨-, ran⟩ := failIf_bind_ok.mp ran
  replace ran := past ran rfl
  obtain ⟨-, ran⟩ := failIf_bind_ok.mp ran
  obtain ⟨absent, others⟩ := createBucketFrom_lookup ran
  refine h.of_buckets (fun b u => kept _ id) (kept _ id) (kept _ id) fun b busy => ?_
  refine others b ?_
  rintro rfl
  refine busy fun u there => ?_
  simpa [absent] using h.housed _ _ there

/-- A bucket without active uploads goes. -/
theorem deleteBucket_accounted {bucketID : String} (h : Accounted T s) (idle : Idle s bucketID)
    (ran : (deleteBucket bucketID).run s = .ok (x, t)) : Accounted T t := by
  obtain ⟨bucket, _, step, ran⟩ := of_bind ran
  obtain ⟨-, rfl⟩ := requireBucket_ok step
  replace ran := past ran rfl
  replace ran := past ran rfl
  obtain ⟨-, ran⟩ := failIf_bind_ok.mp ran
  cases ran
  refine h.of_buckets (fun b u => ?_) ?_ ?_ fun b busy => ?_
  · simp only [ne_eq, reduceCtorEq, not_false_eq_true, AList.lookup_erase_ne]
  · simp only [ne_eq, reduceCtorEq, not_false_eq_true, AList.lookup_erase_ne]
  · simp only [ne_eq, reduceCtorEq, not_false_eq_true, AList.lookup_erase_ne]
  have other : b ≠ bucketID := by
    rintro rfl
    exact busy idle
  rw [AList.lookup_erase_ne (by simp), AList.lookup_erase_ne (by simp),
    AList.lookup_erase_ne (by simpa using other)]

/-! ## Refusals -/

/-- The error is not a quota refusal. -/
def NotQuota : Error → Prop
  | .quotaExceeded _ => False
  | _ => True

theorem validateObjectLockState_notQuota {retention : ObjectLockRetention}
    {legalHold : LegalHoldStatus} {e : Error}
    (failed : validateObjectLockState retention legalHold = .error e) : NotQuota e := by
  have raised : ∀ ran : Except Error Unit, ran = .ok () ∨
      (∃ message, ran = .error (.invalidArgument message)) → ran = .error e →
        NotQuota e := by
    rintro _ (rfl | ⟨message, rfl⟩) failed <;> cases failed
    trivial
  refine raised _ ?_ failed
  unfold validateObjectLockState
  split_ifs <;> cases legalHold <;> simp [bind, Except.bind, pure, Except.pure, throw, throwThe,
    MonadExceptOf.throw]

theorem nextFreeID_notQuota {newID : Nat → Option String} {recordKey : String → Key}
    {generate exhausted : String} (remaining attempt : Nat) :
    Raises NotQuota (nextFreeID newID recordKey generate exhausted remaining attempt) := by
  induction remaining generalizing attempt with
  | zero => exact .throw trivial
  | succ remaining ih =>
    refine .bind (.orFail trivial) fun id => .bind (.of_total (total_getJSON _)) fun taken => ?_
    cases taken with
    | some _ => exact ih _
    | none => exact .of_total (.pure _)

theorem applyTenantActiveUploadDelta_notQuota (tenantID : String) (delta : Int)
    (now hostNow : Time) :
    Raises NotQuota (applyTenantActiveUploadDelta tenantID delta now hostNow) := by
  refine .ite (.of_total (.pure _)) (.bind (.of_total (total_getJSON _)) fun tenant => ?_)
  cases tenant with
  | none => exact .of_total (.pure _)
  | some _ =>
    refine .bind (.of_total (total_getJSON _)) fun existing => .bind (.ofOutcome ?_) fun usage =>
      .of_total (total_setJSON _ _)
    intro e failed
    unfold tenantUsageAfter at failed
    split_ifs at failed <;> cases failed <;> trivial

theorem total_setMultipartUpload (upload : MultipartUpload) : Total (setMultipartUpload upload) :=
  .bind (total_setJSON _ _) fun _ => .ite (total_deleteKey _) (total_setJSON _ _)

/-- A quota refusal comes from the counter of the bucket's tenant having reached the quota. -/
theorem createMultipartUpload_refused {req : CreateMultipartUploadRequest} {text : String}
    (failed : (createMultipartUpload context req).run s = .error (.quotaExceeded text)) :
    ∃ bucket quota, s.lookup (.bucketByID req.bucketID) = some bucket ∧
      s.lookup (.tenantQuota bucket.tenantID) = some quota ∧ 0 < quota.maxActiveUploads ∧
      quota.maxActiveUploads ≤ activeUploads bucket.tenantID s := by
  obtain step | ⟨_, _, step, failed⟩ := run_bind_error.mp failed
  · cases (run_failIf_error.mp step).2
  obtain ⟨-, rfl⟩ := run_failIf_ok.mp step
  obtain step | ⟨_, _, step, failed⟩ := run_bind_error.mp failed
  · exact (validateObjectLockState_notQuota (run_ofOutcome_error.mp step)).elim
  obtain ⟨-, rfl⟩ := run_ofOutcome_ok.mp step
  obtain step | ⟨bucket, _, step, failed⟩ := run_bind_error.mp failed
  · obtain step | ⟨_, _, -, step⟩ := run_bind_error.mp step
    · cases step
    · cases (run_orFail_error.mp step).2
  obtain ⟨found, rfl⟩ := requireBucket_ok step
  obtain refused | ⟨_, s₁, -, failed⟩ := run_bind_error.mp failed
  · unfold enforceTenantActiveUploadQuota at refused
    split at refused
    · cases refused
    obtain step | ⟨_, _, read, refused⟩ := run_bind_error.mp refused
    · cases step
    cases read
    obtain step | ⟨_, _, read, refused⟩ := run_bind_error.mp refused
    · cases step
    cases read
    obtain ⟨⟨positive, reached⟩, -⟩ := run_failIf_error.mp refused
    cases limit : s.lookup (.tenantQuota bucket.tenantID) with
    | none => simp [limit] at positive
    | some quota =>
      simp only [limit, Option.map_some, Option.getD_some] at positive reached
      exact ⟨bucket, quota, found, limit, positive, reached⟩
  · refine absurd ?_ (not_false : ¬ NotQuota (.quotaExceeded text))
    refine Raises.bind (nextFreeID_notQuota _ _) (fun uploadID => ?_) s₁ _ failed
    exact .bind (.of_total (total_setMultipartUpload _)) fun _ =>
      .bind (applyTenantActiveUploadDelta_notQuota _ _ _ _) fun _ => .of_total (.pure _)

end

end Namros.Multipart
