import Namros.Index.Moves

/-!
# The object index over whole runs

From the empty store, whatever calls are made and whether they succeed or fail, the index of
heads, list entries, versions and locators stays consistent, provided the id generator does not
repeat itself.
-/

namespace Namros.Guarantees

open Library Source Index Transaction

/-- The calls that write object records, and the bucket and shared-object calls they depend
on. -/
inductive ObjectCall
  | createBucket (req : CreateBucketRequest)
  | putBucketVersioning (bucketID : String) (state : BucketVersioningState)
  | beginPutObject (req : PutObjectRequest)
  | commitObjectVersion (req : CommitObjectVersionRequest)
  | putObjectVersion (req : PutObjectRequest)
  | deleteObject (req : DeleteObjectRequest)
  | putObjectTags (req : ObjectTagsRequest)
  | deleteObjectTags (req : ObjectTagsRequest)
  | putObjectRetention (req : ObjectRetentionRequest)
  | putObjectLegalHold (req : ObjectLegalHoldRequest)
  | publishObjectVersionRefs (req : PublishObjectVersionRefsRequest)
  | publishSharedObject (req : PublishSharedObjectRequest)
  | attachObjectVersionToSharedObject (req : AttachRequest)

/-- The closure of a call. -/
def objectCallBody (platform : Platform) (context : CallContext) : ObjectCall → Tx Unit
  | .createBucket req => dropResult (createBucket context req)
  | .putBucketVersioning bucketID state => dropResult (putBucketVersioning bucketID state)
  | .beginPutObject req => dropResult (beginPutObject platform context req)
  | .commitObjectVersion req => dropResult (commitObjectVersion platform context req)
  | .putObjectVersion req => dropResult (putObjectVersion platform context req)
  | .deleteObject req => dropResult (deleteObject platform context req)
  | .putObjectTags req => putObjectTags platform req
  | .deleteObjectTags req => deleteObjectTags platform req
  | .putObjectRetention req => putObjectRetention platform context req
  | .putObjectLegalHold req => putObjectLegalHold platform context req
  | .publishObjectVersionRefs req => dropResult (publishObjectVersionRefs platform context req)
  | .publishSharedObject req => dropResult (publishSharedObject platform context req)
  | .attachObjectVersionToSharedObject req =>
    dropResult (attachObjectVersionToSharedObject platform context req)

/-- The store after a sequence of calls; a failed call leaves it as it was. -/
def runCalls (platform : Platform) (calls : List (CallContext × ObjectCall)) (s : Store) : Store :=
  calls.foldl (fun s call => (objectCallBody platform call.1 call.2).settle s) s

/-- The version ids a call may draw. -/
def issuedVersionIDs (context : CallContext) : List String :=
  (List.range idCollisionRetryLimit).filterMap (context.newID .version)

/-- Over the whole run the generator issues no version id twice, and never the empty text. -/
def NeverRepeats {γ : Type} (calls : List (CallContext × γ)) : Prop :=
  (calls.flatMap fun call => issuedVersionIDs call.1).Nodup ∧
    ∀ call ∈ calls, "" ∉ issuedVersionIDs call.1

instance {γ : Type} (calls : List (CallContext × γ)) : Decidable (NeverRepeats calls) :=
  inferInstanceAs (Decidable (_ ∧ _))

variable {U : Set String}

theorem issuesFresh_of_issued {context : CallContext} (named : "" ∉ issuedVersionIDs context)
    (unissued : ∀ id ∈ issuedVersionIDs context, id ∉ U) :
    IssuesFresh context U (U ∪ {id | id ∈ issuedVersionIDs context}) := by
  refine ⟨Set.subset_union_left, fun n below id drawn => ?_⟩
  have issued : id ∈ issuedVersionIDs context :=
    List.mem_filterMap.mpr ⟨n, List.mem_range.mpr below, drawn⟩
  refine ⟨?_, unissued id issued, .inr issued⟩
  rintro rfl
  exact named issued

/-! ## One call -/

variable {s : Store}

/-- What a successful call does to the index and to the holdings. -/
theorem objectCallBody_advances {platform : Platform} {context : CallContext} {call : ObjectCall}
    {V : Set String} {t : Store} {u : Unit} (h : Consistent U (objectIndex s))
    (issues : IssuesFresh context U V)
    (ran : (objectCallBody platform context call).run s = .ok (u, t)) :
    Advances platform V (context.now 0) s t := by
  cases call with
    (try replace ran := (run_dropResult_ok.mp ran).choose_spec)
  | createBucket req =>
    refine ⟨?_, (Renews.of_keeps (keeps_createBucket context req) bucketKey_unheld ran).moves⟩
    rw [objectIndex_of_keeps (keeps_createBucket context req) bucketKey_outside ran]
    exact h.mono issues.grows
  | putBucketVersioning bucketID state =>
    have keeps := keeps_putBucketVersioning bucketID state
    refine ⟨?_, (Renews.of_keeps keeps bucketKey_unheld ran).moves⟩
    rw [objectIndex_of_keeps keeps bucketKey_outside ran]
    exact h.mono issues.grows
  | beginPutObject req => exact (beginPutObject_renewed h issues ran).advances
  | commitObjectVersion req => exact (commitObjectVersion_advances h ran).mono issues.grows
  | putObjectVersion req => exact putObjectVersion_advances h issues ran
  | deleteObject req => exact deleteObject_advances h issues ran
  | putObjectTags req => exact (putObjectTags_renewed h ran).advances.mono issues.grows
  | deleteObjectTags req => exact (putObjectTags_renewed h ran).advances.mono issues.grows
  | putObjectRetention req =>
    exact (relocks_renewed h (putObjectRetention_ok ran)).advances.mono issues.grows
  | putObjectLegalHold req =>
    exact (relocks_renewed h (putObjectLegalHold_ok ran)).advances.mono issues.grows
  | publishObjectVersionRefs req =>
    exact (publishObjectVersionRefs_renewed h ran).advances.mono issues.grows
  | publishSharedObject req => exact (publishSharedObject_renewed h ran).advances.mono issues.grows
  | attachObjectVersionToSharedObject req =>
    exact (attachObjectVersionToSharedObject_renewed h ran).advances.mono issues.grows

/-! ## Whole runs -/

/-- What holds for the ids issued so far and is kept by every call that draws fresh ones holds
after a run that never draws an id twice. -/
theorem foldl_settle_fresh {γ : Type} (body : CallContext → γ → Tx Unit)
    {P : Set String → Store → Prop} (mono : ∀ {U V s}, U ⊆ V → P U s → P V s)
    (step : ∀ {context call U V s t}, P U s → IssuesFresh context U V →
      (body context call).run s = .ok ((), t) → P V t) {calls : List (CallContext × γ)}
    (start : P U s) (distinct : (calls.flatMap fun call => issuedVersionIDs call.1).Nodup)
    (named : ∀ call ∈ calls, "" ∉ issuedVersionIDs call.1)
    (unissued : ∀ call ∈ calls, ∀ id ∈ issuedVersionIDs call.1, id ∉ U) :
    ∃ V, P V (calls.foldl (fun s call => (body call.1 call.2).settle s) s) := by
  induction calls generalizing U s with
  | nil => exact ⟨U, start⟩
  | cons call calls ih =>
    rw [List.flatMap_cons, List.nodup_append] at distinct
    obtain ⟨-, distinct, apart⟩ := distinct
    have issues : IssuesFresh call.1 U (U ∪ {id | id ∈ issuedVersionIDs call.1}) :=
      issuesFresh_of_issued (named call List.mem_cons_self) (unissued call List.mem_cons_self)
    have next : P (U ∪ {id | id ∈ issuedVersionIDs call.1}) ((body call.1 call.2).settle s) :=
      settle_induction (mono issues.grows start) fun _ _ ran => step start issues ran
    refine ih next distinct (fun other member => named other (List.mem_cons_of_mem _ member)) ?_
    rintro other member id issued (old | new)
    · exact unissued other (List.mem_cons_of_mem _ member) id issued old
    · exact apart id new id (List.mem_flatMap.mpr ⟨other, member, issued⟩) rfl

theorem runCalls_consistent {platform : Platform} {calls : List (CallContext × ObjectCall)}
    (h : Consistent U (objectIndex s)) (fresh : NeverRepeats calls)
    (unissued : ∀ call ∈ calls, ∀ id ∈ issuedVersionIDs call.1, id ∉ U) :
    ∃ V, Consistent V (objectIndex (runCalls platform calls s)) :=
  foldl_settle_fresh (objectCallBody platform) (P := fun U s => Consistent U (objectIndex s))
    (fun grows h => h.mono grows) (fun h issues ran => (objectCallBody_advances h issues ran).consistent)
    h fresh.1 fresh.2 unissued

/-- The `n`-th call of a run at time `now`, which draws the ids with number `n`. -/
def numberedContext (n : Nat) (now : Time) : CallContext where
  now _ := now
  newID
    | .bucket, 0 => some ("bkt_" ++ toString n)
    | .version, 0 => some ("ver_" ++ toString n)
    | .upload, 0 => some ("upl_" ++ toString n)
    | _, _ => none

/-- A bucket, two writes of one key and a delete by version id. -/
def sampleCalls : List (CallContext × ObjectCall) :=
  [(numberedContext 1 1, .createBucket { tenantID := "t", name := "b", region := "r" }),
   (numberedContext 2 2, .putObjectVersion { bucketID := "bkt_1", key := "k", etag := "one" }),
   (numberedContext 3 3, .beginPutObject { bucketID := "bkt_1", key := "k", etag := "two" }),
   (numberedContext 4 4, .commitObjectVersion
      { bucketID := "bkt_1", key := "k", versionID := "ver_3", expectedHeadVersionID := "ver_2" }),
   (numberedContext 5 5, .deleteObject { bucketID := "bkt_1", key := "k", versionID := "ver_2" }),
   (numberedContext 6 6, .putObjectTags { bucketID := "bkt_1", key := "k", tags := [("a", "b")] })]

end Namros.Guarantees
