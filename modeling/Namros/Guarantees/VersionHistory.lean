import Namros.Guarantees.IndexInvariant

/-!
# What becomes of old versions

A version record disappears in two ways only: a delete names the version, or the version is
the head of its key in a bucket that is not versioned at that moment and the next write or
unnamed delete of the key takes its place. The second way does not look at when the version
was written: suspending versioning exposes the current version of every key, also when it was
committed while versioning was enabled.
-/

namespace Namros.Guarantees

open Library Source Index Transaction

/-- The call is a delete that names the version. -/
def NamesVersion (b k id : String) : ObjectCall → Prop
  | .deleteObject req => req.bucketID = b ∧ req.key = k ∧ req.versionID = id
  | _ => False

instance (b k id : String) (call : ObjectCall) : Decidable (NamesVersion b k id call) := by
  cases call <;> dsimp only [NamesVersion] <;> infer_instance

/-- The version is the head of its key, in a bucket that does not keep old versions. -/
def Exposed (s : Store) (b k id : String) : Prop :=
  (∀ bucket, s.lookup (.bucketByID b) = some bucket → bucket.versioningState ≠ .enabled) ∧
    ∃ e, s.lookup (.objectHead b k) = some e ∧ e.versionID = id

instance (s : Store) (b k id : String) : Decidable (Exposed s b k id) :=
  inferInstanceAs (Decidable ((∀ bucket ∈ s.lookup (.bucketByID b), Bucket.versioningState bucket ≠
    .enabled) ∧ ∃ e ∈ s.lookup (.objectHead b k), ObjectHeadEntry.versionID e = id))

/-- The call takes the place of the exposed head version. -/
def DropsHead (s : Store) (b k id : String) : ObjectCall → Prop
  | .putObjectVersion req => req.bucketID = b ∧ req.key = k ∧ Exposed s b k id
  | .commitObjectVersion req => req.bucketID = b ∧ req.key = k ∧ Exposed s b k id ∧
      ∀ v, s.lookup (.objectVersion b k req.versionID) = some v → v.state ≠ .committed
  | .deleteObject req => req.bucketID = b ∧ req.key = k ∧ req.versionID = "" ∧ Exposed s b k id
  | _ => False

instance (s : Store) (b k id : String) : (call : ObjectCall) → Decidable (DropsHead s b k id call)
  | .putObjectVersion _ => inferInstanceAs (Decidable (_ ∧ _))
  | .commitObjectVersion req => inferInstanceAs (Decidable (req.bucketID = b ∧ req.key = k ∧
      Exposed s b k id ∧ ∀ v ∈ s.lookup (.objectVersion b k req.versionID), ObjectVersion.state v ≠ .committed))
  | .deleteObject _ => inferInstanceAs (Decidable (_ ∧ _))
  | .createBucket _ | .putBucketVersioning _ _ | .beginPutObject _ | .putObjectTags _
  | .deleteObjectTags _ | .putObjectRetention _ | .putObjectLegalHold _
  | .publishObjectVersionRefs _ | .publishSharedObject _
  | .attachObjectVersionToSharedObject _ => .isFalse fun dropped => dropped

section

variable {platform : Platform} {context : CallContext} {U V : Set String} {s t : Store}
  {b k id : String}

theorem exposed_iff {bucket : Bucket} (found : s.lookup (.bucketByID b) = some bucket) :
    Exposed s b k id ↔ Replaceable bucket (objectIndex s) b k id := by
  unfold Exposed Replaceable
  rw [found]
  simp only [Option.some.injEq, forall_eq']
  rfl

/-- A version record is stored where the index has a version. -/
theorem version_eq_none : (objectIndex s).version b k id = none ↔
    s.lookup (.objectVersion b k id) = none := by
  change (s.lookup (.objectVersion b k id)).map metadata = none ↔ _
  simp

/-- After an installation an older version is missing exactly when it was replaced. -/
theorem versionsAfterInstall_eq_none (h : Consistent U (objectIndex s)) (bucket : Bucket)
    (v : ObjectVersion) (present : (objectIndex s).version b k id ≠ none)
    (other : v.bucketID = b → v.key = k → v.versionID = id →
      ¬ Replaceable bucket (objectIndex s) b k id) :
    versionsAfterInstall bucket (objectIndex s) v b k id = none ↔
      v.bucketID = b ∧ v.key = k ∧ Replaceable bucket (objectIndex s) b k id := by
  rw [h.replaceable_iff] at other ⊢
  unfold versionsAfterInstall
  split
  · rename_i here
    obtain ⟨rfl, rfl, rfl⟩ := here
    simp only [reduceCtorEq, false_iff]
    exact fun both => other rfl rfl rfl both.2.2
  · split
    · rename_i replaced
      simp only [true_iff]
      exact ⟨replaced.1.symm, replaced.2.1.symm, replaced.2.2⟩
    · rename_i kept
      simp only [present, false_iff]
      exact fun both => kept ⟨both.1.symm, both.2.1.symm, both.2.2⟩

theorem setVersion_eq_none {b' k' id' : String} {w : Option ObjectVersion}
    (present : (objectIndex s).version b k id ≠ none) :
    ((objectIndex s).setVersion b' k' id' w).version b k id = none ↔
      (b = b' ∧ k = k' ∧ id = id') ∧ w = none := by
  change (if b = b' ∧ k = k' ∧ id = id' then w else (objectIndex s).version b k id) = none ↔ _
  split
  · rename_i here
    simp [here]
  · rename_i elsewhere
    simp [elsewhere, present]

/-! ## One call -/

theorem commitObjectVersion_removes_iff {req : CommitObjectVersionRequest} {head : ObjectHead}
    (h : Consistent U (objectIndex s)) (present : (objectIndex s).version b k id ≠ none)
    (ran : (commitObjectVersion platform context req).run s = .ok (head, t)) :
    (objectIndex t).version b k id = none ↔
      req.bucketID = b ∧ req.key = k ∧ Exposed s b k id ∧
        ∀ v, s.lookup (.objectVersion b k req.versionID) = some v → v.state ≠ .committed := by
  obtain ⟨bucket, v, found, stored, done⟩ := commitObjectVersion_versions h ran
  obtain ⟨w, named, rfl⟩ := Option.map_eq_some_iff.mp stored
  obtain ⟨committed, rfl⟩ | ⟨pending, versions⟩ := done
  · -- committing twice changes nothing
    refine iff_of_false present ?_
    rintro ⟨rfl, rfl, -, uncommitted⟩
    exact uncommitted w named committed
  · obtain ⟨bucketID, key, versionID, -⟩ := h.versions.identified stored
    have other : (metadata w).bucketID = b → (metadata w).key = k → (metadata w).versionID = id →
        ¬ Replaceable bucket (objectIndex s) b k id := by
      -- the head is committed, so it is not the pending version
      rintro rfl rfl rfl ⟨-, e, headed, same⟩
      obtain ⟨current, -, -, held, committed, -⟩ := (h.heads _ _).current headed
      rw [bucketID, key] at held
      rw [same, versionID] at held
      rw [Option.some.inj (stored.symm.trans held)] at pending
      exact pending committed
    have replaced := versionsAfterInstall_eq_none h bucket
      { metadata w with state := .committed, committedAt := context.now 0 } present other
    rw [versions, replaced, bucketID, key]
    refine and_congr_right fun same => and_congr_right fun sameKey => ?_
    subst same sameKey
    rw [exposed_iff found, iff_self_and]
    intro _ v' named'
    rw [Option.some.inj (named'.symm.trans named)]
    exact pending

theorem deleteObject_removes_iff {req : DeleteObjectRequest} {r : DeleteResult}
    (h : Consistent U (objectIndex s)) (present : (objectIndex s).version b k id ≠ none)
    (ran : (deleteObject platform context req).run s = .ok (r, t)) :
    (objectIndex t).version b k id = none ↔
      (req.bucketID = b ∧ req.key = k ∧ req.versionID = id) ∨
        (req.bucketID = b ∧ req.key = k ∧ req.versionID = "" ∧ Exposed s b k id) := by
  obtain ⟨v, stored⟩ := Option.ne_none_iff_exists'.mp present
  have named : id ≠ "" := h.versions.named stored
  obtain ⟨bucket, -, found, ⟨given, byVersion⟩ | ⟨unnamed, enabled, marked⟩ |
    ⟨unnamed, disabled, removed⟩⟩ := deleteObject_ok ran
  · obtain ⟨v, s₁, s₂, s₃, -, -, same, deleted, released, promoted⟩ :=
      deleteObjectVersion_found h.versions byVersion
    have kept : (objectIndex t).version b k id = (objectIndex s₃).version b k id :=
      congrArg (Option.map metadata)
        (keeps_promoteLatestVersion _ _ _ _ _ _ promoted (.objectVersion b k id) (fun no => no))
    have versions : (objectIndex s₃).version =
        ((objectIndex s).setVersion req.bucketID req.key req.versionID none).version := by
      rw [deleteProtectedRefsForVersion_index released, deleteObjectVersionRecord_index deleted,
        same]
      split <;> rfl
    rw [kept, versions, setVersion_eq_none present]
    simp [given, eq_comm]
  · obtain ⟨versionID, s₁, s₂, head, s₃, drawn, put, headed, rfl⟩ := createDeleteMarker_ok marked
    obtain ⟨rfl, -⟩ := nextObjectVersionID_absent drawn
    obtain ⟨revision, rfl, index⟩ := setObjectHead_index headed
    rw [objectIndex_erase_listed, index, setObjectVersion_index put]
    refine (setVersion_eq_none present).trans (iff_of_false (fun both => nomatch both.2) ?_)
    rintro (⟨-, -, same⟩ | ⟨rfl, -, -, exposed⟩)
    · exact named (same.symm.trans unnamed)
    · exact exposed.1 bucket found enabled
  · have unnamed' : req.versionID ≠ id := fun same => named (same.symm.trans unnamed)
    rcases deleteUnversioned_found h removed with
      ⟨headless, rfl⟩ | ⟨e, s₁, s₂, v, s₃, headed, -, -, retracted, -, released, deleted⟩
    · refine iff_of_false present ?_
      rintro (⟨-, -, same⟩ | ⟨rfl, rfl, -, -, e, headed, -⟩)
      · exact unnamed' same
      · exact nomatch headless.symm.trans headed
    · have versions : (objectIndex t).version =
          ((objectIndex s).setVersion req.bucketID req.key e.versionID none).version := by
        rw [deleteObjectVersionRecord_index deleted, deleteProtectedRefsForVersion_index released,
          retracted]
        split <;> rfl
      rw [versions, setVersion_eq_none present]
      constructor
      · rintro ⟨⟨rfl, rfl, rfl⟩, -⟩
        refine .inr ⟨rfl, rfl, unnamed, ?_⟩
        rw [exposed_iff found]
        exact ⟨disabled, e, headed, rfl⟩
      · rintro (⟨-, -, same⟩ | ⟨rfl, rfl, -, -, e', headed', rfl⟩)
        · exact absurd same unnamed'
        · rw [Option.some.inj (headed.symm.trans headed')]
          exact ⟨⟨rfl, rfl, rfl⟩, rfl⟩

/-- A stored version is gone after a call exactly when the call names it in a delete or takes
its place as an exposed head. -/
theorem objectCallBody_removes_iff {call : ObjectCall} {u : Unit} (h : Consistent U (objectIndex s))
    (present : s.lookup (.objectVersion b k id) ≠ none)
    (ran : (objectCallBody platform context call).run s = .ok (u, t)) :
    t.lookup (.objectVersion b k id) = none ↔
      NamesVersion b k id call ∨ DropsHead s b k id call := by
  rw [← version_eq_none]
  have present := version_eq_none.not.mpr present
  cases call with
    (try replace ran := (run_dropResult_ok.mp ran).choose_spec)
  | createBucket req =>
    rw [objectIndex_of_keeps (keeps_createBucket context req) bucketKey_outside ran]
    simp [present, NamesVersion, DropsHead]
  | putBucketVersioning bucketID state =>
    rw [objectIndex_of_keeps (keeps_putBucketVersioning bucketID state) bucketKey_outside ran]
    simp [present, NamesVersion, DropsHead]
  | beginPutObject req =>
    obtain ⟨current, s₁, versionID, s₂, headed, drawn, stored, -⟩ := beginPutObject_ok ran
    obtain ⟨rfl, -⟩ := currentHydratedHead_indexed h.versions headed
    obtain ⟨rfl, -⟩ := nextObjectVersionID_absent drawn
    rw [setObjectVersion_index stored, ObjectIndex.putVersion]
    refine (setVersion_eq_none present).trans ?_
    simp [NamesVersion, DropsHead]
  | commitObjectVersion req =>
    simp only [commitObjectVersion_removes_iff h present ran, NamesVersion, DropsHead,
      false_or]
  | putObjectVersion req =>
    obtain ⟨bucket, v, found, bucketID, key, absent, versions⟩ := putObjectVersion_versions h ran
    have other : v.bucketID = b → v.key = k → v.versionID = id →
        ¬ Replaceable bucket (objectIndex s) b k id := by
      rintro rfl rfl rfl
      rw [bucketID, key] at present
      exact absurd absent present
    rw [versions, versionsAfterInstall_eq_none h bucket v present other, bucketID, key]
    simp only [NamesVersion, DropsHead, false_or]
    refine and_congr_right fun same => ?_
    subst same
    rw [exposed_iff found]
  | deleteObject req => exact deleteObject_removes_iff h present ran
  | putObjectTags req =>
    have renewed : Renewed platform U 0 s t := putObjectTags_renewed h ran
    simp [renewed.renews.retains present, NamesVersion, DropsHead]
  | deleteObjectTags req =>
    have renewed : Renewed platform U 0 s t := putObjectTags_renewed h ran
    simp [renewed.renews.retains present, NamesVersion, DropsHead]
  | putObjectRetention req =>
    simp [(relocks_renewed h (putObjectRetention_ok ran)).renews.retains present, NamesVersion,
      DropsHead]
  | putObjectLegalHold req =>
    simp [(relocks_renewed h (putObjectLegalHold_ok ran)).renews.retains present, NamesVersion,
      DropsHead]
  | publishObjectVersionRefs req =>
    simp [(publishObjectVersionRefs_renewed h ran).renews.retains present, NamesVersion, DropsHead]
  | publishSharedObject req =>
    simp [(publishSharedObject_renewed h ran).renews.retains present, NamesVersion, DropsHead]
  | attachObjectVersionToSharedObject req =>
    simp [(attachObjectVersionToSharedObject_renewed h ran).renews.retains present, NamesVersion,
      DropsHead]

end

/-! ## Whole runs -/

/-- The version was committed between the two stores, and versioning was enabled. -/
structure CommittedWhileEnabled (s t : Store) (b k id : String) : Prop where
  enabled : ∃ bucket : Bucket, s.lookup (.bucketByID b) = some bucket ∧
    bucket.versioningState = .enabled
  before : ∀ v : ObjectVersion, s.lookup (.objectVersion b k id) = some v → v.state ≠ .committed
  after : ∃ v : ObjectVersion, t.lookup (.objectVersion b k id) = some v ∧ v.state = .committed

/-- No call of the run names the version in a delete or takes its place as an exposed head. -/
def SparesVersion (platform : Platform) (b k id : String) :
    List (CallContext × ObjectCall) → Store → Prop
  | [], _ => True
  | call :: calls, s => ¬ NamesVersion b k id call.2 ∧ ¬ DropsHead s b k id call.2 ∧
      SparesVersion platform b k id calls ((objectCallBody platform call.1 call.2).settle s)

theorem NeverRepeats.left {past later : List (CallContext × ObjectCall)}
    (fresh : NeverRepeats (past ++ later)) : NeverRepeats past := by
  obtain ⟨distinct, named⟩ := fresh
  rw [List.flatMap_append, List.nodup_append] at distinct
  exact ⟨distinct.1, fun call member => named call (List.mem_append_left _ member)⟩

theorem reached_consistent (platform : Platform) {calls : List (CallContext × ObjectCall)}
    (fresh : NeverRepeats calls) : ∃ U, Consistent U (objectIndex (runCalls platform calls ∅)) :=
  runCalls_consistent Consistent.empty fresh fun _ _ _ _ issued => issued

theorem runCalls_keeps_version (platform : Platform) {b k id : String}
    (past later : List (CallContext × ObjectCall)) (fresh : NeverRepeats (past ++ later))
    (present : (runCalls platform past ∅).lookup (.objectVersion b k id) ≠ none)
    (spared : SparesVersion platform b k id later (runCalls platform past ∅)) :
    (runCalls platform (past ++ later) ∅).lookup (.objectVersion b k id) ≠ none := by
  -- the calls move one by one from the rest of the run to its past
  induction later generalizing past with
  | nil => rwa [List.append_nil]
  | cons call later ih =>
    obtain ⟨unnamed, kept, spared⟩ := spared
    obtain ⟨U, h⟩ := reached_consistent platform fresh.left
    have moved : past ++ call :: later = (past ++ [call]) ++ later := by simp
    have reached : runCalls platform (past ++ [call]) ∅ =
        (objectCallBody platform call.1 call.2).settle (runCalls platform past ∅) :=
      List.foldl_append
    rw [moved] at fresh ⊢
    refine ih (past ++ [call]) fresh ?_ ?_
    · rw [reached]
      refine settle_induction (P := fun t : Store => t.lookup (.objectVersion b k id) ≠ none)
        present fun u t ran gone => ?_
      exact ((objectCallBody_removes_iff h present ran).mp gone).elim unnamed kept
    · rw [reached]
      exact spared

instance decidableSparesVersion (platform : Platform) (b k id : String) :
    (calls : List (CallContext × ObjectCall)) → (s : Store) →
      Decidable (SparesVersion platform b k id calls s)
  | [], _ => .isTrue trivial
  | call :: calls, s =>
    have := decidableSparesVersion platform b k id calls
      ((objectCallBody platform call.1 call.2).settle s)
    inferInstanceAs (Decidable (_ ∧ _ ∧ _))

/-- A version committed while versioning was enabled stays stored through every later run in
which no delete names it and no call meets it as the head of its key while the bucket is
unversioned or suspended. -/
theorem enabled_version_kept (platform : Platform) (b k id : String)
    (past : List (CallContext × ObjectCall)) (call : CallContext × ObjectCall)
    (later : List (CallContext × ObjectCall)) (fresh : NeverRepeats ((past ++ [call]) ++ later))
    (committed : CommittedWhileEnabled (runCalls platform past ∅)
      (runCalls platform (past ++ [call]) ∅) b k id)
    (spared : SparesVersion platform b k id later (runCalls platform (past ++ [call]) ∅)) :
    (runCalls platform ((past ++ [call]) ++ later) ∅).lookup (.objectVersion b k id) ≠ none := by
  obtain ⟨v, stored, -⟩ := committed.after
  refine runCalls_keeps_version platform (past ++ [call]) later fresh ?_ spared
  rw [stored]
  exact Option.some_ne_none v

/-- A bucket with versioning enabled. -/
def versionedBucketCalls : List (CallContext × ObjectCall) :=
  [(numberedContext 1 1, .createBucket { tenantID := "t", name := "b", region := "r" }),
   (numberedContext 2 2, .putBucketVersioning "bkt_1" .enabled)]

/-- The write of a key. -/
def write (n : Nat) (etag : String) : CallContext × ObjectCall :=
  (numberedContext n n, .putObjectVersion { bucketID := "bkt_1", key := "k", etag := etag })

/-- The suspension of versioning. -/
def suspend (n : Nat) : CallContext × ObjectCall :=
  (numberedContext n n, .putBucketVersioning "bkt_1" .suspended)

theorem firstWrite_committed : CommittedWhileEnabled (runCalls plainPlatform versionedBucketCalls ∅)
    (runCalls plainPlatform (versionedBucketCalls ++ [write 3 "one"]) ∅) "bkt_1" "k" "ver_3" where
  enabled := Option.map_eq_some_iff.mp (by decide +kernel :
    ((runCalls plainPlatform versionedBucketCalls ∅).lookup (.bucketByID "bkt_1")).map
      Bucket.versioningState = some .enabled)
  before v found := by
    have absent : (runCalls plainPlatform versionedBucketCalls ∅).lookup
        (.objectVersion "bkt_1" "k" "ver_3") = none := by decide +kernel
    exact nomatch absent.symm.trans found
  after := Option.map_eq_some_iff.mp (by decide +kernel :
    ((runCalls plainPlatform (versionedBucketCalls ++ [write 3 "one"]) ∅).lookup
      (.objectVersion "bkt_1" "k" "ver_3")).map ObjectVersion.state = some .committed)

/-- The older of two versions survives the suspension and the write and the delete after it. -/
theorem older_version_kept :
    (runCalls plainPlatform ((versionedBucketCalls ++ [write 3 "one"]) ++
      [write 4 "two", suspend 5, write 6 "three",
        (numberedContext 7 7, .deleteObject { bucketID := "bkt_1", key := "k" })]) ∅).lookup
      (.objectVersion "bkt_1" "k" "ver_3") ≠ none :=
  enabled_version_kept plainPlatform "bkt_1" "k" "ver_3" versionedBucketCalls (write 3 "one") _
    (by decide +kernel) firstWrite_committed (by decide +kernel)

/-- The current version does not: the first write after the suspension removes it, though no
delete names it. -/
theorem suspension_loses_current_version :
    CommittedWhileEnabled (runCalls plainPlatform versionedBucketCalls ∅)
        (runCalls plainPlatform (versionedBucketCalls ++ [write 3 "one"]) ∅)
        "bkt_1" "k" "ver_3" ∧
      (∀ call ∈ [suspend 4, write 5 "two"], ¬ NamesVersion "bkt_1" "k" "ver_3" call.2) ∧
      (runCalls plainPlatform ((versionedBucketCalls ++ [write 3 "one"]) ++
        [suspend 4, write 5 "two"]) ∅).lookup (.objectVersion "bkt_1" "k" "ver_3") = none :=
  ⟨firstWrite_committed, by decide, by decide +kernel⟩

end Namros.Guarantees
