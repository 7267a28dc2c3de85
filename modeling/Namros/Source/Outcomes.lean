import Namros.Source.Footprints

/-!
# Successful object operations, step by step

What a successful call of each object operation did: the checks it passed and the stores
between its writing steps. The guarantees reason about these steps and not about the
closures themselves.
-/

namespace Namros.Source

open Library Transaction

variable {s t : Store} {platform : Platform} {context : CallContext}

variable {bucketID : String} {bucket : Bucket}

theorem requireBucket_ok (ran : (requireBucket bucketID).run s = .ok (bucket, t)) :
    s.lookup (.bucketByID bucketID) = some bucket ∧ s = t := by
  exact run_orFail_ok.mp ran

theorem validatePut_ok {req : PutObjectRequest} {refs : List SegmentRef}
    (ran : (validatePut req).run s = .ok (refs, t)) :
    s = t ∧ req.bucketID ≠ "" ∧
      refs = normalizeSegmentRefs req.segmentRef req.segmentRefs := by
  obtain ⟨named, ran⟩ := failIf_bind_ok.mp ran
  obtain ⟨_, -, ran⟩ := ofOutcome_bind_ok.mp ran
  obtain ⟨_, -, ran⟩ := ofOutcome_bind_ok.mp ran
  cases ran
  push Not at named
  exact ⟨rfl, named.1, rfl⟩

variable {u : Unit}

theorem checkDeleteKMSAdmission_ok {encryption : ServerSideEncryption}
    (ran : (checkDeleteKMSAdmission encryption).run s = .ok (u, t)) : s = t := by
  unfold checkDeleteKMSAdmission at ran
  split at ran
  · cases ran
    rfl
  replace ran := past ran rfl
  split at ran
  · cases ran
    rfl
  · exact (run_failIf_ok.mp ran).2

theorem beginPutObject_ok {req : PutObjectRequest} {r : PendingObjectVersion}
    (ran : (beginPutObject platform context req).run s = .ok (r, t)) :
    ∃ current s₁ versionID s₂,
      (currentHydratedHead req.bucketID req.key).run s = .ok (current, s₁) ∧
      (nextObjectVersionID context req.bucketID req.key).run s₁ = .ok (versionID, s₂) ∧
      (setObjectVersion platform (req.version
        (normalizeSegmentRefs req.segmentRef req.segmentRefs) versionID .pending (context.now 0)
        0)).run s₂ = .ok ((), t) ∧ r.version.versionID = versionID := by
  obtain ⟨refs, _, step, ran⟩ := of_bind ran
  obtain ⟨rfl, -, rfl⟩ := validatePut_ok step
  obtain ⟨bucket, _, step, ran⟩ := of_bind ran
  obtain ⟨-, rfl⟩ := requireBucket_ok step
  obtain ⟨current, s₁, headed, ran⟩ := of_bind ran
  obtain ⟨versionID, s₂, drawn, ran⟩ := of_bind ran
  obtain ⟨_, s₃, stored, ran⟩ := of_bind ran
  cases ran
  exact ⟨current, s₁, versionID, s₂, headed, drawn, stored, rfl⟩

theorem putObjectVersion_ok {req : PutObjectRequest} {r : PutObjectVersionResult}
    (ran : (putObjectVersion platform context req).run s = .ok (r, t)) :
    ∃ bucket current s₁ versionID s₂, req.bucketID ≠ "" ∧
      s.lookup (.bucketByID req.bucketID) = some bucket ∧
      (currentHydratedHead req.bucketID req.key).run s = .ok (current, s₁) ∧
      (nextObjectVersionID context req.bucketID req.key).run s₁ = .ok (versionID, s₂) ∧
      (installVersion platform bucket req.bucketID req.key (current.getD {}).versionID
        (req.version (normalizeSegmentRefs req.segmentRef req.segmentRefs) versionID .committed
          (context.now 0) (context.now 0)) (context.now 0)).run s₂ = .ok (r.head, t) := by
  obtain ⟨refs, _, step, ran⟩ := of_bind ran
  obtain ⟨rfl, bucketNamed, rfl⟩ := validatePut_ok step
  obtain ⟨bucket, _, step, ran⟩ := of_bind ran
  obtain ⟨found, rfl⟩ := requireBucket_ok step
  obtain ⟨current, s₁, headed, ran⟩ := of_bind ran
  obtain ⟨versionID, s₂, drawn, ran⟩ := of_bind ran
  obtain ⟨head, s₃, installed, ran⟩ := of_bind ran
  cases ran
  exact ⟨bucket, current, s₁, versionID, s₂, bucketNamed, found, headed, drawn, installed⟩

variable {key : String} {version : ObjectVersion}

theorem setObjectHead_key {head stored : ObjectHead} {path : GoString}
    (ran : (setObjectHead head path).run s = .ok (stored, t)) : stored.key = head.key := by
  obtain ⟨previous, s₁, -, ran⟩ := of_bind ran
  obtain ⟨_, s₂, -, ran⟩ := of_bind ran
  cases ran
  rfl

theorem installVersion_ok {currentVersionID : String} {now : Time} {head : ObjectHead}
    (ran : (installVersion platform bucket bucketID key currentVersionID version now).run s =
      .ok (head, t)) :
    ∃ s₁ s₂ s₃ s₄, (setObjectVersion platform version).run s = .ok ((), s₁) ∧
      (setObjectHead (headFromVersion version now)).run s₁ = .ok (head, s₂) ∧
      (setListObject head).run s₂ = .ok ((), s₃) ∧
      (syncProtectedRefsForVersion platform version now).run s₃ = .ok ((), s₄) ∧
      (removeReplacedVersion bucket bucketID key currentVersionID version.versionID).run s₄ =
        .ok ((), t) := by
  obtain ⟨_, s₁, stored, ran⟩ := of_bind ran
  obtain ⟨head', s₂, headed, ran⟩ := of_bind ran
  obtain ⟨_, s₃, listed, ran⟩ := of_bind ran
  obtain ⟨_, s₄, synced, ran⟩ := of_bind ran
  obtain ⟨_, s₅, removed, ran⟩ := of_bind ran
  cases ran
  have key : head.key = version.key := setObjectHead_key headed
  rw [← key] at listed
  exact ⟨s₁, s₂, s₃, s₄, stored, headed, listed, synced, removed⟩

variable {versionID : String}

/-- The old version is left alone, or was found and removed. -/
theorem removeReplacedVersion_ok {currentVersionID : String}
    (ran : (removeReplacedVersion bucket bucketID key currentVersionID versionID).run s =
      .ok (u, t)) :
    (¬ (bucket.versioningState ≠ .enabled ∧ currentVersionID ≠ "" ∧
      currentVersionID ≠ versionID) ∧ s = t) ∨
    ((bucket.versioningState ≠ .enabled ∧ currentVersionID ≠ "" ∧ currentVersionID ≠ versionID) ∧
      ∃ old s₁, (findVersionByID bucketID key currentVersionID).run s = .ok (old, s₁) ∧
        match old with
        | none => s₁ = t
        | some (oldKey, oldVersion) => ∃ s₂,
          (deleteProtectedRefsForVersion oldVersion.bucketID oldVersion.key
            oldVersion.versionID).run s₁ = .ok ((), s₂) ∧
          (deleteObjectVersionRecord oldKey oldVersion).run s₂ = .ok ((), t)) := by
  unfold removeReplacedVersion at ran
  split at ran
  · rename_i replaces
    refine .inr ⟨replaces, ?_⟩
    obtain ⟨old, s₁, searched, ran⟩ := of_bind ran
    refine ⟨old, s₁, searched, ?_⟩
    rcases old with _ | ⟨oldKey, oldVersion⟩
    · cases ran
      rfl
    · obtain ⟨_, s₂, released, ran⟩ := of_bind ran
      exact ⟨s₂, released, ran⟩
  · rename_i keeps
    cases ran
    exact .inl ⟨keeps, rfl⟩

/-- A commit either meets a committed version and changes nothing, or installs the pending
one. -/
theorem commitObjectVersion_ok {req : CommitObjectVersionRequest} {head : ObjectHead}
    (ran : (commitObjectVersion platform context req).run s = .ok (head, t)) :
    ∃ bucket current s₁ K version, req.bucketID ≠ "" ∧
      s.lookup (.bucketByID req.bucketID) = some bucket ∧
      (getObjectHead req.bucketID req.key).run s = .ok (current, s) ∧
      (current.getD {}).versionID = req.expectedHeadVersionID ∧
      (findVersionByID req.bucketID req.key req.versionID).run s = .ok (some (K, version), s₁) ∧
      ((version.state = .committed ∧
          (hydrateHeadOrEmpty (current.getD {})).run s₁ = .ok (head, t)) ∨
        (version.state ≠ .committed ∧
          (installVersion platform bucket req.bucketID req.key (current.getD {}).versionID
            { version with state := .committed, committedAt := context.now 0 }
            (context.now 0)).run s₁ = .ok (head, t))) := by
  obtain ⟨named, ran⟩ := failIf_bind_ok.mp ran
  push Not at named
  obtain ⟨bucket, _, step, ran⟩ := of_bind ran
  obtain ⟨found, rfl⟩ := requireBucket_ok step
  replace ran := past ran rfl
  obtain ⟨expected, ran⟩ := failIf_bind_ok.mp ran
  obtain ⟨located, s₁, searched, rest⟩ := of_bind ran
  obtain ⟨⟨K, version⟩, rfl, ran⟩ := orFail_bind_ok.mp rest
  refine ⟨bucket, _, s₁, K, version, named.1, found, rfl, not_not.mp expected, searched, ?_⟩
  dsimp only at ran
  split at ran
  · exact .inl ⟨‹_›, ran⟩
  · exact .inr ⟨‹_›, ran⟩

/-! ## Deletes -/

theorem createDeleteMarker_ok {req : DeleteObjectRequest} {r : DeleteResult}
    (ran : (createDeleteMarker platform context req).run s = .ok (r, t)) :
    ∃ versionID s₁ s₂ head s₃,
      (nextObjectVersionID context req.bucketID req.key).run s = .ok (versionID, s₁) ∧
      (setObjectVersion platform (req.marker versionID (context.now 0))).run s₁ = .ok ((), s₂) ∧
      (setObjectHead (headFromVersion (req.marker versionID (context.now 0))
        (context.now 0))).run s₂ = .ok (head, s₃) ∧
      t = s₃.erase (.listObject req.bucketID req.key) := by
  obtain ⟨versionID, s₁, drawn, ran⟩ := of_bind ran
  obtain ⟨_, s₂, stored, ran⟩ := of_bind ran
  obtain ⟨head, s₃, headed, ran⟩ := of_bind ran
  cases ran
  exact ⟨versionID, s₁, s₂, head, s₃, drawn, stored, headed, rfl⟩

theorem deleteObjectVersion_ok {req : DeleteObjectRequest} {now : Time} {r : DeleteResult}
    (ran : (deleteObjectVersion platform context req now).run s = .ok (r, t)) :
    ∃ K deleted s₁ s₂ s₃ s₄,
      (findVersionByID req.bucketID req.key req.versionID).run s = .ok (some (K, deleted), s₁) ∧
      (admitLockedDelete platform req (deleted.protectedByObjectLock now) deleted.versionID
        "object_version" (context.now 1)).run s₁ = .ok ((), s₂) ∧
      (deleteObjectVersionRecord K deleted).run s₂ = .ok ((), s₃) ∧
      (deleteProtectedRefsForVersion deleted.bucketID deleted.key deleted.versionID).run s₃ =
        .ok ((), s₄) ∧
      (promoteLatestVersion req.bucketID req.key req.versionID).run s₄ = .ok ((), t) := by
  obtain ⟨located, s₁, searched, rest⟩ := of_bind ran
  obtain ⟨⟨K, deleted⟩, rfl, ran⟩ := orFail_bind_ok.mp rest
  obtain ⟨_, _, step, ran⟩ := of_bind ran
  obtain rfl := checkDeleteKMSAdmission_ok step
  obtain ⟨_, s₂, admitted, ran⟩ := of_bind ran
  obtain ⟨_, s₃, removed, ran⟩ := of_bind ran
  obtain ⟨_, s₄, released, ran⟩ := of_bind ran
  obtain ⟨_, s₅, promoted, ran⟩ := of_bind ran
  cases ran
  exact ⟨K, deleted, s₁, s₂, s₃, s₄, searched, admitted, removed, released, promoted⟩

/-- The body on the current head of an object, if the head is that of the version. -/
def onHeadOf (bucketID key versionID : String) (body : ObjectHead → Tx Unit) : Tx Unit := do
  let head ← getObjectHead bucketID key
  match head with
  | none => pure ()
  | some head => onlyIf (head.versionID = versionID) (body head)

theorem onHeadOf_ok {body : ObjectHead → Tx Unit}
    (ran : (onHeadOf bucketID key versionID body).run s = .ok (u, t)) :
    (s = t ∧ ∀ e, s.lookup (.objectHead bucketID key) = some e → e.versionID ≠ versionID) ∨
    (∃ e, s.lookup (.objectHead bucketID key) = some e ∧ e.versionID = versionID ∧
      (body (headFromHeadEntry e)).run s = .ok ((), t)) := by
  replace ran := past ran rfl
  cases stored : s.lookup (.objectHead bucketID key) with
  | none =>
    simp only [stored, Option.map_none] at ran
    cases ran
    exact .inl ⟨rfl, by simp⟩
  | some e =>
    simp only [stored, Option.map_some] at ran
    unfold onlyIf at ran
    split at ran
    · exact .inr ⟨e, rfl, ‹_›, ran⟩
    rename_i other
    cases ran
    refine .inl ⟨rfl, fun e' found => ?_⟩
    cases found
    exact other

theorem deleteUnversioned_ok {req : DeleteObjectRequest} {r : DeleteResult}
    (ran : (deleteUnversioned platform context req).run s = .ok (r, t)) :
    (s.lookup (.objectHead req.bucketID req.key) = none ∧ s = t) ∨
    (∃ e s₁ found s₂, s.lookup (.objectHead req.bucketID req.key) = some e ∧
      (admitLockedDelete platform req ((headFromHeadEntry e).protectedByObjectLock (context.now 0))
        e.versionID "object_head" (context.now 1)).run s = .ok ((), s₁) ∧
      (findVersionByID req.bucketID req.key e.versionID).run
        ((s₁.erase (.objectHead req.bucketID req.key)).erase (.listObject req.bucketID req.key)) =
          .ok (found, s₂) ∧
      match found with
      | none => s₂ = t
      | some (K, deleted) => ∃ s₃,
        (deleteProtectedRefsForVersion deleted.bucketID deleted.key deleted.versionID).run s₂ =
          .ok ((), s₃) ∧
        (deleteObjectVersionRecord K deleted).run s₃ = .ok ((), t)) := by
  replace ran := past ran rfl
  cases stored : s.lookup (.objectHead req.bucketID req.key) with
  | none =>
    simp only [stored, Option.map_none] at ran
    cases ran
    exact .inl ⟨rfl, rfl⟩
  | some e =>
    simp only [stored, Option.map_some] at ran
    obtain ⟨_, _, step, ran⟩ := of_bind ran
    obtain rfl := checkDeleteKMSAdmission_ok step
    obtain ⟨_, s₁, admitted, ran⟩ := of_bind ran
    replace ran := past ran rfl
    replace ran := past ran rfl
    obtain ⟨found, s₂, searched, ran⟩ := of_bind ran
    refine .inr ⟨e, s₁, found, s₂, rfl, admitted, searched, ?_⟩
    rcases found with _ | ⟨K, deleted⟩
    · cases ran
      rfl
    obtain ⟨_, s₃, released, ran⟩ := of_bind ran
    obtain ⟨_, s₄, removed, ran⟩ := of_bind ran
    cases ran
    exact ⟨s₃, released, removed⟩

/-- A delete names a version, or leaves a marker, or removes the only version. -/
theorem deleteObject_ok {req : DeleteObjectRequest} {r : DeleteResult}
    (ran : (deleteObject platform context req).run s = .ok (r, t)) :
    ∃ bucket, req.bucketID ≠ "" ∧ s.lookup (.bucketByID req.bucketID) = some bucket ∧
      ((req.versionID ≠ "" ∧
          (deleteObjectVersion platform context req (context.now 0)).run s = .ok (r, t)) ∨
        (req.versionID = "" ∧ bucket.versioningState = .enabled ∧
          (createDeleteMarker platform context req).run s = .ok (r, t)) ∨
        (req.versionID = "" ∧ bucket.versioningState ≠ .enabled ∧
          (deleteUnversioned platform context req).run s = .ok (r, t))) := by
  obtain ⟨named, ran⟩ := failIf_bind_ok.mp ran
  push Not at named
  obtain ⟨bucket, _, step, ran⟩ := of_bind ran
  obtain ⟨found, rfl⟩ := requireBucket_ok step
  refine ⟨bucket, named.1, found, ?_⟩
  split at ran
  · exact .inl ⟨‹_›, ran⟩
  rename_i unnamed
  rw [not_not] at unnamed
  split at ran
  · refine .inr (.inl ⟨unnamed, ‹_›, ?_⟩)
    replace ran := past ran rfl
    split at ran
    · obtain ⟨_, _, step, ran⟩ := of_bind ran
      obtain rfl := checkDeleteKMSAdmission_ok step
      exact ran
    · exact ran
  · exact .inr (.inr ⟨unnamed, ‹_›, ran⟩)

/-! ## Updates -/

theorem putVersionTags_ok {req : ObjectTagsRequest}
    (ran : (putVersionTags platform req).run s = .ok (u, t)) :
    ∃ K version s₁ s₂,
      (findVersionByID req.bucketID req.key req.versionID).run s = .ok (some (K, version), s₁) ∧
      version.state = .committed ∧
      (setObjectVersion platform { version with tags := req.tags }).run s₁ = .ok ((), s₂) ∧
      (updateHeadOf req.bucketID req.key req.versionID
        fun head => { head with tags := req.tags }).run s₂ = .ok ((), t) := by
  obtain ⟨located, s₁, searched, rest⟩ := of_bind ran
  obtain ⟨⟨K, version⟩, rfl, ran⟩ := orFail_bind_ok.mp rest
  obtain ⟨committed, ran⟩ := failIf_bind_ok.mp ran
  obtain ⟨_, s₂, stored, ran⟩ := of_bind ran
  exact ⟨K, version, s₁, s₂, searched, not_not.mp committed, stored, ran⟩

theorem putHeadTags_ok {req : ObjectTagsRequest}
    (ran : (putHeadTags platform req).run s = .ok (u, t)) :
    ∃ e s₁, s.lookup (.objectHead req.bucketID req.key) = some e ∧
      (replaceHead { headFromHeadEntry e with tags := req.tags }).run s = .ok ((), s₁) ∧
      ((e.versionID = "" ∧ s₁ = t) ∨
        (e.versionID ≠ "" ∧ ∃ found s₂,
          (findVersionByID req.bucketID req.key e.versionID).run s₁ = .ok (found, s₂) ∧
          match found with
          | none => s₂ = t
          | some (_, version) =>
            (setObjectVersion platform { version with tags := req.tags }).run s₂ =
              .ok ((), t))) := by
  replace ran := past ran rfl
  obtain ⟨head, found, ran⟩ := orFail_bind_ok.mp ran
  obtain ⟨e, stored, rfl⟩ := Option.map_eq_some_iff.mp found
  obtain ⟨_, s₁, replaced, ran⟩ := of_bind ran
  refine ⟨e, s₁, stored, replaced, ?_⟩
  unfold onlyIf at ran
  split at ran
  · rename_i named
    obtain ⟨located, s₂, searched, ran⟩ := of_bind ran
    refine .inr ⟨named, located, s₂, searched, ?_⟩
    rcases located with _ | ⟨K, version⟩
    · cases ran
      rfl
    · exact ran
  · rename_i unnamed
    cases ran
    exact .inl ⟨not_not.mp unnamed, rfl⟩

theorem requireLiveVersion_ok
    (ran : (requireLiveVersion bucketID key versionID).run s = .ok (version, t)) :
    ∃ K, (findVersionByID bucketID key versionID).run s = .ok (some (K, version), t) ∧
      version.state = .committed ∧ version.deleteMarker = false := by
  obtain ⟨located, s₁, searched, rest⟩ := of_bind ran
  obtain ⟨⟨K, version⟩, rfl, ran⟩ := orFail_bind_ok.mp rest
  obtain ⟨live, ran⟩ := failIf_bind_ok.mp ran
  cases ran
  push Not at live
  exact ⟨K, searched, live.1, by simpa using live.2⟩

theorem objectLockTarget_ok
    (ran : (objectLockTarget bucketID key versionID).run s = .ok (version, t)) :
    ∃ id K, (findVersionByID bucketID key id).run s = .ok (some (K, version), t) ∧
      version.state = .committed := by
  obtain ⟨id, s₁, chosen, ran⟩ := of_bind ran
  have same : s = s₁ := by
    unfold objectLockTargetID at chosen
    split at chosen
    · replace chosen := past chosen rfl
      obtain ⟨head, -, chosen⟩ := orFail_bind_ok.mp chosen
      obtain ⟨-, chosen⟩ := failIf_bind_ok.mp chosen
      cases chosen
      rfl
    · cases chosen
      rfl
  subst same
  have live : (requireLiveVersion bucketID key id).run s = .ok (version, t) := ran
  obtain ⟨K, found, committed, -⟩ := requireLiveVersion_ok live
  exact ⟨id, K, found, committed⟩

/-- A successful lock update: after an admission that writes at most audit events, the version is
stored with its new lock, the lock is put into its head, its references are renewed and the change
is recorded. -/
def Relocks (platform : Platform) (now : Time) (s t : Store) : Prop :=
  ∃ bucketID key id : String, ∃ version retention legalHold, ∃ admission : Tx Unit,
  ∃ s₁ s₂ s₃ s₄ s₅,
    let locked := { version with
      objectLockRetention := retention, objectLockLegalHold := legalHold }
    (objectLockTarget bucketID key id).run s = .ok (version, s₁) ∧
    Writes auditKey admission ∧ admission.run s₁ = .ok ((), s₂) ∧
    (setObjectVersion platform locked).run s₂ = .ok ((), s₃) ∧
    (updateHeadObjectLock locked).run s₃ = .ok ((), s₄) ∧
    (syncProtectedRefsForVersion platform locked now).run s₄ = .ok ((), s₅) ∧
    ∃ event auditTime appended,
      (appendAuditEvent platform event auditTime).run s₅ = .ok (appended, t)

theorem putObjectRetention_ok {req : ObjectRetentionRequest}
    (ran : (putObjectRetention platform context req).run s = .ok (u, t)) :
    Relocks platform (context.now 0) s t := by
  obtain ⟨-, ran⟩ := failIf_bind_ok.mp ran
  obtain ⟨_, -, ran⟩ := ofOutcome_bind_ok.mp ran
  obtain ⟨-, ran⟩ := failIf_bind_ok.mp ran
  obtain ⟨version, s₁, targeted, ran⟩ := of_bind ran
  obtain ⟨_, s₂, admitted, ran⟩ := of_bind ran
  obtain ⟨_, s₃, stored, ran⟩ := of_bind ran
  obtain ⟨_, s₄, headed, ran⟩ := of_bind ran
  obtain ⟨_, s₅, synced, ran⟩ := of_bind ran
  obtain ⟨appended, s₆, audited, ran⟩ := of_bind ran
  cases ran
  exact ⟨_, _, _, version, _, _, _, s₁, s₂, s₃, s₄, s₅, targeted,
    keeps_admitRetentionUpdate _ _ _ _ _, admitted, stored, headed, synced, _, _, _, audited⟩

theorem putObjectLegalHold_ok {req : ObjectLegalHoldRequest}
    (ran : (putObjectLegalHold platform context req).run s = .ok (u, t)) :
    Relocks platform (context.now 0) s t := by
  obtain ⟨-, ran⟩ := failIf_bind_ok.mp ran
  obtain ⟨-, ran⟩ := failIf_bind_ok.mp ran
  obtain ⟨version, s₁, targeted, ran⟩ := of_bind ran
  obtain ⟨_, s₂, stored, ran⟩ := of_bind ran
  obtain ⟨_, s₃, headed, ran⟩ := of_bind ran
  obtain ⟨_, s₄, synced, ran⟩ := of_bind ran
  obtain ⟨appended, s₅, audited, ran⟩ := of_bind ran
  cases ran
  exact ⟨_, _, _, version, _, _, pure (), s₁, s₁, s₂, s₃, s₄, targeted, .pure _, rfl, stored,
    headed, synced, _, _, _, audited⟩

theorem publishObjectVersionRefs_ok {req : PublishObjectVersionRefsRequest} {r : PublishRefsResult}
    (ran : (publishObjectVersionRefs platform context req).run s = .ok (r, t)) :
    ∃ version s₁ s₂,
      (requireLiveVersion req.bucketID req.key req.versionID).run s = .ok (version, s₁) ∧
      version.protectedByObjectLock (context.now 0) false = false ∧
      (setObjectVersion platform { version with
        segmentRefs := req.segmentRefs
        segmentRef := firstSegmentRef req.segmentRefs }).run s₁ = .ok ((), s₂) ∧
      (updateHeadOf req.bucketID req.key version.versionID fun head => { head with
        segmentRefs := req.segmentRefs
        segmentRef := firstSegmentRef req.segmentRefs }).run s₂ = .ok ((), t) := by
  obtain ⟨-, ran⟩ := failIf_bind_ok.mp ran
  obtain ⟨-, ran⟩ := failIf_bind_ok.mp ran
  obtain ⟨version, s₁, live, ran⟩ := of_bind ran
  obtain ⟨unlocked, ran⟩ := failIf_bind_ok.mp ran
  obtain ⟨-, ran⟩ := failIf_bind_ok.mp ran
  obtain ⟨_, s₂, stored, ran⟩ := of_bind ran
  obtain ⟨_, s₃, headed, ran⟩ := of_bind ran
  cases ran
  exact ⟨version, s₁, s₂, live, by simpa using unlocked, stored, headed⟩

theorem publishSharedObject_ok {req : PublishSharedObjectRequest} {r : SharedObject}
    (ran : (publishSharedObject platform context req).run s = .ok (r, t)) :
    ∃ version s₁ bucket next count,
      (requireLiveVersion req.bucketID req.key req.versionID).run s = .ok (version, s₁) ∧
      sharedObjectFromVersion platform bucket version (context.now 0) = .ok next ∧
      (recordSharedObject platform { next with protectedRootCount := count } version
        (context.now 0)).run s₁ = .ok (r, t) := by
  obtain ⟨-, ran⟩ := failIf_bind_ok.mp ran
  obtain ⟨bucket, _, step, ran⟩ := of_bind ran
  obtain ⟨-, rfl⟩ := requireBucket_ok step
  obtain ⟨version, s₁, live, ran⟩ := of_bind ran
  obtain ⟨next, built, ran⟩ := ofOutcome_bind_ok.mp ran
  obtain ⟨count, s₂, counted, ran⟩ := of_bind ran
  obtain rfl := (readOnly_sharedObjectProtectedRootCount _ _ _ _ _ counted).symm
  exact ⟨version, s₁, bucket, next, count, live, built, ran⟩

/-- An attachment rewrites the version with the shared segments, then the shared object and
its reference, then the head. -/
theorem attachObjectVersionToSharedObject_ok {req : AttachRequest} {r : AttachResult}
    (ran : (attachObjectVersionToSharedObject platform context req).run s = .ok (r, t)) :
    ∃ shared version s₁ s₂ shared' ref, s.lookup (.sharedObject req.sharedObjectID) = some shared ∧
      (requireLiveVersion req.bucketID req.key req.versionID).run s = .ok (version, s₁) ∧
      version.protectedByObjectLock (context.now 0) false = false ∧
      objectVersionMatchesSharedObject platform version shared = true ∧
      (shared'.segmentRefs, shared'.digest) = (shared.segmentRefs, shared.digest) ∧
      (setObjectVersion platform { version with
        segmentRefs := shared.segmentRefs
        segmentRef := firstSegmentRef shared.segmentRefs
        storageClass := shared.storageClass }).run s₁ = .ok ((), s₂) ∧
      (updateHeadOf req.bucketID req.key version.versionID fun head => { head with
        segmentRefs := shared.segmentRefs
        segmentRef := firstSegmentRef shared.segmentRefs
        storageClass := shared.storageClass
        lastModified := context.now 0 }).run
          ((s₂.insert (.sharedObject shared'.sharedObjectID) shared').insert
            (.sharedObjectRef ref.sharedObjectID ref.bucketID ref.key ref.versionID) ref) =
          .ok ((), t) := by
  obtain ⟨-, ran⟩ := failIf_bind_ok.mp ran
  replace ran := past ran rfl
  obtain ⟨shared, sharedFound, ran⟩ := orFail_bind_ok.mp ran
  obtain ⟨-, ran⟩ := failIf_bind_ok.mp ran
  obtain ⟨version, s₁, live, ran⟩ := of_bind ran
  obtain ⟨unlocked, ran⟩ := failIf_bind_ok.mp ran
  obtain ⟨matching, ran⟩ := failIf_bind_ok.mp ran
  replace ran := past ran rfl
  obtain ⟨count, s₂, counted, ran⟩ := of_bind ran
  obtain rfl := (readOnly_sharedObjectProtectedRootCount _ _ _ _ _ counted).symm
  obtain ⟨_, s₂, stored, ran⟩ := of_bind ran
  replace ran := past ran rfl
  replace ran := past ran rfl
  obtain ⟨_, s₃, headed, ran⟩ := of_bind ran
  cases ran
  refine ⟨shared, version, s₁, s₂, _, _, sharedFound, live, by simpa using unlocked,
    not_not.mp matching, ?_, stored, headed⟩
  split <;> rfl

end Namros.Source
