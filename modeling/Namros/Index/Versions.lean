import Namros.Index.Operations

/-!
# What calls do to the versions

For every call that can remove a version, the versions after it in terms of those before it:
which version is stored and which one is removed.
-/

namespace Namros.Index

open Library Source Transaction

variable {I : ObjectIndex} {b k : String} {bucket : Bucket} {u : Unit} {now : Time}

section

variable {platform : Platform} {context : CallContext} {U : Set String} {s t : Store}

/-! ## Writes -/

/-- The version id of the head of a key, or the empty text. -/
def currentID (I : ObjectIndex) (b k : String) : String :=
  ((I.head b k).map ObjectHeadEntry.versionID).getD ""

/-- In a bucket that does not keep old versions, the head version with this id is replaced by
the next one. -/
def Replaceable (bucket : Bucket) (I : ObjectIndex) (b k id : String) : Prop :=
  bucket.versioningState ≠ .enabled ∧ ∃ e, I.head b k = some e ∧ e.versionID = id

theorem Consistent.currentID_committed (h : Consistent U I) (present : currentID I b k ≠ "") :
    ∃ v, v.state = .committed ∧ I.version b k (currentID I b k) = some v := by
  cases headed : I.head b k with
  | none => simp [currentID, headed] at present
  | some e =>
    obtain ⟨v, -, -, stored, committed, -⟩ := (h.heads b k).current headed
    have same : currentID I b k = e.versionID := by simp [currentID, headed]
    rw [same]
    exact ⟨v, committed, stored⟩

theorem Consistent.currentID_located (h : Consistent U I) (present : currentID I b k ≠ "") :
    Located I b k (currentID I b k) := by
  obtain ⟨v, -, stored⟩ := h.currentID_committed present
  exact h.versions.at stored

theorem Consistent.replaceable_iff (h : Consistent U I) {id : String} :
    Replaceable bucket I b k id ↔
      bucket.versioningState ≠ .enabled ∧ currentID I b k ≠ "" ∧ id = currentID I b k := by
  unfold Replaceable
  refine and_congr_right fun _ => ?_
  cases headed : I.head b k with
  | none => simp [currentID, headed]
  | some e =>
    obtain ⟨v, -, -, stored, -⟩ := (h.heads b k).current headed
    have named := h.versions.named stored
    simp [currentID, headed, named, eq_comm]

theorem removeReplacedVersion_index {current versionID : String} (bucketNamed : b ≠ "")
    (located : current ≠ "" → Located (objectIndex s) b k current)
    (ran : (removeReplacedVersion bucket b k current versionID).run s = .ok (u, t)) :
    objectIndex t =
      if bucket.versioningState ≠ .enabled ∧ current ≠ "" ∧ current ≠ versionID then
        ((objectIndex s).setLocator b current none).setVersion b k current none
      else objectIndex s := by
  rcases removeReplacedVersion_ok ran with ⟨kept, rfl⟩ | ⟨replaced, old, s₁, searched, rest⟩
  · rw [if_neg kept]
  rw [if_pos replaced]
  obtain ⟨rfl, w, rfl, stored⟩ := findVersionByID_located (located replaced.2.1) searched
  obtain ⟨s₂, released, removed⟩ := rest
  have same := deleteProtectedRefsForVersion_index released
  rw [← same] at located stored ⊢
  exact (located replaced.2.1).dropped bucketNamed stored removed

/-- What installing a version leaves: the version itself, without the head version it
replaces. -/
def versionsAfterInstall (bucket : Bucket) (I : ObjectIndex) (v : ObjectVersion)
    (b k sk : String) : Option ObjectVersion :=
  if b = v.bucketID ∧ k = v.key ∧ sk = v.versionID then some v
  else if b = v.bucketID ∧ k = v.key ∧ bucket.versioningState ≠ .enabled ∧
      currentID I b k ≠ "" ∧ sk = currentID I b k then none
  else I.version b k sk

theorem installVersion_versions {version : ObjectVersion} {head : ObjectHead}
    (ran : (installVersion platform bucket version.bucketID version.key
      (currentID (objectIndex s) version.bucketID version.key) version now).run s =
        .ok (head, t)) (h : Consistent U (objectIndex s)) (bucketNamed : version.bucketID ≠ "")
    (sorted : version.versionSortKey = version.versionID)
    (other : currentID (objectIndex s) version.bucketID version.key ≠ "" →
      currentID (objectIndex s) version.bucketID version.key ≠ version.versionID) :
    (objectIndex t).version = versionsAfterInstall bucket (objectIndex s) (metadata version) := by
  obtain ⟨s₁, s₂, revision, -, -, index, removed⟩ := installVersion_index ran
  have located : currentID (objectIndex s) version.bucketID version.key ≠ "" →
      Located (objectIndex s₂) version.bucketID version.key
        (currentID (objectIndex s) version.bucketID version.key) := by
    intro present
    obtain ⟨named, locator, v, stored, identified⟩ := h.currentID_located present
    rw [index]
    refine ⟨named, ?_, v, ?_, identified⟩
    · simp [ObjectIndex.publish, ObjectIndex.putVersion, ObjectIndex.setListed,
        ObjectIndex.setHead, ObjectIndex.setLocator, ObjectIndex.setVersion, other present, locator]
    · simp [ObjectIndex.publish, ObjectIndex.putVersion, ObjectIndex.setListed,
        ObjectIndex.setHead, ObjectIndex.setLocator, ObjectIndex.setVersion, sorted, other present,
        stored]
  rw [removeReplacedVersion_index bucketNamed located removed, index]
  funext b k sk
  change _ = if b = version.bucketID ∧ k = version.key ∧ sk = version.versionID
    then some (metadata version)
    else if b = version.bucketID ∧ k = version.key ∧ bucket.versioningState ≠ .enabled ∧
      currentID (objectIndex s) b k ≠ "" ∧ sk = currentID (objectIndex s) b k then none
    else (objectIndex s).version b k sk
  by_cases here : b = version.bucketID ∧ k = version.key
  · obtain ⟨rfl, rfl⟩ := here
    by_cases new : sk = version.versionID
    · subst new
      split
      · rename_i replaced
        simp [ObjectIndex.publish, ObjectIndex.putVersion, ObjectIndex.setListed,
          ObjectIndex.setHead, ObjectIndex.setLocator, ObjectIndex.setVersion, sorted,
          Ne.symm (other replaced.2.1)]
      · simp [ObjectIndex.publish, ObjectIndex.putVersion, ObjectIndex.setListed,
          ObjectIndex.setHead, ObjectIndex.setLocator, ObjectIndex.setVersion, sorted]
    · split <;> rename_i replaced <;>
        simp_all [ObjectIndex.publish, ObjectIndex.putVersion, ObjectIndex.setListed,
          ObjectIndex.setHead, ObjectIndex.setLocator, ObjectIndex.setVersion]
  · have away : ∀ P : Prop, ¬ (b = version.bucketID ∧ k = version.key ∧ P) :=
      fun P both => here ⟨both.1, both.2.1⟩
    simp only [away, if_false]
    split <;> simp [ObjectIndex.publish, ObjectIndex.putVersion, ObjectIndex.setListed,
      ObjectIndex.setHead, ObjectIndex.setLocator, ObjectIndex.setVersion, away]

/-- A put stores a version under an id that was free, in place of the head version of
a bucket that does not keep old versions. -/
theorem putObjectVersion_versions {req : PutObjectRequest} {r : PutObjectVersionResult}
    (h : Consistent U (objectIndex s))
    (ran : (putObjectVersion platform context req).run s = .ok (r, t)) :
    ∃ bucket v, s.lookup (.bucketByID req.bucketID) = some bucket ∧ v.bucketID = req.bucketID ∧
      v.key = req.key ∧
      (objectIndex s).version req.bucketID req.key v.versionID = none ∧
      (objectIndex t).version = versionsAfterInstall bucket (objectIndex s) v := by
  obtain ⟨bucket, current, s₁, versionID, s₂, bucketNamed, found, headed, drawn, installed⟩ :=
    putObjectVersion_ok ran
  obtain ⟨rfl, same⟩ := currentHydratedHead_indexed h.versions headed
  obtain ⟨rfl, absent⟩ := nextObjectVersionID_absent drawn
  rw [same] at installed
  refine ⟨bucket, metadata (req.version (normalizeSegmentRefs req.segmentRef req.segmentRefs)
    versionID .committed (context.now 0) (context.now 0)), found, rfl, rfl, absent, ?_⟩
  refine installVersion_versions installed h bucketNamed rfl fun present taken => ?_
  obtain ⟨v, stored, -⟩ := (h.currentID_located present).stored
  have taken : currentID (objectIndex s) req.bucketID req.key = versionID := taken
  have stored : (objectIndex s).version req.bucketID req.key
    (currentID (objectIndex s) req.bucketID req.key) = some v := stored
  rw [taken, absent] at stored
  cases stored

/-- A commit changes nothing when its version is committed already; otherwise it stores the
pending version as a committed one, in place of the head version of a bucket that does not keep
old versions. -/
theorem commitObjectVersion_versions {req : CommitObjectVersionRequest} {head : ObjectHead}
    (h : Consistent U (objectIndex s))
    (ran : (commitObjectVersion platform context req).run s = .ok (head, t)) :
    ∃ bucket v, s.lookup (.bucketByID req.bucketID) = some bucket ∧
      (objectIndex s).version req.bucketID req.key req.versionID = some v ∧
      ((v.state = .committed ∧ s = t) ∨
        (v.state ≠ .committed ∧ (objectIndex t).version =
          versionsAfterInstall bucket (objectIndex s)
            { v with state := .committed, committedAt := context.now 0 })) := by
  obtain ⟨bucket, current, s₁, K, version, bucketNamed, bucketFound, read, -, searched, rest⟩ :=
    commitObjectVersion_ok ran
  obtain ⟨rfl, rfl, stored, sameBucket, sameKey, sameID, sortKey⟩ :=
    findVersionByID_some h.versions searched
  refine ⟨bucket, metadata version, bucketFound, stored, ?_⟩
  rcases rest with ⟨committed, hydrated⟩ | ⟨pending, installed⟩
  · exact .inl ⟨committed, hydrateHeadOrEmpty_indexed h.versions hydrated⟩
  have current : (current.getD {}).versionID =
      currentID (objectIndex s) req.bucketID req.key := by
    rw [getObjectHead_run] at read
    cases read
    unfold currentID
    cases (objectIndex s).head req.bucketID req.key <;> rfl
  rw [current, ← sameBucket, ← sameKey] at installed
  rw [← sameBucket] at bucketNamed
  have other : currentID (objectIndex s) version.bucketID version.key ≠ "" →
      currentID (objectIndex s) version.bucketID version.key ≠ version.versionID := by
    -- the head version is committed, this one is not
    intro present taken
    obtain ⟨v, committed, stored'⟩ := h.currentID_committed present
    rw [taken, sameBucket, sameKey, sameID, stored] at stored'
    rw [← Option.some.inj stored'] at committed
    exact pending committed
  exact .inr ⟨pending, installVersion_versions installed h bucketNamed
    (sortKey.trans sameID.symm) other⟩

/-! ## Deletes -/

theorem keeps_promoteLatestVersion (b k removed : String) :
    Writes headKey (promoteLatestVersion b k removed) := by
  refine .read (readOnly_getObjectHead b k) fun head => ?_
  cases head with
  | none => exact .pure ()
  | some head =>
    refine .onlyIf fun _ => .bind ?_ fun promoted => ?_
    · refine .bind (keeps_scanRecords _ _) fun versions => .ite (fun _ => .pure _) fun _ => ?_
      exact .read (readOnly_hydrateObjectVersionManifest _) fun _ => .pure _
    cases promoted with
    | some promoted =>
      refine .bind (keeps_setObjectHead _) fun head => .ite (fun _ => ?_) fun _ => ?_
      · exact writes_deleteKey trivial
      · exact keeps_setListObject head
    | none =>
      exact .bind (writes_deleteKey trivial) fun _ =>
        writes_deleteKey trivial

/-! ## Heads -/

theorem keeps_replaceHead (head : ObjectHead) :
    Writes headKey (replaceHead head) :=
  .bind (keeps_setObjectHead head) fun head => keeps_setListObject head

theorem keeps_updateHeadOf (b k id : String) (update : ObjectHead → ObjectHead) :
    Writes headKey (updateHeadOf b k id update) := by
  refine .read (readOnly_getObjectHead b k) fun head => ?_
  cases head with
  | none => exact .pure ()
  | some head => exact .onlyIf fun _ => keeps_replaceHead (update head)

theorem keeps_updateHeadObjectLock (v : ObjectVersion) :
    Writes headKey (updateHeadObjectLock v) := by
  refine .read (readOnly_getObjectHead _ _) fun head => ?_
  cases head with
  | none => exact .pure ()
  | some head =>
    refine .onlyIf fun _ => .bind (keeps_setObjectHead _) fun head => .ite (fun _ => ?_) fun _ => ?_
    · exact writes_deleteKey trivial
    · exact keeps_setListObject head

end

end Namros.Index
