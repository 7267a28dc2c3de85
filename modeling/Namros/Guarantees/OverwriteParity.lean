import Namros.Guarantees.VersionHistory

/-!
# Overwriting a locked head

`DeleteObject` asks the object lock of the version it removes; the two calls that put a new
head in place do not ask. Where old versions are kept that makes no difference. In an
unversioned or suspended bucket the overwrite removes the record that the delete refuses to
remove.
-/

namespace Namros.Guarantees

open Library Source Index Transaction

/-- The head of the key, when a delete of its version without governance bypass is refused for
its object lock. -/
structure LockedHead (platform : Platform) (context : CallContext) (s : Store) (b k : String)
    (e : ObjectHeadEntry) : Prop where
  headed : s.lookup (.objectHead b k) = some e
  refused : (deleteObject platform context
    { bucketID := b, key := k, versionID := e.versionID }).run s =
      .error .objectLocked

/-- The call puts a new head on the key. -/
def Overwrites (b k : String) : ObjectCall → Prop
  | .putObjectVersion req => req.bucketID = b ∧ req.key = k
  | .commitObjectVersion req => req.bucketID = b ∧ req.key = k
  | _ => False

/-- The bucket keeps old versions. -/
def KeepsVersions (s : Store) (b : String) : Prop :=
  ∃ bucket : Bucket, s.lookup (.bucketByID b) = some bucket ∧ bucket.versioningState = .enabled

/-- The call commits a version that is committed already, and so changes nothing. -/
def CommitsAgain (s : Store) : ObjectCall → Prop
  | .commitObjectVersion req => ∃ v : ObjectVersion,
      s.lookup (.objectVersion req.bucketID req.key req.versionID) = some v ∧ v.state = .committed
  | _ => False

variable {platform : Platform} {context : CallContext} {U : Set String} {s t : Store}
  {b k : String} {e : ObjectHeadEntry}

theorem exposed_head_iff {bucket : Bucket} (found : s.lookup (.bucketByID b) = some bucket)
    (headed : s.lookup (.objectHead b k) = some e) :
    Exposed s b k e.versionID ↔ ¬ KeepsVersions s b := by
  unfold Exposed KeepsVersions
  rw [found]
  simp [headed]

/-- The record of a locked head survives a successful overwrite of its key exactly when the
bucket keeps old versions or the overwrite commits what is committed already. -/
theorem locked_head_survives_iff {call : ObjectCall} {u : Unit} {now : CallContext}
    (h : Consistent U (objectIndex s)) (locked : LockedHead platform now s b k e)
    (overwrites : Overwrites b k call)
    (outcome : (objectCallBody platform context call).run s = .ok (u, t)) :
    t.lookup (.objectVersion b k e.versionID) ≠ none ↔ KeepsVersions s b ∨ CommitsAgain s call := by
  have headed := locked.headed
  have present : s.lookup (.objectVersion b k e.versionID) ≠ none := by
    obtain ⟨v, -, -, stored, -⟩ := (h.heads b k).current headed
    intro absent
    exact nomatch stored.symm.trans (version_eq_none.mpr absent)
  rw [Ne, objectCallBody_removes_iff h present outcome]
  cases call with
  | putObjectVersion req =>
    obtain ⟨rfl, rfl⟩ := overwrites
    obtain ⟨r, put⟩ := run_dropResult_ok.mp outcome
    obtain ⟨bucket, -, found, -⟩ := putObjectVersion_versions h put
    simp [NamesVersion, DropsHead, CommitsAgain, exposed_head_iff found headed]
  | commitObjectVersion req =>
    obtain ⟨rfl, rfl⟩ := overwrites
    obtain ⟨r, committed⟩ := run_dropResult_ok.mp outcome
    obtain ⟨bucket, -, found, -⟩ := commitObjectVersion_versions h committed
    simp only [NamesVersion, DropsHead, CommitsAgain, exposed_head_iff found headed, true_and,
      false_or, not_and, not_forall, not_not, exists_prop]
    tauto
  | createBucket _ | putBucketVersioning _ _ | beginPutObject _ | deleteObject _
  | putObjectTags _ | deleteObjectTags _ | putObjectRetention _ | putObjectLegalHold _
  | publishObjectVersionRefs _ | publishSharedObject _ | attachObjectVersionToSharedObject _ =>
    exact overwrites.elim

/-- An unversioned bucket whose only object is held in compliance mode. -/
def complianceCalls : List (CallContext × ObjectCall) :=
  [(numberedContext 1 1, .createBucket { tenantID := "t", name := "b", region := "r" }),
   (numberedContext 2 2, .putObjectVersion
      { bucketID := "bkt_1", key := "k",
        objectLockRetention := { mode := .compliance, retainUntilDate := 100 } })]

/-- The store with the held object. -/
def complianceStore : Store :=
  runCalls plainPlatform complianceCalls ∅

/-- An overwrite of the held object. -/
def complianceOverwrite : ObjectCall :=
  .putObjectVersion { bucketID := "bkt_1", key := "k", etag := "two" }

/-- The store after the overwrite. -/
def overwrittenStore : Store :=
  (objectCallBody plainPlatform (numberedContext 4 4) complianceOverwrite).settle complianceStore

theorem complianceStore_locked : ∃ e, e.versionID = "ver_2" ∧
    LockedHead plainPlatform (numberedContext 3 3) complianceStore "bkt_1" "k" e := by
  obtain ⟨e, headed, named⟩ : ∃ e : ObjectHeadEntry,
      complianceStore.lookup (.objectHead "bkt_1" "k") = some e ∧ e.versionID = "ver_2" :=
    Option.map_eq_some_iff.mp (by decide +kernel :
      (complianceStore.lookup (.objectHead "bkt_1" "k")).map ObjectHeadEntry.versionID =
        some "ver_2")
  refine ⟨e, named, headed, failure_eq_some.mp ?_⟩
  rw [named]
  decide +kernel

theorem complianceOverwrite_succeeds : (objectCallBody plainPlatform (numberedContext 4 4)
    complianceOverwrite).failure complianceStore = none := by
  decide +kernel

/-- The overwrite succeeds and the held version is gone. -/
theorem overwrite_removes_locked_head : ∃ e,
    LockedHead plainPlatform (numberedContext 3 3) complianceStore "bkt_1" "k" e ∧
      (∃ u, (objectCallBody plainPlatform (numberedContext 4 4) complianceOverwrite).run
        complianceStore = .ok (u, overwrittenStore)) ∧
      overwrittenStore.lookup (.objectVersion "bkt_1" "k" e.versionID) = none := by
  obtain ⟨e, named, locked⟩ := complianceStore_locked
  refine ⟨e, locked, run_settle complianceOverwrite_succeeds, ?_⟩
  rw [named]
  decide +kernel

/-- The same overwrite read through the equivalence: the bucket keeps no old versions. -/
theorem complianceStore_survival : ∃ e,
    LockedHead plainPlatform (numberedContext 3 3) complianceStore "bkt_1" "k" e ∧
      (overwrittenStore.lookup (.objectVersion "bkt_1" "k" e.versionID) ≠ none ↔
        KeepsVersions complianceStore "bkt_1" ∨
          CommitsAgain complianceStore complianceOverwrite) := by
  obtain ⟨e, named, locked⟩ := complianceStore_locked
  have fresh : NeverRepeats complianceCalls := by decide +kernel
  obtain ⟨U, h⟩ := reached_consistent plainPlatform fresh
  obtain ⟨u, overwritten⟩ := run_settle complianceOverwrite_succeeds
  exact ⟨e, locked, locked_head_survives_iff h locked ⟨rfl, rfl⟩ overwritten⟩

end Namros.Guarantees
