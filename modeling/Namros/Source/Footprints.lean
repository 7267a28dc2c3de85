import Namros.Library.Footprint
import Namros.Source.Scans
import Namros.Source.SharedObjects

/-!
# What the helpers write

The key families the helpers of the object operations write: manifest chunks, protected
references, the audit chain. Every other record is left alone, and so is every record under
an object key that is no text.
-/

namespace Namros.Source

open Library Transaction

section Primitives

variable {P : Key → Prop} {α : Type}

theorem readOnly_getJSON (k : Key) : ReadOnly (getJSON k) := by
  intro s a t ran
  cases ran
  rfl

theorem readOnly_scanRecords (decode : (k : Key) → k.Value → Option α) (p : Bytes) :
    ReadOnly (scanRecords decode p) := by
  intro s a t ran
  cases ran
  rfl

theorem keeps_getJSON (k : Key) : Keeps P (getJSON k) := .of_readOnly (readOnly_getJSON k)

theorem keeps_scanRecords (decode : (k : Key) → k.Value → Option α) (p : Bytes) :
    Keeps P (scanRecords decode p) :=
  .of_readOnly (readOnly_scanRecords decode p)

theorem keeps_setJSON {k : Key} (v : k.Value) (outside : ¬ P k) : Keeps P (setJSON k v) := by
  intro s a t ran
  cases ran
  exact Agree.insert_outside outside v s

theorem writes_setJSON {k : Key} (v : k.Value) (inside : P k) : Writes P (setJSON k v) :=
  keeps_setJSON v (not_not.mpr inside)

theorem keeps_deleteKey {k : Key} (outside : ¬ P k) : Keeps P (deleteKey k) := by
  intro s a t ran
  cases ran
  exact Agree.erase_outside outside s

theorem writes_deleteKey {k : Key} (inside : P k) : Writes P (deleteKey k) :=
  keeps_deleteKey (not_not.mpr inside)

end Primitives

section FreeIDs

variable {newID : Nat → Option String} {recordKey : String → Key} {generate exhausted : String}

theorem readOnly_nextFreeID (remaining attempt : Nat) :
    ReadOnly (nextFreeID newID recordKey generate exhausted remaining attempt) := by
  induction remaining generalizing attempt with
  | zero => exact .throw _
  | succ remaining ih =>
    refine .bind (.orFail _ _) fun _ => .bind (readOnly_getJSON _) fun taken => ?_
    cases taken with
    | some _ => exact ih _
    | none => exact .pure _

/-- The id drawn is one of the next ids, and it is free. -/
theorem nextFreeID_drawn {s t : Store} {remaining attempt : Nat} {id : String}
    (ran : (nextFreeID newID recordKey generate exhausted remaining attempt).run s = .ok (id, t)) :
    s = t ∧ s.lookup (recordKey id) = none ∧
      ∃ n < attempt + remaining, newID n = some id := by
  induction remaining generalizing attempt with
  | zero => cases ran
  | succ remaining ih =>
    obtain ⟨drawn, issued, ran⟩ := orFail_bind_ok.mp ran
    obtain ⟨taken, _, read, ran⟩ := of_bind ran
    cases found : s.lookup (recordKey drawn) with
    | some _ =>
      rw [run_getJSON, found] at read
      cases read
      obtain ⟨same, unused, n, below, issued⟩ := ih ran
      exact ⟨same, unused, n, by omega, issued⟩
    | none =>
      rw [run_getJSON, found] at read
      cases read
      cases ran
      exact ⟨rfl, found, attempt, by omega, issued⟩

end FreeIDs

/-! ## Families -/

def manifestChunkKey : Key → Prop
  | .objectManifestChunk _ _ _ => True
  | _ => False

def protectedRefKey : Key → Prop
  | .protectedRefByVersion _ (.text _) _ _ | .protectedRefBySegment _ _ => True
  | _ => False

def auditKey : Key → Prop
  | .sequence _ | .auditEvent _ | .auditHead => True
  | _ => False

def locatorKey : Key → Prop
  | .objectVersionByID _ _ => True
  | _ => False

def headKey : Key → Prop
  | .objectHead _ (.text _) | .listObject _ (.text _) => True
  | _ => False

/-! ## Heads -/

theorem readOnly_getObjectHead (bucketID : String) (key : GoString) :
    ReadOnly (getObjectHead bucketID key) :=
  .bind (readOnly_getJSON _) fun _ => .pure _

theorem keeps_setObjectHead (head : ObjectHead) :
    Writes headKey (setObjectHead head) := by
  refine .read (readOnly_getObjectHead _ _) fun _ => ?_
  exact .bind (writes_setJSON _ trivial) fun _ => .pure _

theorem keeps_setListObject (head : ObjectHead) :
    Writes headKey (setListObject head) :=
  .ite (fun _ => writes_deleteKey trivial)
    fun _ => writes_setJSON _ trivial

/-! ## Manifests and versions -/

theorem keeps_deleteObjectManifestChunks (bucketID versionID : String) :
    Writes manifestChunkKey (deleteObjectManifestChunks bucketID versionID) := by
  intro s a t ran k selected
  refine lookup_deleteObjectManifestChunks ran fun n same => selected ?_
  rw [same]
  trivial

theorem keeps_setManifestChunks (chunks : List ObjectManifestChunk) :
    Writes manifestChunkKey (setManifestChunks chunks) := by
  induction chunks with
  | nil => exact .pure _
  | cons chunk chunks ih =>
    exact .bind (writes_setJSON _ trivial) fun _ => ih

theorem readOnly_hydrateObjectVersionManifest (version : ObjectVersion) :
    ReadOnly (hydrateObjectVersionManifest version) := by
  intro s a t ran
  replace ran := past ran rfl
  exact (run_ofOutcome_ok.mp ran).2.symm

/-- A search restores at most a locator. -/
theorem keeps_locateVersion (bucketID key versionID : String) :
    Writes locatorKey (locateVersion bucketID key versionID) := by
  refine .ite (fun _ => .pure _) fun _ => .bind (keeps_getJSON _) fun locator => ?_
  cases locator with
  | some locator =>
    refine .ite (fun _ => .pure _) fun _ => .bind (keeps_getJSON _) fun found => ?_
    cases found with
    | none => exact .pure _
    | some version => exact .ite (fun _ => .pure _) fun _ => .pure _
  | none =>
    refine .bind (keeps_scanRecords _ _) fun versions => ?_
    split
    · exact .pure _
    · exact .bind (.onlyIf fun _ => writes_setJSON _ trivial)
        fun _ => .pure _

theorem keeps_findVersionByID (bucketID key versionID : String) :
    Writes locatorKey (findVersionByID bucketID key versionID) := by
  refine .bind (keeps_locateVersion _ _ _) fun found => ?_
  rcases found with _ | ⟨versionKey, version⟩
  · exact .pure _
  · exact .read (readOnly_hydrateObjectVersionManifest _) fun _ => .pure _

/-- What a search returns: a stored version of the object with the wanted id. -/
theorem locateVersion_cases {s t : Store} {b k id : String} {r : Option (Key × ObjectVersion)}
    (ran : (locateVersion b k id).run s = .ok (r, t)) :
    (r = none ∧ s = t) ∨ ∃ sk v, r = some (.objectVersion b k sk, v) ∧
      (s.lookup (.objectVersion b k sk) = some v ∧ v.versionID = id ∧ id ≠ "") ∧
      (s = t ∨ s.lookup (.objectVersionByID b id) = none) := by
  unfold locateVersion at ran
  split at ran
  · cases ran
    exact .inl ⟨rfl, rfl⟩
  rename_i nonempty
  replace ran := past ran rfl
  cases located : s.lookup (.objectVersionByID b id) with
  | some l =>
    simp only [located] at ran
    split at ran
    · cases ran
      exact .inl ⟨rfl, rfl⟩
    rename_i usable
    replace ran := past ran rfl
    cases present : s.lookup (.objectVersion b l.key l.versionSortKey) with
    | none =>
      simp only [present] at ran
      cases ran
      exact .inl ⟨rfl, rfl⟩
    | some version =>
      simp only [present] at ran
      split at ran
      · cases ran
        exact .inl ⟨rfl, rfl⟩
      rename_i matching
      cases ran
      push Not at usable matching
      rw [usable.1] at present ⊢
      exact .inr ⟨_, _, rfl, ⟨present, matching.1, nonempty⟩, .inl rfl⟩
  | none =>
    simp only [located] at ran
    replace ran := past ran rfl
    split at ran
    · cases ran
      exact .inl ⟨rfl, rfl⟩
    rename_i versionKey found selected
    obtain ⟨_, s₃, -, ran⟩ := of_bind ran
    cases ran
    obtain ⟨sk, rfl, present⟩ := mem_versionRecords.mp (List.mem_of_find?_eq_some selected)
    have named : found.versionID = id := by simpa using List.find?_some selected
    exact .inr ⟨sk, found, rfl, ⟨present, named, nonempty⟩, .inr rfl⟩

theorem locateVersion_found {s t : Store} {b k id : String} {K : Key} {v : ObjectVersion}
    (ran : (locateVersion b k id).run s = .ok (some (K, v), t)) :
    ∃ sk, K = .objectVersion b k sk ∧ s.lookup (.objectVersion b k sk) = some v ∧
      v.versionID = id ∧ id ≠ "" := by
  rcases locateVersion_cases ran with ⟨none, -⟩ | ⟨sk, w, found, stored, -⟩
  · cases none
  · cases found
    exact ⟨sk, rfl, stored⟩

/-- A found version is named by its key. -/
theorem findVersionByID_key {s t : Store} {b k id : String} {K : Key} {v : ObjectVersion}
    (ran : (findVersionByID b k id).run s = .ok (some (K, v), t)) :
    ∃ sk, K = .objectVersion b k sk := by
  obtain ⟨found, s₁, located, ran⟩ := of_bind ran
  rcases found with _ | ⟨K', stored⟩
  · cases ran
  obtain ⟨sk, rfl, -⟩ := locateVersion_found located
  obtain ⟨w, s₂, -, ran⟩ := of_bind ran
  cases ran
  exact ⟨sk, rfl⟩

/-! ## Protected references -/

theorem keeps_deleteProtectedRefsForVersion (bucketID key versionID : String) :
    Writes protectedRefKey
      (deleteProtectedRefsForVersion bucketID key versionID) := by
  intro s a t ran k selected
  cases ran
  refine OrderedStore.lookup_visitAll (by decide) (fun j s isRef => ?_) s
  obtain ⟨refID, rfl⟩ := (protectedRefVersionPrefix_isPrefix_iff bucketID key versionID j).mp
    (List.isPrefixOf_iff_prefix.mp isRef)
  have other {l : Key} (isRef : protectedRefKey l) : k ≠ l := by
    rintro rfl
    exact selected isRef
  unfold deleteProtectedRef
  dsimp only
  split
  · rw [lookup_erase_ne (other (by trivial)), lookup_erase_ne (other (by trivial))]
  · rw [lookup_erase_ne (other (by trivial))]

theorem keeps_setProtectedRefs (platform : Platform) (version : ObjectVersion) (now : Time)
    (refs : List SegmentRef) :
    Writes protectedRefKey (setProtectedRefs platform version now version.key refs) := by
  induction refs with
  | nil => exact .pure _
  | cons ref refs ih =>
    exact .bind (.onlyIf fun _ => .bind (writes_setJSON _ trivial)
      fun _ => writes_setJSON _ trivial) fun _ => ih

theorem keeps_syncProtectedRefsForVersion (platform : Platform) (version : ObjectVersion)
    (now : Time) :
    Writes protectedRefKey (syncProtectedRefsForVersion platform version now) :=
  .bind (keeps_deleteProtectedRefsForVersion _ _ _) fun _ =>
    .onlyIf fun _ => keeps_setProtectedRefs _ _ _ _

theorem readOnly_protectedRootIDs (now : Time) (refs : List SegmentRef) :
    ReadOnly (protectedRootIDs now refs) := by
  induction refs with
  | nil => exact .pure _
  | cons ref refs ih =>
    exact .bind (.ite (.pure _) (readOnly_scanRecords _ _)) fun _ => .bind ih fun _ => .pure _

theorem readOnly_sharedObjectProtectedRootCount (shared : SharedObject) (now : Time) :
    ReadOnly (sharedObjectProtectedRootCount shared now) :=
  .bind (readOnly_protectedRootIDs now _) fun _ => .pure _

/-! ## Steps that always succeed -/

theorem total_setJSON (k : Key) (v : k.Value) : Total (setJSON k v) := fun s =>
  ⟨(), s.insert k v, rfl⟩

theorem total_deleteKey (k : Key) : Total (deleteKey k) := fun s => ⟨(), s.erase k, rfl⟩

theorem total_getJSON (k : Key) : Total (getJSON k) := fun s => ⟨s.lookup k, s, rfl⟩

/-! ## Buckets and shared objects -/

def bucketKey : Key → Prop
  | .bucketByID _ | .bucketByName _ => True
  | _ => False

def sharedObjectKey : Key → Prop
  | .sharedObject _ | .sharedObjectRef _ _ (.text _) _ => True
  | _ => False

theorem readOnly_requireBucket (bucketID : String) : ReadOnly (requireBucket bucketID) :=
  .bind (readOnly_getJSON _) fun _ => .orFail _ _

theorem keeps_createBucketFrom (context : CallContext) (req : CreateBucketRequest)
    (remaining attempt : Nat) :
    Writes bucketKey (createBucketFrom context req remaining attempt) := by
  induction remaining generalizing attempt with
  | zero => exact .throw _
  | succ remaining ih =>
    refine .bind (.orFail _ _) fun bucketID => .bind (keeps_getJSON _) fun taken => ?_
    cases taken with
    | some _ => exact ih _
    | none =>
      exact .bind (writes_setJSON _ trivial) fun _ =>
        .bind (writes_setJSON _ trivial) fun _ => .pure _

theorem keeps_createBucket (context : CallContext) (req : CreateBucketRequest) :
    Writes bucketKey (createBucket context req) :=
  .bind (.failIf _ _) fun _ => .bind (keeps_getJSON _) fun _ => .bind (.failIf _ _) fun _ =>
    keeps_createBucketFrom _ _ _ _

theorem keeps_putBucketVersioning (bucketID : String) (state : BucketVersioningState) :
    Writes bucketKey (putBucketVersioning bucketID state) :=
  .bind (.failIf _ _) fun _ => .bind (.failIf _ _) fun _ =>
    .read (readOnly_requireBucket _) fun _ => .bind (.failIf _ _) fun _ =>
      .bind (writes_setJSON _ trivial) fun _ => .pure _

theorem keeps_updateBucket (bucketID : String) (update : Bucket → Bucket) :
    Writes bucketKey (updateBucket bucketID update) :=
  .read (readOnly_requireBucket _) fun _ => .bind (writes_setJSON _ trivial) fun _ => .pure _

theorem keeps_recordSharedObject (platform : Platform) (next : SharedObject)
    (version : ObjectVersion) (now : Time) :
    Writes sharedObjectKey (recordSharedObject platform next version now) := by
  refine .bind (keeps_getJSON _) fun existing => ?_
  cases existing with
  | some existing =>
    refine .read (readOnly_sharedObjectProtectedRootCount _ _) fun _ =>
      .bind (writes_setJSON _ trivial) fun _ =>
        .bind (keeps_getJSON _) fun found => ?_
    cases found with
    | some _ => exact .pure _
    | none => exact .bind (writes_setJSON _ trivial) fun _ => .pure _
  | none =>
    exact .bind (writes_setJSON _ trivial) fun _ =>
      .bind (writes_setJSON _ trivial) fun _ => .pure _

/-! ## Audit -/

theorem keeps_reserveSequences (name : String) (count : Nat) :
    Writes auditKey (reserveSequences name count) :=
  .bind (.failIf _ _) fun _ => .bind (keeps_getJSON _) fun _ =>
    .bind (writes_setJSON _ trivial) fun _ => .pure _

theorem keeps_appendAuditEvent (platform : Platform) (event : AuditEvent) (now : Time) :
    Writes auditKey (appendAuditEvent platform event now) :=
  .bind (keeps_reserveSequences _ _) fun _ => .bind (keeps_getJSON _) fun _ =>
    .bind (writes_setJSON _ trivial) fun _ =>
      .bind (writes_setJSON _ trivial) fun _ => .pure _

theorem keeps_admitLockedDelete (platform : Platform) (req : DeleteObjectRequest)
    (protectedNow : Bool → Bool) (versionID target : String) (auditTime : Time) :
    Writes auditKey
      (admitLockedDelete platform req protectedNow versionID target auditTime) :=
  .onlyIf fun _ => .bind (.failIf _ _) fun _ => .bind (keeps_appendAuditEvent _ _ _)
    fun _ => .pure _

theorem keeps_admitRetentionUpdate (platform : Platform) (req : ObjectRetentionRequest)
    (version : ObjectVersion) (now auditTime : Time) :
    Writes auditKey
      (admitRetentionUpdate platform req version now auditTime) :=
  .onlyIf fun _ => .bind (.failIf _ _) fun _ => .bind (keeps_appendAuditEvent _ _ _)
    fun _ => .pure _

end Namros.Source
