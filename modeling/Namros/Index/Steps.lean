import Namros.Index.View
import Namros.Source.Footprints

/-!
# Helpers on the index

What one call of each repository helper does to the object index, from any store.
-/

namespace Namros.Index

open Library Source Transaction

variable {s t : Store}

/-! ## Helpers that leave the index alone -/

theorem objectIndex_of_keeps {α : Type} {W : Key → Prop} {body : Tx α} {a : α}
    (keeps : Writes W body) (disjoint : ∀ k, indexKey k → ¬ W k)
    (ran : body.run s = .ok (a, t)) : objectIndex t = objectIndex s :=
  objectIndex_congr ((keeps s a t ran).mono disjoint)

theorem manifestChunkKey_outside (k : Key) : indexKey k → ¬ manifestChunkKey k := by
  cases k <;> simp [indexKey, manifestChunkKey]

theorem protectedRefKey_outside (k : Key) : indexKey k → ¬ protectedRefKey k := by
  cases k <;> simp [indexKey, protectedRefKey]

theorem auditKey_outside (k : Key) : indexKey k → ¬ auditKey k := by
  cases k <;> simp [indexKey, auditKey]

theorem bucketKey_outside (k : Key) : indexKey k → ¬ bucketKey k := by
  cases k <;> simp [indexKey, bucketKey]

theorem sharedObjectKey_outside (k : Key) : indexKey k → ¬ sharedObjectKey k := by
  cases k <;> simp [indexKey, sharedObjectKey]

/-! ## Versions -/

variable {platform : Platform} {v : ObjectVersion}

theorem metadata_storedVersion {plan : ManifestPlan}
    (planned : planObjectVersionManifestStorage platform v = .ok plan) :
    metadata plan.storedVersion = metadata v := by
  unfold planObjectVersionManifestStorage at planned
  cases scale : validateObjectManifestScale v.allSegmentRefs with
  | error e =>
    rw [scale] at planned
    cases planned
  | ok u =>
    rw [scale] at planned
    dsimp only [bind, Except.bind] at planned
    split at planned
    · cases planned
      rfl
    split at planned
    · cases planned
    cases chunks : buildObjectManifestChunks platform v v.allSegmentRefs with
    | error e =>
      rw [chunks] at planned
      cases planned
    | ok chunks =>
      rw [‹buildObjectManifestChunks _ _ _ = _›] at planned
      dsimp only at planned
      split at planned
      · cases planned
      · cases planned
        rfl

variable {w : ObjectVersion}

theorem putVersion_congr {I : ObjectIndex} (same : metadata v = metadata w) :
    I.putVersion v = I.putVersion w := by
  change I.putVersion (metadata v) = I.putVersion (metadata w)
  rw [same]

variable {u : Unit}

/-- A version is stored once its manifest is planned, the chunks it had are gone and the new ones
are written. -/
theorem setObjectVersion_ok (ran : (setObjectVersion platform v).run s = .ok (u, t)) :
    ∃ plan s₁ s₂, planObjectVersionManifestStorage platform v = .ok plan ∧
      (onlyIf (v.manifest.encoding = .chunked ∨ plan.chunks ≠ [])
        (deleteObjectManifestChunks v.bucketID v.versionID)).run s = .ok ((), s₁) ∧
      (setManifestChunks plan.chunks).run s₁ = .ok ((), s₂) ∧
      t = (s₂.insert (.objectVersion plan.storedVersion.bucketID plan.storedVersion.key
          plan.storedVersion.versionSortKey) plan.storedVersion).insert
        (.objectVersionByID plan.storedVersion.bucketID plan.storedVersion.versionID)
        ⟨plan.storedVersion.key, plan.storedVersion.versionSortKey⟩ := by
  obtain ⟨plan, planned, ran⟩ := ofOutcome_bind_ok.mp ran
  obtain ⟨_, s₁, cleared, ran⟩ := of_bind ran
  obtain ⟨_, s₂, chunked, ran⟩ := of_bind ran
  have same := congrArg ObjectVersion.key (metadata_storedVersion planned)
  have key : plan.storedVersion.key = v.key := same
  cases ran
  exact ⟨plan, s₁, s₂, planned, cleared, chunked, by rw [key]⟩

theorem setObjectVersion_index (ran : (setObjectVersion platform v).run s = .ok (u, t)) :
    objectIndex t = (objectIndex s).putVersion v := by
  obtain ⟨plan, s₂, s₃, planned, cleared, chunked, rfl⟩ := setObjectVersion_ok ran
  have cleared := objectIndex_of_keeps (.onlyIf fun _ => keeps_deleteObjectManifestChunks _ _)
    manifestChunkKey_outside cleared
  have chunked := objectIndex_of_keeps (keeps_setManifestChunks _) manifestChunkKey_outside chunked
  rw [objectIndex_insert_locator, objectIndex_insert_version, chunked, cleared]
  exact putVersion_congr (metadata_storedVersion planned)

variable {b k : String}

theorem deleteObjectVersionRecord_index {sk : String}
    (ran : (deleteObjectVersionRecord (.objectVersion b k sk) v).run s = .ok (u, t)) :
    objectIndex t = (if v.bucketID ≠ "" ∧ v.versionID ≠ "" then
      (objectIndex s).setLocator v.bucketID v.versionID none else objectIndex s).setVersion
        b k sk none := by
  obtain ⟨_, s₁, cleared, ran⟩ := of_bind ran
  cases ran
  rw [objectIndex_erase_version]
  congr 1
  unfold onlyIf at cleared
  split at cleared
  · replace cleared := past cleared rfl
    rw [objectIndex_of_keeps (keeps_deleteObjectManifestChunks _ _) manifestChunkKey_outside
      cleared, objectIndex_erase_locator, if_pos ‹_›]
  · cases cleared
    rw [if_neg ‹_›]

/-- Hydration fills in the segment references. -/
theorem metadata_hydrateWith {chunk : Nat → Option ObjectManifestChunk}
    (hydrated : hydrateWith chunk v = .ok w) : metadata w = metadata v := by
  unfold hydrateWith at hydrated
  split at hydrated
  · cases hydrated
    rfl
  split at hydrated
  · cases hydrated
  cases collected : collectManifestChunks chunk v v.manifest.chunkCount.toNat 1 with
  | error e =>
    rw [collected] at hydrated
    cases hydrated
  | ok refs =>
    rw [collected] at hydrated
    dsimp only [bind, Except.bind] at hydrated
    split at hydrated
    · cases hydrated
    · cases hydrated
      rfl

theorem hydrateObjectVersionManifest_ok
    (ran : (hydrateObjectVersionManifest v).run s = .ok (w, t)) :
    s = t ∧ hydrateWith (chunksOf s v) v = .ok w := by
  replace ran := past ran rfl
  exact (run_ofOutcome_ok.mp ran).symm

theorem metadata_hydrated (ran : (hydrateObjectVersionManifest v).run s = .ok (w, t)) :
    s = t ∧ metadata w = metadata v := by
  obtain ⟨same, hydrated⟩ := hydrateObjectVersionManifest_ok ran
  exact ⟨same, metadata_hydrateWith hydrated⟩

/-! ## Searches -/

/-- The fold keeps the start or picks a committed version other than the skipped one. -/
theorem latestOf_foldl (skip : String) (versions : List ObjectVersion)
    (latest : ObjectVersion) :
    versions.foldl (latestOf skip) latest = latest ∨
      (versions.foldl (latestOf skip) latest ∈ versions ∧
        (versions.foldl (latestOf skip) latest).state = .committed ∧
        (versions.foldl (latestOf skip) latest).versionID ≠ skip) := by
  induction versions generalizing latest with
  | nil => exact .inl rfl
  | cons v versions ih =>
    rw [List.foldl_cons]
    rcases ih (latestOf skip latest v) with same | ⟨member, picked⟩
    · rw [same]
      unfold latestOf
      split
      · exact .inl rfl
      rename_i eligible
      push Not at eligible
      split
      · exact .inr ⟨List.mem_cons_self, eligible⟩
      · exact .inl rfl
    · exact .inr ⟨List.mem_cons_of_mem _ member, picked⟩

theorem latestCommittedVersion_none {skip : String}
    (ran : (latestCommittedVersion b k skip).run s = .ok (none, t)) : s = t := by
  replace ran := past ran rfl
  dsimp only at ran
  split at ran
  · cases ran
    rfl
  · obtain ⟨w, s₂, hydrated, ran⟩ := of_bind ran
    cases ran

/-! ## Heads -/

theorem getObjectHead_run (b k : String) (s : Store) :
    (getObjectHead b k).run s = .ok (((objectIndex s).head b k).map headFromHeadEntry, s) := rfl

variable {head stored : ObjectHead}

theorem setObjectHead_index (ran : (setObjectHead head).run s = .ok (stored, t)) :
    ∃ revision, stored = { head with revision := revision } ∧
      objectIndex t = (objectIndex s).setHead head.bucketID head.key
        (some (headEntryFromHead stored)) := by
  cases ran
  exact ⟨_, rfl, objectIndex_insert_head _ _ _ _⟩

theorem listing_marker (marker : head.deleteMarker = true) :
    listing (headEntryFromHead head) = none := if_pos marker

theorem listing_live (live : ¬ head.deleteMarker = true) :
    listing (headEntryFromHead head) = some (listEntryFromHead head) := if_neg live

/-- A head followed by its list entry. -/
theorem setHeadThenList_index {s₁ : Store} (headed : (setObjectHead head).run s = .ok (stored, s₁))
    (listed : (setListObject stored).run s₁ = .ok (u, t)) :
    objectIndex t = (objectIndex s).publish (headEntryFromHead stored) := by
  obtain ⟨revision, rfl, index⟩ := setObjectHead_index headed
  unfold setListObject at listed
  split at listed
  · rename_i marker
    cases listed
    rw [objectIndex_erase_listed, index, ObjectIndex.publish, listing_marker marker]
    rfl
  · rename_i live
    cases listed
    rw [objectIndex_insert_listed, index, ObjectIndex.publish, listing_live live]
    rfl

/-- A head followed by the list update of `updateHeadObjectLock` and of a promotion, which
name the list entry by the object. -/
theorem setHeadThenListAt_index {s₁ : Store} {marker : Bool}
    (headed : (setObjectHead head).run s = .ok (stored, s₁))
    (listed : (if marker then deleteKey (.listObject b k) else setListObject stored).run s₁ =
      .ok (u, t)) (isMarker : stored.deleteMarker = marker)
    (atKey : head.bucketID = b ∧ head.key = k) :
    objectIndex t = (objectIndex s).publish (headEntryFromHead stored) := by
  refine setHeadThenList_index (u := u) headed ?_
  cases marker with
  | false => exact listed
  | true =>
    obtain ⟨revision, rfl, -⟩ := setObjectHead_index headed
    obtain ⟨rfl, rfl⟩ := atKey
    rw [setListObject, if_pos isMarker]
    exact listed

theorem replaceHead_index (ran : (replaceHead head).run s = .ok (u, t)) :
    ∃ revision, objectIndex t =
      (objectIndex s).publish (headEntryFromHead { head with revision := revision }) := by
  obtain ⟨stored, s₁, headed, listed⟩ := of_bind ran
  obtain ⟨revision, rfl, -⟩ := setObjectHead_index headed
  exact ⟨revision, setHeadThenList_index headed listed⟩

end Namros.Index
