import Namros.Index.Invariant
import Namros.Index.Steps
import Namros.Source.Outcomes

/-!
# Operations keep the index consistent

Every closure that writes object records maps a consistent index to a consistent index,
provided the version ids it draws are new.
-/

namespace Namros.Index

open Library Source Transaction

variable {s t : Store} {U V : Set String} {platform : Platform} {context : CallContext}

/-! ## Searches -/

variable {b k id : String}

/-- On an indexed store a search reads the locator and restores nothing. -/
theorem locateVersion_indexed (indexed : VersionsIndexed (objectIndex s))
    {r : Option (Key × ObjectVersion)} (ran : (locateVersion b k id).run s = .ok (r, t)) :
    s = t ∧ ∀ K v, r = some (K, v) →
      K = .objectVersion b k id ∧ (objectIndex s).version b k id = some (metadata v) := by
  rcases locateVersion_cases ran with ⟨rfl, same⟩ | ⟨sk, w, rfl, ⟨present, named, -⟩, written⟩
  · exact ⟨same, by simp⟩
  have stored : (objectIndex s).version b k sk = some (metadata w) :=
    congrArg (Option.map metadata) present
  have same : w.versionID = sk := (indexed.identified stored).2.2.1
  have locator := indexed.located stored
  rw [← same, named] at stored locator
  -- a version with this id has a locator, so none was restored
  refine ⟨written.resolve_right (by simp_all [objectIndex]), ?_⟩
  intro K v found
  cases found
  rw [← same, named]
  exact ⟨rfl, stored⟩

/-- A stored version with its locator. -/
structure Located (I : ObjectIndex) (b k id : String) : Prop where
  named : id ≠ ""
  locator : I.locator b id = some ⟨k, id⟩
  stored : ∃ v, I.version b k id = some v ∧ v.bucketID = b ∧ v.key = k ∧ v.versionID = id

variable {I : ObjectIndex} {v : ObjectVersion}

theorem VersionsIndexed.at (indexed : VersionsIndexed I) (stored : I.version b k id = some v) :
    Located I b k id := by
  obtain ⟨sameBucket, sameKey, sameID, -⟩ := indexed.identified stored
  exact ⟨indexed.named stored, indexed.located stored, v, stored, sameBucket, sameKey, sameID⟩

theorem locateVersion_located (located : Located (objectIndex s) b k id) :
    ∃ w, (locateVersion b k id).run s = .ok (some (.objectVersion b k id, w), s) ∧
      s.lookup (.objectVersion b k id) = some w := by
  obtain ⟨v, stored, -, sameKey, sameID⟩ := located.stored
  obtain ⟨w, present, rfl⟩ := Option.map_eq_some_iff.mp stored
  have sameKey : w.key = k := sameKey
  have sameID : w.versionID = id := sameID
  have found : s.lookup (.objectVersionByID b id) = some ⟨k, id⟩ := located.locator
  have usable : ¬ ((k : GoString) ≠ k ∨ id = "") := by simpa using located.named
  have matching : ¬ (w.versionID ≠ id ∨ (w.key : GoString) ≠ k) := by
    rw [sameKey, sameID]
    simp
  refine ⟨w, ?_, present⟩
  unfold locateVersion
  rw [if_neg located.named, run_bind, run_getJSON, found]
  dsimp only
  rw [if_neg usable, run_bind, run_getJSON, present]
  dsimp only
  rw [if_neg matching, run_pure]

theorem findVersionByID_indexed (indexed : VersionsIndexed (objectIndex s))
    {r : Option (Key × ObjectVersion)} (ran : (findVersionByID b k id).run s = .ok (r, t)) :
    s = t ∧ ∀ K v, r = some (K, v) →
      K = .objectVersion b k id ∧ (objectIndex s).version b k id = some (metadata v) := by
  obtain ⟨found, s₁, search, ran⟩ := of_bind ran
  obtain ⟨rfl, located⟩ := locateVersion_indexed indexed search
  rcases found with _ | ⟨K, stored⟩
  · cases ran
    exact ⟨rfl, by simp⟩
  obtain ⟨w, s₂, hydrated, ran⟩ := of_bind ran
  cases ran
  obtain ⟨rfl, same⟩ := metadata_hydrated hydrated
  refine ⟨rfl, ?_⟩
  rintro K v ⟨rfl, rfl⟩
  obtain ⟨rfl, version⟩ := located _ _ rfl
  exact ⟨rfl, version.trans (congrArg some same.symm)⟩

/-- A version an indexed store finds by its id, with the identity it carries. -/
theorem findVersionByID_some (indexed : VersionsIndexed (objectIndex s)) {K : Key}
    (ran : (findVersionByID b k id).run s = .ok (some (K, v), t)) :
    s = t ∧ K = .objectVersion b k id ∧ (objectIndex s).version b k id = some (metadata v) ∧
      v.bucketID = b ∧ v.key = k ∧ v.versionID = id ∧ v.versionSortKey = id := by
  obtain ⟨same, found⟩ := findVersionByID_indexed indexed ran
  obtain ⟨key, stored⟩ := found _ _ rfl
  have identified := indexed.identified stored
  exact ⟨same, key, stored, identified⟩

/-- A located version is found, unless its manifest cannot be read. -/
theorem findVersionByID_located (located : Located (objectIndex s) b k id)
    {r : Option (Key × ObjectVersion)} (ran : (findVersionByID b k id).run s = .ok (r, t)) :
    s = t ∧ ∃ w, r = some (.objectVersion b k id, w) ∧
      (objectIndex s).version b k id = some (metadata w) := by
  obtain ⟨w, search, present⟩ := locateVersion_located located
  obtain ⟨found, s₁, searched, ran⟩ := of_bind ran
  rw [search] at searched
  cases searched
  obtain ⟨w', s₂, hydrated, ran⟩ := of_bind ran
  cases ran
  obtain ⟨rfl, same⟩ := metadata_hydrated hydrated
  exact ⟨rfl, w', rfl, (congrArg (Option.map metadata) present).trans (congrArg some same.symm)⟩

theorem getObjectVersion_indexed (indexed : VersionsIndexed (objectIndex s))
    (ran : (getObjectVersion b k id).run s = .ok (v, t)) : s = t := by
  obtain ⟨found, s₁, searched, ran⟩ := of_bind ran
  obtain ⟨rfl, -⟩ := findVersionByID_indexed indexed searched
  obtain ⟨_, -, ran⟩ := orFail_bind_ok.mp ran
  cases ran
  rfl

variable {head : ObjectHead}

theorem hydrateHeadManifest_indexed (indexed : VersionsIndexed (objectIndex s))
    {hydrated : ObjectHead} (ran : (hydrateHeadManifest head).run s = .ok (hydrated, t)) :
    s = t ∧ hydrated.versionID = head.versionID := by
  unfold hydrateHeadManifest at ran
  split at ran
  · cases ran
    exact ⟨rfl, rfl⟩
  obtain ⟨found, s₁, searched, ran⟩ := of_bind ran
  obtain ⟨rfl, -⟩ := findVersionByID_indexed indexed searched
  rcases found with _ | ⟨K, v⟩
  · cases ran
    exact ⟨rfl, rfl⟩
  · cases ran
    exact ⟨rfl, rfl⟩

theorem hydrateHeadOrEmpty_indexed (indexed : VersionsIndexed (objectIndex s))
    {hydrated : ObjectHead} (ran : (hydrateHeadOrEmpty head).run s = .ok (hydrated, t)) :
    s = t := by
  rcases hydrateHeadOrEmpty_ok ran with ⟨-, rfl⟩ | ⟨found, s₁, searched, cases⟩
  · rfl
  obtain ⟨rfl, -⟩ := locateVersion_indexed indexed searched
  rcases cases with ⟨-, rfl⟩ | ⟨-, rfl⟩ | ⟨version, w, hydrating, -⟩
  · rfl
  · rfl
  · exact (metadata_hydrated hydrating).1

theorem getHead_indexed (indexed : VersionsIndexed (objectIndex s))
    (ran : (getHead b k).run s = .ok (head, t)) : s = t := by
  obtain ⟨found, s₁, read, ran⟩ := of_bind ran
  rw [getObjectHead_run] at read
  cases read
  obtain ⟨_, -, ran⟩ := orFail_bind_ok.mp ran
  exact hydrateHeadOrEmpty_indexed indexed ran

/-- The current head of a key, with the version id its record names. -/
theorem currentHydratedHead_indexed (indexed : VersionsIndexed (objectIndex s))
    {head : Option ObjectHead} (ran : (currentHydratedHead b k).run s = .ok (head, t)) :
    s = t ∧ (head.getD {}).versionID =
      (((objectIndex s).head b k).map ObjectHeadEntry.versionID).getD "" := by
  obtain ⟨entry, s₁, read, ran⟩ := of_bind ran
  rw [getObjectHead_run] at read
  cases read
  cases stored : (objectIndex s).head b k with
  | none =>
    simp only [stored, Option.map_none] at ran
    cases ran
    exact ⟨rfl, rfl⟩
  | some e =>
    simp only [stored, Option.map_some] at ran
    obtain ⟨hydrated, s₂, step, ran⟩ := of_bind ran
    obtain ⟨rfl, same⟩ := hydrateHeadManifest_indexed indexed step
    cases ran
    exact ⟨rfl, same⟩

/-! ## New version ids -/

/-- The version ids the call may draw are new: none was issued before it. -/
structure IssuesFresh (context : CallContext) (U V : Set String) : Prop where
  grows : U ⊆ V
  fresh : ∀ n < idCollisionRetryLimit, ∀ id, context.newID .version n = some id →
    id ≠ "" ∧ id ∉ U ∧ id ∈ V

/-- The id a new version gets is not taken by another version of the key. -/
theorem nextObjectVersionID_absent (ran : (nextObjectVersionID context b k).run s = .ok (id, t)) :
    s = t ∧ (objectIndex s).version b k id = none := by
  obtain ⟨same, unused, -⟩ := nextFreeID_drawn ran
  exact ⟨same, congrArg (Option.map metadata) unused⟩

theorem nextObjectVersionID_fresh (issues : IssuesFresh context U V)
    (ran : (nextObjectVersionID context b k).run s = .ok (id, t)) :
    s = t ∧ id ≠ "" ∧ id ∉ U ∧ id ∈ V := by
  obtain ⟨same, -, n, below, issued⟩ := nextFreeID_drawn ran
  exact ⟨same, issues.fresh n (by omega) id issued⟩

/-- A version with a new id can be stored. -/
theorem Consistent.storable_of_fresh (h : Consistent U I) (sortKey : v.versionSortKey = v.versionID)
    (named : v.versionID ≠ "") (fresh : v.versionID ∉ U) : Storable I v := by
  refine ⟨sortKey, named, fun found => ?_⟩
  rw [h.locator_of_not_issued fresh] at found
  cases found

/-! ## Removals -/

variable {now : Time} {bucket : Bucket}

section Removals

variable {b k id : String} {v : ObjectVersion} {u : Unit}

theorem Located.dropped (located : Located (objectIndex s) b k id) (bucketNamed : b ≠ "")
    (stored : (objectIndex s).version b k id = some (metadata v))
    (removed : (deleteObjectVersionRecord (.objectVersion b k id) v).run s = .ok (u, t)) :
    objectIndex t = ((objectIndex s).setLocator b id none).setVersion b k id none := by
  obtain ⟨w, stored', sameBucket, -, sameID⟩ := located.stored
  rw [stored] at stored'
  cases stored'
  have sameBucket : v.bucketID = b := sameBucket
  have sameID : v.versionID = id := sameID
  rw [deleteObjectVersionRecord_index removed, sameBucket, sameID,
    if_pos ⟨bucketNamed, located.named⟩]

theorem deleteProtectedRefsForVersion_index
    (released : (deleteProtectedRefsForVersion b k id).run s = .ok (u, t)) :
    objectIndex t = objectIndex s :=
  objectIndex_of_keeps (keeps_deleteProtectedRefsForVersion _ _ _) protectedRefKey_outside released

theorem syncProtectedRefsForVersion_index
    (synced : (syncProtectedRefsForVersion platform v now).run s = .ok (u, t)) :
    objectIndex t = objectIndex s :=
  objectIndex_of_keeps (keeps_syncProtectedRefsForVersion _ _ _) protectedRefKey_outside synced

/-- The replaced version is left alone, or it is stored and is removed. -/
theorem removeReplacedVersion_found {current : String} (indexed : VersionsIndexed (objectIndex s))
    (ran : (removeReplacedVersion bucket b k current id).run s = .ok (u, t)) :
    s = t ∨ ∃ v s₁, current ≠ id ∧ (objectIndex s).version b k current = some (metadata v) ∧
      (deleteProtectedRefsForVersion b k current).run s = .ok ((), s₁) ∧
      (deleteObjectVersionRecord (.objectVersion b k current) v).run s₁ = .ok ((), t) := by
  rcases removeReplacedVersion_ok ran with ⟨-, rfl⟩ | ⟨⟨-, -, replaced⟩, old, s₁, searched, rest⟩
  · exact .inl rfl
  rcases old with _ | ⟨K, v⟩
  · obtain ⟨rfl, -⟩ := findVersionByID_indexed indexed searched
    exact .inl rest
  obtain ⟨rfl, rfl, stored, sameBucket, sameKey, sameID, -⟩ :=
    findVersionByID_some indexed searched
  obtain ⟨s₂, released, removed⟩ := rest
  rw [sameBucket, sameKey, sameID] at released
  exact .inr ⟨v, s₂, replaced, stored, released, removed⟩

theorem deleteObjectVersion_found {req : DeleteObjectRequest} {r : DeleteResult}
    (indexed : VersionsIndexed (objectIndex s))
    (ran : (deleteObjectVersion platform context req now).run s = .ok (r, t)) :
    ∃ v s₁ s₂ s₃,
      (objectIndex s).version req.bucketID req.key req.versionID = some (metadata v) ∧
      (admitLockedDelete platform req (v.protectedByObjectLock now) v.versionID
        "object_version" (context.now 1)).run s = .ok ((), s₁) ∧
      objectIndex s₁ = objectIndex s ∧
      (deleteObjectVersionRecord (.objectVersion req.bucketID req.key req.versionID) v).run s₁ =
        .ok ((), s₂) ∧
      (deleteProtectedRefsForVersion req.bucketID req.key req.versionID).run s₂ = .ok ((), s₃) ∧
      (promoteLatestVersion req.bucketID req.key req.versionID).run s₃ = .ok ((), t) := by
  obtain ⟨K, v, s₁, s₂, s₃, s₄, searched, admitted, removed, released, promoted⟩ :=
    deleteObjectVersion_ok ran
  obtain ⟨rfl, rfl, stored, sameBucket, sameKey, sameID, -⟩ := findVersionByID_some indexed searched
  rw [sameBucket, sameKey, sameID] at released
  exact ⟨v, s₂, s₃, s₄, stored, admitted, objectIndex_of_keeps
    (keeps_admitLockedDelete _ _ _ _ _ _) auditKey_outside admitted, removed, released, promoted⟩

/-- A delete without version id leaves a key without a head alone; otherwise the head goes, and
with it the version it names. -/
theorem deleteUnversioned_found {req : DeleteObjectRequest} {r : DeleteResult}
    (h : Consistent U (objectIndex s))
    (ran : (deleteUnversioned platform context req).run s = .ok (r, t)) :
    ((objectIndex s).head req.bucketID req.key = none ∧ s = t) ∨
      ∃ e s₁ s₂ v s₃, (objectIndex s).head req.bucketID req.key = some e ∧
        (admitLockedDelete platform req
          ((headFromHeadEntry e).protectedByObjectLock (context.now 0)) e.versionID
          "object_head" (context.now 1)).run s = .ok ((), s₁) ∧
        s₂ = (s₁.erase (.objectHead req.bucketID req.key)).erase
          (.listObject req.bucketID req.key) ∧
        objectIndex s₂ = (objectIndex s).retract req.bucketID req.key ∧
        (objectIndex s₂).version req.bucketID req.key e.versionID = some (metadata v) ∧
        (deleteProtectedRefsForVersion req.bucketID req.key e.versionID).run s₂ = .ok ((), s₃) ∧
        (deleteObjectVersionRecord (.objectVersion req.bucketID req.key e.versionID) v).run s₃ =
          .ok ((), t) := by
  rcases deleteUnversioned_ok ran with
    ⟨unheaded, rfl⟩ | ⟨e, s₁, found, s₂, headed, admitted, searched, rest⟩
  · exact .inl ⟨unheaded, rfl⟩
  have retracted : objectIndex ((s₁.erase (.objectHead req.bucketID req.key)).erase
      (.listObject req.bucketID req.key)) =
        (objectIndex s).retract req.bucketID req.key := by
    rw [objectIndex_erase_listed, objectIndex_erase_head,
      objectIndex_of_keeps (keeps_admitLockedDelete _ _ _ _ _ _) auditKey_outside admitted]
    rfl
  -- the version the head names is stored, and the head's removal leaves it
  obtain ⟨w, -, -, current, -⟩ := (h.heads _ _).current headed
  have indexed := (h.retract req.bucketID req.key).versions
  have located := indexed.at current
  rw [← retracted] at indexed located
  obtain ⟨rfl, v, rfl, stored⟩ := findVersionByID_located located searched
  obtain ⟨s₃, released, removed⟩ := rest
  obtain ⟨-, -, -, sameBucket, sameKey, sameID, -⟩ := findVersionByID_some indexed searched
  rw [sameBucket, sameKey, sameID] at released
  exact .inr ⟨e, s₁, _, v, s₃, headed, admitted, rfl, retracted, stored, released, removed⟩

end Removals

/-! ## Writes -/

variable {currentVersionID : String} {u : Unit}

/-- The stores of an installation: with the version stored, and with it published. -/
theorem installVersion_index {version : ObjectVersion}
    (ran : (installVersion platform bucket b k currentVersionID version now).run s =
      .ok (head, t)) :
    ∃ s₁ s₂ revision, (setObjectVersion platform version).run s = .ok ((), s₁) ∧
      Agree (fun k => ¬ headKey k ∧ ¬ protectedRefKey k) s₂ s₁ ∧
      objectIndex s₂ =
        ((objectIndex s).putVersion version).publish (headEntryOf version revision now) ∧
      (removeReplacedVersion bucket b k currentVersionID version.versionID).run s₂ =
        .ok ((), t) := by
  obtain ⟨s₁, s₂, s₃, s₄, stored, headed, listed, synced, removed⟩ := installVersion_ok ran
  have published := setHeadThenList_index headed listed
  have sameHead := keeps_setObjectHead _ _ _ _ headed
  have sameList := keeps_setListObject _ _ _ _ listed
  have sameRefs := keeps_syncProtectedRefsForVersion _ _ _ _ _ _ synced
  obtain ⟨revision, rfl, -⟩ := setObjectHead_index headed
  refine ⟨s₁, s₄, revision, stored, ?_, ?_, removed⟩
  · exact (sameRefs.mono fun _ kept => kept.2).trans
      ((sameList.trans sameHead).mono fun _ kept => kept.1)
  · rw [syncProtectedRefsForVersion_index synced, published, setObjectVersion_index stored]
    rfl

theorem installVersion_consistent {version : ObjectVersion}
    (ran : (installVersion platform bucket b k currentVersionID version now).run s =
      .ok (head, t)) (h : Consistent U (objectIndex s))
    (storable : Storable (objectIndex s) version) (issued : version.versionID ∈ U)
    (committed : version.state = .committed) (atKey : version.bucketID = b ∧ version.key = k)
    (bucketNamed : b ≠ "") : Consistent U (objectIndex t) := by
  obtain ⟨s₁, s₂, revision, -, -, index, removed⟩ := installVersion_index ran
  have installed : Consistent U (objectIndex s₂) := by
    rw [index]
    exact h.putCurrent storable issued committed revision now
  rcases removeReplacedVersion_found installed.versions removed with
    rfl | ⟨v, s₃, replaced, stored, released, erased⟩
  · exact installed
  rw [← deleteProtectedRefsForVersion_index released] at installed stored index
  rw [(installed.versions.at stored).dropped bucketNamed stored erased]
  refine installed.dropVersion stored fun {e} headed same => replaced (same.symm.trans ?_)
  obtain ⟨rfl, rfl⟩ := atKey
  rw [index, ObjectIndex.publish_head, if_pos ⟨rfl, rfl⟩] at headed
  cases headed
  rfl

/-! ## Deletes -/

/-- The version another one replaces as head, or the loss of the head, on an index from which
the removed version is still to be dropped. -/
theorem promoteLatestVersion_consistent (h : Consistent U I) (stored : I.version b k id = some v)
    (dropped : objectIndex s = (I.setLocator b id none).setVersion b k id none)
    (ran : (promoteLatestVersion b k id).run s = .ok (u, t)) :
    Consistent U (objectIndex t) := by
  have headSame : s.lookup (.objectHead b k) = I.head b k :=
    congrFun (congrFun (congrArg ObjectIndex.head dropped) b) k
  rcases onHeadOf_ok ran with ⟨rfl, other⟩ | ⟨e, headed, current, ran⟩
  · rw [dropped]
    refine h.dropVersion stored fun {e} found => other e ?_
    rw [headSame, found]
  obtain ⟨promoted, s₁, latest, ran⟩ := of_bind ran
  rcases promoted with _ | promoted
  · cases ran
    obtain rfl := latestCommittedVersion_none latest
    rw [objectIndex_erase_listed, objectIndex_erase_head, dropped]
    exact (h.retract b k).dropVersion (I := I.retract b k) stored fun {e'} found =>
      absurd (found.symm.trans (I.retract_head b k)) (Option.some_ne_none _)
  · obtain ⟨head, s₂, set, listed⟩ := of_bind ran
    replace latest := past latest rfl
    dsimp only at latest
    split at latest
    · cases latest
    next named =>
    obtain ⟨_, _, hydrated, latest⟩ := of_bind latest
    cases latest
    obtain ⟨rfl, same⟩ := metadata_hydrated hydrated
    obtain ⟨member, committed, differs⟩ := (latestOf_foldl id (List.map Prod.snd
      (recordsUnder asObjectVersion (versionPrefix b k) s)) {}).resolve_left
        fun start => named (by rw [start])
    obtain ⟨⟨K, w⟩, found, eq⟩ := List.mem_map.mp member
    obtain ⟨sk, rfl, present⟩ := mem_versionRecords.mp found
    rw [← eq] at committed differs same
    -- the promoted version is another version of the key
    have remaining : (objectIndex s).version b k sk = some (metadata w) :=
      congrArg (Option.map metadata) present
    rw [dropped] at remaining
    simp only [ObjectIndex.setVersion, ObjectIndex.setLocator] at remaining
    split at remaining
    · cases remaining
    obtain ⟨sameBucket, sameKey, sameID, -⟩ := h.versions.identified remaining
    have other : sk ≠ id := fun same => differs (by rw [← same]; exact sameID)
    have atKey : promoted.bucketID = b ∧ promoted.key = k :=
      ⟨(congrArg ObjectVersion.bucketID same).trans sameBucket,
        (congrArg ObjectVersion.key same).trans sameKey⟩
    obtain ⟨revision, shape, -⟩ := setObjectHead_index set
    have published := setHeadThenListAt_index set listed (by rw [shape]; rfl) atKey
    have isHead : headEntryFromHead head =
        headEntryOf (metadata w) revision promoted.committedAt := by
      rw [shape, ← same]
      rfl
    have present : (I.publish (headEntryOf (metadata w) revision
        promoted.committedAt)).version b k id = some v := stored
    rw [published, isHead, dropped]
    refine (h.promote remaining committed revision promoted.committedAt).dropVersion present
      fun {e'} found => ?_
    rw [ObjectIndex.publish_head, if_pos ⟨sameBucket.symm, sameKey.symm⟩] at found
    cases found
    exact fun sameAsRemoved => differs sameAsRemoved

/-! ## Updates -/

/-- An update does to the head of a version what `amended` is to the version. -/
def HeadUpdates (v amended : ObjectVersion) (update : ObjectHead → ObjectHead) : Prop :=
  ∀ revision lastModified newRevision, ∃ newLastModified,
    headEntryFromHead { update (headFromHeadEntry (headEntryOf v revision lastModified)) with
      revision := newRevision } = headEntryOf amended newRevision newLastModified

section Amend

variable {b k id : String} {v amended : ObjectVersion}

/-- Rewriting a version and then the head of its key, as the tag and reference updates do. -/
theorem updateHeadOf_consistent {update : ObjectHead → ObjectHead} {s₁ : Store}
    (rewritten : objectIndex s₁ = (objectIndex s).putVersion amended)
    (h : Consistent U (objectIndex s)) (stored : (objectIndex s).version b k id = some (metadata v))
    (identity : amended.bucketID = v.bucketID ∧ amended.key = v.key ∧
      amended.versionID = v.versionID ∧ amended.versionSortKey = v.versionSortKey)
    (committed : amended.state = .committed) (agrees : HeadUpdates v amended update)
    (ran : (updateHeadOf b k id update).run s₁ = .ok (u, t)) :
    Consistent U (objectIndex t) := by
  have headSame : s₁.lookup (.objectHead b k) = (objectIndex s).head b k :=
    congrFun (congrFun (congrArg ObjectIndex.head rewritten) b) k
  obtain ⟨sameBucket, sameKey, sameID, sameSort⟩ := h.versions.identified stored
  have identity : amended.bucketID = b ∧ amended.key = k ∧ amended.versionID = id ∧
      amended.versionSortKey = id :=
    ⟨identity.1.trans sameBucket, identity.2.1.trans sameKey, identity.2.2.1.trans sameID,
      identity.2.2.2.trans sameSort⟩
  refine h.amend stored identity committed ?_
  rcases onHeadOf_ok ran with ⟨rfl, other⟩ | ⟨e, headed, current, replaced⟩
  · refine .inr ⟨rewritten, fun {e} found => other e ?_⟩
    rw [headSame, found]
  obtain ⟨revision, index⟩ := replaceHead_index replaced
  rw [headSame] at headed
  obtain ⟨w, r, l, found, -, entry⟩ := (h.heads b k).current headed
  rw [current, stored] at found
  cases found
  obtain ⟨lastModified, shape⟩ := agrees r l revision
  refine .inl ⟨revision, lastModified, ?_⟩
  rw [index, entry, rewritten]
  exact congrArg _ shape

/-- Rewriting the lock state of a version and then of its head. -/
theorem updateHeadObjectLock_consistent {s₁ : Store} (h : Consistent U (objectIndex s))
    (stored : (objectIndex s).version b k id = some (metadata v)) (committed : v.state = .committed)
    {retention : ObjectLockRetention} {legalHold : LegalHoldStatus} (isAmended : amended = { v with
      objectLockRetention := retention, objectLockLegalHold := legalHold })
    (rewritten : objectIndex s₁ = (objectIndex s).putVersion amended)
    (ran : (updateHeadObjectLock amended).run s₁ = .ok (u, t)) :
    Consistent U (objectIndex t) := by
  subst isAmended
  obtain ⟨sameBucket, sameKey, sameID, sameSort⟩ := h.versions.identified stored
  have sameBucket : v.bucketID = b := sameBucket
  have sameKey : v.key = k := sameKey
  have sameID : v.versionID = id := sameID
  have sameSort : v.versionSortKey = id := sameSort
  have headSame : s₁.lookup (.objectHead v.bucketID v.key) = (objectIndex s).head b k := by
    rw [sameBucket, sameKey]
    exact congrFun (congrFun (congrArg ObjectIndex.head rewritten) b) k
  refine h.amend (v := { v with
    objectLockRetention := retention, objectLockLegalHold := legalHold }) stored
    ⟨sameBucket, sameKey, sameID, sameSort⟩ committed ?_
  rcases onHeadOf_ok ran with ⟨rfl, other⟩ | ⟨e, headed, current, ran⟩
  · refine .inr ⟨rewritten, fun {e} found => ?_⟩
    rw [← sameID]
    exact other e (by rw [headSame, found])
  obtain ⟨head, s₂, set, listed⟩ := of_bind ran
  obtain ⟨revision, shape, -⟩ := setObjectHead_index set
  rw [headSame] at headed
  have current : e.versionID = v.versionID := current
  obtain ⟨w, r, l, found, -, entry⟩ := (h.heads b k).current headed
  rw [current, sameID, stored] at found
  cases found
  have atKey : (headFromHeadEntry e).bucketID = v.bucketID ∧ (headFromHeadEntry e).key = v.key := by
    rw [entry]
    exact ⟨rfl, rfl⟩
  refine .inl ⟨revision, l, ?_⟩
  rw [setHeadThenListAt_index set listed rfl atKey, rewritten, shape, entry]
  rfl

end Amend

end Namros.Index
