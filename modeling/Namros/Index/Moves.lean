import Namros.Index.Holdings

/-!
# Moves of the holdings

What each object call does to the versions and the protected references of a store, as a
sequence of moves. Everything the object-lock tables have to satisfy is then a matter of the
four moves.
-/

namespace Namros.Index

open Library Source Transaction

/-- The text that is hashed into the id of a reference. -/
def refText (b k id segmentID : String) : Bytes :=
  bytes b ++ 0 :: bytes k ++ 0 :: bytes id ++ 0 :: bytes segmentID

/-- The version has a lock, expired or not. -/
def HasLock (v : ObjectVersion) : Prop :=
  v.objectLockLegalHold = .on ∨ v.objectLockRetention.mode ≠ .none
deriving Decidable

/-- The texts of the segments of locked versions. -/
def refTexts (H : Holdings) : Set Bytes :=
  {text | ∃ b k id held segments, H.version b k id = some held ∧ HasLock held.data ∧
    held.segments = some segments ∧
      ∃ segmentRef ∈ segments, segmentRef.segmentID ≠ "" ∧
        text = refText b k id segmentRef.segmentID}

/-- One move at time `now`, with version ids among `ids`; the texts it hashes are in `texts`. -/
inductive Move (platform : Platform) (ids : Set String) (texts : Set Bytes) (now : Time)
    (H : Holdings) : Holdings → Prop
  /-- A version with a new id, that is not committed yet or not under object lock. -/
  | add (v : ObjectVersion) (issued : v.versionID ∈ ids)
      (fresh : ∀ b k, H.version b k v.versionID = none)
      (free : v.state = .pending ∨ v.protectedByObjectLock now false = false) :
      Move platform ids texts now H (H.put v)
  /-- A committed version, new or in place of its old record, with its references. -/
  | install (v : ObjectVersion) (issued : v.versionID ∈ ids) (committed : v.state = .committed)
      (known : H.version v.bucketID v.key v.versionID ≠ none ∨
        ∀ b k, H.version b k v.versionID = none)
      (hashed : HasLock v → ∀ segmentRef ∈ v.allSegmentRefs, segmentRef.segmentID ≠ "" →
        refText v.bucketID v.key v.versionID segmentRef.segmentID ∈ texts) :
      Move platform ids texts now H (H.install platform v now)
  /-- A rewritten version: its lock stays, and its segments too while it is under object lock. -/
  | amend (v : ObjectVersion) (held : Held)
      (stored : H.version v.bucketID v.key v.versionID = some held)
      (state : v.state = held.data.state)
      (lock : v.deleteMarker = held.data.deleteMarker ∧
        v.objectLockRetention = held.data.objectLockRetention ∧
        v.objectLockLegalHold = held.data.objectLockLegalHold)
      (segments : held.segments = some v.allSegmentRefs ∨
        v.protectedByObjectLock now false = false) :
      Move platform ids texts now H (H.put v)
  /-- A version that goes with its references. -/
  | drop (b k id : String) : Move platform ids texts now H (H.drop b k id)

/-- The holdings of one store move to those of the other. -/
def Moves (platform : Platform) (ids : Set String) (texts : Set Bytes) (now : Time) (s t : Store) :
    Prop :=
  Relation.ReflTransGen (Move platform ids texts now) (holdings s) (holdings t)

/-- A move that leaves every stored version stored. -/
def Renewal (platform : Platform) (ids : Set String) (texts : Set Bytes) (now : Time)
    (H H' : Holdings) : Prop :=
  Move platform ids texts now H H' ∧ ∀ b k id, H.version b k id ≠ none → H'.version b k id ≠ none

/-- The holdings of one store move to those of the other, and no version goes. -/
def Renews (platform : Platform) (ids : Set String) (texts : Set Bytes) (now : Time) (s t : Store) :
    Prop :=
  Relation.ReflTransGen (Renewal platform ids texts now) (holdings s) (holdings t)

variable {platform : Platform} {context : CallContext} {U V : Set String} {X : Set Bytes}
  {s t r : Store}
  {now : Time} {b k id : String}

namespace Moves

theorem single (move : Move platform V X now (holdings s) (holdings t)) :
    Moves platform V X now s t :=
  Relation.ReflTransGen.single move

theorem trans (first : Moves platform V X now s t) (second : Moves platform V X now t r) :
    Moves platform V X now s r :=
  Relation.ReflTransGen.trans first second

theorem mono {Y : Set Bytes} (moves : Moves platform U X now s t) (le : U ⊆ V) (more : X ⊆ Y) :
    Moves platform V Y now s t := by
  refine Relation.ReflTransGen.mono (fun H H' move => ?_) _ _ moves
  cases move with
  | add v issued fresh free => exact .add v (le issued) fresh free
  | install v issued committed known hashed =>
    exact .install v (le issued) committed known fun locked segmentRef member named =>
      more (hashed locked segmentRef member named)
  | amend v held stored state lock segments => exact .amend v held stored state lock segments
  | drop b k id => exact .drop b k id

end Moves

namespace Renews

theorem of_eq (same : holdings t = holdings s) : Renews platform V X now s t := by
  unfold Renews
  rw [same]

theorem trans (first : Renews platform V X now s t) (second : Renews platform V X now t r) :
    Renews platform V X now s r :=
  Relation.ReflTransGen.trans first second

/-- A step that leaves the held records alone. -/
theorem of_keeps {α : Type} {body : Tx α} {a : α} {P : Key → Prop}
    (keeps : Writes P body) (outside : ∀ k, holdingKey k → ¬ P k)
    (ran : body.run s = .ok (a, t)) : Renews platform V X now s t :=
  of_eq (holdings_of_keeps keeps outside ran)

/-- A move to a holding with one more or one rewritten version. -/
theorem put {H : Holdings} {v : ObjectVersion} (move : Move platform V X now (holdings s) H)
    (result : holdings t = H) (stores : H.version = ((holdings s).put v).version) :
    Renews platform V X now s t := by
  subst result
  refine .single ⟨move, fun b k id present => ?_⟩
  rw [stores]
  dsimp only [Holdings.put]
  split
  · exact Option.some_ne_none _
  · exact present

theorem moves (renews : Renews platform V X now s t) : Moves platform V X now s t :=
  Relation.ReflTransGen.mono (fun _ _ renewal => renewal.1) _ _ renews

theorem retains (renews : Renews platform V X now s t)
    (present : (objectIndex s).version b k id ≠ none) :
    (objectIndex t).version b k id ≠ none := by
  have stored (s : Store) : (holdings s).version b k id = none ↔
      (objectIndex s).version b k id = none := Option.map_eq_none_iff
  rw [Ne, ← stored] at present ⊢
  unfold Renews at renews
  generalize holdings t = H at renews ⊢
  induction renews with
  | refl => exact present
  | tail _ renewal ih => exact renewal.2 b k id ih

end Renews

/-- A call leaves a consistent index, by moves. -/
structure Advances (platform : Platform) (ids : Set String) (now : Time) (s t : Store) :
    Prop where
  consistent : Consistent ids (objectIndex t)
  moves : Moves platform ids (refTexts (holdings t)) now s t

theorem Advances.mono (advances : Advances platform U now s t) (le : U ⊆ V) :
    Advances platform V now s t :=
  ⟨advances.consistent.mono le, advances.moves.mono le subset_rfl⟩

/-- A call leaves a consistent index and every version stored. -/
structure Renewed (platform : Platform) (ids : Set String) (now : Time) (s t : Store) :
    Prop where
  consistent : Consistent ids (objectIndex t)
  renews : Renews platform ids (refTexts (holdings t)) now s t

theorem Renewed.advances (renewed : Renewed platform U now s t) : Advances platform U now s t :=
  ⟨renewed.consistent, renewed.renews.moves⟩

theorem held_of_indexed {data : ObjectVersion}
    (stored : (objectIndex s).version b k id = some data) :
    (holdings s).version b k id = some ⟨data, versionSegments s b k id⟩ := by
  change ((objectIndex s).version b k id).map _ = _
  rw [stored]
  rfl

/-- An id that was not issued is held by no version. -/
theorem Consistent.unheld (h : Consistent U (objectIndex s)) (fresh : id ∉ U) (b k : String) :
    (holdings s).version b k id = none := by
  change ((objectIndex s).version b k id).map _ = none
  cases stored : (objectIndex s).version b k id with
  | none => rfl
  | some v => exact absurd (h.issuedOnly stored) fresh

/-! ## Parts of the calls -/

variable {u : Unit}

/-- Releasing references leaves the versions. -/
theorem deleteProtectedRefsForVersion_holdings
    (ran : (deleteProtectedRefsForVersion b k id).run s = .ok (u, t)) :
    (holdings t).version = (holdings s).version ∧
      (holdings t).refs = (holdings s).refs.release b k id := by
  refine ⟨?_, deleteProtectedRefsForVersion_tables ran⟩
  have index := deleteProtectedRefsForVersion_index ran
  have segments := versionSegments_of_agree
    ((keeps_deleteProtectedRefsForVersion _ _ _ _ _ _ ran).mono protectedRefKey_apart)
  funext b k id
  change heldVersion t b k id = heldVersion s b k id
  simp only [heldVersion, index, segments]

variable {v : ObjectVersion} {u' : Unit}

/-- A stored version is dropped: its references first, then its record. -/
theorem dropVersion_holdings (indexed : VersionsIndexed (objectIndex s))
    (stored : (objectIndex s).version b k id = some (metadata v))
    (released : (deleteProtectedRefsForVersion b k id).run s = .ok (u, r))
    (removed : (deleteObjectVersionRecord (.objectVersion b k id) v).run r = .ok (u', t)) :
    holdings t = (holdings s).drop b k id := by
  have same : objectIndex r = objectIndex s :=
    deleteProtectedRefsForVersion_index released
  obtain ⟨kept, freed⟩ := deleteProtectedRefsForVersion_holdings released
  obtain ⟨versions, refs⟩ := deleteObjectVersionRecord_version removed (by rwa [same])
    (by rwa [same])
  refine Holdings.ext ?_ (refs.trans freed)
  rw [versions]
  simp only [Holdings.drop, kept]

theorem dropVersion_moves (indexed : VersionsIndexed (objectIndex s))
    (stored : (objectIndex s).version b k id = some (metadata v))
    (released : (deleteProtectedRefsForVersion b k id).run s = .ok (u, r))
    (removed : (deleteObjectVersionRecord (.objectVersion b k id) v).run r = .ok (u', t)) :
    Moves platform V X now s t := by
  refine .single ?_
  rw [dropVersion_holdings indexed stored released removed]
  exact .drop b k id

theorem removeReplacedVersion_moves {bucket : Bucket} {current versionID : String}
    (h : VersionsIndexed (objectIndex s))
    (ran : (removeReplacedVersion bucket b k current versionID).run s = .ok (u, t)) :
    Moves platform V X now s t := by
  rcases removeReplacedVersion_found h ran with rfl | ⟨v, s₁, -, stored, released, removed⟩
  · exact .refl
  · exact dropVersion_moves h stored released removed

/-- The version that took the place of the removed one stays. -/
theorem removeReplacedVersion_keeps {bucket : Bucket} {current versionID : String}
    (h : VersionsIndexed (objectIndex s))
    (ran : (removeReplacedVersion bucket b k current versionID).run s = .ok (u, t)) :
    (holdings t).version b k versionID = (holdings s).version b k versionID := by
  rcases removeReplacedVersion_found h ran with rfl | ⟨v, s₁, other, stored, released, removed⟩
  · rfl
  · rw [dropVersion_holdings h stored released removed]
    exact if_neg fun here => other here.2.2.symm

/-- The texts of a stored version's segments. -/
theorem refText_mem_refTexts {H : Holdings} {segmentRef : SegmentRef}
    (stored : H.version v.bucketID v.key v.versionID = some ⟨metadata v, some v.allSegmentRefs⟩)
    (locked : HasLock v) (member : segmentRef ∈ v.allSegmentRefs)
    (named : segmentRef.segmentID ≠ "") :
    refText v.bucketID v.key v.versionID segmentRef.segmentID ∈ refTexts H :=
  ⟨_, _, _, _, _, stored, locked, rfl, segmentRef, member, named, rfl⟩

variable {s₁ s₂ : Store}

/-- A stored version and the references that go with it. -/
theorem storeAndSync_holdings (stored : (setObjectVersion platform v).run s = .ok (u, s₁))
    (headed : Agree (fun k => ¬ headKey k) s₂ s₁)
    (synced : (syncProtectedRefsForVersion platform v now).run s₂ = .ok (u', t))
    (indexed : VersionsIndexed (objectIndex s)) (storable : Storable (objectIndex s) v) :
    holdings t = (holdings s).install platform v now := by
  have put := setObjectVersion_holdings stored indexed storable
  have same : holdings s₂ = holdings s₁ := holdings_of_agree (headed.mono headKey_unheld)
  have kept := keeps_syncProtectedRefsForVersion _ _ _ _ _ _ synced
  have versions : (holdings t).version = (holdings s₂).version := by
    have index := syncProtectedRefsForVersion_index synced
    have segments := versionSegments_of_agree (kept.mono protectedRefKey_apart)
    funext b k id
    change heldVersion t b k id = heldVersion s₂ b k id
    simp only [heldVersion, index, segments]
  have refs : (holdings t).refs = (holdings s₂).refs.sync platform v now :=
    syncProtectedRefsForVersion_tables synced
  refine Holdings.ext ?_ ?_
  · rw [versions, same, put]
    rfl
  · rw [refs, same, put]
    rfl

theorem storeAndSync_renews (stored : (setObjectVersion platform v).run s = .ok (u, s₁))
    (headed : Agree (fun k => ¬ headKey k) s₂ s₁)
    (synced : (syncProtectedRefsForVersion platform v now).run s₂ = .ok (u', t))
    (indexed : VersionsIndexed (objectIndex s)) (storable : Storable (objectIndex s) v)
    (issued : v.versionID ∈ V) (committed : v.state = .committed)
    (known : (holdings s).version v.bucketID v.key v.versionID ≠ none ∨
      ∀ b k, (holdings s).version b k v.versionID = none)
    (hashed : HasLock v → ∀ segmentRef ∈ v.allSegmentRefs, segmentRef.segmentID ≠ "" →
      refText v.bucketID v.key v.versionID segmentRef.segmentID ∈ X) :
    Renews platform V X now s t :=
  .put (.install v issued committed known hashed)
    (storeAndSync_holdings stored headed synced indexed storable) rfl

theorem installVersion_advances {bucket : Bucket} {current : String} {head : ObjectHead}
    (ran : (installVersion platform bucket b k current v now).run s = .ok (head, t))
    (h : Consistent U (objectIndex s)) (storable : Storable (objectIndex s) v)
    (issued : v.versionID ∈ U) (committed : v.state = .committed)
    (atKey : v.bucketID = b ∧ v.key = k) (bucketNamed : b ≠ "")
    (known : (holdings s).version v.bucketID v.key v.versionID ≠ none ∨
      ∀ b k, (holdings s).version b k v.versionID = none) : Advances platform U now s t := by
  refine ⟨installVersion_consistent ran h storable issued committed atKey bucketNamed, ?_⟩
  obtain ⟨s₁, s₂, s₃, s₄, stored, headed, listed, synced, removed⟩ := installVersion_ok ran
  have sameHead := keeps_setObjectHead _ _ _ _ headed
  have sameList := keeps_setListObject _ _ _ _ listed
  have installed : VersionsIndexed (objectIndex s₄) := by
    rw [syncProtectedRefsForVersion_index synced, setHeadThenList_index headed listed,
      setObjectVersion_index stored]
    exact (h.versions.putVersion storable).congr rfl rfl
  have held : (holdings t).version v.bucketID v.key v.versionID =
      some ⟨metadata v, some v.allSegmentRefs⟩ := by
    rw [← atKey.1, ← atKey.2] at removed
    rw [removeReplacedVersion_keeps installed removed,
      storeAndSync_holdings stored (sameList.trans sameHead) synced h.versions storable]
    exact if_pos ⟨rfl, rfl, rfl⟩
  exact (storeAndSync_renews stored (sameList.trans sameHead) synced h.versions storable issued
    committed known fun locked _ => refText_mem_refTexts held locked).moves.trans
      (removeReplacedVersion_moves installed removed)

/-! ## Writes -/

theorem beginPutObject_renewed {req : PutObjectRequest} {r : PendingObjectVersion}
    (h : Consistent U (objectIndex s)) (issues : IssuesFresh context U V)
    (ran : (beginPutObject platform context req).run s = .ok (r, t)) :
    Renewed platform V (context.now 0) s t := by
  obtain ⟨current, s₁, versionID, s₂, headed, drawn, stored, -⟩ := beginPutObject_ok ran
  obtain ⟨rfl, -⟩ := currentHydratedHead_indexed h.versions headed
  obtain ⟨rfl, named, fresh, member⟩ := nextObjectVersionID_fresh issues drawn
  have storable := h.storable_of_fresh (v := req.version
    (normalizeSegmentRefs req.segmentRef req.segmentRefs) versionID .pending (context.now 0) 0)
    rfl named fresh
  constructor
  · rw [setObjectVersion_index stored]
    refine (h.mono issues.grows).putVersion storable member ?_
    -- a new id is no key's current version
    rintro e found rfl
    obtain ⟨v, _, _, stored, -⟩ := (h.heads _ _).current found
    exact fresh (h.issuedOnly stored)
  · exact .put (.add _ member (h.unheld fresh) (.inl rfl))
      (setObjectVersion_holdings stored h.versions storable) rfl

theorem putObjectVersion_advances {req : PutObjectRequest} {r : PutObjectVersionResult}
    (h : Consistent U (objectIndex s)) (issues : IssuesFresh context U V)
    (ran : (putObjectVersion platform context req).run s = .ok (r, t)) :
    Advances platform V (context.now 0) s t := by
  obtain ⟨bucket, current, s₁, versionID, s₂, bucketNamed, -, headed, drawn, installed⟩ :=
    putObjectVersion_ok ran
  obtain ⟨rfl, -⟩ := currentHydratedHead_indexed h.versions headed
  obtain ⟨rfl, named, fresh, member⟩ := nextObjectVersionID_fresh issues drawn
  exact installVersion_advances installed (h.mono issues.grows)
    (h.storable_of_fresh rfl named fresh) member rfl ⟨rfl, rfl⟩ bucketNamed
    (.inr (h.unheld fresh))

theorem commitObjectVersion_advances {req : CommitObjectVersionRequest} {head : ObjectHead}
    (h : Consistent U (objectIndex s))
    (ran : (commitObjectVersion platform context req).run s = .ok (head, t)) :
    Advances platform U (context.now 0) s t := by
  obtain ⟨bucket, current, s₁, K, version, bucketNamed, -, -, -, searched, rest⟩ :=
    commitObjectVersion_ok ran
  obtain ⟨rfl, rfl, stored, identity⟩ := findVersionByID_some h.versions searched
  rcases rest with ⟨-, hydrated⟩ | ⟨-, installed⟩
  · obtain rfl := hydrateHeadOrEmpty_indexed h.versions hydrated
    exact ⟨h, .refl⟩
  have storable := h.storable_of_stored (v := { version with
    state := .committed, committedAt := context.now 0 }) stored identity
  obtain ⟨sameBucket, sameKey, sameID, -⟩ := identity
  have known : (holdings s).version version.bucketID version.key version.versionID ≠ none := by
    rw [sameBucket, sameKey, sameID, held_of_indexed stored]
    exact Option.some_ne_none _
  have issued : version.versionID ∈ U := by
    rw [sameID]
    exact h.issuedOnly stored
  exact installVersion_advances installed h storable issued rfl ⟨sameBucket, sameKey⟩
    bucketNamed (.inl known)

/-! ## Deletes -/

theorem deleteObjectVersion_advances {req : DeleteObjectRequest} {r : DeleteResult}
    (h : Consistent U (objectIndex s)) (bucketNamed : req.bucketID ≠ "")
    (ran : (deleteObjectVersion platform context req (context.now 0)).run s = .ok (r, t)) :
    Advances platform U (context.now 0) s t := by
  obtain ⟨v, s₁, s₂, s₃, stored, admitted, same, removed, released, promoted⟩ :=
    deleteObjectVersion_found h.versions ran
  rw [← same] at h stored
  constructor
  · refine promoteLatestVersion_consistent h stored ?_ promoted
    rw [deleteProtectedRefsForVersion_index released,
      (h.versions.at stored).dropped bucketNamed stored removed]
  · obtain ⟨versions, refs⟩ := deleteObjectVersionRecord_version removed h.versions stored
    obtain ⟨kept, freed⟩ := deleteProtectedRefsForVersion_holdings released
    have result : holdings s₃ = (holdings s₁).drop req.bucketID req.key req.versionID := by
      refine Holdings.ext (kept.trans versions) ?_
      rw [freed, refs]
      rfl
    have dropped : Moves platform U (refTexts (holdings t)) (context.now 0) s₁ s₃ :=
      .single (result ▸ .drop _ _ _)
    exact (Renews.of_keeps (keeps_admitLockedDelete _ _ _ _ _ _) auditKey_unheld
      admitted).moves.trans (dropped.trans
        (Renews.of_keeps (keeps_promoteLatestVersion _ _ _) headKey_unheld promoted).moves)

theorem deleteUnversioned_advances {req : DeleteObjectRequest} {r : DeleteResult}
    (h : Consistent U (objectIndex s)) (bucketNamed : req.bucketID ≠ "")
    (ran : (deleteUnversioned platform context req).run s = .ok (r, t)) :
    Advances platform U (context.now 0) s t := by
  rcases deleteUnversioned_found h ran with
    ⟨-, rfl⟩ | ⟨e, s₁, s₂, v, s₃, -, admitted, erased, retracted, stored, released, removed⟩
  · exact ⟨h, .refl⟩
  have kept : Agree holdingKey s₂ s₁ := by
    rw [erased]
    exact (Agree.erase_outside (by simp [holdingKey, segmentKey, protectedRefKey]) _).trans
      (Agree.erase_outside (by simp [holdingKey, segmentKey, protectedRefKey]) _)
  have h' := h.retract req.bucketID req.key
  have unheaded : (objectIndex s₂).head req.bucketID req.key = none := by
    rw [retracted, ObjectIndex.retract_head]
  rw [← retracted] at h'
  have moves : Moves platform U (refTexts (holdings t)) (context.now 0) s t :=
    ((Renews.of_keeps (keeps_admitLockedDelete _ _ _ _ _ _) auditKey_unheld admitted).trans
      (.of_eq (holdings_of_agree kept))).moves.trans
        (dropVersion_moves h'.versions stored released removed)
  refine ⟨?_, moves⟩
  rw [← deleteProtectedRefsForVersion_index released] at h' stored unheaded
  rw [(h'.versions.at stored).dropped bucketNamed stored removed]
  refine h'.dropVersion stored fun {e'} headed => ?_
  cases unheaded.symm.trans headed

theorem createDeleteMarker_renewed {req : DeleteObjectRequest} {r : DeleteResult}
    (h : Consistent U (objectIndex s)) (issues : IssuesFresh context U V)
    (ran : (createDeleteMarker platform context req).run s = .ok (r, t)) :
    Renewed platform V (context.now 0) s t := by
  obtain ⟨versionID, s₁, s₂, head, s₃, drawn, stored, headed, rfl⟩ := createDeleteMarker_ok ran
  obtain ⟨rfl, named, fresh, member⟩ := nextObjectVersionID_fresh issues drawn
  have storable := h.storable_of_fresh (v := req.marker versionID (context.now 0)) rfl named fresh
  constructor
  · obtain ⟨revision, rfl, index⟩ := setObjectHead_index headed
    rw [objectIndex_erase_listed, index, setObjectVersion_index stored]
    exact (h.mono issues.grows).putCurrent storable member rfl revision (context.now 0)
  have kept : Agree holdingKey (s₃.erase (.listObject req.bucketID req.key)) s₂ :=
    (Agree.erase_outside (by simp [holdingKey, segmentKey, protectedRefKey]) _).trans
      ((keeps_setObjectHead _ _ _ _ headed).mono headKey_unheld)
  exact .put (.add _ member (h.unheld fresh) (.inr rfl))
    ((holdings_of_agree kept).trans (setObjectVersion_holdings stored h.versions storable)) rfl

theorem deleteObject_advances {req : DeleteObjectRequest} {r : DeleteResult}
    (h : Consistent U (objectIndex s)) (issues : IssuesFresh context U V)
    (ran : (deleteObject platform context req).run s = .ok (r, t)) :
    Advances platform V (context.now 0) s t := by
  obtain ⟨bucket, bucketNamed, -, ⟨-, byVersion⟩ | ⟨-, -, marked⟩ | ⟨-, -, removed⟩⟩ :=
    deleteObject_ok ran
  · exact (deleteObjectVersion_advances h bucketNamed byVersion).mono issues.grows
  · exact (createDeleteMarker_renewed h issues marked).advances
  · exact (deleteUnversioned_advances h bucketNamed removed).mono issues.grows

/-! ## Updates -/

/-- What an update leaves of a version, its segments and its position in the key apart. -/
def SameIdentity (amended version : ObjectVersion) : Prop :=
  (amended.bucketID, amended.key, amended.versionID, amended.versionSortKey, amended.state,
    amended.deleteMarker, amended.objectLockRetention, amended.objectLockLegalHold) =
  (version.bucketID, version.key, version.versionID, version.versionSortKey, version.state,
    version.deleteMarker, version.objectLockRetention, version.objectLockLegalHold)

variable {K : Key} {version amended : ObjectVersion}

/-- A stored version is rewritten under its own identity. -/
theorem amendVersion_renews (stored : (setObjectVersion platform amended).run s = .ok (u, t))
    (searched : (findVersionByID b k id).run s = .ok (some (K, version), s))
    (h : VersionsIndexed (objectIndex s)) (same : SameIdentity amended version)
    (segments : amended.allSegmentRefs = version.allSegmentRefs ∨
      version.protectedByObjectLock now false = false) : Renews platform V X now s t := by
  obtain ⟨-, -, current, sameBucket, sameKey, sameID, sortKey⟩ := findVersionByID_some h searched
  simp only [SameIdentity, Prod.mk.injEq] at same
  obtain ⟨b', k', id', sk', state, lock⟩ := same
  have held := held_of_indexed current
  rw [findVersionByID_segments h searched] at held
  have storable := h.storable current
    ⟨b'.trans sameBucket, k'.trans sameKey, id'.trans sameID, sk'.trans sortKey⟩
  rw [← sameBucket, ← sameKey, ← sameID, ← b', ← k', ← id'] at held
  refine .put (.amend amended _ held state lock ?_) (setObjectVersion_holdings stored h storable)
    rfl
  rcases segments with unchanged | free
  · exact .inl (congrArg some unchanged.symm)
  · refine .inr ?_
    unfold ObjectVersion.protectedByObjectLock at free ⊢
    rwa [lock.1, lock.2.1, lock.2.2]

/-- A version is rewritten, and then the head of its key if the version is current. -/
theorem amendHead_renewed {update : ObjectHead → ObjectHead} {s₀ : Store}
    (h : Consistent U (objectIndex s))
    (searched : (findVersionByID b k id).run s = .ok (some (K, version), s₀))
    (stored : (setObjectVersion platform amended).run s₀ = .ok (u, s₁))
    (kept : objectIndex s₂ = objectIndex s₁ ∧ holdings s₂ = holdings s₁)
    (headed : (updateHeadOf b k version.versionID update).run s₂ = .ok (u', t))
    (same : SameIdentity amended version) (committed : version.state = .committed)
    (agrees : HeadUpdates version amended update)
    (segments : amended.allSegmentRefs = version.allSegmentRefs ∨
      version.protectedByObjectLock now false = false) : Renewed platform U now s t := by
  obtain ⟨rfl, -, current, -, -, sameID, -⟩ := findVersionByID_some h.versions searched
  constructor
  · simp only [SameIdentity, Prod.mk.injEq] at same
    obtain ⟨b', k', id', sk', state, -⟩ := same
    rw [sameID] at headed
    exact updateHeadOf_consistent (kept.1.trans (setObjectVersion_index stored)) h current
      ⟨b', k', id', sk'⟩ (state.trans committed) agrees headed
  · exact ((amendVersion_renews stored searched h.versions same segments).trans
      (.of_eq kept.2)).trans (.of_keeps (keeps_updateHeadOf _ _ _ _) headKey_unheld headed)

theorem putObjectTags_renewed {req : ObjectTagsRequest} (h : Consistent U (objectIndex s))
    (ran : (putObjectTags platform req).run s = .ok (u, t)) : Renewed platform U now s t := by
  obtain ⟨-, ran⟩ := failIf_bind_ok.mp ran
  split at ran
  · obtain ⟨K, version, s₁, s₂, searched, committed, stored, headed⟩ := putVersionTags_ok ran
    obtain ⟨-, -, -, -, -, sameID, -⟩ := findVersionByID_some h.versions searched
    rw [← sameID] at headed
    exact amendHead_renewed h searched stored ⟨rfl, rfl⟩ headed rfl committed
      (fun _ l _ => ⟨l, rfl⟩) (.inl rfl)
  · obtain ⟨e, s₁, headed, replaced, rest⟩ := putHeadTags_ok ran
    -- the head is rewritten first; its version exists, so it is rewritten too
    obtain ⟨revision, index⟩ := replaceHead_index replaced
    obtain ⟨w, r, l, current, committed, shape⟩ := (h.heads _ _).current headed
    have indexed : VersionsIndexed (objectIndex s₁) := h.versions.congr (by rw [index]; rfl)
      (by rw [index]; rfl)
    rcases rest with ⟨unnamed, -⟩ | ⟨-, found, s₂, searched, rest⟩
    · exact absurd unnamed (h.versions.named current)
    have stored : (objectIndex s₁).version req.bucketID req.key e.versionID = some w := by
      rw [index]
      exact current
    obtain ⟨rfl, version, rfl, located⟩ := findVersionByID_located (indexed.at stored) searched
    rw [stored] at located
    cases located
    have identified := h.versions.identified current
    constructor
    · refine h.amend (v := { version with tags := req.tags }) current identified committed
        (.inl ⟨revision, l, ?_⟩)
      rw [setObjectVersion_index rest, index, shape]
      rfl
    · exact (Renews.of_keeps (keeps_replaceHead _) headKey_unheld replaced).trans
        (amendVersion_renews rest searched indexed rfl (.inl rfl))

theorem relocks_renewed (h : Consistent U (objectIndex s)) (relocks : Relocks platform now s t) :
    Renewed platform U now s t := by
  obtain ⟨_, _, _, version, retention, legalHold, admission, s₁, s₂, s₃, s₄, s₅, targeted, writes,
    admitted, stored, headed, synced, event, auditTime, appended, audited⟩ := relocks
  obtain ⟨id, K, searched, committed⟩ := objectLockTarget_ok targeted
  obtain ⟨rfl, -, current, identity⟩ := findVersionByID_some h.versions searched
  have sameIndex := objectIndex_of_keeps writes auditKey_outside admitted
  have sameHoldings := holdings_of_keeps writes auditKey_unheld admitted
  constructor
  · rw [objectIndex_of_keeps (keeps_appendAuditEvent _ _ _) auditKey_outside audited,
      syncProtectedRefsForVersion_index synced]
    refine updateHeadObjectLock_consistent h current committed rfl ?_ headed
    rw [setObjectVersion_index stored, sameIndex]
  · rw [← sameIndex] at h current
    have storable := h.versions.storable (v := { version with
      objectLockRetention := retention, objectLockLegalHold := legalHold }) current identity
    obtain ⟨rfl, rfl, rfl, -⟩ := identity
    have relocked := keeps_updateHeadObjectLock _ _ _ _ headed
    have known : (holdings s₂).version version.bucketID version.key version.versionID ≠ none := by
      rw [held_of_indexed current]
      exact Option.some_ne_none _
    have audit := holdings_of_keeps (keeps_appendAuditEvent _ _ _) auditKey_unheld audited
    refine ((Renews.of_eq sameHoldings).trans (storeAndSync_renews stored relocked synced h.versions
      storable (h.issuedOnly current) committed (.inl known) fun locked _ =>
        refText_mem_refTexts ?_ locked)).trans (.of_eq audit)
    rw [audit, storeAndSync_holdings stored relocked synced h.versions storable]
    exact if_pos ⟨rfl, rfl, rfl⟩

theorem publishObjectVersionRefs_renewed {req : PublishObjectVersionRefsRequest}
    {r : PublishRefsResult} (h : Consistent U (objectIndex s))
    (ran : (publishObjectVersionRefs platform context req).run s = .ok (r, t)) :
    Renewed platform U (context.now 0) s t := by
  obtain ⟨version, s₁, s₂, live, free, stored, headed⟩ := publishObjectVersionRefs_ok ran
  obtain ⟨K, searched, committed, -⟩ := requireLiveVersion_ok live
  exact amendHead_renewed h searched stored ⟨rfl, rfl⟩ headed rfl committed
    (fun _ l _ => ⟨l, rfl⟩) (.inr free)

theorem attachObjectVersionToSharedObject_renewed {req : AttachRequest} {r : AttachResult}
    (h : Consistent U (objectIndex s))
    (ran : (attachObjectVersionToSharedObject platform context req).run s = .ok (r, t)) :
    Renewed platform U (context.now 0) s t := by
  obtain ⟨shared, version, s₁, s₂, shared', ref, -, live, free, -, -, stored, headed⟩ :=
    attachObjectVersionToSharedObject_ok ran
  obtain ⟨K, searched, committed, -⟩ := requireLiveVersion_ok live
  have kept {P : Key → Prop} (outside : ∀ k, P k → ¬ sharedObjectKey k) :
      Agree P ((s₂.insert (.sharedObject shared'.sharedObjectID) shared').insert
        (.sharedObjectRef ref.sharedObjectID ref.bucketID ref.key ref.versionID) ref) s₂ :=
    (Agree.insert_outside (fun held => outside (.sharedObjectRef _ _ (.text _) _) held trivial) _ _).trans
      (Agree.insert_outside (fun held => outside (.sharedObject _) held trivial) _ _)
  exact amendHead_renewed h searched stored ⟨objectIndex_congr (kept sharedObjectKey_outside),
    holdings_of_agree (kept sharedObjectKey_unheld)⟩ headed rfl committed
    (fun _ _ _ => ⟨context.now 0, rfl⟩) (.inr free)

theorem publishSharedObject_renewed {req : PublishSharedObjectRequest} {r : SharedObject}
    (h : Consistent U (objectIndex s))
    (ran : (publishSharedObject platform context req).run s = .ok (r, t)) :
    Renewed platform U (context.now 0) s t := by
  obtain ⟨version, s₁, bucket, next, count, live, -, recorded⟩ := publishSharedObject_ok ran
  obtain ⟨K, searched, -⟩ := requireLiveVersion_ok live
  obtain ⟨rfl, -⟩ := findVersionByID_indexed h.versions searched
  have record := keeps_recordSharedObject platform { next with protectedRootCount := count }
    version (context.now 0)
  refine ⟨?_, .of_keeps record sharedObjectKey_unheld recorded⟩
  rw [objectIndex_of_keeps record sharedObjectKey_outside recorded]
  exact h

end Namros.Index
