import Namros.Guarantees.IndexInvariant
import Namros.Source.ObjectFootprints

/-!
# What a record says of its segments

A version record lies under its own key and repeats its first segment as `SegmentRef`, and a
shared object carries the digest of its first segment. The dedupe test reads no more than these
two fields, so they are what it can know of a manifest.
-/

namespace Namros.Index

open Library Source Transaction

variable {platform : Platform} {context : CallContext} {s t : Store}

/-- `SegmentRef` is the first of the version's segments, and the version sorts by its id. -/
structure Leading (v : ObjectVersion) : Prop where
  first : v.segmentRef = firstSegmentRef v.segmentRefs
  sorted : v.versionSortKey = v.versionID

/-- A shared object carries the digest of the first of its segments. -/
def LeadingDigest (record : SharedObject) : Prop :=
  record.segmentRefs.head?.map SegmentRef.digest = some record.digest

/-- What every version record and every shared object of a store says of its segments. -/
structure ManifestsLed (s : Store) : Prop where
  filed : ∀ {b k sk v}, s.lookup (.objectVersion b k sk) = some v →
    v.bucketID = b ∧ v.key = k ∧ v.versionSortKey = sk
  sorted : ∀ {b k sk v}, s.lookup (.objectVersion b k sk) = some v →
    v.versionSortKey = v.versionID
  /-- A chunked record keeps its segments elsewhere. -/
  led : ∀ {b k sk v}, s.lookup (.objectVersion b k sk) = some v →
    v.manifest.encoding ≠ .chunked → v.segmentRef = firstSegmentRef v.segmentRefs
  shared : ∀ {id record}, s.lookup (.sharedObject id) = some record → LeadingDigest record

/-- The records `ManifestsLed` speaks of. -/
def manifestKey : Key → Prop
  | .objectVersion _ _ _ => True
  | .sharedObject _ => True
  | _ => False

theorem ManifestsLed.of_agree (agree : Agree manifestKey t s) (h : ManifestsLed s) :
    ManifestsLed t where
  filed stored := h.filed (agree (.objectVersion _ _ _) trivial ▸ stored)
  sorted stored := h.sorted (agree (.objectVersion _ _ _) trivial ▸ stored)
  led stored := h.led (agree (.objectVersion _ _ _) trivial ▸ stored)
  shared stored := h.shared (agree (.sharedObject _) trivial ▸ stored)

theorem manifestsLed_empty : ManifestsLed (∅ : Store) where
  filed stored := nomatch stored
  sorted stored := nomatch stored
  led stored := nomatch stored
  shared stored := nomatch stored

/-! ## Steps -/

/-- What a step of a call does to the records: it writes object records only, and where `P` holds
they still say what they have to say of their segments. -/
structure Records (P : Prop) (s t : Store) : Prop where
  outside : Agree (fun k => ¬ objectCallKey k) t s
  led : P → ManifestsLed s → ManifestsLed t

/-- The records of a call beside the versions and the shared objects. -/
inductive SideKey (k : Key) : Prop
  | head (member : headKey k)
  | protectedRef (member : protectedRefKey k)
  | locator (member : locatorKey k)
  | chunk (member : manifestChunkKey k)
  | audit (member : auditKey k)
  | bucket (member : bucketKey k)

theorem SideKey.written {k : Key} (side : SideKey k) : objectCallKey k ∧ ¬ manifestKey k := by
  rcases side with member | member | member | member | member | member
  case head | protectedRef =>
    simp only [headKey, protectedRefKey] at member
    split at member <;>
      simp_all [objectCallKey, sharedRecordKey, objectRecordKey, manifestKey]
  all_goals
    cases k <;> simp_all [locatorKey, manifestChunkKey, auditKey, bucketKey, objectCallKey,
      sharedRecordKey, objectRecordKey, manifestKey]

namespace Records

variable {P : Prop}

theorem refl (s : Store) : Records P s s := ⟨.refl s, fun _ h => h⟩

theorem trans {r : Store} (first : Records P s t) (second : Records P t r) : Records P s r :=
  ⟨second.outside.trans first.outside, fun p h => second.led p (first.led p h)⟩

theorem of_keeps {α : Type} {a : α} {W : Key → Prop} {body : Tx α} (keeps : Writes W body)
    (side : ∀ k, W k → SideKey k) (ran : body.run s = .ok (a, t)) : Records P s t := by
  have agree := keeps _ _ _ ran
  constructor
  · exact agree.mono fun k outside member => outside (side k member).written.1
  · exact fun _ h => h.of_agree (agree.mono fun k manifest member =>
      (side k member).written.2 manifest)

theorem erase {K : Key} (written : objectCallKey K) : Records P s (s.erase K) := by
  refine ⟨.erase_outside (fun outside => outside written) _, fun _ h => ?_⟩
  have same : ∀ {J : Key} {v : J.Value}, (s.erase K).lookup J = some v → s.lookup J = some v := by
    intro J v found
    by_cases erased : J = K
    · subst erased
      simp at found
    · rwa [AList.lookup_erase_ne erased] at found
  exact ⟨fun stored => h.filed (same stored), fun stored => h.sorted (same stored),
    fun stored => h.led (same stored), fun stored => h.shared (same stored)⟩

end Records

/-! ## Version records -/

variable {v : ObjectVersion}

variable {b k id : String} {K : Key} {u : Unit} {P : Prop}

theorem search_records {found : Option (Key × ObjectVersion)}
    (ran : (findVersionByID b k id).run s = .ok (found, t)) : Records P s t :=
  .of_keeps (keeps_findVersionByID b k id) (fun _ => .locator) ran

/-- A found version repeats its first segment. -/
theorem findVersionByID_leading (ran : (findVersionByID b k id).run s = .ok (some (K, v), t))
    (h : ManifestsLed s) : Leading v := by
  obtain ⟨located, s₁, searched, rest⟩ := of_bind ran
  cases located with
  | none => cases rest
  | some entry =>
    obtain ⟨K', stored⟩ := entry
    obtain ⟨full, s₂, hydrated, rest⟩ := of_bind rest
    cases rest
    obtain ⟨sk, rfl, present, -, -⟩ := locateVersion_found searched
    replace hydrated := past hydrated rfl
    obtain ⟨hydrated, -⟩ := run_ofOutcome_ok.mp hydrated
    have sorted := h.sorted present
    unfold hydrateWith at hydrated
    split at hydrated
    · next inline =>
      cases hydrated
      exact ⟨h.led present inline, sorted⟩
    split at hydrated
    · cases hydrated
    obtain ⟨refs, -, rest⟩ := bind_eq_ok.mp hydrated
    split at rest
    · cases rest
    · cases rest
      exact ⟨rfl, sorted⟩

theorem ManifestsLed.insertVersion (h : ManifestsLed s) (sorted : v.versionSortKey = v.versionID)
    (led : v.manifest.encoding ≠ .chunked → v.segmentRef = firstSegmentRef v.segmentRefs) :
    ManifestsLed (s.insert (.objectVersion v.bucketID v.key v.versionSortKey) v) := by
  have written : ∀ {b k sk w},
      (s.insert (.objectVersion v.bucketID v.key v.versionSortKey) v).lookup
        (.objectVersion b k sk) = some w →
      (w = v ∧ v.bucketID = b ∧ v.key = k ∧ v.versionSortKey = sk) ∨
        s.lookup (.objectVersion b k sk) = some w := by
    intro b k sk w found
    by_cases own : b = v.bucketID ∧ k = v.key ∧ sk = v.versionSortKey
    · obtain ⟨rfl, rfl, rfl⟩ := own
      rw [AList.lookup_insert] at found
      exact .inl ⟨(Option.some.inj found).symm, rfl, rfl, rfl⟩
    · rw [AList.lookup_insert_ne (by simpa using own)] at found
      exact .inr found
  refine ⟨fun stored => ?_, fun stored => ?_, fun stored => ?_, fun stored => ?_⟩
  · rcases written stored with ⟨rfl, place⟩ | earlier
    · exact place
    · exact h.filed earlier
  · rcases written stored with ⟨rfl, -⟩ | earlier
    · exact sorted
    · exact h.sorted earlier
  · rcases written stored with ⟨rfl, -⟩ | earlier
    · exact led
    · exact h.led earlier
  · rw [AList.lookup_insert_ne (by simp)] at stored
    exact h.shared stored

theorem setObjectVersion_records (ran : (setObjectVersion platform v).run s = .ok (u, t))
    (leading : P → Leading v) : Records P s t := by
  obtain ⟨plan, s₂, s₃, planned, cleared, chunked, rfl⟩ := setObjectVersion_ok ran
  have cleanup : Records P s s₃ :=
    (Records.of_keeps (.onlyIf fun _ => keeps_deleteObjectManifestChunks _ _) (fun _ => .chunk)
      cleared).trans (.of_keeps (keeps_setManifestChunks _) (fun _ => .chunk) chunked)
  constructor
  · exact ((Agree.insert_outside (fun outside => outside (.inl (.inl trivial))) _ _).trans
      (Agree.insert_outside (fun outside => outside (.inl (.inl trivial))) _ _)).trans
        cleanup.outside
  intro p h
  refine ManifestsLed.of_agree (Agree.insert_outside id _ _) ?_
  rcases (planObjectVersionManifestStorage_ok planned).2 with ⟨inline, -⟩ | ⟨-, -, -, external⟩
  · rw [inline]
    exact (cleanup.led p h).insertVersion (leading p).sorted fun _ => (leading p).first
  · rw [external]
    exact (cleanup.led p h).insertVersion (leading p).sorted fun inline => absurd rfl inline

theorem deleteObjectVersionRecord_records {sk : String}
    (ran : (deleteObjectVersionRecord (.objectVersion b k sk) v).run s = .ok (u, t)) :
    Records P s t := by
  obtain ⟨_, s₁, cleared, ran⟩ := of_bind ran
  cases ran
  refine (Records.of_keeps (.onlyIf fun _ => .bind (writes_deleteKey (.locator trivial)) fun _ =>
    (keeps_deleteObjectManifestChunks _ _).mono fun _ outside member => outside (.chunk member))
    (fun _ side => side) cleared).trans (.erase (.inl (.inl trivial)))

theorem deleteProtectedRefs_records
    (ran : (deleteProtectedRefsForVersion b k id).run s = .ok (u, t)) : Records P s t :=
  .of_keeps (keeps_deleteProtectedRefsForVersion _ _ _) (fun _ => .protectedRef) ran

variable {now : Time}

theorem installVersion_records {bucket : Bucket} {current : String} {head : ObjectHead}
    (ran : (installVersion platform bucket b k current v now).run s = .ok (head, t))
    (leading : P → Leading v) : Records P s t := by
  obtain ⟨s₁, s₂, s₃, s₄, stored, headed, listed, synced, removed⟩ := installVersion_ok ran
  have before : Records P s s₄ := (setObjectVersion_records stored leading).trans
    ((Records.of_keeps (keeps_setObjectHead _) (fun _ => .head) headed).trans
      ((Records.of_keeps (keeps_setListObject _) (fun _ => .head) listed).trans
        (.of_keeps (keeps_syncProtectedRefsForVersion _ _ _) (fun _ => .protectedRef) synced)))
  rcases removeReplacedVersion_ok removed with ⟨-, rfl⟩ | ⟨-, old, s₅, searched, rest⟩
  · exact before
  refine before.trans ((search_records searched).trans ?_)
  rcases old with _ | ⟨K, old⟩
  · subst rest
    exact .refl _
  · obtain ⟨s₆, released, removed⟩ := rest
    obtain ⟨sk, rfl⟩ := findVersionByID_key searched
    exact (deleteProtectedRefs_records released).trans (deleteObjectVersionRecord_records removed)

/-! ## Writes -/

theorem draw_records {current : Option ObjectHead} {versionID : String} {s₁ : Store}
    (headed : (currentHydratedHead b k).run s = .ok (current, s₁))
    (drawn : (nextObjectVersionID context b k).run s₁ = .ok (versionID, t)) : Records P s t := by
  rw [readOnly_nextObjectVersionID _ _ _ _ _ drawn]
  exact .of_keeps (keeps_currentHydratedHead _ _) (fun _ => .locator) headed

theorem beginPutObject_records {req : PutObjectRequest} {r : PendingObjectVersion}
    (ran : (beginPutObject platform context req).run s = .ok (r, t)) :
    Records (ManifestsLed s) s t := by
  obtain ⟨current, s₁, versionID, s₂, headed, drawn, stored, -⟩ := beginPutObject_ok ran
  exact (draw_records headed drawn).trans (setObjectVersion_records stored fun _ => ⟨rfl, rfl⟩)

theorem putObjectVersion_records {req : PutObjectRequest} {r : PutObjectVersionResult}
    (ran : (putObjectVersion platform context req).run s = .ok (r, t)) :
    Records (ManifestsLed s) s t := by
  obtain ⟨bucket, current, s₁, versionID, s₂, -, -, headed, drawn, installed⟩ :=
    putObjectVersion_ok ran
  exact (draw_records headed drawn).trans (installVersion_records installed fun _ => ⟨rfl, rfl⟩)

theorem commitObjectVersion_records {req : CommitObjectVersionRequest} {head : ObjectHead}
    (ran : (commitObjectVersion platform context req).run s = .ok (head, t)) :
    Records (ManifestsLed s) s t := by
  obtain ⟨bucket, current, s₁, K, version, -, -, -, -, searched, rest⟩ := commitObjectVersion_ok ran
  have leading := findVersionByID_leading searched
  refine (search_records searched).trans ?_
  rcases rest with ⟨-, hydrated⟩ | ⟨-, installed⟩
  · exact .of_keeps (keeps_hydrateHeadOrEmpty _) (fun _ => .locator) hydrated
  · exact installVersion_records installed fun h => ⟨(leading h).first, (leading h).sorted⟩

/-! ## Deletes -/

theorem deleteObject_records {req : DeleteObjectRequest} {r : DeleteResult}
    (ran : (deleteObject platform context req).run s = .ok (r, t)) :
    Records (ManifestsLed s) s t := by
  obtain ⟨bucket, -, -, ⟨-, byVersion⟩ | ⟨-, -, marked⟩ | ⟨-, -, removed⟩⟩ := deleteObject_ok ran
  · obtain ⟨K, deleted, s₁, s₂, s₃, s₄, searched, admitted, removed, released, promoted⟩ :=
      deleteObjectVersion_ok byVersion
    obtain ⟨sk, rfl⟩ := findVersionByID_key searched
    exact (search_records searched).trans
      ((Records.of_keeps (keeps_admitLockedDelete _ _ _ _ _ _) (fun _ => .audit) admitted).trans
        ((deleteObjectVersionRecord_records removed).trans
          ((deleteProtectedRefs_records released).trans
            (.of_keeps (keeps_promoteLatestVersion _ _ _) (fun _ => .head) promoted))))
  · obtain ⟨versionID, s₁, s₂, head, s₃, drawn, stored, headed, rfl⟩ :=
      createDeleteMarker_ok marked
    obtain rfl := readOnly_nextObjectVersionID _ _ _ _ _ drawn
    exact (setObjectVersion_records stored fun _ => ⟨rfl, rfl⟩).trans
      ((Records.of_keeps (keeps_setObjectHead _) (fun _ => .head) headed).trans
        (.erase (.inl (.inl trivial))))
  · rcases deleteUnversioned_ok removed with
      ⟨-, rfl⟩ | ⟨e, s₁, found, s₂, -, admitted, searched, rest⟩
    · exact .refl _
    have before : Records (ManifestsLed s) s s₂ :=
      (Records.of_keeps (keeps_admitLockedDelete _ _ _ _ _ _) (fun _ => .audit) admitted).trans
        ((Records.erase (K := .objectHead _ (.text _)) (.inl (.inl trivial))).trans
          ((Records.erase (K := .listObject _ (.text _)) (.inl (.inl trivial))).trans
            (search_records searched)))
    rcases found with _ | ⟨K, deleted⟩
    · subst rest
      exact before
    obtain ⟨s₃, released, removed⟩ := rest
    obtain ⟨sk, rfl⟩ := findVersionByID_key searched
    exact before.trans ((deleteProtectedRefs_records released).trans
      (deleteObjectVersionRecord_records removed))

/-! ## Updates -/

theorem updateHeadOf_records {update : ObjectHead → ObjectHead}
    (ran : (updateHeadOf b k id update).run s = .ok (u, t)) : Records P s t :=
  .of_keeps (keeps_updateHeadOf b k id update) (fun _ => .head) ran

theorem putObjectTags_records {req : ObjectTagsRequest}
    (ran : (putObjectTags platform req).run s = .ok (u, t)) : Records (ManifestsLed s) s t := by
  obtain ⟨-, ran⟩ := failIf_bind_ok.mp ran
  split at ran
  · obtain ⟨K, version, s₁, s₂, searched, -, stored, headed⟩ := putVersionTags_ok ran
    have leading := findVersionByID_leading searched
    exact ((search_records searched).trans (setObjectVersion_records stored fun h =>
      ⟨(leading h).first, (leading h).sorted⟩)).trans (updateHeadOf_records headed)
  · obtain ⟨e, s₁, -, replaced, rest⟩ := putHeadTags_ok ran
    have first : Records (ManifestsLed s) s s₁ :=
      .of_keeps (keeps_replaceHead _) (fun _ => .head) replaced
    refine first.trans ?_
    rcases rest with ⟨-, rfl⟩ | ⟨-, found, s₂, searched, rest⟩
    · exact .refl _
    rcases found with _ | ⟨K, version⟩
    · cases rest
      exact search_records searched
    · have leading (h : ManifestsLed s) := findVersionByID_leading searched (first.led h h)
      exact (search_records searched).trans (setObjectVersion_records rest fun h =>
        ⟨(leading h).first, (leading h).sorted⟩)

theorem relocks_records (relocks : Relocks platform now s t) : Records (ManifestsLed s) s t := by
  obtain ⟨_, _, _, version, _, _, admission, s₁, s₂, s₃, s₄, s₅, targeted, writes, admitted, stored,
    headed, synced, event, auditTime, appended, audited⟩ := relocks
  obtain ⟨id, K, searched, -⟩ := objectLockTarget_ok targeted
  have leading := findVersionByID_leading searched
  exact (search_records searched).trans ((Records.of_keeps writes (fun _ => .audit) admitted).trans
    ((setObjectVersion_records stored fun h => ⟨(leading h).first, (leading h).sorted⟩).trans
      ((Records.of_keeps (keeps_updateHeadObjectLock _) (fun _ => .head) headed).trans
        ((Records.of_keeps (keeps_syncProtectedRefsForVersion _ _ _) (fun _ => .protectedRef)
          synced).trans (.of_keeps (keeps_appendAuditEvent _ _ _) (fun _ => .audit) audited)))))

theorem publishObjectVersionRefs_records {req : PublishObjectVersionRefsRequest}
    {r : PublishRefsResult}
    (ran : (publishObjectVersionRefs platform context req).run s = .ok (r, t)) :
    Records (ManifestsLed s) s t := by
  obtain ⟨version, s₁, s₂, live, -, stored, headed⟩ := publishObjectVersionRefs_ok ran
  obtain ⟨K, searched, -⟩ := requireLiveVersion_ok live
  have leading := findVersionByID_leading searched
  exact ((search_records searched).trans (setObjectVersion_records stored fun h =>
    ⟨rfl, (leading h).sorted⟩)).trans (updateHeadOf_records headed)

/-! ## Shared objects -/

/-- The digest of a version that repeats its first segment is that segment's. -/
theorem objectVersionDigest_leading {digest : Digest} (leading : Leading v)
    (found : objectVersionDigest v = some digest) :
    ∃ first rest, v.allSegmentRefs = first :: rest ∧ digest = first.digest ∧
      digest.algorithm ≠ "" ∧ digest.hex ≠ "" := by
  unfold objectVersionDigest at found
  cases listed : v.segmentRefs with
  | nil =>
    have first := leading.first
    rw [listed] at first
    simp [first, firstSegmentRef, listed] at found
  | cons first rest =>
    have repeated := leading.first
    rw [listed] at repeated
    refine ⟨first, rest, by simp [ObjectVersion.allSegmentRefs, normalizeSegmentRefs, listed], ?_⟩
    change v.segmentRef = first at repeated
    rw [repeated] at found
    split at found
    · rename_i recorded
      cases found
      exact ⟨rfl, recorded⟩
    rename_i unrecorded
    rw [listed] at found
    cases rest with
    | nil => simp [unrecorded] at found
    | cons second rest => cases found

theorem ManifestsLed.insertShared (h : ManifestsLed s) {id : String} {record : SharedObject}
    (led : LeadingDigest record) :
    ManifestsLed (s.insert (.sharedObject id) record) := by
  refine ⟨fun stored => ?_, fun stored => ?_, fun stored => ?_, fun {id' other} stored => ?_⟩
  · rw [AList.lookup_insert_ne (by simp)] at stored
    exact h.filed stored
  · rw [AList.lookup_insert_ne (by simp)] at stored
    exact h.sorted stored
  · rw [AList.lookup_insert_ne (by simp)] at stored
    exact h.led stored
  by_cases own : id' = id
  · subst own
    rw [AList.lookup_insert] at stored
    cases stored
    exact led
  · rw [AList.lookup_insert_ne (by simpa using own)] at stored
    exact h.shared stored

theorem setShared_records {record : SharedObject} {ref : SharedObjectRef}
    {id' versionID : String} (led : P → LeadingDigest record) :
    Records P s ((s.insert (.sharedObject id) record).insert (.sharedObjectRef id' b k versionID)
      ref) := by
  constructor
  · exact (Agree.insert_outside (fun outside => outside (.inl (.inr trivial))) _ _).trans
      (Agree.insert_outside (fun outside => outside (.inl (.inr trivial))) _ _)
  · exact fun p h => (h.insertShared (led p)).of_agree (Agree.insert_outside (fun no => no) _ _)

theorem recordSharedObject_records {next r : SharedObject}
    (ran : (recordSharedObject platform next v now).run s = .ok (r, t))
    (led : P → LeadingDigest next) : Records P s t := by
  refine ⟨(keeps_recordSharedObject _ _ _ _ _ _ _ ran).mono fun k outside member =>
    outside (.inl (.inr member)), fun p h => ?_⟩
  replace ran := past ran rfl
  cases present : s.lookup (.sharedObject next.sharedObjectID) with
  | none =>
    simp only [present] at ran
    replace ran := past ran rfl
    replace ran := past ran rfl
    cases ran
    exact (h.insertShared (led p)).of_agree (Agree.insert_outside (fun no => no) _ _)
  | some existing =>
    simp only [present] at ran
    obtain ⟨count, _, counted, ran⟩ := of_bind ran
    obtain rfl := (readOnly_sharedObjectProtectedRootCount _ _ _ _ _ counted).symm
    replace ran := past ran rfl
    replace ran := past ran rfl
    have led : LeadingDigest existing := h.shared present
    have renewed := @ManifestsLed.insertShared s h existing.sharedObjectID { existing with
      protectedRootCount := count, updatedAt := now } led
    split at ran
    · cases ran
      exact renewed
    · replace ran := past ran rfl
      cases ran
      exact renewed.of_agree (Agree.insert_outside (fun no => no) _ _)

theorem sharedObjectFromVersion_led {bucket : Bucket} {next : SharedObject} (leading : Leading v)
    (built : sharedObjectFromVersion platform bucket v now = .ok next) : LeadingDigest next := by
  dsimp only [sharedObjectFromVersion] at built
  cases found : objectVersionDigest v with
  | none =>
    rw [found] at built
    split at built
    · cases built
    · cases built
  | some digest =>
    rw [found] at built
    split at built
    · cases built
    · cases built
      obtain ⟨first, rest, listed, same, -⟩ := objectVersionDigest_leading leading found
      simp [LeadingDigest, listed, same]

theorem publishSharedObject_records {req : PublishSharedObjectRequest} {r : SharedObject}
    (ran : (publishSharedObject platform context req).run s = .ok (r, t)) :
    Records (ManifestsLed s) s t := by
  obtain ⟨version, s₁, bucket, next, count, live, built, recorded⟩ := publishSharedObject_ok ran
  obtain ⟨K, searched, -⟩ := requireLiveVersion_ok live
  have led (h : ManifestsLed s) : LeadingDigest next :=
    sharedObjectFromVersion_led (findVersionByID_leading searched h) built
  exact (search_records searched).trans (recordSharedObject_records recorded led)

theorem attachObjectVersionToSharedObject_records {req : AttachRequest} {r : AttachResult}
    (ran : (attachObjectVersionToSharedObject platform context req).run s = .ok (r, t)) :
    Records (ManifestsLed s) s t := by
  obtain ⟨shared, version, s₁, s₂, shared', ref, present, live, -, -, same, stored, headed⟩ :=
    attachObjectVersionToSharedObject_ok ran
  simp only [Prod.mk.injEq] at same
  obtain ⟨K, searched, -⟩ := requireLiveVersion_ok live
  have leading := findVersionByID_leading searched
  refine ((search_records searched).trans (setObjectVersion_records stored fun h =>
    ⟨rfl, (leading h).sorted⟩)).trans ((setShared_records fun h => ?_).trans
      (updateHeadOf_records headed))
  rw [LeadingDigest, same.1, same.2]
  exact h.shared present

/-! ## Runs -/

/-- One call. -/
theorem objectCallBody_records {call : Guarantees.ObjectCall}
    (ran : (Guarantees.objectCallBody platform context call).run s = .ok (u, t)) :
    Records (ManifestsLed s) s t := by
  cases call with
    (try replace ran := (run_dropResult_ok.mp ran).choose_spec)
  | createBucket req => exact .of_keeps (keeps_createBucket context req) (fun _ => .bucket) ran
  | putBucketVersioning bucketID state =>
    exact .of_keeps (keeps_putBucketVersioning bucketID state) (fun _ => .bucket) ran
  | beginPutObject req => exact beginPutObject_records ran
  | commitObjectVersion req => exact commitObjectVersion_records ran
  | putObjectVersion req => exact putObjectVersion_records ran
  | deleteObject req => exact deleteObject_records ran
  | putObjectTags req => exact putObjectTags_records ran
  | deleteObjectTags req => exact putObjectTags_records ran
  | putObjectRetention req => exact relocks_records (putObjectRetention_ok ran)
  | putObjectLegalHold req => exact relocks_records (putObjectLegalHold_ok ran)
  | publishObjectVersionRefs req => exact publishObjectVersionRefs_records ran
  | publishSharedObject req => exact publishSharedObject_records ran
  | attachObjectVersionToSharedObject req => exact attachObjectVersionToSharedObject_records ran

/-- No call writes under an object key that is no text. -/
theorem runCalls_textual (calls : List (CallContext × Guarantees.ObjectCall)) (h : Textual s) :
    Textual (Guarantees.runCalls platform calls s) := by
  unfold Guarantees.runCalls
  induction calls generalizing s with
  | nil => exact h
  | cons call rest ih =>
    exact ih (settle_induction h fun _ _ ran =>
      h.of_agree ((objectCallBody_records ran).outside.mono strayKey_unwritten))

/-- Every run of calls. -/
theorem runCalls_manifestsLed (calls : List (CallContext × Guarantees.ObjectCall))
    (h : ManifestsLed s) : ManifestsLed (Guarantees.runCalls platform calls s) := by
  unfold Guarantees.runCalls
  induction calls generalizing s with
  | nil => exact h
  | cons call rest ih =>
    exact ih (settle_induction h fun _ _ ran => (objectCallBody_records ran).led h h)

end Namros.Index
