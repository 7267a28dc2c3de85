import Namros.Index.Manifests
import Namros.Index.Progress

/-!
# Content of an attached version

`AttachObjectVersionToSharedObject` replaces the whole reference list of a version by that of
the shared object, after comparing the two sizes and the two object digests. The object digest
is the digest of the first segment (`objectVersionDigest`), so what the test knows is that the
first segments hold the same bytes. The bytes read through the version stay the same exactly
when the segments after the first do too.
-/

namespace Namros.Guarantees

open Library Source Index Transaction

variable {platform : Platform} {context : CallContext} {s t : Store}

/-- A recorded checksum identifies the bytes read through a reference. -/
def Identified (platform : Platform) (content : SegmentRef → Bytes) : Prop :=
  ∀ e f : SegmentRef, e.digest.algorithm ≠ "" → e.digest.hex ≠ "" →
    platform.equalFold e.digest.algorithm f.digest.algorithm →
    platform.equalFold e.digest.hex f.digest.hex → content e = content f

/-- The bytes of a version, read through the references `GetObjectVersion` returns. -/
def readVersion (content : SegmentRef → Bytes) (s : Store) (bucketID key versionID : String) :
    Option Bytes :=
  match (getObjectVersion bucketID key versionID).run s with
  | .ok (version, _) => some (version.allSegmentRefs.flatMap content)
  | .error _ => none

variable {content : SegmentRef → Bytes} {b k id : String} {version : ObjectVersion}

theorem readVersion_found (found : (getObjectVersion b k id).run s = .ok (version, t)) :
    readVersion content s b k id = some (version.allSegmentRefs.flatMap content) := by
  rw [readVersion, found]

/-- After the first segment, the shared object and the version hold the same bytes. -/
def SameRemainder (content : SegmentRef → Bytes) (s : Store) (req : AttachRequest) : Prop :=
  ∀ shared version s₁, s.lookup (.sharedObject req.sharedObjectID) = some shared →
    (getObjectVersion req.bucketID req.key req.versionID).run s = .ok (version, s₁) →
    shared.segmentRefs.tail.flatMap content = version.allSegmentRefs.tail.flatMap content

/-- The records a read of a version looks at. -/
def readKey (k : Key) : Prop := segmentKey k ∨ locatorKey k

/-- A version is read back with the segments it was stored with. -/
theorem readVersion_stored {v : ObjectVersion} {r : Store}
    (stored : (setObjectVersion platform v).run r = .ok ((), s)) (named : v.versionID ≠ "")
    (sorted : v.versionSortKey = v.versionID) (kept : Agree readKey t s) :
    readVersion content t v.bucketID v.key v.versionID =
      some (v.allSegmentRefs.flatMap content) := by
  have versions : (objectIndex t).version = (objectIndex s).version := by
    funext b k sk
    exact congrArg (Option.map metadata) (kept (.objectVersion b k sk) (.inl trivial))
  have locators : (objectIndex t).locator = (objectIndex s).locator := by
    funext b id
    exact kept (.objectVersionByID b id) (.inr trivial)
  have located : Located (objectIndex t) v.bucketID v.key v.versionID := by
    refine ⟨named, ?_, metadata v, ?_, rfl, rfl, rfl⟩
    · rw [locators, setObjectVersion_index stored]
      simp [ObjectIndex.putVersion, ObjectIndex.setLocator, sorted]
    · rw [versions, setObjectVersion_index stored]
      simp [ObjectIndex.putVersion, ObjectIndex.setLocator, ObjectIndex.setVersion, sorted]
  obtain ⟨w, searched, present⟩ := locateVersion_located located
  have held : versionSegments t v.bucketID v.key v.versionID = some v.allSegmentRefs := by
    rw [versionSegments_of_agree fun k held => kept k (.inl held), ← sorted]
    exact setObjectVersion_segments stored
  rw [versionSegments, present] at held
  obtain ⟨full, hydrated, all⟩ := segmentsOf_eq_some.mp held
  have found : (getObjectVersion v.bucketID v.key v.versionID).run t = .ok (full, t) :=
    run_bind_ok.mpr ⟨_, t, run_bind_ok.mpr ⟨_, t, searched, run_bind_ok.mpr ⟨full, t,
      run_bind_ok.mpr ⟨t, t, rfl, run_ofOutcome_ok.mpr ⟨hydrated, rfl⟩⟩, rfl⟩⟩,
      run_bind_ok.mpr ⟨_, t, rfl, rfl⟩⟩
  rw [readVersion_found found, all]

theorem headKey_unread (k : Key) : readKey k → ¬ headKey k := by
  cases k <;> simp [readKey, segmentKey, locatorKey, headKey]

/-- The live version of a request carries the names of the request. -/
theorem identity_live (manifests : ManifestsLed s)
    (live : (requireLiveVersion b k id).run s = .ok (version, t)) :
    version.bucketID = b ∧ version.key = k ∧ version.versionID = id ∧ id ≠ "" := by
  obtain ⟨K, searched, -, -⟩ := requireLiveVersion_ok live
  obtain ⟨found, s₁, located, ran⟩ := of_bind searched
  rcases found with _ | ⟨K', stored⟩
  · cases ran
  obtain ⟨sk, rfl, present, sameID, named⟩ := locateVersion_found located
  obtain ⟨w, s₂, hydrated, ran⟩ := of_bind ran
  cases ran
  have same := (metadata_hydrated hydrated).2
  obtain ⟨sameBucket, sameKey, -⟩ := manifests.filed present
  exact ⟨(congrArg ObjectVersion.bucketID same).trans sameBucket,
    (congrArg ObjectVersion.key same).trans (GoString.text.inj sameKey),
    (congrArg ObjectVersion.versionID same).trans sameID, named⟩

/-- In every reachable store a successful attachment keeps the bytes read through the version
exactly when the segments after the first hold the same bytes on both sides. -/
theorem attach_keeps_content_iff {content : SegmentRef → Bytes}
    (identified : Identified platform content) (calls : List (CallContext × ObjectCall))
    {req : AttachRequest} {r : AttachResult}
    (outcome : (attachObjectVersionToSharedObject platform context req).run
      (runCalls platform calls ∅) = .ok (r, t)) :
    readVersion content t req.bucketID req.key req.versionID =
        readVersion content (runCalls platform calls ∅) req.bucketID req.key req.versionID ↔
      SameRemainder content (runCalls platform calls ∅) req := by
  have manifests : ManifestsLed (runCalls platform calls ∅) :=
    runCalls_manifestsLed calls manifestsLed_empty
  revert outcome manifests
  generalize runCalls platform calls ∅ = s
  intro outcome manifests
  obtain ⟨shared, version, s₁, s₂, shared', ref, sharedFound, live, -, matching, -, stored,
    headed⟩ := attachObjectVersionToSharedObject_ok outcome
  obtain ⟨K, searched, -⟩ := requireLiveVersion_ok live
  have read : (getObjectVersion _ _ _).run s = _ :=
    run_bind_ok.mpr ⟨_, _, searched, run_bind_ok.mpr ⟨_, _, rfl, rfl⟩⟩
  have leading := findVersionByID_leading searched manifests
  have led := manifests.shared sharedFound
  -- what the admission test knows: the first segments hold the same bytes
  unfold objectVersionMatchesSharedObject at matching
  cases found : objectVersionDigest version with
  | none => simp [found] at matching
  | some digest =>
  obtain ⟨first, rest, old, rfl, algorithm, hex⟩ := objectVersionDigest_leading leading found
  simp only [found, Bool.and_eq_true] at matching
  obtain ⟨-, sameAlgorithm, sameHex⟩ := matching
  cases new : shared.segmentRefs with
  | nil => simp [LeadingDigest, new] at led
  | cons first' rest' =>
  have digest : first'.digest = shared.digest := by simpa [LeadingDigest, new] using led
  rw [← digest] at sameAlgorithm sameHex
  have same := (identified first first' algorithm hex sameAlgorithm sameHex).symm
  obtain ⟨sameBucket, sameKey, sameID, named⟩ := identity_live manifests live
  -- After the version itself only the shared object, its reference and the head are written.
  have kept : Agree readKey t s₂ :=
    ((keeps_updateHeadOf _ _ _ _).mono headKey_unread _ _ _ headed).trans
      ((Agree.insert_outside (by simp [readKey, segmentKey, locatorKey]) _ _).trans
        (Agree.insert_outside (by simp [readKey, segmentKey, locatorKey]) _ _))
  have after : readVersion content t version.bucketID version.key version.versionID =
      some (content first ++ rest'.flatMap content) := by
    rw [readVersion_stored stored (by rwa [sameID]) leading.sorted kept, ← same]
    simp [ObjectVersion.allSegmentRefs, normalizeSegmentRefs, new]
  have before : readVersion content s req.bucketID req.key req.versionID =
      some (content first ++ rest.flatMap content) := by
    rw [readVersion_found read, old, List.flatMap_cons]
  rw [sameBucket, sameKey, sameID] at after
  rw [after, before, Option.some_inj, List.append_cancel_left_eq]
  constructor
  · intro equal other version' s₁' sharedFound' read'
    obtain rfl : shared = other := Option.some.inj (sharedFound.symm.trans sharedFound')
    obtain ⟨rfl, -⟩ := Prod.mk.inj (Except.ok.inj (read.symm.trans read'))
    rw [new, old]
    exact equal
  · intro remainder
    have equal := remainder shared version s₁ sharedFound read
    rw [new, old] at equal
    exact equal

/-- A segment whose checksum spells its bytes. -/
def spelled (segmentID content : String) : SegmentRef :=
  { segmentID := segmentID, digest := { algorithm := "sha256", hex := content } }

/-- The bytes a checksum spells. -/
def spelledContent (ref : SegmentRef) : Bytes := bytes ref.digest.hex

theorem spelledContent_identified : Identified plainPlatform spelledContent := by
  intro e f _ _ _ sameHex
  have same : e.digest.hex = f.digest.hex := by simpa [plainPlatform] using sameHex
  rw [spelledContent, spelledContent, same]

/-- Two versions of one key with the given segments, the first of them published as a shared
object. -/
def publishedCalls (first second : List SegmentRef) : List (CallContext × ObjectCall) :=
  [(numberedContext 1 1, .createBucket { tenantID := "t", name := "b", region := "r" }),
   (numberedContext 2 2, .putBucketVersioning "bkt_1" .enabled),
   (numberedContext 3 3, .putObjectVersion
     { bucketID := "bkt_1", key := "k", sizeBytes := 4, segmentRefs := first }),
   (numberedContext 4 4, .putObjectVersion
     { bucketID := "bkt_1", key := "k", sizeBytes := 4, segmentRefs := second }),
   (numberedContext 5 5, .publishSharedObject
     { bucketID := "bkt_1", key := "k", versionID := "ver_3" })]

/-- The attachment of the second version to it. -/
def attachSecond : AttachRequest :=
  { sharedObjectID := sharedObjectID plainPlatform "t" "bkt_1" "k"
      { algorithm := "sha256", hex := "aa" } 4
    bucketID := "bkt_1", key := "k", versionID := "ver_4" }

/-- The store before it. -/
def publishedStore (first second : List SegmentRef) : Store :=
  runCalls plainPlatform (publishedCalls first second) ∅

/-- The attachment in that store. -/
def attachedSecond (first second : List SegmentRef) : Except Error (AttachResult × Store) :=
  (attachObjectVersionToSharedObject plainPlatform (numberedContext 6 6) attachSecond).run
    (publishedStore first second)

/-- Two versions of equal size with equal first segments match, and the attachment replaces
the second segment by another one. -/
theorem attach_replaces_remainder :
    Identified plainPlatform spelledContent ∧
      readVersion spelledContent (publishedStore [spelled "s1" "aa", spelled "s2" "bb"]
        [spelled "s3" "aa", spelled "s4" "cc"]) "bkt_1" "k" "ver_4" = some (bytes "aacc") ∧
      (attachedSecond [spelled "s1" "aa", spelled "s2" "bb"]
        [spelled "s3" "aa", spelled "s4" "cc"]).toOption.map (fun outcome =>
          readVersion spelledContent outcome.2 "bkt_1" "k" "ver_4") =
        some (some (bytes "aabb")) :=
  ⟨spelledContent_identified, by decide +kernel, by decide +kernel⟩

def sharedSegments : List SegmentRef := [spelled "s1" "aa", spelled "s2" "bb"]

def equalSegments : List SegmentRef := [spelled "s3" "aa", spelled "s4" "bb"]

/-- Versions of two segments each, with equal bytes in the second ones. -/
theorem attach_equal_remainders :
    ∃ r t, attachedSecond sharedSegments equalSegments = .ok (r, t) ∧
      readVersion spelledContent t "bkt_1" "k" "ver_4" =
        readVersion spelledContent (publishedStore sharedSegments equalSegments)
          "bkt_1" "k" "ver_4" := by
  have attached : (attachedSecond sharedSegments equalSegments).toOption.isSome := by
    decide +kernel
  cases outcome : attachedSecond sharedSegments equalSegments with
  | error e => simp [outcome, Except.toOption] at attached
  | ok result =>
    refine ⟨result.1, result.2, rfl,
      (attach_keeps_content_iff spelledContent_identified _ outcome).mpr ?_⟩
    intro shared version s₁ sharedFound read
    have sharedTail : ((runCalls plainPlatform (publishedCalls sharedSegments equalSegments)
        ∅).lookup (.sharedObject attachSecond.sharedObjectID)).map
          (·.segmentRefs.tail.flatMap spelledContent) = some (bytes "bb") := by
      decide +kernel
    have versionTail : ((getObjectVersion attachSecond.bucketID attachSecond.key
        attachSecond.versionID).run (runCalls plainPlatform (publishedCalls sharedSegments
          equalSegments) ∅)).toOption.map (·.1.allSegmentRefs.tail.flatMap spelledContent) =
        some (bytes "bb") := by
      decide +kernel
    rw [sharedFound] at sharedTail
    rw [read] at versionTail
    exact (Option.some.inj sharedTail).trans (Option.some.inj versionTail).symm

end Namros.Guarantees
