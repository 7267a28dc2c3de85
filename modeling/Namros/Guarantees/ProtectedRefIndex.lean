import Namros.Index.Manifests
import Namros.Index.ProtectedRefs

/-!
# Protected references over whole runs

The admission of segment deletes trusts the protected references. From the empty store, under
a clock that does not run backwards, the two tables list the same references, every segment of
a version under object lock has an active one, and every active one belongs to such a version.

The id of a reference is a hash of bucket, key, version and segment. The texts a run hashes are
finitely many, and no two of them may have the same hash. The clock matters because a retention
that has expired takes its references with it at the next update of the lock: a clock that goes
back behind the end of the retention finds the version locked again and without references.
-/

namespace Namros.Guarantees

open Library Source Index Transaction

/-- The protected references of a store at a time. -/
structure ProtectedRefsAgree (s : Store) (now : Time) : Prop where
  /-- A reference listed under a version is filed under its segment. -/
  listed : ∀ b k id refID ref, s.lookup (.protectedRefByVersion b k id refID) = some ref →
    ref.bucketID = b ∧ ref.key = k ∧ ref.versionID = id ∧ ref.refID = refID ∧
      s.lookup (.protectedRefBySegment ref.segmentID refID) = some ref
  /-- A reference filed under a segment is listed under its version. -/
  filed : ∀ segmentID refID ref, s.lookup (.protectedRefBySegment segmentID refID) = some ref →
    ref.segmentID = segmentID ∧ ref.refID = refID ∧
      s.lookup (.protectedRefByVersion ref.bucketID ref.key ref.versionID refID) = some ref
  /-- Every version can be read with its segments, and when it is committed and under object
  lock each segment with an id has an active reference. -/
  covered : ∀ b k id v, s.lookup (.objectVersion b k id) = some v →
    ∃ full, hydrateWith (chunksOf s v) v = .ok full ∧
      (v.state = .committed → v.protectedByObjectLock now false = true →
        ∀ segmentRef ∈ full.allSegmentRefs, segmentRef.segmentID ≠ "" →
        ∃ refID ref, s.lookup (.protectedRefByVersion b k id refID) = some ref ∧
          ref.segmentID = segmentRef.segmentID ∧ protectedRefActive ref now = true)
  /-- An active reference belongs to a committed version under object lock that has the
  segment. -/
  backed : ∀ b k id refID ref, s.lookup (.protectedRefByVersion b k id refID) = some ref →
    protectedRefActive ref now = true →
    ∃ v full, s.lookup (.objectVersion b k id) = some v ∧ v.state = .committed ∧
      v.protectedByObjectLock now false = true ∧ hydrateWith (chunksOf s v) v = .ok full ∧
      ∃ segmentRef ∈ full.allSegmentRefs, segmentRef.segmentID = ref.segmentID

variable {platform : Platform}

/-! ## Whole runs -/

/-- The clock does not run backwards over the calls and up to `now`. -/
def Chronological (calls : List (CallContext × ObjectCall)) (now : Time) : Prop :=
  (calls.map (fun call => call.1.now 0) ++ [now]).Pairwise (· ≤ ·)
deriving Decidable

/-- Version ids contain no zero byte. -/
def PlainIDs (calls : List (CallContext × ObjectCall)) : Prop :=
  ∀ call ∈ calls, ∀ id ∈ issuedVersionIDs call.1, (0 : UInt8) ∉ bytes id
deriving Decidable

/-- The texts of a record's segments, when it is a version with a lock. -/
def versionTexts (s : Store) : (k : Key) → k.Value → List Bytes
  | .objectVersion b (.text k) id, v =>
    if HasLock v then
      (((segmentsOf s v).getD []).filter (·.segmentID ≠ "")).map fun segmentRef =>
        refText b k id segmentRef.segmentID
    else []
  | _, _ => []

/-- The texts of the segments of locked versions. -/
def lockedTexts (s : Store) : List Bytes :=
  s.entries.flatMap fun record => versionTexts s record.1 record.2

theorem refTexts_subset_lockedTexts (s : Store) :
    refTexts (holdings s) ⊆ {text | text ∈ lockedTexts s} := by
  rintro _ ⟨b, k, id, held, segments, found, locked, readable, segmentRef, member, named, rfl⟩
  obtain ⟨v, stored, rfl⟩ := held_iff.mp found
  have readable : segmentsOf s v = some segments := readable
  have locked : HasLock v := locked
  refine List.mem_flatMap.mpr ⟨⟨.objectVersion b k id, v⟩, AList.mem_lookup_iff.mp stored, ?_⟩
  simp only [versionTexts, if_pos locked, readable, Option.getD_some, List.mem_map,
    List.mem_filter]
  exact ⟨segmentRef, ⟨member, by simpa using named⟩, rfl⟩

/-- The texts of the segments of locked versions after each of the calls. -/
def hashedTexts (platform : Platform) (calls : List (CallContext × ObjectCall)) : List Bytes :=
  (List.range (calls.length + 1)).flatMap fun n => lockedTexts (runCalls platform (calls.take n) ∅)

/-- No two texts hashed in the run have the same hash. -/
def NoCollision (platform : Platform) (calls : List (CallContext × ObjectCall)) : Prop :=
  ∀ x ∈ hashedTexts platform calls, ∀ y ∈ hashedTexts platform calls,
    platform.sha256Hex x = platform.sha256Hex y → x = y
deriving Decidable

theorem refTexts_subset_hashedTexts (calls : List (CallContext × ObjectCall)) (n : Nat) :
    refTexts (holdings (runCalls platform (calls.take n) ∅)) ⊆
      {text | text ∈ hashedTexts platform calls} := by
  intro text member
  have capped : calls.take n = calls.take (min n calls.length) := by
    rw [← List.take_take, List.take_length]
  rw [capped] at member
  refine List.mem_flatMap.mpr ⟨min n calls.length, List.mem_range.mpr (by omega), ?_⟩
  exact refTexts_subset_lockedTexts _ member

/-- The references are sound after a run, at every time from its end on. -/
theorem runCalls_refsSound {X : Set Bytes} (hash : Set.InjOn platform.sha256Hex X)
    {calls : List (CallContext × ObjectCall)} {U : Set String} {s : Store} {start now : Time}
    (h : Consistent U (objectIndex s)) (sound : RefsSound platform U X start (holdings s))
    (hashed : ∀ n, refTexts (holdings (runCalls platform (calls.take n) s)) ⊆ X)
    (clean : ∀ id ∈ U, (0 : UInt8) ∉ bytes id) (fresh : NeverRepeats calls)
    (unissued : ∀ call ∈ calls, ∀ id ∈ issuedVersionIDs call.1, id ∉ U)
    (plain : PlainIDs calls) (chronological : Chronological calls now)
    (started : ∀ time ∈ calls.map (fun call => call.1.now 0) ++ [now], start ≤ time) :
    ∃ V, RefsSound platform V X now (holdings (runCalls platform calls s)) := by
  induction calls generalizing U s start with
  | nil => exact ⟨U, sound.mono subset_rfl (started now (by simp))⟩
  | cons call calls ih =>
    obtain ⟨distinct, named⟩ := fresh
    rw [List.flatMap_cons, List.nodup_append] at distinct
    obtain ⟨-, distinct, apart⟩ := distinct
    have issues : IssuesFresh call.1 U (U ∪ {id | id ∈ issuedVersionIDs call.1}) :=
      issuesFresh_of_issued (named call List.mem_cons_self) (unissued call List.mem_cons_self)
    have clean' : ∀ id ∈ U ∪ {id | id ∈ issuedVersionIDs call.1}, (0 : UInt8) ∉ bytes id := by
      rintro id (old | new)
      · exact clean id old
      · exact plain call List.mem_cons_self id new
    obtain ⟨following, chronological⟩ := List.pairwise_cons.mp chronological
    have consistent : Consistent (U ∪ {id | id ∈ issuedVersionIDs call.1})
        (objectIndex ((objectCallBody platform call.1 call.2).settle s)) :=
      settle_induction (P := fun s => Consistent _ (objectIndex s)) (h.mono issues.grows)
        fun _ _ ran => (objectCallBody_advances h issues ran).consistent
    have sound' : RefsSound platform (U ∪ {id | id ∈ issuedVersionIDs call.1}) X (call.1.now 0)
        (holdings ((objectCallBody platform call.1 call.2).settle s)) := by
      have current := sound.mono issues.grows (started (call.1.now 0) (by simp))
      -- the texts a call hashes are those of versions it leaves stored
      refine settle_induction (P := fun s => refTexts (holdings s) ⊆ X →
        RefsSound _ _ X _ (holdings s)) (fun _ => current) (fun _ t ran included => ?_) (hashed 1)
      exact current.moves hash clean'
        ((objectCallBody_advances h issues ran).moves.mono subset_rfl included)
    refine ih consistent sound' (fun n => hashed (n + 1)) clean'
      ⟨distinct, fun other member => named other (List.mem_cons_of_mem _ member)⟩ ?_
      (fun other member => plain other (List.mem_cons_of_mem _ member)) chronological following
    rintro other member id issued (old | new)
    · exact unissued other (List.mem_cons_of_mem _ member) id issued old
    · exact apart id new id (List.mem_flatMap.mpr ⟨other, member, issued⟩) rfl

theorem protectedRefsAgree_of_sound {ids : Set String} {X : Set Bytes} {s : Store} {now : Time}
    (sound : RefsSound platform ids X now (holdings s)) (textual : Textual s) :
    ProtectedRefsAgree s now where
  listed b path id refID ref found := by
    cases path with
    | stray raw invalid =>
      have absent := textual (.protectedRefByVersion b (.stray raw invalid) id refID) trivial
      exact nomatch absent.symm.trans found
    | text k =>
      obtain ⟨⟨bucket, key, version, refID'⟩, -, segment⟩ := sound.filed.listed found
      exact ⟨bucket, congrArg GoString.text key, version, refID', segment⟩
  filed segmentID refID ref found := by
    obtain ⟨segment, listed⟩ := sound.filed.filed found
    exact ⟨segment, (sound.filed.listed listed).1.2.2.2, listed⟩
  covered b path id v stored := by
    cases path with
    | stray raw invalid =>
      exact nomatch (textual (.objectVersion b (.stray raw invalid) id) trivial).symm.trans stored
    | text k =>
    have held := held_iff.mpr ⟨v, stored, rfl⟩
    obtain ⟨segments, readable⟩ := Option.ne_none_iff_exists'.mp
      ((sound.each b k id).readable held)
    obtain ⟨full, hydrated, rfl⟩ := segmentsOf_eq_some.mp readable
    refine ⟨full, hydrated, fun committed locked segmentRef member named => ?_⟩
    obtain ⟨refID, ref, found, segment, active⟩ := (sound.each b k id).covered held committed
      locked readable member named
    exact ⟨refID, ref, found, segment, (active now).trans locked⟩
  backed b path id refID ref found active := by
    cases path with
    | stray raw invalid =>
      have absent := textual (.protectedRefByVersion b (.stray raw invalid) id refID) trivial
      exact nomatch absent.symm.trans found
    | text k =>
    obtain ⟨held, segments, stored, committed, locked, readable, covered⟩ :=
      (sound.each b k id).backed found le_rfl active
    obtain ⟨v, found, rfl⟩ := held_iff.mp stored
    obtain ⟨full, hydrated, rfl⟩ := segmentsOf_eq_some.mp readable
    exact ⟨v, full, found, committed, locked, hydrated, covered⟩

/-- A platform whose hash is a checksum of 16 bits. -/
def checksumPlatform : Platform :=
  { plainPlatform with
    sha256Hex := fun text =>
      toString (text.foldl (fun sum c => (31 * sum + c.toNat) % 65521) 7) }

/-- A write of two segments under compliance retention, a longer retention and a legal hold. -/
def lockedCalls : List (CallContext × ObjectCall) :=
  [(numberedContext 1 1, .createBucket { tenantID := "t", name := "b", region := "r" }),
   (numberedContext 2 2, .putObjectVersion
      { bucketID := "bkt_1", key := "k",
        segmentRefs := [{ segmentID := "seg-1" }, { segmentID := "seg-2" }],
        objectLockRetention := { mode := .compliance, retainUntilDate := 10 } }),
   (numberedContext 3 3, .putObjectRetention
      { bucketID := "bkt_1", key := "k", versionID := "ver_2",
        retention := { mode := .compliance, retainUntilDate := 20 } }),
   (numberedContext 4 4, .putObjectLegalHold
      { bucketID := "bkt_1", key := "k", versionID := "ver_2", legalHold := .on })]

/-- A write under retention until 10, and an update of the legal hold when it has expired. -/
def expiredCalls : List (CallContext × ObjectCall) :=
  [(numberedContext 1 1, .createBucket { tenantID := "t", name := "b", region := "r" }),
   (numberedContext 2 2, .putObjectVersion
      { bucketID := "bkt_1", key := "k", segmentRef := { segmentID := "seg-1" },
        objectLockRetention := { mode := .compliance, retainUntilDate := 10 } }),
   (numberedContext 3 20, .putObjectLegalHold
      { bucketID := "bkt_1", key := "k", versionID := "ver_2", legalHold := .off })]

end Namros.Guarantees
