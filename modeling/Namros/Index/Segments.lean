import Namros.Index.Operations

/-!
# Segments of stored versions

Which segments a stored version references, whether its record holds them or its manifest
chunks do. Storing a version stores exactly its references, and one version's manifest is
never touched through another's.
-/

namespace Namros.Index

open Library Source Transaction

variable {s t : Store} {platform : Platform}

/-- The references of a version record, read through its manifest. -/
def segmentsOf (s : Store) (v : ObjectVersion) : Option (List SegmentRef) :=
  (hydrateWith (chunksOf s v) v).toOption.map ObjectVersion.allSegmentRefs

/-- The references of the version stored under a key. -/
def versionSegments (s : Store) (b k sk : String) : Option (List SegmentRef) :=
  (s.lookup (.objectVersion b k sk)).bind (segmentsOf s)

variable {v : ObjectVersion}

theorem segmentsOf_congr (chunks : ∀ n, t.lookup (.objectManifestChunk v.bucketID v.versionID n) =
      s.lookup (.objectManifestChunk v.bucketID v.versionID n)) :
    segmentsOf t v = segmentsOf s v := by
  have same : chunksOf t v = chunksOf s v := funext chunks
  rw [segmentsOf, segmentsOf, same]

variable {b k : String}

theorem versionSegments_congr {sk : String}
    (version : t.lookup (.objectVersion b k sk) = s.lookup (.objectVersion b k sk))
    (chunks : ∀ v, s.lookup (.objectVersion b k sk) = some v → ∀ n,
      t.lookup (.objectManifestChunk v.bucketID v.versionID n) =
        s.lookup (.objectManifestChunk v.bucketID v.versionID n)) :
    versionSegments t b k sk = versionSegments s b k sk := by
  rw [versionSegments, versionSegments, version]
  cases stored : s.lookup (.objectVersion b k sk) with
  | none => rfl
  | some v => exact segmentsOf_congr (chunks v stored)

/-! ## Manifest chunks -/

/-- Chunks of one version with consecutive numbers. -/
def NumberedFrom (bucketID versionID : String) : Nat → List ObjectManifestChunk → Prop
  | _, [] => True
  | n, chunk :: rest =>
    (chunk.bucketID = bucketID ∧ chunk.versionID = versionID ∧ chunk.chunkNumber = n) ∧
      NumberedFrom bucketID versionID (n + 1) rest

variable {refs : List SegmentRef} {n : Nat}

theorem fitManifestChunk_ok {fuel size : Nat} {chunk : ObjectManifestChunk} (positive : 0 < size)
    (fitted : fitManifestChunk platform v refs n fuel size = .ok chunk) :
    (chunk.bucketID = v.bucketID ∧ chunk.versionID = v.versionID ∧ chunk.chunkNumber = n) ∧
      platform.manifestChunkBytes chunk ≤ maxObjectManifestValueBytes ∧
      ∃ m, 0 < m ∧ chunk.segmentRefs = refs.take m := by
  induction fuel generalizing size with
  | zero => cases fitted
  | succ fuel ih =>
    unfold fitManifestChunk at fitted
    dsimp only at fitted
    split at fitted
    · next fits =>
      cases fitted
      exact ⟨⟨rfl, rfl, rfl⟩, fits, size, positive, rfl⟩
    · obtain ⟨-, fitted⟩ := refuse_eq_ok.mp fitted
      exact ih (by omega) fitted

variable {chunks : List ObjectManifestChunk}

theorem buildManifestChunksFrom_ok {fuel : Nat} (enough : refs.length < fuel)
    (built : buildManifestChunksFrom platform v fuel refs n = .ok chunks) :
    NumberedFrom v.bucketID v.versionID n chunks ∧
      (∀ chunk ∈ chunks, platform.manifestChunkBytes chunk ≤ maxObjectManifestValueBytes) ∧
      chunks.flatMap ObjectManifestChunk.segmentRefs = refs := by
  induction fuel generalizing refs n chunks with
  | zero => exact absurd enough (Nat.not_lt_zero _)
  | succ fuel ih =>
    unfold buildManifestChunksFrom at built
    split at built
    · rename_i empty
      cases built
      exact ⟨trivial, by simp, empty.symm⟩
    rename_i nonempty
    have some : 0 < refs.length := List.length_pos_of_ne_nil nonempty
    dsimp only [bind, Except.bind] at built
    split at built
    · cases built
    rename_i chunk fitted
    split at built
    · cases built
    rename_i rest later
    cases built
    have positive : 0 < min objectManifestChunkRefTarget refs.length := by
      rw [lt_min_iff]
      exact ⟨by decide, some⟩
    obtain ⟨identity, fits, m, taken, segments⟩ := fitManifestChunk_ok positive fitted
    -- the chunk takes at least one reference, so the rest is shorter
    have length : chunk.segmentRefs.length = min m refs.length := by
      rw [segments, List.length_take]
    obtain ⟨numbered, small, all⟩ := ih (by rw [List.length_drop]; omega) later
    refine ⟨⟨identity, numbered⟩, List.forall_mem_cons.mpr ⟨fits, small⟩, ?_⟩
    rw [List.flatMap_cons, all, length, segments]
    rcases Nat.le_total m refs.length with short | long
    · rw [Nat.min_eq_left short, List.take_append_drop]
    · rw [Nat.min_eq_right long, List.take_of_length_le long, List.drop_length,
        List.append_nil]

variable {u : Unit}

/-- Stored chunks are read back in order; lower numbers are not touched. -/
theorem setManifestChunks_collect (numbered : NumberedFrom v.bucketID v.versionID n chunks)
    (ran : (setManifestChunks chunks).run s = .ok (u, t)) :
    (∀ m < n, t.lookup (.objectManifestChunk v.bucketID v.versionID m) =
        s.lookup (.objectManifestChunk v.bucketID v.versionID m)) ∧
      collectManifestChunks (chunksOf t v) v chunks.length n =
        .ok (chunks.flatMap ObjectManifestChunk.segmentRefs) := by
  induction chunks generalizing n s with
  | nil =>
    cases ran
    exact ⟨fun _ _ => rfl, rfl⟩
  | cons chunk chunks ih =>
    obtain ⟨⟨bucket, version, number⟩, numbered⟩ := numbered
    replace ran := past ran rfl
    obtain ⟨below, collected⟩ := ih numbered ran
    constructor
    · intro m small
      rw [below m (by omega), lookup_insert_ne]
      rw [number]
      simp only [ne_eq, Key.objectManifestChunk.injEq, not_and]
      omega
    · have here : chunksOf t v n = some chunk := by
        rw [chunksOf, below n (by omega), ← bucket, ← version, ← number, lookup_insert_self]
      have matching : ¬ (chunk.bucketID ≠ v.bucketID ∨ chunk.versionID ≠ v.versionID ∨
          chunk.chunkNumber ≠ n) := by
        rw [bucket, version, number]
        simp
      rw [List.length_cons, collectManifestChunks, here]
      dsimp only
      rw [if_neg matching, collected]
      rfl

theorem segmentsOf_chunked {count : Nat} (layout : v.manifest =
      { encoding := .chunked, refCount := refs.length, chunkCount := count }) (nonempty : refs ≠ [])
    (collected : collectManifestChunks (chunksOf s v) v count 1 = .ok refs) :
    segmentsOf s v = some refs := by
  have some : count ≠ 0 := by
    rintro rfl
    cases collected
    exact nonempty rfl
  have valid : ¬ ((count : Int) ≤ 0 ∨ (refs.length : Int) < 0) := by omega
  have encoded : ¬ ObjectManifestEncoding.chunked ≠ .chunked := fun different => different rfl
  rw [segmentsOf, hydrateWith, layout]
  dsimp only
  rw [if_neg encoded, if_neg valid, Int.toNat_natCast, collected]
  dsimp only [bind, Except.bind]
  rw [if_neg (fun different => different rfl), Except.toOption, Option.map_some,
    ObjectVersion.allSegmentRefs, normalizeSegmentRefs, if_pos nonempty]

/-! ## Writing versions -/

variable {id : String}

private theorem keeps_otherChunks_set {m : Nat}
    (numbered : NumberedFrom v.bucketID v.versionID m chunks)
    (ran : (setManifestChunks chunks).run s = .ok (u, t))
    (other : ¬ (b = v.bucketID ∧ id = v.versionID)) :
    t.lookup (.objectManifestChunk b id n) = s.lookup (.objectManifestChunk b id n) := by
  induction chunks generalizing m s with
  | nil =>
    cases ran
    rfl
  | cons chunk chunks ih =>
    obtain ⟨⟨bucket, version, -⟩, numbered⟩ := numbered
    replace ran := past ran rfl
    rw [ih numbered ran, lookup_insert_ne]
    rw [bucket, version]
    rintro same
    cases same
    exact other ⟨rfl, rfl⟩

/-- The plan of a version: inline, or in numbered chunks that hold its references. -/
theorem planObjectVersionManifestStorage_ok {plan : ManifestPlan}
    (planned : planObjectVersionManifestStorage platform v = .ok plan) :
    (platform.objectVersionBytes plan.storedVersion ≤ maxObjectManifestValueBytes ∧
      ∀ chunk ∈ plan.chunks, platform.manifestChunkBytes chunk ≤ maxObjectManifestValueBytes) ∧
    ((plan.storedVersion = { v with manifest := {} } ∧ plan.chunks = []) ∨
      (v.allSegmentRefs ≠ [] ∧ NumberedFrom v.bucketID v.versionID 1 plan.chunks ∧
        plan.chunks.flatMap ObjectManifestChunk.segmentRefs = v.allSegmentRefs ∧
        plan.storedVersion = { v with
          segmentRef := {}
          segmentRefs := []
          manifest := { encoding := .chunked, refCount := v.allSegmentRefs.length,
                        chunkCount := plan.chunks.length } })) := by
  unfold planObjectVersionManifestStorage at planned
  cases scale : validateObjectManifestScale v.allSegmentRefs with
  | error e =>
    rw [scale] at planned
    cases planned
  | ok u =>
    rw [scale] at planned
    dsimp only [bind, Except.bind] at planned
    split at planned
    · next fits =>
      cases planned
      exact ⟨⟨fits, by simp⟩, .inl ⟨rfl, rfl⟩⟩
    obtain ⟨nonempty, planned⟩ := refuse_eq_ok.mp planned
    cases built : buildObjectManifestChunks platform v v.allSegmentRefs with
    | error e =>
      rw [built] at planned
      cases planned
    | ok chunks =>
      rw [built] at planned
      dsimp only at planned
      obtain ⟨fits, planned⟩ := refuse_eq_ok.mp planned
      cases planned
      obtain ⟨numbered, small, all⟩ := buildManifestChunksFrom_ok (Nat.lt_succ_self _) built
      exact ⟨⟨Nat.not_lt.mp fits, small⟩, .inr ⟨nonempty, numbered, all, rfl⟩⟩

theorem setObjectVersion_chunks (ran : (setObjectVersion platform v).run s = .ok (u, t))
    (other : ¬ (b = v.bucketID ∧ id = v.versionID)) :
    t.lookup (.objectManifestChunk b id n) = s.lookup (.objectManifestChunk b id n) := by
  obtain ⟨plan, s₂, s₃, planned, cleared, chunked, rfl⟩ := setObjectVersion_ok ran
  have numbered : NumberedFrom v.bucketID v.versionID 1 plan.chunks := by
    rcases (planObjectVersionManifestStorage_ok planned).2 with ⟨-, none⟩ | ⟨-, numbered, -⟩
    · rw [none]
      trivial
    · exact numbered
  rw [lookup_insert_ne _ (by simp), lookup_insert_ne _ (by simp),
    keeps_otherChunks_set numbered chunked other]
  unfold onlyIf at cleared
  split at cleared
  · refine lookup_deleteObjectManifestChunks cleared fun m same => other ?_
    cases same
    exact ⟨rfl, rfl⟩
  · cases cleared
    rfl

theorem setObjectVersion_lookup {sk : String}
    (ran : (setObjectVersion platform v).run s = .ok (u, t))
    (elsewhere : ¬ (b = v.bucketID ∧ k = v.key ∧ sk = v.versionSortKey)) :
    t.lookup (.objectVersion b k sk) = s.lookup (.objectVersion b k sk) := by
  obtain ⟨plan, s₂, s₃, planned, cleared, chunked, rfl⟩ := setObjectVersion_ok ran
  have same := metadata_storedVersion planned
  have sameBucket := congrArg ObjectVersion.bucketID same
  have sameKey := congrArg ObjectVersion.key same
  have sameSortKey := congrArg ObjectVersion.versionSortKey same
  rw [lookup_insert_ne _ (by simp), lookup_insert_ne]
  · refine (keeps_setManifestChunks _ _ _ _ chunked _ ?_).trans
      ((Keeps.onlyIf fun _ => keeps_deleteObjectManifestChunks _ _) _ _ _ cleared _ ?_)
    · exact id
    · exact id
  · rintro found
    cases found
    exact elsewhere ⟨sameBucket, sameKey, sameSortKey⟩

/-- A stored version references what the written version references. -/
theorem setObjectVersion_segments (ran : (setObjectVersion platform v).run s = .ok (u, t)) :
    versionSegments t v.bucketID v.key v.versionSortKey = some v.allSegmentRefs := by
  obtain ⟨plan, s₂, s₃, planned, cleared, chunked, rfl⟩ := setObjectVersion_ok ran
  rcases (planObjectVersionManifestStorage_ok planned).2 with
    ⟨inline, -⟩ | ⟨nonempty, numbered, all, layout⟩
  · rw [inline, versionSegments, lookup_insert_ne _ (by simp), lookup_insert_self]
    rfl
  obtain ⟨-, collected⟩ :=
    setManifestChunks_collect (v := plan.storedVersion) (by rwa [layout]) chunked
  rw [all] at collected
  rw [layout, versionSegments, lookup_insert_ne _ (by simp), lookup_insert_self,
    Option.bind_some, segmentsOf_congr (s := s₃), ← layout]
  · exact segmentsOf_chunked (by rw [layout]) nonempty collected
  · intro n
    rw [lookup_insert_ne _ (by simp), lookup_insert_ne _ (by simp)]

/-- Storing a version changes no other version's references. -/
theorem setObjectVersion_versionSegments (indexed : VersionsIndexed (objectIndex s))
    (ran : (setObjectVersion platform v).run s = .ok (u, t))
    (storable : Storable (objectIndex s) v) (b k sk : String) :
    versionSegments t b k sk =
      if b = v.bucketID ∧ k = v.key ∧ sk = v.versionSortKey then some v.allSegmentRefs
      else versionSegments s b k sk := by
  split
  · rename_i here
    obtain ⟨rfl, rfl, rfl⟩ := here
    exact setObjectVersion_segments ran
  rename_i elsewhere
  refine versionSegments_congr (setObjectVersion_lookup ran elsewhere) fun w stored n => ?_
  refine setObjectVersion_chunks ran ?_
  rintro ⟨sameBucket, sameID⟩
  -- a stored version with the id of `v` is `v`'s own
  have present : (objectIndex s).version b k sk = some (metadata w) :=
    congrArg (Option.map metadata) stored
  obtain ⟨atBucket, -, atID, -⟩ := indexed.identified present
  have atBucket : w.bucketID = b := atBucket
  have atID : w.versionID = sk := atID
  rw [atBucket] at sameBucket
  rw [atID] at sameID
  have located := indexed.located present
  rw [sameBucket, sameID] at located
  exact elsewhere ⟨sameBucket, storable.unclaimed located, sameID.trans storable.sortKey.symm⟩

/-- `deleteObjectVersionRecord` erases the record, its locator and its manifest. -/
theorem deleteObjectVersionRecord_lookup {K J : Key}
    (ran : (deleteObjectVersionRecord K v).run s = .ok (u, t)) (record : J ≠ K)
    (locator : ¬ locatorKey J) (chunk : ∀ n, J ≠ .objectManifestChunk v.bucketID v.versionID n) :
    t.lookup J = s.lookup J := by
  obtain ⟨_, s₁, cleared, ran⟩ := of_bind ran
  cases ran
  rw [lookup_erase_ne record]
  unfold onlyIf at cleared
  split at cleared
  · replace cleared := past cleared rfl
    rw [lookup_deleteObjectManifestChunks cleared chunk, lookup_erase_ne]
    rintro rfl
    exact locator trivial
  · cases cleared
    rfl

/-- Removing a stored version changes no other version's references. -/
theorem deleteObjectVersionRecord_versionSegments (indexed : VersionsIndexed (objectIndex s))
    (ran : (deleteObjectVersionRecord (.objectVersion b k id) v).run s = .ok (u, t))
    (stored : (objectIndex s).version b k id = some (metadata v)) (b' k' sk : String) :
    versionSegments t b' k' sk =
      if b' = b ∧ k' = k ∧ sk = id then none else versionSegments s b' k' sk := by
  split
  · rename_i here
    obtain ⟨rfl, rfl, rfl⟩ := here
    obtain ⟨_, s₁, -, ran⟩ := of_bind ran
    cases ran
    rw [versionSegments, lookup_erase_self]
    rfl
  · rename_i elsewhere
    have other : Key.objectVersion b' k' sk ≠ .objectVersion b k id := by
      simpa using elsewhere
    refine versionSegments_congr
      (deleteObjectVersionRecord_lookup ran other (fun no => no) (by simp)) fun w found n => ?_
    refine deleteObjectVersionRecord_lookup ran (by simp) (fun no => no) fun m same => elsewhere ?_
    -- the manifest belongs to the version with this id, which only one key stores
    have present : (objectIndex s).version b' k' sk = some (metadata w) :=
      congrArg (Option.map metadata) found
    obtain ⟨atBucket, -, atID, -⟩ := indexed.identified present
    obtain ⟨ofBucket, -, ofID, -⟩ := indexed.identified stored
    have atBucket : w.bucketID = b' := atBucket
    have atID : w.versionID = sk := atID
    have ofBucket : v.bucketID = b := ofBucket
    have ofID : v.versionID = id := ofID
    simp only [Key.objectManifestChunk.injEq] at same
    obtain ⟨sameBucket, sameID, -⟩ := same
    rw [atBucket, ofBucket] at sameBucket
    rw [atID, ofID] at sameID
    subst sameBucket sameID
    exact ⟨rfl, indexed.key_unique stored present, rfl⟩

/-! ## Reading versions -/

/-- A found version carries its references. -/
theorem findVersionByID_segments (indexed : VersionsIndexed (objectIndex s)) {K : Key}
    (ran : (findVersionByID b k id).run s = .ok (some (K, v), t)) :
    versionSegments s b k id = some v.allSegmentRefs := by
  obtain ⟨found, s₁, search, ran⟩ := of_bind ran
  obtain ⟨rfl, located⟩ := locateVersion_indexed indexed search
  rcases found with _ | ⟨K, stored⟩
  · cases ran
  obtain ⟨w, s₂, hydrated, ran⟩ := of_bind ran
  cases ran
  obtain ⟨rfl, manifest⟩ := hydrateObjectVersionManifest_ok hydrated
  obtain ⟨rfl, -⟩ := located _ _ rfl
  obtain ⟨sk, here, present, -⟩ := locateVersion_found search
  cases here
  rw [versionSegments, present, Option.bind_some, segmentsOf, manifest]
  rfl

/-- The records the references of versions are read from. -/
def segmentKey : Key → Prop
  | .objectVersion _ _ _ | .objectManifestChunk _ _ _ => True
  | _ => False

theorem versionSegments_of_agree (agree : Agree segmentKey t s) :
    versionSegments t = versionSegments s := by
  funext b k sk
  exact versionSegments_congr (agree _ trivial) fun v _ n => agree _ trivial

theorem protectedRefKey_apart (k : Key) : segmentKey k → ¬ protectedRefKey k := by
  cases k <;> simp [segmentKey, protectedRefKey]

theorem headKey_apart (k : Key) : segmentKey k → ¬ headKey k := by
  cases k <;> simp [segmentKey, headKey]

/-! ## References -/

variable {U V : Set String} {context : CallContext}

/-- A version id references a segment. -/
def References (s : Store) (b versionID segmentID : String) : Prop :=
  ∃ k refs, versionSegments s b k versionID = some refs ∧
    segmentID ∈ refs.map SegmentRef.segmentID

/-- Some committed version references a segment. -/
def CommittedReference (s : Store) (segmentID : String) : Prop :=
  ∃ b k sk v refs, (objectIndex s).version b k sk = some v ∧ v.state = .committed ∧
    versionSegments s b k sk = some refs ∧ segmentID ∈ refs.map SegmentRef.segmentID

theorem references_congr (segments : versionSegments t = versionSegments s) :
    References t = References s := by
  funext b versionID segmentID
  simp only [References, segments]

theorem committedReference_congr (index : objectIndex t = objectIndex s)
    (segments : versionSegments t = versionSegments s) :
    CommittedReference t = CommittedReference s := by
  funext segmentID
  simp only [CommittedReference, index, segments]

/-- What is left of a store's versions after some were removed. -/
def Remains (s t : Store) : Prop :=
  ∀ b k sk, (objectIndex t).version b k sk = none ∧ versionSegments t b k sk = none ∨
    (objectIndex t).version b k sk = (objectIndex s).version b k sk ∧
      versionSegments t b k sk = versionSegments s b k sk

theorem Remains.of_agree (agree : Agree segmentKey t s) : Remains s t := by
  intro b k sk
  refine .inr ⟨?_, congrFun (congrFun (congrFun (versionSegments_of_agree agree) b) k) sk⟩
  exact congrArg (Option.map metadata) (agree (.objectVersion b k sk) trivial)

theorem Remains.trans {r : Store} (first : Remains r s) (second : Remains s t) : Remains r t := by
  intro b k sk
  rcases second b k sk with gone | ⟨sameVersion, same⟩
  · exact .inl gone
  · rw [sameVersion, same]
    exact first b k sk

variable {x : String}

theorem Remains.references (remains : Remains s t) (references : References t b id x) :
    References s b id x := by
  obtain ⟨k, refs, stored, member⟩ := references
  rcases remains b k id with ⟨-, gone⟩ | ⟨-, same⟩
  · rw [gone] at stored
    cases stored
  · exact ⟨k, refs, same ▸ stored, member⟩

theorem Remains.committedReference (remains : Remains s t) (references : CommittedReference t x) :
    CommittedReference s x := by
  obtain ⟨b, k, sk, v, refs, present, committed, stored, member⟩ := references
  rcases remains b k sk with ⟨gone, -⟩ | ⟨sameVersion, same⟩
  · rw [gone] at present
    cases present
  · exact ⟨b, k, sk, v, refs, sameVersion ▸ present, committed, same ▸ stored, member⟩

theorem deleteObjectVersionRecord_remains (indexed : VersionsIndexed (objectIndex s))
    (ran : (deleteObjectVersionRecord (.objectVersion b k id) v).run s = .ok (u, t))
    (stored : (objectIndex s).version b k id = some (metadata v)) : Remains s t := by
  intro b' k' sk
  rw [deleteObjectVersionRecord_versionSegments indexed ran stored,
    deleteObjectVersionRecord_index ran]
  simp only [ObjectIndex.setVersion]
  split
  · exact .inl ⟨rfl, rfl⟩
  · refine .inr ⟨?_, rfl⟩
    split <;> rfl

theorem removeReplacedVersion_remains {bucket : Bucket} {currentVersionID versionID : String}
    (indexed : VersionsIndexed (objectIndex s))
    (ran : (removeReplacedVersion bucket b k currentVersionID versionID).run s = .ok (u, t)) :
    Remains s t := by
  rcases removeReplacedVersion_found indexed ran with rfl | ⟨v, s₁, -, stored, released, removed⟩
  · exact .of_agree (.refl s)
  · rw [← deleteProtectedRefsForVersion_index released] at indexed stored
    exact (Remains.of_agree ((keeps_deleteProtectedRefsForVersion _ _ _ _ _ _ released).mono
      protectedRefKey_apart)).trans (deleteObjectVersionRecord_remains indexed removed stored)

/-- The version ids a version can be stored under leave the other versions alone. -/
theorem setObjectVersion_references (indexed : VersionsIndexed (objectIndex s))
    (ran : (setObjectVersion platform v).run s = .ok (u, t))
    (storable : Storable (objectIndex s) v) (references : References t b id x) :
    References s b id x ∨ (b = v.bucketID ∧ id = v.versionID ∧
      x ∈ v.allSegmentRefs.map SegmentRef.segmentID) := by
  obtain ⟨k, refs, stored, member⟩ := references
  rw [setObjectVersion_versionSegments indexed ran storable] at stored
  split at stored
  · rename_i here
    cases stored
    exact .inr ⟨here.1, here.2.2.trans storable.sortKey, member⟩
  · exact .inl ⟨k, refs, stored, member⟩

theorem setObjectVersion_committedReference (indexed : VersionsIndexed (objectIndex s))
    (ran : (setObjectVersion platform v).run s = .ok (u, t))
    (storable : Storable (objectIndex s) v) (references : CommittedReference t x) :
    CommittedReference s x ∨
      (v.state = .committed ∧ x ∈ v.allSegmentRefs.map SegmentRef.segmentID) := by
  obtain ⟨b, k, sk, w, refs, present, committed, stored, member⟩ := references
  rw [setObjectVersion_versionSegments indexed ran storable] at stored
  rw [setObjectVersion_index ran, ObjectIndex.putVersion_version] at present
  split at stored
  · rename_i here
    rw [if_pos here] at present
    cases stored
    cases present
    exact .inr ⟨committed, member⟩
  · rename_i elsewhere
    rw [if_neg elsewhere] at present
    exact .inl ⟨b, k, sk, w, refs, present, committed, stored, member⟩

/-! ## Operations -/

/-- A commit adds no reference; what becomes committed was referenced by the version. -/
theorem commitObjectVersion_references {req : CommitObjectVersionRequest} {head : ObjectHead}
    (h : Consistent U (objectIndex s))
    (ran : (commitObjectVersion platform context req).run s = .ok (head, t)) :
    (∀ {b id x}, References t b id x → References s b id x) ∧
      ∀ {x}, CommittedReference t x → CommittedReference s x ∨
        References s req.bucketID req.versionID x := by
  obtain ⟨bucket, current, s₁, K, version, bucketNamed, -, -, -, searched, rest⟩ :=
    commitObjectVersion_ok ran
  obtain ⟨rfl, rfl, stored, sameBucket, sameKey, sameID, sortKey⟩ :=
    findVersionByID_some h.versions searched
  have segments := findVersionByID_segments h.versions searched
  rcases rest with ⟨-, hydrated⟩ | ⟨-, installed⟩
  · rw [← hydrateHeadOrEmpty_indexed h.versions hydrated]
    exact ⟨fun references => references, fun references => .inl references⟩
  obtain ⟨s₂, s₃, revision, put, agree, index, removed⟩ := installVersion_index installed
  have storable : Storable (objectIndex s) _ := h.storable_of_stored stored
    (v := { version with state := .committed, committedAt := context.now 0 })
    ⟨sameBucket, sameKey, sameID, sortKey⟩
  have indexed : VersionsIndexed (objectIndex s₃) := by
    rw [index]
    exact (h.versions.putVersion storable).congr rfl rfl
  have remains : Remains s₂ t := (Remains.of_agree (agree.mono fun k segment =>
    ⟨headKey_apart k segment, protectedRefKey_apart k segment⟩)).trans
      (removeReplacedVersion_remains indexed removed)
  constructor
  · intro b id x references
    rcases setObjectVersion_references h.versions put storable (remains.references references)
      with old | ⟨atBucket, atID, member⟩
    · exact old
    · obtain rfl : b = req.bucketID := atBucket.trans sameBucket
      obtain rfl : id = req.versionID := atID.trans sameID
      exact ⟨req.key, _, segments, member⟩
  · intro x references
    rcases setObjectVersion_committedReference h.versions put storable
      (remains.committedReference references) with old | ⟨-, member⟩
    · exact .inl old
    · exact .inr ⟨req.key, _, segments, member⟩

end Namros.Index
