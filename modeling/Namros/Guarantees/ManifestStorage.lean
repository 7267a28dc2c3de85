import Namros.Index.Segments

/-!
# Storing a version's manifest

`setObjectVersion` stores a version in one value or with numbered chunks, whatever form it had
before. Every value is within the budget and the references are read back in order. Of the
chunks of the form before none is left, unless the version has no bucket or no id:
`deleteObjectManifestChunks` deletes nothing then, and those the new chunks do not overwrite stay.
-/

namespace Namros.Guarantees

open Library Source Index Transaction OrderedStore

variable {s t : Store} {platform : Platform}

/-! ## Chunk records -/

theorem distinct_chunks (b id : String) (s : Store) :
    Distinct keyCode (fun x => (manifestChunkPrefix b id).isPrefixOf x) s := by
  refine distinct_of_family (fun K => (manifestChunkPrefix_isPrefix_iff b id K).mp)
    (fun m n same => ?_) s
  simp only [Key.path, List.cons.injEq, true_and, and_true] at same
  have padded (n : Nat) : leftPadInt n 6 ≠ [] := by
    intro empty
    obtain ⟨zeros, digits⟩ := List.append_eq_nil_iff.mp empty
    simp [digits] at zeros
  by_cases first : m = 0 <;> by_cases second : n = 0
  · rw [first, second]
  · rw [if_pos first, if_neg second] at same
    exact absurd same.symm (padded n)
  · rw [if_neg first, if_pos second] at same
    exact absurd same (padded m)
  · rw [if_neg first, if_neg second, leftPadInt_inj] at same
    rw [same]

/-- Which chunks `deleteObjectManifestChunks` leaves. -/
theorem deleteObjectManifestChunks_leaves {b id : String} {u : Unit}
    (ran : (deleteObjectManifestChunks b id).run s = .ok (u, t)) (n : Nat) :
    t.lookup (.objectManifestChunk b id n) =
      if b = "" ∨ id = "" then s.lookup (.objectManifestChunk b id n) else none := by
  change (if _ then _ else _) = _ at ran
  by_cases unnamed : b = "" ∨ id = ""
  · rw [if_pos unnamed] at ran ⊢
    cases ran
    rfl
  · rw [if_neg unnamed] at ran ⊢
    cases ran
    rw [(visitsOnly_erase keyCode _).visitAll_eq (by decide) (distinct_chunks b id s)]
    change (eraseAll _ s).lookup _ = none
    rw [lookup_eraseAll]
    split
    · rfl
    · next absent =>
      apply AList.lookup_eq_none.mpr
      intro stored
      have selected := (manifestChunkPrefix_isPrefix_iff b id _).mpr ⟨n, rfl⟩
      exact absent (mem_keysWhere.mpr ⟨stored, List.isPrefixOf_iff_prefix.mpr selected⟩)

/-- Numbered chunks are stored under their numbers. -/
theorem setManifestChunks_lookup {v : ObjectVersion} {first : Nat}
    {chunks : List ObjectManifestChunk} {u : Unit}
    (numbered : NumberedFrom v.bucketID v.versionID first chunks)
    (ran : (setManifestChunks chunks).run s = .ok (u, t)) (i : Nat) :
    t.lookup (.objectManifestChunk v.bucketID v.versionID (first + i)) =
      chunks[i]?.or (s.lookup (.objectManifestChunk v.bucketID v.versionID (first + i))) := by
  induction chunks generalizing first i s with
  | nil =>
    cases ran
    simp
  | cons chunk chunks ih =>
    obtain ⟨⟨bucket, version, number⟩, numbered⟩ := numbered
    replace ran := past ran rfl
    cases i with
    | zero =>
      have kept := (setManifestChunks_collect numbered ran).1 first (by omega)
      rw [Nat.add_zero, kept, ← bucket, ← version, ← number, lookup_insert_self]
      simp
    | succ i =>
      have later := ih numbered ran i
      rw [Nat.add_assoc, Nat.add_comm 1 i] at later
      rw [later, List.getElem?_cons_succ, lookup_insert_ne]
      rw [number]
      simp

/-! ## The stored form -/

/-- The passed version carries the descriptor of a form that has chunks. -/
def CarriesDescriptor (s : Store) (v : ObjectVersion) : Prop :=
  v.manifest.encoding = .chunked ∨
    ∀ n, s.lookup (.objectManifestChunk v.bucketID v.versionID n) = none

/-- A version is stored as this record and these chunks: within the budget, with these
references, and with no other chunk under its id. Under an incomplete id, chunks stored before
stay where there is no new one. -/
structure StoredAs (platform : Platform) (s t : Store) (v stored : ObjectVersion)
    (chunks : List ObjectManifestChunk) (refs : List SegmentRef) : Prop where
  record : t.lookup (.objectVersion v.bucketID v.key v.versionSortKey) = some stored
  recordFits : platform.objectVersionBytes stored ≤ maxObjectManifestValueBytes
  chunksFit : ∀ chunk ∈ chunks, platform.manifestChunkBytes chunk ≤ maxObjectManifestValueBytes
  described : stored.manifest.chunkCount = chunks.length
  only : ∀ n, t.lookup (.objectManifestChunk v.bucketID v.versionID n) =
    (if n = 0 then none else chunks[n - 1]?).or
      (if v.bucketID = "" ∨ v.versionID = "" then
        s.lookup (.objectManifestChunk v.bucketID v.versionID n) else none)
  readBack : ∃ w, (hydrateObjectVersionManifest stored).run t = .ok (w, t) ∧ w.allSegmentRefs = refs

theorem hydrate_of_segmentsOf {v : ObjectVersion} {refs : List SegmentRef}
    (segments : segmentsOf s v = some refs) :
    ∃ w, (hydrateObjectVersionManifest v).run s = .ok (w, s) ∧ w.allSegmentRefs = refs := by
  obtain ⟨w, hydrated, all⟩ := Option.map_eq_some_iff.mp segments
  cases read : hydrateWith (chunksOf s v) v with
  | error e =>
    rw [read] at hydrated
    cases hydrated
  | ok full =>
    rw [read] at hydrated
    cases hydrated
    refine ⟨w, ?_, all⟩
    change (ofOutcome (hydrateWith (chunksOf s v) v)).run s = _
    rw [read]
    rfl

/-- Whatever form a version had, it is stored in one form, and of the form before nothing is
left, or what an incomplete id keeps. -/
theorem setObjectVersion_stores {v : ObjectVersion} {u : Unit} (carries : CarriesDescriptor s v)
    (outcome : (setObjectVersion platform v).run s = .ok (u, t)) :
    ∃ stored chunks, StoredAs platform s t v stored chunks v.allSegmentRefs := by
  have segments := setObjectVersion_segments outcome
  obtain ⟨stored, record, segments⟩ := Option.bind_eq_some_iff.mp segments
  obtain ⟨plan, s₂, s₃, planned, cleared, chunked, rfl⟩ := setObjectVersion_ok outcome
  obtain ⟨⟨recordFits, chunksFit⟩, form⟩ := planObjectVersionManifestStorage_ok planned
  have same := metadata_storedVersion planned
  have written : stored = plan.storedVersion := by
    have sameBucket := congrArg ObjectVersion.bucketID same
    have sameKey := congrArg ObjectVersion.key same
    have sameSortKey := congrArg ObjectVersion.versionSortKey same
    simp only [metadata] at sameBucket sameKey sameSortKey
    rw [lookup_insert_ne _ (by simp), ← sameBucket, ← sameKey, ← sameSortKey,
      lookup_insert_self] at record
    exact (Option.some.inj record).symm
  have numbered : NumberedFrom v.bucketID v.versionID 1 plan.chunks ∧
      plan.storedVersion.manifest.chunkCount = plan.chunks.length := by
    rcases form with ⟨inline, none⟩ | ⟨-, numbered, -, layout⟩
    · simp only [inline, none]
      exact ⟨trivial, rfl⟩
    · exact ⟨numbered, by rw [layout]⟩
  -- the clean-up ran, or the form before has no chunks
  have cleaned : ∀ n, s₂.lookup (.objectManifestChunk v.bucketID v.versionID n) =
      if v.bucketID = "" ∨ v.versionID = "" then
        s.lookup (.objectManifestChunk v.bucketID v.versionID n) else none := by
    unfold onlyIf at cleared
    split at cleared
    · exact deleteObjectManifestChunks_leaves cleared
    · next kept =>
      cases cleared
      intro n
      have absent := carries.resolve_left fun encoded => kept (.inl encoded)
      simp [absent]
  refine ⟨stored, plan.chunks, record, written ▸ recordFits, chunksFit,
    written ▸ numbered.2, fun n => ?_, hydrate_of_segmentsOf segments⟩
  rw [lookup_insert_ne _ (by simp), lookup_insert_ne _ (by simp)]
  cases n with
  | zero =>
    rw [(setManifestChunks_collect numbered.1 chunked).1 0 (by omega), cleaned, if_pos rfl,
      Option.none_or]
  | succ n =>
    rw [Nat.add_comm, setManifestChunks_lookup numbered.1 chunked, cleaned]
    simp

/-- A version that was stored with one chunk, as it is read back. -/
def chunkedVersion (versionID : String) : ObjectVersion :=
  { bucketID := "b", key := "k", versionID := versionID, versionSortKey := versionID
    segmentRef := { segmentID := "s" }, segmentRefs := [{ segmentID := "s" }]
    manifest := { encoding := .chunked, refCount := 1, chunkCount := 1 } }

def onlyChunk (versionID : String) : ObjectManifestChunk :=
  { bucketID := "b", key := "k", versionID := versionID, chunkNumber := 1
    segmentRefs := [{ segmentID := "s" }] }

def chunkedStore (versionID : String) : Store :=
  ((∅ : Store).insert (.objectManifestChunk "b" versionID 1) (onlyChunk versionID)).insert
    (.objectVersion "b" "k" versionID)
    { chunkedVersion versionID with segmentRef := {}, segmentRefs := [] }

/-- From chunks to one value. -/
theorem chunked_becomes_inline : ∃ t,
    (setObjectVersion plainPlatform (chunkedVersion "v")).run (chunkedStore "v") = .ok ((), t) ∧
      ∃ stored chunks, StoredAs plainPlatform (chunkedStore "v") t (chunkedVersion "v") stored
        chunks (chunkedVersion "v").allSegmentRefs :=
  ⟨_, rfl, setObjectVersion_stores (.inl rfl) rfl⟩

/-- The chunk of a version without an id is left behind. -/
theorem unnamed_chunk_left : ∃ t,
    (setObjectVersion plainPlatform (chunkedVersion "")).run (chunkedStore "") = .ok ((), t) ∧
      CarriesDescriptor (chunkedStore "") (chunkedVersion "") ∧
      t.lookup (.objectVersion "b" "k" "") = some { chunkedVersion "" with manifest := {} } ∧
      t.lookup (.objectManifestChunk "b" "" 1) = some (onlyChunk "") :=
  ⟨_, rfl, .inl rfl, rfl, rfl⟩

end Namros.Guarantees
