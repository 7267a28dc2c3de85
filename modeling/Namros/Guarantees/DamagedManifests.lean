import Namros.Guarantees.IndexInvariant
import Namros.Guarantees.ManifestStorage

/-!
# Heads over damaged manifests

A head is stored without segment references and takes them from its version. `GetObjectHead`, and
`CommitObjectVersion` of a version that is committed already, drop the error of that second
lookup and return an empty head, and where no version is found they return the head without
references. They serve a head rightly exactly if it is a delete marker's, or its version is found
with a complete manifest, no read fails, and the version of a non-empty object has references.
-/

namespace Namros.Guarantees

open Library Source Transaction

/-! ## Reads that fail -/

/-- A body whose first reads fail with this error, if any. -/
def interrupted {α : Type} (fault : Option Error) (body : Tx α) : Tx α :=
  match fault with
  | some e => throw e
  | none => body

/-- `head, err = hydrateHeadManifest(tx, head)` and then `return nil`, where a read of the
hydration, or its write of a missing locator, may fail. -/
def hydrateHeadDropping (fault : Option Error) (head : ObjectHead) : Tx ObjectHead :=
  if head.selfContained then pure head
  else
    match fault with
    | some _ => pure {}
    | none => hydrateHeadOrEmpty head

/-- `GetObjectHead`, with what its read of the head and its hydration meet. -/
def getObjectHeadFaulty (readFault fault : Option Error) (bucketID : String) (key : GoString) :
    Tx ObjectHead :=
  interrupted readFault do
    let head ← getObjectHead bucketID key
    let head ← orFail head .notFound
    hydrateHeadDropping fault head

/-- `CommitObjectVersion`, with what its reads before the hydration and the hydration meet. -/
def commitObjectVersionFaulty (platform : Platform) (context : CallContext)
    (readFault fault : Option Error) (req : CommitObjectVersionRequest) : Tx ObjectHead := do
  failIf (req.bucketID = "" ∨ req.key = "" ∨ req.versionID = "")
    (.invalidArgument "commit fields are required")
  interrupted readFault do
    let bucket ← requireBucket req.bucketID
    let current ← getObjectHead req.bucketID req.key
    let currentHead := current.getD {}
    failIf (currentHead.versionID ≠ req.expectedHeadVersionID) (.casConflict "")
    let found ← findVersionByID req.bucketID req.key req.versionID
    let (_, version) ← orFail found .notFound
    if version.state = .committed then hydrateHeadDropping fault currentHead
    else do
      let now := context.now 0
      installVersion platform bucket req.bucketID req.key currentHead.versionID
        { version with state := .committed, committedAt := now } now

theorem hydrateHeadDropping_none (head : ObjectHead) :
    hydrateHeadDropping none head = hydrateHeadOrEmpty head := by
  unfold hydrateHeadDropping hydrateHeadOrEmpty
  split <;> rfl

/-- Where no read fails, these are the repository's operations. -/
theorem faultless (platform : Platform) (context : CallContext) :
    getObjectHeadFaulty none none = getHead ∧
      commitObjectVersionFaulty platform context none none =
        fun req => commitObjectVersion platform context req := by
  constructor
  · funext b k
    simp only [getObjectHeadFaulty, interrupted, hydrateHeadDropping_none]
    rfl
  · funext req
    simp only [commitObjectVersionFaulty, interrupted, hydrateHeadDropping_none]
    rfl

/-! ## The version of a head -/

/-- The record of a version: the one its locator names, if it is that version of the key, or
without a locator the first one of the key with this id. -/
def versionRecord (s : Store) (b : String) (k : GoString) (id : String) : Option ObjectVersion :=
  if id = "" then none
  else
    match (s.lookup (.objectVersionByID b id) : Option ObjectVersionLocator) with
    | some locator =>
      if locator.key ≠ k ∨ locator.versionSortKey = "" then none
      else (s.lookup (.objectVersion b locator.key locator.versionSortKey)
        : Option ObjectVersion).filter fun version => version.versionID = id ∧ version.key = k
    | none =>
      ((recordsUnder asObjectVersion (versionPrefix b k) s).find? fun entry =>
        entry.2.versionID = id).map Prod.snd

/-- The version of a head with its references, if its record is found and its manifest is
complete. -/
def completeVersion (s : Store) (head : ObjectHead) : Option ObjectVersion :=
  (versionRecord s head.bucketID head.key head.versionID).bind fun version =>
    (hydrateWith (chunksOf s version) version).toOption

variable {s : Store} {b k : String}

theorem locateVersion_run (s : Store) (b : String) (k : GoString) (id : String) :
    ∃ found t, (locateVersion b k id).run s = .ok (found, t) ∧
      found.map Prod.snd = versionRecord s b k id := by
  unfold locateVersion versionRecord
  split
  · exact ⟨none, s, rfl, rfl⟩
  rw [run_bind, run_getJSON]
  cases s.lookup (.objectVersionByID b id) with
  | some locator =>
    dsimp only
    split
    · exact ⟨none, s, rfl, rfl⟩
    rw [run_bind, run_getJSON]
    cases s.lookup (.objectVersion b locator.key locator.versionSortKey) with
    | none => exact ⟨none, s, rfl, rfl⟩
    | some version =>
      dsimp only
      split
      · next other =>
        refine ⟨none, s, rfl, (Option.filter_some_neg ?_).symm⟩
        rw [decide_eq_false_iff_not, not_and_or]
        exact other
      · next matching =>
        refine ⟨some (_, version), s, rfl, (Option.filter_some_pos ?_).symm⟩
        simpa [not_or] using matching
  | none =>
    dsimp only
    rw [run_bind, run_scanRecords]
    dsimp only
    cases (recordsUnder asObjectVersion (versionPrefix b k) s).find? fun entry =>
        entry.2.versionID = id with
    | none => exact ⟨none, s, rfl, rfl⟩
    | some entry =>
      obtain ⟨versionKey, found⟩ := entry
      dsimp only [onlyIf]
      split <;> exact ⟨some (versionKey, found), _, rfl, rfl⟩

theorem hydrateObjectVersionManifest_run (s : Store) (version : ObjectVersion) :
    (hydrateObjectVersionManifest version).run s =
      (hydrateWith (chunksOf s version) version).map (·, s) := by
  change (ofOutcome (hydrateWith (chunksOf s version) version)).run s = _
  cases hydrateWith (chunksOf s version) version <;> rfl

/-! ## What is returned -/

/-- The stored head as it is to be returned: a delete marker's as it is, another with the
complete references of its version, and with some if the object is not empty. -/
def ServedRightly (s : Store) (head out : ObjectHead) : Prop :=
  head.deleteMarker ∧ out = head ∨
    ∃ version, completeVersion s head = some version ∧ out = head.withRefsOf version ∧
      (head.sizeBytes ≠ 0 → version.allSegmentRefs ≠ [])

/-- The condition, on the store and on what the hydration meets. -/
def Intact (s : Store) (fault : Option Error) (head : ObjectHead) : Prop :=
  head.deleteMarker ∨ fault = none ∧ ∃ version, completeVersion s head = some version ∧
    (head.sizeBytes ≠ 0 → version.allSegmentRefs ≠ [])

/-- The hydration of a stored head always succeeds, rightly or not. -/
theorem hydrateHeadDropping_run (s : Store) (fault : Option Error) (entry : ObjectHeadEntry) :
    ∃ out t, (hydrateHeadDropping fault (headFromHeadEntry entry)).run s = .ok (out, t) ∧
      (ServedRightly s (headFromHeadEntry entry) out ↔ Intact s fault (headFromHeadEntry entry)) := by
  generalize shape : headFromHeadEntry entry = head
  have bare : ¬ (head.segmentRef.segmentID ≠ "" ∨ head.segmentRefs ≠ []) := by
    rw [← shape]
    simp [headFromHeadEntry]
  unfold hydrateHeadDropping ServedRightly Intact
  by_cases marker : head.deleteMarker = true
  · rw [if_pos (.inl marker)]
    exact ⟨head, s, rfl, by simp [marker]⟩
  by_cases unnamed : head.versionID = ""
  · rw [if_pos (.inr (.inl unnamed))]
    exact ⟨head, s, rfl, by simp [marker, completeVersion, versionRecord, unnamed]⟩
  have bare : ¬ head.selfContained := by
    rintro (deleted | empty | refs)
    · exact marker deleted
    · exact unnamed empty
    · exact bare refs
  have notEmpty (version : ObjectVersion) : ({} : ObjectHead) ≠ head.withRefsOf version :=
    fun same => unnamed (congrArg ObjectHead.versionID same).symm
  rw [if_neg bare]
  cases fault with
  | some e => exact ⟨{}, s, rfl, by simp [marker, notEmpty]⟩
  | none =>
    obtain ⟨found, t, searched, record⟩ :=
      locateVersion_run s head.bucketID head.key head.versionID
    have kept := keeps_locateVersion _ _ _ _ _ _ searched
    dsimp only
    rw [hydrateHeadOrEmpty, if_neg bare, run_bind, searched]
    cases found with
    | none => exact ⟨head, t, rfl, by simp [marker, completeVersion, ← record]⟩
    | some located =>
      obtain ⟨versionKey, version⟩ := located
      -- the search writes at most a locator
      have chunks : chunksOf t version = chunksOf s version := funext fun n => kept _ id
      have hydrating := hydrateObjectVersionManifest_run t version
      rw [chunks] at hydrating
      simp only [StateT.run] at hydrating ⊢
      rw [hydrating]
      cases hydrated : hydrateWith (chunksOf s version) version with
      | error e =>
        refine ⟨{}, t, rfl, ?_⟩
        simp [marker, completeVersion, ← record, hydrated, Except.toOption]
      | ok full =>
        refine ⟨head.withRefsOf full, t, rfl, ?_⟩
        simp [marker, completeVersion, ← record, hydrated, Except.toOption]

/-- An operation that hydrates a stored head, unless it was interrupted before. -/
theorem served_iff {t : Store} {readFault fault : Option Error} {entry : ObjectHeadEntry}
    {body : Tx ObjectHead}
    (hydrates : body.run s = (hydrateHeadDropping fault (headFromHeadEntry entry)).run t) :
    (∀ out u, (interrupted readFault body).run s = .ok (out, u) →
        ServedRightly t (headFromHeadEntry entry) out) ↔
      readFault ≠ none ∨ Intact t fault (headFromHeadEntry entry) := by
  cases readFault with
  | some e =>
    simp only [interrupted, run_throw, reduceCtorEq, false_implies, implies_true, ne_eq,
      not_false_eq_true, true_or]
  | none =>
    obtain ⟨out, u, run, rightly⟩ := hydrateHeadDropping_run t fault entry
    simp only [interrupted, hydrates, run, ne_eq, not_true_eq_false, false_or, ← rightly]
    constructor
    · exact fun all => all out u rfl
    · intro served out' u' same
      cases same
      exact served

/-- `CommitObjectVersion` finds the version of its request committed already; the search leaves
the second store. -/
structure FindsCommitted (s t : Store) (entry : ObjectHeadEntry) (req : CommitObjectVersionRequest) :
    Prop where
  named : req.bucketID ≠ "" ∧ req.key ≠ "" ∧ req.versionID ≠ ""
  bucket : ∃ bucket, s.lookup (.bucketByID req.bucketID) = some bucket
  expected : entry.versionID = req.expectedHeadVersionID
  found : ∃ versionKey version, (findVersionByID req.bucketID req.key req.versionID).run s =
    .ok (some (versionKey, version), t) ∧ version.state = .committed

/-- What `GetObjectHead`, and `CommitObjectVersion` of a committed version, return for a head
that is stored, over any other records and whichever reads fail. -/
theorem heads_served_rightly_iff {entry : ObjectHeadEntry} (readFault fault : Option Error)
    (stored : s.lookup (.objectHead b k) = some entry) :
    ((∀ out u, (getObjectHeadFaulty readFault fault b k).run s = .ok (out, u) →
        ServedRightly s (headFromHeadEntry entry) out) ↔
      readFault ≠ none ∨ Intact s fault (headFromHeadEntry entry)) ∧
    ∀ (platform : Platform) (context : CallContext) (req : CommitObjectVersionRequest) (t : Store),
      req.bucketID = b → req.key = k → FindsCommitted s t entry req →
      ((∀ out u, (commitObjectVersionFaulty platform context readFault fault req).run s =
          .ok (out, u) → ServedRightly t (headFromHeadEntry entry) out) ↔
        readFault ≠ none ∨ Intact t fault (headFromHeadEntry entry)) := by
  have head : (getObjectHead b k).run s = .ok (some (headFromHeadEntry entry), s) := by
    change Except.ok ((s.lookup (.objectHead b k)).map headFromHeadEntry, s) = _
    rw [stored]
    rfl
  constructor
  · apply served_iff
    rw [run_bind, head]
    rfl
  intro platform context req t sameBucket sameKey finds
  subst sameBucket sameKey
  obtain ⟨bucket, present⟩ := finds.bucket
  obtain ⟨versionKey, version, searched, committed⟩ := finds.found
  have named : ¬ (req.bucketID = "" ∨ req.key = "" ∨ req.versionID = "") := by
    simpa [not_or] using finds.named
  have required : (requireBucket req.bucketID).run s = .ok (bucket, s) := by
    unfold requireBucket
    rw [run_bind, run_getJSON, present]
    rfl
  have expected : ¬ ((some (headFromHeadEntry entry)).getD {}).versionID ≠
      req.expectedHeadVersionID := not_not.mpr finds.expected
  rw [commitObjectVersionFaulty, failIf, if_neg named]
  apply served_iff
  rw [run_bind, required]
  dsimp only
  rw [run_bind, head]
  dsimp only
  rw [failIf, if_neg expected, run_bind, run_pure]
  dsimp only
  rw [run_bind, searched]
  dsimp only [orFail]
  rw [run_bind, run_pure]
  dsimp only
  rw [if_pos committed]
  rfl

/-! ## A missing chunk -/

def storedHead : ObjectHeadEntry :=
    { bucketID := "b", key := "k", versionID := "v", sizeBytes := 5 }

/-- A committed version whose manifest chunk is missing, and its head. -/
def chunklessStore : Store :=
  ((((∅ : Store).insert (.bucketByID "b") {}).insert (.objectHead "b" "k") storedHead).insert
    (.objectVersionByID "b" "v") { key := "k", versionSortKey := "v" }).insert
    (.objectVersion "b" "k" "v")
    { chunkedVersion "v" with state := .committed, segmentRef := {}, segmentRefs := [] }

def wholeStore : Store :=
  chunklessStore.insert (.objectManifestChunk "b" "v" 1) (onlyChunk "v")

def commitAgain : CommitObjectVersionRequest :=
  { bucketID := "b", key := "k", versionID := "v", expectedHeadVersionID := "v" }

/-- Both operations serve a head whose manifest is complete. -/
theorem complete_manifest_served :
    (∀ out u, (getObjectHeadFaulty none none "b" "k").run wholeStore = .ok (out, u) →
      ServedRightly wholeStore (headFromHeadEntry storedHead) out) ∧
    ∀ out u, (commitObjectVersionFaulty plainPlatform (numberedContext 1 1) none none
        commitAgain).run wholeStore = .ok (out, u) →
      ServedRightly wholeStore (headFromHeadEntry storedHead) out := by
  have stored : wholeStore.lookup (.objectHead "b" "k") = some storedHead := rfl
  have both := heads_served_rightly_iff none none stored
  have intact : Intact wholeStore none (headFromHeadEntry storedHead) :=
    .inr ⟨rfl, _, rfl, fun _ => by decide⟩
  have finds : FindsCommitted wholeStore wholeStore storedHead commitAgain :=
    ⟨by decide, ⟨_, rfl⟩, rfl, _, _, rfl, rfl⟩
  exact ⟨both.1.mpr (.inr intact),
    (both.2 plainPlatform (numberedContext 1 1) commitAgain _ rfl rfl finds).mpr (.inr intact)⟩

/-- Both return an empty head, without an error, where the chunk is missing; where the version is
missing too, a head of five bytes without references is returned. -/
theorem missing_chunk_served :
    (getObjectHeadFaulty none none "b" "k").run chunklessStore = .ok ({}, chunklessStore) ∧
      (commitObjectVersionFaulty plainPlatform (numberedContext 1 1) none (some (.unavailable ""))
        commitAgain).run wholeStore = .ok ({}, wholeStore) ∧
      (getObjectHeadFaulty none none "b" "k").run
          (chunklessStore.erase (.objectVersion "b" "k" "v")) =
        .ok (headFromHeadEntry storedHead, chunklessStore.erase (.objectVersion "b" "k" "v")) :=
  ⟨rfl, rfl, rfl⟩

end Namros.Guarantees
