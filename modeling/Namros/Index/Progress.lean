import Namros.Index.Moves

/-!
# Calls that cannot fail

In a consistent store whose manifests can be read, a stored version is found, and committing a
pending version on top of the expected head succeeds, provided its record still fits the value
budget.
-/

namespace Namros.Index

open Library Source Transaction

variable {platform : Platform} {context : CallContext} {U V : Set String} {X : Set Bytes}
  {s t : Store}

/-! ## Steps that always succeed -/

theorem total_deleteObjectManifestChunks (b id : String) :
    Total (deleteObjectManifestChunks b id) := by
  intro s
  by_cases unnamed : b = "" ∨ id = ""
  · exact ⟨(), s, if_pos unnamed⟩
  · exact ⟨(), _, if_neg unnamed⟩

theorem total_setManifestChunks (chunks : List ObjectManifestChunk) :
    Total (setManifestChunks chunks) := by
  induction chunks with
  | nil => exact .pure ()
  | cons chunk rest ih => exact .bind (total_setJSON _ _) fun _ => ih

theorem total_deleteProtectedRefsForVersion (b k id : String) :
    Total (deleteProtectedRefsForVersion b k id) := fun _ => ⟨(), _, rfl⟩

theorem total_setProtectedRefs (v : ObjectVersion) (now : Time) (segments : List SegmentRef) :
    Total (setProtectedRefs platform v now v.key segments) := by
  induction segments with
  | nil => exact .pure ()
  | cons segmentRef rest ih =>
    exact .bind (.onlyIf (.bind (total_setJSON _ _) fun _ => total_setJSON _ _)) fun _ => ih

theorem total_setObjectHead (head : ObjectHead) : Total (setObjectHead head) :=
  .bind (.bind (total_getJSON _) fun _ => .pure _) fun _ =>
    .bind (total_setJSON _ _) fun _ => .pure _

theorem total_setListObject (head : ObjectHead) : Total (setListObject head) :=
  .ite (total_deleteKey _) (total_setJSON _ _)

theorem total_deleteObjectVersionRecord (K : Key) (v : ObjectVersion) :
    Total (deleteObjectVersionRecord K v) :=
  .bind (.onlyIf (.bind (total_deleteKey _) fun _ => total_deleteObjectManifestChunks _ _))
    fun _ => total_deleteKey _

variable {v : ObjectVersion} {plan : ManifestPlan}

/-- A version is stored when its record fits the value budget. -/
theorem setObjectVersion_succeeds (fits : planObjectVersionManifestStorage platform v = .ok plan)
    (s : Store) : ∃ t, (setObjectVersion platform v).run s = .ok ((), t) := by
  have rest : Total (do
      onlyIf (v.manifest.encoding = .chunked ∨ plan.chunks ≠ [])
        (deleteObjectManifestChunks v.bucketID v.versionID)
      setManifestChunks plan.chunks
      let stored := plan.storedVersion
      setJSON (.objectVersion stored.bucketID v.key stored.versionSortKey) stored
      setJSON (.objectVersionByID stored.bucketID stored.versionID)
        { key := stored.key, versionSortKey := stored.versionSortKey } : Tx Unit) :=
    .bind (.onlyIf (total_deleteObjectManifestChunks _ _)) fun _ =>
      .bind (total_setManifestChunks _) fun _ => .bind (total_setJSON _ _) fun _ =>
        total_setJSON _ _
  obtain ⟨_, t, ran⟩ := rest s
  exact ⟨t, run_bind_ok.mpr ⟨plan, s, run_ofOutcome_ok.mpr ⟨fits, rfl⟩, ran⟩⟩

/-! ## Finding versions -/

/-- The manifest of every stored version can be read. -/
def Readable (H : Holdings) : Prop :=
  ∀ b k id held, H.version b k id = some held → held.segments ≠ none

theorem Readable.put {H : Holdings} (h : Readable H) (v : ObjectVersion) : Readable (H.put v) := by
  intro b k id held found
  by_cases here : b = v.bucketID ∧ k = v.key ∧ id = v.versionID
  · rw [← Option.some.inj ((if_pos here).symm.trans found)]
    exact Option.some_ne_none _
  · rw [Holdings.put_other H here] at found
    exact h b k id held found

theorem Readable.move {H H' : Holdings} {now : Time} (h : Readable H)
    (move : Move platform V X now H H') : Readable H' := by
  cases move with
  | add v => exact h.put v
  | install v => exact h.put v
  | amend v => exact h.put v
  | drop b k id =>
    intro b' k' id' held found
    change (if b' = b ∧ k' = k ∧ id' = id then none else H.version b' k' id') = some held at found
    split at found
    · cases found
    · exact h b' k' id' held found

theorem Readable.moves {now : Time} (h : Readable (holdings s))
    (moves : Moves platform V X now s t) :
    Readable (holdings t) := by
  unfold Moves at moves
  generalize holdings t = H at moves
  induction moves with
  | refl => exact h
  | tail _ move ih => exact ih.move move

variable {b k : String}

theorem Readable.hydrates (h : Readable (holdings s)) {id : String}
    (stored : s.lookup (.objectVersion b k id) = some v) :
    ∃ full, hydrateWith (chunksOf s v) v = .ok full := by
  have held := held_iff.mpr ⟨v, stored, rfl⟩
  obtain ⟨segments, readable⟩ := Option.ne_none_iff_exists'.mp (h b k id _ held)
  obtain ⟨full, hydrated, -⟩ := segmentsOf_eq_some.mp readable
  exact ⟨full, hydrated⟩

/-- A stored version is found with its manifest. -/
theorem findVersionByID_finds (h : VersionsIndexed (objectIndex s)) {id : String}
    {full : ObjectVersion} (stored : s.lookup (.objectVersion b k id) = some v)
    (hydrated : hydrateWith (chunksOf s v) v = .ok full) :
    (findVersionByID b k id).run s = .ok (some (.objectVersion b k id, full), s) := by
  have indexed : (objectIndex s).version b k id = some (metadata v) :=
    congrArg (Option.map metadata) stored
  obtain ⟨w, located, stored'⟩ := locateVersion_located (h.at indexed)
  obtain rfl : v = w := Option.some.inj (stored.symm.trans stored')
  refine run_bind_ok.mpr ⟨_, s, located, run_bind_ok.mpr ⟨full, s, ?_, rfl⟩⟩
  exact run_bind_ok.mpr ⟨s, s, rfl, run_ofOutcome_ok.mpr ⟨hydrated, rfl⟩⟩

/-! ## Committing -/

theorem removeReplacedVersion_succeeds {bucket : Bucket} {current versionID : String}
    (indexed : VersionsIndexed (objectIndex s)) (readable : Readable (holdings s))
    (present : current ≠ "" → current ≠ versionID →
      ∃ v, s.lookup (.objectVersion b k current) = some v) :
    ∃ t, (removeReplacedVersion bucket b k current versionID).run s = .ok ((), t) := by
  by_cases replaced : bucket.versioningState ≠ .enabled ∧ current ≠ "" ∧ current ≠ versionID
  · obtain ⟨v, stored⟩ := present replaced.2.1 replaced.2.2
    obtain ⟨full, hydrated⟩ := readable.hydrates stored
    have found := findVersionByID_finds indexed stored hydrated
    have rest : Total (do
        deleteProtectedRefsForVersion full.bucketID full.key full.versionID
        deleteObjectVersionRecord (.objectVersion b k current) full : Tx Unit) :=
      .bind (total_deleteProtectedRefsForVersion _ _ _) fun _ =>
        total_deleteObjectVersionRecord _ _
    obtain ⟨_, t, ran⟩ := rest s
    refine ⟨t, ?_⟩
    unfold removeReplacedVersion
    rw [if_pos replaced]
    exact run_bind_ok.mpr ⟨_, s, found, ran⟩
  · refine ⟨s, ?_⟩
    unfold removeReplacedVersion
    rw [if_neg replaced]
    rfl

theorem installVersion_succeeds (bucket : Bucket) (now : Time) (h : Consistent U (objectIndex s))
    (readable : Readable (holdings s))
    (fits : planObjectVersionManifestStorage platform v = .ok plan)
    (storable : Storable (objectIndex s) v) :
    ∃ head t, (installVersion platform bucket v.bucketID v.key
      (currentID (objectIndex s) v.bucketID v.key) v now).run s = .ok (head, t) := by
  obtain ⟨s₁, stored⟩ := setObjectVersion_succeeds fits s
  obtain ⟨head, s₂, headed⟩ := total_setObjectHead (headFromVersion v now) s₁
  obtain ⟨_, s₃, listed⟩ := total_setListObject head s₂
  have syncs : Total (syncProtectedRefsForVersion platform v now) :=
    .bind (total_deleteProtectedRefsForVersion _ _ _) fun _ => .onlyIf (total_setProtectedRefs _ _ _)
  obtain ⟨_, s₄, synced⟩ := syncs s₃
  have indexed : VersionsIndexed (objectIndex s₄) := by
    rw [syncProtectedRefsForVersion_index synced, setHeadThenList_index headed listed,
      setObjectVersion_index stored]
    exact (h.versions.putVersion storable).congr rfl rfl
  have sameHead := keeps_setObjectHead _ _ _ _ headed
  have sameList := keeps_setListObject _ _ _ _ listed
  have result := storeAndSync_holdings stored (sameList.trans sameHead) synced h.versions storable
  have readable' : Readable (holdings s₄) := by
    rw [result]
    exact readable.put v
  have present : currentID (objectIndex s) v.bucketID v.key ≠ "" →
      currentID (objectIndex s) v.bucketID v.key ≠ v.versionID → ∃ w,
        s₄.lookup (.objectVersion v.bucketID v.key (currentID (objectIndex s) v.bucketID v.key)) =
          some w := by
    intro headed other
    obtain ⟨w, held, -⟩ := (h.currentID_located headed).stored
    have kept : (holdings s₄).version v.bucketID v.key
        (currentID (objectIndex s) v.bucketID v.key) = (holdings s).version v.bucketID v.key
          (currentID (objectIndex s) v.bucketID v.key) := by
      rw [result]
      exact Holdings.put_other _ fun here => other here.2.2
    rw [held_of_indexed held] at kept
    obtain ⟨w, found, -⟩ := held_iff.mp kept
    exact ⟨w, found⟩
  obtain ⟨t, removed⟩ := removeReplacedVersion_succeeds indexed readable' present
  have key : head.key = v.key := setObjectHead_key headed
  rw [key] at listed
  refine ⟨head, t, run_bind_ok.mpr ⟨(), s₁, stored, run_bind_ok.mpr ⟨head, s₂, headed, ?_⟩⟩⟩
  refine run_bind_ok.mpr ⟨_, s₃, listed, run_bind_ok.mpr ⟨_, s₄, synced, ?_⟩⟩
  exact run_bind_ok.mpr ⟨(), t, removed, rfl⟩

/-- The head of a key, by version id. -/
theorem getObjectHead_currentID (s : Store) (b k : String) : ∃ current,
    (getObjectHead b k).run s = .ok (current, s) ∧
      (current.getD {}).versionID = currentID (objectIndex s) b k := by
  refine ⟨_, getObjectHead_run .., ?_⟩
  unfold currentID
  cases (objectIndex s).head b k <;> rfl

/-- A pending version is committed on top of the head it expects. -/
theorem commitObjectVersion_succeeds {req : CommitObjectVersionRequest} {bucket : Bucket}
    {full : ObjectVersion} (h : Consistent U (objectIndex s)) (readable : Readable (holdings s))
    (named : req.bucketID ≠ "" ∧ req.key ≠ "")
    (found : s.lookup (.bucketByID req.bucketID) = some bucket)
    (expected : currentID (objectIndex s) req.bucketID req.key = req.expectedHeadVersionID)
    (stored : s.lookup (.objectVersion req.bucketID req.key req.versionID) = some v)
    (hydrated : hydrateWith (chunksOf s v) v = .ok full) (pending : v.state ≠ .committed)
    (fits : planObjectVersionManifestStorage platform
      { full with state := .committed, committedAt := context.now 0 } = .ok plan) :
    ∃ head t, (commitObjectVersion platform context req).run s = .ok (head, t) := by
  have searched := findVersionByID_finds h.versions stored hydrated
  obtain ⟨-, indexed⟩ := findVersionByID_indexed h.versions searched
  obtain ⟨-, indexed⟩ := indexed _ _ rfl
  have identified := h.versions.identified indexed
  have sameBucket : full.bucketID = req.bucketID := identified.1
  have sameKey : full.key = req.key := identified.2.1
  have uncommitted : full.state ≠ .committed := by
    have same : (metadata full).state = v.state := by
      have stored : (objectIndex s).version req.bucketID req.key req.versionID =
        some (metadata v) := congrArg (Option.map metadata) stored
      rw [← Option.some.inj (stored.symm.trans indexed)]
      rfl
    exact fun committed => pending (same.symm.trans committed)
  obtain ⟨current, headed, same⟩ := getObjectHead_currentID s req.bucketID req.key
  obtain ⟨head, t, installed⟩ := installVersion_succeeds bucket (context.now 0) h readable fits
    (h.storable_of_stored indexed identified)
  have housed : (requireBucket req.bucketID).run s = .ok (bucket, s) := by
    refine run_bind_ok.mpr ⟨some bucket, s, ?_, rfl⟩
    rw [← found]
    rfl
  have versionNamed : req.versionID ≠ "" := h.versions.named indexed
  refine ⟨head, t, run_bind_ok.mpr ⟨(), s, run_failIf_ok.mpr ⟨?_, rfl⟩,
    run_bind_ok.mpr ⟨bucket, s, housed, run_bind_ok.mpr ⟨current, s, headed, ?_⟩⟩⟩⟩
  · simp [named, versionNamed]
  refine run_bind_ok.mpr ⟨(), s, run_failIf_ok.mpr ⟨?_, rfl⟩,
    run_bind_ok.mpr ⟨_, s, searched, run_bind_ok.mpr ⟨_, s, rfl, ?_⟩⟩⟩
  · rw [same, expected]
    exact not_not.mpr rfl
  · dsimp only
    rw [if_neg uncommitted, same, ← sameBucket, ← sameKey]
    exact installed

end Namros.Index
