import Namros.Index.Moves

/-!
# The protected-reference index

The invariant of the two tables of protected references. They list the same references, and a
reference that is still active belongs to a version under object lock which has the segment;
the other way round, every segment of such a version has a reference with the version's own
lock. Time only lets locks expire, and each move keeps the invariant.
-/

namespace Namros.Index

open Library Source

variable {platform : Platform} {ids : Set String} {X : Set Bytes} {now : Time}
  {H H' : Holdings} {T : RefTables}

/-! ## Locks and time -/

variable {ref : ProtectedRef} {v : ObjectVersion}

variable {later : Time}

/-- An expired lock stays expired. -/
theorem ObjectVersion.protectedByObjectLock_earlier {now : Time} (le : now ≤ later)
    (locked : v.protectedByObjectLock later false = true) :
    v.protectedByObjectLock now false = true := by
  unfold ObjectVersion.protectedByObjectLock objectLockProtected at locked ⊢
  split at locked
  · cases locked
  rename_i live
  rw [if_neg live]
  split at locked
  · rename_i held
    rw [if_pos held]
  rename_i unheld
  rw [if_neg unheld]
  split at locked
  · cases locked
  rename_i retained
  rw [if_neg retained]
  split at locked
  · rename_i forever
    rw [if_pos forever]
  rename_i dated
  rw [if_neg dated]
  split at locked
  · cases locked
  rename_i before
  have before : now < v.objectLockRetention.retainUntilDate :=
    lt_of_le_of_lt le (not_not.mp before)
  rw [if_neg (not_not.mpr before)]
  exact locked

theorem hasLock_of_protected (locked : v.protectedByObjectLock now false = true) : HasLock v := by
  by_contra free
  obtain ⟨unheld, unretained⟩ := not_or.mp free
  simp [ObjectVersion.protectedByObjectLock, objectLockProtected, unheld,
    not_not.mp unretained] at locked

/-! ## The two tables -/

/-- `protectedRefID` of the parts of a reference. -/
def refIDOf (platform : Platform) (b k id segmentID : String) : String :=
  platform.sha256Hex (refText b k id segmentID)

variable {b k id : String}

theorem refIDOf_inj (hash : Set.InjOn platform.sha256Hex X) {x y : String}
    (text : refText b k id x ∈ X) (text' : refText b k id y ∈ X)
    (same : refIDOf platform b k id x = refIDOf platform b k id y) : x = y := by
  have joined := hash text text' same
  simpa [refText, bytes_inj] using joined

/-- Both tables list the same references, each under its own identity. -/
structure Filed (platform : Platform) (X : Set Bytes) (T : RefTables) : Prop where
  listed : ∀ {b k id refID ref}, T.byVersion b k id refID = some ref →
    (ref.bucketID = b ∧ ref.key = k ∧ ref.versionID = id ∧ ref.refID = refID) ∧
      refID = refIDOf platform b k id ref.segmentID ∧
      T.bySegment ref.segmentID refID = some ref
  filed : ∀ {segmentID refID ref}, T.bySegment segmentID refID = some ref →
    ref.segmentID = segmentID ∧ T.byVersion ref.bucketID ref.key ref.versionID refID = some ref
  hashed : ∀ {b k id refID ref}, T.byVersion b k id refID = some ref →
    refText b k id ref.segmentID ∈ X

variable {b' k' refID : String}

theorem RefTables.release_byVersion_eq_some {id' : String} :
    (T.release b k id).byVersion b' k' id' refID = some ref ↔
      ¬ (b' = b ∧ k' = k ∧ id' = id) ∧ T.byVersion b' k' id' refID = some ref := by
  change (if b' = b ∧ k' = k ∧ id' = id then none else T.byVersion b' k' id' refID) =
    some ref ↔ _
  split <;> simp_all

variable {segmentID : String}

open Classical in
theorem RefTables.release_bySegment_eq_some :
    (T.release b k id).bySegment segmentID refID = some ref ↔
      (¬ ∃ listed ref', T.byVersion b k id listed = some ref' ∧ ref'.segmentID = segmentID ∧
        ref'.refID = refID) ∧ T.bySegment segmentID refID = some ref := by
  change (if ∃ listed ref', T.byVersion b k id listed = some ref' ∧ ref'.segmentID = segmentID ∧
    ref'.refID = refID then none else T.bySegment segmentID refID) = some ref ↔ _
  split
  · rename_i erased
    exact iff_of_false (fun same => nomatch same) fun kept => kept.1 erased
  · rename_i kept
    exact (and_iff_right kept).symm

theorem Filed.release (h : Filed platform X T) (b k id : String) :
    Filed platform X (T.release b k id) where
  listed {b' k' id' refID ref} found := by
    obtain ⟨other, found⟩ := RefTables.release_byVersion_eq_some.mp found
    obtain ⟨identity, hashed, segment⟩ := h.listed found
    refine ⟨identity, hashed, RefTables.release_bySegment_eq_some.mpr ⟨?_, segment⟩⟩
    -- a released reference in the same place is this one, so it has this version
    rintro ⟨listed, ref', released, sameSegment, sameID⟩
    obtain ⟨⟨bucket, key, version, refID'⟩, -, segment'⟩ := h.listed released
    rw [sameSegment, ← refID', sameID, segment] at segment'
    rw [← Option.some.inj segment'] at bucket key version
    obtain ⟨rfl, rfl, rfl, -⟩ := identity
    exact other ⟨bucket, key, version⟩
  filed {segmentID refID ref} found := by
    obtain ⟨kept, found⟩ := RefTables.release_bySegment_eq_some.mp found
    obtain ⟨sameSegment, listed⟩ := h.filed found
    refine ⟨sameSegment, RefTables.release_byVersion_eq_some.mpr ⟨?_, listed⟩⟩
    rintro ⟨bucket, key, version⟩
    rw [bucket, key, version] at listed
    exact kept ⟨refID, ref, listed, sameSegment, (h.listed listed).1.2.2.2⟩
  hashed found := h.hashed (RefTables.release_byVersion_eq_some.mp found).2

theorem RefTables.set_byVersion {ref' : ProtectedRef}
    (found : (T.set ref).byVersion b k id refID = some ref') :
    (b = ref.bucketID ∧ k = ref.key ∧ id = ref.versionID ∧ refID = ref.refID) ∧ ref = ref' ∨
      ¬ (b = ref.bucketID ∧ k = ref.key ∧ id = ref.versionID ∧ refID = ref.refID) ∧
        T.byVersion b k id refID = some ref' := by
  by_cases here : b = ref.bucketID ∧ k = ref.key ∧ id = ref.versionID ∧ refID = ref.refID
  · exact .inl ⟨here, Option.some.inj ((if_pos here).symm.trans found)⟩
  · exact .inr ⟨here, (if_neg here).symm.trans found⟩

theorem RefTables.set_bySegment {ref' : ProtectedRef}
    (found : (T.set ref).bySegment segmentID refID = some ref') :
    (segmentID = ref.segmentID ∧ refID = ref.refID) ∧ ref = ref' ∨
      ¬ (segmentID = ref.segmentID ∧ refID = ref.refID) ∧
        T.bySegment segmentID refID = some ref' := by
  by_cases here : segmentID = ref.segmentID ∧ refID = ref.refID
  · exact .inl ⟨here, Option.some.inj ((if_pos here).symm.trans found)⟩
  · exact .inr ⟨here, (if_neg here).symm.trans found⟩

/-- A reference for one more segment. Nothing else may be filed in its place. -/
theorem Filed.set (h : Filed platform X T) (hash : Set.InjOn platform.sha256Hex X)
    (hashed : ref.refID = refIDOf platform ref.bucketID ref.key ref.versionID ref.segmentID)
    (text : refText ref.bucketID ref.key ref.versionID ref.segmentID ∈ X)
    (own : ∀ old, T.bySegment ref.segmentID ref.refID = some old →
      old.bucketID = ref.bucketID ∧ old.key = ref.key ∧ old.versionID = ref.versionID) :
    Filed platform X (T.set ref) where
  listed {b k id refID ref'} found := by
    rcases RefTables.set_byVersion found with ⟨⟨rfl, rfl, rfl, rfl⟩, rfl⟩ | ⟨elsewhere, found⟩
    · exact ⟨⟨rfl, rfl, rfl, rfl⟩, hashed, if_pos ⟨rfl, rfl⟩⟩
    · obtain ⟨identity, hashed', segment⟩ := h.listed found
      refine ⟨identity, hashed', (if_neg ?_).trans segment⟩
      rintro ⟨sameSegment, rfl⟩
      rw [sameSegment] at segment
      obtain ⟨bucket, key, version⟩ := own ref' segment
      obtain ⟨rfl, rfl, rfl, -⟩ := identity
      exact elsewhere ⟨bucket, key, version, rfl⟩
  filed {segmentID refID ref'} found := by
    rcases RefTables.set_bySegment found with ⟨⟨rfl, rfl⟩, rfl⟩ | ⟨elsewhere, found⟩
    · exact ⟨rfl, if_pos ⟨rfl, rfl, rfl, rfl⟩⟩
    · obtain ⟨sameSegment, listed⟩ := h.filed found
      refine ⟨sameSegment, (if_neg ?_).trans listed⟩
      rintro ⟨bucket, key, version, rfl⟩
      -- the id is the hash of the segment, so the segment is the same
      obtain ⟨-, hashed', -⟩ := h.listed listed
      have text' := h.hashed listed
      rw [bucket, key, version] at hashed' text'
      rw [hashed] at hashed'
      have same : ref.segmentID = ref'.segmentID := refIDOf_inj hash text text' hashed'
      exact elsewhere ⟨sameSegment.symm.trans same.symm, rfl⟩
  hashed {b k id refID ref'} found := by
    rcases RefTables.set_byVersion found with ⟨⟨rfl, rfl, rfl, rfl⟩, rfl⟩ | ⟨-, found⟩
    · exact text
    · exact h.hashed found

/-! ## References of one version -/

theorem RefTables.setAll_cons (v : ObjectVersion) (segmentRef : SegmentRef)
    (rest : List SegmentRef) : T.setAll platform v now (segmentRef :: rest) =
      (if segmentRef.segmentID ≠ "" then T.set (protectedRefFromVersion platform v segmentRef now)
        else T).setAll platform v now rest :=
  rfl

variable {segments : List SegmentRef}

/-- The texts of the segments are among those hashed. -/
def Hashes (X : Set Bytes) (v : ObjectVersion) (segments : List SegmentRef) : Prop :=
  ∀ segmentRef ∈ segments, segmentRef.segmentID ≠ "" →
    refText v.bucketID v.key v.versionID segmentRef.segmentID ∈ X

theorem Hashes.tail {segmentRef : SegmentRef} (hashes : Hashes X v (segmentRef :: segments)) :
    Hashes X v segments :=
  fun other member => hashes other (List.mem_cons_of_mem _ member)

/-- The references of the other versions are not touched. -/
theorem RefTables.setAll_other (other : ¬ (b = v.bucketID ∧ k = v.key ∧ id = v.versionID)) :
    (T.setAll platform v now segments).byVersion b k id refID = T.byVersion b k id refID := by
  induction segments generalizing T with
  | nil => rfl
  | cons segmentRef rest ih =>
    rw [setAll_cons, ih]
    split
    · exact if_neg fun all => other ⟨all.1, all.2.1, all.2.2.1⟩
    · rfl

/-- A reference of the version is an old one or made for one of the segments. -/
theorem RefTables.setAll_own
    (found : (T.setAll platform v now segments).byVersion v.bucketID v.key v.versionID refID =
      some ref) :
    T.byVersion v.bucketID v.key v.versionID refID = some ref ∨
      ∃ segmentRef ∈ segments, segmentRef.segmentID ≠ "" ∧
        ref = protectedRefFromVersion platform v segmentRef now := by
  induction segments generalizing T with
  | nil => exact .inl found
  | cons segmentRef rest ih =>
    rw [setAll_cons] at found
    rcases ih found with old | ⟨made, member, made'⟩
    · split at old
      · rename_i named
        change (if v.bucketID = v.bucketID ∧ v.key = v.key ∧ v.versionID = v.versionID ∧
          refID = protectedRefID platform v segmentRef then _ else _) = some ref at old
        split at old
        · exact .inr ⟨segmentRef, List.mem_cons_self, named, (Option.some.inj old).symm⟩
        · exact .inl old
      · exact .inl old
    · exact .inr ⟨made, List.mem_cons_of_mem _ member, made'⟩

/-- The version has a reference for the segment. -/
def RefTables.Covers (T : RefTables) (platform : Platform) (v : ObjectVersion) (now : Time)
    (segmentID : String) : Prop :=
  ∃ made, made.segmentID = segmentID ∧ T.byVersion v.bucketID v.key v.versionID
    (refIDOf platform v.bucketID v.key v.versionID segmentID) =
      some (protectedRefFromVersion platform v made now)

theorem RefTables.Covers.set (covers : T.Covers platform v now segmentID)
    (hash : Set.InjOn platform.sha256Hex X) {segmentRef : SegmentRef}
    (text : refText v.bucketID v.key v.versionID segmentID ∈ X)
    (text' : refText v.bucketID v.key v.versionID segmentRef.segmentID ∈ X) :
    (T.set (protectedRefFromVersion platform v segmentRef now)).Covers platform v now
      segmentID := by
  obtain ⟨made, same, found⟩ := covers
  by_cases again : segmentRef.segmentID = segmentID
  · refine ⟨segmentRef, again, if_pos ⟨rfl, rfl, rfl, ?_⟩⟩
    rw [← again]
    rfl
  · refine ⟨made, same, (if_neg ?_).trans found⟩
    rintro ⟨-, -, -, taken⟩
    exact again (refIDOf_inj hash text text' taken).symm

theorem RefTables.Covers.setAll (covers : T.Covers platform v now segmentID)
    (hash : Set.InjOn platform.sha256Hex X)
    (text : refText v.bucketID v.key v.versionID segmentID ∈ X) (hashes : Hashes X v segments) :
    (T.setAll platform v now segments).Covers platform v now segmentID := by
  induction segments generalizing T with
  | nil => exact covers
  | cons segmentRef rest ih =>
    rw [setAll_cons]
    split
    · rename_i named
      exact ih (covers.set hash text (hashes segmentRef List.mem_cons_self named)) hashes.tail
    · exact ih covers hashes.tail

/-- Every segment with an id gets a reference. -/
theorem RefTables.setAll_covers (hash : Set.InjOn platform.sha256Hex X)
    (hashes : Hashes X v segments) {segmentRef : SegmentRef} (member : segmentRef ∈ segments)
    (named : segmentRef.segmentID ≠ "") :
    (T.setAll platform v now segments).Covers platform v now segmentRef.segmentID := by
  induction segments generalizing T with
  | nil => exact absurd member List.not_mem_nil
  | cons first rest ih =>
    rw [setAll_cons]
    rcases List.mem_cons.mp member with rfl | later
    · rw [if_pos named]
      refine RefTables.Covers.setAll ⟨segmentRef, rfl, ?_⟩ hash (hashes segmentRef member named)
        hashes.tail
      exact if_pos ⟨rfl, rfl, rfl, rfl⟩
    · exact ih hashes.tail later

/-! ## The invariant -/

/-- The references of one version agree with the version, from `now` on. -/
structure VersionSound (now : Time) (entry : Option Held) (refs : String → Option ProtectedRef) :
    Prop where
  readable : ∀ {held}, entry = some held → held.segments ≠ none
  known : ∀ {refID}, refs refID ≠ none → entry ≠ none
  covered : ∀ {held segments segmentRef}, entry = some held → held.data.state = .committed →
    held.data.protectedByObjectLock now false = true → held.segments = some segments →
    segmentRef ∈ segments → segmentRef.segmentID ≠ "" →
    ∃ refID ref, refs refID = some ref ∧ ref.segmentID = segmentRef.segmentID ∧
      ∀ later, protectedRefActive ref later = held.data.protectedByObjectLock later false
  backed : ∀ {refID ref later}, refs refID = some ref → now ≤ later →
    protectedRefActive ref later = true →
    ∃ held segments, entry = some held ∧ held.data.state = .committed ∧
      held.data.protectedByObjectLock later false = true ∧ held.segments = some segments ∧
      ∃ segmentRef ∈ segments, segmentRef.segmentID = ref.segmentID

theorem VersionSound.absent : VersionSound now none fun _ => none where
  readable found := nomatch found
  known present := absurd rfl present
  covered found := nomatch found
  backed found := nomatch found

theorem VersionSound.mono {entry : Option Held} {refs : String → Option ProtectedRef}
    (h : VersionSound now entry refs) (le : now ≤ later) :
    VersionSound later entry refs where
  readable := h.readable
  known := h.known
  covered stored committed locked :=
    h.covered stored committed (ObjectVersion.protectedByObjectLock_earlier le locked)
  backed found after := h.backed found (le.trans after)

/-- The protected references agree with the versions, from `now` on. -/
structure RefsSound (platform : Platform) (ids : Set String) (X : Set Bytes) (now : Time)
    (H : Holdings) : Prop where
  issued : ∀ {b k id}, H.version b k id ≠ none → id ∈ ids
  unique : ∀ {b k b' k' id}, H.version b k id ≠ none → H.version b' k' id ≠ none → b' = b ∧ k' = k
  filed : Filed platform X H.refs
  each : ∀ b k id, VersionSound now (H.version b k id) (H.refs.byVersion b k id)

theorem RefsSound.empty : RefsSound platform ids X now (holdings ∅) where
  issued present := absurd rfl present
  unique present := absurd rfl present
  filed := { listed := (nomatch ·), filed := (nomatch ·), hashed := (nomatch ·) }
  each _ _ _ := .absent

theorem RefsSound.mono {ids' : Set String} (h : RefsSound platform ids X now H) (more : ids ⊆ ids')
    (le : now ≤ later) : RefsSound platform ids' X later H where
  issued present := more (h.issued present)
  unique := h.unique
  filed := h.filed
  each b k id := (h.each b k id).mono le

/-! ## Moves -/

variable {T : RefTables}

/-- A version is stored, and the references of other versions stay. -/
theorem RefsSound.store (h : RefsSound platform ids X now H) (issued : v.versionID ∈ ids)
    (unique : ∀ {b k}, H.version b k v.versionID ≠ none → b = v.bucketID ∧ k = v.key)
    (filed : Filed platform X T)
    (others : ∀ {b k id}, ¬ (b = v.bucketID ∧ k = v.key ∧ id = v.versionID) →
      T.byVersion b k id = H.refs.byVersion b k id)
    (own : VersionSound now (some ⟨metadata v, some v.allSegmentRefs⟩)
      (T.byVersion v.bucketID v.key v.versionID)) :
    RefsSound platform ids X now ⟨(H.put v).version, T⟩ where
  issued {b k id} present := by
    by_cases here : b = v.bucketID ∧ k = v.key ∧ id = v.versionID
    · rwa [here.2.2]
    · rw [Holdings.put_other H here] at present
      exact h.issued present
  unique {b k b' k' id} present present' := by
    by_cases same : id = v.versionID
    · subst same
      have place {b k} (present : (H.put v).version b k v.versionID ≠ none) :
          b = v.bucketID ∧ k = v.key := by
        by_cases here : b = v.bucketID ∧ k = v.key ∧ v.versionID = v.versionID
        · exact ⟨here.1, here.2.1⟩
        · rw [Holdings.put_other H here] at present
          exact unique present
      obtain ⟨bucket, key⟩ := place present
      obtain ⟨bucket', key'⟩ := place present'
      exact ⟨bucket'.trans bucket.symm, key'.trans key.symm⟩
    · rw [Holdings.put_other H fun here => same here.2.2] at present present'
      exact h.unique present present'
  filed := filed
  each b k id := by
    by_cases here : b = v.bucketID ∧ k = v.key ∧ id = v.versionID
    · obtain ⟨rfl, rfl, rfl⟩ := here
      simpa [Holdings.put] using own
    · rw [Holdings.put_other H here, others here]
      exact h.each b k id

/-- An id in use has one place. -/
theorem RefsSound.place (h : RefsSound platform ids X now H)
    (known : H.version b k id ≠ none ∨ ∀ b k, H.version b k id = none)
    (present : H.version b' k' id ≠ none) : b' = b ∧ k' = k := by
  rcases known with here | nowhere
  · exact h.unique here present
  · exact absurd (nowhere b' k') present

/-- A version that is not under object lock needs no references. -/
theorem VersionSound.unlocked
    (free : v.state = .pending ∨ v.protectedByObjectLock now false = false) :
    VersionSound now (some ⟨metadata v, some v.allSegmentRefs⟩) fun _ => none where
  readable found := by
    cases found
    exact Option.some_ne_none _
  known present := absurd rfl present
  covered found committed locked := by
    cases found
    rcases free with pending | free
    · exact nomatch committed.symm.trans pending
    · exact nomatch locked.symm.trans free
  backed found := nomatch found

theorem RefsSound.add (h : RefsSound platform ids X now H) (issued : v.versionID ∈ ids)
    (fresh : ∀ b k, H.version b k v.versionID = none)
    (free : v.state = .pending ∨ v.protectedByObjectLock now false = false) :
    RefsSound platform ids X now (H.put v) := by
  have bare : H.refs.byVersion v.bucketID v.key v.versionID = fun _ => none := by
    funext refID
    by_contra present
    exact (h.each _ _ _).known present (fresh _ _)
  refine h.store issued (h.place (.inr fresh)) h.filed (fun _ => rfl) ?_
  rw [bare]
  exact .unlocked free

theorem RefsSound.amend (h : RefsSound platform ids X now H) {held : Held}
    (stored : H.version v.bucketID v.key v.versionID = some held)
    (state : v.state = held.data.state) (lock : v.deleteMarker = held.data.deleteMarker ∧
      v.objectLockRetention = held.data.objectLockRetention ∧
      v.objectLockLegalHold = held.data.objectLockLegalHold)
    (segments : held.segments = some v.allSegmentRefs ∨
      v.protectedByObjectLock now false = false) : RefsSound platform ids X now (H.put v) := by
  have present : H.version v.bucketID v.key v.versionID ≠ none := by simp [stored]
  have locks (time : Time) : held.data.protectedByObjectLock time false =
      (metadata v).protectedByObjectLock time false := by
    unfold ObjectVersion.protectedByObjectLock
    rw [← lock.1, ← lock.2.1, ← lock.2.2]
    rfl
  have same : (metadata v).protectedByObjectLock now false = true →
      held.segments = some v.allSegmentRefs := by
    intro locked
    exact segments.resolve_right fun free => nomatch locked.symm.trans free
  have own := h.each v.bucketID v.key v.versionID
  refine h.store (h.issued present) (h.place (.inl present)) h.filed (fun _ => rfl) ?_
  constructor
  · intro _ found
    cases found
    exact Option.some_ne_none _
  · exact fun _ => Option.some_ne_none _
  · intro _ _ segmentRef found committed locked listed member named
    cases found
    cases listed
    obtain ⟨refID, ref, filed, segment, active⟩ := own.covered stored (state.symm.trans committed)
      ((locks now).trans locked) (same locked) member named
    exact ⟨refID, ref, filed, segment, fun later => (active later).trans (locks later)⟩
  · intro refID ref later filed le active
    obtain ⟨held', listed, stored', committed, locked, segments, covered⟩ :=
      own.backed filed le active
    cases stored.symm.trans stored'
    rw [locks later] at locked
    have unchanged := same (ObjectVersion.protectedByObjectLock_earlier le locked)
    rw [unchanged] at segments
    cases segments
    exact ⟨_, _, rfl, state.trans committed, locked, rfl, covered⟩

theorem RefsSound.drop (h : RefsSound platform ids X now H) (b k id : String) :
    RefsSound platform ids X now (H.drop b k id) where
  issued present := h.issued (Holdings.of_drop present)
  unique present present' := h.unique (Holdings.of_drop present) (Holdings.of_drop present')
  filed := h.filed.release b k id
  each b' k' id' := by
    by_cases here : b' = b ∧ k' = k ∧ id' = id
    · have bare : (H.drop b k id).refs.byVersion b' k' id' = fun _ => none :=
        funext fun _ => if_pos here
      have gone : (H.drop b k id).version b' k' id' = none := if_pos here
      rw [bare, gone]
      exact .absent
    · have kept : (H.drop b k id).refs.byVersion b' k' id' = H.refs.byVersion b' k' id' :=
        funext fun _ => if_neg here
      have present : (H.drop b k id).version b' k' id' = H.version b' k' id' := if_neg here
      rw [kept, present]
      exact h.each b' k' id'

/-! ### Installing a version -/

/-- The hashed text ends with the version id and the segment id, so an id without zero bytes can
be read back. -/
theorem versionID_of_refIDOf (hash : Set.InjOn platform.sha256Hex X) {id' : String}
    (text : refText b k id segmentID ∈ X) (text' : refText b' k' id' segmentID ∈ X)
    (clean : (0 : UInt8) ∉ bytes id) (clean' : (0 : UInt8) ∉ bytes id')
    (same : refIDOf platform b k id segmentID = refIDOf platform b' k' id' segmentID) :
    id = id' := by
  have joined := List.append_cancel_right (hash text text' same)
  rcases List.append_eq_append_iff.mp joined with ⟨gap, -, tail⟩ | ⟨gap, -, tail⟩
  · cases gap with
    | nil => exact bytes_inj.mp (List.cons.inj tail).2
    | cons c gap =>
      have tail : bytes id = gap ++ 0 :: bytes id' := (List.cons.inj tail).2
      rw [tail] at clean
      simp at clean
  · cases gap with
    | nil => exact bytes_inj.mp (List.cons.inj tail).2.symm
    | cons c gap =>
      have tail : bytes id' = gap ++ 0 :: bytes id := (List.cons.inj tail).2
      rw [tail] at clean'
      simp at clean'

/-- The tables of an installation stay filed: only the version itself has references in the
places of its new ones. -/
theorem Filed.setAll (h : Filed platform X T) (hash : Set.InjOn platform.sha256Hex X)
    (hashes : Hashes X v segments)
    (own : ∀ {segmentID old}, refText v.bucketID v.key v.versionID segmentID ∈ X →
      T.bySegment segmentID (refIDOf platform v.bucketID v.key v.versionID segmentID) = some old →
        old.bucketID = v.bucketID ∧ old.key = v.key ∧ old.versionID = v.versionID) :
    Filed platform X (T.setAll platform v now segments) := by
  induction segments generalizing T with
  | nil => exact h
  | cons segmentRef rest ih =>
    rw [RefTables.setAll_cons]
    split
    · rename_i named
      have text := hashes segmentRef List.mem_cons_self named
      refine ih (h.set hash rfl text fun old found => own text found) hashes.tail ?_
      intro segmentID old text' found
      rcases RefTables.set_bySegment found with ⟨-, rfl⟩ | ⟨-, found⟩
      · exact ⟨rfl, rfl, rfl⟩
      · exact own text' found
    · exact ih h hashes.tail own

theorem VersionSound.synced (hash : Set.InjOn platform.sha256Hex X)
    (hashes : HasLock v → Hashes X v v.allSegmentRefs) (committed : v.state = .committed) :
    VersionSound now (some ⟨metadata v, some v.allSegmentRefs⟩)
      ((T.sync platform v now).byVersion v.bucketID v.key v.versionID) := by
  have released (refID : String) :
      (T.release v.bucketID v.key v.versionID).byVersion v.bucketID v.key v.versionID refID = none :=
    if_pos ⟨rfl, rfl, rfl⟩
  unfold RefTables.sync
  split
  · rename_i locked
    have live : v.deleteMarker = false := by
      by_contra marked
      simp [ObjectVersion.protectedByObjectLock, objectLockProtected, marked] at locked
    have same (segmentRef : SegmentRef) (later : Time) :
        protectedRefActive (protectedRefFromVersion platform v segmentRef now) later =
          (metadata v).protectedByObjectLock later false := by
      simp only [protectedRefActive, ObjectVersion.protectedByObjectLock, objectLockProtected,
        protectedRefFromVersion, metadata, live, Bool.false_eq_true, if_false]
      refine if_congr Iff.rfl rfl (if_congr Iff.rfl rfl (if_congr Iff.rfl rfl ?_))
      by_cases before : later < v.objectLockRetention.retainUntilDate
      · simp only [before, decide_true, not_true, if_false]
        cases v.objectLockRetention.mode <;> rfl
      · simp [before]
    constructor
    · intro _ found
      cases found
      exact Option.some_ne_none _
    · exact fun _ => Option.some_ne_none _
    · intro _ _ segmentRef found _ _ listed member named
      cases found
      cases listed
      have covers : ((T.release v.bucketID v.key v.versionID).setAll platform v now
          v.allSegmentRefs).Covers platform v now segmentRef.segmentID :=
        RefTables.setAll_covers hash (hashes (hasLock_of_protected locked)) member named
      obtain ⟨made, segment, filed⟩ := covers
      exact ⟨_, _, filed, segment, same made⟩
    · intro refID ref later found le active
      rcases RefTables.setAll_own found with old | ⟨segmentRef, member, named, rfl⟩
      · exact nomatch old.symm.trans (released refID)
      · exact ⟨_, _, rfl, committed, (same segmentRef later).symm.trans active, rfl, segmentRef,
          member, rfl⟩
  · rename_i free
    have bare : (T.release v.bucketID v.key v.versionID).byVersion v.bucketID v.key v.versionID =
        fun _ => none := funext released
    rw [bare]
    exact .unlocked (.inr (Bool.eq_false_iff.mpr free))

theorem RefsSound.install (h : RefsSound platform ids X now H)
    (hash : Set.InjOn platform.sha256Hex X) (clean : ∀ id ∈ ids, (0 : UInt8) ∉ bytes id)
    (issued : v.versionID ∈ ids) (committed : v.state = .committed)
    (known : H.version v.bucketID v.key v.versionID ≠ none ∨
      ∀ b k, H.version b k v.versionID = none)
    (hashes : HasLock v → Hashes X v v.allSegmentRefs) :
    RefsSound platform ids X now (H.install platform v now) := by
  have released := h.filed.release v.bucketID v.key v.versionID
  -- a reference in the place of a new one has the id of the version, and the version is unique
  have own {segmentID : String} {old : ProtectedRef}
      (text : refText v.bucketID v.key v.versionID segmentID ∈ X)
      (found : (H.refs.release v.bucketID v.key v.versionID).bySegment segmentID
        (refIDOf platform v.bucketID v.key v.versionID segmentID) = some old) :
      old.bucketID = v.bucketID ∧ old.key = v.key ∧ old.versionID = v.versionID := by
    obtain ⟨rfl, listed⟩ := released.filed found
    obtain ⟨-, hashed, -⟩ := released.listed listed
    have present := (RefTables.release_byVersion_eq_some.mp listed).2
    have stored : H.version old.bucketID old.key old.versionID ≠ none :=
      (h.each _ _ _).known (by rw [present]; exact Option.some_ne_none _)
    have same : old.versionID = v.versionID := versionID_of_refIDOf hash (released.hashed listed)
      text (clean _ (h.issued stored)) (clean _ issued) hashed.symm
    rw [same] at stored
    obtain ⟨bucket, key⟩ := h.place known stored
    exact ⟨bucket, key, same⟩
  refine h.store issued (h.place known) ?_ ?_ (.synced hash hashes committed)
  · unfold RefTables.sync
    split
    · rename_i locked
      exact released.setAll hash (hashes (hasLock_of_protected locked)) own
    · exact released
  · intro b k id other
    unfold RefTables.sync
    funext refID
    split
    · rw [RefTables.setAll_other other]
      exact if_neg other
    · exact if_neg other

/-- Every move keeps the references sound. -/
theorem RefsSound.move (h : RefsSound platform ids X now H)
    (hash : Set.InjOn platform.sha256Hex X)
    (clean : ∀ id ∈ ids, (0 : UInt8) ∉ bytes id) (move : Move platform ids X now H H') :
    RefsSound platform ids X now H' := by
  cases move with
  | add v issued fresh free => exact h.add issued fresh free
  | install v issued committed known hashed =>
    exact h.install hash clean issued committed known hashed
  | amend v held stored state lock segments => exact h.amend stored state lock segments
  | drop b k id => exact h.drop b k id

theorem RefsSound.moves {s t : Store} (h : RefsSound platform ids X now (holdings s))
    (hash : Set.InjOn platform.sha256Hex X)
    (clean : ∀ id ∈ ids, (0 : UInt8) ∉ bytes id) (moves : Moves platform ids X now s t) :
    RefsSound platform ids X now (holdings t) := by
  unfold Moves at moves
  generalize holdings t = H at moves
  induction moves with
  | refl => exact h
  | tail _ move ih => exact ih.move hash clean move

end Namros.Index
