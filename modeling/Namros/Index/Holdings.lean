import Mathlib.Data.Set.List
import Mathlib.Logic.Relation
import Namros.Index.Segments
import Namros.Index.Versions

/-!
# What the repository holds

The part of a store that object lock and segment cleanup depend on: every version with its
segments, and the two tables of protected references. Each object call takes the holdings
through a few moves: a version is added, installed with its references, amended without
touching them, or dropped together with them.
-/

namespace Namros.Index

open Library Source Transaction

/-! ## Tables -/

/-- A stored version: its data and, when its manifest can be read, its segments. -/
structure Held where
  data : ObjectVersion
  segments : Option (List SegmentRef)

/-- The protected references by version and by segment. -/
@[ext]
structure RefTables where
  byVersion : String → String → String → String → Option ProtectedRef
  bySegment : String → String → Option ProtectedRef

/-- The versions and the protected references of a store. -/
@[ext]
structure Holdings where
  version : String → String → String → Option Held
  refs : RefTables

def refTables (s : Store) : RefTables where
  byVersion b k id refID := s.lookup (.protectedRefByVersion b k id refID)
  bySegment segmentID refID := s.lookup (.protectedRefBySegment segmentID refID)

def heldVersion (s : Store) (b k id : String) : Option Held :=
  ((objectIndex s).version b k id).map fun data => ⟨data, versionSegments s b k id⟩

def holdings (s : Store) : Holdings where
  version := heldVersion s
  refs := refTables s

namespace RefTables

/-- The references of one version disappear from both tables. -/
noncomputable def release (T : RefTables) (b k id : String) : RefTables where
  byVersion b' k' id' refID :=
    if b' = b ∧ k' = k ∧ id' = id then none else T.byVersion b' k' id' refID
  bySegment segmentID refID :=
    open Classical in
    if ∃ listed ref, T.byVersion b k id listed = some ref ∧ ref.segmentID = segmentID ∧
      ref.refID = refID then none else T.bySegment segmentID refID

/-- One reference in both tables. -/
def set (T : RefTables) (ref : ProtectedRef) : RefTables where
  byVersion b k id refID :=
    if b = ref.bucketID ∧ k = ref.key ∧ id = ref.versionID ∧ refID = ref.refID then some ref
    else T.byVersion b k id refID
  bySegment segmentID refID :=
    if segmentID = ref.segmentID ∧ refID = ref.refID then some ref
    else T.bySegment segmentID refID

/-- A reference for each of the segments that has an id. -/
def setAll (T : RefTables) (platform : Platform) (v : ObjectVersion) (now : Time)
    (segments : List SegmentRef) : RefTables :=
  segments.foldl (fun T segmentRef =>
    if segmentRef.segmentID ≠ "" then T.set (protectedRefFromVersion platform v segmentRef now)
    else T) T

/-- The references of one version, renewed. -/
noncomputable def sync (T : RefTables) (platform : Platform) (v : ObjectVersion) (now : Time) :
    RefTables :=
  let released := T.release v.bucketID v.key v.versionID
  if v.protectedByObjectLock now false then released.setAll platform v now v.allSegmentRefs
  else released

end RefTables

variable {v : ObjectVersion} {b k id : String}

namespace Holdings

/-- A version is stored. -/
def put (H : Holdings) (v : ObjectVersion) : Holdings where
  version b k id :=
    if b = v.bucketID ∧ k = v.key ∧ id = v.versionID then
      some ⟨metadata v, some v.allSegmentRefs⟩
    else H.version b k id
  refs := H.refs

/-- A version is stored and its references are renewed. -/
noncomputable def install (H : Holdings) (platform : Platform) (v : ObjectVersion) (now : Time) :
    Holdings where
  version := (H.put v).version
  refs := H.refs.sync platform v now

/-- A version is removed together with its references. -/
noncomputable def drop (H : Holdings) (b k id : String) : Holdings where
  version b' k' id' := if b' = b ∧ k' = k ∧ id' = id then none else H.version b' k' id'
  refs := H.refs.release b k id

theorem put_other (H : Holdings) (other : ¬ (b = v.bucketID ∧ k = v.key ∧ id = v.versionID)) :
    (H.put v).version b k id = H.version b k id :=
  if_neg other

theorem of_drop {H : Holdings} {b' k' id' : String}
    (present : (H.drop b k id).version b' k' id' ≠ none) : H.version b' k' id' ≠ none := by
  intro absent
  simp [drop, absent] at present

end Holdings

variable {platform : Platform} {context : CallContext} {s t : Store}

/-! ## The tables of a store -/

theorem refTables_of_agree (agree : Agree protectedRefKey t s) : refTables t = refTables s := by
  unfold refTables
  congr 1
  · funext b k id refID
    exact agree _ trivial
  · funext segmentID refID
    exact agree _ trivial

theorem refTables_insert (ref : ProtectedRef) (s : Store) :
    refTables ((s.insert (.protectedRefByVersion ref.bucketID ref.key ref.versionID ref.refID)
      ref).insert (.protectedRefBySegment ref.segmentID ref.refID) ref) =
      (refTables s).set ref := by
  unfold refTables RefTables.set
  congr 1
  · funext b k id refID
    rw [lookup_insert_ne _ (by simp)]
    split
    · rename_i here
      obtain ⟨rfl, rfl, rfl, rfl⟩ := here
      exact lookup_insert_self _
    · rename_i elsewhere
      exact lookup_insert_ne _ (by simpa using elsewhere)
  · funext segmentID refID
    split
    · rename_i here
      obtain ⟨rfl, rfl⟩ := here
      exact lookup_insert_self _
    · rename_i elsewhere
      rw [lookup_insert_ne _ (by simpa using elsewhere), lookup_insert_ne _ (by simp)]

variable {u : Unit}

theorem setProtectedRefs_tables {now : Time} {segments : List SegmentRef}
    (ran : (setProtectedRefs platform v now v.key segments).run s = .ok (u, t)) :
    refTables t = (refTables s).setAll platform v now segments := by
  induction segments generalizing s with
  | nil =>
    cases ran
    rfl
  | cons segmentRef rest ih =>
    obtain ⟨_, s₁, step, ran⟩ := of_bind ran
    rw [ih ran]
    change _ = RefTables.setAll (if segmentRef.segmentID ≠ "" then _ else _) _ _ _ _
    unfold onlyIf at step
    split at step
    · cases step
      rw [if_pos ‹_›]
      exact congrArg (·.setAll platform v now rest)
        (refTables_insert (protectedRefFromVersion platform v segmentRef now) s)
    · cases step
      rw [if_neg ‹_›]

/-! ### Releasing the references of a version -/

section Release

variable {b k id : String}

/-- One visited reference is gone from the table of its version. -/
theorem deleteProtectedRef_byVersion (refID : String) (s : Store) (b' k' id' other : String) :
    (refTables (deleteProtectedRef (.protectedRefByVersion b k id refID) s)).byVersion
        b' k' id' other =
      if b' = b ∧ k' = k ∧ id' = id ∧ other = refID then none
      else (refTables s).byVersion b' k' id' other := by
  change (deleteProtectedRef _ s).lookup (.protectedRefByVersion b' k' id' other) = _
  unfold deleteProtectedRef
  dsimp only
  split
  · split
    · rename_i here
      obtain ⟨rfl, rfl, rfl, rfl⟩ := here
      exact lookup_erase_self
    · rename_i elsewhere
      rw [lookup_erase_ne (by simpa using elsewhere), lookup_erase_ne (by simp)]
      rfl
  · split
    · rename_i here
      obtain ⟨rfl, rfl, rfl, rfl⟩ := here
      exact lookup_erase_self
    · rename_i elsewhere
      exact lookup_erase_ne (by simpa using elsewhere)

open Classical in
/-- It is gone from the table of its segment too. -/
theorem deleteProtectedRef_bySegment (refID : String) (s : Store) (segmentID other : String) :
    (refTables (deleteProtectedRef (.protectedRefByVersion b k id refID) s)).bySegment
        segmentID other =
      if ∃ ref, (refTables s).byVersion b k id refID = some ref ∧ ref.segmentID = segmentID ∧
        ref.refID = other then none
      else (refTables s).bySegment segmentID other := by
  change (deleteProtectedRef _ s).lookup (.protectedRefBySegment segmentID other) = _
  unfold deleteProtectedRef
  dsimp only
  cases found : s.lookup (.protectedRefByVersion b k id refID) with
  | none =>
    dsimp only
    rw [if_neg, lookup_erase_ne (by simp)]
    · rfl
    · rintro ⟨ref, stored, -⟩
      exact nomatch found.symm.trans stored
  | some ref =>
    dsimp only
    rw [lookup_erase_ne (by simp)]
    by_cases here : ref.segmentID = segmentID ∧ ref.refID = other
    · obtain ⟨rfl, rfl⟩ := here
      rw [if_pos ⟨ref, found, rfl, rfl⟩]
      exact lookup_erase_self
    rw [if_neg, lookup_erase_ne (by simpa [eq_comm] using here)]
    · rfl
    · rintro ⟨ref', stored, same⟩
      rw [← Option.some.inj (found.symm.trans stored)] at same
      exact here same

/-- The references with the listed ids are visited one after the other. -/
theorem foldl_deleteProtectedRef_byVersion (ids : List String) (s : Store)
    (b' k' id' other : String) :
    (refTables (ids.foldl (fun s refID =>
        deleteProtectedRef (.protectedRefByVersion b k id refID) s) s)).byVersion b' k' id' other =
      if b' = b ∧ k' = k ∧ id' = id ∧ other ∈ ids then none
      else (refTables s).byVersion b' k' id' other := by
  induction ids generalizing s with
  | nil => simp
  | cons refID ids ih =>
    rw [List.foldl_cons, ih, deleteProtectedRef_byVersion]
    by_cases version : b' = b ∧ k' = k ∧ id' = id
    · obtain ⟨rfl, rfl, rfl⟩ := version
      by_cases head : other = refID
      · simp [head]
      · simp [head]
    · have away : ∀ P : Prop, ¬ (b' = b ∧ k' = k ∧ id' = id ∧ P) :=
        fun P all => version ⟨all.1, all.2.1, all.2.2.1⟩
      simp only [away, if_false]

open Classical in
theorem foldl_deleteProtectedRef_bySegment (ids : List String) (s : Store)
    (segmentID other : String) :
    (refTables (ids.foldl (fun s refID =>
        deleteProtectedRef (.protectedRefByVersion b k id refID) s) s)).bySegment segmentID other =
      if ∃ refID ∈ ids, ∃ ref, (refTables s).byVersion b k id refID = some ref ∧
        ref.segmentID = segmentID ∧ ref.refID = other then none
      else (refTables s).bySegment segmentID other := by
  induction ids generalizing s with
  | nil => simp
  | cons refID ids ih =>
    rw [List.foldl_cons, ih, deleteProtectedRef_bySegment]
    simp only [deleteProtectedRef_byVersion, true_and, List.exists_mem_cons_iff]
    by_cases first : ∃ ref, (refTables s).byVersion b k id refID = some ref ∧
        ref.segmentID = segmentID ∧ ref.refID = other
    · simp only [first, if_true, true_or, ite_self]
    rw [if_neg first]
    refine if_congr ?_ rfl rfl
    simp only [first, false_or]
    refine exists_congr fun refID' => and_congr_right fun _ => exists_congr fun ref => ?_
    by_cases same : refID' = refID
    · subst same
      simp only [if_true, reduceCtorEq, false_and, false_iff]
      exact fun stored => first ⟨ref, stored⟩
    · rw [if_neg same]

theorem distinct_protectedRefs (b k id : String) (s : Store) :
    OrderedStore.Distinct keyCode
      (fun x => (protectedRefVersionPrefix b k id).isPrefixOf x) s := by
  refine distinct_of_family (fun K => (protectedRefVersionPrefix_isPrefix_iff b k id K).mp)
    (fun r r' same => ?_) s
  simpa [Key.path] using same

theorem visitsOnly_deleteProtectedRef (b k id : String) :
    OrderedStore.VisitsOnly keyCode deleteProtectedRef (protectedRefVersionPrefix b k id) := by
  intro K K' s selected differs
  obtain ⟨refID, rfl⟩ := (protectedRefVersionPrefix_isPrefix_iff b k id K').mp
    (List.isPrefixOf_iff_prefix.mp selected)
  unfold deleteProtectedRef
  split
  · split <;> simp [AList.mem_erase, differs]
  · simp [AList.mem_erase, differs]

open Classical in
theorem deleteProtectedRefsForVersion_tables
    (ran : (deleteProtectedRefsForVersion b k id).run s = .ok (u, t)) :
    refTables t = (refTables s).release b k id := by
  cases ran
  rw [(visitsOnly_deleteProtectedRef b k id).visitAll_eq (by decide)
    (distinct_protectedRefs b k id s)]
  obtain ⟨ids, listed⟩ : ∃ ids : List String, ids.map (.protectedRefByVersion b k id) =
      OrderedStore.keysWhere keyCode
        (fun x => (protectedRefVersionPrefix b k id).isPrefixOf x) s := by
    rw [← Set.mem_range, Set.range_list_map]
    intro K member
    obtain ⟨-, selected⟩ := OrderedStore.mem_keysWhere.mp member
    obtain ⟨refID, rfl⟩ := (protectedRefVersionPrefix_isPrefix_iff b k id K).mp
      (List.isPrefixOf_iff_prefix.mp selected)
    exact ⟨refID, rfl⟩
  have stored (refID : String) : refID ∈ ids ↔
      s.lookup (.protectedRefByVersion b k id refID) ≠ none := by
    have member : refID ∈ ids ↔ Key.protectedRefByVersion b k id refID ∈
        ids.map (Key.protectedRefByVersion b k id) := by
      simp
    have selected : (protectedRefVersionPrefix b k id).isPrefixOf
        (keyCode.encode (.protectedRefByVersion b k id refID)) :=
      List.isPrefixOf_iff_prefix.mpr
        ((protectedRefVersionPrefix_isPrefix_iff b k id _).mpr ⟨refID, rfl⟩)
    rw [member, listed, OrderedStore.mem_keysWhere, and_iff_left selected, Ne,
      AList.lookup_eq_none, not_not]
  rw [← listed, List.foldl_map]
  refine RefTables.ext ?_ ?_
  · funext b' k' id' refID
    rw [foldl_deleteProtectedRef_byVersion]
    change _ = if b' = b ∧ k' = k ∧ id' = id then none else (refTables s).byVersion b' k' id' refID
    by_cases version : b' = b ∧ k' = k ∧ id' = id
    · obtain ⟨rfl, rfl, rfl⟩ := version
      simp only [true_and, and_self, if_true]
      split
      · rfl
      · rename_i unlisted
        rwa [stored, not_not] at unlisted
    · rw [if_neg version, if_neg fun all => version ⟨all.1, all.2.1, all.2.2.1⟩]
  · funext segmentID refID
    rw [foldl_deleteProtectedRef_bySegment]
    refine if_congr ?_ rfl rfl
    refine exists_congr fun refID' => ⟨fun found => found.2, fun found => ⟨?_, found⟩⟩
    obtain ⟨ref, present, -⟩ := found
    rw [stored]
    exact fun absent => nomatch absent.symm.trans present

end Release

theorem syncProtectedRefsForVersion_tables {now : Time}
    (ran : (syncProtectedRefsForVersion platform v now).run s = .ok (u, t)) :
    refTables t = (refTables s).sync platform v now := by
  obtain ⟨_, s₁, released, ran⟩ := of_bind ran
  unfold RefTables.sync
  rw [← deleteProtectedRefsForVersion_tables released]
  unfold onlyIf at ran
  dsimp only
  split at ran
  · rename_i held
    rw [if_pos held, setProtectedRefs_tables ran]
  · rename_i free
    cases ran
    rw [if_neg free]

/-! ## The holdings of a store -/

theorem held_iff {held : Held} :
    (holdings s).version b k id = some held ↔
      ∃ v, s.lookup (.objectVersion b k id) = some v ∧ held = ⟨metadata v, segmentsOf s v⟩ := by
  change ((s.lookup (.objectVersion b k id)).map metadata).map
    (fun data => (⟨data, (s.lookup (.objectVersion b k id)).bind (segmentsOf s)⟩ : Held)) = _ ↔ _
  cases s.lookup (.objectVersion b k id) <;> simp [eq_comm]

theorem segmentsOf_eq_some {segments : List SegmentRef} :
    segmentsOf s v = some segments ↔
      ∃ full, hydrateWith (chunksOf s v) v = .ok full ∧ full.allSegmentRefs = segments := by
  unfold segmentsOf
  cases hydrateWith (chunksOf s v) v <;> simp [Except.toOption]

/-- The records the holdings are read from. -/
def holdingKey (k : Key) : Prop := segmentKey k ∨ protectedRefKey k

theorem holdings_of_agree (agree : Agree holdingKey t s) : holdings t = holdings s := by
  have versions : (objectIndex t).version = (objectIndex s).version := by
    funext b k id
    exact congrArg (Option.map metadata) (agree (.objectVersion b k id) (.inl trivial))
  have segments := versionSegments_of_agree (agree.mono fun _ segment => .inl segment)
  refine Holdings.ext ?_ (refTables_of_agree (agree.mono fun _ ref => .inr ref))
  funext b k id
  simp only [holdings, heldVersion, versions, segments]

theorem holdings_of_keeps {α : Type} {body : Tx α} {a : α} {P : Key → Prop}
    (keeps : Writes P body) (outside : ∀ k, holdingKey k → ¬ P k)
    (ran : body.run s = .ok (a, t)) : holdings t = holdings s :=
  holdings_of_agree ((keeps _ _ _ ran).mono outside)

theorem headKey_unheld (k : Key) : holdingKey k → ¬ headKey k := by
  cases k <;> simp [holdingKey, segmentKey, protectedRefKey, headKey]

theorem auditKey_unheld (k : Key) : holdingKey k → ¬ auditKey k := by
  cases k <;> simp [holdingKey, segmentKey, protectedRefKey, auditKey]

theorem bucketKey_unheld (k : Key) : holdingKey k → ¬ bucketKey k := by
  cases k <;> simp [holdingKey, segmentKey, protectedRefKey, bucketKey]

theorem sharedObjectKey_unheld (k : Key) : holdingKey k → ¬ sharedObjectKey k := by
  cases k <;> simp [holdingKey, segmentKey, protectedRefKey, sharedObjectKey]

theorem keeps_setObjectVersion (v : ObjectVersion) :
    Keeps protectedRefKey (setObjectVersion platform v) := by
  have chunks (k : Key) : protectedRefKey k → ¬ manifestChunkKey k := by
    cases k <;> simp [protectedRefKey, manifestChunkKey]
  refine .bind (.ofOutcome _) fun plan => .bind (.onlyIf fun _ => ?_) fun _ => .bind ?_ fun _ => ?_
  · exact (keeps_deleteObjectManifestChunks _ _).mono chunks
  · exact (keeps_setManifestChunks _).mono chunks
  · exact .bind (keeps_setJSON _ not_false) fun _ => keeps_setJSON _ not_false

theorem keeps_deleteObjectVersionRecord (b k id : String) (v : ObjectVersion) :
    Keeps protectedRefKey (deleteObjectVersionRecord (.objectVersion b k id) v) := by
  have chunks (k : Key) : protectedRefKey k → ¬ manifestChunkKey k := by
    cases k <;> simp [protectedRefKey, manifestChunkKey]
  refine .bind (.onlyIf fun _ => .bind (keeps_deleteKey not_false) fun _ => ?_) fun _ =>
    keeps_deleteKey not_false
  exact (keeps_deleteObjectManifestChunks _ _).mono chunks

theorem setObjectVersion_holdings (ran : (setObjectVersion platform v).run s = .ok (u, t))
    (indexed : VersionsIndexed (objectIndex s)) (storable : Storable (objectIndex s) v) :
    holdings t = (holdings s).put v := by
  refine Holdings.ext ?_ (refTables_of_agree (keeps_setObjectVersion v _ _ _ ran))
  funext b k id
  have segments := setObjectVersion_versionSegments indexed ran storable b k id
  rw [storable.sortKey] at segments
  change ((objectIndex t).version b k id).map _ =
    if b = v.bucketID ∧ k = v.key ∧ id = v.versionID then _ else heldVersion s b k id
  rw [segments, setObjectVersion_index ran]
  simp only [ObjectIndex.putVersion, ObjectIndex.setLocator, ObjectIndex.setVersion,
    storable.sortKey]
  split <;> rfl

/-- A version record is deleted and its references are released, in either order. -/
theorem deleteObjectVersionRecord_version
    (ran : (deleteObjectVersionRecord (.objectVersion b k id) v).run s = .ok (u, t))
    (indexed : VersionsIndexed (objectIndex s))
    (stored : (objectIndex s).version b k id = some (metadata v)) :
    (holdings t).version = ((holdings s).drop b k id).version ∧
      (holdings t).refs = (holdings s).refs := by
  refine ⟨?_, refTables_of_agree (keeps_deleteObjectVersionRecord _ _ _ _ _ _ _ ran)⟩
  funext b' k' id'
  change ((objectIndex t).version b' k' id').map _ =
    if b' = b ∧ k' = k ∧ id' = id then none else heldVersion s b' k' id'
  rw [deleteObjectVersionRecord_versionSegments indexed ran stored,
    deleteObjectVersionRecord_index ran]
  have version : ((if v.bucketID ≠ "" ∧ v.versionID ≠ "" then
      (objectIndex s).setLocator v.bucketID v.versionID none else objectIndex s).setVersion
        b k id none).version b' k' id' =
      if b' = b ∧ k' = k ∧ id' = id then none else (objectIndex s).version b' k' id' := by
    split <;> rfl
  rw [version]
  split <;> rfl

end Namros.Index
