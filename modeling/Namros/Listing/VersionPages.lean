import Namros.Listing.Versions

/-!
# Following the pages of a version listing

A page of `ListObjectVersions` is cut from the stacks behind its markers. Markers that the
listing returned name an entry of a stack; the next page is cut from the rest of that stack,
if the search finds the entry, and from the stacks that follow it.
-/

namespace Namros.Listing

open Library Source Index Transaction Rollup OrderedStore

variable {req : ListObjectVersionsRequest} {s : Store}

/-! ## The whole listing -/

/-- All stacks of a listing. -/
def allVersions (req : ListObjectVersionsRequest) (s : Store) : List VersionListEntry :=
  stacksOf req s (versionKeys req s)

/-- The stacks behind those of one object. -/
def stacksBehind (req : ListObjectVersionsRequest) (s : Store) (key : GoString) :
    List VersionListEntry :=
  stacksOf req s ((versionKeys req s).filter ((versionListing req).beyond (.inr key)))

variable {key : GoString} {entry : VersionListEntry}

theorem object_listed {sortKey : String} {version : ObjectVersion}
    (starts : req.keyPrefix <+: key.bytes)
    (found : s.lookup (.objectVersion req.bucketID key sortKey) = some version) :
    .inr key ∈ (versionListing req).entries (versionKeys req s) := by
  refine (Rollup.Listing.mem_entries_inr _).mpr ⟨.objectVersion req.bucketID key sortKey, ?_, ?_⟩
  · exact mem_versionKeys.mpr ⟨key, sortKey, version, rfl, starts, found⟩
  · exact listedObject_eq_some.mpr ⟨sortKey, rfl, starts⟩

theorem mem_allVersions :
    entry ∈ allVersions req s ↔
      ∃ key : GoString, req.keyPrefix <+: key.bytes ∧ entry ∈ stack s req.bucketID key := by
  unfold allVersions stacksOf
  rw [List.mem_flatMap]
  constructor
  · rintro ⟨x, listed, member⟩
    cases x with
    | inl K => cases member
    | inr key =>
      obtain ⟨K, -, grouped⟩ := (Rollup.Listing.mem_entries_inr _).mp listed
      obtain ⟨-, -, starts⟩ := listedObject_eq_some.mp grouped
      exact ⟨key, starts, member⟩
  · rintro ⟨key, starts, member⟩
    obtain ⟨sortKey, version, found, -, -⟩ := mem_stack.mp member
    exact ⟨.inr key, object_listed starts found, member⟩

/-- Within a key, the whole listing goes from newer to older versions. -/
theorem allVersions_newestFirst (versions : VersionsFiled req.bucketID s) :
    (allVersions req s).Pairwise fun a b => a.version.key = b.version.key →
      bytes b.version.versionSortKey < bytes a.version.versionSortKey := by
  unfold allVersions stacksOf
  rw [List.pairwise_flatMap]
  constructor
  · intro x _
    cases x with
    | inl K => exact List.Pairwise.nil
    | inr key =>
      have ordered := (stack_sorted versions key).and (stack_nodup versions key)
      refine List.Pairwise.imp_of_mem ?_ ordered
      intro a b memberA memberB related _
      obtain ⟨-, ⟨idA, keyA⟩, -⟩ := stack_entry versions memberA
      obtain ⟨-, ⟨idB, keyB⟩, -⟩ := stack_entry versions memberB
      rw [← keyA, ← keyB]
      refine lt_of_le_of_ne related.1 fun same => related.2 ?_
      -- the sort key of a stored version is its version id
      exact stack_versionID_inj versions memberA memberB (by rw [← idA, ← idB, same])
  · refine (versionKeys_sorted req s).entries_nodup.imp ?_
    intro x y differ a memberA b memberB same
    cases x with
    | inl K => cases memberA
    | inr key =>
      cases y with
      | inl K => cases memberB
      | inr key' =>
        have keys := congrArg GoString.text same
        rw [(stack_entry versions memberA).1.2, (stack_entry versions memberB).1.2] at keys
        exact absurd (congrArg Sum.inr keys) differ

theorem allVersions_nodup (versions : VersionsFiled req.bucketID s) :
    (allVersions req s).Nodup := by
  refine (allVersions_newestFirst versions).imp ?_
  rintro a _ newer rfl
  exact lt_irrefl _ (newer rfl)

variable {i : Nat}

/-- The listing in front of an object, its stack, and the listing behind it. -/
theorem allVersions_split (versions : VersionsFiled req.bucketID s)
    (found : (allVersions req s)[i]? = some entry) :
    ∃ (key : GoString) (before : List VersionListEntry) (p : Nat), req.keyPrefix <+: key.bytes ∧
      allVersions req s = before ++ (stack s req.bucketID key ++ stacksBehind req s key) ∧
      (stack s req.bucketID key)[p]? = some entry ∧ i = before.length + p := by
  have member : entry ∈ allVersions req s := List.mem_of_getElem? found
  obtain ⟨key, starts, inStack⟩ := mem_allVersions.mp member
  obtain ⟨sortKey, version, stored, -, -⟩ := mem_stack.mp inStack
  obtain ⟨n, place⟩ := List.mem_iff_getElem?.mp (object_listed starts stored)
  have behind := (versionKeys_sorted req s).entries_behind place
  obtain ⟨inside, same⟩ := List.getElem?_eq_some_iff.mp place
  have parts : (versionListing req).entries (versionKeys req s) =
      ((versionListing req).entries (versionKeys req s)).take n ++ .inr key ::
        (versionListing req).entries
          ((versionKeys req s).filter ((versionListing req).beyond (.inr key))) := by
    have tail := List.drop_eq_getElem_cons inside
    rw [same, ← behind] at tail
    exact (List.take_append_drop n _).symm.trans (congrArg (_ ++ ·) tail)
  obtain ⟨before, whole⟩ : ∃ before,
      allVersions req s = before ++ (stack s req.bucketID key ++ stacksBehind req s key) := by
    unfold allVersions stacksBehind stacksOf
    rw [parts, List.flatMap_append, List.flatMap_cons]
    exact ⟨_, rfl⟩
  obtain ⟨p, at_⟩ := List.mem_iff_getElem?.mp inStack
  refine ⟨key, before, p, starts, whole, at_, ?_⟩
  -- the listing has no entry twice, so the entry stands at one place
  have here : (allVersions req s)[before.length + p]? = some entry := by
    have inside := (List.getElem?_eq_some_iff.mp at_).1
    rw [whole, List.getElem?_append_right (Nat.le_add_right _ _), Nat.add_sub_cancel_left,
      List.getElem?_append_left inside, at_]
  have inside := (List.getElem?_eq_some_iff.mp found).1
  exact (List.getElem?_inj inside (allVersions_nodup versions)).mp (found.trans here.symm)

/-! ## Resuming after an entry -/

/-- What a call lists after the markers of an entry. -/
def resumedVersions (req : ListObjectVersionsRequest) (s : Store) (entry : VersionListEntry) :
    List VersionListEntry :=
  versionEntriesAfter (stack s req.bucketID entry.version.key) entry.name entry.versionID ++
    stacksBehind req s entry.version.key

/-- An entry is resumed with everything behind it, or with the stacks behind its own. -/
theorem resumedVersions_eq (versions : VersionsFiled req.bucketID s) {p : Nat}
    (place : (stack s req.bucketID key)[p]? = some entry) :
    resumedVersions req s entry =
      (if MarkerFound s req.bucketID key entry then (stack s req.bucketID key).drop (p + 1)
        else []) ++ stacksBehind req s key := by
  have own := (stack_entry versions (List.mem_of_getElem? place)).1.2
  unfold resumedVersions
  rw [own, versionEntriesAfter_stack versions place]

theorem resumedVersions_suffix (versions : VersionsFiled req.bucketID s)
    (found : (allVersions req s)[i]? = some entry) :
    resumedVersions req s entry <:+ (allVersions req s).drop (i + 1) := by
  obtain ⟨key, before, p, -, whole, place, rfl⟩ := allVersions_split versions found
  have inside := (List.getElem?_eq_some_iff.mp place).1
  have rest : (allVersions req s).drop (before.length + p + 1) =
      (stack s req.bucketID key).drop (p + 1) ++ stacksBehind req s key := by
    rw [whole, Nat.add_assoc, List.drop_append, List.drop_eq_nil_of_le (Nat.le_add_right _ _),
      Nat.add_sub_cancel_left, List.nil_append, List.drop_append_of_le_length inside]
  rw [rest, resumedVersions_eq versions place]
  split
  · exact List.suffix_rfl
  · exact List.suffix_append _ _

/-- The version listing of a request, resumed after its entries. -/
def versionPager (req : ListObjectVersionsRequest) (s : Store)
    (versions : VersionsFiled req.bucketID s) : Pager VersionListEntry :=
  Pager.ofTails (allVersions_nodup versions) fun found => resumedVersions_suffix versions found

/-- Within a stack, an entry hides the next one when the search does not find it. -/
theorem hides_iff (versions : VersionsFiled req.bucketID s) {x y : VersionListEntry}
    (found : (allVersions req s)[i]? = some x) (next : (allVersions req s)[i + 1]? = some y) :
    (versionPager req s versions).Hides x y ↔
      x.version.key = y.version.key ∧ ¬ MarkerFound s req.bucketID x.version.key x := by
  change y ∉ resumedVersions req s x ↔ _
  obtain ⟨key, before, p, -, whole, place, rfl⟩ := allVersions_split versions found
  have inside := (List.getElem?_eq_some_iff.mp place).1
  have own := (stack_entry versions (List.mem_of_getElem? place)).1.2
  have apart : ∀ entry ∈ stack s req.bucketID key, entry ∉ stacksBehind req s key := by
    have once := allVersions_nodup versions
    rw [whole] at once
    have tail := (List.nodup_append.mp once).2.1
    exact fun entry member again => (List.nodup_append.mp tail).2.2 entry member entry again rfl
  have at_ : (stack s req.bucketID key ++ stacksBehind req s key)[p + 1]? = some y := by
    rw [whole, Nat.add_assoc, List.getElem?_append_right (Nat.le_add_right _ _),
      Nat.add_sub_cancel_left] at next
    exact next
  rw [resumedVersions_eq versions place, own]
  by_cases last : p + 1 < (stack s req.bucketID key).length
  · rw [List.getElem?_append_left last] at at_
    have member := List.mem_of_getElem? at_
    have same := (stack_entry versions member).1.2
    by_cases finds : MarkerFound s req.bucketID key x
    · have kept : y ∈ (stack s req.bucketID key).drop (p + 1) := by
        refine List.mem_of_getElem? (i := 0) ?_
        rwa [List.getElem?_drop]
      simp [finds, kept]
    · simp [finds, apart y member, GoString.text.inj (own.trans same.symm)]
  · have behind : y ∈ stacksBehind req s key := by
      rw [List.getElem?_append_right (Nat.le_of_not_lt last)] at at_
      exact List.mem_of_getElem? at_
    have differ : x.version.key ≠ y.version.key := by
      intro here
      have listed : y ∈ allVersions req s := by
        rw [whole]
        exact List.mem_append_right _ (List.mem_append_right _ behind)
      obtain ⟨other, -, member⟩ := mem_allVersions.mp listed
      have same := (stack_entry versions member).1.2
      rw [← here, own] at same
      subst same
      exact apart y member behind
    simp [behind, differ]

/-! ## Pages -/

/-- A request for versions that is served at all. -/
structure VersionsServed (req : ListObjectVersionsRequest) (s : Store) : Prop where
  bucketID : req.bucketID ≠ ""
  bucket : s.lookup (.bucketByID req.bucketID) ≠ none
  maxKeys : 0 < req.maxKeys

variable {maxKeys : Nat}

theorem listVersionsPage_covers {collected whole : List VersionListEntry}
    (covers : Covers maxKeys collected whole) :
    listVersionsPage maxKeys collected = listVersionsPage maxKeys whole := by
  obtain ⟨⟨rest, rfl⟩, same | overfull⟩ := covers
  · rw [← same]
  have more : maxKeys < (collected ++ rest).length := by
    rw [List.length_append]
    omega
  have cut : (collected ++ rest).take maxKeys = collected.take maxKeys :=
    List.take_append_of_le_length (Nat.le_of_lt overfull)
  have marker : (collected ++ rest)[maxKeys - 1]? = collected[maxKeys - 1]? :=
    List.getElem?_append_left (by omega)
  simp only [listVersionsPage, decide_eq_true overfull, decide_eq_true more, cut, marker, if_true]

/-- What a served request returns. -/
theorem listObjectVersions_run (served : VersionsServed req s)
    (versions : VersionsFiled req.bucketID s) (flat : req.delimiter = [])
    {lead : List VersionListEntry} (marked : (markerEntries req).run s = .ok (lead, s))
    (inside : ∀ K ∈ versionsFrom req (listVersionsStart req) s, K ∈ versionKeys req s) :
    (listObjectVersions req).run s =
      .ok (listVersionsPage req.maxKeys.toNat
        (lead ++ stacksOf req s (versionsFrom req (listVersionsStart req) s)), s) := by
  have enough : (versionsFrom req (listVersionsStart req) s).length < s.keys.length + 1 :=
    Nat.lt_succ_of_le keysWhere_length_le
  have positive : ¬ req.maxKeys ≤ 0 := not_le.mpr served.maxKeys
  obtain ⟨final, ends, covers⟩ := listVersionsLoop_spec versions flat
    { entries := [] ++ lead } inside enough
  have closure : (listObjectVersionsClosure req req.maxKeys.toNat {}).run s = .ok (final, s) := by
    refine run_bind_ok.mpr ⟨_, s, rfl, run_bind_ok.mpr ⟨(), s, ?_, ?_⟩⟩
    · exact run_failIf_ok.mpr ⟨served.bucket, rfl⟩
    · exact run_bind_ok.mpr ⟨lead, s, marked, run_bind_ok.mpr ⟨s, s, rfl,
        run_bind_ok.mpr ⟨some final, s, ends, rfl⟩⟩⟩
  unfold listObjectVersions
  simp only [run_bind, failIf, served.bucketID, if_false, run_pure, if_neg positive, closure]
  rw [listVersionsPage_covers covers, List.nil_append]

theorem versionsFrom_first :
    versionsFrom req (versionListPrefix req.bucketID req.keyPrefix) s = versionKeys req s :=
  keysWhere_prefixRange (rangeEnd_below _ _)

/-- A request without markers is served from the whole listing. -/
theorem versions_first (keyMarker : req.keyMarker = []) :
    (markerEntries req).run s = .ok ([], s) ∧
      versionsFrom req (listVersionsStart req) s = versionKeys req s := by
  have start : listVersionsStart req = versionListPrefix req.bucketID req.keyPrefix := by
    simp [listVersionsStart, keyMarker]
  constructor
  · unfold markerEntries
    rw [if_pos (.inl keyMarker)]
    rfl
  · rw [start, versionsFrom_first]

/-- A request with the markers of an entry is served from what the entry is resumed with. -/
theorem versions_marked (versions : VersionsFiled req.bucketID s) (flat : req.delimiter = [])
    (listed : entry ∈ allVersions req s) (keyMarker : req.keyMarker = entry.name)
    (idMarker : req.versionIDMarker = entry.versionID) :
    (markerEntries req).run s =
        .ok (versionEntriesAfter (stack s req.bucketID entry.version.key) entry.name
          entry.versionID, s) ∧
      versionsFrom req (listVersionsStart req) s =
        (versionKeys req s).filter ((versionListing req).beyond (.inr entry.version.key)) := by
  obtain ⟨key, starts, member⟩ := mem_allVersions.mp listed
  obtain ⟨⟨name, own⟩, -, id, keyNamed, -⟩ := stack_entry versions member
  obtain ⟨sortKey, version, found, -, -⟩ := mem_stack.mp member
  rw [own]
  have open_ : ¬ req.closesMarker := fun closes => closes.1 flat
  have named : req.keyMarker ≠ [] := by
    intro unnamed
    exact keyNamed (GoString.bytes_inj.mp (name.symm.trans (keyMarker.symm.trans unnamed)))
  have idNamed : req.versionIDMarker ≠ [] := by rwa [idMarker]
  have path : versionPath req.bucketID req.keyMarker = versionPrefix req.bucketID key := by
    rw [keyMarker, name, versionPath_bytes]
  have within : versionListPrefix req.bucketID req.keyPrefix <+:
      versionPrefix req.bucketID key :=
    (versions_selected _ _ _).mpr ⟨(key, ""), rfl, starts⟩
  have range := (Bytes.isPrefix_iff_range _ _).mp within
  have ends := rangeEnd_versionPrefix req.bucketID key
  constructor
  · have skip : ¬ (req.keyMarker = [] ∨ req.closesMarker ∨ req.versionIDMarker = []) := by
      simp [named, open_, idNamed]
    unfold markerEntries
    dsimp only
    rw [if_neg skip, path, if_pos range, keyMarker, name, idMarker]
    exact run_bind_ok.mpr ⟨_, s, collectVersionEntriesForKey_run versions key, rfl⟩
  · have later : versionListPrefix req.bucketID req.keyPrefix <
        Bytes.prefixRangeEnd (versionPrefix req.bucketID key) := by
      have self := (Bytes.prefixRangeEnd_le_iff ends).mp le_rfl
      have above : versionPrefix req.bucketID key <
          Bytes.prefixRangeEnd (versionPrefix req.bucketID key) := self.1
      exact lt_of_le_of_lt range.1 above
    have start : listVersionsStart req =
        Bytes.prefixRangeEnd (versionPrefix req.bucketID key) := by
      unfold listVersionsStart
      dsimp only
      rw [if_neg named, if_neg open_, path, maxBytes, if_pos later]
    have reached : Key.objectVersion req.bucketID key sortKey ∈ versionKeys req s :=
      mem_versionKeys.mpr ⟨key, sortKey, version, rfl, starts, found⟩
    have grouped : (versionListing req).group (.objectVersion req.bucketID key sortKey) =
        some key := listedObject_eq_some.mpr ⟨sortKey, rfl, starts⟩
    have whole : versionsFrom req (versionListPrefix req.bucketID req.keyPrefix) s =
        versionKeys req s := versionsFrom_first
    rw [start, ← whole]
    rw [← whole] at reached
    exact versionsFrom_behind (fun K inside => whole ▸ inside) reached grouped

/-- The markers of a request stand for a token of the listing. -/
def Marks (req : ListObjectVersionsRequest) (s : Store) : Option VersionListEntry → Prop
  | none => req.keyMarker = []
  | some entry => entry ∈ allVersions req s ∧ req.keyMarker = entry.name ∧
      req.versionIDMarker = entry.versionID

/-- A served request returns a page of what comes after its markers. -/
theorem listObjectVersions_page (served : VersionsServed req s)
    (versions : VersionsFiled req.bucketID s) (flat : req.delimiter = [])
    {token : Option VersionListEntry} (marks : Marks req s token) :
    (listObjectVersions req).run s =
      .ok (listVersionsPage req.maxKeys.toNat ((versionPager req s versions).after token), s) := by
  cases token with
  | none =>
    obtain ⟨marked, from_⟩ := versions_first (s := s) marks
    have run := listObjectVersions_run served versions flat marked fun K inside => from_ ▸ inside
    rw [from_, List.nil_append] at run
    exact run
  | some entry =>
    obtain ⟨listed, keyMarker, idMarker⟩ := marks
    obtain ⟨marked, from_⟩ := versions_marked versions flat listed keyMarker idMarker
    have run := listObjectVersions_run served versions flat marked fun K inside =>
      (List.mem_filter.mp (from_ ▸ inside)).1
    rw [from_] at run
    have after : (versionPager req s versions).after (some entry) =
        resumedVersions req s entry := if_pos listed
    rw [after]
    exact run

/-- The entries as a page shows them, without the common prefixes. -/
def shownVersions (entries : List VersionListEntry) : List ObjectVersionEntry :=
  (entries.filter (!·.isCommonPrefix)).map fun entry =>
    { version := entry.version, isLatest := entry.isLatest }

def versionsOf (entries : List VersionListEntry) : List ObjectVersionEntry :=
  (shownVersions entries).filter (!·.version.deleteMarker)

def deleteMarkersOf (entries : List VersionListEntry) : List ObjectVersionEntry :=
  (shownVersions entries).filter (·.version.deleteMarker)

/-- The pages a client collects are the pages of the version listing. -/
theorem followVersionPages_eq (served : VersionsServed req s)
    (versions : VersionsFiled req.bucketID s) (flat : req.delimiter = [])
    {token : Option VersionListEntry} (marks : Marks req s token) (fuel : Nat) :
    (followVersionPages s fuel req).map (fun pages =>
        (pages.flatMap (·.versions), pages.flatMap (·.deleteMarkers))) =
      ((versionPager req s versions).pages req.maxKeys.toNat fuel token).map fun pages =>
        (versionsOf pages.flatten, deleteMarkersOf pages.flatten) := by
  induction fuel generalizing req token with
  | zero => rfl
  | succ fuel ih =>
    have positive : 0 < req.maxKeys.toNat := Int.pos_iff_toNat_pos.mp served.maxKeys
    rw [followVersionPages, listObjectVersions_page served versions flat marks, Pager.pages]
    dsimp only
    by_cases short : ((versionPager req s versions).after token).length ≤ req.maxKeys.toNat
    · have fits : ¬ req.maxKeys.toNat < ((versionPager req s versions).after token).length :=
        Nat.not_lt.mpr short
      rw [if_neg (by simp [listVersionsPage, fits]), if_pos short]
      simp [listVersionsPage, fits, versionsOf, deleteMarkersOf, shownVersions]
    have full := Nat.lt_of_not_le short
    obtain ⟨last, place⟩ :
        ∃ last, ((versionPager req s versions).after token)[req.maxKeys.toNat - 1]? = some last :=
      ⟨_, List.getElem?_eq_getElem (by omega)⟩
    have listed : last ∈ allVersions req s :=
      (Pager.tailAfter_suffix (fun found => resumedVersions_suffix versions found)
        token).subset (List.mem_of_getElem? place)
    simp only [listVersionsPage, decide_eq_true full, if_true, if_neg short, place]
    have served' : VersionsServed { req with
        keyMarker := last.name, versionIDMarker := last.versionID } s :=
      ⟨served.bucketID, served.bucket, served.maxKeys⟩
    have marks' : Marks { req with
        keyMarker := last.name, versionIDMarker := last.versionID } s (some last) :=
      ⟨listed, rfl, rfl⟩
    have later := ih served' versions flat marks'
    have joined := congrArg (Option.map fun rest : _ × _ =>
      (versionsOf (((versionPager req s versions).after token).take req.maxKeys.toNat) ++ rest.1,
        deleteMarkersOf (((versionPager req s versions).after token).take req.maxKeys.toNat) ++
          rest.2)) later
    rw [Option.map_map, Option.map_map] at joined ⊢
    refine Eq.trans (Eq.trans (congrArg (Option.map · _) ?_) joined) (congrArg (Option.map · _) ?_)
    · funext rest
      rfl
    · funext rest
      simp [versionsOf, deleteMarkersOf, shownVersions]

end Namros.Listing
