import Namros.Guarantees.ObjectListing
import Namros.Listing.VersionPages

/-!
# Completeness of paged version listings

A client that follows the markers of `ListObjectVersions` always comes to an end, and sees
every committed version once, newest first, exactly when every page that ends inside the
versions of one object ends at a position that `sort.Search` looks at. The predicate it
searches with holds for one entry only, so the search goes wrong for most markers.
-/

namespace Namros.Guarantees

open Library Source Index Listing

/-- A stored committed version as a listing shows it. -/
def shownVersion (s : Store) (bucketID : String) (key : GoString) (version : ObjectVersion) :
    ObjectVersionEntry :=
  { version := hydrated s version
    isLatest := (currentHead s bucketID key).any fun head =>
      head.versionID = (hydrated s version).versionID }

/-- The shown entries of one object go from newer to older versions. -/
def NewestFirst (entries : List ObjectVersionEntry) : Prop :=
  entries.Pairwise fun a b => a.version.key = b.version.key →
    bytes b.version.versionSortKey < bytes a.version.versionSortKey

/-- The collected pages hold every committed version and every delete marker under the
prefix once, newest first within a key, and nothing else. -/
structure ListsVersions (req : ListObjectVersionsRequest) (s : Store)
    (pages : List ListObjectVersionsResult) : Prop where
  versions : ∀ entry, entry ∈ pages.flatMap (·.versions) ↔
    ∃ key sortKey version, s.lookup (.objectVersion req.bucketID key sortKey) = some version ∧
      req.keyPrefix <+: key.bytes ∧ version.state = .committed ∧ version.deleteMarker = false ∧
      entry = shownVersion s req.bucketID key version
  deleteMarkers : ∀ entry, entry ∈ pages.flatMap (·.deleteMarkers) ↔
    ∃ key sortKey version, s.lookup (.objectVersion req.bucketID key sortKey) = some version ∧
      req.keyPrefix <+: key.bytes ∧ version.state = .committed ∧ version.deleteMarker = true ∧
      entry = shownVersion s req.bucketID key version
  versionsOnce : (pages.flatMap (·.versions)).Nodup
  deleteMarkersOnce : (pages.flatMap (·.deleteMarkers)).Nodup
  versionsNewestFirst : NewestFirst (pages.flatMap (·.versions))
  deleteMarkersNewestFirst : NewestFirst (pages.flatMap (·.deleteMarkers))

/-- Every page that ends inside the versions of one object ends at a position of that object's
versions that a search among them looks at. -/
def PageEndsFound (req : ListObjectVersionsRequest) (s : Store) : Prop :=
  ∀ page, 0 < page → ∀ last next,
    (allVersions req s)[page * req.maxKeys.toNat - 1]? = some last →
    (allVersions req s)[page * req.maxKeys.toNat]? = some next →
    last.version.key = next.version.key → MarkerFound s req.bucketID last.version.key last

def showEntry (entry : VersionListEntry) : ObjectVersionEntry :=
  { version := entry.version, isLatest := entry.isLatest }

section

variable {req : ListObjectVersionsRequest} {s : Store} (versions : VersionsFiled req.bucketID s)

include versions

theorem pageEndsFound_iff (positive : 0 < req.maxKeys) :
    PageEndsFound req s ↔ (versionPager req s versions).Unhidden req.maxKeys.toNat
      ((versionPager req s versions).after none) := by
  have limit : 0 < req.maxKeys.toNat := by omega
  have hides : ∀ page, 0 < page → ∀ x y,
      (allVersions req s)[page * req.maxKeys.toNat - 1]? = some x →
      (allVersions req s)[page * req.maxKeys.toNat]? = some y →
      ((versionPager req s versions).Hides x y ↔ x.version.key = y.version.key ∧
        ¬ MarkerFound s req.bucketID x.version.key x) := by
    intro page later x y before after
    have some_page : 0 < page * req.maxKeys.toNat := Nat.mul_pos later limit
    refine hides_iff versions before ?_
    rwa [Nat.sub_add_cancel some_page]
  constructor
  · intro found page later x y before after hidden
    obtain ⟨same, lost⟩ := (hides page later x y before after).mp hidden
    exact lost (found page later x y before after same)
  · intro clear page later x y before after same
    by_contra lost
    exact clear page later x y before after ((hides page later x y before after).mpr ⟨same, lost⟩)

/-! ## What the entries of a listing show -/

theorem shownVersions_eq {listed : List VersionListEntry}
    (within : ∀ entry ∈ listed, entry ∈ allVersions req s) :
    shownVersions listed = listed.map showEntry := by
  unfold shownVersions
  rw [List.filter_eq_self.mpr]
  · rfl
  · intro entry member
    obtain ⟨key, -, inStack⟩ := mem_allVersions.mp (within entry member)
    simp [(stack_entry versions inStack).2.2.2.2]

theorem shownVersion_deleteMarker {key : GoString} {sortKey : String} {version : ObjectVersion}
    (found : s.lookup (.objectVersion req.bucketID key sortKey) = some version)
    (committed : version.state = .committed) :
    (shownVersion s req.bucketID key version).version.deleteMarker = version.deleteMarker := by
  have kept := congrArg ObjectVersion.deleteMarker
    (metadata_hydrated_stored versions found committed)
  exact kept

/-- The shown versions of one kind: delete markers, or others. -/
theorem mem_shown_kind (kind : Bool) {shown : ObjectVersionEntry} :
    shown ∈ (allVersions req s).map showEntry ∧ shown.version.deleteMarker = kind ↔
      ∃ key sortKey version, s.lookup (.objectVersion req.bucketID key sortKey) = some version ∧
        req.keyPrefix <+: key.bytes ∧ version.state = .committed ∧ version.deleteMarker = kind ∧
        shown = shownVersion s req.bucketID key version := by
  rw [List.mem_map]
  constructor
  · rintro ⟨⟨entry, listed, rfl⟩, same⟩
    obtain ⟨key, starts, inStack⟩ := mem_allVersions.mp listed
    obtain ⟨sortKey, version, found, committed, rfl⟩ := mem_stack.mp inStack
    have marker := shownVersion_deleteMarker versions found committed
    exact ⟨key, sortKey, version, found, starts, committed, marker.symm.trans same, rfl⟩
  · rintro ⟨key, sortKey, version, found, starts, committed, same, rfl⟩
    refine ⟨⟨versionListEntry (currentHead s req.bucketID key) (hydrated s version), ?_, rfl⟩, ?_⟩
    · exact mem_allVersions.mpr
        ⟨key, starts, mem_stack.mpr ⟨sortKey, version, found, committed, rfl⟩⟩
    · rwa [shownVersion_deleteMarker versions found committed]

/-- The version an entry shows tells the entries of a listing apart. -/
theorem entry_eq_of_shown {a b : VersionListEntry}
    (listedA : a ∈ allVersions req s) (listedB : b ∈ allVersions req s)
    (same : showEntry a = showEntry b) : a = b := by
  obtain ⟨key, -, inStack⟩ := mem_allVersions.mp listedA
  obtain ⟨key', -, inStack'⟩ := mem_allVersions.mp listedB
  have version : a.version = b.version := congrArg ObjectVersionEntry.version same
  have keys : key = key' := by
    rw [← (stack_entry versions inStack).1.2, ← (stack_entry versions inStack').1.2, version]
  subst keys
  refine stack_versionID_inj versions inStack inStack' ?_
  obtain ⟨sk, v, found, committed, rfl⟩ := mem_stack.mp inStack
  obtain ⟨sk', v', found', committed', rfl⟩ := mem_stack.mp inStack'
  exact congrArg (fun version : ObjectVersion => bytes version.versionID) version

theorem newestFirst_shown (kept : ObjectVersionEntry → Bool) :
    NewestFirst (((allVersions req s).map showEntry).filter kept) := by
  refine List.Pairwise.filter _ (List.pairwise_map.mpr ?_)
  exact allVersions_newestFirst versions

theorem shown_nodup (kept : ObjectVersionEntry → Bool) :
    (((allVersions req s).map showEntry).filter kept).Nodup := by
  refine List.Nodup.filter _ (List.Nodup.map_on ?_ (allVersions_nodup versions))
  intro a listedA b listedB same
  exact entry_eq_of_shown versions listedA listedB same

/-- Listing every entry is listing every version. -/
theorem listsVersions_of_entries {pages : List ListObjectVersionsResult}
    (shown : pages.flatMap (·.versions) = versionsOf (allVersions req s))
    (markers : pages.flatMap (·.deleteMarkers) = deleteMarkersOf (allVersions req s)) :
    ListsVersions req s pages := by
  have entries := shownVersions_eq versions fun entry (member : entry ∈ allVersions req s) => member
  unfold versionsOf at shown
  unfold deleteMarkersOf at markers
  rw [entries] at shown markers
  constructor
  · intro entry
    rw [shown, List.mem_filter, Bool.not_eq_true', mem_shown_kind versions false]
  · intro entry
    rw [markers, List.mem_filter, mem_shown_kind versions true]
  · rw [shown]
    exact shown_nodup versions _
  · rw [markers]
    exact shown_nodup versions _
  · rw [shown]
    exact newestFirst_shown versions _
  · rw [markers]
    exact newestFirst_shown versions _

/-- Pages that list every version end with versions that are found. -/
theorem pageEndsFound_of_listed (served : VersionsServed req s) (flat : req.delimiter = [])
    (first : req.keyMarker = []) {fuel : Nat} {pages : List ListObjectVersionsResult}
    (collected : followVersionPages s fuel req = some pages)
    (everything : ListsVersions req s pages) :
    PageEndsFound req s := by
  have positive : 0 < req.maxKeys.toNat := Int.pos_iff_toNat_pos.mp served.maxKeys
  have start : Marks req s none := first
  have same := followVersionPages_eq served versions flat start fuel
  rw [collected, Option.map_some] at same
  obtain ⟨listed, paged, shown⟩ := Option.map_eq_some_iff.mp same.symm
  obtain ⟨shownVersions, shownMarkers⟩ := Prod.mk.inj shown
  have sublist := Pager.pages_sublist positive paged
  have entries := shownVersions_eq versions
    fun entry (member : entry ∈ listed.flatten) => sublist.subset member
  rw [pageEndsFound_iff versions served.maxKeys]
  refine (Pager.pages_complete positive paged).mp (sublist.eq_of_length_le ?_)
  refine (List.subperm_of_subset (allVersions_nodup versions) fun x listedX => ?_).length_le
  have onPages : showEntry x ∈ listed.flatten.map showEntry := by
    have inListing : showEntry x ∈ (allVersions req s).map showEntry :=
      List.mem_map_of_mem listedX
    cases kind : (showEntry x).version.deleteMarker with
    | false =>
      have member := (everything.versions _).mpr
        ((mem_shown_kind versions false).mp ⟨inListing, kind⟩)
      rw [← shownVersions, versionsOf, entries] at member
      exact (List.mem_filter.mp member).1
    | true =>
      have member := (everything.deleteMarkers _).mpr
        ((mem_shown_kind versions true).mp ⟨inListing, kind⟩)
      rw [← shownMarkers, deleteMarkersOf, entries] at member
      exact (List.mem_filter.mp member).1
  obtain ⟨y, member, sameEntry⟩ := List.mem_map.mp onPages
  rwa [← entry_eq_of_shown versions (sublist.subset member) listedX sameEntry]

end

/-- Following the markers from the start comes to an end, and lists every committed version
and delete marker exactly once, newest first within a key, if and only if every page that
ends inside the versions of one object ends at a position that a search looks at. -/
theorem version_listing_complete_iff_pageEndsFound (req : ListObjectVersionsRequest) (s : Store)
    (served : VersionsServed req s) (versions : VersionsFiled req.bucketID s)
    (flat : req.delimiter = []) (first : req.keyMarker = []) :
    (∃ fuel pages, followVersionPages s fuel req = some pages ∧ ListsVersions req s pages) ↔
      PageEndsFound req s := by
  refine ⟨fun ⟨_, _, collected, everything⟩ =>
    pageEndsFound_of_listed versions served flat first collected everything, fun found => ?_⟩
  have positive : 0 < req.maxKeys.toNat := Int.pos_iff_toNat_pos.mp served.maxKeys
  have start : Marks req s none := first
  obtain ⟨listed, paged⟩ := Pager.pages_end positive
    (Nat.lt_succ_self ((versionPager req s versions).after none).length)
  have same := followVersionPages_eq served versions flat start
    (((versionPager req s versions).after none).length + 1)
  rw [paged, Option.map_some] at same
  obtain ⟨pages, collected, shown⟩ := Option.map_eq_some_iff.mp same
  obtain ⟨shownVersions, shownMarkers⟩ := Prod.mk.inj shown
  rw [(Pager.pages_complete positive paged).mpr
    ((pageEndsFound_iff versions served.maxKeys).mp found)] at shownVersions shownMarkers
  exact ⟨_, pages, collected, listsVersions_of_entries versions shownVersions shownMarkers⟩

/-- One stored record of a version listing that is in order. -/
def recordFiled (bucketID : String) (s : Store) (K : Key) : Bool :=
  match K, (s.lookup K).bind (asObjectVersion K) with
  | .objectVersion owner key sortKey, some version =>
    owner != bucketID || ((version.key : GoString) == key && version.versionSortKey == sortKey &&
      version.versionID == sortKey && key != "" && sortKey != "" &&
      (hydrateWith (chunksOf s version) version).isOk)
  | _, _ => true

theorem versionsFiled_of_records {bucketID : String} {s : Store}
    (checked : s.keys.all (recordFiled bucketID s) = true) : VersionsFiled bucketID s := by
  have record : ∀ {key sortKey version},
      s.lookup (.objectVersion bucketID key sortKey) = some version →
        ((version.key = key ∧ version.versionSortKey = sortKey ∧ version.versionID = sortKey) ∧
          key ≠ "" ∧ sortKey ≠ "") ∧ (hydrateWith (chunksOf s version) version).isOk = true := by
    intro key sortKey version found
    have member : Key.objectVersion bucketID key sortKey ∈ s.keys :=
      AList.mem_keys.mpr (mem_of_lookup found)
    have ok := List.all_eq_true.mp checked _ member
    simp only [recordFiled, found, Option.bind_some, asObjectVersion, bne_self_eq_false,
      Bool.false_or, Bool.and_eq_true, beq_iff_eq, bne_iff_ne] at ok
    exact ⟨⟨⟨ok.1.1.1.1.1, ok.1.1.1.1.2, ok.1.1.1.2⟩, ok.1.1.2, ok.1.2⟩, ok.2⟩
  refine ⟨fun found => (record found).1.1, fun found => (record found).1.2, fun found _ => ?_⟩
  have ok := (record found).2
  cases whole : hydrateWith (chunksOf s _) _ with
  | error e =>
    rw [whole] at ok
    cases ok
  | ok w => exact ⟨w, rfl⟩

/-- A versioned bucket with a number of versions of one key. -/
def versionedBucket (count : Nat) : Store :=
  runCalls plainPlatform
    ((numberedContext 1 1, .createBucket { tenantID := "t", name := "b", region := "r" }) ::
      (numberedContext 2 2, .putBucketVersioning "bkt_1" .enabled) ::
      (List.range count).map fun i =>
        (numberedContext (i + 10) (i + 3), .putObjectVersion { bucketID := "bkt_1", key := "k" })) ∅

/-- Five versions in pages of three: the search finds the third. -/
theorem pagesOfThree_list_versions :
    ∃ fuel pages,
      followVersionPages (versionedBucket 5) fuel { bucketID := "bkt_1", maxKeys := 3 } =
        some pages ∧
      ListsVersions { bucketID := "bkt_1", maxKeys := 3 } (versionedBucket 5) pages := by
  have versions : VersionsFiled "bkt_1" (versionedBucket 5) :=
    versionsFiled_of_records (by decide +kernel)
  refine (version_listing_complete_iff_pageEndsFound _ _ ⟨by decide, by decide +kernel, by decide⟩
    versions rfl rfl).mpr (Pager.pageEnds_of_checked (by decide) ?_)
  decide +kernel

/-- Two versions in pages of one: the second version is on no page. -/
theorem second_version_unlisted :
    ¬ ∃ fuel pages,
      followVersionPages (versionedBucket 2) fuel { bucketID := "bkt_1", maxKeys := 1 } =
        some pages ∧
      ListsVersions { bucketID := "bkt_1", maxKeys := 1 } (versionedBucket 2) pages := by
  rintro ⟨fuel, pages, collected, everything⟩
  have found := pageEndsFound_of_listed (versionsFiled_of_records (by decide +kernel))
    ⟨by decide, by decide +kernel, by decide⟩ rfl rfl collected everything
  have missed :
      ∃ last ∈ (allVersions { bucketID := "bkt_1", maxKeys := 1 } (versionedBucket 2))[0]?,
      ∃ next ∈ (allVersions { bucketID := "bkt_1", maxKeys := 1 } (versionedBucket 2))[1]?,
        last.version.key = next.version.key ∧
          ¬ MarkerFound (versionedBucket 2) "bkt_1" last.version.key last := by decide +kernel
  obtain ⟨last, before, next, after, same, unfound⟩ := missed
  exact unfound (found 1 Nat.one_pos last next before after same)

end Namros.Guarantees
