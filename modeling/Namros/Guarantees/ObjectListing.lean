import Namros.Index.Manifests
import Namros.Listing.ObjectPages

/-!
# Completeness of paged object listings

A client that starts without a token and follows the continuation tokens always comes to an
end, and sees every name once exactly when no page ends with a name that ends with the
delimiter and starts the next name: such a name is a stored key, but the next call takes it
for a common prefix and skips every key behind it.
-/

namespace Namros.Guarantees

open Library Source Index Listing Rollup

/-- The collected pages hold every visible key with the prefix that is not rolled up once,
every common prefix once, and nothing else. -/
structure ListsEverything (req : ListObjectsRequest) (s : Store)
    (pages : List ListObjectsResult) : Prop where
  objects : ∀ head, head ∈ pages.flatMap (·.contents) ↔
    ∃ key entry, s.lookup (.listObject req.bucketID key) = some entry ∧
      req.keyPrefix <+: key.bytes ∧
      commonPrefixOf req.keyPrefix req.delimiter key.bytes = none ∧
      head = headFromListEntry entry
  objectsOnce : ((pages.flatMap (·.contents)).map (·.key)).Nodup
  commonPrefixes : ∀ name, name ∈ pages.flatMap (·.commonPrefixes) ↔
    ∃ key entry, s.lookup (.listObject req.bucketID key) = some entry ∧
      req.keyPrefix <+: key.bytes ∧
      commonPrefixOf req.keyPrefix req.delimiter key.bytes = some name
  commonPrefixesOnce : (pages.flatMap (·.commonPrefixes)).Nodup

/-- The whole listing, in key order. -/
def fullListing (req : ListObjectsRequest) (s : Store) : List ListEntry :=
  ((objectListing req).entries (listedKeys req s)).map (objectEntry s)

/-- No page ends with a name that ends with the delimiter and starts the next name. -/
def PageEndsClear (req : ListObjectsRequest) (s : Store) : Prop :=
  ∀ page, 0 < page → ∀ last next,
    (fullListing req s)[page * req.maxKeys.toNat - 1]? = some last →
    (fullListing req s)[page * req.maxKeys.toNat]? = some next →
    ¬ (req.delimiter ≠ [] ∧ req.delimiter <:+ last.name ∧ last.name <+: next.name)

section

variable {req : ListObjectsRequest} {s : Store}

/-- The condition on names is the one on the rolled-up listing. -/
theorem pageEndsClear_iff (filed : Filed req.bucketID s) :
    PageEndsClear req s ↔
      (objectPager req s).Unhidden req.maxKeys.toNat ((objectPager req s).after none) := by
  have hides : ∀ x ∈ (objectListing req).entries (listedKeys req s),
      ∀ y ∈ (objectListing req).entries (listedKeys req s),
      (objectPager req s).Hides x y ↔ (req.delimiter ≠ [] ∧
        req.delimiter <:+ (objectEntry s x).name ∧
        (objectEntry s x).name <+: (objectEntry s y).name) := by
    intro x listed y listed'
    change (objectListing req).Hides x y ↔ _
    unfold Rollup.Listing.Hides
    rw [(objectEntry_token filed listed).2.1, (objectEntry_token filed listed).1,
      (objectEntry_token filed listed').1, listObjectPath_isPrefix_iff]
    simp [closesToken, and_assoc]
  unfold PageEndsClear Pager.Unhidden fullListing
  simp only [List.getElem?_map, Option.map_eq_some_iff]
  constructor
  · intro clear page later x y before after
    have listed := List.mem_of_getElem? before
    have listed' := List.mem_of_getElem? after
    rw [hides x listed y listed']
    exact clear page later _ _ ⟨x, before, rfl⟩ ⟨y, after, rfl⟩
  · rintro clear page later _ _ ⟨x, before, rfl⟩ ⟨y, after, rfl⟩
    have listed := List.mem_of_getElem? before
    have listed' := List.mem_of_getElem? after
    rw [← hides x listed y listed']
    exact clear page later x y before after

/-! ## What the entries of a listing show -/

theorem objectEntry_inl (filed : Filed req.bucketID s) {K : Key}
    (listed : .inl K ∈ (objectListing req).entries (listedKeys req s)) :
    ∃ key entry, K = .listObject req.bucketID key ∧
      s.lookup (.listObject req.bucketID key) = some entry ∧ entry.key = key ∧
      req.keyPrefix <+: key.bytes ∧
      commonPrefixOf req.keyPrefix req.delimiter key.bytes = none ∧
      objectEntry s (.inl K) = { name := key.bytes, head := headFromListEntry entry } := by
  obtain ⟨member, single⟩ := (Rollup.Listing.mem_entries_inl _).mp listed
  obtain ⟨key, entry, rfl, starts, found⟩ := mem_listedKeys.mp member
  have own := filed key entry found
  refine ⟨key, entry, rfl, found, own, starts, ?_, ?_⟩
  · rwa [group_listObject starts] at single
  · simp [objectEntry, found, asObjectListEntry, ← own, GoString.bytes]

theorem mem_entries_commonPrefix {name : Bytes} :
    .inr name ∈ (objectListing req).entries (listedKeys req s) ↔
      ∃ key entry, s.lookup (.listObject req.bucketID key) = some entry ∧
        req.keyPrefix <+: key.bytes ∧
        commonPrefixOf req.keyPrefix req.delimiter key.bytes = some name := by
  rw [Rollup.Listing.mem_entries_inr]
  constructor
  · rintro ⟨K, member, rolled⟩
    obtain ⟨key, entry, rfl, starts, found⟩ := mem_listedKeys.mp member
    rw [group_listObject starts] at rolled
    exact ⟨key, entry, found, starts, rolled⟩
  · rintro ⟨key, entry, found, starts, rolled⟩
    refine ⟨.listObject req.bucketID key, mem_listedKeys.mpr ⟨key, entry, rfl, starts, found⟩, ?_⟩
    rwa [group_listObject starts]

theorem mem_headsOf (filed : Filed req.bucketID s) {listed : List (Key ⊕ Bytes)}
    (within : ∀ x ∈ listed, x ∈ (objectListing req).entries (listedKeys req s))
    {head : ObjectHead} :
    head ∈ headsOf (listed.map (objectEntry s)) ↔
      ∃ key entry, .inl (.listObject req.bucketID key) ∈ listed ∧
        s.lookup (.listObject req.bucketID key) = some entry ∧
        head = headFromListEntry entry := by
  simp only [headsOf, List.mem_map, List.mem_filter]
  constructor
  · rintro ⟨_, ⟨⟨x, member, rfl⟩, single⟩, rfl⟩
    cases x with
    | inr c => simp at single
    | inl K =>
      obtain ⟨key, entry, rfl, found, -, -, -, shown⟩ := objectEntry_inl filed (within _ member)
      exact ⟨key, entry, member, found, by rw [shown]⟩
  · rintro ⟨key, entry, member, found, rfl⟩
    obtain ⟨key', entry', same, found', -, -, -, shown⟩ := objectEntry_inl filed (within _ member)
    cases same
    cases found.symm.trans found'
    exact ⟨_, ⟨⟨_, member, rfl⟩, by rw [shown]; rfl⟩, by rw [shown]⟩

theorem mem_commonPrefixesOf {listed : List (Key ⊕ Bytes)} {name : Bytes} :
    name ∈ commonPrefixesOf (listed.map (objectEntry s)) ↔ .inr name ∈ listed := by
  simp only [commonPrefixesOf, List.mem_map, List.mem_filter]
  constructor
  · rintro ⟨_, ⟨⟨x, member, rfl⟩, rolled⟩, rfl⟩
    cases x with
    | inr c => exact member
    | inl K => simp at rolled
  · intro member
    exact ⟨_, ⟨⟨_, member, rfl⟩, rfl⟩, rfl⟩

/-- Listing every entry is listing everything. -/
theorem listsEverything_of_entries (filed : Filed req.bucketID s) {pages : List ListObjectsResult}
    (contents : pages.flatMap (·.contents) = headsOf (fullListing req s))
    (commonPrefixes : pages.flatMap (·.commonPrefixes) = commonPrefixesOf (fullListing req s)) :
    ListsEverything req s pages := by
  have nodup := (listedKeys_sorted req s).entries_nodup
  constructor
  · intro head
    rw [contents, fullListing, mem_headsOf filed fun x member => member]
    constructor
    · rintro ⟨key, entry, member, found, rfl⟩
      obtain ⟨key', entry', same, -, -, starts, single, -⟩ := objectEntry_inl filed member
      cases same
      exact ⟨key, entry, found, starts, single, rfl⟩
    · rintro ⟨key, entry, found, starts, single, rfl⟩
      refine ⟨key, entry, (Rollup.Listing.mem_entries_inl _).mpr
        ⟨mem_listedKeys.mpr ⟨key, entry, rfl, starts, found⟩, ?_⟩, found, rfl⟩
      rwa [group_listObject starts]
  · rw [contents, headsOf, fullListing, List.filter_map, List.map_map, List.map_map]
    refine List.Nodup.map_on ?_ (nodup.filter _)
    intro x member y member' same
    obtain ⟨listed, single⟩ := List.mem_filter.mp member
    obtain ⟨listed', single'⟩ := List.mem_filter.mp member'
    cases x with
    | inr c => cases single
    | inl K =>
      cases y with
      | inr c => cases single'
      | inl K' =>
        obtain ⟨key, entry, rfl, -, own, -, -, shown⟩ := objectEntry_inl filed listed
        obtain ⟨key', entry', rfl, -, own', -, -, shown'⟩ := objectEntry_inl filed listed'
        simp only [Function.comp_apply, shown, shown'] at same
        have keys : key = key' := own.symm.trans ((congrArg GoString.text same).trans own')
        rw [keys]
  · intro name
    rw [commonPrefixes, fullListing, mem_commonPrefixesOf, mem_entries_commonPrefix]
  · rw [commonPrefixes, commonPrefixesOf, fullListing, List.filter_map, List.map_map]
    refine List.Nodup.map_on ?_ (nodup.filter _)
    intro x member y member' same
    have rolled := (List.mem_filter.mp member).2
    have rolled' := (List.mem_filter.mp member').2
    cases x with
    | inl K => simp at rolled
    | inr c =>
      cases y with
      | inl K => simp at rolled'
      | inr d => exact congrArg Sum.inr same

/-- Pages that list everything do not hide a name. -/
theorem pageEndsClear_of_listed (served : Served req s) (indexed : Indexed req.bucketID s)
    (first : req.continuationToken = []) {fuel : Nat} {pages : List ListObjectsResult}
    (collected : followPages s fuel req = some pages) (everything : ListsEverything req s pages) :
    PageEndsClear req s := by
  have positive : 0 < req.maxKeys.toNat := Int.pos_iff_toNat_pos.mp served.maxKeys
  have shown := followPages_eq served indexed none (pageKeys_first first) fuel
  rw [collected, Option.map_some] at shown
  obtain ⟨listed, paged, same⟩ := Option.map_eq_some_iff.mp shown.symm
  obtain ⟨heads, names⟩ := Prod.mk.inj same
  have sublist := Pager.pages_sublist positive paged
  rw [pageEndsClear_iff indexed.filed]
  refine (Pager.pages_complete positive paged).mp (sublist.eq_of_length_le ?_)
  refine (List.subperm_of_subset (listedKeys_sorted req s).entries_nodup
    fun x member => ?_).length_le
  cases x with
  | inr name =>
    have shownName := (everything.commonPrefixes name).mpr (mem_entries_commonPrefix.mp member)
    rw [← names] at shownName
    exact mem_commonPrefixesOf.mp shownName
  | inl K =>
    obtain ⟨key, entry, rfl, found, own, starts, single, -⟩ :=
      objectEntry_inl indexed.filed member
    have shownHead := (everything.objects _).mpr ⟨key, entry, found, starts, single, rfl⟩
    rw [← heads] at shownHead
    obtain ⟨key', entry', inListed, found', sameHead⟩ :=
      (mem_headsOf indexed.filed fun x onPage => sublist.subset onPage).mp shownHead
    have keys : key = key' := by
      rw [← own, ← indexed.filed key' entry' found']
      exact congrArg (GoString.text ∘ ObjectHead.key) sameHead
    rw [keys]
    exact inListed

end

/-- Following the continuation tokens from the start comes to an end, and lists every
visible key and every common prefix exactly once if and only if no page ends with a name
that the next call mistakes for a common prefix. -/
theorem listing_complete_iff_pageEndsClear (req : ListObjectsRequest) (s : Store)
    (served : Served req s) (indexed : Indexed req.bucketID s)
    (first : req.continuationToken = []) :
    (∃ fuel pages, followPages s fuel req = some pages ∧ ListsEverything req s pages) ↔
      PageEndsClear req s := by
  refine ⟨fun ⟨_, _, collected, everything⟩ =>
    pageEndsClear_of_listed served indexed first collected everything, fun clear => ?_⟩
  have positive : 0 < req.maxKeys.toNat := Int.pos_iff_toNat_pos.mp served.maxKeys
  obtain ⟨listed, paged⟩ := Pager.pages_end positive
    (Nat.lt_succ_self ((objectPager req s).after none).length)
  have shown := followPages_eq served indexed none (pageKeys_first first)
    (((objectPager req s).after none).length + 1)
  rw [paged, Option.map_some] at shown
  obtain ⟨pages, collected, same⟩ := Option.map_eq_some_iff.mp shown
  obtain ⟨heads, names⟩ := Prod.mk.inj same
  rw [(Pager.pages_complete positive paged).mpr ((pageEndsClear_iff indexed.filed).mp clear)]
    at heads names
  exact ⟨_, pages, collected, listsEverything_of_entries indexed.filed heads names⟩

/-- In every store the repository reaches with texts for keys, list entries carry their own
key. -/
theorem filed_of_consistent {U : Set String} {s : Store} (h : Consistent U (objectIndex s))
    (textual : Textual s) (bucketID : String) : Filed bucketID s := by
  intro path entry found
  cases path with
  | stray raw invalid =>
    exact nomatch (textual (.listObject bucketID (.stray raw invalid)) trivial).symm.trans found
  | text key =>
  have listed : s.lookup (.listObject bucketID key) =
      (s.lookup (.objectHead bucketID key)).bind listing := (h.heads bucketID key).listed
  rw [listed, Option.bind_eq_some_iff] at found
  obtain ⟨head, current, shown⟩ := found
  obtain ⟨v, revision, lastModified, stored, -, shape⟩ := (h.heads bucketID key).current current
  have own := (h.versions.identified stored).2.1
  unfold listing at shown
  split at shown
  · cases shown
  · cases shown
    rw [shape]
    exact congrArg GoString.text own

/-- The calls that fill a bucket with the given keys, one write after the other. -/
def bucketCalls (keys : List String) : List (CallContext × ObjectCall) :=
  (numberedContext 1 1, .createBucket { tenantID := "t", name := "b", region := "r" }) ::
    keys.zipIdx.map fun (key, i) =>
      (numberedContext (i + 2) (i + 2), .putObjectVersion { bucketID := "bkt_1", key })

def bucketWith (keys : List String) : Store := runCalls plainPlatform (bucketCalls keys) ∅

theorem bucketWith_filed {keys : List String} (fresh : NeverRepeats (bucketCalls keys)) :
    Filed "bkt_1" (bucketWith keys) := by
  have start : Consistent (∅ : Set String) (objectIndex (∅ : Store)) := Consistent.empty
  obtain ⟨V, consistent⟩ := runCalls_consistent start fresh fun _ _ _ _ issued => issued
  exact filed_of_consistent consistent (runCalls_textual _ fun _ _ => rfl) _

/-- Two keys of one folder and a key beside it, listed in pages of one entry. -/
def folderRequest : ListObjectsRequest :=
  { bucketID := "bkt_1", delimiter := bytes "/", maxKeys := 1 }

theorem folderRequest_lists_everything :
    ∃ fuel pages, followPages (bucketWith ["a/b", "a/c", "d"]) fuel folderRequest = some pages ∧
      ListsEverything folderRequest (bucketWith ["a/b", "a/c", "d"]) pages := by
  have indexed : Indexed folderRequest.bucketID (bucketWith ["a/b", "a/c", "d"]) :=
    ⟨bucketWith_filed (by decide +kernel), by decide +kernel⟩
  refine (listing_complete_iff_pageEndsClear _ _ ⟨by decide, by decide +kernel, by decide⟩
    indexed rfl).mpr (Pager.pageEnds_of_checked (by decide) ?_)
  decide +kernel

/-- A folder placeholder and a key in the folder, listed by the folder's own name. -/
def placeholderRequest : ListObjectsRequest :=
  { bucketID := "bkt_1", keyPrefix := bytes "a/", delimiter := bytes "/", maxKeys := 1 }

/-- The placeholder ends the first page, and its name is taken for a common prefix: the key
behind it is on no page. -/
theorem placeholder_hides_folder :
    ¬ ∃ fuel pages, followPages (bucketWith ["a/", "a/b"]) fuel placeholderRequest = some pages ∧
      ListsEverything placeholderRequest (bucketWith ["a/", "a/b"]) pages := by
  rintro ⟨fuel, pages, collected, everything⟩
  have indexed : Indexed placeholderRequest.bucketID (bucketWith ["a/", "a/b"]) :=
    ⟨bucketWith_filed (by decide +kernel), by decide +kernel⟩
  have clear := pageEndsClear_of_listed ⟨by decide, by decide +kernel, by decide⟩ indexed rfl
    collected everything
  have hidden : ∃ last ∈ (fullListing placeholderRequest (bucketWith ["a/", "a/b"]))[0]?,
      ∃ next ∈ (fullListing placeholderRequest (bucketWith ["a/", "a/b"]))[1]?,
        bytes "/" ≠ [] ∧ bytes "/" <:+ last.name ∧ last.name <+: next.name := by decide +kernel
  obtain ⟨last, before, next, after, hides⟩ := hidden
  exact clear 1 Nat.one_pos last next before after hides

end Namros.Guarantees
