import Namros.Listing.Objects

/-!
# Following the pages of an object listing

A page of `ListObjects` is cut from the listing behind its continuation token, and a token
that the listing itself returned stands for the entry it was taken from. So the pages a
client collects are the pages of the rolled-up listing.
-/

namespace Namros.Listing

open Library Source Transaction Rollup OrderedStore

variable {req : ListObjectsRequest} {s : Store}

/-! ## Tokens -/

variable {x : Key ⊕ Bytes}

/-- What an entry's name tells as a token: its place, whether it closes, and the prefix. -/
theorem objectEntry_token (filed : Filed req.bucketID s)
    (listed : x ∈ (objectListing req).entries (listedKeys req s)) :
    (objectListing req).place x = listObjectPath req.bucketID (objectEntry s x).name ∧
      (objectListing req).closing x = closesToken req.delimiter (objectEntry s x).name ∧
      req.keyPrefix <+: (objectEntry s x).name := by
  cases x with
  | inr c =>
    obtain ⟨K, -, rolled⟩ := (Rollup.Listing.mem_entries_inr _).mp listed
    obtain ⟨name, -, rolled⟩ := Option.bind_eq_some_iff.mp rolled
    obtain ⟨present, suffix⟩ := commonPrefixOf_suffix rolled
    refine ⟨rfl, ?_, ((commonPrefixOf_law rolled).mp List.prefix_rfl).1⟩
    simp [Rollup.Listing.closing, closesToken, objectEntry, present, suffix]
  | inl K =>
    have member := ((Rollup.Listing.mem_entries_inl _).mp listed).1
    obtain ⟨entry, found, named⟩ := listed_entry filed member
    obtain ⟨key, rfl, starts, same⟩ := listedName_eq_some.mp named
    have name : (objectEntry s (.inl (.listObject req.bucketID key))).name = key.bytes := by
      simp only [objectEntry, found, same]
    rw [name]
    refine ⟨?_, ?_, starts⟩
    · change Key.encode _ = _
      simp [listObjectPath, below, Key.encode, Key.path, Path.join, esc]
    simp only [Rollup.Listing.closing, objectListing, named, same, Option.map_some,
      Option.getD_some]

/-- The keys a request is served from. -/
def pageKeys (req : ListObjectsRequest) (s : Store) : List Key :=
  remaining req (listObjectsStart req).1 (listObjectsStart req).2 s

theorem pageKeys_first (first : req.continuationToken = []) :
    pageKeys req s = listedKeys req s := by
  have start : listObjectsStart req = (listObjectPath req.bucketID req.keyPrefix, []) := by
    simp [listObjectsStart, first]
  rw [pageKeys, start]
  exact keysWhere_prefixRange (rangeEnd_listObjectPath req.bucketID req.keyPrefix)

/-- A token the listing returned stands for its entry: the next page is served from what
lies beyond that entry. -/
theorem pageKeys_token (filed : Filed req.bucketID s)
    (listed : x ∈ (objectListing req).entries (listedKeys req s))
    (named : (objectEntry s x).name ≠ []) :
    pageKeys { req with continuationToken := (objectEntry s x).name } s =
      (listedKeys req s).filter ((objectListing req).beyond x) := by
  obtain ⟨place, closing, prefixed⟩ := objectEntry_token filed listed
  have above := Bytes.le_of_isPrefix ((listObjectPath_isPrefix_iff req.bucketID).mpr prefixed)
  refine RollupScan.remaining_beyond (fun _ => rfl) (distinct_listed _ _ s)
    (rangeEnd_listObjectPath req.bucketID req.keyPrefix) fun K => ?_
  rw [place, closing]
  by_cases closes : closesToken req.delimiter (objectEntry s x).name = true
  · have reading : req.delimiter ≠ [] ∧
        req.delimiter.isSuffixOf (objectEntry s x).name = true := by
      simpa [closesToken] using closes
    simp only [listObjectsStart, if_neg named, if_pos reading, closes,
      Bytes.prefixRangeEnd_le_iff (rangeEnd_listObjectPath req.bucketID _), true_and]
    constructor
    · rintro ⟨⟨behind, outside⟩, -⟩
      exact ⟨above.trans (le_of_lt behind), behind, outside⟩
    · rintro ⟨-, behind, outside⟩
      exact ⟨⟨behind, outside⟩, Bytes.nil_lt (keyCode.nonempty K)⟩
  · have reading : ¬ (req.delimiter ≠ [] ∧
        req.delimiter.isSuffixOf (objectEntry s x).name = true) := by
      simpa [closesToken] using closes
    simp only [listObjectsStart, if_neg named, if_neg reading, closes, Bool.false_eq_true,
      false_and, not_false_eq_true, and_true]

/-! ## Pages -/

/-- A bucket whose list index is in order: every entry carries the key it is stored under,
and no key is empty. -/
structure Indexed (bucketID : String) (s : Store) : Prop where
  filed : Filed bucketID s
  named : s.lookup (.listObject bucketID "") = none

theorem Indexed.entry_named (indexed : Indexed req.bucketID s)
    (listed : x ∈ (objectListing req).entries (listedKeys req s)) :
    (objectEntry s x).name ≠ [] := by
  cases x with
  | inr c =>
    obtain ⟨K, -, rolled⟩ := (Rollup.Listing.mem_entries_inr _).mp listed
    obtain ⟨name, -, rolled⟩ := Option.bind_eq_some_iff.mp rolled
    obtain ⟨present, suffix⟩ := commonPrefixOf_suffix rolled
    rintro (rfl : c = [])
    exact present (List.suffix_nil.mp suffix)
  | inl K =>
    have member := ((Rollup.Listing.mem_entries_inl _).mp listed).1
    obtain ⟨key, entry, rfl, -, found⟩ := mem_listedKeys.mp member
    have name : (objectEntry s (.inl (.listObject req.bucketID key))).name = bytes entry.key := by
      simp [objectEntry, found, asObjectListEntry]
    rw [name, ne_eq, bytes_eq_nil]
    intro empty
    have own := indexed.filed key entry found
    rw [empty] at own
    subst own
    rw [indexed.named] at found
    cases found

/-- A request that is served at all. -/
structure Served (req : ListObjectsRequest) (s : Store) : Prop where
  bucketID : req.bucketID ≠ ""
  bucket : s.lookup (.bucketByID req.bucketID) ≠ none
  maxKeys : 0 < req.maxKeys

/-- What a served request returns. -/
theorem listObjects_run (served : Served req s) (filed : Filed req.bucketID s)
    (inside : ∀ K ∈ pageKeys req s, K ∈ listedKeys req s) :
    (listObjects req).run s =
      .ok (listObjectsPage req.maxKeys.toNat
        (pageEntries req req.maxKeys.toNat s [] (pageKeys req s)), s) := by
  have enough : (pageKeys req s).length < s.keys.length + 1 :=
    Nat.lt_succ_of_le keysWhere_length_le
  have room : (scanned {}).entries.length ≤ req.maxKeys.toNat + 1 := Nat.zero_le _
  obtain ⟨final, ends, collected⟩ := (objectScan_reads filed).loop_spec inside room
    (fun c seen => absurd seen List.not_mem_nil) enough
  have shown : Sum.elim (fun K => objectEntry s (.inl K)) (objectScan req s).rolled =
      objectEntry s := by
    funext x
    cases x <;> rfl
  rw [RollupScan.pageEntries, shown] at collected
  have positive : ¬ req.maxKeys ≤ 0 := not_le.mpr served.maxKeys
  have closure : (listObjectsClosure req req.maxKeys.toNat {}).run s = .ok (listed final, s) := by
    refine run_bind_ok.mpr ⟨_, s, rfl, run_bind_ok.mpr ⟨(), s, ?_, ?_⟩⟩
    · exact run_failIf_ok.mpr ⟨served.bucket, rfl⟩
    · refine run_bind_ok.mpr ⟨s, s, rfl, ?_⟩
      exact congrArg (fun found => Except.ok (Option.getD found {}, s))
        ((listObjectsLoop_eq ..).trans (congrArg (Option.map listed) ends))
  unfold listObjects listObjectsRange
  simp only [run_bind, failIf, served.bucketID, if_false, run_pure, if_neg positive, closure,
    listed, collected]
  rfl

/-- The heads of the entries that are not rolled up. -/
def headsOf (entries : List ListEntry) : List ObjectHead :=
  (entries.filter (!·.isCommonPrefix)).map (·.head)

def commonPrefixesOf (entries : List ListEntry) : List Bytes :=
  (entries.filter (·.isCommonPrefix)).map (·.name)

theorem listObjectsPage_last {maxKeys : Nat} {keys : List Key}
    (short : ((objectListing req).entries keys).length ≤ maxKeys) :
    listObjectsPage maxKeys (pageEntries req maxKeys s [] keys) =
      { contents := headsOf (((objectListing req).entries keys).map (objectEntry s))
        commonPrefixes :=
          commonPrefixesOf (((objectListing req).entries keys).map (objectEntry s)) } := by
  have all : pageEntries req maxKeys s [] keys =
      ((objectListing req).entries keys).map (objectEntry s) := by
    unfold pageEntries
    rw [List.nil_append, List.take_of_length_le]
    rw [List.length_map]
    omega
  have fits : ¬ maxKeys < (((objectListing req).entries keys).map (objectEntry s)).length := by
    rw [List.length_map]
    omega
  rw [all]
  simp only [listObjectsPage, decide_eq_false fits, Bool.false_eq_true, if_false]
  rfl

theorem listObjectsPage_full {maxKeys : Nat} {keys : List Key} (positive : 0 < maxKeys)
    (full : maxKeys < ((objectListing req).entries keys).length)
    (last : ((objectListing req).entries keys)[maxKeys - 1]? = some x) :
    listObjectsPage maxKeys (pageEntries req maxKeys s [] keys) =
      { contents := headsOf ((((objectListing req).entries keys).take maxKeys).map (objectEntry s))
        commonPrefixes := commonPrefixesOf
          ((((objectListing req).entries keys).take maxKeys).map (objectEntry s))
        isTruncated := true
        nextContinuationToken := (objectEntry s x).name } := by
  have more : maxKeys < (pageEntries req maxKeys s [] keys).length := by
    unfold pageEntries
    rw [List.nil_append, List.length_take, List.length_map]
    omega
  have cut : (pageEntries req maxKeys s [] keys).take maxKeys =
      (((objectListing req).entries keys).take maxKeys).map (objectEntry s) := by
    unfold pageEntries
    rw [List.nil_append, List.take_take, List.map_take, Nat.min_eq_left (Nat.le_succ _)]
  have token : (pageEntries req maxKeys s [] keys)[maxKeys - 1]? = some (objectEntry s x) := by
    unfold pageEntries
    rw [List.nil_append, List.getElem?_take_of_lt (by omega), List.getElem?_map, last]
    rfl
  simp only [listObjectsPage, decide_eq_true more, if_true, cut, token]
  rfl

/-- The listing of a request, resumed after the entries its tokens stand for. -/
def objectPager (req : ListObjectsRequest) (s : Store) : Pager (Key ⊕ Bytes) :=
  (listedKeys_sorted req s).pager

/-- The pages a client collects are the pages of the rolled-up listing. -/
theorem followPages_eq (served : Served req s) (indexed : Indexed req.bucketID s)
    (token : Option (Key ⊕ Bytes))
    (serves : pageKeys req s = (objectListing req).namesAfter (listedKeys req s) token)
    (fuel : Nat) :
    (followPages s fuel req).map (fun pages =>
        (pages.flatMap (·.contents), pages.flatMap (·.commonPrefixes))) =
      ((objectPager req s).pages req.maxKeys.toNat fuel token).map fun pages =>
        (headsOf (pages.flatten.map (objectEntry s)),
          commonPrefixesOf (pages.flatten.map (objectEntry s))) := by
  induction fuel generalizing req token with
  | zero => rfl
  | succ fuel ih =>
    have suffix : (objectListing req).namesAfter (listedKeys req s) token <:+ listedKeys req s := by
      cases token with
      | none => exact List.suffix_rfl
      | some x => exact (listedKeys_sorted req s).filter_beyond x
    have positive : 0 < req.maxKeys.toNat := Int.pos_iff_toNat_pos.mp served.maxKeys
    have run := listObjects_run served indexed.filed
      (fun K member => suffix.subset (serves ▸ member))
    rw [serves] at run
    have shown : (objectPager req s).after token =
        (objectListing req).entries ((objectListing req).namesAfter (listedKeys req s) token) := rfl
    rw [followPages, run, Pager.pages, shown]
    generalize (objectListing req).namesAfter (listedKeys req s) token = keys at *
    dsimp only
    by_cases short : ((objectListing req).entries keys).length ≤ req.maxKeys.toNat
    · rw [listObjectsPage_last short, if_pos short]
      simp
    have full := not_le.mp short
    obtain ⟨x, last⟩ : ∃ x, ((objectListing req).entries keys)[req.maxKeys.toNat - 1]? = some x :=
      ⟨_, List.getElem?_eq_getElem (by omega)⟩
    have listed : x ∈ (objectListing req).entries (listedKeys req s) :=
      (rollup_suffix suffix).subset (List.mem_of_getElem? last)
    have served' : Served { req with continuationToken := (objectEntry s x).name } s :=
      ⟨served.bucketID, served.bucket, served.maxKeys⟩
    have resumed : pageKeys { req with continuationToken := (objectEntry s x).name } s =
        (objectListing req).namesAfter (listedKeys req s) (some x) :=
      pageKeys_token indexed.filed listed (indexed.entry_named listed)
    have later := ih served' indexed _ resumed
    rw [listObjectsPage_full positive full last, if_neg short, last]
    simp only [if_true]
    have joined := congrArg (Option.map fun rest : List ObjectHead × List Bytes =>
      (headsOf ((((objectListing req).entries keys).take req.maxKeys.toNat).map (objectEntry s)) ++
          rest.1,
        commonPrefixesOf
          ((((objectListing req).entries keys).take req.maxKeys.toNat).map (objectEntry s)) ++
          rest.2)) later
    rw [Option.map_map, Option.map_map] at joined ⊢
    refine Eq.trans (Eq.trans (congrArg (Option.map · _) ?_) joined) (congrArg (Option.map · _) ?_)
    · funext rest
      simp
    · funext rest
      simp [headsOf, commonPrefixesOf]

end Namros.Listing
