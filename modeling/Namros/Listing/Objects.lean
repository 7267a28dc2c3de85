import Namros.Library.RollupScan
import Namros.Source.ObjectListing
import Namros.Source.Scans

/-!
# The object listing as a rolled-up listing

The stored list entries with a prefix, in key order, and the common prefixes they are
rolled up into form a `Rollup.Listing`. The loop of `listObjectsRange` computes its entries
up to the first one that does not fit on the page.
-/

namespace Namros.Listing

open Library Source Rollup OrderedStore

/-! ## Names and paths -/

theorem listObjectPath_isPrefix_encode (bucketID : String) (name : Bytes) (K : Key) :
    listObjectPath bucketID name <+: K.encode ↔
      ∃ key : GoString, K = .listObject bucketID key ∧ name <+: key.bytes := by
  refine (below_isPrefix_family (.listObject bucketID) esc (escape_closed name)
    (fun key => ⟨_, rfl⟩) (fun J c r shape => ?_) K).trans ?_
  · cases J <;> simp [Key.path, optionalComponent, bytes_inj] at shape ⊢
    exact shape.1
  · simp only [esc, escape_isPrefix_iff]

variable {name : Bytes}

theorem listObjectPath_isPrefix_iff (bucketID : String) {other : Bytes} :
    listObjectPath bucketID name <+: listObjectPath bucketID other ↔ name <+: other :=
  below_isPrefix_below.trans escape_isPrefix_iff

/-- A string that starts with the separator has a prefix range that ends. -/
theorem rangeEnd_below (path : List Bytes) (start : Bytes) :
    Bytes.prefixRangeEnd (below path start) ≠ [] := by
  have separated : below path start = Path.separator ::
      (bytes "namros" ++ Path.join (bytes "v1" :: path) ++ Path.separator :: start) := by
    simp [below]
  rw [separated, Bytes.prefixRangeEnd_cons]
  split
  · decide
  · exact List.cons_ne_nil _ _

theorem rangeEnd_listObjectPath (bucketID : String) (name : Bytes) :
    Bytes.prefixRangeEnd (listObjectPath bucketID name) ≠ [] := rangeEnd_below _ _

/-! ## Common prefixes -/

variable {part text : Bytes} {index : Nat}

theorem indexOf_eq_some_iff :
    indexOf part text = some index ↔
      part <+: text.drop index ∧ index ≤ text.length ∧ ∀ i < index, ¬ part <+: text.drop i := by
  induction text generalizing index with
  | nil =>
    rw [indexOf]
    by_cases empty : part = []
    · subst empty
      rw [if_pos rfl, Option.some.injEq]
      constructor
      · rintro rfl
        exact ⟨List.nil_prefix, Nat.zero_le _, fun i below => absurd below (Nat.not_lt_zero i)⟩
      · rintro ⟨-, inside, -⟩
        exact (Nat.le_zero.mp inside).symm
    · simp [empty]
  | cons c text ih =>
    rw [indexOf]
    by_cases here : part <+: c :: text
    · rw [if_pos (List.isPrefixOf_iff_prefix.mpr here), Option.some.injEq]
      constructor
      · rintro rfl
        exact ⟨here, Nat.zero_le _, fun i below => absurd below (Nat.not_lt_zero i)⟩
      · rintro ⟨-, -, first⟩
        by_contra later
        exact first 0 (by omega) here
    · rw [if_neg (by simpa using here), Option.map_eq_some_iff]
      constructor
      · rintro ⟨i, found, rfl⟩
        obtain ⟨starts, inside, first⟩ := ih.mp found
        refine ⟨starts, Nat.succ_le_succ inside, fun j below => ?_⟩
        cases j with
        | zero => exact here
        | succ j => exact first j (Nat.lt_of_succ_lt_succ below)
      · rintro ⟨starts, inside, first⟩
        cases index with
        | zero => exact absurd starts here
        | succ i =>
          refine ⟨i, ih.mpr ⟨starts, Nat.le_of_succ_le_succ inside, fun j below => ?_⟩, rfl⟩
          exact first (j + 1) (Nat.succ_lt_succ below)

/-- A text is matched at a place that only depends on what comes up to the match. -/
theorem isPrefix_drop_take {rest : Bytes} {i n : Nat} (inside : n ≤ text.length)
    (room : i + part.length ≤ n) :
    part <+: (text.take n ++ rest).drop i ↔ part <+: text.drop i := by
  have same : ((text.take n ++ rest).drop i).take part.length =
      (text.drop i).take part.length := by
    rw [List.drop_append_of_le_length (by rw [List.length_take]; omega),
      List.take_append_of_le_length (by rw [List.length_drop, List.length_take]; omega),
      List.drop_take, List.take_take, Nat.min_eq_left (by omega)]
  rw [List.prefix_iff_eq_take, List.prefix_iff_eq_take, same]

theorem indexOf_room (found : indexOf part text = some index) :
    index + part.length ≤ text.length := by
  obtain ⟨starts, inside, -⟩ := indexOf_eq_some_iff.mp found
  have fits := starts.length_le
  rw [List.length_drop] at fits
  omega

theorem indexOf_take_append {rest : Bytes} (found : indexOf part text = some index) :
    indexOf part (text.take (index + part.length) ++ rest) = some index := by
  obtain ⟨starts, inside, first⟩ := indexOf_eq_some_iff.mp found
  have room := indexOf_room found
  refine indexOf_eq_some_iff.mpr ⟨(isPrefix_drop_take room le_rfl).mpr starts, ?_, ?_⟩
  · rw [List.length_append, List.length_take]
    omega
  · intro i below matched
    exact first i below ((isPrefix_drop_take room (by omega)).mp matched)

variable {start : Bytes}

/-- The names rolled up into a common prefix are those that start with it. -/
theorem commonPrefixOf_law {delimiter other c : Bytes}
    (rolled : commonPrefixOf start delimiter name = some c) :
    c <+: other ↔ start <+: other ∧ commonPrefixOf start delimiter other = some c := by
  unfold commonPrefixOf at rolled ⊢
  by_cases absent : delimiter = []
  · simp [absent] at rolled
  simp only [if_neg absent, Option.map_eq_some_iff] at rolled ⊢
  obtain ⟨index, found, rfl⟩ := rolled
  constructor
  · rintro ⟨rest, rfl⟩
    refine ⟨⟨_, (List.append_assoc _ _ _).symm⟩, index, ?_, ?_⟩
    · rw [List.append_assoc, List.drop_left]
      exact indexOf_take_append found
    have room := indexOf_room found
    rw [List.append_assoc, List.drop_left, List.take_append_of_le_length, List.take_take,
      Nat.min_self]
    rw [List.length_take]
    omega
  · rintro ⟨⟨rest, rfl⟩, index', -, same⟩
    rw [List.drop_left] at same
    rw [← same, List.prefix_append_right_inj]
    exact List.take_prefix _ _

/-- A common prefix ends with the delimiter. -/
theorem commonPrefixOf_suffix {delimiter c : Bytes}
    (rolled : commonPrefixOf start delimiter name = some c) : delimiter ≠ [] ∧ delimiter <:+ c := by
  unfold commonPrefixOf at rolled
  by_cases absent : delimiter = []
  · simp [absent] at rolled
  simp only [if_neg absent, Option.map_eq_some_iff] at rolled
  obtain ⟨index, found, rfl⟩ := rolled
  refine ⟨absent, List.IsSuffix.trans ?_ (List.suffix_append _ _)⟩
  obtain ⟨starts, -, -⟩ := indexOf_eq_some_iff.mp found
  rw [List.take_add, ← List.prefix_iff_eq_take.mp starts]
  exact List.suffix_append _ _

/-! ## The listing -/

/-- A continuation token that `listObjectsRange` reads as a common prefix. -/
def closesToken (delimiter token : Bytes) : Bool :=
  decide (delimiter ≠ []) && delimiter.isSuffixOf token

/-- The name a key of the list index is listed under. -/
def listedName (req : ListObjectsRequest) : Key → Option Bytes
  | .listObject bucketID key =>
    if bucketID = req.bucketID ∧ req.keyPrefix <+: key.bytes then some key.bytes else none
  | _ => none

variable {req : ListObjectsRequest} {K : Key}

theorem listedName_eq_some :
    listedName req K = some name ↔
      ∃ key : GoString, K = .listObject req.bucketID key ∧ req.keyPrefix <+: key.bytes ∧
        name = key.bytes := by
  constructor
  · intro named
    cases K <;> simp only [listedName, reduceCtorEq] at named
    split at named
    · rename_i listed
      cases named
      exact ⟨_, by rw [listed.1], listed.2, rfl⟩
    · cases named
  · rintro ⟨key, rfl, starts, rfl⟩
    simp [listedName, starts]

/-- The listing of one bucket under one prefix and delimiter. -/
def objectListing (req : ListObjectsRequest) : Rollup.Listing Key Bytes where
  code := Key.encode
  group K := (listedName req K).bind (commonPrefixOf req.keyPrefix req.delimiter)
  stem := listObjectPath req.bucketID
  closes K := ((listedName req K).map (closesToken req.delimiter)).getD false
  gathers := by
    intro J K c rolled
    obtain ⟨name, -, rolled⟩ := Option.bind_eq_some_iff.mp rolled
    rw [listObjectPath_isPrefix_encode, Option.bind_eq_some_iff]
    constructor
    · rintro ⟨key, rfl, starts⟩
      obtain ⟨inside, same⟩ := (commonPrefixOf_law rolled).mp starts
      exact ⟨key.bytes, listedName_eq_some.mpr ⟨key, rfl, inside, rfl⟩, same⟩
    · rintro ⟨name', named, same⟩
      obtain ⟨key, rfl, inside, rfl⟩ := listedName_eq_some.mp named
      exact ⟨key, rfl, (commonPrefixOf_law rolled).mpr ⟨inside, same⟩⟩

theorem group_listObject {key : GoString} (starts : req.keyPrefix <+: key.bytes) :
    (objectListing req).group (.listObject req.bucketID key) =
      commonPrefixOf req.keyPrefix req.delimiter key.bytes := by
  have named : listedName req (.listObject req.bucketID key) = some key.bytes :=
    listedName_eq_some.mpr ⟨key, rfl, starts, rfl⟩
  simp [objectListing, named]

/-- The stored keys of the listing, in key order. -/
def listedKeys (req : ListObjectsRequest) (s : Store) : List Key :=
  keysWhere keyCode (fun x => (listObjectPath req.bucketID req.keyPrefix).isPrefixOf x) s

theorem mem_listedKeys {s : Store} :
    K ∈ listedKeys req s ↔
      ∃ (key : GoString) (entry : _), K = .listObject req.bucketID key ∧
        req.keyPrefix <+: key.bytes ∧ s.lookup (.listObject req.bucketID key) = some entry :=
  mem_keysWhere_family (listObjectPath_isPrefix_encode _ _)

theorem distinct_listed (bucketID : String) (name : Bytes) (s : Store) :
    Distinct keyCode (fun x => (listObjectPath bucketID name).isPrefixOf x) s :=
  distinct_of_family (fun K starts =>
    ((listObjectPath_isPrefix_encode _ _ K).mp starts).imp fun _ named => named.1)
    (fun j k same => by simpa [Key.path] using same) s

theorem listedKeys_sorted (req : ListObjectsRequest) (s : Store) :
    (objectListing req).Sorted (listedKeys req s) :=
  (distinct_listed _ _ s).keysWhere_strict

/-! ## One batch of keys -/

/-- The list entries of a bucket carry the key they are stored under. -/
def Filed (bucketID : String) (s : Store) : Prop :=
  ∀ (key : GoString) entry, s.lookup (.listObject bucketID key) = some entry → entry.key = key

/-- An entry of the listing as `listObjectsRange` collects it. -/
def objectEntry (s : Store) : Key ⊕ Bytes → ListEntry
  | .inl K =>
    match (s.lookup K).bind (asObjectListEntry K) with
    | some entry => { name := bytes entry.key, head := headFromListEntry entry }
    | none => { name := [] }
  | .inr c => { name := c, isCommonPrefix := true }

@[simp] theorem objectEntry_single (s : Store) (K : Key) :
    (objectEntry s (.inl K)).isCommonPrefix = false := by
  cases found : (s.lookup K).bind (asObjectListEntry K) <;> simp only [objectEntry, found]

@[simp] theorem objectEntry_rolled (s : Store) (c : Bytes) :
    objectEntry s (.inr c) = { name := c, isCommonPrefix := true } := rfl

section Batch

variable {req : ListObjectsRequest} {s : Store} {maxKeys : Nat}

/-- A stored list entry of the listing, as the loop reads it. -/
theorem listed_entry (filed : Filed req.bucketID s) (member : K ∈ listedKeys req s) :
    ∃ entry, (s.lookup K).bind (asObjectListEntry K) = some entry ∧
      listedName req K = some (bytes entry.key) := by
  obtain ⟨key, entry, rfl, starts, found⟩ := mem_listedKeys.mp member
  refine ⟨entry, by rw [found]; rfl, listedName_eq_some.mpr ⟨key, rfl, starts, ?_⟩⟩
  rw [← filed key entry found]
  rfl

/-- How the loop reads the keys. -/
def objectScan (req : ListObjectsRequest) (s : Store) : RollupScan Key ListEntry Bytes where
  classify K :=
    match (s.lookup K).bind (asObjectListEntry K) with
    | none => none
    | some entry =>
      if ¬ req.keyPrefix.isPrefixOf (bytes (headFromListEntry entry).key) then none
      else
        some (match commonPrefixOf req.keyPrefix req.delimiter (bytes (headFromListEntry entry).key)
          with
          | some c => .inr c
          | none => .inl (objectEntry s (.inl K)))
  rolled c := objectEntry s (.inr c)
  stem := listObjectPath req.bucketID

/-- What is collected, as the scan has it. -/
def scanned (progress : ListProgress) : RollupScan.Progress ListEntry Bytes :=
  { entries := progress.entries, groups := progress.commonPrefixes }

def listed (progress : RollupScan.Progress ListEntry Bytes) : ListProgress :=
  { entries := progress.entries, commonPrefixes := progress.groups }

def batchEnd (req : ListObjectsRequest) : RollupScan.BatchEnd Bytes → BatchEnd
  | .full => .full
  | .skipTo c => .skipTo (Bytes.prefixRangeEnd (listObjectPath req.bucketID c))
  | .scanned => .scanned

theorem addCommonPrefix_eq (req : ListObjectsRequest) (s : Store) (progress : ListProgress)
    (c : Bytes) :
    progress.addCommonPrefix c = listed ((objectScan req s).addGroup (scanned progress) c) := by
  unfold ListProgress.addCommonPrefix RollupScan.addGroup
  by_cases seen : c ∈ progress.commonPrefixes
  · rw [if_pos seen, if_pos (show c ∈ (scanned progress).groups from seen)]
    rfl
  · rw [if_neg seen, if_neg (show c ∉ (scanned progress).groups from seen)]
    rfl

/-- The loop over one batch is the scan's. -/
theorem collectObjects_eq (keys : List Key) (progress : ListProgress) :
    collectObjects req maxKeys s keys progress =
      Prod.map listed (batchEnd req)
    ((objectScan req s).collect maxKeys keys (scanned progress)) := by
  induction keys generalizing progress with
  | nil => rfl
  | cons K keys ih =>
    rw [collectObjects, RollupScan.collect]
    cases found : (s.lookup K).bind (asObjectListEntry K) with
    | none =>
      have read : (objectScan req s).classify K = none := by simp only [objectScan, found]
      simp only [read, ih]
    | some entry =>
      by_cases inside : req.keyPrefix.isPrefixOf (bytes (headFromListEntry entry).key) = true
      · cases rolled : commonPrefixOf req.keyPrefix req.delimiter
            (bytes (headFromListEntry entry).key) with
        | some c =>
          have read : (objectScan req s).classify K = some (.inr c) := by
            simp only [objectScan, found, inside, not_true_eq_false, if_false, rolled]
          simp only [inside, not_true_eq_false, if_false, rolled, read,
            addCommonPrefix_eq req s progress c]
          rfl
        | none =>
          have read : (objectScan req s).classify K = some (.inl (objectEntry s (.inl K))) := by
            simp only [objectScan, found, inside, not_true_eq_false, if_false, rolled]
          simp only [inside, not_true_eq_false, if_false, rolled, read, ih, objectEntry, found]
          rw [apply_ite (Prod.map listed (batchEnd req))]
          rfl
      · have read : (objectScan req s).classify K = none := by
          simp only [objectScan, found, if_pos inside]
        simp only [if_pos inside, read, ih]

/-- The loop over the batches is the scan's. -/
theorem listObjectsLoop_eq (stop : Bytes) (fuel : Nat) (start cursor : Bytes)
    (progress : ListProgress) :
    listObjectsLoop req maxKeys stop s fuel start cursor progress =
      ((objectScan req s).loop keyCode maxKeys stop s fuel start cursor (scanned progress)).map
        listed := by
  induction fuel generalizing start cursor progress with
  | zero => rfl
  | succ fuel ih =>
    rw [listObjectsLoop, RollupScan.loop]
    by_cases full : maxKeys < progress.entries.length
    · rw [if_pos full, if_pos (show maxKeys < (scanned progress).entries.length from full)]
      rfl
    rw [if_neg full, if_neg (show ¬ maxKeys < (scanned progress).entries.length from full)]
    dsimp only
    split
    · rfl
    rw [collectObjects_eq]
    cases ended : (objectScan req s).collect maxKeys
        (listRange keyCode start stop cursor (maxKeys + 1) [] s).1 (scanned progress) with
    | mk after ending =>
      cases ending with
      | full => rfl
      | skipTo c =>
        simp only [Prod.map, batchEnd, ih, apply_ite (Option.map listed)]
        rfl
      | scanned =>
        simp only [Prod.map, batchEnd, ih, apply_ite (Option.map listed)]
        rfl

theorem objectScan_reads (filed : Filed req.bucketID s) :
    (objectScan req s).Reads keyCode (objectListing req) (fun K => objectEntry s (.inl K))
      (Bytes.prefixRangeEnd (listObjectPath req.bucketID req.keyPrefix))
      (· ∈ listedKeys req s) s where
  coded _ := rfl
  stemmed _ := rfl
  ends c := rangeEnd_listObjectPath req.bucketID c
  bounded := rangeEnd_listObjectPath req.bucketID req.keyPrefix
  classify K member := by
    obtain ⟨entry, found, named⟩ := listed_entry filed member
    obtain ⟨key, -, starts, same⟩ := listedName_eq_some.mp named
    have inside : req.keyPrefix.isPrefixOf (bytes (headFromListEntry entry).key) = true := by
      rw [List.isPrefixOf_iff_prefix]
      change req.keyPrefix <+: bytes entry.key
      rwa [same]
    have group : (objectListing req).group K =
        commonPrefixOf req.keyPrefix req.delimiter (bytes (headFromListEntry entry).key) := by
      change (listedName req K).bind _ = _
      rw [named, Option.bind_some]
      rfl
    simp only [objectScan, found, inside, not_true_eq_false, if_false, group]
    cases commonPrefixOf req.keyPrefix req.delimiter (bytes (headFromListEntry entry).key) <;> rfl
  distinct J stored K stored' member member' same :=
    distinct_listed _ _ s J stored K stored' (mem_keysWhere.mp member).2
      (mem_keysWhere.mp member').2 same

/-! ## The whole scan -/

/-- The range of a listing: behind whatever start, up to the end of the prefix. -/
def remaining (req : ListObjectsRequest) (start cursor : Bytes) (s : Store) : List Key :=
  keysWhere keyCode (rangeAfter start cursor
    (Bytes.prefixRangeEnd (listObjectPath req.bucketID req.keyPrefix))) s

/-- The entries a page is cut from: what was collected before and what remains. -/
def pageEntries (req : ListObjectsRequest) (maxKeys : Nat) (s : Store) (collected : List ListEntry)
    (keys : List Key) : List ListEntry :=
  (collected ++ ((objectListing req).entries keys).map (objectEntry s)).take (maxKeys + 1)

end Batch

end Namros.Listing
