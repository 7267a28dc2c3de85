import Mathlib.Data.Prod.Lex
import Namros.Index.Steps
import Namros.Listing.Objects
import Namros.Source.VersionListing

/-!
# The version listing as a list of version stacks

The committed versions of one object, newest first, form its stack, and a version listing
is the stacks of the objects in key order. The loop of `ListObjectVersions` collects whole
stacks until they do not fit on the page.
-/

namespace Namros.Listing

open Library Source Index Transaction Rollup OrderedStore

/-! ## Stacks -/

/-- A version with its manifest, as a listing shows it. -/
def hydrated (s : Store) (version : ObjectVersion) : ObjectVersion :=
  match hydrateWith (chunksOf s version) version with
  | .ok version => version
  | .error _ => version

/-- The versions of a bucket are stored under their own keys and ids, which are not empty,
and the manifest of every committed version is complete. -/
structure VersionsFiled (bucketID : String) (s : Store) : Prop where
  filed : ∀ {key sortKey version},
    s.lookup (.objectVersion bucketID key sortKey) = some version →
      version.key = key ∧ version.versionSortKey = sortKey ∧ version.versionID = sortKey
  named : ∀ {key sortKey version},
    s.lookup (.objectVersion bucketID key sortKey) = some version → key ≠ "" ∧ sortKey ≠ ""
  complete : ∀ {key sortKey version},
    s.lookup (.objectVersion bucketID key sortKey) = some version → version.state = .committed →
      ∃ whole, hydrateWith (chunksOf s version) version = .ok whole

theorem hydrated_of_ok {s : Store} {version whole : ObjectVersion}
    (ok : hydrateWith (chunksOf s version) version = .ok whole) : hydrated s version = whole := by
  simp only [hydrated, ok]

/-- The stored committed versions of an object, in key order. -/
def committedRecords (s : Store) (bucketID : String) (key : GoString) :
    List (Key × ObjectVersion) :=
  (recordsUnder asObjectVersion (versionPrefix bucketID key) s).filter
    fun record => record.2.state = .committed

/-- The stack of an object: its committed versions, newest first. -/
def stack (s : Store) (bucketID : String) (key : GoString) : List VersionListEntry :=
  sortVersionEntries ((committedRecords s bucketID key).map fun record =>
    versionListEntry ((s.lookup (.objectHead bucketID key)).map headFromHeadEntry)
      (hydrated s record.2))

variable {key : GoString} {entry : VersionListEntry}

section Stack

variable {s : Store} {bucketID : String}

theorem committedVersions_eq {records : List (Key × ObjectVersion)}
    (complete : ∀ record ∈ records, record.2.state = .committed →
      ∃ whole, hydrateWith (chunksOf s record.2) record.2 = .ok whole) :
    committedVersions s records =
      .ok ((records.filter fun record => record.2.state = .committed).map
        fun record => hydrated s record.2) := by
  induction records with
  | nil => rfl
  | cons record records ih =>
    obtain ⟨K, version⟩ := record
    have rest := ih fun other member => complete other (List.mem_cons_of_mem _ member)
    by_cases committed : version.state = .committed
    · obtain ⟨whole, ok⟩ := complete _ List.mem_cons_self committed
      rw [committedVersions, if_neg (by simpa using committed), ok, rest]
      simp [committed, hydrated_of_ok ok, bind, Except.bind]
    · rw [committedVersions, if_pos committed, rest]
      simp [committed]

/-- `collectVersionEntriesForKey` returns the stack of the object. -/
theorem collectVersionEntriesForKey_run (versions : VersionsFiled bucketID s) (key : GoString) :
    (collectVersionEntriesForKey bucketID key.bytes).run s = .ok (stack s bucketID key, s) := by
  have complete : ∀ record ∈ recordsUnder asObjectVersion (versionPrefix bucketID key) s,
      record.2.state = .committed →
        ∃ whole, hydrateWith (chunksOf s record.2) record.2 = .ok whole := by
    rintro ⟨K, version⟩ member committed
    obtain ⟨sortKey, rfl, found⟩ := mem_versionRecords.mp member
    exact versions.complete found committed
  unfold collectVersionEntriesForKey
  rw [GoString.ofBytes_bytes]
  refine run_bind_ok.mpr ⟨_, s, rfl, run_bind_ok.mpr ⟨s, s, rfl, ?_⟩⟩
  rw [committedVersions_eq complete]
  refine run_bind_ok.mpr ⟨_, s, rfl, run_bind_ok.mpr ⟨_, s, rfl, ?_⟩⟩
  rw [run_pure, List.map_map]
  rfl

/-- The current head of an object. -/
def currentHead (s : Store) (bucketID : String) (key : GoString) : Option ObjectHead :=
  (s.lookup (.objectHead bucketID key)).map headFromHeadEntry

theorem mem_stack :
    entry ∈ stack s bucketID key ↔
      ∃ sortKey version, s.lookup (.objectVersion bucketID key sortKey) = some version ∧
        version.state = .committed ∧
        entry = versionListEntry (currentHead s bucketID key) (hydrated s version) := by
  unfold stack sortVersionEntries committedRecords
  rw [List.mem_insertionSort, List.mem_map]
  constructor
  · rintro ⟨⟨K, version⟩, member, rfl⟩
    obtain ⟨listed, committed⟩ := List.mem_filter.mp member
    obtain ⟨sortKey, rfl, found⟩ := mem_versionRecords.mp listed
    exact ⟨sortKey, version, found, by simpa using committed, rfl⟩
  · rintro ⟨sortKey, version, found, committed, rfl⟩
    have listed : (Key.objectVersion bucketID key sortKey, version) ∈
        recordsUnder asObjectVersion (versionPrefix bucketID key) s :=
      mem_versionRecords.mpr ⟨sortKey, rfl, found⟩
    exact ⟨_, List.mem_filter.mpr ⟨listed, by simpa using committed⟩, rfl⟩

/-- A manifest adds segments to a version and changes nothing else. -/
theorem metadata_hydrated_stored (versions : VersionsFiled bucketID s) {sortKey : String}
    {version : ObjectVersion}
    (found : s.lookup (.objectVersion bucketID key sortKey) = some version)
    (committed : version.state = .committed) :
    metadata (hydrated s version) = metadata version := by
  obtain ⟨whole, ok⟩ := versions.complete found committed
  rw [hydrated_of_ok ok, metadata_hydrateWith ok]

/-- The entry of a stored version names that version. -/
theorem versionListEntry_filed (versions : VersionsFiled bucketID s) {sortKey : String}
    {version : ObjectVersion}
    (found : s.lookup (.objectVersion bucketID key sortKey) = some version)
    (committed : version.state = .committed) :
    (hydrated s version).key = key ∧ (hydrated s version).versionID = sortKey ∧
      (hydrated s version).versionSortKey = sortKey := by
  have kept := metadata_hydrated_stored versions found committed
  obtain ⟨ownKey, ownSortKey, ownID⟩ := versions.filed found
  exact ⟨(congrArg (GoString.text ∘ ObjectVersion.key) kept).trans ownKey,
    (congrArg ObjectVersion.versionID kept).trans ownID,
    (congrArg ObjectVersion.versionSortKey kept).trans ownSortKey⟩

theorem stack_entry (versions : VersionsFiled bucketID s) (member : entry ∈ stack s bucketID key) :
    (entry.name = key.bytes ∧ entry.version.key = key) ∧
      (entry.sortKey = entry.versionID ∧ entry.sortKey = bytes entry.version.versionSortKey) ∧
      entry.versionID ≠ [] ∧ key ≠ ("" : String) ∧ entry.isCommonPrefix = false := by
  obtain ⟨sk, v, found, committed, rfl⟩ := mem_stack.mp member
  obtain ⟨ownKey, ownID, ownSortKey⟩ := versionListEntry_filed versions found committed
  obtain ⟨keyNamed, idNamed⟩ := versions.named found
  refine ⟨⟨congrArg GoString.bytes ownKey, ownKey⟩, ⟨?_, rfl⟩, ?_, keyNamed, rfl⟩
  · exact congrArg bytes (ownSortKey.trans ownID.symm)
  · rw [versionListEntry, ownID, ne_eq, bytes_eq_nil]
    exact idNamed

/-- The place of an entry in the order of `sortVersionEntries`. -/
def rank (entry : VersionListEntry) : Bytes ×ₗ (Bool ×ₗ Bytesᵒᵈ) :=
  toLex (entry.name, toLex (!entry.isCommonPrefix, OrderDual.toDual entry.sortKey))

theorem versionEntryLess_eq_false {a b : VersionListEntry} :
    versionEntryLess b a = false ↔ rank a ≤ rank b := by
  unfold versionEntryLess rank
  rw [Prod.Lex.le_iff]
  simp only [ofLex_toLex]
  rw [Prod.Lex.le_iff]
  simp only [ofLex_toLex, OrderDual.toDual_le_toDual]
  by_cases same : b.name = a.name
  · cases first : a.isCommonPrefix <;> cases second : b.isCommonPrefix <;> simp [same]
  · have differ : a.name ≠ b.name := fun back => same back.symm
    simp [same, differ, le_iff_lt_or_eq]

/-- A stack goes from the newest version to the oldest. -/
theorem stack_sorted (versions : VersionsFiled bucketID s) (key : GoString) :
    (stack s bucketID key).Pairwise fun a b => b.sortKey ≤ a.sortKey := by
  have total : Std.Total fun a b : VersionListEntry => versionEntryLess b a = false :=
    ⟨fun a b => by simpa only [versionEntryLess_eq_false] using le_total (rank a) (rank b)⟩
  have trans : IsTrans VersionListEntry fun a b => versionEntryLess b a = false :=
    ⟨fun a b c => by simpa only [versionEntryLess_eq_false] using le_trans⟩
  have ordered := List.pairwise_insertionSort
    (fun a b : VersionListEntry => versionEntryLess b a = false)
    ((committedRecords s bucketID key).map fun record =>
      versionListEntry (currentHead s bucketID key) (hydrated s record.2))
  refine List.Pairwise.imp_of_mem ?_ ordered
  intro a b memberA memberB less
  obtain ⟨⟨nameA, -⟩, -, -, -, singleA⟩ := stack_entry versions memberA
  obtain ⟨⟨nameB, -⟩, -, -, -, singleB⟩ := stack_entry versions memberB
  simpa [versionEntryLess, nameA, nameB, singleA, singleB] using less

theorem committedRecords_nodup (key : GoString) : (committedRecords s bucketID key).Nodup := by
  have distinct := distinct_versions bucketID key s
  unfold committedRecords recordsUnder
  rw [scan_eq (by decide) distinct]
  refine List.Nodup.filter _ (List.Nodup.filterMap ?_ keysWhere_nodup)
  rintro J K ⟨L, version⟩ first second
  simp only [Option.mem_def, Option.map_eq_some_iff, Prod.mk.injEq] at first second
  obtain ⟨-, -, rfl, -⟩ := first
  obtain ⟨-, -, same, -⟩ := second
  exact same.symm

theorem stack_nodup (versions : VersionsFiled bucketID s) (key : GoString) :
    (stack s bucketID key).Nodup := by
  unfold stack sortVersionEntries
  rw [(List.perm_insertionSort _ _).nodup_iff]
  refine List.Nodup.map_on ?_ (committedRecords_nodup key)
  rintro ⟨K, v⟩ member ⟨K', v'⟩ member' same
  obtain ⟨listed, committed⟩ := List.mem_filter.mp member
  obtain ⟨listed', committed'⟩ := List.mem_filter.mp member'
  obtain ⟨sk, rfl, found⟩ := mem_versionRecords.mp listed
  obtain ⟨sk', rfl, found'⟩ := mem_versionRecords.mp listed'
  have ids : (hydrated s v).versionID = (hydrated s v').versionID :=
    bytes_inj.mp (congrArg VersionListEntry.versionID same)
  rw [(versionListEntry_filed versions found (by simpa using committed)).2.1,
    (versionListEntry_filed versions found' (by simpa using committed')).2.1] at ids
  subst ids
  rw [found] at found'
  cases found'
  rfl

/-! ## Resuming inside a stack -/

/-- Among the committed versions of its object, newest first, the entry stands at a
position that `sort.Search` looks at. -/
def MarkerFound (s : Store) (bucketID : String) (key : GoString) (entry : VersionListEntry) :
    Prop :=
  Probed (stack s bucketID key).length ((stack s bucketID key).idxOf entry)

instance (s : Store) (bucketID : String) (key : GoString) (entry : VersionListEntry) :
    Decidable (MarkerFound s bucketID key entry) := inferInstanceAs (Decidable (Probed _ _))

theorem stack_versionID_inj (versions : VersionsFiled bucketID s) {a b : VersionListEntry}
    (memberA : a ∈ stack s bucketID key) (memberB : b ∈ stack s bucketID key)
    (same : a.versionID = b.versionID) : a = b := by
  obtain ⟨sk, v, found, committed, rfl⟩ := mem_stack.mp memberA
  obtain ⟨sk', v', found', committed', rfl⟩ := mem_stack.mp memberB
  have ids : (hydrated s v).versionID = (hydrated s v').versionID := bytes_inj.mp same
  rw [(versionListEntry_filed versions found committed).2.1,
    (versionListEntry_filed versions found' committed').2.1] at ids
  subst ids
  rw [found] at found'
  cases found'
  rfl

/-- The predicate of the search holds at the place of the marker's entry only. -/
theorem afterMarker_stack (versions : VersionsFiled bucketID s) {p x : Nat}
    (place : (stack s bucketID key)[p]? = some entry) (inside : x < (stack s bucketID key).length) :
    afterMarker (stack s bucketID key) entry.name entry.versionID x = decide (x = p) := by
  have member : entry ∈ stack s bucketID key := List.mem_of_getElem? place
  have at_ : (stack s bucketID key)[x]? = some (stack s bucketID key)[x] :=
    List.getElem?_eq_getElem inside
  have other := List.getElem_mem inside
  obtain ⟨⟨name, -⟩, -, id, -⟩ := stack_entry versions member
  have sameName := (stack_entry versions other).1.1.trans name.symm
  simp only [afterMarker, at_, sameName, ne_eq, not_true_eq_false, if_false, id, decide_eq_decide]
  constructor
  · intro sameID
    have same := stack_versionID_inj versions other member sameID
    exact (List.getElem?_inj inside (stack_nodup versions key)).mp (by rw [at_, same, place])
  · rintro rfl
    cases at_.symm.trans place
    rfl

/-- A call that resumes after an entry goes on behind it when the search looks at its place,
and leaves the rest of the stack out otherwise. -/
theorem versionEntriesAfter_stack (versions : VersionsFiled bucketID s) {p : Nat}
    (place : (stack s bucketID key)[p]? = some entry) :
    versionEntriesAfter (stack s bucketID key) entry.name entry.versionID =
      if MarkerFound s bucketID key entry then (stack s bucketID key).drop (p + 1) else [] := by
  obtain ⟨inside, here⟩ := List.getElem?_eq_some_iff.mp place
  have index : (stack s bucketID key).idxOf entry = p := by
    rw [← here, (stack_nodup versions key).idxOf_getElem p inside]
  have searched := sortSearch_single inside fun x => afterMarker_stack versions place
  have marker : MarkerFound s bucketID key entry ↔ Probed (stack s bucketID key).length p := by
    rw [MarkerFound, index]
  unfold versionEntriesAfter
  rw [searched]
  by_cases found : Probed (stack s bucketID key).length p
  · simp [if_pos found, if_pos (marker.mpr found), place]
  · simp [if_neg found, if_neg (found ∘ marker.mp)]

end Stack

/-! ## The listing -/

theorem versionPath_bytes (bucketID : String) (key : GoString) :
    versionPath bucketID key.bytes = versionPrefix bucketID key := by
  have empty : GoString.bytes "" = [] := rfl
  simp [versionPath, versionPrefix, below, Key.encode, Key.path, Path.join, esc, empty]

theorem rangeEnd_versionPrefix (bucketID : String) (key : GoString) :
    Bytes.prefixRangeEnd (versionPrefix bucketID key) ≠ [] := by
  rw [← versionPath_bytes]
  exact rangeEnd_below _ _

/-- The object a version key belongs to, within the listing. -/
def listedObject (req : ListObjectVersionsRequest) : Key → Option GoString
  | .objectVersion bucketID key _ =>
    if bucketID = req.bucketID ∧ req.keyPrefix <+: key.bytes then some key else none
  | _ => none

variable {K : Key}

theorem listedObject_eq_some {req : ListObjectVersionsRequest} :
    listedObject req K = some key ↔
      ∃ sortKey, K = .objectVersion req.bucketID key sortKey ∧ req.keyPrefix <+: key.bytes := by
  constructor
  · intro named
    cases K <;> simp only [listedObject, reduceCtorEq] at named
    split at named
    · rename_i listed
      cases named
      exact ⟨_, by rw [listed.1], listed.2⟩
    · cases named
  · rintro ⟨sortKey, rfl, starts⟩
    simp [listedObject, starts]

/-- The version keys of one bucket under one prefix, grouped by object. -/
def versionListing (req : ListObjectVersionsRequest) : Rollup.Listing Key GoString where
  code := Key.encode
  group := listedObject req
  stem := versionPrefix req.bucketID
  closes _ := false
  gathers := by
    intro J K key grouped
    obtain ⟨-, -, starts⟩ := listedObject_eq_some.mp grouped
    rw [versionPrefix_isPrefix_iff, listedObject_eq_some]
    exact exists_congr fun sortKey => ⟨fun same => ⟨same, starts⟩, fun same => same.1⟩

/-- The stored version keys of the listing, in key order. -/
def versionKeys (req : ListObjectVersionsRequest) (s : Store) : List Key :=
  keysWhere keyCode (fun x => (versionListPrefix req.bucketID req.keyPrefix).isPrefixOf x) s

theorem versions_selected (bucketID : String) (name : Bytes) (K : Key) :
    versionListPrefix bucketID name <+: K.encode ↔ ∃ place : GoString × String,
      K = .objectVersion bucketID place.1 place.2 ∧ name <+: place.1.bytes := by
  refine (below_isPrefix_family (fun place : GoString × String =>
    .objectVersion bucketID place.1 place.2) (fun place => esc place.1) (escape_closed name)
    (fun place => ⟨_, rfl⟩) (fun J c r shape => ?_) K).trans ?_
  · cases J <;> simp [Key.path, optionalComponent, bytes_inj] at shape ⊢
    exact shape.1
  · simp only [esc, escape_isPrefix_iff]

theorem mem_versionKeys {req : ListObjectVersionsRequest} {s : Store} :
    K ∈ versionKeys req s ↔
      ∃ key sortKey version, K = .objectVersion req.bucketID key sortKey ∧
        req.keyPrefix <+: key.bytes ∧
        s.lookup (.objectVersion req.bucketID key sortKey) = some version := by
  exact (mem_keysWhere_family (versions_selected _ _)).trans Prod.exists

theorem distinct_bucketVersions (bucketID : String) (name : Bytes) (s : Store) :
    Distinct keyCode (fun x => (versionListPrefix bucketID name).isPrefixOf x) s :=
  distinct_of_family (fun K starts => ((versions_selected _ _ K).mp starts).imp fun _ named => named.1)
    (fun j k same => by simpa [Key.path] using same) s

theorem versionKeys_sorted (req : ListObjectVersionsRequest) (s : Store) :
    (versionListing req).Sorted (versionKeys req s) :=
  (distinct_bucketVersions _ _ s).keysWhere_strict

/-- The stacks of the objects of some version keys, in key order. -/
def stacksOf (req : ListObjectVersionsRequest) (s : Store) (keys : List Key) :
    List VersionListEntry :=
  ((versionListing req).entries keys).flatMap fun
    | .inl _ => []
    | .inr key => stack s req.bucketID key

variable {start : Bytes}

section Loop

variable {req : ListObjectVersionsRequest} {s : Store} {maxKeys : Nat}

/-- The version keys from a start on, as the loop of `ListObjectVersions` reads them. -/
def versionsFrom (req : ListObjectVersionsRequest) (start : Bytes) (s : Store) : List Key :=
  keysWhere keyCode (rangeAfter start []
    (Bytes.prefixRangeEnd (versionListPrefix req.bucketID req.keyPrefix))) s

theorem distinct_versionsFrom (inside : ∀ K ∈ versionsFrom req start s, K ∈ versionKeys req s) :
    Distinct keyCode (rangeAfter start []
      (Bytes.prefixRangeEnd (versionListPrefix req.bucketID req.keyPrefix))) s := by
  intro J stored K stored' selected selected' same
  have starts := (mem_keysWhere.mp (inside J (mem_keysWhere.mpr ⟨stored, selected⟩))).2
  have starts' := (mem_keysWhere.mp (inside K (mem_keysWhere.mpr ⟨stored', selected'⟩))).2
  exact distinct_bucketVersions _ _ s J stored K stored' starts starts' same

/-- Behind an object the loop goes on beyond its versions. -/
theorem versionsFrom_behind (inside : ∀ K ∈ versionsFrom req start s, K ∈ versionKeys req s)
    (reached : K ∈ versionsFrom req start s) (grouped : (versionListing req).group K = some key) :
    versionsFrom req (Bytes.prefixRangeEnd (versionPrefix req.bucketID key)) s =
      (versionsFrom req start s).filter ((versionListing req).beyond (.inr key)) :=
  (distinct_versionsFrom inside).keysWhere_skip (rangeEnd_below _ _)
    (rangeEnd_versionPrefix req.bucketID key) reached (Rollup.Listing.stem_isPrefix grouped)

/-- A page is cut from a collection that is complete or overfull. -/
def Covers (maxKeys : Nat) (collected whole : List VersionListEntry) : Prop :=
  collected <+: whole ∧ (collected = whole ∨ maxKeys < collected.length)

/-- The loop of `ListObjectVersions` collects whole stacks until a page is overfull, in no
more rounds than version keys remain. -/
theorem listVersionsLoop_spec (versions : VersionsFiled req.bucketID s) (flat : req.delimiter = [])
    {fuel : Nat} (progress : VersionProgress)
    (inside : ∀ K ∈ versionsFrom req start s, K ∈ versionKeys req s)
    (enough : (versionsFrom req start s).length < fuel) :
    ∃ final, (listVersionsLoop req maxKeys
        (Bytes.prefixRangeEnd (versionListPrefix req.bucketID req.keyPrefix)) fuel start
        progress).run s = .ok (some final, s) ∧
      Covers maxKeys final.entries
        (progress.entries ++ stacksOf req s (versionsFrom req start s)) := by
  induction fuel generalizing start progress with
  | zero => exact absurd enough (Nat.not_lt_zero _)
  | succ fuel ih =>
    have batch : (listRange keyCode start
        (Bytes.prefixRangeEnd (versionListPrefix req.bucketID req.keyPrefix)) [] 1 [] s).1 =
          (versionsFrom req start s).take 1 :=
      congrArg Prod.fst (listRange_eq Nat.one_pos)
    rw [listVersionsLoop, run_bind, run_get]
    dsimp only
    rw [batch]
    by_cases full : maxKeys < progress.entries.length
    · rw [if_pos (.inl full)]
      exact ⟨progress, rfl, List.prefix_append _ _, .inr full⟩
    cases remaining : versionsFrom req start s with
    | nil =>
      rw [if_pos (.inr rfl)]
      have nothing : stacksOf req s [] = [] := rfl
      refine ⟨progress, rfl, ?_⟩
      rw [nothing, List.append_nil]
      exact ⟨List.prefix_rfl, .inl rfl⟩
    | cons K keys =>
      have reached : K ∈ versionsFrom req start s := by simp [remaining]
      obtain ⟨key, sortKey, version, rfl, starts, found⟩ := mem_versionKeys.mp (inside K reached)
      have grouped : (versionListing req).group (.objectVersion req.bucketID key sortKey) =
          some key := listedObject_eq_some.mpr ⟨sortKey, rfl, starts⟩
      have first : firstVersionFromKeys s [.objectVersion req.bucketID key sortKey] =
          some version := by
        simp [firstVersionFromKeys, found, asObjectVersion]
      have own : bytes version.key = key.bytes := congrArg GoString.bytes (versions.filed found).1
      have inPrefix : req.keyPrefix.isPrefixOf key.bytes = true :=
        List.isPrefixOf_iff_prefix.mpr starts
      have single : commonPrefixOf req.keyPrefix req.delimiter key.bytes = none := by
        simp [commonPrefixOf, flat]
      have behind := versionsFrom_behind inside reached grouped
      have sorted : (versionListing req).Sorted (versionsFrom req start s) :=
        (distinct_versionsFrom inside).keysWhere_strict
      rw [remaining] at behind sorted
      have kept : ∀ J ∈ versionsFrom req (Bytes.prefixRangeEnd (versionPrefix req.bucketID key)) s,
          J ∈ versionKeys req s := by
        rw [behind]
        intro J member
        exact inside J (remaining ▸ (List.mem_filter.mp member).1)
      have fewer : (versionsFrom req (Bytes.prefixRangeEnd (versionPrefix req.bucketID key))
          s).length < fuel := by
        have outside : (versionListing req).beyond (.inr key)
            (.objectVersion req.bucketID key sortKey) = false := by
          rw [Bool.eq_false_iff, ne_eq, Rollup.Listing.beyond_iff]
          exact fun passed => passed.2 ⟨rfl, Rollup.Listing.stem_isPrefix grouped⟩
        have shorter := List.length_filter_le ((versionListing req).beyond (.inr key)) keys
        rw [remaining, List.length_cons] at enough
        rw [behind, List.filter_cons_of_neg (by simp [outside])]
        omega
      have taken : (Key.objectVersion req.bucketID key sortKey :: keys).take 1 =
          [.objectVersion req.bucketID key sortKey] := rfl
      rw [taken, if_neg (by simpa using full)]
      simp only [first, own, inPrefix, not_true_eq_false, if_false, single, versionPath_bytes]
      rw [run_bind, collectVersionEntriesForKey_run versions key]
      dsimp only
      obtain ⟨final, ends, covers⟩ := ih _ kept fewer
      refine ⟨final, ends, ?_⟩
      have whole : (versionListing req).entries (_ :: keys) = _ := rollup_cons_some grouped
      rw [stacksOf, whole, sorted.dropWhile_group grouped, List.flatMap_cons, ← behind,
        ← List.append_assoc]
      exact covers

end Loop

end Namros.Listing
