import Namros.Listing.Objects
import Namros.Source.MultipartListing

/-!
# The listing of uploads as a rolled-up listing

The index keys of the active uploads under a prefix, in key order, and the common prefixes
they are rolled up into form a `Rollup.Listing` in which every marker stands for the entry it
was taken from. So the pages a client collects are the pages of that listing.
-/

namespace Namros.Listing

open Library Source Transaction Rollup OrderedStore

/-! ## Names and paths -/

theorem uploads_selected (bucketID : String) (name : Bytes) (K : Key) :
    multipartUploadListPrefix bucketID name <+: K.encode ↔ ∃ pair : GoString × String,
      K = .multipartUploadByKey bucketID pair.1 pair.2 ∧ name <+: pair.1.bytes := by
  refine (below_isPrefix_family (fun pair : GoString × String =>
    .multipartUploadByKey bucketID pair.1 pair.2) (fun pair => esc pair.1) (escape_closed name)
    (fun pair => ⟨_, rfl⟩) (fun J c r shape => ?_) K).trans ?_
  · cases J <;> simp [Key.path, optionalComponent, bytes_inj] at shape ⊢
    exact shape.1
  · simp only [esc, escape_isPrefix_iff]

variable {name : Bytes}

theorem multipartUploadListPrefix_isPrefix_path (bucketID : String) {key : Bytes}
    (starts : name <+: key) (uploadID : Bytes) :
    multipartUploadListPrefix bucketID name <+: multipartUploadPath bucketID key uploadID := by
  refine (below_isPrefix_below.mpr (escape_isPrefix_iff.mpr starts)).trans ?_
  simp [multipartUploadPath, below, Path.join]

theorem rangeEnd_multipartUploadListPrefix (bucketID : String) (name : Bytes) :
    Bytes.prefixRangeEnd (multipartUploadListPrefix bucketID name) ≠ [] := rangeEnd_below _ _

/-! ## The listing -/

/-- The name an index key is listed under. -/
def uploadName (req : ListMultipartUploadsRequest) : Key → Option Bytes
  | .multipartUploadByKey bucketID key _ =>
    if bucketID = req.bucketID ∧ req.keyPrefix <+: key.bytes then some key.bytes else none
  | _ => none

variable {req : ListMultipartUploadsRequest} {K : Key}

theorem uploadName_eq_some :
    uploadName req K = some name ↔
      ∃ key uploadID, K = .multipartUploadByKey req.bucketID key uploadID ∧
        req.keyPrefix <+: key.bytes ∧ name = key.bytes := by
  constructor
  · intro named
    cases K <;> simp only [uploadName, reduceCtorEq] at named
    split at named
    · rename_i listed
      cases named
      exact ⟨_, _, by rw [listed.1], listed.2, rfl⟩
    · cases named
  · rintro ⟨key, uploadID, rfl, starts, rfl⟩
    simp [uploadName, starts]

/-- The uploads of one bucket under one prefix and delimiter. No upload closes: its marker
comes with its id. -/
def uploadListing (req : ListMultipartUploadsRequest) : Rollup.Listing Key Bytes where
  code := Key.encode
  group K := (uploadName req K).bind (commonPrefixOf req.keyPrefix req.delimiter)
  stem := multipartUploadListPrefix req.bucketID
  closes _ := false
  gathers := by
    intro J K c rolled
    obtain ⟨name, -, rolled⟩ := Option.bind_eq_some_iff.mp rolled
    rw [uploads_selected, Prod.exists, Option.bind_eq_some_iff]
    constructor
    · rintro ⟨key, uploadID, rfl, starts⟩
      obtain ⟨inside, same⟩ := (commonPrefixOf_law rolled).mp starts
      exact ⟨key.bytes, uploadName_eq_some.mpr ⟨key, uploadID, rfl, inside, rfl⟩, same⟩
    · rintro ⟨name', named, same⟩
      obtain ⟨key, uploadID, rfl, inside, rfl⟩ := uploadName_eq_some.mp named
      exact ⟨key, uploadID, rfl, (commonPrefixOf_law rolled).mpr ⟨inside, same⟩⟩

theorem group_multipartUploadByKey {key : GoString} {uploadID : String}
    (starts : req.keyPrefix <+: key.bytes) :
    (uploadListing req).group (.multipartUploadByKey req.bucketID key uploadID) =
      commonPrefixOf req.keyPrefix req.delimiter key.bytes := by
  have named : uploadName req (.multipartUploadByKey req.bucketID key uploadID) =
      some key.bytes := uploadName_eq_some.mpr ⟨key, uploadID, rfl, starts, rfl⟩
  simp [uploadListing, named]

/-- The stored index keys of the listing, in key order. -/
def uploadKeys (req : ListMultipartUploadsRequest) (s : Store) : List Key :=
  keysWhere keyCode (fun x => (multipartUploadListPrefix req.bucketID req.keyPrefix).isPrefixOf x) s

theorem mem_uploadKeys {s : Store} :
    K ∈ uploadKeys req s ↔
      ∃ (key : GoString)
    (uploadID id : String), K = .multipartUploadByKey req.bucketID key uploadID ∧
        req.keyPrefix <+: key.bytes ∧
        s.lookup (.multipartUploadByKey req.bucketID key uploadID) = some id := by
  exact (mem_keysWhere_family (uploads_selected _ _)).trans Prod.exists

theorem distinct_uploads (bucketID : String) (name : Bytes) (s : Store) :
    Distinct keyCode (fun x => (multipartUploadListPrefix bucketID name).isPrefixOf x) s :=
  distinct_of_family (fun K starts => ((uploads_selected _ _ K).mp starts).imp fun _ named => named.1)
    (fun j k same => by simpa [Key.path] using same) s

theorem uploadKeys_sorted (req : ListMultipartUploadsRequest) (s : Store) :
    (uploadListing req).Sorted (uploadKeys req s) :=
  (distinct_uploads _ _ s).keysWhere_strict

/-! ## Reading the index -/

/-- A bucket whose index of uploads is in order: the entries are those of the active uploads,
under their keys and ids, which are not empty. -/
structure UploadsFiled (bucketID : String) (s : Store) : Prop where
  filed : ∀ {key : GoString} {uploadID id : String},
    s.lookup (.multipartUploadByKey bucketID key uploadID) = some id →
      id = uploadID ∧ ∃ upload : MultipartUpload,
        s.lookup (.multipartUpload bucketID uploadID) = some upload ∧ upload.state = .active ∧
          upload.key = key ∧ upload.uploadID = uploadID
  indexed : ∀ {uploadID} {upload : MultipartUpload},
    s.lookup (.multipartUpload bucketID uploadID) = some upload → upload.state = .active →
      s.lookup (.multipartUploadByKey bucketID upload.key uploadID) = some uploadID
  named : ∀ {uploadID} {upload : MultipartUpload},
    s.lookup (.multipartUpload bucketID uploadID) = some upload → upload.state = .active →
      upload.key ≠ "" ∧ uploadID ≠ ""

/-- The upload an index key leads to, as an entry of the listing. -/
def uploadEntry (req : ListMultipartUploadsRequest) (s : Store) : Key → MultipartUploadEntry
  | .multipartUploadByKey _ _ uploadID =>
    match (s.lookup (.multipartUpload req.bucketID uploadID) : Option MultipartUpload) with
    | some upload => { name := bytes upload.key, uploadID := bytes upload.uploadID, upload }
    | none => { name := [] }
  | _ => { name := [] }

/-- An entry of the listing as `ListMultipartUploads` collects it. -/
abbrev shownUpload (req : ListMultipartUploadsRequest) (s : Store) :
    Key ⊕ Bytes → MultipartUploadEntry :=
  Sum.elim (uploadEntry req s) (uploadScan req s).rolled

section

variable {req : ListMultipartUploadsRequest} {s : Store}

/-- A stored index key of the listing leads to an active upload. -/
theorem listed_upload (filed : UploadsFiled req.bucketID s) (member : K ∈ uploadKeys req s) :
    ∃ (uploadID : String) (upload : MultipartUpload),
      K = .multipartUploadByKey req.bucketID upload.key uploadID ∧
      (s.lookup K).bind (asUploadIndexRecord K) = some uploadID ∧
      s.lookup (.multipartUpload req.bucketID uploadID) = some upload ∧
      upload.state = .active ∧ upload.uploadID = uploadID ∧ req.keyPrefix <+: bytes upload.key ∧
      uploadEntry req s K =
        { name := bytes upload.key, uploadID := bytes uploadID, upload := upload } := by
  obtain ⟨key, uploadID, id, rfl, starts, found⟩ := mem_uploadKeys.mp member
  obtain ⟨rfl, upload, stored, active, rfl, rfl⟩ := filed.filed found
  refine ⟨_, upload, rfl, by rw [found]; rfl, stored, active, rfl, starts, ?_⟩
  simp only [uploadEntry, stored]

/-- The scan of the index reads the listed keys as the listing groups them. -/
theorem uploadScan_reads (filed : UploadsFiled req.bucketID s) :
    (uploadScan req s).Reads keyCode (uploadListing req) (uploadEntry req s)
      (Bytes.prefixRangeEnd (multipartUploadListPrefix req.bucketID req.keyPrefix))
      (· ∈ uploadKeys req s) s where
  coded _ := rfl
  stemmed _ := rfl
  ends c := rangeEnd_multipartUploadListPrefix req.bucketID c
  bounded := rangeEnd_multipartUploadListPrefix req.bucketID req.keyPrefix
  classify K member := by
    obtain ⟨uploadID, upload, rfl, found, stored, active, rfl, starts, shown⟩ :=
      listed_upload filed member
    have group : (uploadListing req).group
        (.multipartUploadByKey req.bucketID upload.key upload.uploadID) =
          commonPrefixOf req.keyPrefix req.delimiter (bytes upload.key) :=
      group_multipartUploadByKey starts
    have inside : req.keyPrefix.isPrefixOf (bytes upload.key) = true :=
      List.isPrefixOf_iff_prefix.mpr starts
    change readUpload req s _ = _
    unfold readUpload
    simp only [found, stored, active, inside, group, shown]
    cases commonPrefixOf req.keyPrefix req.delimiter (bytes upload.key) <;> simp
  distinct j stored k stored' member member' same :=
    distinct_uploads _ _ s j stored k stored' (mem_keysWhere.mp member).2
      (mem_keysWhere.mp member').2 same

/-! ## Markers -/

/-- The keys a request is served from. -/
def uploadPageKeys (req : ListMultipartUploadsRequest) (s : Store) : List Key :=
  RollupScan.remaining keyCode
    (Bytes.prefixRangeEnd (multipartUploadListPrefix req.bucketID req.keyPrefix))
    (listUploadsStart req).1 (listUploadsStart req).2 s

theorem uploadPageKeys_first (first : req.keyMarker = []) :
    uploadPageKeys req s = uploadKeys req s := by
  have start : listUploadsStart req =
      (multipartUploadListPrefix req.bucketID req.keyPrefix, []) := by
    simp [listUploadsStart, first]
  rw [uploadPageKeys, start]
  exact keysWhere_prefixRange (rangeEnd_multipartUploadListPrefix req.bucketID req.keyPrefix)

/-- The request for the page after an entry. -/
def requestAfter (req : ListMultipartUploadsRequest) (entry : MultipartUploadEntry) :
    ListMultipartUploadsRequest :=
  { req with keyMarker := entry.name, uploadIDMarker := entry.uploadID }

theorem maxBytes_eq_right {left right : Bytes} (above : left ≤ right) :
    maxBytes left right = right := by
  unfold maxBytes
  split
  · rfl
  · exact le_antisymm above (not_lt.mp ‹_›)

theorem maxBytes_le_iff {left right x : Bytes} :
    maxBytes left right ≤ x ↔ left ≤ x ∧ right ≤ x := by
  unfold maxBytes
  split
  · rename_i less
    exact ⟨fun above => ⟨(le_of_lt less).trans above, above⟩, And.right⟩
  · rename_i more
    exact ⟨fun above => ⟨above, (not_lt.mp more).trans above⟩, And.left⟩

/-- The markers of an upload stand for its index key. -/
theorem uploadPageKeys_upload (filed : UploadsFiled req.bucketID s)
    (member : K ∈ uploadKeys req s) :
    uploadPageKeys (requestAfter req (uploadEntry req s K)) s =
      (uploadKeys req s).filter ((uploadListing req).beyond (.inl K)) := by
  obtain ⟨uploadID, upload, rfl, -, stored, active, rfl, starts, shown⟩ :=
    listed_upload filed member
  have bounded := rangeEnd_multipartUploadListPrefix req.bucketID req.keyPrefix
  obtain ⟨named, identified⟩ := filed.named stored active
  have start : listUploadsStart (requestAfter req (uploadEntry req s
      (.multipartUploadByKey req.bucketID upload.key upload.uploadID))) =
      (multipartUploadPath req.bucketID (bytes upload.key) [],
        multipartUploadPath req.bucketID (bytes upload.key) (bytes upload.uploadID)) := by
    have above := Bytes.le_of_isPrefix
      (multipartUploadListPrefix_isPrefix_path req.bucketID starts [])
    simp [listUploadsStart, requestAfter, shown, bytes_eq_nil, named, identified,
      maxBytes_eq_right above]
  have place : (uploadListing req).place
      (.inl (.multipartUploadByKey req.bucketID upload.key upload.uploadID)) =
        multipartUploadPath req.bucketID (bytes upload.key) (bytes upload.uploadID) := by
    change Key.encode _ = _
    simp [multipartUploadPath, below, Key.encode, Key.path, Path.join, esc, GoString.bytes]
  have from_ : multipartUploadPath req.bucketID (bytes upload.key) [] ≤
      multipartUploadPath req.bucketID (bytes upload.key) (bytes upload.uploadID) :=
    Bytes.le_of_isPrefix (by simp [multipartUploadPath, below, List.prefix_append_right_inj])
  have above := Bytes.le_of_isPrefix
    (multipartUploadListPrefix_isPrefix_path req.bucketID starts (bytes upload.uploadID))
  rw [uploadPageKeys, start]
  refine RollupScan.remaining_beyond (fun _ => rfl) (distinct_uploads _ _ s) bounded fun J => ?_
  rw [place]
  constructor
  · rintro ⟨-, behind⟩
    exact ⟨above.trans (le_of_lt behind), behind, fun closes => Bool.false_ne_true closes.1⟩
  · rintro ⟨-, behind, -⟩
    exact ⟨from_.trans (le_of_lt behind), behind⟩

/-- The marker of a common prefix stands for the whole group. -/
theorem uploadPageKeys_commonPrefix {c : Bytes} (grouped : (uploadListing req).group K = some c) :
    uploadPageKeys (requestAfter req ((uploadScan req s).rolled c)) s =
      (uploadKeys req s).filter ((uploadListing req).beyond (.inr c)) := by
  have bounded := rangeEnd_multipartUploadListPrefix req.bucketID req.keyPrefix
  obtain ⟨name, -, rolled⟩ := Option.bind_eq_some_iff.mp grouped
  obtain ⟨present, suffix⟩ := commonPrefixOf_suffix rolled
  have nonempty : c ≠ [] := by
    rintro rfl
    exact present (List.suffix_nil.mp suffix)
  have start : listUploadsStart (requestAfter req ((uploadScan req s).rolled c)) =
      (maxBytes (multipartUploadListPrefix req.bucketID req.keyPrefix)
        (Bytes.prefixRangeEnd (multipartUploadListPrefix req.bucketID c)), []) := by
    simp [listUploadsStart, requestAfter, uploadScan, nonempty, present, suffix]
  rw [uploadPageKeys, start]
  refine RollupScan.remaining_beyond (fun _ => rfl) (distinct_uploads _ _ s) bounded fun J => ?_
  rw [maxBytes_le_iff, Bytes.prefixRangeEnd_le_iff (rangeEnd_multipartUploadListPrefix _ _)]
  constructor
  · rintro ⟨⟨from_, behind, outside⟩, -⟩
    exact ⟨from_, behind, fun closes => outside closes.2⟩
  · rintro ⟨from_, behind, outside⟩
    exact ⟨⟨from_, behind, fun starts => outside ⟨rfl, starts⟩⟩, Bytes.nil_lt (keyCode.nonempty J)⟩

/-! ## Pages -/

/-- A request that is served at all. -/
structure UploadsServed (req : ListMultipartUploadsRequest) (s : Store) : Prop where
  bucketID : req.bucketID ≠ ""
  bucket : s.lookup (.bucketByID req.bucketID) ≠ none
  maxUploads : 0 < req.maxUploads

/-- The uploads and the common prefixes among listed entries. -/
def shownOf (entries : List MultipartUploadEntry) : List MultipartUpload × List Bytes :=
  ((entries.filter (!·.isCommonPrefix)).map (·.upload),
    (entries.filter (·.isCommonPrefix)).map (·.name))

def ListMultipartUploadsResult.content (page : ListMultipartUploadsResult) :
    List MultipartUpload × List Bytes := (page.uploads, page.commonPrefixes)

theorem listUploadsPage_full {limit : Nat} {entries : List MultipartUploadEntry}
    {entry : MultipartUploadEntry} (positive : 0 < limit) (full : limit < entries.length)
    (last : entries[limit - 1]? = some entry) :
    let page := listUploadsPage limit (entries.take (limit + 1))
    page.isTruncated = true ∧ page.nextKeyMarker = entry.name ∧
      page.nextUploadIDMarker = entry.uploadID ∧
      ListMultipartUploadsResult.content page = shownOf (entries.take limit) := by
  have more : limit < (entries.take (limit + 1)).length := by
    rw [List.length_take]
    omega
  have cut : (entries.take (limit + 1)).take limit = entries.take limit := by
    rw [List.take_take, Nat.min_eq_left (Nat.le_succ _)]
  have marker : (entries.take (limit + 1))[limit - 1]? = some entry := by
    rw [List.getElem?_take_of_lt (by omega), last]
  simp only [listUploadsPage, decide_eq_true more, if_true, cut, marker]
  exact ⟨trivial, rfl, rfl, rfl⟩

/-- The listing of a request, resumed after the entries its markers stand for. -/
def uploadPager (req : ListMultipartUploadsRequest) (s : Store) : Pager (Key ⊕ Bytes) :=
  (uploadKeys_sorted req s).pager

/-- The requests a client makes: they differ from the first one in their markers, and stand
for what comes after a token. -/
def Stands (req : ListMultipartUploadsRequest) (s : Store) (next : ListMultipartUploadsRequest)
    (token : Option (Key ⊕ Bytes)) : Prop :=
  (∃ keyMarker uploadIDMarker, next = { req with keyMarker, uploadIDMarker }) ∧
    uploadPageKeys next s = (uploadListing req).namesAfter (uploadKeys req s) token

/-- What a request that stands for a token returns. -/
theorem Stands.run {next : ListMultipartUploadsRequest} {token : Option (Key ⊕ Bytes)}
    (stands : Stands req s next token) (served : UploadsServed req s)
    (filed : UploadsFiled req.bucketID s) :
    (listMultipartUploads next).run s =
      .ok (listUploadsPage req.maxUploads.toNat
        ((((uploadPager req s).after token).map (shownUpload req s)).take
          (req.maxUploads.toNat + 1)), s) := by
  obtain ⟨⟨keyMarker, uploadIDMarker, rfl⟩, names⟩ := stands
  have suffix := (uploadKeys_sorted req s).namesAfter_suffix token
  have inside : ∀ K ∈ uploadPageKeys { req with keyMarker, uploadIDMarker } s,
      K ∈ uploadKeys req s := fun K member => suffix.subset (names ▸ member)
  have enough : (uploadPageKeys { req with keyMarker, uploadIDMarker } s).length <
      s.keys.length + 1 := Nat.lt_succ_of_le keysWhere_length_le
  have room : ({} : RollupScan.Progress MultipartUploadEntry Bytes).entries.length ≤
      req.maxUploads.toNat + 1 := Nat.zero_le _
  obtain ⟨final, ends, collected⟩ := (uploadScan_reads filed).loop_spec inside room
    (fun c seen => absurd seen List.not_mem_nil) enough
  have positive : ¬ req.maxUploads ≤ 0 := not_le.mpr served.maxUploads
  have closure : (listMultipartUploadsClosure { req with keyMarker, uploadIDMarker }
      req.maxUploads.toNat {}).run s = .ok (final, s) := by
    refine run_bind_ok.mpr ⟨_, s, rfl, run_bind_ok.mpr ⟨(), s, ?_, ?_⟩⟩
    · exact run_failIf_ok.mpr ⟨served.bucket, rfl⟩
    · refine run_bind_ok.mpr ⟨s, s, rfl, ?_⟩
      exact congrArg (fun found => Except.ok (Option.getD found {}, s)) ends
  unfold listMultipartUploads
  simp only [run_bind, failIf, served.bucketID, if_false, run_pure, if_neg positive, closure,
    collected]
  exact congrArg (fun names => Except.ok (listUploadsPage req.maxUploads.toNat ((((uploadListing
    req).entries names).map (shownUpload req s)).take (req.maxUploads.toNat + 1)), s)) names

/-- The pages a client collects are the pages of the rolled-up listing. -/
theorem followUploadPages_eq (served : UploadsServed req s) (filed : UploadsFiled req.bucketID s)
    (first : req.keyMarker = []) (fuel : Nat) :
    (followUploadPages s fuel req).map (·.map ListMultipartUploadsResult.content) =
      ((uploadPager req s).pages req.maxUploads.toNat fuel none).map
        (·.map fun listed => shownOf (listed.map (shownUpload req s))) := by
  have positive : 0 < req.maxUploads.toNat := Int.pos_iff_toNat_pos.mp served.maxUploads
  refine Pager.followPagesWith_eq (Stands req s) ?_ ?_
    ⟨⟨_, _, rfl⟩, uploadPageKeys_first first⟩ fuel
  · intro next token stands short
    have run := stands.run served filed
    have whole : (((uploadPager req s).after token).map (shownUpload req s)).take
        (req.maxUploads.toNat + 1) = ((uploadPager req s).after token).map (shownUpload req s) :=
      List.take_of_length_le (by rw [List.length_map]; omega)
    have fits : ¬ req.maxUploads.toNat < ((uploadPager req s).after token).length :=
      Nat.not_lt.mpr short
    rw [whole] at run
    refine ⟨listUploadsPage req.maxUploads.toNat
      (((uploadPager req s).after token).map (shownUpload req s)), ?_, ?_⟩
    · simp [uploadPage, run, listUploadsPage, fits]
    · simp [listUploadsPage, fits, ListMultipartUploadsResult.content, shownOf]
  · intro next token x stands full last
    have run := stands.run served filed
    have full' : req.maxUploads.toNat <
        (((uploadPager req s).after token).map (shownUpload req s)).length := by
      rwa [List.length_map]
    have last' : (((uploadPager req s).after token).map
        (shownUpload req s))[req.maxUploads.toNat - 1]? = some (shownUpload req s x) := by
      rw [List.getElem?_map, last]
      rfl
    obtain ⟨truncated, keyMarker, uploadIDMarker, shown⟩ :=
      listUploadsPage_full positive full' last'
    rw [List.map_take]
    refine ⟨_, requestAfter next (shownUpload req s x), ?_, shown, ?_⟩
    · simp only [uploadPage, run, truncated, if_true, keyMarker, uploadIDMarker, requestAfter]
    obtain ⟨⟨_, _, rfl⟩, -⟩ := stands
    have listed : x ∈ (uploadListing req).entries (uploadKeys req s) :=
      (rollup_suffix ((uploadKeys_sorted req s).namesAfter_suffix token)).subset
        (List.mem_of_getElem? last)
    refine ⟨⟨_, _, rfl⟩, ?_⟩
    cases x with
    | inl K => exact uploadPageKeys_upload filed ((Rollup.Listing.mem_entries_inl _).mp listed).1
    | inr c =>
      obtain ⟨K, -, grouped⟩ := (Rollup.Listing.mem_entries_inr _).mp listed
      exact uploadPageKeys_commonPrefix grouped

end

end Namros.Listing
