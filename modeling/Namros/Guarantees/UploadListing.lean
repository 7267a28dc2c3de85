import Namros.Guarantees.MultipartLifecycle
import Namros.Listing.Uploads

/-!
# Completeness of paged upload listings

A client that starts without markers and follows the pairs of key marker and upload id marker
comes to an end and sees every active upload under the prefix once, every common prefix once,
and nothing else, whatever the prefix, the delimiter and the page size are, provided every
upload was created at a key that is UTF-8. A marker is made of the text a record keeps of its
key, and at other keys it can lie in front of the upload it stands for, so that a page is
served again and again.
-/

namespace Namros.Guarantees

open Library Source Multipart Listing Rollup Transaction

/-- The collected pages hold every active upload with the prefix that is not rolled up once,
every common prefix once, and nothing else. -/
structure ListsEveryUpload (req : ListMultipartUploadsRequest) (s : Store)
    (pages : List ListMultipartUploadsResult) : Prop where
  uploads : ∀ upload : MultipartUpload, upload ∈ pages.flatMap (·.uploads) ↔
    s.lookup (.multipartUpload req.bucketID upload.uploadID) = some upload ∧
      upload.state = .active ∧ req.keyPrefix <+: bytes upload.key ∧
      commonPrefixOf req.keyPrefix req.delimiter (bytes upload.key) = none
  uploadsOnce : ((pages.flatMap (·.uploads)).map (·.uploadID)).Nodup
  commonPrefixes : ∀ name, name ∈ pages.flatMap (·.commonPrefixes) ↔
    ∃ upload : MultipartUpload,
      s.lookup (.multipartUpload req.bucketID upload.uploadID) = some upload ∧
      upload.state = .active ∧ req.keyPrefix <+: bytes upload.key ∧
      commonPrefixOf req.keyPrefix req.delimiter (bytes upload.key) = some name
  commonPrefixesOnce : (pages.flatMap (·.commonPrefixes)).Nodup

section

variable {req : ListMultipartUploadsRequest} {s : Store}

/-! ## What the entries of the listing show -/

/-- The active uploads under the prefix are those the index keys lead to. -/
theorem mem_uploadKeys_iff (filed : UploadsFiled req.bucketID s) {K : Key} :
    K ∈ uploadKeys req s ↔ ∃ upload : MultipartUpload,
      K = .multipartUploadByKey req.bucketID upload.key upload.uploadID ∧
      s.lookup (.multipartUpload req.bucketID upload.uploadID) = some upload ∧
      upload.state = .active ∧ req.keyPrefix <+: bytes upload.key := by
  constructor
  · intro member
    obtain ⟨_, upload, rfl, -, stored, active, rfl, starts, -⟩ := listed_upload filed member
    exact ⟨upload, rfl, stored, active, starts⟩
  · rintro ⟨upload, rfl, stored, active, starts⟩
    exact mem_uploadKeys.mpr ⟨_, _, _, rfl, starts, filed.indexed stored active⟩

theorem mem_entries_upload (filed : UploadsFiled req.bucketID s) {K : Key} :
    .inl K ∈ (uploadListing req).entries (uploadKeys req s) ↔ ∃ upload : MultipartUpload,
      K = .multipartUploadByKey req.bucketID upload.key upload.uploadID ∧
      s.lookup (.multipartUpload req.bucketID upload.uploadID) = some upload ∧
      upload.state = .active ∧ req.keyPrefix <+: bytes upload.key ∧
      commonPrefixOf req.keyPrefix req.delimiter (bytes upload.key) = none := by
  rw [Rollup.Listing.mem_entries_inl, mem_uploadKeys_iff filed]
  constructor
  · rintro ⟨⟨upload, rfl, stored, active, starts⟩, single⟩
    rw [group_multipartUploadByKey starts] at single
    exact ⟨upload, rfl, stored, active, starts, single⟩
  · rintro ⟨upload, rfl, stored, active, starts, single⟩
    refine ⟨⟨upload, rfl, stored, active, starts⟩, ?_⟩
    rwa [group_multipartUploadByKey starts]

theorem shownUpload_of_stored {upload : MultipartUpload}
    (stored : s.lookup (.multipartUpload req.bucketID upload.uploadID) = some upload)
    (key : String) :
    shownUpload req s (.inl (.multipartUploadByKey req.bucketID key upload.uploadID)) =
      { name := bytes upload.key, uploadID := bytes upload.uploadID, upload := upload } := by
  simp only [Sum.elim_inl, uploadEntry, stored]

theorem uploadEntry_single (K : Key) : (uploadEntry req s K).isCommonPrefix = false := by
  cases K <;> simp only [uploadEntry]
  split <;> rfl

/-- The uploads that the single entries show. -/
theorem shownOf_uploads (listed : List (Key ⊕ Bytes)) :
    (shownOf (listed.map (shownUpload req s))).1 =
      (listed.filterMap Sum.getLeft?).map fun K => (uploadEntry req s K).upload := by
  induction listed with
  | nil => rfl
  | cons x listed ih =>
    cases x with
    | inr c => exact ih
    | inl K =>
      change _ = (uploadEntry req s K).upload :: List.map _ (listed.filterMap Sum.getLeft?)
      rw [← ih]
      simp [shownOf, uploadEntry_single]

theorem shownOf_commonPrefixes (listed : List (Key ⊕ Bytes)) :
    (shownOf (listed.map (shownUpload req s))).2 = listed.filterMap Sum.getRight? := by
  induction listed with
  | nil => rfl
  | cons x listed ih =>
    cases x with
    | inr c => exact congrArg (c :: ·) ih
    | inl K =>
      change _ = listed.filterMap Sum.getRight?
      rw [← ih]
      simp [shownOf, uploadEntry_single]

/-- Listing every entry is listing everything. -/
theorem listsEveryUpload_of_entries (filed : UploadsFiled req.bucketID s)
    {pages : List ListMultipartUploadsResult}
    (uploads : pages.flatMap (·.uploads) =
      (((uploadListing req).entries (uploadKeys req s)).filterMap Sum.getLeft?).map
        fun K => (uploadEntry req s K).upload)
    (commonPrefixes : pages.flatMap (·.commonPrefixes) =
      ((uploadListing req).entries (uploadKeys req s)).filterMap Sum.getRight?) :
    ListsEveryUpload req s pages := by
  have nodup := (uploadKeys_sorted req s).entries_nodup
  constructor
  · intro upload
    rw [uploads, List.mem_map]
    constructor
    · rintro ⟨K, member, rfl⟩
      obtain ⟨x, listed, left⟩ := List.mem_filterMap.mp member
      obtain rfl := Sum.getLeft?_eq_some_iff.mp left
      obtain ⟨upload, rfl, stored, active, starts, single⟩ := (mem_entries_upload filed).mp listed
      have shown := shownUpload_of_stored stored upload.key
      simp only [Sum.elim_inl] at shown
      rw [shown]
      exact ⟨stored, active, starts, single⟩
    · rintro ⟨stored, active, starts, single⟩
      have listed := (mem_entries_upload filed).mpr ⟨upload, rfl, stored, active, starts, single⟩
      have shown := shownUpload_of_stored stored upload.key
      simp only [Sum.elim_inl] at shown
      exact ⟨_, List.mem_filterMap.mpr ⟨_, listed, rfl⟩, by rw [shown]⟩
  · rw [uploads, List.map_map]
    refine List.Nodup.map_on ?_ (nodup.filterMap ?_)
    · intro K member K' member' same
      obtain ⟨x, listed, left⟩ := List.mem_filterMap.mp member
      obtain rfl := Sum.getLeft?_eq_some_iff.mp left
      obtain ⟨x', listed', left'⟩ := List.mem_filterMap.mp member'
      obtain rfl := Sum.getLeft?_eq_some_iff.mp left'
      obtain ⟨upload, rfl, stored, -⟩ := (mem_entries_upload filed).mp listed
      obtain ⟨upload', rfl, stored', -⟩ := (mem_entries_upload filed).mp listed'
      have shown := shownUpload_of_stored stored upload.key
      have shown' := shownUpload_of_stored stored' upload'.key
      simp only [Sum.elim_inl] at shown shown'
      simp only [Function.comp_apply, shown, shown'] at same
      rw [← same, stored] at stored'
      cases stored'
      rfl
    · intro x y K left left'
      rw [Sum.getLeft?_eq_some_iff.mp left, Sum.getLeft?_eq_some_iff.mp left']
  · intro name
    rw [commonPrefixes, List.mem_filterMap]
    constructor
    · rintro ⟨x, listed, right⟩
      obtain rfl := Sum.getRight?_eq_some_iff.mp right
      obtain ⟨K, member, rolled⟩ := (Rollup.Listing.mem_entries_inr _).mp listed
      obtain ⟨upload, rfl, stored, active, starts⟩ := (mem_uploadKeys_iff filed).mp member
      rw [group_multipartUploadByKey starts] at rolled
      exact ⟨upload, stored, active, starts, rolled⟩
    · rintro ⟨upload, stored, active, starts, rolled⟩
      refine ⟨_, (Rollup.Listing.mem_entries_inr _).mpr
        ⟨_, (mem_uploadKeys_iff filed).mpr ⟨upload, rfl, stored, active, starts⟩, ?_⟩, rfl⟩
      rwa [group_multipartUploadByKey starts]
  · rw [commonPrefixes]
    refine nodup.filterMap fun x y c right right' => ?_
    rw [Sum.getRight?_eq_some_iff.mp right, Sum.getRight?_eq_some_iff.mp right']

/-- Where the index of uploads is in order, following the markers from the start comes to an end
and lists every active upload and every common prefix exactly once. -/
theorem listsEveryUpload_of_filed (served : UploadsServed req s)
    (filed : UploadsFiled req.bucketID s) (first : req.keyMarker = []) :
    ∃ fuel pages, followUploadPages s fuel req = some pages ∧ ListsEveryUpload req s pages := by
  have positive : 0 < req.maxUploads.toNat := Int.pos_iff_toNat_pos.mp served.maxUploads
  obtain ⟨listed, ended⟩ := Pager.pages_end (P := uploadPager req s) positive
    (Nat.lt_succ_self ((uploadPager req s).after none).length)
  have complete : listed.flatten = (uploadPager req s).after none :=
    (Pager.pages_complete positive ended).mpr
      ((uploadKeys_sorted req s).pager_unhidden (fun _ => rfl) positive)
  have followed := followUploadPages_eq served filed first
    (((uploadPager req s).after none).length + 1)
  rw [ended] at followed
  obtain ⟨pages, collected, contents⟩ := Option.map_eq_some_iff.mp followed
  refine ⟨_, pages, collected, listsEveryUpload_of_entries filed ?_ ?_⟩
  · have shown := congrArg (List.flatMap Prod.fst) contents
    simp only [List.flatMap_map, shownOf_uploads] at shown
    have joined : listed.flatMap (List.filterMap Sum.getLeft?) =
        ((uploadPager req s).after none).filterMap Sum.getLeft? := by
      rw [← complete, List.filterMap_flatten, List.flatMap_def]
    refine shown.trans ?_
    rw [← List.map_flatMap, joined]
    rfl
  · have shown := congrArg (List.flatMap Prod.snd) contents
    simp only [List.flatMap_map, shownOf_commonPrefixes] at shown
    have joined : listed.flatMap (List.filterMap Sum.getRight?) =
        ((uploadPager req s).after none).filterMap Sum.getRight? := by
      rw [← complete, List.filterMap_flatten, List.flatMap_def]
    exact shown.trans joined

end

/-! ## Reached stores -/

/-- An id of the empty text is never drawn for an upload. -/
def NamesUploads (calls : List (CallContext × MultipartCall × GoString)) : Prop :=
  ∀ call ∈ calls, ∀ n, call.1.newID .upload n ≠ some ""

/-- Where every upload is sound and has an id, the index of uploads is in order. -/
theorem uploadsFiled_of_lived {past : List Store} {s : Store} (lived : Lived past s) {b : String}
    (identified : (uploadState b "" s).upload = none) : UploadsFiled b s where
  filed {key uploadID id} found := by
    obtain ⟨rfl, upload, stored, active, named⟩ :=
      ((lived.uploadLife b uploadID).listed key id).mp found
    exact ⟨rfl, upload, stored, active, named, ((lived.sound b id).identified stored).2⟩
  indexed {uploadID upload} stored active :=
    ((lived.sound b uploadID).listed _ _).mpr ⟨rfl, upload, stored, active, rfl⟩
  named {uploadID upload} stored active := by
    refine ⟨(lived.sound b uploadID).named stored, ?_⟩
    rintro rfl
    exact nomatch identified.symm.trans stored

/-- The index of uploads is in order in every store that multipart calls on UTF-8 keys lead
to. -/
theorem reached_uploadsFiled {past : List Store} {s : Store} (lived : Lived past s)
    (identified : ∀ b, (uploadState b "" s).upload = none)
    {calls : List (CallContext × MultipartCall × GoString)} (valid : ValidKeys calls)
    (names : NamesUploads calls) (b : String) :
    UploadsFiled b ((laterStores s calls).getLastD s) := by
  induction calls generalizing past s with
  | nil => exact uploadsFiled_of_lived lived (identified b)
  | cons call calls ih =>
    obtain ⟨context, call, path⟩ := call
    obtain ⟨here, rest⟩ := List.forall_mem_cons.mp valid
    rw [laterStores, List.getLastD_cons]
    refine ih (lived.call context call here) (fun b => ?_) rest fun other member =>
      names other (List.mem_cons_of_mem _ member)
    by_contra present
    obtain ⟨n, drawn⟩ := (lived.moved context call here b "").drawn_of_new (identified b) present
    exact names _ List.mem_cons_self n drawn

/-- In every store that multipart calls on UTF-8 keys lead to, following the markers from the
start comes to an end and lists every active upload and every common prefix exactly once. -/
theorem upload_listing_complete {s t : Store} (bare : NoUploads s)
    {calls : List (CallContext × MultipartCall × GoString)} (valid : ValidKeys calls)
    (names : NamesUploads calls) (reached : (laterStores s calls).getLastD s = t)
    {req : ListMultipartUploadsRequest} (served : UploadsServed req t)
    (first : req.keyMarker = []) :
    ∃ fuel pages, followUploadPages t fuel req = some pages ∧ ListsEveryUpload req t pages := by
  have identified : ∀ b, (uploadState b "" s).upload = none := by
    intro b
    rw [bare.unused]
    rfl
  subst reached
  exact listsEveryUpload_of_filed served
    (reached_uploadsFiled (Lived.initial bare) identified valid names _) first

theorem numberedContext_named (k : Nat) (now : Time) (n : Nat) :
    (numberedContext k now).newID .upload n ≠ some "" := by
  cases n with
  | succ n => exact fun drawn => nomatch drawn
  | zero =>
    intro drawn
    have empty : "upl_" ++ toString k = "" := Option.some.inj drawn
    have length := congrArg String.length empty
    rw [String.length_append] at length
    have four : "upl_".length = 4 := rfl
    rw [four] at length
    simp at length

/-- The calls that open an upload at each key, one after the other. -/
def openCalls (keys : List GoString) : List (CallContext × MultipartCall × GoString) :=
  keys.zipIdx.map fun (key, i) =>
    (numberedContext (i + 1) (i + 1), .createMultipartUpload { bucketID := "bkt_1" }, key)

def openStore (keys : List GoString) : Store :=
  (laterStores bucketStore (openCalls keys)).getLastD bucketStore

theorem openCalls_named (keys : List GoString) : NamesUploads (openCalls keys) := by
  intro call member n
  obtain ⟨⟨key, i⟩, -, rfl⟩ := List.mem_map.mp member
  exact numberedContext_named _ _ n

/-- Three uploads, two of them under one common prefix. -/
theorem openStore_listing :
    (∃ fuel pages, followUploadPages (openStore ["a/x", "b", "a/y"]) fuel
        { bucketID := "bkt_1", delimiter := bytes "/", maxUploads := 1 } = some pages ∧
      ListsEveryUpload { bucketID := "bkt_1", delimiter := bytes "/", maxUploads := 1 }
        (openStore ["a/x", "b", "a/y"]) pages) ∧
    (followUploadPages (openStore ["a/x", "b", "a/y"]) 2
        { bucketID := "bkt_1", delimiter := bytes "/", maxUploads := 1 }).map (·.map fun page =>
      (page.uploads.map (·.key), page.commonPrefixes)) =
        some [([], [bytes "a/"]), (["b"], [])] := by
  refine ⟨upload_listing_complete bucketStore_bare (by decide +kernel) (openCalls_named _) rfl
    ⟨by decide, by decide +kernel, by decide⟩ rfl, by decide +kernel⟩

/-- Two uploads at keys that are not UTF-8, listed one at a time: the marker of the first lies in
front of both, and its page is served for ever. -/
theorem stray_uploads_repeat :
    NoUploads bucketStore ∧ ∀ fuel, followUploadPages
      (openStore [.ofBytes [0xff], .ofBytes [0xff, 0xff]]) fuel
        { bucketID := "bkt_1", maxUploads := 1 } = none := by
  refine ⟨bucketStore_bare, fun fuel => ?_⟩
  let first : ListMultipartUploadsRequest := { bucketID := "bkt_1", maxUploads := 1 }
  let next : ListMultipartUploadsRequest :=
    { first with keyMarker := bytes "\uFFFD\uFFFD", uploadIDMarker := bytes "upl_2" }
  have leads : ∀ req ∈ [first, next],
      (uploadPage (openStore [.ofBytes [0xff], .ofBytes [0xff, 0xff]]) req).map Prod.snd =
        some (some next) := by decide +kernel
  refine followPagesWith_endless (R := (· ∈ [first, next])) (fun req member => ?_) fuel
    List.mem_cons_self
  obtain ⟨⟨page, after⟩, served, rfl⟩ := Option.map_eq_some_iff.mp (leads req member)
  exact ⟨page, next, served, by simp⟩

end Namros.Guarantees
