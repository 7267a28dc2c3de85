import Namros.Guarantees.SystemRuns

/-!
# Object keys of any bytes

An object key is a Go string. Paths are made of its bytes, but `setJSON` stores the text that
`json.Marshal` makes of it, so a record at a key that is not UTF-8 names another key. From the
empty store, as long as every key is UTF-8, the heads, the list entries, the versions and the
locators agree after every run and every head is served with its references. One write at
another key leaves a locator that leads nowhere.
-/

namespace Namros.Guarantees

open Library Source Index Transaction

/-! ## Calls on keys of any bytes -/

/-- The call with another object key. -/
def ObjectCall.withKey (key : String) : ObjectCall → ObjectCall
  | .createBucket req => .createBucket req
  | .putBucketVersioning bucketID state => .putBucketVersioning bucketID state
  | .beginPutObject req => .beginPutObject { req with key }
  | .commitObjectVersion req => .commitObjectVersion { req with key }
  | .putObjectVersion req => .putObjectVersion { req with key }
  | .deleteObject req => .deleteObject { req with key }
  | .putObjectTags req => .putObjectTags { req with key }
  | .deleteObjectTags req => .deleteObjectTags { req with key }
  | .putObjectRetention req => .putObjectRetention { req with key }
  | .putObjectLegalHold req => .putObjectLegalHold { req with key }
  | .publishObjectVersionRefs req => .publishObjectVersionRefs { req with key }
  | .publishSharedObject req => .publishSharedObject { req with key }
  | .attachObjectVersionToSharedObject req => .attachObjectVersionToSharedObject { req with key }

/-- The closure of a call on an object key of any bytes: paths are made of its bytes, and records
keep its JSON text. -/
def objectCallAt (platform : Platform) (context : CallContext) (call : ObjectCall)
    (path : GoString) : Tx Unit :=
  match call.withKey path.jsonText with
  | .createBucket req => dropResult (createBucket context req)
  | .putBucketVersioning bucketID state => dropResult (putBucketVersioning bucketID state)
  | .beginPutObject req => dropResult (beginPutObject platform context req path)
  | .commitObjectVersion req => dropResult (commitObjectVersion platform context req path)
  | .putObjectVersion req => dropResult (putObjectVersion platform context req path)
  | .deleteObject req => dropResult (deleteObject platform context req path)
  | .putObjectTags req => putObjectTags platform req path
  | .deleteObjectTags req => deleteObjectTags platform req path
  | .putObjectRetention req => putObjectRetention platform context req path
  | .putObjectLegalHold req => putObjectLegalHold platform context req path
  | .publishObjectVersionRefs req =>
    dropResult (publishObjectVersionRefs platform context req path)
  | .publishSharedObject req => dropResult (publishSharedObject platform context req path)
  | .attachObjectVersionToSharedObject req =>
    dropResult (attachObjectVersionToSharedObject platform context req path)

def SystemCall.withKey (key : String) : SystemCall → SystemCall
  | .object call => .object (call.withKey key)
  | .multipart call => .multipart (call.withKey key)
  | call => call

def systemCallAt (platform : Platform) (context : CallContext) (path : GoString) :
    SystemCall → Tx Unit
  | .object call => objectCallAt platform context call path
  | .multipart call => multipartCallAt context call path
  | call => systemCallBody platform context call

/-- The store after a sequence of calls, each with the bytes of its object key; a failed call
leaves it as it was. -/
def runSystemAt (platform : Platform) (calls : List (CallContext × SystemCall × GoString))
    (s : Store) : Store :=
  calls.foldl (fun s call => (systemCallAt platform call.1 call.2.2 call.2.1).settle s) s

/-! ## Keys that are UTF-8 -/

variable {platform : Platform} {calls : List (CallContext × SystemCall × GoString)} {s : Store}

theorem systemCallAt_valid (context : CallContext) (call : SystemCall) {path : GoString}
    (valid : path.Valid) :
    systemCallAt platform context path call =
      systemCallBody platform context (call.withKey path.jsonText) := by
  cases call with
  | multipart call => exact multipartCallAt_valid context call valid
  | object call =>
    rw [valid.eq_text]
    cases call <;> rfl
  | _ => rfl

/-- On keys that are UTF-8, a run is one on texts. -/
theorem runSystemAt_valid (valid : ValidKeys calls) :
    runSystemAt platform calls s = runSystem platform
      (calls.map fun call => (call.1, call.2.1.withKey call.2.2.jsonText)) s := by
  rw [runSystemAt, runSystem, List.foldl_map]
  refine List.foldl_ext _ _ _ fun s call member => ?_
  rw [systemCallAt_valid call.1 call.2.1 (valid call member)]

/-- What a run on keys that are UTF-8 reaches from the empty store. -/
theorem runSystemAt_serviceable (platform : Platform) (fresh : NeverRepeats calls)
    (valid : ValidKeys calls) :
    (∃ issued, Serviceable issued (runSystemAt platform calls ∅)) ∧
      Textual (runSystemAt platform calls ∅) := by
  rw [runSystemAt_valid valid]
  refine ⟨runSystem_serviceable platform ?_, runSystem_textual _ fun _ _ => rfl⟩
  obtain ⟨distinct, named⟩ := fresh
  refine ⟨by rwa [List.flatMap_map], fun call member => ?_⟩
  obtain ⟨keyed, listed, rfl⟩ := List.mem_map.mp member
  exact named keyed listed

/-! ## The index -/

/-- The agreement of the four object families of a store, under keys of any bytes. -/
structure IndexAgreement (s : Store) : Prop where
  /-- A head names an existing committed version and agrees with it. -/
  head : ∀ b (k : GoString) e, s.lookup (.objectHead b k) = some e →
    ∃ v, s.lookup (.objectVersion b k e.versionID) = some v ∧ v.versionID = e.versionID ∧
      v.state = .committed ∧ v.sizeBytes = e.sizeBytes ∧ v.etag = e.etag ∧
      v.contentType = e.contentType ∧ v.storageClass = e.storageClass ∧ v.tags = e.tags ∧
      v.userMetadata = e.userMetadata ∧ v.objectLockRetention = e.objectLockRetention ∧
      v.objectLockLegalHold = e.objectLockLegalHold ∧ v.deleteMarker = e.deleteMarker
  /-- The list holds the projections of the heads that are not delete markers. -/
  listed : ∀ b (k : GoString) l, s.lookup (.listObject b k) = some l ↔
    ∃ e, s.lookup (.objectHead b k) = some e ∧ e.deleteMarker = false ∧
      l = listEntryFromHead (headFromHeadEntry e)
  /-- One locator leads to every version. -/
  reachable : ∀ b (k : GoString) sk v, s.lookup (.objectVersion b k sk) = some v →
    ∃! id, ∃ l, s.lookup (.objectVersionByID b id) = some l ∧
      Key.objectVersion b l.key l.versionSortKey = .objectVersion b k sk
  /-- Every locator leads to a version. -/
  located : ∀ b id l, s.lookup (.objectVersionByID b id) = some l →
    ∃ v, s.lookup (.objectVersion b l.key l.versionSortKey) = some v

theorem indexAgreement_of_consistent {U : Set String} (h : Consistent U (objectIndex s))
    (textual : Textual s) : IndexAgreement s where
  head b path e found := by
    cases path with
    | stray raw invalid =>
      cases (textual (.objectHead b (.stray raw invalid)) trivial).symm.trans found
    | text k =>
    obtain ⟨v, revision, lastModified, stored, committed, shape⟩ := (h.heads b k).current found
    obtain ⟨w, present, rfl⟩ := Option.map_eq_some_iff.mp stored
    refine ⟨w, present, (h.versions.identified stored).2.2.1, committed, ?_⟩
    rw [shape]
    exact ⟨rfl, rfl, rfl, rfl, rfl, rfl, rfl, rfl, rfl⟩
  listed b path l := by
    cases path with
    | stray raw invalid =>
      simp [textual (.objectHead b (.stray raw invalid)) trivial,
        textual (.listObject b (.stray raw invalid)) trivial]
    | text k =>
    have listed : s.lookup (.listObject b k) = (s.lookup (.objectHead b k)).bind listing :=
      (h.heads b k).listed
    rw [listed, Option.bind_eq_some_iff]
    refine exists_congr fun e => and_congr_right fun _ => ?_
    unfold listing
    cases e.deleteMarker <;> simp [eq_comm]
  reachable b path sk v found := by
    cases path with
    | stray raw invalid =>
      cases (textual (.objectVersion b (.stray raw invalid) sk) trivial).symm.trans found
    | text k =>
    have stored : (objectIndex s).version b k sk = some (metadata v) :=
      congrArg (Option.map metadata) found
    refine ⟨sk, ⟨⟨k, sk⟩, h.versions.located stored, rfl⟩, ?_⟩
    rintro id ⟨l, located, leads⟩
    cases leads
    exact (h.versions.locates located).1.symm
  located b id l found := by
    obtain ⟨same, v, stored⟩ := h.versions.locates found
    obtain ⟨w, present, -⟩ := Option.map_eq_some_iff.mp stored
    rw [← same] at present
    exact ⟨w, present⟩

/-- In every store that calls on UTF-8 keys reach from the empty one, the object families
agree. -/
theorem reachable_index_agreement (platform : Platform)
    (calls : List (CallContext × SystemCall × GoString)) (fresh : NeverRepeats calls)
    (valid : ValidKeys calls) : IndexAgreement (runSystemAt platform calls ∅) := by
  obtain ⟨⟨issued, h⟩, textual⟩ := runSystemAt_serviceable platform fresh valid
  exact indexAgreement_of_consistent h.consistent textual

/-- The sample calls, on the key `k`. -/
def keyedCalls : List (CallContext × SystemCall × GoString) :=
  sampleCalls.map fun call => (call.1, .object call.2, "k")

theorem sampleCalls_index_agreement :
    IndexAgreement (runSystemAt plainPlatform keyedCalls ∅) ∧
      ((runSystemAt plainPlatform keyedCalls ∅).lookup (.objectHead "bkt_1" "k")).map
        (fun e => (e.versionID, e.etag, e.tags)) = some ("ver_3", "two", [("a", "b")]) :=
  ⟨reachable_index_agreement plainPlatform keyedCalls (by decide +kernel) (by decide +kernel),
    by decide +kernel⟩

/-- A bucket, and a write at a key of one byte that is no text. -/
def strayPut : List (CallContext × SystemCall × GoString) :=
  [(numberedContext 1 1, .object (.createBucket { tenantID := "t", name := "b", region := "r" }),
      default),
   (numberedContext 2 2, .object (.putObjectVersion { bucketID := "bkt_1", etag := "one" }),
      .ofBytes [0xff])]

/-- The locator of the written version leads to no record. -/
theorem stray_locator_leads_nowhere :
    NeverRepeats strayPut ∧ ¬ IndexAgreement (runSystemAt plainPlatform strayPut ∅) := by
  refine ⟨by decide +kernel, fun agreement => ?_⟩
  have located : ((runSystemAt plainPlatform strayPut ∅).lookup
      (.objectVersionByID "bkt_1" "ver_2") : Option ObjectVersionLocator) =
        some ⟨"\uFFFD", "ver_2"⟩ := by decide +kernel
  have nowhere : (runSystemAt plainPlatform strayPut ∅).lookup
      (.objectVersion "bkt_1" "\uFFFD" "ver_2") = none := by decide +kernel
  obtain ⟨v, stored⟩ := agreement.located _ _ _ located
  cases nowhere.symm.trans stored

/-! ## Heads -/

/-- In every store that calls on UTF-8 keys reach, the version of every head is read with its
whole manifest, and `GetObjectHead` returns the head with that manifest, unless it is a delete
marker's. -/
theorem reached_heads_served {b : String} {k : GoString} {entry : ObjectHeadEntry}
    (fresh : NeverRepeats calls) (valid : ValidKeys calls)
    (reached : runSystemAt platform calls ∅ = s)
    (stored : s.lookup (.objectHead b k) = some entry) :
    ∃ full, (getObjectVersion b k entry.versionID).run s = .ok (full, s) ∧
      full.state = .committed ∧ (entry.deleteMarker = false →
        (getHead b k).run s = .ok ((headFromHeadEntry entry).withRefsOf full, s)) := by
  obtain ⟨⟨issued, h⟩, textual⟩ := runSystemAt_serviceable platform fresh valid
  rw [reached] at h textual
  cases k with
  | stray raw invalid =>
    cases (textual (.objectHead b (.stray raw invalid)) trivial).symm.trans stored
  | text k => exact h.head_served stored

theorem sampleCalls_heads_served :
    ∃ s full, (getObjectVersion "bkt_1" "k" "ver_3").run s = .ok (full, s) ∧
      runSystemAt plainPlatform keyedCalls ∅ = s := by
  obtain ⟨entry, stored, named⟩ := Option.map_eq_some_iff.mp (show ((runSystemAt plainPlatform
    keyedCalls ∅).lookup (.objectHead "bkt_1" "k")).map
      ObjectHeadEntry.versionID = some "ver_3" by decide +kernel)
  obtain ⟨full, served, -⟩ := reached_heads_served (by decide +kernel) (by decide +kernel) rfl
    stored
  exact ⟨_, full, named ▸ served, rfl⟩

end Namros.Guarantees
