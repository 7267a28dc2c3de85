import Namros.Library.Footprint
import Namros.Source.SharedObjects

/-!
# The object index

What the repository keeps about objects, seen as four functions: the versions of every key,
the locator of every version id, the head and the list entry of every key. The view forgets
how a version's segment references are laid out (inline or in manifest chunks), and with
them every other record of the store. The operations of the source act on it through the
four updates below.
-/

namespace Namros.Index

open Library Source

/-- A version without its segment references. -/
def metadata (version : ObjectVersion) : ObjectVersion :=
  { version with segmentRef := {}, segmentRefs := [], manifest := {} }

/-- The head record of a version, up to the revision and the modification time. -/
def headEntryOf (version : ObjectVersion) (revision : UInt64) (lastModified : Time) :
    ObjectHeadEntry :=
  headEntryFromHead { headFromVersion version lastModified with revision := revision }

/-- The list entry a head stands for: none for a delete marker. -/
def listing (entry : ObjectHeadEntry) : Option ObjectListEntry :=
  if entry.deleteMarker then none else some (listEntryFromHead (headFromHeadEntry entry))

@[ext]
structure ObjectIndex where
  version : String → String → String → Option ObjectVersion
  locator : String → String → Option ObjectVersionLocator
  head : String → String → Option ObjectHeadEntry
  listed : String → String → Option ObjectListEntry

/-- The index of a store. -/
def objectIndex (s : Store) : ObjectIndex where
  version b k sk := (s.lookup (.objectVersion b k sk)).map metadata
  locator b id := s.lookup (.objectVersionByID b id)
  head b k := s.lookup (.objectHead b k)
  listed b k := s.lookup (.listObject b k)

/-- The keys the index is read from. -/
def indexKey : Key → Prop
  | .objectVersion _ _ _ | .objectVersionByID _ _ | .objectHead _ _ | .listObject _ _ => True
  | _ => False

theorem objectIndex_congr {s t : Store} (same : Agree indexKey s t) :
    objectIndex s = objectIndex t := by
  ext1
  · funext b k sk
    exact congrArg (Option.map metadata) (same (.objectVersion b k sk) trivial)
  · funext b id
    exact same (.objectVersionByID b id) trivial
  · funext b k
    exact same (.objectHead b k) trivial
  · funext b k
    exact same (.listObject b k) trivial

namespace ObjectIndex

/-! ## Updates -/

def setVersion (I : ObjectIndex) (bucketID key sortKey : String) (v : Option ObjectVersion) :
    ObjectIndex :=
  { I with version := fun b k sk =>
      if b = bucketID ∧ k = key ∧ sk = sortKey then v else I.version b k sk }

def setLocator (I : ObjectIndex) (bucketID versionID : String) (l : Option ObjectVersionLocator) :
    ObjectIndex :=
  { I with locator := fun b id => if b = bucketID ∧ id = versionID then l else I.locator b id }

def setHead (I : ObjectIndex) (bucketID key : String) (e : Option ObjectHeadEntry) : ObjectIndex :=
  { I with head := fun b k => if b = bucketID ∧ k = key then e else I.head b k }

def setListed (I : ObjectIndex) (bucketID key : String) (e : Option ObjectListEntry) :
    ObjectIndex :=
  { I with listed := fun b k => if b = bucketID ∧ k = key then e else I.listed b k }

/-- Store a version and its locator. -/
def putVersion (I : ObjectIndex) (v : ObjectVersion) : ObjectIndex :=
  (I.setVersion v.bucketID v.key v.versionSortKey (some (metadata v))).setLocator
    v.bucketID v.versionID (some ⟨v.key, v.versionSortKey⟩)

/-- Set the head of a key and the list entry it stands for. -/
def publish (I : ObjectIndex) (e : ObjectHeadEntry) : ObjectIndex :=
  (I.setHead e.bucketID e.key (some e)).setListed e.bucketID e.key (listing e)

/-- Remove the head and the list entry of a key. -/
def retract (I : ObjectIndex) (bucketID key : String) : ObjectIndex :=
  (I.setHead bucketID key none).setListed bucketID key none

variable (I : ObjectIndex) (b k : String)

theorem putVersion_version (v : ObjectVersion) (sk : String) :
    (I.putVersion v).version b k sk =
      if b = v.bucketID ∧ k = v.key ∧ sk = v.versionSortKey then some (metadata v)
      else I.version b k sk := rfl

theorem publish_head (e : ObjectHeadEntry) :
    (I.publish e).head b k = if b = e.bucketID ∧ k = e.key then some e else I.head b k := rfl

theorem retract_head : (I.retract b k).head b k = none := if_pos ⟨rfl, rfl⟩

end ObjectIndex

/-! ## Writes of the store -/

section Writes

variable {s t : Store} {b k sk id : String}

/-- A write of one key: an index that is `t`'s at the key and `s`'s everywhere else. -/
theorem objectIndex_eq_of_write {K : Key} {I : ObjectIndex}
    (elsewhere : ∀ j, j ≠ K → t.lookup j = s.lookup j)
    (version : ∀ b k sk, I.version b k sk =
      (objectIndex (if .objectVersion b k sk = K then t else s)).version b k sk)
    (locator : ∀ b id, I.locator b id =
      (objectIndex (if .objectVersionByID b id = K then t else s)).locator b id)
    (head : ∀ b k, I.head b k = (objectIndex (if .objectHead b k = K then t else s)).head b k)
    (listed : ∀ b k, I.listed b k =
      (objectIndex (if .listObject b k = K then t else s)).listed b k) :
    objectIndex t = I := by
  ext1
  · funext b k sk
    rw [version]
    split
    · rfl
    · rename_i other
      exact congrArg (Option.map metadata) (elsewhere _ other)
  · funext b id
    rw [locator]
    split
    · rfl
    · rename_i other
      exact elsewhere _ other
  · funext b k
    rw [head]
    split
    · rfl
    · rename_i other
      exact elsewhere _ other
  · funext b k
    rw [listed]
    split
    · rfl
    · rename_i other
      exact elsewhere _ other

theorem objectIndex_version_write (elsewhere : ∀ j, j ≠ .objectVersion b k sk →
    t.lookup j = s.lookup j) :
    objectIndex t = (objectIndex s).setVersion b k sk
      ((t.lookup (.objectVersion b k sk)).map metadata) := by
  refine objectIndex_eq_of_write elsewhere (fun b' k' sk' => ?_) (fun _ _ => rfl) (fun _ _ => rfl)
    fun _ _ => rfl
  by_cases here : b' = b ∧ k' = k ∧ sk' = sk
  · obtain ⟨rfl, rfl, rfl⟩ := here
    simp [objectIndex, ObjectIndex.setVersion]
  · simp [ObjectIndex.setVersion, here]

theorem objectIndex_locator_write (elsewhere : ∀ j, j ≠ .objectVersionByID b id →
    t.lookup j = s.lookup j) :
    objectIndex t = (objectIndex s).setLocator b id (t.lookup (.objectVersionByID b id)) := by
  refine objectIndex_eq_of_write elsewhere (fun _ _ _ => rfl) (fun b' id' => ?_) (fun _ _ => rfl)
    fun _ _ => rfl
  by_cases here : b' = b ∧ id' = id
  · obtain ⟨rfl, rfl⟩ := here
    simp [objectIndex, ObjectIndex.setLocator]
  · simp [ObjectIndex.setLocator, here]

theorem objectIndex_head_write (elsewhere : ∀ j, j ≠ .objectHead b k →
    t.lookup j = s.lookup j) :
    objectIndex t = (objectIndex s).setHead b k (t.lookup (.objectHead b k)) := by
  refine objectIndex_eq_of_write elsewhere (fun _ _ _ => rfl) (fun _ _ => rfl) (fun b' k' => ?_)
    fun _ _ => rfl
  by_cases here : b' = b ∧ k' = k
  · obtain ⟨rfl, rfl⟩ := here
    simp [objectIndex, ObjectIndex.setHead]
  · simp [ObjectIndex.setHead, here]

theorem objectIndex_listed_write (elsewhere : ∀ j, j ≠ .listObject b k →
    t.lookup j = s.lookup j) :
    objectIndex t = (objectIndex s).setListed b k (t.lookup (.listObject b k)) := by
  refine objectIndex_eq_of_write elsewhere (fun _ _ _ => rfl) (fun _ _ => rfl) (fun _ _ => rfl)
    fun b' k' => ?_
  by_cases here : b' = b ∧ k' = k
  · obtain ⟨rfl, rfl⟩ := here
    simp [objectIndex, ObjectIndex.setListed]
  · simp [ObjectIndex.setListed, here]

variable (s b k sk id)

@[simp] theorem objectIndex_insert_version (v : ObjectVersion) :
    objectIndex (s.insert (.objectVersion b k sk) v) =
      (objectIndex s).setVersion b k sk (some (metadata v)) := by
  rw [objectIndex_version_write fun _ differs => lookup_insert_ne v differs, lookup_insert_self]
  rfl

@[simp] theorem objectIndex_erase_version :
    objectIndex (s.erase (.objectVersion b k sk)) = (objectIndex s).setVersion b k sk none := by
  rw [objectIndex_version_write fun _ differs => lookup_erase_ne differs, lookup_erase_self]
  rfl

@[simp] theorem objectIndex_insert_locator (l : ObjectVersionLocator) :
    objectIndex (s.insert (.objectVersionByID b id) l) =
      (objectIndex s).setLocator b id (some l) := by
  rw [objectIndex_locator_write fun _ differs => lookup_insert_ne l differs, lookup_insert_self]

@[simp] theorem objectIndex_erase_locator :
    objectIndex (s.erase (.objectVersionByID b id)) = (objectIndex s).setLocator b id none := by
  rw [objectIndex_locator_write fun _ differs => lookup_erase_ne differs, lookup_erase_self]

@[simp] theorem objectIndex_insert_head (e : ObjectHeadEntry) :
    objectIndex (s.insert (.objectHead b k) e) = (objectIndex s).setHead b k (some e) := by
  rw [objectIndex_head_write fun _ differs => lookup_insert_ne e differs, lookup_insert_self]

@[simp] theorem objectIndex_erase_head :
    objectIndex (s.erase (.objectHead b k)) = (objectIndex s).setHead b k none := by
  rw [objectIndex_head_write fun _ differs => lookup_erase_ne differs, lookup_erase_self]

@[simp] theorem objectIndex_insert_listed (e : ObjectListEntry) :
    objectIndex (s.insert (.listObject b k) e) = (objectIndex s).setListed b k (some e) := by
  rw [objectIndex_listed_write fun _ differs => lookup_insert_ne e differs, lookup_insert_self]

@[simp] theorem objectIndex_erase_listed :
    objectIndex (s.erase (.listObject b k)) = (objectIndex s).setListed b k none := by
  rw [objectIndex_listed_write fun _ differs => lookup_erase_ne differs, lookup_erase_self]

end Writes

end Namros.Index
