import Mathlib.Data.Set.Basic
import Namros.Index.View

/-!
# Consistent indexes

An index is consistent when every version is stored under its own identity and found through
its locator, every head is the record of a committed version of its key, and the list holds
exactly the heads that are not delete markers. The lemmas below are the changes that keep an
index consistent; the operations of the repository are made of them.
-/

namespace Namros.Index

open Source

/-- Versions and locators point at each other. -/
structure VersionsIndexed (I : ObjectIndex) : Prop where
  identified : ∀ {b k sk v}, I.version b k sk = some v →
    v.bucketID = b ∧ v.key = k ∧ v.versionID = sk ∧ v.versionSortKey = sk
  named : ∀ {b k sk v}, I.version b k sk = some v → sk ≠ ""
  located : ∀ {b k sk v}, I.version b k sk = some v → I.locator b sk = some ⟨k, sk⟩
  locates : ∀ {b id l}, I.locator b id = some l →
    l.versionSortKey = id ∧ ∃ v, I.version b l.key id = some v

/-- The head of one key is the record of a committed version, and is listed unless it is a
delete marker. -/
structure HeadIndexed (I : ObjectIndex) (b k : String) : Prop where
  current : ∀ {e}, I.head b k = some e → ∃ v revision lastModified,
    I.version b k e.versionID = some v ∧ v.state = .committed ∧
      e = headEntryOf v revision lastModified
  listed : I.listed b k = (I.head b k).bind listing

/-- A consistent index whose version ids were all issued. -/
structure Consistent (issued : Set String) (I : ObjectIndex) : Prop where
  versions : VersionsIndexed I
  heads : ∀ b k, HeadIndexed I b k
  issuedOnly : ∀ {b k sk v}, I.version b k sk = some v → sk ∈ issued

variable {I : ObjectIndex}

theorem Consistent.mono {U V : Set String} (h : Consistent U I) (le : U ⊆ V) : Consistent V I :=
  ⟨h.versions, h.heads, fun found => le (h.issuedOnly found)⟩

variable {id : String}

/-- An id that was not issued has no locator. -/
theorem Consistent.locator_of_not_issued {U : Set String} (h : Consistent U I) (unissued : id ∉ U)
    (b : String) : I.locator b id = none := by
  cases located : I.locator b id with
  | none => rfl
  | some l =>
    obtain ⟨-, v, found⟩ := h.versions.locates located
    exact absurd (h.issuedOnly found) unissued

/-- The identity of `v` is free or already its own. -/
structure Storable (I : ObjectIndex) (v : ObjectVersion) : Prop where
  sortKey : v.versionSortKey = v.versionID
  named : v.versionID ≠ ""
  unclaimed : ∀ {l}, I.locator v.bucketID v.versionID = some l → l.key = v.key

variable {b k : String} {v w : ObjectVersion}

namespace VersionsIndexed

variable {I J : ObjectIndex}

theorem congr (h : VersionsIndexed I) (versions : J.version = I.version)
    (locators : J.locator = I.locator) : VersionsIndexed J := by
  constructor
  · intro b k sk v found
    rw [versions] at found
    exact h.identified found
  · intro b k sk v found
    rw [versions] at found
    exact h.named found
  · intro b k sk v found
    rw [versions] at found
    rw [locators]
    exact h.located found
  · intro b id l found
    rw [locators] at found
    rw [versions]
    exact h.locates found

/-- Two keys of a bucket share no version id. -/
theorem key_unique (h : VersionsIndexed I) {k' sk : String} {v' : ObjectVersion}
    (found : I.version b k sk = some v) (found' : I.version b k' sk = some v') : k' = k := by
  have located := h.located found
  rw [h.located found'] at located
  cases located
  rfl

/-- A stored version can be stored again. -/
theorem storable (h : VersionsIndexed I) (stored : I.version b k id = some w)
    (identity : v.bucketID = b ∧ v.key = k ∧ v.versionID = id ∧ v.versionSortKey = id) :
    Storable I v := by
  obtain ⟨rfl, rfl, rfl, sortKey⟩ := identity
  refine ⟨sortKey, h.named stored, fun {l} found => ?_⟩
  rw [h.located stored] at found
  cases found
  rfl

theorem putVersion (h : VersionsIndexed I) (storable : Storable I v) :
    VersionsIndexed (I.putVersion v) := by
  obtain ⟨sortKey, named, unclaimed⟩ := storable
  constructor
  · intro b k sk w found
    rw [ObjectIndex.putVersion_version] at found
    split at found
    · rename_i here
      cases found
      exact ⟨here.1.symm, here.2.1.symm, by rw [here.2.2, sortKey]; rfl, here.2.2.symm⟩
    · exact h.identified found
  · intro b k sk w found
    rw [ObjectIndex.putVersion_version] at found
    split at found
    · rename_i here
      rw [here.2.2, sortKey]
      exact named
    · exact h.named found
  · intro b k sk w found
    simp only [ObjectIndex.putVersion, ObjectIndex.setLocator, ObjectIndex.setVersion] at found ⊢
    split at found
    · rename_i here
      obtain ⟨rfl, rfl, rfl⟩ := here
      rw [if_pos ⟨rfl, sortKey⟩]
    rename_i elsewhere
    split
    · rename_i here
      -- the locator of `v` was free or pointed at `v`'s key, where `w` is not stored
      obtain ⟨rfl, rfl⟩ := here
      have claimed := unclaimed (h.located found)
      exact absurd ⟨rfl, claimed, sortKey.symm⟩ elsewhere
    · exact h.located found
  · intro b id l found
    simp only [ObjectIndex.putVersion, ObjectIndex.setLocator, ObjectIndex.setVersion] at found ⊢
    split at found
    · rename_i here
      cases found
      exact ⟨by rw [sortKey, here.2], metadata v, if_pos ⟨here.1, rfl, by rw [sortKey, here.2]⟩⟩
    obtain ⟨same, w, stored⟩ := h.locates found
    refine ⟨same, ?_⟩
    split
    · exact ⟨_, rfl⟩
    · exact ⟨w, stored⟩

/-- Removing a stored version with its locator. -/
theorem dropVersion (h : VersionsIndexed I) (stored : I.version b k id = some v) :
    VersionsIndexed ((I.setLocator b id none).setVersion b k id none) := by
  constructor
  · intro b' k' sk w found
    simp only [ObjectIndex.setLocator, ObjectIndex.setVersion] at found
    split at found
    · cases found
    · exact h.identified found
  · intro b' k' sk w found
    simp only [ObjectIndex.setLocator, ObjectIndex.setVersion] at found
    split at found
    · cases found
    · exact h.named found
  · intro b' k' sk w found
    simp only [ObjectIndex.setLocator, ObjectIndex.setVersion] at found ⊢
    split at found
    · cases found
    rename_i elsewhere
    rw [if_neg]
    · exact h.located found
    · rintro ⟨rfl, rfl⟩
      exact elsewhere ⟨rfl, h.key_unique stored found, rfl⟩
  · intro b' id' l found
    simp only [ObjectIndex.setLocator, ObjectIndex.setVersion] at found ⊢
    split at found
    · cases found
    rename_i elsewhere
    obtain ⟨same, w, there⟩ := h.locates found
    refine ⟨same, w, ?_⟩
    rw [if_neg]
    · exact there
    · rintro ⟨rfl, -, rfl⟩
      exact elsewhere ⟨rfl, rfl⟩

end VersionsIndexed

/-- A head depends on the records of its own key only. -/
theorem HeadIndexed.congr {J : ObjectIndex} (h : HeadIndexed I b k) (head : J.head b k = I.head b k)
    (listed : J.listed b k = I.listed b k) (version : ∀ {e}, I.head b k = some e →
      J.version b k e.versionID = I.version b k e.versionID) : HeadIndexed J b k := by
  constructor
  · intro e found
    rw [head] at found
    rw [version found]
    exact h.current found
  · rw [listed, head]
    exact h.listed

/-- A published head must be the record of a committed version; other keys are not affected. -/
theorem headIndexed_publish {e : ObjectHeadEntry}
    (elsewhere : ¬ (b = e.bucketID ∧ k = e.key) → HeadIndexed I b k)
    (current : ∃ v revision lastModified, I.version e.bucketID e.key e.versionID = some v ∧
      v.state = .committed ∧ e = headEntryOf v revision lastModified) :
    HeadIndexed (I.publish e) b k := by
  by_cases here : b = e.bucketID ∧ k = e.key
  · constructor
    · intro e' found
      rw [ObjectIndex.publish_head, if_pos here] at found
      cases found
      obtain ⟨rfl, rfl⟩ := here
      exact current
    · simp only [ObjectIndex.publish, ObjectIndex.setListed, ObjectIndex.setHead]
      rw [if_pos here, if_pos here]
      rfl
  · refine (elsewhere here).congr ?_ ?_ fun _ => rfl
    · exact if_neg here
    · exact if_neg here

namespace Consistent

variable {U : Set String} {I : ObjectIndex}

theorem empty : Consistent U ⟨fun _ _ _ => none, fun _ _ => none, fun _ _ => none,
    fun _ _ => none⟩ := by
  constructor
  · constructor <;> intros <;> contradiction
  · intro b k
    constructor
    · intro e found
      cases found
    · rfl
  · intro b k sk v found
    cases found

private theorem issued_putVersion (h : Consistent U I) (issued : v.versionSortKey ∈ U) {sk : String}
    (found : (I.putVersion v).version b k sk = some w) : sk ∈ U := by
  rw [ObjectIndex.putVersion_version] at found
  split at found
  · rename_i here
    rw [here.2.2]
    exact issued
  · exact h.issuedOnly found

private theorem heads_putVersion (h : Consistent U I)
    (stale : b = v.bucketID → k = v.key → ∀ {e}, I.head b k = some e →
      e.versionID ≠ v.versionSortKey) : HeadIndexed (I.putVersion v) b k := by
  refine (h.heads b k).congr rfl rfl fun {e} found => ?_
  rw [ObjectIndex.putVersion_version, if_neg]
  rintro ⟨rfl, rfl, same⟩
  exact stale rfl rfl found same

/-- Store a version that is not the current one of its key. -/
theorem putVersion (h : Consistent U I) (storable : Storable I v) (issued : v.versionID ∈ U)
    (stale : ∀ {e}, I.head v.bucketID v.key = some e → e.versionID ≠ v.versionID) :
    Consistent U (I.putVersion v) := by
  rw [← storable.sortKey] at issued
  refine ⟨h.versions.putVersion storable, fun b k => ?_, h.issued_putVersion issued⟩
  refine h.heads_putVersion ?_
  rintro rfl rfl e found
  rw [storable.sortKey]
  exact stale found

/-- Store a committed version and make it the current one. -/
theorem putCurrent (h : Consistent U I) (storable : Storable I v) (issued : v.versionID ∈ U)
    (committed : v.state = .committed) (revision : UInt64) (lastModified : Time) :
    Consistent U ((I.putVersion v).publish (headEntryOf v revision lastModified)) := by
  rw [← storable.sortKey] at issued
  refine ⟨(h.versions.putVersion storable).congr rfl rfl, fun b k => ?_,
    h.issued_putVersion issued⟩
  refine headIndexed_publish (fun elsewhere => h.heads_putVersion fun sameBucket sameKey =>
    absurd ⟨sameBucket, sameKey⟩ elsewhere) ?_
  exact ⟨metadata v, revision, lastModified, if_pos ⟨rfl, rfl, storable.sortKey.symm⟩, committed,
    rfl⟩

/-- Make a stored committed version the current one. -/
theorem promote (h : Consistent U I) (stored : I.version b k id = some v)
    (committed : v.state = .committed) (revision : UInt64) (lastModified : Time) : Consistent U
    (I.publish (headEntryOf v revision lastModified)) := by
  obtain ⟨rfl, rfl, rfl, -⟩ := h.versions.identified stored
  refine ⟨h.versions.congr rfl rfl, fun b k => ?_, fun found => h.issuedOnly found⟩
  exact headIndexed_publish (fun _ => h.heads b k) 
    ⟨v, revision, lastModified, stored, committed, rfl⟩

/-- Leave a key without a head. -/
theorem retract (h : Consistent U I) (b k : String) : Consistent U (I.retract b k) := by
  refine ⟨h.versions.congr rfl rfl, fun b' k' => ?_, fun found => h.issuedOnly found⟩
  by_cases here : b' = b ∧ k' = k
  · obtain ⟨rfl, rfl⟩ := here
    constructor
    · intro e found
      cases (I.retract_head _ _).symm.trans found
    · simp [ObjectIndex.retract, ObjectIndex.setListed, ObjectIndex.setHead]
  · refine (h.heads b' k').congr ?_ ?_ fun _ => rfl
    · exact if_neg here
    · exact if_neg here

/-- Remove a version that is not the current one of its key. -/
theorem dropVersion (h : Consistent U I) (stored : I.version b k id = some v)
    (stale : ∀ {e}, I.head b k = some e → e.versionID ≠ id) :
    Consistent U ((I.setLocator b id none).setVersion b k id none) := by
  refine ⟨h.versions.dropVersion stored, fun b' k' => ?_, fun {b' k' sk w} found => ?_⟩
  · refine (h.heads b' k').congr rfl rfl fun {e} found => ?_
    simp only [ObjectIndex.setLocator, ObjectIndex.setVersion]
    rw [if_neg]
    rintro ⟨rfl, rfl, same⟩
    exact stale found same
  · simp only [ObjectIndex.setLocator, ObjectIndex.setVersion] at found
    split at found
    · cases found
    · exact h.issuedOnly found

theorem storable_of_stored (h : Consistent U I) (stored : I.version b k id = some w)
    (identity : v.bucketID = b ∧ v.key = k ∧ v.versionID = id ∧ v.versionSortKey = id) :
    Storable I v :=
  h.versions.storable stored identity

/-- Rewrite a stored version and, when it is the current one, its head. -/
theorem amend (h : Consistent U I) (stored : I.version b k id = some w)
    (identity : v.bucketID = b ∧ v.key = k ∧ v.versionID = id ∧ v.versionSortKey = id)
    (committed : v.state = .committed) {J : ObjectIndex} (result : (∃ revision lastModified,
        J = (I.putVersion v).publish (headEntryOf v revision lastModified)) ∨
      (J = I.putVersion v ∧ ∀ {e}, I.head b k = some e → e.versionID ≠ id)) : Consistent U J := by
  have storable := h.storable_of_stored stored identity
  have issued := h.issuedOnly stored
  obtain ⟨rfl, rfl, rfl, -⟩ := identity
  rcases result with ⟨revision, lastModified, rfl⟩ | ⟨rfl, stale⟩
  · exact h.putCurrent storable issued committed revision lastModified
  · exact h.putVersion storable issued stale

end Consistent

end Namros.Index
