import Namros.Source.ObjectVersions

/-!
# Scans of one record family

A scan under one of the keyspace prefixes meets exactly the stored keys of one family, in
encoded order and once each, although the repository reads it in pages.
-/

namespace Namros.Source

open Library OrderedStore

/-- Keys of a family whose paths differ are distinct strings. -/
theorem distinct_of_family {α : Type} {family : α → Key} {p : Bytes}
    (selects : ∀ K : Key, p <+: K.encode → ∃ a, K = family a)
    (inj : ∀ a a', (family a).path = (family a').path → family a = family a') (s : Store) :
    Distinct keyCode (fun x => p.isPrefixOf x) s := by
  intro j _ k _ selected selected' same
  obtain ⟨a, rfl⟩ := selects j (List.isPrefixOf_iff_prefix.mp selected)
  obtain ⟨a', rfl⟩ := selects k (List.isPrefixOf_iff_prefix.mp selected')
  exact inj a a' (Key.path_eq_of_encode_eq same)

/-- The stored keys of a family, with their records. -/
theorem mem_keysWhere_family {α : Type} {f : α → Key} {P : α → Prop} {p : Bytes} {s : Store}
    {K : Key} (selects : ∀ K : Key, p <+: K.encode ↔ ∃ a, K = f a ∧ P a) :
    K ∈ keysWhere keyCode (fun x => p.isPrefixOf x) s ↔
      ∃ a v, K = f a ∧ P a ∧ s.lookup (f a) = some v := by
  have starts : p.isPrefixOf (keyCode.encode K) = true ↔ _ :=
    List.isPrefixOf_iff_prefix.trans (selects K)
  rw [mem_keysWhere, starts]
  constructor
  · rintro ⟨stored, a, rfl, inside⟩
    obtain ⟨v, found⟩ := Option.isSome_iff_exists.mp (AList.lookup_isSome.mpr stored)
    exact ⟨a, v, rfl, inside, found⟩
  · rintro ⟨a, v, rfl, inside, found⟩
    exact ⟨mem_of_lookup found, a, rfl, inside⟩

theorem version_path_inj (bucketID : String) (key : GoString) (sk sk' : String)
    (same : (Key.objectVersion bucketID key sk).path = (Key.objectVersion bucketID key sk').path) :
    Key.objectVersion bucketID key sk = .objectVersion bucketID key sk' := by
  simpa [Key.path] using same

theorem distinct_versions (bucketID : String) (key : GoString) (s : Store) :
    Distinct keyCode (fun x => (versionPrefix bucketID key).isPrefixOf x) s :=
  distinct_of_family (fun K => (versionPrefix_isPrefix_iff bucketID key K).mp)
    (version_path_inj bucketID key) s

/-- The records a scan returns. -/
theorem mem_recordsUnder {α : Type} {decode : (k : Key) → k.Value → Option α} {p : Bytes}
    {s : Store} (distinct : Distinct keyCode (fun x => p.isPrefixOf x) s) {K : Key} {a : α} :
    (K, a) ∈ recordsUnder decode p s ↔
      p <+: K.encode ∧ ∃ v, s.lookup K = some v ∧ decode K v = some a := by
  simp only [recordsUnder, scan_eq (by decide : 0 < scanPageSize) distinct, List.mem_filterMap,
    mem_keysWhere, List.isPrefixOf_iff_prefix, Option.map_eq_some_iff, Option.bind_eq_some_iff,
    Prod.mk.injEq]
  constructor
  · rintro ⟨k, ⟨-, selected⟩, b, found, rfl, rfl⟩
    exact ⟨selected, found⟩
  · rintro ⟨selected, v, found, decoded⟩
    exact ⟨K, ⟨mem_of_lookup found, selected⟩, a, ⟨v, found, decoded⟩, rfl, rfl⟩

/-- The stored records of a family, as a scan returns them. -/
theorem mem_recordsUnder_family {ι α : Type} {f : ι → Key} {p : Bytes} {s : Store}
    {decode : (k : Key) → k.Value → Option α} (selects : ∀ K : Key, p <+: K.encode ↔ ∃ i, K = f i)
    (inj : ∀ i j, (f i).path = (f j).path → f i = f j) {K : Key} {a : α} :
    (K, a) ∈ recordsUnder decode p s ↔
      ∃ i, K = f i ∧ (s.lookup (f i)).bind (decode (f i)) = some a := by
  have distinct := distinct_of_family (fun K => (selects K).mp) inj s
  rw [mem_recordsUnder distinct, selects, ← Option.bind_eq_some_iff]
  constructor
  · rintro ⟨⟨i, rfl⟩, found⟩
    exact ⟨i, rfl, found⟩
  · rintro ⟨i, rfl, found⟩
    exact ⟨⟨i, rfl⟩, found⟩

theorem mem_versionRecords {bucketID : String} {key : GoString} {s : Store} {K : Key}
    {v : ObjectVersion} :
    (K, v) ∈ recordsUnder asObjectVersion (versionPrefix bucketID key) s ↔
      ∃ sk, K = .objectVersion bucketID key sk ∧
        s.lookup (.objectVersion bucketID key sk) = some v := by
  have decoded sk : asObjectVersion (.objectVersion bucketID key sk) = some := rfl
  rw [mem_recordsUnder_family (versionPrefix_isPrefix_iff bucketID key)
    (version_path_inj bucketID key)]
  simp only [decoded, Option.bind_fun_some]

/-- Erasing the chunks of one manifest. -/
theorem lookup_deleteObjectManifestChunks {bucketID versionID : String} {s t : Store} {u : Unit}
    (ran : (deleteObjectManifestChunks bucketID versionID).run s = .ok (u, t)) {K : Key}
    (other : ∀ n, K ≠ .objectManifestChunk bucketID versionID n) : t.lookup K = s.lookup K := by
  change (if _ then _ else _) = _ at ran
  split at ran
  · cases ran
    rfl
  cases ran
  refine lookup_visitAll (by decide) (fun j s selected => lookup_erase_ne ?_) s
  obtain ⟨n, rfl⟩ := (manifestChunkPrefix_isPrefix_iff bucketID versionID j).mp
    (List.isPrefixOf_iff_prefix.mp selected)
  exact other n

end Namros.Source
