import Namros.Library.Delimited
import Namros.Library.Interleaving
import Namros.Source.SegmentAddress
import Namros.Source.VolumeCaches

/-!
# What the volume caches hand out

The cached chunk id allocator hands out no id twice, and a shared volume session is closed once,
when its last lease is released. The scope under which the requests of a session are kept apart
from those of others is read back from its text, whatever the session's fields hold.
-/

namespace Namros.Guarantees

open Library Source

/-! ## Chunk ids -/

/-- The range has this id of the volume. -/
def Includes (v : String) (n : Nat) (r : ChunkRange) : Prop :=
  r.volumeID = v ∧ r.start.toNat ≤ n ∧ n < r.start.toNat + r.count.toNat
deriving Decidable

/-- No id is in both ranges. -/
def Apart (r q : ChunkRange) : Prop := ∀ v n, Includes v n r → ¬ Includes v n q

/-- The ids from `low` to `high` are part of one range obtained for the volume. -/
def Backed (obtained : List ChunkRange) (v : String) (low high : Nat) : Prop :=
  ∃ q ∈ obtained, q.volumeID = v ∧ q.start.toNat ≤ low ∧ high ≤ q.start.toNat + q.count.toNat

/-- The ranges among these that have an id. -/
def hits (ranges : List ChunkRange) (v : String) (n : Nat) : Nat :=
  ranges.countP fun r => decide (Includes v n r)

theorem pairwise_apart_iff {ranges : List ChunkRange} :
    ranges.Pairwise Apart ↔ ∀ v n, hits ranges v n ≤ 1 := by
  induction ranges with
  | nil => simp [hits]
  | cons r ranges ih =>
    simp only [List.pairwise_cons, ih, hits, List.countP_cons]
    constructor
    · rintro ⟨apart, once⟩ v n
      by_cases here : Includes v n r
      · have none : ranges.countP (fun q => decide (Includes v n q)) = 0 := by
          simpa [List.countP_eq_zero] using fun q member => apart q member v n here
        simp [none, here]
      · simpa [here] using once v n
    · intro once
      refine ⟨fun q member v n here there => ?_, fun v n => by have := once v n; omega⟩
      have counted := once v n
      have some : 0 < ranges.countP fun q => decide (Includes v n q) :=
        List.countP_pos_iff.mpr ⟨q, member, by simpa using there⟩
      rw [if_pos (by simpa using here)] at counted
      omega

/-- The cached range has this id. -/
def cachedHit (cached : PhysicalChunkIDCacheRange) (n : Nat) : Nat :=
  if cached.next.toNat ≤ n ∧ n < cached.stop.toNat then 1 else 0

/-- An id is handed out or cached at most as often as it was obtained, and what is handed out or
cached in one piece was obtained in one piece. -/
structure HandedOutOnce (h : AllocationHistory) : Prop where
  count : ∀ v n, hits h.returned v n + cachedHit (h.volumes v) n ≤ hits h.obtained v n
  inside : ∀ r ∈ h.returned,
    Backed h.obtained r.volumeID r.start.toNat (r.start.toNat + r.count.toNat)
  cached : ∀ v, (h.volumes v).next.toNat = (h.volumes v).stop.toNat ∨
    (h.volumes v).next.toNat < (h.volumes v).stop.toNat ∧
      Backed h.obtained v (h.volumes v).next.toNat (h.volumes v).stop.toNat

variable {cacheSize : UInt32} {h : AllocationHistory} {call : AllocationCall} {v : String}

theorem Backed.append {obtained : List ChunkRange} {low high : Nat}
    (backed : Backed obtained v low high) (more : List ChunkRange) :
    Backed (obtained ++ more) v low high := by
  obtain ⟨q, member, found⟩ := backed
  exact ⟨q, List.mem_append_left _ member, found⟩

theorem HandedOutOnce.cached_append (sound : HandedOutOnce h) (more : List ChunkRange)
    (v : String) :
    (h.volumes v).next.toNat = (h.volumes v).stop.toNat ∨
      (h.volumes v).next.toNat < (h.volumes v).stop.toNat ∧
        Backed (h.obtained ++ more) v (h.volumes v).next.toNat (h.volumes v).stop.toNat :=
  (sound.cached v).imp_right fun filled => ⟨filled.1, filled.2.append more⟩

theorem HandedOutOnce.failed (sound : HandedOutOnce h) (more : List ChunkRange) (e : StorageError) :
    HandedOutOnce (h.record v call.count ⟨h.volumes, .error e, more⟩) where
  count v n := by
    have := sound.count v n
    simp only [AllocationHistory.record, hits, List.countP_append] at this ⊢
    omega
  inside r member := (sound.inside r member).append more
  cached := sound.cached_append more

theorem HandedOutOnce.forward (sound : HandedOutOnce h) :
    HandedOutOnce (h.record v call.count (call.forward v h.volumes)) := by
  unfold AllocationCall.forward
  cases call.next v call.count with
  | error e => exact sound.failed [] e
  | ok start =>
    refine ⟨fun w n => ?_, fun r member => ?_, sound.cached_append _⟩
    · have := sound.count w n
      simp only [AllocationHistory.record, hits, List.countP_append] at this ⊢
      omega
    rcases List.mem_append.mp member with earlier | now
    · exact (sound.inside r earlier).append _
    · rw [List.mem_singleton.mp now]
      exact ⟨_, List.mem_append_right _ (List.mem_singleton_self _), rfl, le_rfl, le_rfl⟩

/-- The first ids of a range are handed out and the rest is cached. The range is the cached one,
or obtained now. -/
theorem HandedOutOnce.carve (sound : HandedOutOnce h) {cached : PhysicalChunkIDCacheRange}
    {more : List ChunkRange} (enough : cached.next.toNat + call.count.toNat ≤ cached.stop.toNat)
    (backed : Backed (h.obtained ++ more) v cached.next.toNat cached.stop.toNat)
    (paid : ∀ n, cachedHit cached n ≤ cachedHit (h.volumes v) n + hits more v n) :
    HandedOutOnce (h.record v call.count (carve h.volumes v call.count cached more)) := by
  have next : (cached.next + call.count.toUInt64).toNat =
      cached.next.toNat + call.count.toNat := by
    have bound := cached.stop.toNat_lt
    rw [UInt64.toNat_add, UInt32.toNat_toUInt64]
    omega
  obtain ⟨q, member, volume, low, high⟩ := backed
  refine ⟨fun w n => ?_, fun r member' => ?_, fun w => ?_⟩
  · have old := sound.count w n
    simp only [AllocationHistory.record, Source.carve, hits, List.countP_append,
      List.countP_singleton, Includes] at old paid ⊢
    by_cases same : w = v
    · subst same
      have new := paid n
      simp only [Function.update_self, cachedHit, next] at old new ⊢
      grind
    · simp only [Function.update_of_ne same, Ne.symm same, false_and, decide_false]
      simp
      omega
  · rcases List.mem_append.mp member' with earlier | now
    · exact (sound.inside r earlier).append more
    · rw [List.mem_singleton.mp now]
      exact ⟨q, member, volume, low, enough.trans high⟩
  · by_cases same : w = v
    · subst same
      simp only [AllocationHistory.record, Source.carve, Function.update_self, next]
      refine (Nat.eq_or_lt_of_le enough).imp_right fun rest => ⟨rest, q, member, volume, ?_, high⟩
      omega
    · simpa [AllocationHistory.record, Source.carve, same] using sound.cached_append more w

theorem HandedOutOnce.allocateChunkIDs (sound : HandedOutOnce h) (counted : call.count ≠ 0) :
    HandedOutOnce (h.record (trimSpace call.volumeID) call.count
      (call.allocateChunkIDs cacheSize h.volumes)) := by
  unfold AllocationCall.allocateChunkIDs
  rw [if_neg counted]
  dsimp only
  generalize trimSpace call.volumeID = v
  split
  · exact sound.failed [] _
  split
  · exact sound.forward
  rename_i small
  split
  · cases call.next v cacheSize with
    | error e => exact sound.failed [] e
    | ok start =>
      dsimp only
      split
      · exact sound.failed _ _
      rename_i fits
      have stop : (start + cacheSize.toUInt64).toNat = start.toNat + cacheSize.toNat := by
        have bound := UInt64.le_iff_toNat_le.mp (UInt64.not_lt.mp fits)
        have size := cacheSize.toNat_lt
        rw [UInt64.toNat_sub_of_le _ _ (UInt64.le_iff_toNat_le.mpr (by simp; omega))] at bound
        rw [UInt64.toNat_add, UInt32.toNat_toUInt64]
        simp at bound
        omega
      have count := UInt32.le_iff_toNat_le.mp (UInt32.not_lt.mp (not_or.mp small).2)
      refine sound.carve ?_ ?_ fun n => ?_
      · simp only [stop]
        omega
      · simp only [stop]
        exact ⟨_, List.mem_append_right _ (List.mem_singleton_self _), rfl, le_rfl, le_rfl⟩
      · simp [cachedHit, stop, hits, Includes]
  · rename_i enough
    have enough := UInt64.le_iff_toNat_le.mp (UInt64.not_lt.mp enough)
    have positive : call.count.toNat ≠ 0 := fun none => counted (UInt32.toNat_inj.mp none)
    have ordered : (h.volumes v).next.toNat ≤ (h.volumes v).stop.toNat :=
      (sound.cached v).elim le_of_eq fun some => some.1.le
    rw [UInt64.toNat_sub_of_le _ _ (UInt64.le_iff_toNat_le.mpr ordered),
      UInt32.toNat_toUInt64] at enough
    have backed := ((sound.cached v).resolve_left (by omega)).2
    exact sound.carve (by omega) (by simpa using backed) fun n => Nat.le_add_right _ _

theorem HandedOutOnce.step (sound : HandedOutOnce h) (counted : call.count ≠ 0) :
    HandedOutOnce (h.step cacheSize call) := by
  unfold AllocationHistory.step AllocationCall.serve AllocationCall.volume
  by_cases uncached : cacheSize = 0
  · simp only [uncached, if_true]
    exact sound.forward
  · simp only [uncached, if_false]
    exact sound.allocateChunkIDs counted

theorem handedOutOnce_run {calls : List AllocationCall} (counted : ∀ call ∈ calls, call.count ≠ 0) :
    HandedOutOnce (calls.foldl (AllocationHistory.step cacheSize) {}) := by
  have start : HandedOutOnce {} := ⟨by simp [hits, cachedHit], by simp, fun _ => .inl rfl⟩
  revert start
  generalize ({} : AllocationHistory) = h
  intro sound
  induction calls generalizing h with
  | nil => exact sound
  | cons call calls ih =>
    exact ih (fun other member => counted other (List.mem_cons_of_mem _ member)) _
      (sound.step (counted call List.mem_cons_self))

/-- Whatever the calls, the cache size and the failures of the backing allocator: the ranges
returned for one volume have no id in common, and each lies inside a range obtained for that
volume. -/
theorem returned_ranges_apart (cacheSize : UInt32) (calls : List AllocationCall)
    (counted : ∀ call ∈ calls, call.count ≠ 0)
    (disjoint : (calls.foldl (AllocationHistory.step cacheSize) {}).obtained.Pairwise Apart) :
    (calls.foldl (AllocationHistory.step cacheSize) {}).returned.Pairwise Apart ∧
      ∀ r ∈ (calls.foldl (AllocationHistory.step cacheSize) {}).returned,
        Backed (calls.foldl (AllocationHistory.step cacheSize) {}).obtained r.volumeID
          r.start.toNat (r.start.toNat + r.count.toNat) := by
  have sound : HandedOutOnce (calls.foldl (AllocationHistory.step cacheSize) {}) :=
    handedOutOnce_run counted
  refine ⟨pairwise_apart_iff.mpr fun v n => ?_, sound.inside⟩
  have granted := pairwise_apart_iff.mp disjoint v n
  have handed := sound.count v n
  omega

/-- Two small requests from one cached range, then one above the cache size. -/
def threeAllocations : List AllocationCall :=
  [⟨"v", 3, fun _ _ => .ok 10⟩, ⟨" v", 1, fun _ _ => .error .notFound⟩, ⟨"v", 9, fun _ _ => .ok 20⟩]

theorem threeAllocations_apart :
    (threeAllocations.foldl (AllocationHistory.step 4) {}).returned =
        [⟨"v", 10, 3⟩, ⟨"v", 13, 1⟩, ⟨"v", 20, 9⟩] ∧
      (threeAllocations.foldl (AllocationHistory.step 4) {}).returned.Pairwise Apart := by
  have obtained : (threeAllocations.foldl (AllocationHistory.step 4) {}).obtained =
      [⟨"v", 10, 4⟩, ⟨"v", 20, 9⟩] := by decide +kernel
  refine ⟨by decide +kernel, (returned_ranges_apart 4 threeAllocations (by decide) ?_).1⟩
  rw [obtained]
  simp [Apart, Includes]
  omega

/-! ## Volume sessions -/

def heldBy (n : Nat) (lease : VolumeSessionLease) : Nat :=
  if lease.state = .held ∧ lease.serial = n then 1 else 0

def closingOf (n : Nat) (lease : VolumeSessionLease) : Nat :=
  if lease.state = .closing ∧ lease.serial = n then 1 else 0

/-- A cached session counts the leases that hold it and is not closed; a session that left the
cache is being closed or was closed, once. Session `n` was placed under the key `place n`, is held
by `held n` leases and is closed `settled n` times. -/
structure Shared (entries : VolumeSessionKey → Option VolumeSessionEntry)
    (place : Nat → VolumeSessionKey) (held settled : Nat → Nat) (placed : Nat) : Prop where
  cached : ∀ key e, entries key = some e → place e.serial = key ∧ e.serial < placed ∧
    0 < e.refs ∧ e.refs = held e.serial ∧ settled e.serial = 0
  inside : ∀ n, 0 < held n → (entries (place n)).map VolumeSessionEntry.serial = some n
  gone : ∀ n < placed,
    (entries (place n)).map VolumeSessionEntry.serial = some n ∨ settled n = 1
  fresh : ∀ n, placed ≤ n → settled n = 0

section

variable {entries : VolumeSessionKey → Option VolumeSessionEntry}
  {place : Nat → VolumeSessionKey} {held settled held' settled' : Nat → Nat} {placed : Nat}
  {key : VolumeSessionKey} {e : VolumeSessionEntry}

theorem Shared.settled_once (shared : Shared entries place held settled placed) (n : Nat) :
    settled n ≤ 1 ∧ (0 < held n → settled n = 0) := by
  obtain ⟨cached, inside, gone, fresh⟩ := shared
  cases found : entries (place n) <;> grind

/-- A lease joins or leaves, and others are left. -/
theorem Shared.recount (shared : Shared entries place held settled placed)
    (found : entries key = some e) {refs : Nat} (nonzero : 0 < refs)
    (counted : ∀ n, held' n = if n = e.serial then refs else held n)
    (closes : ∀ n, settled' n = settled n) :
    Shared (Function.update entries key (some { e with refs })) place held' settled' placed := by
  obtain ⟨cached, inside, gone, fresh⟩ := shared
  constructor
  · grind [Function.update_apply]
  · grind [Function.update_apply]
  · grind [Function.update_apply]
  · grind [Function.update_apply]

/-- The last lease leaves. -/
theorem Shared.remove (shared : Shared entries place held settled placed)
    (found : entries key = some e) (counted : ∀ n, held' n = if n = e.serial then 0 else held n)
    (closes : ∀ n, settled' n = if n = e.serial then 1 else settled n) :
    Shared (Function.update entries key none) place held' settled' placed := by
  obtain ⟨cached, inside, gone, fresh⟩ := shared
  constructor
  · grind [Function.update_apply]
  · grind [Function.update_apply]
  · grind [Function.update_apply]
  · grind [Function.update_apply]

/-- A new session with its first lease. -/
theorem Shared.open_new (shared : Shared entries place held settled placed)
    (absent : entries key = none) {session : VolumeSession}
    (counted : ∀ n, held' n = if n = placed then 1 else held n)
    (closes : ∀ n, settled' n = settled n) :
    Shared (Function.update entries key (some ⟨session, 1, placed⟩))
      (Function.update place placed key) held' settled' (placed + 1) := by
  obtain ⟨cached, inside, gone, fresh⟩ := shared
  constructor
  · grind [Function.update_apply]
  · grind [Function.update_apply]
  · grind [Function.update_apply]
  · grind [Function.update_apply]

end

/-- The invariant of the cache. -/
def SessionsShared (sys : SessionSystem) : Prop :=
  ∃ place, Shared sys.entries place (fun n => tally (heldBy n) sys.leases)
      (fun n => tally (closingOf n) sys.leases + sys.closed.count n) sys.placed ∧
    (∀ n < sys.placed, normalizeVolumeSessionKey (place n) = place n) ∧
    ∀ lease ∈ sys.leases, lease.serial < sys.placed ∧ place lease.serial = lease.key

variable {sys next : SessionSystem} {lease : VolumeSessionLease} {i : Nat}

theorem SessionsShared.acquire (inv : SessionsShared sys) {contextErr : Option StorageError}
    {key : VolumeSessionKey} {opened : Except StorageError VolumeSession}
    (ran : sys.acquire contextErr key opened = .ok next) : SessionsShared next := by
  obtain ⟨place, shared, normal, leases⟩ := inv
  have normalized : normalizeVolumeSessionKey (normalizeVolumeSessionKey key) =
      normalizeVolumeSessionKey key := by
    simp [normalizeVolumeSessionKey, trimSpace, trimText_trimText]
  unfold SessionSystem.acquire at ran
  generalize normalizeVolumeSessionKey key = key at ran normalized
  cases contextErr with
  | some e => cases ran
  | none =>
    obtain ⟨_, -, ran⟩ := bind_eq_ok.mp ran
    cases found : sys.entries key with
    | some e =>
      simp only [found] at ran
      cases ran
      obtain ⟨at_, below, -, counted, -⟩ := shared.cached _ e found
      refine ⟨place, shared.recount found (Nat.succ_pos _) (fun n => ?_) (fun n => ?_), normal, ?_⟩
      · by_cases same : n = e.serial
        · simp [same, tally, heldBy, counted]
        · simp [same, Ne.symm same, tally, heldBy]
      · simp [tally, closingOf]
      intro lease member
      rcases List.mem_append.mp member with old | new
      · exact leases lease old
      · rw [List.mem_singleton.mp new]
        exact ⟨below, at_⟩
    | none =>
      simp only [found] at ran
      obtain ⟨session, -, ran⟩ := bind_eq_ok.mp ran
      obtain ⟨admitted, -, ran⟩ := bind_eq_ok.mp ran
      cases ran
      refine ⟨_, shared.open_new found (fun n => ?_) (fun n => ?_), fun n below => ?_, ?_⟩
      · -- no lease is of the new session
        have none : tally (heldBy sys.placed) sys.leases = 0 := tally_eq_zero fun lease member =>
          if_neg fun both => by have := (leases lease member).1; omega
        by_cases same : n = sys.placed
        · simp only [tally] at none
          simp [same, tally, heldBy, none]
        · simp [same, Ne.symm same, tally, heldBy]
      · simp [tally, closingOf]
      · by_cases same : n = sys.placed
        · simp [same, normalized]
        · simpa [same] using normal n (by simp at below; omega)
      · intro lease member
        rcases List.mem_append.mp member with old | new
        · obtain ⟨below, at_⟩ := leases lease old
          have other : lease.serial ≠ sys.placed := by omega
          exact ⟨Nat.lt_succ_of_lt below, by simpa [other] using at_⟩
        · rw [List.mem_singleton.mp new]
          simp

theorem SessionsShared.release (inv : SessionsShared sys) (found : sys.leases[i]? = some lease)
    (held : lease.state = .held) :
    SessionsShared { sys with
      entries := (releaseEntry sys.entries lease.key).2
      leases := sys.leases.set i
        { lease with state := (releaseEntry sys.entries lease.key).1 } } := by
  obtain ⟨place, shared, normal, leases⟩ := inv
  obtain ⟨below, at_⟩ := leases lease (List.mem_of_getElem? found)
  have one : heldBy lease.serial lease = 1 := by simp [heldBy, held]
  have counted := le_tally (heldBy lease.serial) found
  obtain ⟨e, cached, serial⟩ := Option.map_eq_some_iff.mp (shared.inside lease.serial (by omega))
  have here : sys.entries (normalizeVolumeSessionKey lease.key) = some e := by
    rw [← at_, normal _ below, cached]
  obtain ⟨-, -, -, refs, unsettled⟩ := shared.cached _ e here
  rw [serial] at refs unsettled
  have moved (state : LeaseState) (n : Nat) := tally_set (heldBy n) found { lease with state }
  have closes (state : LeaseState) (n : Nat) := tally_set (closingOf n) found { lease with state }
  simp only [heldBy, closingOf, held] at moved closes
  refine ⟨place, ?_, normal, forall_mem_set leases ⟨below, at_⟩⟩
  simp only [releaseEntry, here]
  generalize normalizeVolumeSessionKey lease.key = key at here
  split
  · refine shared.recount here (by omega) (fun n => ?_) (fun n => ?_)
    · have := moved .released n
      grind
    · have := closes .released n
      simp_all
  · refine shared.remove here (fun n => ?_) (fun n => ?_)
    · have := moved .closing n
      grind
    · have := closes .closing n
      grind

theorem SessionsShared.close (inv : SessionsShared sys) (found : sys.leases[i]? = some lease)
    (closing : lease.state = .closing) :
    SessionsShared { sys with
      leases := sys.leases.set i { lease with state := .released }
      closed := sys.closed ++ [lease.serial] } := by
  obtain ⟨place, shared, normal, leases⟩ := inv
  have moved (n : Nat) := tally_set (heldBy n) found { lease with state := .released }
  have closes (n : Nat) := tally_set (closingOf n) found { lease with state := .released }
  simp only [heldBy, closingOf, closing] at moved closes
  have same : (fun n => tally (heldBy n) (sys.leases.set i { lease with state := .released })) =
      fun n => tally (heldBy n) sys.leases := by
    funext n
    simpa using moved n
  have settled : (fun n => tally (closingOf n) (sys.leases.set i { lease with state := .released }) +
      (sys.closed ++ [lease.serial]).count n) =
        fun n => tally (closingOf n) sys.leases + sys.closed.count n := by
    funext n
    have := closes n
    simp only [List.count_append, List.count_singleton]
    grind
  refine ⟨place, ?_, normal, forall_mem_set leases (leases lease (List.mem_of_getElem? found))⟩
  simpa only [same, settled] using shared

theorem SessionsShared.step (inv : SessionsShared sys) (event : SessionEvent) :
    SessionsShared (sys.step event) := by
  cases event with
  | acquire contextErr key opened =>
    simp only [SessionSystem.step]
    split
    · rename_i ran
      exact inv.acquire ran
    · exact inv
  | release i =>
    simp only [SessionSystem.step]
    split
    · split
      · exact inv.release ‹_› ‹_›
      · exact inv
    · exact inv
  | close i =>
    simp only [SessionSystem.step]
    split
    · split
      · exact inv.close ‹_› ‹_›
      · exact inv
    · exact inv

theorem sessionsShared_run (events : List SessionEvent) :
    SessionsShared (events.foldl SessionSystem.step {}) := by
  have start : SessionsShared {} :=
    ⟨fun _ => {}, ⟨by simp, by simp [tally], by simp, by simp [tally]⟩, by simp, by simp⟩
  revert start
  generalize ({} : SessionSystem) = sys
  intro inv
  induction events generalizing sys with
  | nil => exact inv
  | cons event events ih => exact ih _ (inv.step event)

/-- Sessions are closed when no lease needs them any more. -/
structure ClosedWhenUnused (sys : SessionSystem) : Prop where
  once : ∀ n, sys.closed.count n ≤ 1
  unused : ∀ n ∈ sys.closed, ∀ lease ∈ sys.leases, lease.serial = n → lease.state ≠ .held
  /-- One session in the cache for equal normalised keys. -/
  one : ∀ key key' e e', sys.entries key = some e → sys.entries key' = some e' →
    normalizeVolumeSessionKey key = normalizeVolumeSessionKey key' → e = e'
  all : (∀ lease ∈ sys.leases, lease.state = .released) →
    (∀ n < sys.placed, sys.closed.count n = 1) ∧ ∀ key, sys.entries key = none

/-- Whatever the interleaving of `Acquire` and `Release` calls. -/
theorem sessions_closed_when_unused (events : List SessionEvent) :
    ClosedWhenUnused (events.foldl SessionSystem.step {}) := by
  obtain ⟨place, shared, normal, leases⟩ := sessionsShared_run events
  generalize events.foldl SessionSystem.step {} = sys at *
  have settled := shared.settled_once
  refine ⟨fun n => by have := (settled n).1; omega, ?_, ?_, fun released => ?_⟩
  · rintro n closed lease member rfl held
    obtain ⟨i, found⟩ := List.mem_iff_getElem?.mp member
    have counted := le_tally (heldBy lease.serial) found
    rw [heldBy, if_pos ⟨held, rfl⟩] at counted
    have never : sys.closed.count lease.serial = 0 := by
      have := (settled lease.serial).2 (by omega)
      omega
    exact List.count_eq_zero.mp never closed
  · intro key key' e e' here there same
    obtain ⟨at_, below, -⟩ := shared.cached key e here
    obtain ⟨at_', below', -⟩ := shared.cached key' e' there
    rw [← at_, ← at_', normal _ below, normal _ below', at_, at_'] at same
    subst same
    exact Option.some.inj (here.symm.trans there)
  · have unheld (n : Nat) : tally (heldBy n) sys.leases = 0 :=
      tally_eq_zero fun lease member => by simp [heldBy, released lease member]
    have closed (n : Nat) : tally (closingOf n) sys.leases = 0 :=
      tally_eq_zero fun lease member => by simp [closingOf, released lease member]
    have empty (key : VolumeSessionKey) : sys.entries key = none := by
      by_contra present
      obtain ⟨e, found⟩ := Option.ne_none_iff_exists'.mp present
      have cached := shared.cached key e found
      simp only [unheld] at cached
      omega
    exact ⟨fun n below => by simpa [empty, closed] using shared.gone n below, empty⟩

/-! ## Session scopes -/

open Delimited

theorem toList_escapeSessionScopePart (value : String) :
    (escapeSessionScopePart value).toList = escapeWith '\\' ['\\', '|', '='] value.toList := by
  simp only [escapeSessionScopePart, replaceAll, String.toList_ofList, List.flatMap_assoc,
    escapeWith]
  refine List.flatMap_congr fun c _ => ?_
  by_cases slash : c = '\\'
  · subst slash; rfl
  by_cases bar : c = '|'
  · subst bar; rfl
  by_cases equals : c = '='
  · subst equals; rfl
  · simp [slash, bar, equals]

/-- Digits are not escaped. -/
theorem escapeWith_toDigits (n : Nat) :
    escapeWith '\\' ['\\', '|', '='] (Nat.toDigits 10 n) = Nat.toDigits 10 n := by
  have plain : ∀ c ∈ Nat.toDigits 10 n, c ∉ ['\\', '|', '='] := by
    intro c member
    have digit := Nat.isDigit_of_mem_toDigits (by decide) (by decide) member
    simp only [List.mem_cons, List.not_mem_nil, or_false]
    rintro (rfl | rfl | rfl) <;> exact absurd digit (by decide)
  rw [escapeWith, List.flatMap_congr fun c member => if_neg (plain c member),
    List.flatMap_singleton']

/-- The labels of a scope and the texts behind them. -/
def scopeFields (id : SessionIdentity) : List (String × List Char) :=
  [("pool=", id.poolID.toList), ("pool_generation=", (toString id.poolGeneration.toNat).toList),
   ("volume=", id.volumeID.toList),
   ("member_generation=", (toString id.memberGeneration.toNat).toList),
   ("volume_epoch=", (toString id.volumeEpoch.toNat).toList),
   ("writer_group=", id.writerGroupID.toList), ("gateway=", id.gatewayID.toList),
   ("gateway_instance=", id.gatewayInstanceID.toList), ("session=", id.sessionID.toList),
   ("session_generation=", (toString id.sessionGeneration.toNat).toList)]

/-- Labelled fields, each ended by a separator. -/
def labelled (fields : List (String × List Char)) : List Char :=
  fields.flatMap fun field =>
    field.1.toList ++ (escapeWith '\\' ['\\', '|', '='] field.2 ++ ['|'])

theorem labelled_inj {fields fields' : List (String × List Char)}
    (same : labelled fields = labelled fields')
    (labels : fields.map Prod.fst = fields'.map Prod.fst) : fields = fields' := by
  induction fields generalizing fields' with
  | nil => simpa using labels.symm
  | cons field fields ih =>
    cases fields' with
    | nil => simp at labels
    | cons field' fields' =>
      obtain ⟨label, labels⟩ := List.cons.inj labels
      simp only [labelled, List.flatMap_cons, label, List.append_assoc,
        List.append_cancel_left_eq, List.singleton_append] at same
      obtain ⟨text, later⟩ := escapeWith_cut (by decide) (by decide) (by decide) same
      rw [ih later labels, Prod.ext label text]

theorem idempotencyScope_eq {id : SessionIdentity} (enabled : id.enabled) :
    id.idempotencyScope.toList ++ ['|'] =
      "scope=v1|".toList ++ labelled (scopeFields (trimSessionIdentity id)) := by
  have still : (trimSessionIdentity id).enabled := by
    simpa [SessionIdentity.enabled, trimSessionIdentity, trimSpace, trimText_trimText] using enabled
  rw [SessionIdentity.idempotencyScope, if_neg (not_not.mpr still), String.toList_intercalate]
  simp [labelled, scopeFields, toList_escapeSessionScopePart, escapeWith_toDigits, List.intercalate]

/-- Two enabled sessions have one scope exactly when they agree on every field of it. -/
theorem scopes_identify_sessions (a b : SessionIdentity) (enabled : a.enabled)
    (enabled' : b.enabled) :
    a.idempotencyScope = b.idempotencyScope ↔
      let a := trimSessionIdentity a
      let b := trimSessionIdentity b
      a.poolID = b.poolID ∧ a.poolGeneration = b.poolGeneration ∧ a.volumeID = b.volumeID ∧
      a.memberGeneration = b.memberGeneration ∧ a.volumeEpoch = b.volumeEpoch ∧
      a.writerGroupID = b.writerGroupID ∧ a.gatewayID = b.gatewayID ∧
      a.gatewayInstanceID = b.gatewayInstanceID ∧ a.sessionID = b.sessionID ∧
      a.sessionGeneration = b.sessionGeneration := by
  have scope := idempotencyScope_eq enabled
  have scope' := idempotencyScope_eq enabled'
  have fields : a.idempotencyScope = b.idempotencyScope ↔
      scopeFields (trimSessionIdentity a) = scopeFields (trimSessionIdentity b) := by
    constructor
    · intro same
      rw [same, scope', List.append_cancel_left_eq] at scope
      exact (labelled_inj scope (by simp [scopeFields])).symm
    · intro same
      rw [same, ← scope', List.append_cancel_right_eq] at scope
      exact String.toList_inj.mp scope
  rw [fields]
  simp only [scopeFields, List.cons.injEq, Prod.mk.injEq, String.toList_inj, toString_toList,
    toDigits_inj, UInt64.toNat_inj, true_and, and_true]

/-- Separators and escapes in two fields. -/
theorem scopes_with_separators_differ :
    (⟨"p|volume=", 0, "v", 0, 1, "w", "g", "", "s", 1, 0, 0⟩ : SessionIdentity).idempotencyScope ≠
      (⟨"p", 0, "|volume=v", 0, 1, "w", "g", "", "s", 1, 0, 0⟩ : SessionIdentity).idempotencyScope := by
  rw [Ne, scopes_identify_sessions _ _ (by decide) (by decide)]
  decide

end Namros.Guarantees
