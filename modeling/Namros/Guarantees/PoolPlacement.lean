import Namros.Guarantees.PoolCapacity
import Namros.Library.RoundRobin

/-!
# Where a volume pool places writes, and the candidates it lists

The placement order holds every member as often as its weight. `nextWritableMember` walks it
from a position that moves on with every admission. `ListGCCandidates` walks the same order, and
so asks a member as often as its weight says.
-/

namespace Namros.Guarantees

open Library Source

/-! ## The pool one critical section after the other -/

inductive PlacementEvent
  | write (sizeBytes : UInt64)
  | debit (volumeID : String) (sizeBytes : UInt64)
  | observed (observation : MemberObservation)

/-- The pool and the volumes chosen so far. -/
def place (s : PoolStore × List String) : PlacementEvent → PoolStore × List String
  | .write sizeBytes =>
    match s.1.nextWritableMember sizeBytes with
    | (.ok member, next) => (next, s.2 ++ [member.volumeID])
    | (.error _, next) => (next, s.2)
  | .debit volumeID sizeBytes => (s.1.debitAvailable volumeID sizeBytes, s.2)
  | .observed observation => (s.1.observe observation, s.2)

/-- No member turns a write away. -/
def AllWritable (s : PoolStore × List String) : PlacementEvent → Prop
  | .write sizeBytes => ∀ v ∈ s.1.members.keys, ∀ member ∈ s.1.members.lookup v,
      (member.writeAdmissionDecision sizeBytes).admitted = true
  | _ => True

/-! ## Admission -/

variable {pool s : PoolStore} {platform : Platform} {members : List PoolMember} {v : String}
  {member : PoolMember} {sizeBytes : UInt64}

/-- The pool has the order it was opened with, and for it the members. -/
structure Placing (members : List PoolMember) (s : PoolStore) : Prop where
  order : s.order = members.flatMap fun m => List.replicate (placementWeight m) m.volumeID
  keyed : Keyed s.members
  known : ∀ v, v ∈ s.members ↔ v ∈ s.order

theorem Indexed.placing (h : Indexed members (pool.members, pool.order)) (start : Nat) :
    Placing members { pool with next := start } := by
  refine ⟨h.order, h.keyed, fun v => (h.known v).trans ?_⟩
  have order : pool.order = _ := h.order
  simp only [order, List.mem_flatMap, List.mem_map, List.mem_replicate]
  refine exists_congr fun m => and_congr_right fun inside => ?_
  have := h.weighted m inside
  exact ⟨fun same => ⟨by omega, same.symm⟩, fun same => same.2.symm⟩

/-- A member changes in place. -/
theorem Placing.insert (h : Placing members s) (found : s.members.lookup v = some member)
    {changed : PoolMember} (same : changed.volumeID = v) :
    Placing members { s with members := s.members.insert v changed } := by
  subst same
  refine ⟨h.order, h.keyed.insert changed, fun w => ?_⟩
  have inside : changed.volumeID ∈ s.members := AList.lookup_isSome.mp (by simp [found])
  rw [AList.mem_insert, ← h.known]
  exact or_iff_right_of_imp fun same => same ▸ inside

/-- A step that is not a write changes members in place. -/
theorem Placing.updated {s : PoolStore × List String} (h : Placing members s.1)
    (event : PlacementEvent) : (∃ sizeBytes, event = .write sizeBytes) ∨
      ∃ changed, place s event = ({ s.1 with members := changed }, s.2) ∧
        Placing members { s.1 with members := changed } := by
  cases event with
  | write sizeBytes => exact .inl ⟨sizeBytes, rfl⟩
  | debit v sizeBytes =>
    right
    simp only [place, PoolStore.debitAvailable]
    split
    · exact ⟨_, rfl, h⟩
    split
    · exact ⟨_, rfl, h⟩
    · next member found =>
      split
      · exact ⟨_, rfl, h⟩
      · exact ⟨_, rfl, h.insert found (h.keyed v member found)⟩
  | observed observation =>
    right
    simp only [place, PoolStore.observe]
    split
    · exact ⟨_, rfl, h⟩
    · next member found =>
      rw [← h.keyed _ member found] at found
      exact ⟨_, rfl, h.insert found rfl⟩

/-- The member the walk of `planWriteLocked` comes to in its round `i`. -/
theorem Placing.round (h : Placing members s) (filled : s.order ≠ []) (i : Nat) :
    ∃ member, s.members.lookup (cyclic s.order s.next "" i) = some member ∧
      member.volumeID = cyclic s.order s.next "" i := by
  have within : (s.next + i) % s.order.length < s.order.length :=
    Nat.mod_lt _ (List.length_pos_iff.mpr filled)
  have inside : cyclic s.order s.next "" i ∈ s.order := by
    simp [cyclic, List.getElem?_eq_getElem within]
  obtain ⟨member, found⟩ := Option.isSome_iff_exists.mp
    (AList.lookup_isSome.mpr ((h.known _).mpr inside))
  exact ⟨member, found, h.keyed _ member found⟩

theorem planFrom_admits {rounds : List Nat} {plan : WriteAdmissionPlan} {i : Nat}
    (inside : i ∈ rounds) (found : s.members.lookup (cyclic s.order s.next "" i) = some member)
    (admits : (member.writeAdmissionDecision sizeBytes).admitted = true) :
    (s.planFrom sizeBytes rounds plan).1.admitted = true := by
  induction rounds generalizing plan with
  | nil => cases inside
  | cons first rounds ih =>
    dsimp only [PoolStore.planFrom]
    split
    · rfl
    · next refused =>
      rcases List.mem_cons.mp inside with rfl | later
      · unfold cyclic at found
        rw [found] at refused
        exact absurd admits refused
      · exact ih later

/-- A write that some member admits is not refused. -/
theorem Placing.admitted (h : Placing members s) (found : s.members.lookup v = some member)
    (admits : (member.writeAdmissionDecision sizeBytes).admitted = true) :
    ∃ chosen, (s.nextWritableMember sizeBytes).1 = .ok chosen := by
  have inside : v ∈ s.order.rotate s.next :=
    List.mem_rotate.mpr ((h.known v).mp (AList.lookup_isSome.mp (by simp [found])))
  rw [← map_cyclic s.order s.next ""] at inside
  obtain ⟨i, round, rfl⟩ := List.mem_map.mp inside
  have plans : (s.planWriteLocked sizeBytes).1.admitted = true :=
    planFrom_admits round found admits
  simp [PoolStore.nextWritableMember, plans]

/-- Where every member admits, the next one of the order is chosen. -/
theorem Placing.chosen {before : List String} (h : Placing members s) (filled : s.order ≠ [])
    (all : AllWritable (s, before) (.write sizeBytes)) : ∃ member,
      s.nextWritableMember sizeBytes =
        (.ok member, { s with next := (s.next + 1) % s.order.length }) ∧
      member.volumeID = cyclic s.order s.next "" 0 := by
  obtain ⟨member, found, volume⟩ := h.round filled 0
  have admits := all _ (AList.lookup_isSome.mp (by simp [found])) member found
  obtain ⟨n, length⟩ := Nat.exists_eq_succ_of_ne_zero (List.length_pos_iff.mpr filled).ne'
  refine ⟨member, ?_, volume⟩
  have plans : ∃ plan, s.planWriteLocked sizeBytes =
      (plan, (s.next + 1) % s.order.length) ∧ plan.admitted = true ∧
        plan.volumeID = member.volumeID := by
    rw [PoolStore.planWriteLocked, length, List.range_succ_eq_map]
    dsimp only [PoolStore.planFrom]
    unfold cyclic at found
    rw [found, Option.getD_some, if_pos admits, Nat.add_zero, Nat.mod_add_mod]
    exact ⟨_, by rw [length], rfl, rfl⟩
  obtain ⟨plan, planned, admitted, named⟩ := plans
  unfold PoolStore.nextWritableMember
  rw [planned]
  dsimp only
  rw [if_pos admitted, named, volume, found, Option.getD_some]

/-! ## Runs -/

theorem Placing.place {s : PoolStore × List String} (h : Placing members s.1)
    (event : PlacementEvent) : Placing members (place s event).1 := by
  rcases h.updated event with ⟨sizeBytes, rfl⟩ | ⟨changed, eq, placing⟩
  · have kept : ∀ admission, s.1.nextWritableMember sizeBytes = admission →
        Placing members admission.2 := by
      intro admission ran
      unfold PoolStore.nextWritableMember at ran
      dsimp only at ran
      split at ran <;> subst ran
      · exact ⟨h.order, h.keyed, h.known⟩
      · exact h
    dsimp only [Guarantees.place]
    split <;> exact kept _ ‹_›
  · rwa [eq]

/-- The volumes chosen since the pool stood at `start`. -/
structure Rotating (members : List PoolMember) (start : Nat) (s : PoolStore × List String) :
    Prop where
  placing : Placing members s.1
  filled : s.1.order ≠ []
  chosen : s.2 = (List.range s.2.length).map (cyclic s.1.order start "")
  next : s.1.next % s.1.order.length = (start + s.2.length) % s.1.order.length

theorem Rotating.place {start : Nat} {s : PoolStore × List String} {event : PlacementEvent}
    (h : Rotating members start s) (writable : AllWritable s event) :
    Rotating members start (place s event) := by
  rcases h.placing.updated event with ⟨sizeBytes, rfl⟩ | ⟨changed, eq, placing⟩
  · obtain ⟨member, admits, volume⟩ := h.placing.chosen h.filled writable
    have here : member.volumeID = cyclic s.1.order start "" s.2.length := by
      rw [volume, cyclic, Nat.add_zero, h.next, cyclic]
    rw [Guarantees.place, admits]
    refine ⟨⟨h.placing.order, h.placing.keyed, h.placing.known⟩, h.filled, ?_, ?_⟩
    · simp [List.range_succ, here, ← h.chosen]
    · simpa [Nat.ModEq, Nat.add_assoc] using Nat.ModEq.add_right 1 h.next
  · rw [eq]
    exact ⟨placing, h.filled, h.chosen, h.next⟩

/-- A member stands in the order as often as its weight. -/
theorem count_placementOrder (distinct : (members.map PoolMember.volumeID).Nodup)
    (inside : member ∈ members) :
    (members.flatMap fun m => List.replicate (placementWeight m) m.volumeID).count
      member.volumeID = placementWeight member := by
  induction members with
  | nil => cases inside
  | cons first members ih =>
    obtain ⟨new, distinct⟩ := List.nodup_cons.mp distinct
    rw [List.flatMap_cons, List.count_append]
    rcases List.mem_cons.mp inside with rfl | later
    · have absent : (members.flatMap fun m =>
          List.replicate (placementWeight m) m.volumeID).count member.volumeID = 0 := by
        rw [List.count_eq_zero]
        intro listed
        obtain ⟨m, there, same⟩ := List.mem_flatMap.mp listed
        exact new (List.mem_map.mpr ⟨m, there, (List.eq_of_mem_replicate same).symm⟩)
      simp [absent]
    · have other : first.volumeID ≠ member.volumeID := fun same =>
        new (List.mem_map.mpr ⟨member, later, same.symm⟩)
      simp [ih distinct later, List.count_replicate, other]

theorem placementWeight_of_pos (positive : 1 ≤ member.weight) :
    placementWeight member = member.weight.toNat := by
  rw [placementWeight, if_neg (by omega)]

/-- In any state that is reached: over writes which no member turns away, as many as go round the
order `k` times, each member is chosen `k` times its weight; and a write that some member admits
is admitted. -/
theorem placement_exact (platform : Platform) (members : List PoolMember) (pool : PoolStore)
    (opened : newPool platform members = .ok pool)
    (weights : ∀ member ∈ members, 1 ≤ member.weight ∧ member.weight ≤ 1024) (start : Nat)
    (before : List PlacementEvent) :
    let s := (before.foldl place ({ pool with next := start }, [])).1
    (∀ window k, Throughout place AllWritable (s, []) window →
      let chosen := (window.foldl place (s, [])).2
      chosen.length = k * (members.map fun member => member.weight.toNat).sum →
        ∀ member ∈ members, chosen.count member.volumeID = k * member.weight.toNat) ∧
    ∀ sizeBytes volumeID member, s.members.lookup volumeID = some member →
      (member.writeAdmissionDecision sizeBytes).admitted = true →
        ∃ chosen, (s.nextWritableMember sizeBytes).1 = .ok chosen := by
  intro s
  have indexed := newPool_ok opened
  have placing : Placing members s :=
    List.foldlRecOn (motive := fun t => Placing members t.1) before place
      (indexed.placing start) fun _ h event _ => h.place event
  refine ⟨?_, fun sizeBytes volumeID member found admits => placing.admitted found admits⟩
  intro window k writable chosen length member inside
  have weight := placementWeight_of_pos (weights member inside).1
  have stands := count_placementOrder indexed.distinct inside
  have filled : s.order ≠ [] := by
    intro empty
    rw [← placing.order, empty, List.count_nil] at stands
    have := (weights member inside).1
    omega
  have rotating : Rotating members s.next (window.foldl place (s, [])) :=
    writable.invariant ⟨placing, filled, rfl, rfl⟩ fun t event h meets => h.place meets
  have rounds : (members.map fun member => member.weight.toNat).sum =
      (window.foldl place (s, [])).1.order.length := by
    rw [rotating.placing.order, List.length_flatMap]
    congr 1
    refine List.map_congr_left fun m there => ?_
    rw [List.length_replicate, placementWeight_of_pos (weights m there).1]
  rw [rounds] at length
  have chosenAll : chosen = _ := rotating.chosen
  rw [chosenAll, length, count_cyclic, rotating.placing.order, stands, weight]

def weightedMembers : List PoolMember :=
  [{ volumeID := "v1", store := some 1, weight := 2 },
   { volumeID := "v2", store := some 2, weight := 1, availableBytes := 9 }]

def weightedPool : PoolStore :=
  (newPool plainPlatform weightedMembers).toOption.getD { members := ∅, order := [] }

theorem weighted_opened : newPool plainPlatform weightedMembers = .ok weightedPool := rfl

/-- Three writes from the second position on, with a debit between them. -/
theorem three_writes_placed :
    let window := [.write 4, .write 4, .debit "v2" 4, .write 4]
    newPool plainPlatform weightedMembers = .ok weightedPool ∧
      (window.foldl place ({ weightedPool with next := 1 }, [])).2 = ["v1", "v2", "v1"] ∧
      (window.foldl place ({ weightedPool with next := 1 }, [])).2.count "v1" = 1 * 2 := by
  intro window
  have exact := placement_exact plainPlatform weightedMembers weightedPool rfl (by decide) 1 []
  refine ⟨rfl, by decide +kernel, exact.1 window 1 ?_ (by decide +kernel)
    { volumeID := "v1", store := some 1, weight := 2 } (by decide)⟩
  simp only [window, Throughout, AllWritable, and_true, true_and]
  decide +kernel

/-! ## Orphan candidates -/

/-- A member's orphan queue, stamped with its volume. -/
def stampedQueue (queues : Option Nat → Option (List StoredCandidate)) (member : PoolMember) :
    List StoredCandidate :=
  ((queues member.store).getD []).map fun candidate =>
    { candidate with ref := stampVolumeID candidate.ref member.volumeID }

/-- What `sort.Slice` does with candidates. -/
structure SortsByAge (sort : List StoredCandidate → List StoredCandidate) : Prop where
  perm : ∀ l, (sort l).Perm l
  sorted : ∀ l, (sort l).Pairwise fun a b => a.createdAt ≤ b.createdAt

/-- The oldest candidates of the members' queues, as many as the limit asks for. -/
def ListsOldest (queues : Option Nat → Option (List StoredCandidate))
    (members : List PoolMember) (limit : Int)
    (listed : Except StorageError (List StoredCandidate)) : Prop :=
  ∃ byAge : List StoredCandidate, byAge.Perm (members.flatMap (stampedQueue queues)) ∧
    byAge.Pairwise (fun a b => a.createdAt ≤ b.createdAt) ∧
    listed = .ok (if 0 < limit then byAge.take limit.toNat else byAge)

section

variable {queues : Option Nat → Option (List StoredCandidate)}
  {sort : List StoredCandidate → List StoredCandidate}

/-- Every member's queue is listed as often as its weight. -/
theorem listGCCandidates_eq (h : Indexed members (pool.members, pool.order)) (limit : Int) :
    pool.listGCCandidates (fun store => (queues store).map .ok) sort limit =
      .ok (let out := sort (members.flatMap fun m =>
          (List.replicate (placementWeight m) (stampedQueue queues m)).flatten)
        if 0 < limit then out.take limit.toNat else out) := by
  have asked : ∀ m ∈ members, stampedQueue queues ((pool.members.lookup m.volumeID).getD {}) =
      stampedQueue queues m := by
    intro m inside
    obtain ⟨m', found⟩ := Option.isSome_iff_exists.mp
      (AList.lookup_isSome.mpr ((h.known _).mpr (List.mem_map_of_mem inside)))
    obtain ⟨given, listed, volume, store⟩ := h.stores _ m' found
    obtain rfl := List.inj_on_of_nodup_map h.distinct listed inside volume
    have own : m'.volumeID = given.volumeID := h.keyed _ m' found
    simp [stampedQueue, found, own, store]
  have walk : ∀ (ms : List PoolMember) out,
      ms.foldlM (addCandidates fun store => (queues store).map .ok) out =
        Except.ok (out ++ ms.flatMap (stampedQueue queues)) := by
    intro ms
    induction ms with
    | nil => simp [pure, Except.pure]
    | cons m ms ih =>
      intro out
      rw [List.foldlM_cons]
      cases tracked : queues m.store <;> simp [addCandidates, bind, Except.bind, ih,
        stampedQueue, tracked]
  have order : pool.order = _ := h.order
  have all : (pool.order.map fun v => (pool.members.lookup v).getD {}).flatMap
      (stampedQueue queues) = members.flatMap fun m =>
        (List.replicate (placementWeight m) (stampedQueue queues m)).flatten := by
    rw [order, List.map_flatMap, List.flatMap_assoc]
    refine List.flatMap_congr fun m inside => ?_
    rw [List.map_replicate, List.flatMap_replicate, asked m inside]
  unfold PoolStore.listGCCandidates
  dsimp only
  rw [walk, List.nil_append, all]
  dsimp only [bind, Except.bind, pure, Except.pure]
  split
  · next cut => rw [if_pos cut.1]
  · next whole =>
    split
    · rw [List.take_of_length_le (by omega)]
    · rfl

theorem ListsOldest.length {l : List StoredCandidate} (sorts : SortsByAge sort)
    (h : ListsOldest queues members 0 (.ok (sort l))) :
    l.length = (members.flatMap (stampedQueue queues)).length := by
  obtain ⟨byAge, perm, -, same⟩ := h
  obtain rfl := Except.ok.inj same
  exact (sorts.perm l).length_eq.symm.trans perm.length_eq

/-- The listing is right whatever the limit if no queue that holds something is asked twice. -/
theorem listing_exact_iff (platform : Platform) (members : List PoolMember) (pool : PoolStore)
    (opened : newPool platform members = .ok pool)
    (queues : Option Nat → Option (List StoredCandidate))
    (sort : List StoredCandidate → List StoredCandidate) (sorts : SortsByAge sort) :
    (∀ limit, ListsOldest queues members limit
      (pool.listGCCandidates (fun store => (queues store).map .ok) sort limit)) ↔
    ∀ member ∈ members, (queues member.store).getD [] ≠ [] → placementWeight member = 1 := by
  have indexed := newPool_ok opened
  simp only [listGCCandidates_eq indexed]
  constructor
  · intro exact member inside nonempty
    have size := (exact 0).length sorts
    rw [List.length_flatMap, List.length_flatMap] at size
    by_contra heavy
    refine size.not_gt (List.sum_lt_sum _ _ (fun m there => ?_) ⟨member, inside, ?_⟩)
    · have := indexed.weighted m there
      simp only [List.length_flatten, List.map_replicate, List.sum_replicate_nat]
      exact Nat.le_mul_of_pos_left _ this
    have := indexed.weighted member inside
    have filled : 0 < (stampedQueue queues member).length := by
      simpa [stampedQueue, List.length_pos_iff] using nonempty
    simp only [List.length_flatten, List.map_replicate, List.sum_replicate_nat]
    exact lt_mul_of_one_lt_left filled (by omega)
  · intro once limit
    have all : (members.flatMap fun m =>
        (List.replicate (placementWeight m) (stampedQueue queues m)).flatten) =
          members.flatMap (stampedQueue queues) := by
      refine List.flatMap_congr fun m inside => ?_
      by_cases empty : (queues m.store).getD [] = []
      · simp [stampedQueue, empty]
      · simp [once m inside empty]
    rw [all]
    exact ⟨_, sorts.perm _, sorts.sorted _, rfl⟩

end

def byAge (l : List StoredCandidate) : List StoredCandidate :=
  l.mergeSort fun a b => a.createdAt ≤ b.createdAt

theorem byAge_sorts : SortsByAge byAge := by
  refine ⟨fun l => List.mergeSort_perm l _, fun l => ?_⟩
  refine List.Pairwise.imp of_decide_eq_true (List.pairwise_mergeSort (fun a b c => ?_) ?_ l)
  · simp only [decide_eq_true_eq]
    exact le_trans
  · simp [le_total]

def oneOrphan : Option Nat → Option (List StoredCandidate)
  | some 1 => some [{ ref := { segmentID := "s1" }, reason := .manualGC, createdAt := 1 }]
  | _ => none

def twoQueues : Option Nat → Option (List StoredCandidate)
  | some 2 => some [{ ref := { segmentID := "s1" }, reason := .manualGC, createdAt := 7 },
      { ref := { segmentID := "s2" }, reason := .manualGC, createdAt := 1 }]
  | some 3 => some [{ ref := { segmentID := "s3" }, reason := .manualGC, createdAt := 3 }]
  | _ => none

def threeMembers : List PoolMember := weightedMembers ++ [{ volumeID := "v3", store := some 3 }]

def threeMemberPool : PoolStore :=
  (newPool plainPlatform threeMembers).toOption.getD { members := ∅, order := [] }

/-- The two oldest of three candidates in two queues; the member of weight 2 has none. -/
theorem light_members_listed :
    ListsOldest twoQueues threeMembers 2
      (threeMemberPool.listGCCandidates (fun store => (twoQueues store).map .ok) byAge 2) :=
  (listing_exact_iff plainPlatform threeMembers threeMemberPool rfl twoQueues byAge
    byAge_sorts).mpr (by decide) 2

/-- A member of weight 2 has its only candidate listed twice. -/
theorem heavy_member_listed_twice :
    newPool plainPlatform weightedMembers = .ok weightedPool ∧
      ¬ ListsOldest oneOrphan weightedMembers 0
        (weightedPool.listGCCandidates (fun store => (oneOrphan store).map .ok) byAge 0) := by
  refine ⟨weighted_opened, fun listed => ?_⟩
  rw [listGCCandidates_eq (newPool_ok weighted_opened)] at listed
  exact absurd (listed.length byAge_sorts) (by decide +kernel)

end Namros.Guarantees
