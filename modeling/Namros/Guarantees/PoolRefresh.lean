import Namros.Guarantees.PoolRefreshSteps
import Namros.Guarantees.PoolRequests

/-!
# Refreshes of a volume pool

A refresh opens the members of the next generation, puts them into the pool store, then, in
another critical section, replaces the cleanup functions and the reported generation, and calls
the replaced cleanup functions at once. A request keeps a copy of its member and can use a store
that has been cleaned up. Where refreshes run one at a time and not with or after `Close`, the
pool is not in use from `UpdateMembers` until the generation is reported and from `Close` on, and
the registry's members have different volumes, every store is cleaned up once, and never while it
is in use, and the stores in use are of the reported generation.
-/

namespace Namros.Guarantees

open Library Source

variable {platform : Platform} {sys : RuntimeSystem} {index n : Nat} {o : OpenedMembers}
  {answers : RuntimeAnswers} {event : RuntimeEvent} {now : Time} {cfg : PoolConfig}
  {runtime : PoolRuntime}

/-! ## Closing -/

section

variable {call next : CloseCall}

theorem closeBegun_mem (found : sys.closes[index]? = some call) (begun : closeBegun call = true) :
    ¬ Running sys := by
  intro running
  have idle := running call (List.mem_of_getElem? found)
  rw [begun] at idle
  cases idle

/-- A `Close` takes the cleanup functions. -/
theorem RuntimeSound.startClose (sound : RuntimeSound sys)
    (found : sys.closes[index]? = some .start) (settled : Settled sys) (quiet : Quiet sys) :
    RuntimeSound { sys with
      runtime := { sys.runtime with cleanups := ∅ }
      closes := sys.closes.set index (.cleaning sys.runtime.cleanups.stores []) } := by
  have stopped (running : ∀ c ∈ sys.closes.set index (.cleaning sys.runtime.cleanups.stores []),
      closeBegun c = false) : False := by
    cases running _ (List.mem_set (List.getElem?_eq_some_iff.mp found).1 _)
  exact
    { sound with
      owned := by
        intro n
        have once := sound.owned n
        have moved := tally_set (fun c => (closingStores c).count n) found
          (.cleaning sys.runtime.cleanups.stores [])
        have none : (PoolCleanups.stores ∅).count n = 0 := rfl
        simp only [closingStores, List.count_nil, holders] at once moved ⊢
        omega
      generation := fun n member => by cases member
      pool := fun n has => ⟨(sound.pool n has).1, fun _ running => (stopped running).elim⟩
      inUse := by
        intro n used
        have none : n ∈ ([] : List Nat) := quiet ▸ used
        cases none
      closed := fun _ => ⟨settled, rfl⟩ }

/-- A `Close` goes on with the cleanup functions it has taken. -/
theorem RuntimeSound.closing (sound : RuntimeSound sys) (gone : List Nat)
    (found : sys.closes[index]? = some call) (begun : closeBegun call = true)
    (still : closeBegun next = true)
    (accounts : ∀ n, (closingStores next).count n + gone.count n = (closingStores call).count n) :
    RuntimeSound { sys with
      closes := sys.closes.set index next, cleaned := gone ++ sys.cleaned } := by
  have stopped := closeBegun_mem found begun
  have after : ¬ ∀ c ∈ sys.closes.set index next, closeBegun c = false := by
    intro running
    have idle := running next (List.mem_set (List.getElem?_eq_some_iff.mp found).1 _)
    rw [still] at idle
    cases idle
  exact
    { sound with
      owned := by
        intro n
        have once := sound.owned n
        have moved := tally_set (fun c => (closingStores c).count n) found next
        have account := accounts n
        simp only [holders, List.count_append] at once ⊢
        omega
      pool := fun n has => ⟨(sound.pool n has).1, fun _ running => absurd running after⟩
      inUse := fun n used => absurd (sound.inUse n used).2.2 stopped
      closed := fun _ => sound.closed stopped }

theorem RuntimeSound.close (sound : RuntimeSound sys) (found : sys.closes[index]? = some call)
    (orderly : CloseOrderly sys call) :
    RuntimeSound (sys.step platform (.close index answers)) := by
  simp only [RuntimeSystem.step, found]
  cases call with
  | start => exact sound.startClose found orderly.1 orderly.2
  | cleaning pending failures =>
    simp only [CloseCall.step]
    split
    · exact sound.closing [] found rfl rfl fun n => rfl
    split
    · exact sound.closing [] found rfl rfl fun n => rfl
    · next store picked =>
      exact sound.closing [store] found rfl rfl fun n => count_eraseIdx picked
  | returned failures => exact sound.closing [] found rfl rfl fun n => rfl

end

/-! ## Every run -/

theorem RuntimeSound.step (sound : RuntimeSound sys) (orderly : Orderly sys event) :
    RuntimeSound (sys.step platform event) := by
  cases event with
  | serve index => exact sound.serve orderly
  | answered index answer => exact sound.answered
  | closeReader index => exact sound.closeReader
  | observed now sourceAuthority observations => exact sound.observed
  | refresh index answers =>
    cases found : sys.refreshes[index]? with
    | none => simpa only [RuntimeSystem.step, found] using sound
    | some call => exact sound.refresh found (orderly call found)
  | close index answers =>
    cases found : sys.closes[index]? with
    | none => simpa only [RuntimeSystem.step, found] using sound
    | some call => exact sound.close found (orderly call found)

theorem addAll_volumes (o : OpenedMembers) (start : Nat) (members : List SBSVolumePoolMember) :
    (o.addAll start members).members.map PoolMember.volumeID =
      o.members.map PoolMember.volumeID ++ members.map SBSVolumePoolMember.volumeID := by
  induction members generalizing o start with
  | nil => simp [OpenedMembers.addAll]
  | cons member members ih =>
    rw [OpenedMembers.addAll, ih]
    simp [OpenedMembers.add]

/-- All members are opened, with stores of consecutive numbers. -/
theorem OpenedSound.addAll (plan : RefreshPlan) (start : Nat) {members : List SBSVolumePoolMember}
    (sound : OpenedSound (List.replicate start plan.nextCfg.sbsVolumePoolGeneration) plan o)
    (distinct : (o.members.map PoolMember.volumeID ++
      members.map SBSVolumePoolMember.volumeID).Nodup)
    (counted : ∀ n, o.cleanups.stores.count n = if n < start then 1 else 0) :
    OpenedSound (List.replicate (start + members.length) plan.nextCfg.sbsVolumePoolGeneration) plan
        (o.addAll start members) ∧
      ∀ n, (o.addAll start members).cleanups.stores.count n =
        if n < start + members.length then 1 else 0 := by
  induction members generalizing o start with
  | nil => exact ⟨sound, counted⟩
  | cons member members ih =>
    have new : member.volumeID ∉ o.members.map PoolMember.volumeID := by
      intro known
      exact (List.nodup_append.mp distinct).2.2 _ known _ (by simp) rfl
    have more := sound.add new
    rw [List.length_replicate, ← List.replicate_succ'] at more
    have counted' : ∀ n, (o.add member start).cleanups.stores.count n =
        if n < start + 1 then 1 else 0 := by
      intro n
      rw [stores_add _ fun known => new (sound.keys _ known), List.count_cons, counted]
      by_cases here : start = n
      · rw [if_neg (by omega), if_pos (beq_iff_eq.mpr here), if_pos (by omega)]
      · rw [if_neg (c := (start == n) = true) (by simpa using here)]
        split <;> split <;> omega
    have rest := ih (start + 1) more (nodup_add distinct) counted'
    rw [Nat.add_assoc, Nat.add_comm 1] at rest
    exact rest

theorem openSBSVolumePoolRuntime_ok
    (opened : openSBSVolumePoolRuntime platform cfg now = .ok runtime) :
    let members := OpenedMembers.addAll {} 0 cfg.sbsVolumePool
    ∃ store status, newPool platform members.members = .ok store ∧
      status.activeGeneration = cfg.sbsVolumePoolGeneration ∧
      runtime = ⟨cfg, store, members.cleanups, status⟩ := by
  unfold openSBSVolumePoolRuntime at opened
  cases pooled : newPool platform (OpenedMembers.addAll {} 0 cfg.sbsVolumePool).members with
  | error e => simp only [pooled, Except.map] at opened; cases opened
  | ok store =>
    simp only [pooled, Except.map] at opened
    cases opened
    exact ⟨_, _, pooled, rfl, rfl⟩

/-- A runtime that has just been opened. -/
theorem RuntimeSound.fresh (opened : openSBSVolumePoolRuntime platform cfg now = .ok runtime)
    (requests : List PoolRequest) (refreshes closes : Nat) :
    RuntimeSound (.begin runtime requests refreshes closes) := by
  obtain ⟨store, status, pooled, active, rfl⟩ := openSBSVolumePoolRuntime_ok opened
  have indexed := newPool_ok pooled
  have distinct := indexed.distinct
  rw [addAll_volumes] at distinct
  obtain ⟨sound, counted⟩ :=
    OpenedSound.addAll ⟨now, cfg⟩ 0 (.empty _ _) distinct fun n => by simp [PoolCleanups.stores]
  rw [Nat.zero_add] at sound counted
  exact
    { owned := by
        intro n
        have refreshing := tally_replicate (a := .start) (fun c => (pendingStores c).count n)
          refreshes rfl
        have closing := tally_replicate (a := .start) (fun c => (closingStores c).count n)
          closes rfl
        simp only [holders, RuntimeSystem.begin, refreshing, closing, List.count_nil,
          List.length_replicate, Nat.zero_add, Nat.add_zero]
        exact counted n
      refreshes := by
        intro c member
        rw [List.eq_of_mem_replicate member]
        trivial
      single := by
        have idle := tally_replicate (a := .start) (fun c => (refreshInProgress c).toNat)
          refreshes rfl
        exact idle.le.trans (Nat.zero_le 1)
      generation := active ▸ sound.generation
      pool := by
        intro n has
        obtain ⟨m, inside, held⟩ := poolHas_index indexed has
        refine ⟨fun c member cleanups new => ?_, fun _ _ => sound.stores m inside n held⟩
        rw [List.eq_of_mem_replicate member] at new
        cases new
      inUse := by
        intro n used
        rcases mem_inUse.mp used with ⟨c, member, held⟩ | none
        · obtain ⟨request, -, rfl⟩ := List.mem_map.mp member
          cases held
        · cases none
      closed := by
        intro stopped
        refine absurd (fun c member => ?_) stopped
        rw [List.eq_of_mem_replicate member]
        rfl }

/-! ## The generation -/

/-- A step of a refresh keeps its plan and the reported generation, makes a plan of what the
registry has returned, or reports the generation of its plan. -/
theorem refreshStep_plan (platform : Platform) (call : RefreshCall) (answers : RuntimeAnswers)
    (store : Nat) (r : PoolRuntime) (before : UInt64) :
    let result := call.step platform answers store r
    (result.2.1.status.activeGeneration = r.status.activeGeneration ∧
        ∀ plan ∈ planOf result.1, plan ∈ planOf call ∨
          plan.nextCfg.sbsVolumePoolGeneration = lastReturned call answers before ∧
            refreshInProgress call = true) ∨
      ∃ plan ∈ planOf call, planOf result.1 = none ∧
        result.2.1.status.activeGeneration = plan.nextCfg.sbsVolumePoolGeneration := by
  cases call with
  | start =>
    simp only [RefreshCall.step]
    split <;> exact .inl ⟨rfl, fun plan none => by cases none⟩
  | fetching base current =>
    refine .inl ⟨rfl, fun plan made => .inr ⟨?_, rfl⟩⟩
    simp only [RefreshCall.step, lastReturned] at made ⊢
    cases answer : answers.registry with
    | error text =>
      rw [answer] at made
      cases made
    | ok pool =>
      rw [answer, RefreshCall.fetched] at made
      split at made
      · cases made
      split at made
      · cases made
      · next nextCfg snapshot =>
        cases made
        exact (snapshot_ok snapshot).2
  | opening plan remaining o =>
    cases remaining with
    | nil => exact .inl ⟨rfl, fun _ same => .inl same⟩
    | cons member remaining =>
      simp only [RefreshCall.step]
      split <;> exact .inl ⟨rfl, fun _ same => .inl same⟩
  | updating plan o =>
    simp only [RefreshCall.step]
    split <;> exact .inl ⟨rfl, fun _ same => .inl same⟩
  | publishing plan cleanups => exact .inr ⟨plan, rfl, rfl, rfl⟩
  | abandoning plan pending failure =>
    simp only [RefreshCall.step]
    split
    · exact .inl ⟨rfl, fun plan none => by cases none⟩
    · split <;> exact .inl ⟨rfl, fun _ same => .inl same⟩
  | recording now generation failure replaced =>
    have active := recordRefresh_activeGeneration r.status now generation failure
    simp only [RefreshCall.step]
    split <;> exact .inl ⟨active, fun plan none => by cases none⟩
  | cleaning pending failures =>
    simp only [RefreshCall.step]
    split
    · exact .inl ⟨rfl, fun plan none => by cases none⟩
    · split <;> exact .inl ⟨rfl, fun plan none => by cases none⟩
  | returned failures => exact .inl ⟨rfl, fun plan none => by cases none⟩

/-- The reported generation is not ahead of what is about to be reported, and that not of the
registry. -/
structure GenerationSound (sys : RuntimeSystem) : Prop where
  active : sys.runtime.status.activeGeneration.toNat ≤ sys.registry.toNat
  plans : ∀ c ∈ sys.refreshes, ∀ plan ∈ planOf c,
    sys.runtime.status.activeGeneration.toNat ≤ plan.nextCfg.sbsVolumePoolGeneration.toNat ∧
      plan.nextCfg.sbsVolumePoolGeneration.toNat ≤ sys.registry.toNat

theorem GenerationSound.refresh (growth : GenerationSound sys) (sound : RuntimeSound sys)
    {call : RefreshCall} (found : sys.refreshes[index]? = some call)
    (grows : sys.registry ≤ lastReturned call answers sys.registry) :
    GenerationSound (sys.step platform (.refresh index answers)) ∧
      sys.runtime.status.activeGeneration.toNat ≤
        (sys.step platform (.refresh index answers)).runtime.status.activeGeneration.toNat := by
  have grows := UInt64.le_iff_toNat_le.mp grows
  have current := growth.active
  have itself := growth.plans call (List.mem_of_getElem? found)
  have moves := refreshStep_plan platform call answers sys.opened.length sys.runtime sys.registry
  simp only [RuntimeSystem.step, found, applyEffect_eq]
  generalize lastReturned call answers sys.registry = registry at grows moves ⊢
  generalize call.step platform answers sys.opened.length sys.runtime = result at moves ⊢
  obtain ⟨next, runtime, effect⟩ := result
  rcases moves with ⟨same, plans⟩ | ⟨plan, planned, done, reported⟩
  · refine ⟨⟨?_, ?_⟩, by rw [same]⟩ <;> dsimp only <;> rw [same]
    · omega
    intro c member plan planned
    rcases List.mem_or_eq_of_mem_set member with old | rfl
    · have := growth.plans c old plan planned
      omega
    rcases plans plan planned with kept | ⟨made, -⟩
    · have := itself plan kept
      omega
    · rw [made]
      omega
  · have bounds := itself plan planned
    have busy : refreshInProgress call = true := by
      by_contra idle
      rw [(refresh_idle (Bool.not_eq_true _ ▸ idle)).2.1] at planned
      cases planned
    rw [reported]
    refine ⟨⟨?_, fun c member other new => ?_⟩, bounds.1⟩
    · dsimp only
      rw [reported]
      omega
    rcases sound.alone next found busy c member with rfl | idle
    · rw [done] at new
      cases new
    · rw [(refresh_idle idle).2.1] at new
      cases new

theorem GenerationSound.step (growth : GenerationSound sys) (sound : RuntimeSound sys)
    (grows : RegistryGrows sys event) :
    GenerationSound (sys.step platform event) ∧
      sys.runtime.status.activeGeneration.toNat ≤
        (sys.step platform event).runtime.status.activeGeneration.toNat := by
  have same {sys' : RuntimeSystem} (status : sys'.runtime.status.activeGeneration =
      sys.runtime.status.activeGeneration) (registry : sys'.registry = sys.registry)
      (refreshes : sys'.refreshes = sys.refreshes) :
      GenerationSound sys' ∧ sys.runtime.status.activeGeneration.toNat ≤
        sys'.runtime.status.activeGeneration.toNat := by
    refine ⟨⟨?_, ?_⟩, ?_⟩
    · rw [status, registry]
      exact growth.active
    · rw [status, registry, refreshes]
      exact growth.plans
    · rw [status]
  cases event with
  | serve index =>
    simp only [RuntimeSystem.step]
    split <;> exact same rfl rfl rfl
  | answered index answer =>
    simp only [RuntimeSystem.step]
    split <;> exact same rfl rfl rfl
  | closeReader index => exact same rfl rfl rfl
  | observed now sourceAuthority observations => exact same rfl rfl rfl
  | refresh index answers =>
    cases found : sys.refreshes[index]? with
    | none =>
      simp only [RuntimeSystem.step, found]
      exact same rfl rfl rfl
    | some call => exact growth.refresh sound found (grows call found)
  | close index answers =>
    cases found : sys.closes[index]? with
    | none =>
      simp only [RuntimeSystem.step, found]
      exact same rfl rfl rfl
    | some call =>
      simp only [RuntimeSystem.step, found, applyEffect_eq]
      have kept : (call.step answers sys.runtime).2.1.status = sys.runtime.status := by
        cases call with
        | start => rfl
        | cleaning pending failures =>
          simp only [CloseCall.step]
          split
          · rfl
          · split <;> rfl
        | returned failures => rfl
      exact same (congrArg PoolRuntimeStatus.activeGeneration kept) rfl rfl

/-- A `Close` has returned, and so has every other call that has begun. -/
structure Finished (sys : RuntimeSystem) : Prop where
  closed : ¬ Running sys
  refreshes : Settled sys
  closes : ∀ c ∈ sys.closes, closingStores c = []

/-- When all calls have returned, every store has been cleaned up once. -/
theorem RuntimeSound.finished (sound : RuntimeSound sys) (finished : Finished sys)
    (opened : n < sys.opened.length) : sys.cleaned.count n = 1 := by
  have once := sound.owned n
  have empty := (sound.closed finished.closed).2
  have refreshing : tally (fun c => (pendingStores c).count n) sys.refreshes = 0 :=
    tally_eq_zero fun c inside => by simp [(refresh_idle (finished.refreshes c inside)).2.2]
  have closing : tally (fun c => (closingStores c).count n) sys.closes = 0 :=
    tally_eq_zero fun c inside => by simp [finished.closes c inside]
  have none : (PoolCleanups.stores ∅).count n = 0 := rfl
  rw [if_pos opened, holders, empty, refreshing, closing] at once
  omega

/-- In every orderly run of a runtime: a store in use has not been cleaned up and is of the
reported generation; no store is cleaned up twice, and each one once when everything has
returned; the reported generation does not decrease while the registry's does not. -/
theorem refreshes_safe (platform : Platform) (cfg : PoolConfig) (now : Time)
    (runtime : PoolRuntime) (opened : openSBSVolumePoolRuntime platform cfg now = .ok runtime)
    (requests : List PoolRequest) (refreshes closes : Nat) (events : List RuntimeEvent)
    (orderly : Throughout (RuntimeSystem.step platform) Orderly
      (.begin runtime requests refreshes closes) events) :
    let final := events.foldl (RuntimeSystem.step platform)
      (.begin runtime requests refreshes closes)
    (∀ n ∈ final.inUse, n ∉ final.cleaned ∧
        final.opened[n]? = some final.runtime.status.activeGeneration) ∧
      (∀ n, final.cleaned.count n ≤ 1) ∧
      (Finished final → ∀ n < final.opened.length, final.cleaned.count n = 1) ∧
      (Throughout (RuntimeSystem.step platform) RegistryGrows
          (.begin runtime requests refreshes closes) events →
        ∀ before after, events = before ++ after →
          (before.foldl (RuntimeSystem.step platform)
              (.begin runtime requests refreshes closes)).runtime.status.activeGeneration ≤
            final.runtime.status.activeGeneration) := by
  have start := RuntimeSound.fresh opened requests refreshes closes
  have sound := orderly.invariant start fun _ _ inv meets => inv.step meets
  refine ⟨fun n used => sound.used used, sound.count_cleaned_le,
    fun finished n opened => sound.finished finished opened, fun grows before after parts => ?_⟩
  have growing : GenerationSound (.begin runtime requests refreshes closes) := by
    refine ⟨?_, fun c member plan planned => ?_⟩
    · obtain ⟨store, status, -, active, rfl⟩ := openSBSVolumePoolRuntime_ok opened
      exact (congrArg UInt64.toNat active).le
    · rw [List.eq_of_mem_replicate member] at planned
      cases planned
  have both := orderly.and grows
  subst parts
  obtain ⟨first, second⟩ := throughout_append.mp both
  have keeps : ∀ (sys : RuntimeSystem) event, RuntimeSound sys ∧ GenerationSound sys →
      Orderly sys event ∧ RegistryGrows sys event →
      RuntimeSound (sys.step platform event) ∧ GenerationSound (sys.step platform event) :=
    fun _ _ inv meets => ⟨inv.1.step meets.1, (inv.2.step inv.1 meets.2).1⟩
  rw [List.foldl_append, UInt64.le_iff_toNat_le]
  exact second.monotone
    (f := fun sys : RuntimeSystem => sys.runtime.status.activeGeneration.toNat)
    (first.invariant ⟨start, growing⟩ keeps) keeps
    fun _ _ inv meets => (inv.2.step inv.1 meets.2).2

/-! ## Two generations -/

def firstGeneration : PoolConfig :=
  { sbsVolumePoolID := "pool", sbsVolumePool := [{ volumeID := "v1" }]
    sbsVolumePoolGeneration := 1, sbsVolumeID := "v1" }

def secondGeneration : VolumePool :=
  { poolID := "pool", generation := 2, members := [{ volumeID := "v1" }, { volumeID := "v2" }] }

def openedRuntime : PoolRuntime :=
  (openSBSVolumePoolRuntime plainPlatform firstGeneration 0).toOption.getD
    { cfg := {}, store := { members := ∅, order := [] }, cleanups := ∅, status := {} }

/-- A refresh to the second generation, from its start to its end. -/
def wholeRefresh : List RuntimeEvent :=
  [.refresh 0 {}, .refresh 0 { registry := .ok secondGeneration }, .refresh 0 {}, .refresh 0 {},
   .refresh 0 {}, .refresh 0 {}, .refresh 0 {}, .refresh 0 {}, .refresh 0 {}, .refresh 0 {}]

/-- A put before the refresh and one after it, and the runtime is closed. -/
def refreshBetweenPuts : List RuntimeEvent :=
  [.serve 0, .answered 0 (.put (.ok { segmentID := "s1", sizeBytes := 4 })), .serve 0] ++
  wholeRefresh ++
  [.serve 1, .answered 1 (.put (.ok { segmentID := "s2", sizeBytes := 4 })), .serve 1,
   .close 0 {}, .close 0 { next := 1 }, .close 0 {}, .close 0 {}]

theorem refresh_between_puts_is_safe :
    let final := refreshBetweenPuts.foldl (RuntimeSystem.step plainPlatform)
      (.begin openedRuntime [fourBytes, fourBytes] 1 1)
    (∀ n < final.opened.length, final.cleaned.count n = 1) ∧ final.opened = [1, 2, 2] ∧
      final.runtime.status.activeGeneration = 2 := by
  intro final
  have safe := refreshes_safe plainPlatform firstGeneration 0 openedRuntime rfl
    [fourBytes, fourBytes] 1 1 refreshBetweenPuts (by decide +kernel)
  have finished : Finished final :=
    ⟨by decide +kernel, by decide +kernel, by decide +kernel⟩
  exact ⟨safe.2.2.1 finished, by decide +kernel, by decide +kernel⟩

/-- A put is in the store of the first generation's member while the refresh replaces it: the
store's cleanup function is called, and the store is in use. -/
theorem store_cleaned_up_in_use :
    let final := (.serve 0 :: wholeRefresh).foldl (RuntimeSystem.step plainPlatform)
      (.begin openedRuntime [fourBytes] 1 1)
    openSBSVolumePoolRuntime plainPlatform firstGeneration 0 = .ok openedRuntime ∧
      0 ∈ final.inUse ∧ 0 ∈ final.cleaned ∧ final.opened[0]? = some 1 ∧
      final.runtime.status.activeGeneration = 2 :=
  ⟨rfl, by decide +kernel, by decide +kernel, by decide +kernel, by decide +kernel⟩

end Namros.Guarantees
