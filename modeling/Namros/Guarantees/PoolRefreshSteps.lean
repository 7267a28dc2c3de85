import Namros.Guarantees.PoolSystem

/-!
# The steps of a refresh

Where the cleanup functions are before and after each step of `RefreshFromRegistry`: with the
refresh while it opens members, in the runtime once its generation is reported, and those it
replaces with the refresh until they are called.
-/

namespace Namros.Guarantees

open Library Source

variable {platform : Platform} {sys : RuntimeSystem} {index i n store : Nat}
  {pool pool' : PoolStore} {members : List PoolMember} {built : PoolMembers × List String}
  {o : OpenedMembers} {plan : RefreshPlan} {opened : List UInt64} {call next : RefreshCall}
  {answers : RuntimeAnswers} {effect : StoreEffect} {registry : UInt64}

/-- The generation of a store that a step opens. -/
def openedBy : StoreEffect → List UInt64
  | .opened generation => [generation]
  | .none | .cleaned _ => []

/-- The store that a step cleans up. -/
def cleanedBy : StoreEffect → List Nat
  | .cleaned store => [store]
  | .none | .opened _ => []

theorem applyEffect_eq (sys : RuntimeSystem) (effect : StoreEffect) :
    sys.applyEffect effect = { sys with
      opened := sys.opened ++ openedBy effect, cleaned := cleanedBy effect ++ sys.cleaned } := by
  cases effect <;> simp [RuntimeSystem.applyEffect, openedBy, cleanedBy]

theorem RefreshSound.mono {more : List UInt64} {call : RefreshCall}
    (sound : RefreshSound opened call) : RefreshSound (opened ++ more) call := by
  have grow {plan : RefreshPlan} {o : OpenedMembers} (sound : OpenedSound opened plan o) :
      OpenedSound (opened ++ more) plan o :=
    ⟨sound.keys, sound.stores, fun n member => getElem?_append_of_some (sound.generation n member)⟩
  cases call with
  | opening plan remaining o => exact ⟨grow sound.1, sound.2⟩
  | updating plan o => exact grow sound
  | publishing plan cleanups => exact fun n member => getElem?_append_of_some (sound n member)
  | recording now generation failure replaced =>
    cases failure with
    | none => trivial
    | some text => exact sound
  | _ => trivial

theorem RuntimeSound.single_set (sound : RuntimeSound sys)
    (found : sys.refreshes[index]? = some call) (busy : refreshInProgress call = true) :
    tally (fun c => (refreshInProgress c).toNat) (sys.refreshes.set index next) ≤ 1 := by
  have moved := tally_set (fun c => (refreshInProgress c).toNat) found next
  have single := sound.single
  have bounded := Bool.toNat_le (refreshInProgress next)
  simp only [busy, Bool.toNat_true] at moved
  omega

/-- The stores a refresh has after a step: those it had and opened, without those it cleaned
up. -/
def Accounts (sys : RuntimeSystem) (call next : RefreshCall) (effect : StoreEffect) : Prop :=
  ∀ n, (pendingStores next).count n + (cleanedBy effect).count n = (pendingStores call).count n +
    if sys.opened.length ≤ n ∧ n < sys.opened.length + (openedBy effect).length then 1 else 0

theorem accounts_same (same : pendingStores next = pendingStores call) :
    Accounts sys call next .none := by
  intro n
  rw [same, cleanedBy, openedBy, List.length_nil, if_neg (by omega), List.count_nil]

theorem RuntimeSound.running (sound : RuntimeSound sys)
    (found : sys.refreshes[index]? = some call) (busy : refreshInProgress call = true) :
    Running sys := by
  by_contra stopped
  have idle := (sound.closed stopped).1 call (List.mem_of_getElem? found)
  rw [busy] at idle
  cases idle

/-- A step of a refresh that leaves the pool store, its cleanup functions and the generation. -/
theorem RuntimeSound.refreshed {status : PoolRuntimeStatus} (sound : RuntimeSound sys)
    (found : sys.refreshes[index]? = some call)
    (here : RefreshSound (sys.opened ++ openedBy effect) next)
    (accounts : Accounts sys call next effect)
    (active : status.activeGeneration = sys.runtime.status.activeGeneration)
    (silent : (unreported call, unreported next) = (none, none))
    (enters : refreshInProgress call = false → refreshInProgress next = true →
      Running sys ∧ Settled sys) :
    RuntimeSound (RuntimeSystem.applyEffect { sys with
      runtime := { sys.runtime with status := status }
      refreshes := sys.refreshes.set index next
      registry := registry } effect) := by
  obtain ⟨before, after⟩ := Prod.mk.inj silent
  have reported : (∀ c ∈ sys.refreshes.set index next, (unreported c).isNone) ↔ Reported sys := by
    constructor
    · intro later c member
      rcases eq_or_mem_set found member with rfl | kept
      · simp [before]
      · exact later c kept
    · exact fun earlier => forall_mem_set earlier (by simp [after])
  rw [applyEffect_eq]
  exact
    { owned := by
        intro n
        have once := sound.owned n
        have moved := tally_set (fun c => (pendingStores c).count n) found next
        have account := accounts n
        simp only [holders, List.count_append, List.length_append] at once ⊢
        split at once <;> split at account <;> split <;> omega
      refreshes := forall_mem_set (fun c member => (sound.refreshes c member).mono) here
      single := by
        have moved := tally_set (fun c => (refreshInProgress c).toNat) found next
        have single := sound.single
        change tally _ (sys.refreshes.set index next) ≤ 1
        cases entering : refreshInProgress next with
        | false =>
          simp only [entering, Bool.toNat_false] at moved
          omega
        | true =>
          cases idle : refreshInProgress call with
          | true => exact sound.single_set found idle
          | false =>
            have settled := (enters idle entering).2
            have none : tally (fun c => (refreshInProgress c).toNat) sys.refreshes = 0 :=
              tally_eq_zero fun c inside => by simp [settled c inside]
            simp only [entering, Bool.toNat_true] at moved
            omega
      generation := by
        intro n member
        rw [active]
        exact getElem?_append_of_some (sound.generation n member)
      pool := by
        intro n has
        obtain ⟨new, current⟩ := sound.pool n has
        refine ⟨forall_mem_set new (by simp [after]), fun later running => ?_⟩
        exact current (reported.mp later) running
      inUse := by
        intro n used
        obtain ⟨current, earlier, running⟩ := sound.inUse n used
        exact ⟨current, reported.mpr earlier, running⟩
      closed := by
        intro stopped
        obtain ⟨settled, empty⟩ := sound.closed stopped
        have idle := settled call (List.mem_of_getElem? found)
        refine ⟨forall_mem_set settled ?_, empty⟩
        cases entering : refreshInProgress next with
        | false => rfl
        | true => exact absurd (enters idle entering).1 stopped }

/-- A refresh in progress is the only one. -/
theorem RuntimeSound.alone (sound : RuntimeSound sys) (next : RefreshCall)
    (found : sys.refreshes[index]? = some call) (busy : refreshInProgress call = true) :
    ∀ c ∈ sys.refreshes.set index next, c = next ∨ refreshInProgress c = false := by
  intro c member
  have only := sound.single
  rcases tally_others (fun c => (refreshInProgress c).toNat) found
    (by simpa [busy] using only) c member with rfl | idle
  · exact .inl rfl
  · exact .inr (by simpa using idle)

/-- A refresh that is not in progress has nothing. -/
theorem refresh_idle (idle : refreshInProgress call = false) :
    unreported call = none ∧ planOf call = none ∧ pendingStores call = [] := by
  cases call <;> first | exact ⟨rfl, rfl, rfl⟩ | cases idle

/-! ## Opening -/

theorem stores_add {member : SBSVolumePoolMember} (store : Nat)
    (new : member.volumeID ∉ o.cleanups) :
    (o.add member store).cleanups.stores = store :: o.cleanups.stores := by
  simp only [OpenedMembers.add, PoolCleanups.stores]
  rw [AList.entries_insert_of_notMem new, List.map_cons]

theorem OpenedSound.empty (opened : List UInt64) (plan : RefreshPlan) :
    OpenedSound opened plan {} where
  keys _ none := by cases none
  stores _ none := by cases none
  generation _ none := by cases none

/-- One more member is opened. -/
theorem OpenedSound.add {member : SBSVolumePoolMember} (sound : OpenedSound opened plan o)
    (new : member.volumeID ∉ o.members.map PoolMember.volumeID) :
    OpenedSound (opened ++ [plan.nextCfg.sbsVolumePoolGeneration]) plan
      (o.add member opened.length) := by
  have stores := stores_add opened.length fun known => new (sound.keys _ known)
  refine ⟨?_, ?_, ?_⟩
  · intro volumeID known
    rcases (AList.mem_insert _).mp known with rfl | old
    · simp [OpenedMembers.add]
    · have := sound.keys volumeID old
      simp only [OpenedMembers.add, List.map_append, List.mem_append]
      exact .inl this
  · intro m inside n held
    rw [stores]
    rcases List.mem_append.mp inside with old | added
    · exact List.mem_cons_of_mem _ (sound.stores m old n held)
    · obtain rfl := List.mem_singleton.mp added
      cases held
      exact List.mem_cons_self
  · intro n inside
    rw [stores] at inside
    rcases List.mem_cons.mp inside with rfl | old
    · simp
    · exact getElem?_append_of_some (sound.generation n old)

theorem nodup_add {member : SBSVolumePoolMember} {remaining : List SBSVolumePoolMember}
    (distinct : (o.members.map PoolMember.volumeID ++
      (member :: remaining).map SBSVolumePoolMember.volumeID).Nodup) :
    ((o.add member store).members.map PoolMember.volumeID ++
      remaining.map SBSVolumePoolMember.volumeID).Nodup := by
  simpa [OpenedMembers.add] using distinct

/-! ## The pool's members -/

theorem poolHas_index {next : Nat} (indexed : Indexed members built)
    (has : PoolHas { members := built.1, order := built.2, next := next } n) :
    ∃ m ∈ members, m.store = some n := by
  obtain ⟨v, member, found, store⟩ := has
  obtain ⟨given, inside, -, same⟩ := indexed.stores v member found
  exact ⟨given, inside, same.trans store⟩

theorem updateMembers_stores (ok : pool.updateMembers platform members = .ok pool')
    (has : PoolHas pool' n) : ∃ m ∈ members, m.store = some n := by
  unfold PoolStore.updateMembers at ok
  cases built : buildMemberIndex platform members with
  | error e => rw [built] at ok; cases ok
  | ok index =>
    rw [built] at ok
    cases ok
    exact poolHas_index (buildMemberIndex_ok built) has

/-- The opened members are put into the pool store while it is not in use. -/
theorem RuntimeSound.update (sound : RuntimeSound sys) {store : PoolStore}
    (found : sys.refreshes[index]? = some (.updating plan o)) (quiet : Quiet sys)
    (ok : sys.runtime.store.updateMembers platform o.members = .ok store) :
    RuntimeSound { sys with
      runtime := { sys.runtime with store := store }
      refreshes := sys.refreshes.set index (.publishing plan o.cleanups)
      registry := registry } := by
  have here : OpenedSound sys.opened plan o := sound.refreshes _ (List.mem_of_getElem? found)
  have alone := sound.alone (.publishing plan o.cleanups) found rfl
  have itself : .publishing plan o.cleanups ∈ sys.refreshes.set index (.publishing plan o.cleanups) :=
    List.mem_set (List.getElem?_eq_some_iff.mp found).1 _
  exact
    { owned := by
        intro n
        have once := sound.owned n
        have moved := tally_set (fun c => (pendingStores c).count n) found
          (.publishing plan o.cleanups)
        simp only [pendingStores, holders] at once moved ⊢
        omega
      refreshes := forall_mem_set sound.refreshes here.generation
      single := sound.single_set found rfl
      generation := sound.generation
      pool := by
        intro n has
        obtain ⟨m, inside, store⟩ := updateMembers_stores ok has
        have own := here.stores m inside n store
        constructor
        · intro c member cleanups new
          rcases alone c member with rfl | idle
          · cases new
            exact own
          · rw [(refresh_idle idle).1] at new
            cases new
        · intro reported
          cases reported _ itself
      inUse := by
        intro n used
        have none : n ∈ ([] : List Nat) := quiet ▸ used
        cases none
      closed := fun stopped => absurd (sound.running found rfl) stopped }

/-- The cleanup functions and the generation of the new members are put in place. -/
theorem RuntimeSound.publish (sound : RuntimeSound sys) {cleanups : PoolCleanups}
    {status : PoolRuntimeStatus} (found : sys.refreshes[index]? = some (.publishing plan cleanups))
    (active : status.activeGeneration = plan.nextCfg.sbsVolumePoolGeneration) :
    RuntimeSound { sys with
      runtime := { sys.runtime with cfg := plan.nextCfg, cleanups := cleanups, status := status }
      refreshes := sys.refreshes.set index (.recording plan.now
        plan.nextCfg.sbsVolumePoolGeneration none sys.runtime.cleanups.stores)
      registry := registry } := by
  have itself := List.mem_of_getElem? found
  have generation : ∀ n ∈ cleanups.stores,
      sys.opened[n]? = some plan.nextCfg.sbsVolumePoolGeneration := sound.refreshes _ itself
  have alone := sound.alone (.recording plan.now
    plan.nextCfg.sbsVolumePoolGeneration none sys.runtime.cleanups.stores) found rfl
  exact
    { owned := by
        intro n
        have once := sound.owned n
        have moved := tally_set (fun c => (pendingStores c).count n) found
          (.recording plan.now plan.nextCfg.sbsVolumePoolGeneration none
            sys.runtime.cleanups.stores)
        simp only [pendingStores, holders] at once moved ⊢
        omega
      refreshes := forall_mem_set sound.refreshes trivial
      single := sound.single_set found rfl
      generation := by
        intro n member
        rw [active]
        exact generation n member
      pool := by
        intro n has
        have own := (sound.pool n has).1 _ itself cleanups rfl
        refine ⟨fun c member cleanups' new => ?_, fun _ _ => own⟩
        rcases alone c member with rfl | idle
        · cases new
        · rw [(refresh_idle idle).1] at new
          cases new
      inUse := by
        intro n used
        have reported := (sound.inUse n used).2.1 _ itself
        cases reported
      closed := fun stopped => absurd (sound.running found rfl) stopped }

/-! ## Every step -/

theorem accounts_cleaned (picked : (pendingStores call)[i]? = some store)
    (rest : pendingStores next = (pendingStores call).eraseIdx i) :
    Accounts sys call next (.cleaned store) := by
  intro n
  have counted := count_eraseIdx (b := n) picked
  rw [rest, cleanedBy, openedBy, List.length_nil, if_neg (by omega)]
  exact counted

theorem accounts_opened {generation : UInt64}
    (more : pendingStores next = sys.opened.length :: pendingStores call) :
    Accounts sys call next (.opened generation) := by
  intro n
  rw [more, cleanedBy, openedBy, List.count_nil, List.length_singleton, List.count_cons]
  by_cases here : sys.opened.length = n
  · rw [if_pos (beq_iff_eq.mpr here), if_pos (by omega)]
  · rw [if_neg (by simpa using here), if_neg (by omega)]

theorem recordRefresh_activeGeneration (status : PoolRuntimeStatus) (now : Time)
    (generation : UInt64) (failure : Option String) :
    (status.recordRefresh now generation failure).activeGeneration = status.activeGeneration := by
  cases failure <;> rfl

theorem snapshot_ok {base nextCfg : PoolConfig} {pool : VolumePool}
    (ok : applySBSVolumePoolRegistrySnapshot base pool = .ok nextCfg) :
    nextCfg.sbsVolumePool = pool.members.map sbsVolumePoolMemberFromRegistry ∧
      nextCfg.sbsVolumePoolGeneration = pool.generation := by
  unfold applySBSVolumePoolRegistrySnapshot at ok
  split at ok
  · cases ok
  · cases ok
    exact ⟨rfl, rfl⟩

/-- What `GetVolumePool` answers decides on: nothing is open yet. -/
theorem fetched_cases (base : PoolConfig) (current : UInt64) (now : Time) (opened : List UInt64)
    {answer : Except String VolumePool}
    (distinct : ∀ pool ∈ answer.toOption, (pool.members.map VolumePoolMember.volumeID).Nodup) :
    let next := RefreshCall.fetched base current now answer
    unreported next = none ∧ pendingStores next = [] ∧ RefreshSound opened next := by
  cases answer with
  | error text => exact ⟨rfl, rfl, rfl⟩
  | ok pool =>
    simp only [RefreshCall.fetched]
    split
    · exact ⟨rfl, rfl, trivial⟩
    cases snapshot : applySBSVolumePoolRegistrySnapshot base pool with
    | error e => exact ⟨rfl, rfl, rfl⟩
    | ok nextCfg =>
      refine ⟨rfl, rfl, .empty _ _, ?_⟩
      rw [(snapshot_ok snapshot).1, List.map_map]
      exact distinct pool rfl

theorem RuntimeSound.refresh (sound : RuntimeSound sys) (found : sys.refreshes[index]? = some call)
    (orderly : RefreshOrderly sys answers call) :
    RuntimeSound (sys.step platform (.refresh index answers)) := by
  have itself := List.mem_of_getElem? found
  have here := sound.refreshes call itself
  simp only [RuntimeSystem.step, found]
  generalize lastReturned call answers sys.registry = registry
  cases call with
  | start =>
    simp only [RefreshCall.step]
    split
    · exact sound.refreshed found trivial (accounts_same rfl) rfl rfl nofun
    · exact sound.refreshed found trivial (accounts_same rfl) rfl rfl fun _ _ => orderly.symm
  | fetching base current =>
    obtain ⟨reported, pending, fetched⟩ :=
      fetched_cases base current answers.now (sys.opened ++ []) orderly
    exact sound.refreshed found fetched (accounts_same pending) rfl (Prod.ext rfl reported) nofun
  | opening plan remaining o =>
    obtain ⟨opened, distinct⟩ := here
    cases remaining with
    | nil =>
      have updating : RefreshSound sys.opened (.updating plan o) := opened
      exact sound.refreshed found updating.mono (accounts_same rfl) rfl rfl nofun
    | cons member remaining =>
      simp only [RefreshCall.step]
      split
      · exact sound.refreshed found trivial (accounts_same rfl) rfl rfl nofun
      have new : member.volumeID ∉ o.members.map PoolMember.volumeID := by
        intro known
        exact (List.nodup_append.mp distinct).2.2 _ known _ (by simp) rfl
      exact sound.refreshed found ⟨opened.add new, nodup_add distinct⟩
        (accounts_opened (stores_add _ fun known => new (opened.keys _ known))) rfl rfl nofun
  | updating plan o =>
    simp only [RefreshCall.step]
    split
    · exact sound.refreshed found trivial (accounts_same rfl) rfl rfl nofun
    · next store ok => exact sound.update found orderly ok
  | publishing plan cleanups => exact sound.publish found rfl
  | abandoning plan pending failure =>
    simp only [RefreshCall.step]
    split
    · exact sound.refreshed found rfl (accounts_same rfl) rfl rfl nofun
    split
    · exact sound.refreshed found trivial (accounts_same rfl) rfl rfl nofun
    · next picked =>
      exact sound.refreshed found trivial (accounts_cleaned picked rfl) rfl rfl nofun
  | recording now generation failure replaced =>
    have active := recordRefresh_activeGeneration sys.runtime.status now generation failure
    cases failure with
    | some text =>
      have none : replaced = [] := here
      exact sound.refreshed found trivial (accounts_same none.symm) active rfl nofun
    | none =>
      exact sound.refreshed found trivial (accounts_same rfl) active rfl nofun
  | cleaning pending failures =>
    simp only [RefreshCall.step]
    split
    · exact sound.refreshed found trivial (accounts_same rfl) rfl rfl nofun
    split
    · exact sound.refreshed found trivial (accounts_same rfl) rfl rfl nofun
    · next picked =>
      exact sound.refreshed found trivial (accounts_cleaned picked rfl) rfl rfl nofun
  | returned failures =>
    exact sound.refreshed found trivial (accounts_same rfl) rfl rfl nofun

end Namros.Guarantees
