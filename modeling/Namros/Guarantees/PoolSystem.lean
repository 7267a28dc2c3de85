import Namros.Guarantees.PoolCapacity
import Namros.Source.PoolRuntime

/-!
# A volume pool with refreshes

The runtime of a volume pool with its requests, refreshes and calls of `Close` in any
interleaving, the condition under which its stores are safe, and what such runs keep: every
store's cleanup function is in one place.
-/

namespace Namros.Guarantees

open Library Source

/-! ## Runs -/

/-- The runtime with the calls of the pool store, the stores that open readers read, the calls
of `RefreshFromRegistry` and `Close`, and from outside: the generation of each store that was
opened, by its number, the stores whose cleanup function was called, and the generation the
registry has last returned. -/
structure RuntimeSystem where
  runtime : PoolRuntime
  requests : List (PoolRequest × PoolCall)
  readers : List Nat := []
  refreshes : List RefreshCall
  closes : List CloseCall
  opened : List UInt64
  cleaned : List Nat := []
  registry : UInt64

inductive RuntimeEvent
  | serve (index : Nat)
  | answered (index : Nat) (answer : PoolAnswer)
  | closeReader (index : Nat)
  | observed (now : Time) (sourceAuthority : String) (observations : List MemberObservation)
  | refresh (index : Nat) (answers : RuntimeAnswers)
  | close (index : Nat) (answers : RuntimeAnswers)

/-- The store a request is in. -/
def storeHeld : PoolCall → Option Nat
  | .inStore member => member.store
  | _ => none

/-- The store of a reader that is returned. -/
def readerOf : PoolRequest × PoolCall → PoolAnswer → Option Nat
  | (.get _ _ _, .inStore member), .get (.ok _) => member.store
  | _, _ => none

def RuntimeSystem.applyEffect (sys : RuntimeSystem) : StoreEffect → RuntimeSystem
  | .none => sys
  | .opened generation => { sys with opened := sys.opened ++ [generation] }
  | .cleaned store => { sys with cleaned := store :: sys.cleaned }

/-- The generation the registry has last returned. -/
def lastReturned (call : RefreshCall) (answers : RuntimeAnswers) (before : UInt64) : UInt64 :=
  match call with
  | .fetching _ _ => answers.registry.toOption.elim before VolumePool.generation
  | _ => before

def RuntimeSystem.step (platform : Platform) (sys : RuntimeSystem) : RuntimeEvent → RuntimeSystem
  | .serve index =>
    match sys.requests[index]? with
    | none => sys
    | some (request, call) =>
      let (store, next) := call.serve request sys.runtime.store
      { sys with
        runtime := { sys.runtime with store := store }
        requests := sys.requests.set index (request, next) }
  | .answered index answer =>
    match sys.requests[index]? with
    | none => sys
    | some (request, call) =>
      { sys with
        requests := sys.requests.set index (request, call.answer request answer)
        readers := (readerOf (request, call) answer).toList ++ sys.readers }
  | .closeReader index => { sys with readers := sys.readers.eraseIdx index }
  | .observed now sourceAuthority observations =>
    { sys with runtime := sys.runtime.applyCapacitySnapshot now sourceAuthority observations }
  | .refresh index answers =>
    match sys.refreshes[index]? with
    | none => sys
    | some call =>
      let (next, runtime, effect) := call.step platform answers sys.opened.length sys.runtime
      RuntimeSystem.applyEffect { sys with
        runtime := runtime
        refreshes := sys.refreshes.set index next
        registry := lastReturned call answers sys.registry } effect
  | .close index answers =>
    match sys.closes[index]? with
    | none => sys
    | some call =>
      let (next, runtime, effect) := call.step answers sys.runtime
      RuntimeSystem.applyEffect { sys with
        runtime := runtime, closes := sys.closes.set index next } effect

/-- A runtime that has just been opened, and calls that have not begun. -/
def RuntimeSystem.begin (runtime : PoolRuntime) (requests : List PoolRequest)
    (refreshes closes : Nat) : RuntimeSystem :=
  { runtime := runtime
    requests := requests.map fun request => (request, .start)
    refreshes := List.replicate refreshes .start
    closes := List.replicate closes .start
    opened := List.replicate runtime.cfg.sbsVolumePool.length runtime.cfg.sbsVolumePoolGeneration
    registry := runtime.cfg.sbsVolumePoolGeneration }

/-- The stores in use: by requests, and by the readers they have returned. -/
def RuntimeSystem.inUse (sys : RuntimeSystem) : List Nat :=
  sys.requests.filterMap (fun c => storeHeld c.2) ++ sys.readers

/-! ## Which runs -/

def refreshInProgress : RefreshCall → Bool
  | .start | .returned _ => false
  | _ => true

/-- The cleanup functions of members that are in the pool store and not yet reported. -/
def unreported : RefreshCall → Option PoolCleanups
  | .publishing _ cleanups => some cleanups
  | _ => none

def closeBegun : CloseCall → Bool
  | .start => false
  | _ => true

/-- No refresh is in progress. -/
def Settled (sys : RuntimeSystem) : Prop := ∀ c ∈ sys.refreshes, refreshInProgress c = false
deriving Decidable

/-- No refresh is between `UpdateMembers` and the report of its generation. -/
def Reported (sys : RuntimeSystem) : Prop := ∀ c ∈ sys.refreshes, (unreported c).isNone
deriving Decidable

/-- `Close` has not been called. -/
def Running (sys : RuntimeSystem) : Prop := ∀ c ∈ sys.closes, closeBegun c = false
deriving Decidable

/-- No store is in use. -/
def Quiet (sys : RuntimeSystem) : Prop := sys.inUse = []
deriving Decidable

def RefreshOrderly (sys : RuntimeSystem) (answers : RuntimeAnswers) : RefreshCall → Prop
  | .start => Settled sys ∧ Running sys
  | .fetching _ _ => ∀ pool ∈ answers.registry.toOption,
      (pool.members.map VolumePoolMember.volumeID).Nodup
  | .updating _ _ => Quiet sys
  | _ => True

def RequestOrderly (sys : RuntimeSystem) : PoolCall → Prop
  | .start => Reported sys ∧ Running sys
  | _ => True

def CloseOrderly (sys : RuntimeSystem) : CloseCall → Prop
  | .start => Settled sys ∧ Quiet sys
  | _ => True

/-- The condition on a step. -/
def Orderly (sys : RuntimeSystem) : RuntimeEvent → Prop
  | .serve index => ∀ c ∈ sys.requests[index]?, RequestOrderly sys c.2
  | .refresh index answers => ∀ c ∈ sys.refreshes[index]?, RefreshOrderly sys answers c
  | .close index _ => ∀ c ∈ sys.closes[index]?, CloseOrderly sys c
  | _ => True

/-- The registry's generation does not decrease. -/
def RegistryGrows (sys : RuntimeSystem) : RuntimeEvent → Prop
  | .refresh index answers => ∀ c ∈ sys.refreshes[index]?,
      sys.registry ≤ lastReturned c answers sys.registry
  | _ => True

instance (sys : RuntimeSystem) (answers : RuntimeAnswers) (call : RefreshCall) :
    Decidable (RefreshOrderly sys answers call) := by
  cases call <;> dsimp only [RefreshOrderly] <;> infer_instance

instance (sys : RuntimeSystem) (call : PoolCall) : Decidable (RequestOrderly sys call) := by
  cases call <;> dsimp only [RequestOrderly] <;> infer_instance

instance (sys : RuntimeSystem) (call : CloseCall) : Decidable (CloseOrderly sys call) := by
  cases call <;> dsimp only [CloseOrderly] <;> infer_instance

instance (sys : RuntimeSystem) (event : RuntimeEvent) : Decidable (Orderly sys event) := by
  cases event <;> dsimp only [Orderly] <;> infer_instance

/-! ## Where the stores are -/

/-- The stores whose cleanup functions a refresh has. -/
def pendingStores : RefreshCall → List Nat
  | .opening _ _ opened | .updating _ opened => opened.cleanups.stores
  | .publishing _ cleanups => cleanups.stores
  | .abandoning _ pending _ | .recording _ _ _ pending | .cleaning pending _ => pending
  | _ => []

/-- What a refresh is about to report. -/
def planOf : RefreshCall → Option RefreshPlan
  | .opening plan _ _ | .updating plan _ | .publishing plan _ | .abandoning plan _ _ => some plan
  | _ => none

/-- The stores whose cleanup functions a `Close` has. -/
def closingStores : CloseCall → List Nat
  | .cleaning pending _ => pending
  | _ => []

/-- How often a store is cleaned up, in the runtime, with a refresh or with a `Close`. -/
def holders (sys : RuntimeSystem) (n : Nat) : Nat :=
  sys.cleaned.count n + sys.runtime.cleanups.stores.count n +
    tally (fun c => (pendingStores c).count n) sys.refreshes +
    tally (fun c => (closingStores c).count n) sys.closes

/-- A store is a member's in the pool store. -/
def PoolHas (pool : PoolStore) (n : Nat) : Prop :=
  ∃ volumeID member, pool.members.lookup volumeID = some member ∧ member.store = some n

/-- The members a refresh has opened. -/
structure OpenedSound (opened : List UInt64) (plan : RefreshPlan) (o : OpenedMembers) : Prop where
  keys : ∀ volumeID ∈ o.cleanups, volumeID ∈ o.members.map PoolMember.volumeID
  stores : ∀ member ∈ o.members, ∀ n ∈ member.store, n ∈ o.cleanups.stores
  generation : ∀ n ∈ o.cleanups.stores, opened[n]? = some plan.nextCfg.sbsVolumePoolGeneration

def RefreshSound (opened : List UInt64) : RefreshCall → Prop
  | .opening plan remaining o => OpenedSound opened plan o ∧
      (o.members.map PoolMember.volumeID ++ remaining.map SBSVolumePoolMember.volumeID).Nodup
  | .updating plan o => OpenedSound opened plan o
  | .publishing plan cleanups =>
    ∀ n ∈ cleanups.stores, opened[n]? = some plan.nextCfg.sbsVolumePoolGeneration
  | .recording _ _ (some _) replaced => replaced = []
  | _ => True

/-- What every orderly run keeps. -/
structure RuntimeSound (sys : RuntimeSystem) : Prop where
  owned : ∀ n, holders sys n = if n < sys.opened.length then 1 else 0
  refreshes : ∀ c ∈ sys.refreshes, RefreshSound sys.opened c
  single : tally (fun c => (refreshInProgress c).toNat) sys.refreshes ≤ 1
  generation : ∀ n ∈ sys.runtime.cleanups.stores,
    sys.opened[n]? = some sys.runtime.status.activeGeneration
  pool : ∀ n, PoolHas sys.runtime.store n →
    (∀ c ∈ sys.refreshes, ∀ cleanups ∈ unreported c, n ∈ cleanups.stores) ∧
      (Reported sys → Running sys → n ∈ sys.runtime.cleanups.stores)
  inUse : ∀ n ∈ sys.inUse, n ∈ sys.runtime.cleanups.stores ∧ Reported sys ∧ Running sys
  closed : ¬ Running sys → Settled sys ∧ sys.runtime.cleanups = ∅

section

variable {sys : RuntimeSystem} {n : Nat}

/-- A store in use is not cleaned up, and is of the reported generation. -/
theorem RuntimeSound.used (sound : RuntimeSound sys) (used : n ∈ sys.inUse) :
    n ∉ sys.cleaned ∧ sys.opened[n]? = some sys.runtime.status.activeGeneration := by
  obtain ⟨current, -, -⟩ := sound.inUse n used
  refine ⟨fun cleaned => ?_, sound.generation n current⟩
  have once := sound.owned n
  have first := List.count_pos_iff.mpr current
  have second := List.count_pos_iff.mpr cleaned
  unfold holders at once
  split at once <;> omega

theorem RuntimeSound.count_cleaned_le (sound : RuntimeSound sys) (n : Nat) :
    sys.cleaned.count n ≤ 1 := by
  have once := sound.owned n
  unfold holders at once
  split at once <;> omega

end

end Namros.Guarantees
