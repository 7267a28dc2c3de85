import Namros.Source.VolumePool

/-!
# The volume pool's runtime

`internal/gateway/volume_pool_refresher.go`: the gateway opens the members of a pool, replaces
them when the registry has another generation, and closes them. `RefreshFromRegistry` and `Close`
are cut where they leave a lock or call out: to the registry, the opener and the cleanup
functions. A member's store and its cleanup function are known by the number it was opened with.
Errors are kept as their texts.
-/

namespace Namros.Source

open Library

/-! ## Configuration and status -/

/-- What the pool store takes over of a member's configuration. -/
structure SBSVolumePoolMember where
  volumeID : String := ""
  readOnly : Bool := false
  state : VolumePoolState := .unset
  weight : Int := 0
  availableBytes : UInt64 := 0
  (usedPercent highWatermarkPercent : Int := 0)
deriving DecidableEq

structure PoolConfig where
  sbsVolumePoolID : String := ""
  sbsVolumePool : List SBSVolumePoolMember := []
  sbsVolumePoolGeneration : UInt64 := 0
  sbsVolumeID : String := ""
deriving DecidableEq

structure PoolRuntimeStatus where
  (configuredGeneration activeGeneration : UInt64 := 0)
  memberCount : Nat := 0
  (refreshCount refreshErrorCount : UInt64 := 0)
  lastError : String := ""
  capacityRefreshCount : UInt64 := 0
  capacityObservationCount : Nat := 0
  capacitySource : String := ""
  (staleSince lastRefreshAt lastSuccessAt lastErrorAt lastCapacityRefreshAt : Time := 0)
deriving DecidableEq

/-- The cleanup functions by volume, each by the number of its store. -/
abbrev PoolCleanups := AList fun _ : String => Nat

/-- The stores the cleanup functions are of. -/
def PoolCleanups.stores (cleanups : PoolCleanups) : List Nat := cleanups.entries.map (·.2)

structure PoolRuntime where
  cfg : PoolConfig
  store : PoolStore
  cleanups : PoolCleanups
  status : PoolRuntimeStatus

/-! ## Opening -/

def sbsVolumePoolMemberFromRegistry (member : VolumePoolMember) : SBSVolumePoolMember :=
  { volumeID := member.volumeID
    readOnly := member.readOnly
    state := member.state
    weight := member.weight
    availableBytes := member.availableBytes
    usedPercent := member.usedPercent
    highWatermarkPercent := member.highWatermarkPercent }

def applySBSVolumePoolRegistrySnapshot (cfg : PoolConfig) (pool : VolumePool) :
    Except StorageError PoolConfig :=
  match pool.members with
  | [] => .error (.invalidArgument ("sbs volume pool " ++ quoted pool.poolID ++ " has no members"))
  | first :: _ =>
    .ok { cfg with
      sbsVolumePool := pool.members.map sbsVolumePoolMemberFromRegistry
      sbsVolumePoolGeneration := pool.generation
      sbsVolumeID := first.volumeID }

/-- The members that are open, and their cleanup functions. -/
structure OpenedMembers where
  members : List PoolMember := []
  cleanups : PoolCleanups := ∅

/-- One round of the loop of `openSBSVolumePoolMembers`, after the opener has returned the store
`n`. -/
def OpenedMembers.add (opened : OpenedMembers) (member : SBSVolumePoolMember) (n : Nat) :
    OpenedMembers :=
  { members := opened.members ++
      [{ volumeID := member.volumeID
         store := some n
         readOnly := member.readOnly
         state := member.state
         weight := member.weight
         availableBytes := member.availableBytes
         usedPercent := member.usedPercent
         highWatermarkPercent := member.highWatermarkPercent }]
    cleanups := opened.cleanups.insert member.volumeID n }

/-- `openSBSVolumePoolMembers` with an opener that does not fail, from the store `n` on. -/
def OpenedMembers.addAll (opened : OpenedMembers) (n : Nat) :
    List SBSVolumePoolMember → OpenedMembers
  | [] => opened
  | member :: members => (opened.add member n).addAll (n + 1) members

/-- `openSBSVolumePoolRuntime`, if the opener does not fail. -/
def openSBSVolumePoolRuntime (platform : Platform) (cfg : PoolConfig) (now : Time) :
    Except StorageError PoolRuntime :=
  let opened := OpenedMembers.addAll {} 0 cfg.sbsVolumePool
  (newPool platform opened.members).map fun store =>
    { cfg := cfg
      store := store
      cleanups := opened.cleanups
      status :=
        { configuredGeneration := cfg.sbsVolumePoolGeneration
          activeGeneration := cfg.sbsVolumePoolGeneration
          memberCount := cfg.sbsVolumePool.length
          lastSuccessAt := now } }

/-! ## Refreshing -/

def PoolRuntimeStatus.recordRefresh (status : PoolRuntimeStatus) (now : Time)
    (configuredGeneration : UInt64) (failure : Option String) : PoolRuntimeStatus :=
  let status := { status with
    configuredGeneration :=
      if configuredGeneration ≠ 0 then configuredGeneration else status.configuredGeneration
    lastRefreshAt := now
    refreshCount := status.refreshCount + 1 }
  match failure with
  | some text => { status with
      refreshErrorCount := status.refreshErrorCount + 1
      lastErrorAt := now
      lastError := text
      staleSince := if status.staleSince.isZero then now else status.staleSince }
  | none => { status with
      lastError := ""
      lastErrorAt := 0
      lastSuccessAt := now
      staleSince :=
        if status.configuredGeneration = status.activeGeneration then 0
        else if status.staleSince.isZero then now
        else status.staleSince }

/-- `ApplyCapacitySnapshot`, with the observations of the snapshot. -/
def PoolRuntime.applyCapacitySnapshot (r : PoolRuntime) (now : Time) (sourceAuthority : String)
    (observations : List MemberObservation) : PoolRuntime :=
  { r with
    store := r.store.updateMemberObservations observations
    status := { r.status with
      capacityRefreshCount := r.status.capacityRefreshCount + 1
      capacityObservationCount := (observations.filter fun observation =>
        (r.store.members.lookup (trimSpace observation.volumeID)).isSome).length
      capacitySource := trimSpace sourceAuthority
      lastCapacityRefreshAt := now } }

/-- What a refresh has decided on. -/
structure RefreshPlan where
  now : Time
  nextCfg : PoolConfig

/-- A call of `RefreshFromRegistry`, by what it does next. -/
inductive RefreshCall
  | start
  /-- `GetVolumePool`. -/
  | fetching (base : PoolConfig) (currentGeneration : UInt64)
  /-- The opener, for the members that remain. -/
  | opening (plan : RefreshPlan) (remaining : List SBSVolumePoolMember) (opened : OpenedMembers)
  /-- `UpdateMembers`. -/
  | updating (plan : RefreshPlan) (opened : OpenedMembers)
  /-- The configuration, the cleanup functions and the status are replaced. -/
  | publishing (plan : RefreshPlan) (cleanups : PoolCleanups)
  /-- The cleanup functions of the stores it has opened, after an error. -/
  | abandoning (plan : RefreshPlan) (pending : List Nat) (failure : String)
  /-- `recordRefresh`, before the cleanup functions of the stores that are replaced. -/
  | recording (now : Time) (generation : UInt64) (failure : Option String) (replaced : List Nat)
  | cleaning (pending : List Nat) (failures : List String)
  | returned (failures : List String)

/-- What a refresh or a close is answered in a step: the time, what the registry and the opener
return, and which cleanup function is called next and with what error. -/
structure RuntimeAnswers where
  now : Time := 0
  registry : Except String VolumePool := .error "not asked"
  openError : Option String := none
  next : Nat := 0
  cleanupError : Option String := none

/-- What a step does to a store. -/
inductive StoreEffect
  | none
  | opened (generation : UInt64)
  | cleaned (store : Nat)

/-- The decision after `GetVolumePool`. -/
def RefreshCall.fetched (base : PoolConfig) (currentGeneration : UInt64) (now : Time) :
    Except String VolumePool → RefreshCall
  | .error text =>
    .recording now 0 (some ("refresh sbs volume pool " ++ quoted (trimSpace base.sbsVolumePoolID) ++
      ": " ++ text)) []
  | .ok pool =>
    if pool.generation ≠ 0 ∧ pool.generation = currentGeneration then
      .recording now pool.generation none []
    else
      match applySBSVolumePoolRegistrySnapshot base pool with
      | .error e => .recording now pool.generation (some e.text) []
      | .ok nextCfg => .opening ⟨now, nextCfg⟩ nextCfg.sbsVolumePool {}

/-- The next step of a refresh; a store that is opened gets the number `fresh`. -/
def RefreshCall.step (platform : Platform) (answers : RuntimeAnswers) (fresh : Nat)
    (r : PoolRuntime) : RefreshCall → RefreshCall × PoolRuntime × StoreEffect
  | .start =>
    if trimSpace r.cfg.sbsVolumePoolID = "" then (.returned [], r, .none)
    else (.fetching r.cfg r.status.activeGeneration, r, .none)
  | .fetching base currentGeneration =>
    (.fetched base currentGeneration answers.now answers.registry, r, .none)
  | .opening plan [] opened => (.updating plan opened, r, .none)
  | .opening plan (member :: remaining) opened =>
    match answers.openError with
    | some text => (.abandoning plan opened.cleanups.stores text, r, .none)
    | none =>
      (.opening plan remaining (opened.add member fresh), r,
        .opened plan.nextCfg.sbsVolumePoolGeneration)
  | .updating plan opened =>
    match r.store.updateMembers platform opened.members with
    | .error e => (.abandoning plan opened.cleanups.stores e.text, r, .none)
    | .ok store => (.publishing plan opened.cleanups, { r with store := store }, .none)
  | .publishing plan cleanups =>
    (.recording plan.now plan.nextCfg.sbsVolumePoolGeneration none r.cleanups.stores,
      { r with
        cfg := plan.nextCfg
        cleanups := cleanups
        status := { r.status with
          activeGeneration := plan.nextCfg.sbsVolumePoolGeneration
          memberCount := plan.nextCfg.sbsVolumePool.length } }, .none)
  | .abandoning plan pending failure =>
    match pending with
    | [] =>
      (.recording plan.now plan.nextCfg.sbsVolumePoolGeneration (some failure) [], r, .none)
    | _ =>
      match pending[answers.next]? with
      | none => (.abandoning plan pending failure, r, .none)
      | some store => (.abandoning plan (pending.eraseIdx answers.next) failure, r, .cleaned store)
  | .recording now generation failure replaced =>
    let r := { r with status := r.status.recordRefresh now generation failure }
    match failure with
    | some text => (.returned [text], r, .none)
    | none => (.cleaning replaced [], r, .none)
  | .cleaning pending failures =>
    match pending with
    | [] => (.returned failures, r, .none)
    | _ =>
      match pending[answers.next]? with
      | none => (.cleaning pending failures, r, .none)
      | some store =>
        (.cleaning (pending.eraseIdx answers.next) (failures ++ answers.cleanupError.toList), r,
          .cleaned store)
  | .returned failures => (.returned failures, r, .none)

/-! ## Closing -/

/-- A call of `Close`, by what it does next. -/
inductive CloseCall
  | start
  | cleaning (pending : List Nat) (failures : List String)
  | returned (failures : List String)

def CloseCall.step (answers : RuntimeAnswers) (r : PoolRuntime) :
    CloseCall → CloseCall × PoolRuntime × StoreEffect
  | .start => (.cleaning r.cleanups.stores [], { r with cleanups := ∅ }, .none)
  | .cleaning pending failures =>
    match pending with
    | [] => (.returned failures, r, .none)
    | _ =>
      match pending[answers.next]? with
      | none => (.cleaning pending failures, r, .none)
      | some store =>
        (.cleaning (pending.eraseIdx answers.next) (failures ++ answers.cleanupError.toList), r,
          .cleaned store)
  | .returned failures => (.returned failures, r, .none)

end Namros.Source
