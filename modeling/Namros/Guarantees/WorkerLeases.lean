import Namros.Source.Workers

/-!
# Worker leases

Runs of acquiring and releasing calls, by any owners on any shards at any times. The record of a
granted lease stays until it expires or its owner calls again, so that until then every call of
another owner is refused; and the generation tells the successive owners of a shard apart.
-/

namespace Namros.Guarantees

open Library Source Transaction

inductive LeaseCall
  | acquire (req : AcquireWorkerLeaseRequest)
  | release (req : ReleaseWorkerLeaseRequest)

namespace LeaseCall

/-- The worker kind and the shard a call is about. -/
def shard : LeaseCall → String × String
  | acquire req => (trimSpace req.workerKind, trimSpace req.shardID)
  | release req => (trimSpace req.workerKind, trimSpace req.shardID)

def ownerID : LeaseCall → String
  | acquire req => trimSpace req.ownerID
  | release req => trimSpace req.ownerID

def body (platform : Platform) (now : Time) : LeaseCall → Tx Unit
  | acquire req => dropResult (acquireWorkerLease platform now req)
  | release req => releaseWorkerLease now req

end LeaseCall

/-- The store after calls made at their times; a failed call leaves it as it was. -/
def runLeases (platform : Platform) (calls : List (Time × LeaseCall)) (s : Store) : Store :=
  calls.foldl (fun s call => (call.2.body platform call.1).settle s) s

/-- The lease of a shard, the zero record where none is stored. -/
def leaseOf (s : Store) (shard : String × String) : WorkerLease :=
  Option.getD (α := WorkerLease) (s.lookup (.workerLease shard.1 shard.2)) {}

/-- What a call of `ownerID` at `now` may store over the record `existing`. -/
structure Follows (now : Time) (ownerID : String) (existing lease : WorkerLease) : Prop where
  owned : lease.ownerID = ownerID
  free : existing.leaseID ≠ "" → now < existing.expiresAt → existing.ownerID = ownerID
  counted : lease.generation = existing.generation ∧ existing.ownerID = ownerID ∨
    existing.generation + 1 = 0 ∨ lease.generation = existing.generation + 1

variable {platform : Platform} {now : Time} {s t : Store} {existing lease : WorkerLease}
  {shard : String × String} {call : LeaseCall} {req : AcquireWorkerLeaseRequest}

theorem buildWorkerLease_ok (built : buildWorkerLease platform existing req now = .ok lease) :
    Follows now (trimSpace req.ownerID) existing lease ∧ lease.leaseID ≠ "" := by
  replace built := (refuse_eq_ok.mp (refuse_eq_ok.mp built).2).2
  obtain ⟨untaken, built⟩ := refuse_eq_ok.mp built
  obtain rfl := Except.ok.inj built
  refine ⟨⟨rfl, ?_, ?_⟩, ?_⟩
  · intro named held
    by_contra other
    exact untaken ⟨named, other, held⟩
  · -- The generation moves exactly where the record is new or changes hands.
    by_cases changed : existing.leaseID = "" ∨ existing.ownerID ≠ trimSpace req.ownerID
    · by_cases wraps : existing.generation + 1 = 0
      · exact .inr (.inl wraps)
      · exact .inr (.inr (by simp [changed, wraps]))
    · simp only [not_or, not_not] at changed
      simp [changed]
  · intro empty
    have length := congrArg String.length empty
    simp [workerLeaseID] at length

theorem leaseOf_insert_self :
    leaseOf (s.insert (.workerLease shard.1 shard.2) lease) shard = lease := by
  rw [leaseOf, lookup_insert_self, Option.getD_some]

theorem acquireWorkerLease_cases
    (ran : (acquireWorkerLease platform now req).run s = .ok (lease, t)) :
    buildWorkerLease platform (leaseOf s (LeaseCall.acquire req).shard) req now = .ok lease ∧
      t = s.insert (.workerLease (trimSpace req.workerKind) (trimSpace req.shardID)) lease := by
  replace ran := past ran rfl
  obtain ⟨_, built, ran⟩ := ofOutcome_bind_ok.mp ran
  obtain ⟨-, ran⟩ := failIf_bind_ok.mp ran
  cases ran
  exact ⟨built, rfl⟩

/-- A call that succeeds stores one record, under its shard. -/
theorem leaseCall_cases (ran : (call.body platform now).run s = .ok ((), t)) :
    ∃ lease : WorkerLease, t = s.insert (.workerLease call.shard.1 call.shard.2) lease ∧
      Follows now call.ownerID (leaseOf s call.shard) lease := by
  cases call with
  | acquire req =>
    obtain ⟨lease, ran⟩ := run_dropResult_ok.mp ran
    obtain ⟨built, stored⟩ := acquireWorkerLease_cases ran
    exact ⟨lease, stored, (buildWorkerLease_ok built).1⟩
  | release req =>
    obtain ⟨-, ran⟩ := failIf_bind_ok.mp ran
    replace ran := past ran rfl
    obtain ⟨existing, found, ran⟩ := orFail_bind_ok.mp ran
    obtain ⟨same, ran⟩ := failIf_bind_ok.mp ran
    cases ran
    have stored : leaseOf s (LeaseCall.release req).shard = existing := by
      simp only [leaseOf, LeaseCall.shard, found, Option.getD_some]
    rw [stored]
    have owner := not_not.mp same
    exact ⟨_, rfl, owner, fun _ _ => owner, .inl ⟨rfl, owner⟩⟩

/-- What a call leaves as the lease of a shard. -/
theorem leaseOf_settle (platform : Platform) (call : Time × LeaseCall) (s : Store)
    (shard : String × String) :
    leaseOf ((call.2.body platform call.1).settle s) shard = leaseOf s shard ∨
      call.2.shard = shard ∧ Follows call.1 call.2.ownerID (leaseOf s shard)
        (leaseOf ((call.2.body platform call.1).settle s) shard) := by
  unfold settle
  cases ran : (call.2.body platform call.1).run s with
  | error e => exact .inl rfl
  | ok r =>
    obtain ⟨lease, stored, follows⟩ := leaseCall_cases ran
    dsimp only
    rw [stored]
    by_cases same : call.2.shard = shard
    · subst same
      rw [leaseOf_insert_self]
      exact .inr ⟨rfl, follows⟩
    · have keys : Key.workerLease shard.1 shard.2 ≠ .workerLease call.2.shard.1 call.2.shard.2 := by
        intro equal
        injection equal with kind id
        exact same (Prod.ext kind.symm id.symm)
      exact .inl (by simp only [leaseOf, lookup_insert_ne _ keys])

/-! ## One owner at a time -/

/-- After a lease is granted, calls of other owners before its expiry leave its record as it was
granted, and every further one is refused. -/
theorem lease_exclusive (calls : List (Time × LeaseCall))
    (granted : (acquireWorkerLease platform now req).run s = .ok (lease, t))
    (foreign : ∀ call ∈ calls, call.2.shard = (LeaseCall.acquire req).shard →
      call.2.ownerID ≠ lease.ownerID ∧ call.1 < lease.expiresAt) :
    leaseOf (runLeases platform calls t) (LeaseCall.acquire req).shard = lease ∧
      ∀ later < lease.expiresAt, ∀ call : LeaseCall,
        call.shard = (LeaseCall.acquire req).shard → call.ownerID ≠ lease.ownerID →
          ∃ e, (call.body platform later).run (runLeases platform calls t) = .error e := by
  obtain ⟨built, stored⟩ := acquireWorkerLease_cases granted
  obtain ⟨-, named⟩ := buildWorkerLease_ok built
  have start : leaseOf t (LeaseCall.acquire req).shard = lease := by
    rw [stored]
    exact leaseOf_insert_self
  clear stored granted
  induction calls generalizing t with
  | nil =>
    refine ⟨start, fun later soon call same other => ?_⟩
    cases ran : (call.body platform later).run t with
    | error e => exact ⟨e, ran⟩
    | ok r =>
      obtain ⟨_, -, follows⟩ := leaseCall_cases ran
      rw [same, start] at follows
      exact absurd (follows.free named soon).symm other
  | cons call calls ih =>
    apply ih
    · exact fun c later => foreign c (.tail _ later)
    · -- A call on the shard is of another owner, and too early to take the lease over.
      rcases leaseOf_settle platform call t (LeaseCall.acquire req).shard with
        kept | ⟨same, follows⟩
      · exact kept.trans start
      · rw [start] at follows
        obtain ⟨other, early⟩ := foreign call (.head _) same
        exact absurd (follows.free named early).symm other

def sampleLeaseRequest : AcquireWorkerLeaseRequest :=
  { workerKind := "gc", shardID := "0", ownerID := "a", ttl := 30 }

/-- Another owner asks for a held lease, and tries to release it. -/
theorem sampleLease_exclusive :
    ∃ lease t, (acquireWorkerLease plainPlatform 5 sampleLeaseRequest).run ∅ = .ok (lease, t) ∧
      leaseOf (runLeases plainPlatform [(10, .acquire { sampleLeaseRequest with ownerID := "b" }),
        (20, .release { workerKind := "gc", shardID := "0", ownerID := "b" })] t)
        (LeaseCall.acquire sampleLeaseRequest).shard = lease := by
  have built : buildWorkerLease plainPlatform {} sampleLeaseRequest 5 = .ok
    { leaseID := "gc/0", workerKind := "gc", shardID := "0", ownerID := "a"
      generation := 1, acquiredAt := 5, updatedAt := 5, expiresAt := 35 } := by decide
  have granted : ∃ t, (acquireWorkerLease plainPlatform 5 _).run ∅ = .ok (_, t) :=
    ⟨_, run_bind_ok.mpr ⟨_, ∅, rfl, ofOutcome_bind_ok.mpr ⟨_, built,
      failIf_bind_ok.mpr ⟨by decide, rfl⟩⟩⟩⟩
  obtain ⟨t, granted⟩ := granted
  exact ⟨_, t, granted, (lease_exclusive _ granted (by decide)).1⟩

/-! ## Generations -/

/-- Over a run the generation of a shard's lease never falls, and it rises where the owner
changes, as long as 64 bits hold it. -/
theorem lease_generations (calls : List (Time × LeaseCall)) (s : Store) (shard : String × String)
    (room : (leaseOf s shard).generation.toNat + calls.length < 2 ^ 64) :
    let before := leaseOf s shard
    let after := leaseOf (runLeases platform calls s) shard
    before.generation ≤ after.generation ∧
      (before.ownerID ≠ after.ownerID → before.generation < after.generation) := by
  induction calls generalizing s with
  | nil => exact ⟨UInt64.le_refl _, fun differ => absurd rfl differ⟩
  | cons call calls ih =>
    have rest := ih ((call.2.body platform call.1).settle s)
    simp only [runLeases, List.foldl_cons, List.length_cons, UInt64.le_iff_toNat_le,
      UInt64.lt_iff_toNat_lt] at rest room ⊢
    rcases leaseOf_settle platform call s shard with kept | ⟨-, follows⟩
    · rw [kept] at rest
      exact rest (by omega)
    · rcases follows.counted with ⟨same, owner⟩ | wraps | next
      · rw [same, follows.owned, ← owner] at rest
        exact rest (by omega)
      · have := congrArg UInt64.toNat wraps
        rw [UInt64.toNat_add] at this
        simp at this
        omega
      · rw [next, UInt64.toNat_add] at rest
        simp only [UInt64.reduceToNat] at rest
        rw [Nat.mod_eq_of_lt (by omega)] at rest
        obtain ⟨least, -⟩ := rest (by omega)
        exact ⟨by omega, fun _ => by omega⟩

/-- A lease that changes hands after it expired. -/
theorem sampleLease_generations :
    let s := runLeases plainPlatform [(5, .acquire sampleLeaseRequest)] ∅
    let t := runLeases plainPlatform [(40, .acquire { sampleLeaseRequest with ownerID := "b" })] s
    (leaseOf s ("gc", "0")).generation < (leaseOf t ("gc", "0")).generation :=
  (lease_generations _ _ ("gc", "0") (by decide)).2 (by decide)

end Namros.Guarantees
