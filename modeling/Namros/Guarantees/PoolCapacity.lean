import Namros.Library.Interleaving
import Namros.Source.VolumePool

/-!
# What a volume pool writes to a member

A put is admitted against the member's `AvailableBytes` and debits it after the write, in two
critical sections; a debit that uses the bytes up leaves 0, which admission reads as "no limit".
Where a put begins only while no other is in flight on a writable member and none of them is
used up, no member takes more than it was last said to have.
-/

namespace Namros.Guarantees

open Library Source

/-! ## Runs of the pool -/

/-- The pool with its calls in flight, and what is counted from outside: by volume, the
`AvailableBytes` last configured or observed and the bytes written since. -/
structure PoolSystem where
  pool : PoolStore
  calls : List (PoolRequest × PoolCall)
  granted : String → Nat
  written : String → Nat

inductive PoolEvent
  /-- The call at `index` takes its next step in the pool. -/
  | serve (index : Nat)
  /-- The member's store answers the call at `index`. -/
  | answered (index : Nat) (answer : PoolAnswer)
  | updateMembers (members : List PoolMember)
  | observed (observations : List MemberObservation)

/-- The `AvailableBytes` of a member. -/
def remainingBytes (members : PoolMembers) (volumeID : String) : Nat :=
  ((members.lookup volumeID).elim 0 PoolMember.availableBytes).toNat

/-- The bytes a write that has just succeeded adds to a volume. -/
def writtenBy : PoolRequest × PoolCall → PoolAnswer → String → Nat
  | (.put _, .inStore member), .put (.ok ref), volumeID =>
    if member.volumeID = volumeID then ref.sizeBytes.toNat else 0
  | _, _, _ => 0

/-- One observation; it counts if it names a member and its bytes. -/
def PoolSystem.observe (sys : PoolSystem) (observation : MemberObservation) : PoolSystem :=
  let pool := sys.pool.observe observation
  match sys.pool.members.lookup (trimSpace observation.volumeID), observation.availableBytes with
  | some member, some available =>
    { sys with
      pool := pool
      granted := Function.update sys.granted member.volumeID available.toNat
      written := Function.update sys.written member.volumeID 0 }
  | _, _ => { sys with pool := pool }

def PoolSystem.step (platform : Platform) (sys : PoolSystem) : PoolEvent → PoolSystem
  | .serve index =>
    match sys.calls[index]? with
    | none => sys
    | some (request, call) =>
      let (pool, next) := call.serve request sys.pool
      { sys with pool := pool, calls := sys.calls.set index (request, next) }
  | .answered index answer =>
    match sys.calls[index]? with
    | none => sys
    | some (request, call) =>
      { sys with
        calls := sys.calls.set index (request, call.answer request answer)
        written := fun volumeID =>
          sys.written volumeID + writtenBy (request, call) answer volumeID }
  | .updateMembers members =>
    match sys.pool.updateMembers platform members with
    | .error _ => sys
    | .ok pool =>
      { sys with pool := pool, granted := remainingBytes pool.members, written := fun _ => 0 }
  | .observed observations => observations.foldl PoolSystem.observe sys

/-- A pool that has just been opened, and requests that have not begun. -/
def PoolSystem.begin (pool : PoolStore) (requests : List PoolRequest) : PoolSystem :=
  { pool := pool
    calls := requests.map fun request => (request, .start)
    granted := remainingBytes pool.members
    written := fun _ => 0 }

/-- No member that was given some bytes has taken more. -/
def WithinGrants (sys : PoolSystem) : Prop :=
  ∀ volumeID member, sys.pool.members.lookup volumeID = some member →
    0 < sys.granted volumeID → sys.written volumeID ≤ sys.granted volumeID

/-! ## Which runs -/

/-- The declared size of a put that was admitted to the volume and has not debited it. -/
def owed (volumeID : String) : PoolRequest × PoolCall → Nat
  | (.put req, .inStore member) | (.put req, .debiting member _) =>
    if member.volumeID = volumeID then req.sizeBytes.toNat else 0
  | _ => 0

/-- The declared size of a put that is written and has not debited the volume. -/
def due (volumeID : String) : PoolRequest × PoolCall → Nat
  | (.put req, .debiting member _) =>
    if member.volumeID = volumeID then req.sizeBytes.toNat else 0
  | _ => 0

/-- The member takes writes. -/
def Writable (member : PoolMember) : Prop := member.readOnly = false ∧ member.state = .active
deriving Decidable

/-- When a put begins, no put is in flight on a writable member that was given some bytes, and
they are not used up. -/
def Unhurried (sys : PoolSystem) : PoolRequest × PoolCall → Prop
  | (.put _, .start) => ∀ volumeID ∈ sys.pool.members.keys,
      ∀ member ∈ sys.pool.members.lookup volumeID, Writable member → 0 < sys.granted volumeID →
        tally (owed volumeID) sys.calls = 0 ∧ 0 < member.availableBytes
  | _ => True

/-- The store wrote no more than was declared. -/
def AsDeclared : PoolRequest × PoolCall → PoolAnswer → Prop
  | (.put req, .inStore _), .put (.ok ref) => ref.sizeBytes ≤ req.sizeBytes
  | _, _ => True

/-- The bytes a volume is given cover the puts in flight on it. -/
def Covers (sys : PoolSystem) (volumeID : String) (available : Nat) : Prop :=
  0 < available → tally (owed volumeID) sys.calls ≤ available
deriving Decidable

/-- The condition on a step. -/
def Fits (platform : Platform) (sys : PoolSystem) : PoolEvent → Prop
  | .serve index => ∀ c ∈ sys.calls[index]?, Unhurried sys c
  | .answered index answer => ∀ c ∈ sys.calls[index]?, AsDeclared c answer
  | .updateMembers members => ∀ index ∈ (buildMemberIndex platform members).toOption,
      ∀ volumeID ∈ index.1.keys, Covers sys volumeID (remainingBytes index.1 volumeID)
  | .observed observations => ∀ observation ∈ observations,
      ∀ available ∈ observation.availableBytes,
        Covers sys (trimSpace observation.volumeID) available.toNat

/-! ## The balance of a member -/

variable {req : PutSegmentRequest} {member : PoolMember} {members : List PoolMember}

section

variable {platform : Platform} {sys : PoolSystem} {request : PoolRequest} {call : PoolCall}
variable {index : Nat} {pool : PoolStore}

theorem due_le_owed (volumeID : String) (c : PoolRequest × PoolCall) :
    due volumeID c ≤ owed volumeID c := by
  rcases c with ⟨_ | _ | _, _ | _ | _ | _⟩ <;> simp [due, owed]

/-- Members are filed under their own volume; what a member has left and what was written cover
each other up to the debits that are due, and there is room for the puts in flight. -/
structure Balanced (sys : PoolSystem) : Prop where
  keyed : ∀ volumeID member, sys.pool.members.lookup volumeID = some member →
    member.volumeID = volumeID
  balance : ∀ volumeID, volumeID ∈ sys.pool.members → 0 < sys.granted volumeID →
    remainingBytes sys.pool.members volumeID + sys.written volumeID ≤
      sys.granted volumeID + tally (due volumeID) sys.calls
  room : ∀ volumeID, volumeID ∈ sys.pool.members → 0 < sys.granted volumeID →
    tally (owed volumeID) sys.calls ≤ remainingBytes sys.pool.members volumeID

theorem Balanced.withinGrants (inv : Balanced sys) : WithinGrants sys := by
  intro volumeID member found given
  have present : volumeID ∈ sys.pool.members := AList.lookup_isSome.mp (by simp [found])
  have balance := inv.balance volumeID present given
  have room := inv.room volumeID present given
  have bounded : tally (due volumeID) sys.calls ≤ tally (owed volumeID) sys.calls :=
    List.sum_le_sum fun c _ => due_le_owed volumeID c
  omega

/-- Admission changes no member. -/
theorem nextWritableMember_members (pool : PoolStore) (sizeBytes : UInt64) :
    (pool.nextWritableMember sizeBytes).2.members = pool.members := by
  simp only [PoolStore.nextWritableMember]
  split <;> rfl

/-- An admission is one by a stored member that takes writes and, unless it has no limit, has
room for the size. -/
theorem writeAdmissionDecision_admitted {sizeBytes : UInt64}
    (admitted : (member.writeAdmissionDecision sizeBytes).admitted = true) :
    Writable member ∧ (0 < member.availableBytes → sizeBytes ≤ member.availableBytes) := by
  unfold PoolMember.writeAdmissionDecision at admitted
  dsimp only at admitted
  split at admitted
  · cases admitted
  next writable =>
  split at admitted
  · cases admitted
  next active =>
  split at admitted
  · cases admitted
  next fits =>
  refine ⟨⟨Bool.eq_false_iff.mpr writable, not_not.mp active⟩, fun limited => ?_⟩
  exact UInt64.not_lt.mp fun exceeds => fits ⟨limited, exceeds⟩

theorem planFrom_admitted {sizeBytes : UInt64} {rounds : List Nat} {plan : WriteAdmissionPlan}
    (fresh : plan.admitted = false)
    (admitted : (pool.planFrom sizeBytes rounds plan).1.admitted = true) :
    ∃ volumeID member, pool.members.lookup volumeID = some member ∧
      (pool.planFrom sizeBytes rounds plan).1.volumeID = member.volumeID ∧
      (member.writeAdmissionDecision sizeBytes).admitted = true := by
  induction rounds generalizing plan with
  | nil => exact absurd (fresh.symm.trans admitted) Bool.false_ne_true
  | cons i rounds ih =>
    dsimp only [PoolStore.planFrom] at admitted ⊢
    split at admitted
    · next admits =>
      rw [if_pos admits]
      cases found : pool.members.lookup
          (pool.order.getD ((pool.next + i) % pool.order.length) "") with
      | none =>
        -- a volume without a member is in no state
        rw [found] at admits
        cases (writeAdmissionDecision_admitted admits).1.2
      | some member =>
        rw [found] at admits
        exact ⟨_, member, found, rfl, admits⟩
    · next refused =>
      rw [if_neg refused]
      refine ih ?_ admitted
      split <;> exact fresh

/-- The member a put is admitted to. -/
theorem nextWritableMember_ok {sizeBytes : UInt64}
    (keyed : ∀ v m, pool.members.lookup v = some m → m.volumeID = v)
    (ran : (pool.nextWritableMember sizeBytes).1 = .ok member) :
    pool.members.lookup member.volumeID = some member ∧ Writable member ∧
      (0 < member.availableBytes → sizeBytes ≤ member.availableBytes) := by
  unfold PoolStore.nextWritableMember at ran
  dsimp only at ran
  split at ran
  · next admitted =>
    obtain ⟨v, chosen, found, named, admits⟩ := planFrom_admitted rfl admitted
    have own := keyed v chosen found
    rw [PoolStore.planWriteLocked, named, own, found, Option.getD_some] at ran
    cases ran
    rw [own]
    exact ⟨found, writeAdmissionDecision_admitted admits⟩
  · cases ran

/-- A member after a debit. -/
theorem lookup_debit (pool : PoolStore) (volumeID : String) (sizeBytes : UInt64) (w : String) :
    (pool.debitAvailable volumeID sizeBytes).members.lookup w =
      if w = volumeID then (pool.members.lookup w).map fun member =>
        { member with availableBytes :=
            if sizeBytes ≥ member.availableBytes then 0 else member.availableBytes - sizeBytes }
      else pool.members.lookup w := by
  unfold PoolStore.debitAvailable
  by_cases other : w = volumeID
  · subst other
    split
    · next empty =>
      cases found : pool.members.lookup w with
      | none => simp
      | some member =>
        by_cases none : member.availableBytes = 0
        · simp [empty, none.symm]
        · simp [empty, none]
    · cases found : pool.members.lookup w with
      | none => simp [found]
      | some member =>
        dsimp only
        split
        · next none =>
          have : member = { member with availableBytes := 0 } := by rw [← none]
          simp [found, none, ← this]
        · simp [AList.lookup_insert]
  · split
    · rfl
    cases pool.members.lookup volumeID with
    | none => rfl
    | some member =>
      dsimp only
      split
      · rfl
      · exact AList.lookup_insert_ne other

/-- A debit takes the size, as far as there is something left. -/
theorem remainingBytes_debit (pool : PoolStore) (volumeID : String) (sizeBytes : UInt64)
    (w : String) :
    remainingBytes (pool.debitAvailable volumeID sizeBytes).members w =
      if w = volumeID then remainingBytes pool.members w - sizeBytes.toNat
      else remainingBytes pool.members w := by
  unfold remainingBytes
  rw [lookup_debit]
  split
  · cases pool.members.lookup w with
    | none => simp
    | some member =>
      simp only [Option.map_some, Option.elim_some]
      split
      · next exceeds =>
        have := UInt64.le_iff_toNat_le.mp exceeds
        simp only [UInt64.toNat_zero]
        omega
      · next under =>
        exact UInt64.toNat_sub_of_le _ _ (UInt64.le_of_lt (UInt64.not_le.mp under))
  · rfl

theorem mem_debit {volumeID w : String} {sizeBytes : UInt64} :
    w ∈ (pool.debitAvailable volumeID sizeBytes).members ↔ w ∈ pool.members := by
  rw [← AList.lookup_isSome, ← AList.lookup_isSome, lookup_debit]
  split <;> simp

/-! ## Steps -/

/-- A call that changes neither the members nor what it owes. -/
theorem Balanced.of_same {next : PoolCall} (inv : Balanced sys)
    (found : sys.calls[index]? = some (request, call)) (members : pool.members = sys.pool.members)
    (owes : ∀ v, owed v (request, next) ≤ owed v (request, call))
    (dues : ∀ v, due v (request, next) = due v (request, call)) :
    Balanced { sys with pool := pool, calls := sys.calls.set index (request, next) } := by
  refine ⟨?_, ?_, ?_⟩ <;> simp only [members]
  · exact inv.keyed
  · intro v present given
    have := inv.balance v present given
    have moved := tally_set (due v) found (request, next)
    have := dues v
    omega
  · intro v present given
    have := inv.room v present given
    have moved := tally_set (owed v) found (request, next)
    have := owes v
    omega

/-- A put that begins unhurried has room where it is admitted. -/
theorem Balanced.has_room (inv : Balanced sys) (unhurried : Unhurried sys (.put req, .start))
    (ran : (sys.pool.nextWritableMember req.sizeBytes).1 = .ok member)
    (given : 0 < sys.granted member.volumeID) :
    req.sizeBytes.toNat + tally (owed member.volumeID) sys.calls ≤
      remainingBytes sys.pool.members member.volumeID := by
  obtain ⟨found, writable, admits⟩ := nextWritableMember_ok inv.keyed ran
  have present : member.volumeID ∈ sys.pool.members := AList.lookup_isSome.mp (by simp [found])
  obtain ⟨none, some⟩ := unhurried _ (AList.mem_keys.mp present) member found writable given
  have size := UInt64.le_iff_toNat_le.mp (admits some)
  rw [none, remainingBytes, found, Option.elim_some]
  omega

/-- A put that is admitted where it has room. -/
theorem Balanced.admitted (inv : Balanced sys) (found : sys.calls[index]? = some (.put req, .start))
    (members : pool.members = sys.pool.members) (room : 0 < sys.granted member.volumeID →
      req.sizeBytes.toNat + tally (owed member.volumeID) sys.calls ≤
        remainingBytes sys.pool.members member.volumeID) :
    Balanced { sys with pool := pool, calls := sys.calls.set index (.put req, .inStore member) } := by
  refine ⟨?_, ?_, ?_⟩ <;> simp only [members]
  · exact inv.keyed
  · intro v present given
    have := inv.balance v present given
    have moved := tally_set (due v) found (.put req, .inStore member)
    simp only [due] at moved
    omega
  · intro v present given
    have moved := tally_set (owed v) found (.put req, .inStore member)
    simp only [owed] at moved
    by_cases here : member.volumeID = v
    · subst here
      simp only [if_true] at moved
      omega
    · have := inv.room v present given
      simp only [if_neg here] at moved
      omega

/-- A put that debits its member and returns. -/
theorem Balanced.debited {ref : SegmentRef} {answer : PoolAnswer} (inv : Balanced sys)
    (found : sys.calls[index]? = some (.put req, .debiting member ref)) :
    Balanced { sys with
      pool := sys.pool.debitAvailable member.volumeID req.sizeBytes
      calls := sys.calls.set index (.put req, .returned answer) } := by
  refine ⟨fun v m stored => ?_, fun v present given => ?_, fun v present given => ?_⟩
  · rw [lookup_debit] at stored
    split at stored
    · obtain ⟨m', old, rfl⟩ := Option.map_eq_some_iff.mp stored
      exact inv.keyed v m' old
    · exact inv.keyed v m stored
  · have balance := inv.balance v (mem_debit.mp present) given
    have room := inv.room v (mem_debit.mp present) given
    have moved := tally_set (due v) found (.put req, .returned answer)
    have owing := le_tally (owed v) found
    simp only [due, owed] at moved owing
    rw [remainingBytes_debit]
    by_cases here : member.volumeID = v
    · simp only [here, if_true] at moved owing ⊢
      omega
    · simp only [if_neg here, if_neg (Ne.symm here)] at moved owing ⊢
      omega
  · have room := inv.room v (mem_debit.mp present) given
    have moved := tally_set (owed v) found (.put req, .returned answer)
    simp only [owed] at moved
    rw [remainingBytes_debit]
    by_cases here : member.volumeID = v
    · simp only [here, if_true] at moved ⊢
      omega
    · simp only [if_neg here, if_neg (Ne.symm here)] at moved ⊢
      omega

theorem Balanced.serve (inv : Balanced sys) (found : sys.calls[index]? = some (request, call))
    (unhurried : Unhurried sys (request, call)) :
    Balanced { sys with
      pool := (call.serve request sys.pool).1
      calls := sys.calls.set index (request, (call.serve request sys.pool).2) } := by
  cases call with
  | start =>
    cases request with
    | put req =>
      have members := nextWritableMember_members sys.pool req.sizeBytes
      have room : ∀ member, (sys.pool.nextWritableMember req.sizeBytes).1 = .ok member → _ :=
        fun member ran => inv.has_room unhurried ran
      simp only [PoolCall.serve]
      generalize sys.pool.nextWritableMember req.sizeBytes = admission at members room ⊢
      rcases admission with ⟨e | member, pool⟩
      · exact inv.of_same found members (fun _ => le_rfl) fun _ => rfl
      · exact inv.admitted found members (room member rfl)
    | get ref off length =>
      simp only [PoolCall.serve]
      split <;> exact inv.of_same found rfl (fun _ => le_rfl) fun _ => rfl
    | delete ref reason =>
      simp only [PoolCall.serve]
      split <;> exact inv.of_same found rfl (fun _ => le_rfl) fun _ => rfl
  | inStore member => exact inv.of_same found rfl (fun _ => le_rfl) fun _ => rfl
  | debiting member ref =>
    cases request with
    | put req => exact inv.debited found
    | get _ _ _ => exact inv.of_same found rfl (fun _ => le_rfl) fun _ => rfl
    | delete _ _ => exact inv.of_same found rfl (fun _ => le_rfl) fun _ => rfl
  | returned answer => exact inv.of_same found rfl (fun _ => le_rfl) fun _ => rfl

/-- A write that has succeeded, with no more bytes than declared. -/
theorem Balanced.wrote {ref : SegmentRef} (inv : Balanced sys)
    (found : sys.calls[index]? = some (.put req, .inStore member))
    (declared : ref.sizeBytes ≤ req.sizeBytes) :
    Balanced { sys with
      calls := sys.calls.set index (.put req, .debiting member ref)
      written := fun v => sys.written v +
        if member.volumeID = v then ref.sizeBytes.toNat else 0 } := by
  have declared := UInt64.le_iff_toNat_le.mp declared
  refine ⟨inv.keyed, fun v present given => ?_, fun v present given => ?_⟩
  · have := inv.balance v present given
    have moved := tally_set (due v) found (.put req, .debiting member ref)
    simp only [due] at moved
    by_cases here : member.volumeID = v
    · simp only [if_pos here] at moved ⊢
      omega
    · simp only [if_neg here] at moved ⊢
      omega
  · have := inv.room v present given
    have moved := tally_set (owed v) found (.put req, .debiting member ref)
    simp only [owed] at moved
    simp only
    omega

theorem Balanced.answered {answer : PoolAnswer} (inv : Balanced sys)
    (found : sys.calls[index]? = some (request, call))
    (declared : AsDeclared (request, call) answer) :
    Balanced { sys with
      calls := sys.calls.set index (request, call.answer request answer)
      written := fun v => sys.written v + writtenBy (request, call) answer v } := by
  cases call with
  | inStore member =>
    cases request with
    | put req =>
      rcases answer with (e | ref) | _ | _
      · refine inv.of_same found rfl (fun v => ?_) fun _ => rfl
        exact Nat.zero_le _
      · exact inv.wrote found declared
      · exact inv.of_same found rfl (fun _ => le_rfl) fun _ => rfl
      · exact inv.of_same found rfl (fun _ => le_rfl) fun _ => rfl
    | get _ _ _ =>
      cases answer <;> exact inv.of_same found rfl (fun _ => le_rfl) fun _ => rfl
    | delete _ _ =>
      cases answer <;> exact inv.of_same found rfl (fun _ => le_rfl) fun _ => rfl
  | start => cases request <;> exact inv.of_same found rfl (fun _ => le_rfl) fun _ => rfl
  | debiting _ _ => cases request <;> exact inv.of_same found rfl (fun _ => le_rfl) fun _ => rfl
  | returned _ => cases request <;> exact inv.of_same found rfl (fun _ => le_rfl) fun _ => rfl

/-! ## Configured and observed bytes -/

/-- Members are filed under their own volume. -/
def Keyed (members : PoolMembers) : Prop :=
  ∀ volumeID member, members.lookup volumeID = some member → member.volumeID = volumeID

theorem Keyed.insert {members : PoolMembers} (keyed : Keyed members) (member : PoolMember) :
    Keyed (members.insert member.volumeID member) := by
  intro v m stored
  by_cases here : v = member.volumeID
  · subst here
    rw [AList.lookup_insert] at stored
    cases stored
    rfl
  · rw [AList.lookup_insert_ne here] at stored
    exact keyed v m stored

/-- The weight a member is indexed with. -/
def placementWeight (member : PoolMember) : Nat :=
  (if member.weight = 0 then 1 else member.weight).toNat

/-- What `buildMemberIndex` makes of the members. -/
structure Indexed (members : List PoolMember) (index : PoolMembers × List String) : Prop where
  distinct : (members.map PoolMember.volumeID).Nodup
  order : index.2 = members.flatMap fun m => List.replicate (placementWeight m) m.volumeID
  keyed : Keyed index.1
  weighted : ∀ m ∈ members, 0 < placementWeight m
  stores : ∀ v m, index.1.lookup v = some m →
    ∃ given ∈ members, given.volumeID = v ∧ given.store = m.store
  known : ∀ v, v ∈ index.1 ↔ v ∈ members.map PoolMember.volumeID

theorem Indexed.addMember {index next : PoolMembers × List String} (h : Indexed members index)
    (ran : addMember platform index member = .ok next) : Indexed (members ++ [member]) next := by
  obtain ⟨-, ran⟩ := refuse_eq_ok.mp ran
  obtain ⟨-, ran⟩ := refuse_eq_ok.mp ran
  obtain ⟨absent, ran⟩ := refuse_eq_ok.mp ran
  split at ran
  · cases ran
  next normalized normal =>
  cases ran
  unfold normalizeMember at normal
  split at normal
  · cases normal
  obtain ⟨heavy, normal⟩ := refuse_eq_ok.mp normal
  obtain ⟨-, normal⟩ := refuse_eq_ok.mp normal
  obtain ⟨-, normal⟩ := refuse_eq_ok.mp normal
  have weighted : 0 < placementWeight member := by
    unfold placementWeight
    split at heavy <;> simp_all
    omega
  obtain ⟨volume, store, weight⟩ : normalized.volumeID = member.volumeID ∧
      normalized.store = member.store ∧ normalized.weight.toNat = placementWeight member := by
    cases normal
    exact ⟨rfl, rfl, rfl⟩
  have new : member.volumeID ∉ index.1 := by
    rw [← AList.lookup_isSome]
    exact absent
  rw [volume, weight]
  have keyed := h.keyed.insert normalized
  rw [volume] at keyed
  refine ⟨?_, by simp [h.order], keyed, fun m inside => ?_, fun v m stored => ?_, fun v => ?_⟩
  · rw [List.map_append, List.nodup_append]
    refine ⟨h.distinct, by simp, fun v old w last same => new ?_⟩
    rw [h.known, ← List.mem_singleton.mp last, ← same]
    exact old
  · rcases List.mem_append.mp inside with old | last
    · exact h.weighted m old
    · rwa [List.mem_singleton.mp last]
  · by_cases here : v = member.volumeID
    · subst here
      rw [AList.lookup_insert] at stored
      cases stored
      exact ⟨member, by simp, rfl, store.symm⟩
    · rw [AList.lookup_insert_ne here] at stored
      obtain ⟨given, inside, same⟩ := h.stores v m stored
      exact ⟨given, by simp [inside], same⟩
  · rw [AList.mem_insert, h.known]
    simp [or_comm]

theorem buildMemberIndex_ok {index : PoolMembers × List String}
    (ran : buildMemberIndex platform members = .ok index) : Indexed members index := by
  obtain ⟨-, ran⟩ := refuse_eq_ok.mp ran
  have loop : ∀ members done before, Indexed done before →
      members.foldlM (Source.addMember platform) before = .ok index →
        Indexed (done ++ members) index := by
    intro members
    induction members with
    | nil =>
      intro done before h ok
      cases ok
      simpa using h
    | cons member members ih =>
      intro done before h ok
      obtain ⟨middle, first, rest⟩ := bind_eq_ok.mp ok
      simpa using ih _ _ (h.addMember first) rest
  refine loop members [] _ ⟨List.nodup_nil, rfl, ?_, by simp, ?_, by simp⟩ ran
  · intro v m stored
    cases stored
  · intro v m stored
    cases stored

theorem newPool_ok (opened : newPool platform members = .ok pool) :
    Indexed members (pool.members, pool.order) := by
  unfold newPool at opened
  cases built : buildMemberIndex platform members with
  | error e => rw [built] at opened; cases opened
  | ok index =>
    rw [built] at opened
    cases opened
    exact buildMemberIndex_ok built

/-- Fresh grants that cover the puts in flight. -/
theorem Balanced.granted {calls : List (PoolRequest × PoolCall)} (keyed : Keyed pool.members)
    (covers : ∀ v ∈ pool.members, 0 < remainingBytes pool.members v →
      tally (owed v) calls ≤ remainingBytes pool.members v) :
    Balanced { pool := pool, calls := calls, granted := remainingBytes pool.members
               written := fun _ => 0 } :=
  ⟨keyed, fun v _ _ => by simp only; omega, covers⟩

theorem Balanced.updateMembers {index : PoolMembers × List String}
    (built : buildMemberIndex platform members = .ok index)
    (updated : sys.pool.updateMembers platform members = .ok pool)
    (covers : ∀ v ∈ index.1.keys, Covers sys v (remainingBytes index.1 v)) :
    Balanced { sys with
      pool := pool, granted := remainingBytes pool.members, written := fun _ => 0 } := by
  rw [PoolStore.updateMembers, built] at updated
  cases updated
  exact Balanced.granted (buildMemberIndex_ok built).keyed fun v present =>
    covers v (AList.mem_keys.mp present)

/-- One observation. -/
theorem Balanced.observe (inv : Balanced sys) (observation : MemberObservation)
    (covers : ∀ available ∈ observation.availableBytes,
      Covers sys (trimSpace observation.volumeID) available.toNat) :
    Balanced (sys.observe observation) := by
  unfold PoolSystem.observe PoolStore.observe
  cases found : sys.pool.members.lookup (trimSpace observation.volumeID) with
  | none => exact inv
  | some member =>
    have here := inv.keyed _ _ found
    have keyed : Keyed (sys.pool.members.insert member.volumeID (member.observed observation)) :=
      Keyed.insert inv.keyed (member.observed observation)
    have others : ∀ v ≠ member.volumeID,
        remainingBytes (sys.pool.members.insert member.volumeID (member.observed observation)) v =
          remainingBytes sys.pool.members v := by
      intro v other
      rw [remainingBytes, AList.lookup_insert_ne other, remainingBytes]
    have itself :
        remainingBytes (sys.pool.members.insert member.volumeID (member.observed observation))
          member.volumeID = (observation.availableBytes.getD member.availableBytes).toNat := by
      rw [remainingBytes, AList.lookup_insert, Option.elim_some, PoolMember.observed]
    have before : ∀ v, v ∈ sys.pool.members.insert member.volumeID (member.observed observation) →
        v ∈ sys.pool.members := by
      intro v present
      rcases (AList.mem_insert _).mp present with rfl | old
      · rw [here]
        exact AList.lookup_isSome.mp (by simp [found])
      · exact old
    cases given : observation.availableBytes with
    | none =>
      have same : remainingBytes
          (sys.pool.members.insert member.volumeID (member.observed observation)) =
            remainingBytes sys.pool.members := by
        funext v
        by_cases other : v = member.volumeID
        · rw [other, itself, given, Option.getD_none, remainingBytes, here, found,
            Option.elim_some]
        · exact others v other
      refine ⟨keyed, fun v present => ?_, fun v present => ?_⟩ <;> simp only [same]
      · exact inv.balance v (before v present)
      · exact inv.room v (before v present)
    | some available =>
      have room := covers available (by simp [given])
      rw [← here] at room
      rw [given, Option.getD_some] at itself
      refine ⟨keyed, fun v present positive => ?_, fun v present positive => ?_⟩
      · by_cases other : v = member.volumeID
        · subst other
          simp only [Function.update_self, itself]
          omega
        · simp only [Function.update_of_ne other, others v other] at positive ⊢
          exact inv.balance v (before v present) positive
      · by_cases other : v = member.volumeID
        · subst other
          simp only [Function.update_self, itself] at positive ⊢
          exact room positive
        · simp only [Function.update_of_ne other, others v other] at positive ⊢
          exact inv.room v (before v present) positive

theorem observe_calls (sys : PoolSystem) (observation : MemberObservation) :
    (sys.observe observation).calls = sys.calls := by
  unfold PoolSystem.observe
  split <;> rfl

theorem Balanced.observed {observations : List MemberObservation} (inv : Balanced sys)
    (covers : ∀ observation ∈ observations, ∀ available ∈ observation.availableBytes,
      Covers sys (trimSpace observation.volumeID) available.toNat) :
    Balanced (observations.foldl PoolSystem.observe sys) := by
  induction observations generalizing sys with
  | nil => exact inv
  | cons observation observations ih =>
    refine ih (inv.observe observation (covers observation List.mem_cons_self)) ?_
    intro later member available given
    rw [Covers, observe_calls]
    exact covers later (List.mem_cons_of_mem _ member) available given

theorem Balanced.step {event : PoolEvent} (inv : Balanced sys) (fits : Fits platform sys event) :
    Balanced (sys.step platform event) := by
  cases event with
  | serve index =>
    cases found : sys.calls[index]? with
    | none => simpa only [PoolSystem.step, found] using inv
    | some c =>
      simp only [PoolSystem.step, found]
      exact inv.serve found (fits c found)
  | answered index answer =>
    cases found : sys.calls[index]? with
    | none => simpa only [PoolSystem.step, found] using inv
    | some c =>
      simp only [PoolSystem.step, found]
      exact inv.answered found (fits c found)
  | updateMembers members =>
    cases updated : sys.pool.updateMembers platform members with
    | error e => simpa only [PoolSystem.step, updated] using inv
    | ok pool =>
      simp only [PoolSystem.step, updated]
      cases built : buildMemberIndex platform members with
      | error e => rw [PoolStore.updateMembers, built] at updated; cases updated
      | ok index => exact Balanced.updateMembers built updated (fits index (by rw [built]; rfl))
  | observed observations => exact inv.observed fits

end

/-- In every run of a pool in which puts on a member do not overlap and use up no member, and
stores write what was declared, no member takes more than it was last said to have. -/
theorem pool_within_grants (platform : Platform) (members : List PoolMember) (pool : PoolStore)
    (opened : newPool platform members = .ok pool) (requests : List PoolRequest)
    (events : List PoolEvent)
    (fits : Throughout (PoolSystem.step platform) (Fits platform) (.begin pool requests) events) :
    WithinGrants (events.foldl (PoolSystem.step platform) (.begin pool requests)) := by
  have start : Balanced (.begin pool requests) :=
    Balanced.granted (newPool_ok opened).keyed fun v _ _ => by
      -- requests that have not begun owe nothing
      refine (tally_eq_zero fun c member => ?_).le.trans (Nat.zero_le _)
      obtain ⟨request, -, rfl⟩ := List.mem_map.mp member
      cases request <;> rfl
  have reached : Balanced (events.foldl (PoolSystem.step platform) (.begin pool requests)) :=
    fits.invariant start fun _ _ inv meets => inv.step meets
  exact reached.withinGrants

/-! ## Two puts -/

instance (sys : PoolSystem) : DecidablePred (Unhurried sys)
  | (.put _, .start) => inferInstanceAs (Decidable (∀ volumeID ∈ _, ∀ member ∈ _, _ → _ → _))
  | (.put _, .inStore _) | (.put _, .debiting _ _) | (.put _, .returned _)
  | (.get _ _ _, _) | (.delete _ _, _) => inferInstanceAs (Decidable True)

instance : DecidableRel AsDeclared
  | (.put _, .inStore _), .put (.ok _) => inferInstanceAs (Decidable (_ ≤ _))
  | (.put _, .inStore _), .put (.error _) | (.put _, .inStore _), .get _
  | (.put _, .inStore _), .delete _ | (.put _, .start), _ | (.put _, .debiting _ _), _
  | (.put _, .returned _), _ | (.get _ _ _, _), _ | (.delete _ _, _), _ =>
    inferInstanceAs (Decidable True)

instance (platform : Platform) (sys : PoolSystem) (event : PoolEvent) :
    Decidable (Fits platform sys event) := by
  cases event
  case observed observations =>
    exact @List.decidableBAll _ _ (fun _ => Option.decidableForallMem _) observations
  all_goals
    dsimp only [Fits]
    infer_instance

/-- One member with some bytes available. -/
def oneMember (availableBytes : UInt64) : List PoolMember :=
  [{ volumeID := "v1", store := some 1, availableBytes := availableBytes }]

def openedPool (availableBytes : UInt64) : PoolStore :=
  (newPool plainPlatform (oneMember availableBytes)).toOption.getD { members := ∅, order := [] }

/-- A put of four bytes. -/
def fourBytes : PoolRequest :=
  .put { reader := [1, 2, 3, 4], sizeBytes := 4, storageClass := { storageClassID := "STANDARD" } }

/-- Both puts are admitted before either debits. -/
def putsSideBySide : List PoolEvent :=
  [.serve 0, .serve 1, .answered 0 (.put (.ok { segmentID := "s1", sizeBytes := 4 })),
   .answered 1 (.put (.ok { segmentID := "s2", sizeBytes := 4 })), .serve 0, .serve 1]

/-- The second put begins when the first has returned. -/
def putsInTurn : List PoolEvent :=
  [.serve 0, .answered 0 (.put (.ok { segmentID := "s1", sizeBytes := 4 })), .serve 0,
   .serve 1, .answered 1 (.put (.ok { segmentID := "s2", sizeBytes := 4 })), .serve 1]

/-- Three puts in turn: the third finds one byte left and is refused. -/
def thirdPutRefused : List PoolEvent := putsInTurn ++ [.serve 2]

theorem puts_in_turn_within :
    Throughout (PoolSystem.step plainPlatform) (Fits plainPlatform)
        (.begin (openedPool 9) [fourBytes, fourBytes, fourBytes]) thirdPutRefused ∧
      WithinGrants (thirdPutRefused.foldl (PoolSystem.step plainPlatform)
        (.begin (openedPool 9) [fourBytes, fourBytes, fourBytes])) := by
  have fits : Throughout (PoolSystem.step plainPlatform) (Fits plainPlatform)
      (.begin (openedPool 9) [fourBytes, fourBytes, fourBytes]) thirdPutRefused := by
    decide +kernel
  exact ⟨fits, pool_within_grants plainPlatform (oneMember 9) (openedPool 9) rfl
    [fourBytes, fourBytes, fourBytes] thirdPutRefused fits⟩

/-- The first put uses up the four bytes; the 0 that is left admits the second one. Side by
side, two puts of four bytes are both admitted to six. -/
theorem used_up_member_takes_more :
    let sys := putsInTurn.foldl (PoolSystem.step plainPlatform)
      (.begin (openedPool 4) [fourBytes, fourBytes])
    let overlapping := putsSideBySide.foldl (PoolSystem.step plainPlatform)
      (.begin (openedPool 6) [fourBytes, fourBytes])
    newPool plainPlatform (oneMember 4) = .ok (openedPool 4) ∧
      (overlapping.granted "v1" = 6 ∧ overlapping.written "v1" = 8) ∧
      sys.granted "v1" = 4 ∧ sys.written "v1" = 8 ∧ ¬ WithinGrants sys := by
  intro sys overlapping
  have granted : sys.granted "v1" = 4 := by decide +kernel
  have written : sys.written "v1" = 8 := by decide +kernel
  refine ⟨rfl, by decide +kernel, granted, written, fun within => ?_⟩
  have present : (sys.pool.members.lookup "v1").isSome := by decide +kernel
  obtain ⟨member, found⟩ := Option.isSome_iff_exists.mp present
  have bounded := within "v1" member found (by omega)
  omega

end Namros.Guarantees
