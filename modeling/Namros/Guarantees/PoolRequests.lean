import Namros.Guarantees.PoolSystem

/-!
# Requests of a volume pool between refreshes

A request enters the store of a member that the pool has when it begins, and leaves it with its
answer or to a reader. No request changes which stores the pool's members have.
-/

namespace Namros.Guarantees

open Library Source

variable {platform : Platform} {sys : RuntimeSystem} {index n : Nat} {pool pool' : PoolStore}
  {volumeID : String} {sizeBytes : UInt64} {observations : List MemberObservation}

theorem PoolHas.debit (has : PoolHas (pool.debitAvailable volumeID sizeBytes) n) :
    PoolHas pool n := by
  obtain ⟨v, member, found, store⟩ := has
  rw [lookup_debit] at found
  split at found
  · obtain ⟨before, old, rfl⟩ := Option.map_eq_some_iff.mp found
    exact ⟨v, before, old, store⟩
  · exact ⟨v, member, found, store⟩

theorem PoolHas.observe {observation : MemberObservation}
    (has : PoolHas (pool.observe observation) n) : PoolHas pool n := by
  obtain ⟨v, member, found, store⟩ := has
  unfold PoolStore.observe at found
  split at found
  · exact ⟨v, member, found, store⟩
  · next before old =>
    by_cases here : v = before.volumeID
    · subst here
      rw [AList.lookup_insert] at found
      cases found
      exact ⟨_, before, old, store⟩
    · rw [AList.lookup_insert_ne here] at found
      exact ⟨v, member, found, store⟩

theorem PoolHas.observed (has : PoolHas (pool.updateMemberObservations observations) n) :
    PoolHas pool n := by
  induction observations generalizing pool with
  | nil => exact has
  | cons observation observations ih => exact (ih has).observe

/-- A member that may be missing, as Go's maps have it. -/
theorem PoolHas.of_getD (store : ((pool.members.lookup volumeID).getD {}).store = some n) :
    PoolHas pool n := by
  cases found : pool.members.lookup volumeID with
  | none => simp [found] at store
  | some member =>
    rw [found] at store
    exact ⟨volumeID, member, found, store⟩

theorem nextWritableMember_store {member : PoolMember}
    (admitted : pool.nextWritableMember sizeBytes = (.ok member, pool'))
    (store : member.store = some n) : PoolHas pool n := by
  unfold PoolStore.nextWritableMember at admitted
  dsimp only at admitted
  split at admitted
  · cases admitted
    exact .of_getD store
  · cases admitted

theorem memberForRef_store {ref : SegmentRef} {member : PoolMember}
    (found : pool.memberForRef ref = .ok member) (store : member.store = some n) :
    PoolHas pool n := by
  unfold PoolStore.memberForRef at found
  dsimp only at found
  split at found
  · cases found
    exact .of_getD store
  split at found
  · cases found
  · next known =>
    cases found
    exact ⟨_, _, known, store⟩

/-- What a request's next step in the pool does: it changes no member's store, and enters a
store only from its start. -/
theorem serve_stores (pool : PoolStore) (request : PoolRequest) (call : PoolCall) :
    (∀ n, PoolHas (call.serve request pool).1 n → PoolHas pool n) ∧
      ∀ n ∈ storeHeld (call.serve request pool).2,
        n ∈ storeHeld call ∨ call = .start ∧ PoolHas pool n := by
  cases call with
  | start =>
    cases request with
    | put req =>
      simp only [PoolCall.serve]
      have members := nextWritableMember_members pool req.sizeBytes
      cases admission : pool.nextWritableMember req.sizeBytes with
      | mk answer pool' =>
        rw [admission] at members
        have same : ∀ n, PoolHas pool' n → PoolHas pool n := by
          intro n has
          unfold PoolHas at has ⊢
          rw [← members]
          exact has
        cases answer with
        | error e => exact ⟨same, fun n held => by cases held⟩
        | ok member =>
          exact ⟨same, fun n held => .inr ⟨trivial, nextWritableMember_store admission held⟩⟩
    | get ref off length =>
      simp only [PoolCall.serve]
      cases found : pool.memberForRef ref with
      | error e => exact ⟨fun _ has => has, fun n held => by cases held⟩
      | ok member =>
        exact ⟨fun _ has => has, fun n held => .inr ⟨trivial, memberForRef_store found held⟩⟩
    | delete ref reason =>
      simp only [PoolCall.serve]
      cases found : pool.memberForRef ref with
      | error e => exact ⟨fun _ has => has, fun n held => by cases held⟩
      | ok member =>
        exact ⟨fun _ has => has, fun n held => .inr ⟨trivial, memberForRef_store found held⟩⟩
  | inStore member => exact ⟨fun _ has => has, fun n held => .inl held⟩
  | debiting member ref =>
    cases request with
    | put req => exact ⟨fun n has => has.debit, fun n held => by cases held⟩
    | get _ _ _ => exact ⟨fun _ has => has, fun n held => .inl held⟩
    | delete _ _ => exact ⟨fun _ has => has, fun n held => .inl held⟩
  | returned answer => exact ⟨fun _ has => has, fun n held => .inl held⟩

/-- A step of the pool store's calls. -/
theorem RuntimeSound.requested (sound : RuntimeSound sys) (pool : PoolStore)
    {requests : List (PoolRequest × PoolCall)} {readers : List Nat}
    (members : ∀ n, PoolHas pool n → PoolHas sys.runtime.store n)
    (used : ∀ n ∈ requests.filterMap (fun c => storeHeld c.2) ++ readers,
      n ∈ sys.inUse ∨ PoolHas sys.runtime.store n ∧ Reported sys ∧ Running sys) :
    RuntimeSound { sys with
      runtime := { sys.runtime with store := pool }, requests := requests, readers := readers } := by
  refine { sound with pool := fun n has => sound.pool n (members n has), inUse := ?_ }
  intro n member
  rcases used n member with old | ⟨has, reported, running⟩
  · exact sound.inUse n old
  · exact ⟨(sound.pool n has).2 reported running, reported, running⟩

theorem mem_inUse {n : Nat} : n ∈ sys.inUse ↔
    (∃ c ∈ sys.requests, storeHeld c.2 = some n) ∨ n ∈ sys.readers := by
  simp [RuntimeSystem.inUse]

theorem inUse_of_set {c : PoolRequest × PoolCall}
    (used : n ∈ (sys.requests.set index c).filterMap fun c => storeHeld c.2) :
    n ∈ sys.inUse ∨ n ∈ storeHeld c.2 := by
  obtain ⟨other, member, here⟩ := List.mem_filterMap.mp used
  rcases List.mem_or_eq_of_mem_set member with old | rfl
  · exact .inl (mem_inUse.mpr (.inl ⟨other, old, here⟩))
  · exact .inr here

theorem RuntimeSound.serve (sound : RuntimeSound sys)
    (orderly : ∀ c ∈ sys.requests[index]?, RequestOrderly sys c.2) :
    RuntimeSound (sys.step platform (.serve index)) := by
  simp only [RuntimeSystem.step]
  split
  · exact sound
  · next request call found =>
    obtain ⟨members, held⟩ := serve_stores sys.runtime.store request call
    refine sound.requested _ members fun n used => ?_
    rcases List.mem_append.mp used with inStore | read
    · rcases inUse_of_set inStore with old | here
      · exact .inl old
      rcases held n here with before | ⟨rfl, has⟩
      · exact .inl (mem_inUse.mpr (.inl ⟨_, List.mem_of_getElem? found, before⟩))
      · exact .inr ⟨has, orderly _ found⟩
    · exact .inl (mem_inUse.mpr (.inr read))

/-- An answer of a store releases it, or leaves it to a reader. -/
theorem storeHeld_answer (request : PoolRequest) (call : PoolCall) (answer : PoolAnswer) :
    ∀ n ∈ storeHeld (call.answer request answer), n ∈ storeHeld call := by
  intro n held
  cases call with
  | inStore member =>
    cases request <;> rcases answer with (_ | _) | _ | _ <;> first | exact held | cases held
  | _ => exact held

theorem readerOf_held {c : PoolRequest × PoolCall} {answer : PoolAnswer} :
    ∀ n ∈ readerOf c answer, n ∈ storeHeld c.2 := by
  intro n read
  unfold readerOf at read
  split at read
  · exact read
  · cases read

theorem RuntimeSound.answered (sound : RuntimeSound sys) {answer : PoolAnswer} :
    RuntimeSound (sys.step platform (.answered index answer)) := by
  simp only [RuntimeSystem.step]
  split
  · exact sound
  · next request call found =>
    refine sound.requested sys.runtime.store (fun _ has => has) fun n used => .inl ?_
    have itself (held : n ∈ storeHeld call) : n ∈ sys.inUse :=
      mem_inUse.mpr (.inl ⟨_, List.mem_of_getElem? found, held⟩)
    rcases List.mem_append.mp used with inStore | read
    · rcases inUse_of_set inStore with old | here
      · exact old
      · exact itself (storeHeld_answer request call answer n here)
    · rcases List.mem_append.mp read with new | old
      · exact itself (readerOf_held n (Option.mem_toList.mp new))
      · exact mem_inUse.mpr (.inr old)

theorem RuntimeSound.closeReader (sound : RuntimeSound sys) :
    RuntimeSound (sys.step platform (.closeReader index)) := by
  refine sound.requested sys.runtime.store (fun _ has => has) fun n used => .inl ?_
  rcases List.mem_append.mp used with inStore | read
  · exact List.mem_append_left _ inStore
  · exact List.mem_append_right _ (List.mem_of_mem_eraseIdx read)

theorem RuntimeSound.observed (sound : RuntimeSound sys) {sourceAuthority : String} :
    RuntimeSound (sys.step platform (.observed now sourceAuthority observations)) :=
  { sound with pool := fun n has => sound.pool n has.observed }

end Namros.Guarantees
