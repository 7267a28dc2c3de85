import Namros.Source.LocalStore

/-!
# Erasure-coded segments

A segment that was put in shards is read back from any data-shard-many of them. The read clips a
range at the end of the payload, but compares `off+length` in 64 bits: where that wraps around,
the slice ends before it starts and the read panics. Every other read returns exactly the range.
-/

namespace Namros.Guarantees

open Library Source

/-! ## The encoder -/

/-- An encoder of `d` data and `p` parity shards: encoding keeps the data shards and the length of
every shard, any `d` shards give back all of them, and joining concatenates the data shards. -/
structure LawfulEncoder (d p : Nat) (encoder : ShardEncoder) : Prop where
  encodes : ∀ {shards coded}, encoder.encode shards = .ok coded →
    coded.take d = shards.take d ∧ coded.map List.length = shards.map List.length
  reconstructs : ∀ {shards coded kept}, encoder.encode shards = .ok coded →
    kept.length = coded.length → (∀ i : Nat, kept[i]? = some [] ∨ kept[i]? = coded[i]?) →
    d ≤ kept.countP (· ≠ []) → encoder.reconstruct kept = .ok coded
  joins : ∀ {shards : List (List UInt8)} {size : Nat}, (∀ shard ∈ shards, shard ≠ []) →
    d ≤ shards.length → size ≤ (shards.take d).flatten.length →
    encoder.join shards size = .ok ((shards.take d).flatten.take size)

def LawfulEncoders (newEncoder : NewEncoder) : Prop :=
  ∀ {d p encoder}, newEncoder d p = .ok encoder → LawfulEncoder d p encoder

/-! ## Shards of a payload -/

section

variable {req : PutSegmentRequest} {shardSize : Nat}

/-- The data shards hold the payload in order, padded with zeros. -/
theorem readDataShards_ok {first count : Nat} {reader rest : List UInt8}
    {shards : List (List UInt8)} (left : reader.length = req.sizeBytes.toNat - first * shardSize)
    (read : readDataShards req shardSize (List.range' first count) reader = .ok (shards, rest)) :
    shards.length = count ∧ (∀ shard ∈ shards, shard.length = shardSize) ∧
      (rest = [] → ∃ zeros, shards.flatten = reader ++ List.replicate zeros 0) := by
  induction count generalizing first reader shards rest with
  | zero =>
    cases read
    exact ⟨rfl, by simp, fun empty => ⟨0, by simp [empty]⟩⟩
  | succ count ih =>
    have taken : (if first * shardSize < req.sizeBytes.toNat then
        min shardSize (req.sizeBytes.toNat - first * shardSize) else 0) =
          min shardSize reader.length := by
      split <;> omega
    rw [List.range'_succ, readDataShards] at read
    simp only [taken] at read
    rw [if_neg (by omega)] at read
    cases later : readDataShards req shardSize (List.range' (first + 1) count)
        (reader.drop (min shardSize reader.length)) with
    | error e =>
      rw [later] at read
      cases read
    | ok result =>
      rw [later] at read
      cases read
      obtain ⟨counted, sized, flat⟩ := ih
        (by rw [List.length_drop, Nat.add_mul, Nat.one_mul]; omega) later
      refine ⟨by simp [counted], ?_, fun ended => ?_⟩
      · intro shard member
        rcases List.mem_cons.mp member with rfl | old
        · simp
        · exact sized shard old
      · obtain ⟨zeros, flat⟩ := flat ended
        rw [List.flatten_cons, flat]
        rcases Nat.le_total shardSize reader.length with whole | short
        · refine ⟨zeros, ?_⟩
          rw [Nat.min_eq_left whole, Nat.sub_self, List.replicate_zero, List.append_nil,
            ← List.append_assoc, List.take_append_drop]
        · refine ⟨shardSize - reader.length + zeros, ?_⟩
          rw [Nat.min_eq_right short, List.take_length, List.drop_length, List.nil_append,
            List.append_assoc, List.replicate_append_replicate]

theorem intParam_le (params : StringMap) (key : String) : intParam params key < 2 ^ 63 := by
  unfold intParam
  dsimp only
  split_ifs <;> omega

theorem intParam_toString {params : StringMap} {key : String} {n : Nat} (small : n < 2 ^ 63)
    (found : params.lookup key = some (toString n)) : intParam params key = n := by
  have digits : ∀ c ∈ Nat.toDigits 10 n, c.isDigit = true :=
    fun c member => Nat.isDigit_of_mem_toDigits (by decide) (by decide) member
  have unsigned {c : Char} (sign : c.isDigit = false) : (Nat.toDigits 10 n).head? ≠ some c := by
    intro first
    rw [digits c (List.mem_of_head? first)] at sign
    cases sign
  have minus := unsigned (c := '-') (by decide)
  have plus := unsigned (c := '+') (by decide)
  simp only [intParam, found, Option.getD_some, toString_toList, minus, plus, false_or, if_false]
  rw [if_neg (by simpa [Nat.toDigits_ne_nil] using digits), Nat.ofDigitChars_ten_toDigits]
  omega

/-- The reference of a segment names the shards it was put in. -/
theorem ecShardConfigFromRef_ecSegmentRef {d p : Nat} {segmentID digestHex : String} {now : Time}
    {size : UInt64} (config : ecShardConfig req.storageClass = .ok (d, p)) :
    ecShardConfigFromRef (ecSegmentRef req segmentID digestHex now d p size) = .ok (d, p) := by
  unfold ecShardConfig at config
  dsimp only at config
  obtain ⟨positive, config⟩ := refuse_eq_ok.mp config
  cases config
  have dataBound := intParam_le req.storageClass.parameters "data_shards"
  have parityBound := intParam_le req.storageClass.parameters "parity_shards"
  generalize intParam req.storageClass.parameters "data_shards" = d at *
  generalize intParam req.storageClass.parameters "parity_shards" = p at *
  have placed (key : String) (n : Nat) (small : n < 2 ^ 63)
      (found : (ecSegmentRef req segmentID digestHex now d.toNat p.toNat
        size).placement.parameters.lookup key = some (toString n)) :=
    intParam_toString small found
  have dataPlaced := placed "data_shards" d.toNat (by omega) rfl
  have parityPlaced := placed "parity_shards" p.toNat (by omega) rfl
  unfold ecShardConfigFromRef
  simp only [dataPlaced, parityPlaced]
  rw [if_neg (by omega), if_neg (by omega), if_neg (by omega), Int.toNat_natCast,
    Int.toNat_natCast]

/-- What a successful put has written. -/
structure ShardsWritten (newEncoder : NewEncoder) (req : PutSegmentRequest) (ref : SegmentRef)
    (coded : List (List UInt8)) (d p : Nat) (encoder : ShardEncoder) (shards : List (List UInt8)) :
    Prop where
  layout : ref.placement.layout = ecLayout
  config : ecShardConfigFromRef ref = .ok (d, p)
  created : newEncoder d p = .ok encoder
  encoded : encoder.encode shards = .ok coded
  count : shards.length = d + p
  nonempty : ∀ shard ∈ shards, shard ≠ []
  payload : ∃ zeros, (shards.take d).flatten = req.reader ++ List.replicate zeros 0
  size : ref.sizeBytes = req.sizeBytes
  small : req.reader.length < 2 ^ 63

theorem putECSegment_ok {platform : Platform} {newEncoder : NewEncoder}
    {contextError : Option ContextError} {segmentID : String} {now : Time} {ref : SegmentRef}
    {coded : List (List UInt8)} (declared : req.sizeBytes.toNat = req.reader.length)
    (put : putECSegment platform newEncoder contextError segmentID now req = .ok (ref, coded)) :
    ∃ d p encoder shards, ecShardConfig req.storageClass = .ok (d, p) ∧
      ShardsWritten newEncoder req ref coded d p encoder shards := by
  unfold putECSegment at put
  split at put
  · cases put
  split at put
  · obtain ⟨_, -, impossible⟩ := bind_eq_ok.mp put
    cases impossible
  split at put
  · cases put
  next small =>
  obtain ⟨⟨d, p⟩, config, put⟩ := bind_eq_ok.mp put
  obtain ⟨encoder, created, put⟩ := bind_eq_ok.mp put
  have created := mapError_ok created
  dsimp only at put
  generalize width : (max 1 (ceilDivInt req.sizeBytes.toNat d)).toNat = shardSize at put
  have wide : 0 < shardSize := by omega
  obtain ⟨⟨shards, rest⟩, read, put⟩ := bind_eq_ok.mp put
  obtain ⟨_, ended, put⟩ := bind_eq_ok.mp put
  obtain ⟨coded, encoded, put⟩ := bind_eq_ok.mp put
  cases put
  rw [List.range_eq_range'] at read
  obtain ⟨counted, sized, flat⟩ := readDataShards_ok (by omega) read
  have ended : rest = [] := by
    unfold ensureEmptyReader at ended
    obtain ⟨empty, ended⟩ := refuse_eq_ok.mp ended
    exact not_not.mp empty
  refine ⟨d, p, encoder, _, config, rfl, ecShardConfigFromRef_ecSegmentRef config, created,
    mapError_ok encoded, by simp [counted], ?_, ?_, rfl, ?_⟩
  · intro shard member
    rcases List.mem_append.mp member with data | parity
    · exact List.ne_nil_of_length_pos (by rw [sized shard data]; exact wide)
    · rw [List.eq_of_mem_replicate parity]
      exact List.ne_nil_of_length_pos (by simpa using wide)
  · rw [List.take_append_of_le_length counted.ge, List.take_of_length_le counted.le]
    exact flat ended
  · have bound : maxInt64Uint.toNat = 2 ^ 63 - 1 := by decide +kernel
    have small := UInt64.le_iff_toNat_le.mp (UInt64.not_lt.mp small)
    omega

end

/-! ## Reading -/

/-- The shard files that are left. -/
def leftShards (coded : List (List UInt8)) (missing : Finset Nat) (i : Nat) :
    Option (List UInt8) :=
  if i ∈ missing then none else coded[i]?

section

variable {newEncoder : NewEncoder} {req : PutSegmentRequest} {ref : SegmentRef}
variable {coded shards : List (List UInt8)} {d p : Nat} {encoder : ShardEncoder}
variable {missing : Finset Nat} {s : LocalStore} {off length : UInt64}

theorem ShardsWritten.coded_shape (lawful : LawfulEncoders newEncoder)
    (written : ShardsWritten newEncoder req ref coded d p encoder shards) :
    coded.take d = shards.take d ∧ coded.length = d + p ∧ ∀ shard ∈ coded, shard ≠ [] := by
  obtain ⟨same, lengths⟩ := (lawful written.created).encodes written.encoded
  refine ⟨same, ?_, fun shard member empty => ?_⟩
  · rw [← written.count]
    simpa using congrArg List.length lengths
  have long := List.mem_map_of_mem (f := List.length) member
  rw [lengths, empty] at long
  obtain ⟨other, inside, none⟩ := List.mem_map.mp long
  exact written.nonempty other inside (List.length_eq_zero_iff.mp none)

theorem countP_notMem_range (missing : Finset Nat) (n : Nat) :
    n ≤ (List.range n).countP (· ∉ missing) + missing.card := by
  have split := List.length_eq_countP_add_countP (· ∉ missing) (l := List.range n)
  have few : (List.range n).countP (· ∈ missing) ≤ missing.card := by
    rw [List.countP_eq_length_filter,
      ← List.toFinset_card_of_nodup (List.nodup_range.filter (· ∈ missing))]
    apply Finset.card_le_card
    intro i member
    simpa using (List.mem_filter.mp (List.mem_toFinset.mp member)).2
  simp only [List.length_range, decide_not, Bool.not_eq_eq_eq_not, Bool.not_true,
    decide_eq_false_iff_not, not_not] at split ⊢
  omega

/-- All shards are reconstructed while no more than the parity shards are missing. -/
theorem ShardsWritten.reconstruct (lawful : LawfulEncoders newEncoder)
    (written : ShardsWritten newEncoder req ref coded d p encoder shards) (few : missing.card ≤ p) :
    encoder.reconstruct
      ((List.range (d + p)).map fun i => (leftShards coded missing i).getD []) = .ok coded := by
  obtain ⟨-, count, nonempty⟩ := written.coded_shape lawful
  refine (lawful written.created).reconstructs written.encoded (by simp [count]) (fun i => ?_) ?_
  · by_cases inside : i < d + p
    · rw [List.getElem?_map, List.getElem?_range inside, Option.map_some, leftShards]
      split
      · exact .inl rfl
      · rw [List.getElem?_eq_getElem (by omega)]
        exact .inr rfl
    · rw [List.getElem?_eq_none (by simpa using inside), List.getElem?_eq_none (by omega)]
      exact .inr rfl
  · have present := countP_notMem_range missing (d + p)
    rw [List.countP_map]
    refine le_trans (by omega : d ≤ (List.range (d + p)).countP (· ∉ missing))
      (List.countP_mono_left fun i member kept => ?_)
    have inside := List.mem_range.mp member
    simp only [decide_eq_true_eq] at kept
    simp [leftShards, kept, List.getElem?_eq_getElem (count ▸ inside),
      nonempty _ (List.getElem_mem _)]

theorem asInt64_eq {x : UInt64} (small : x.toNat < 2 ^ 63) : asInt64 x = x.toNat := by
  unfold asInt64
  rw [Int.bmod_eq_of_le] <;> omega

/-- Without the range, a read of a segment that has lost no more than the parity shards. -/
theorem ShardsWritten.getECSegment_eq (lawful : LawfulEncoders newEncoder)
    (written : ShardsWritten newEncoder req ref coded d p encoder shards)
    (declared : req.sizeBytes.toNat = req.reader.length) (few : missing.card ≤ p)
    (held : s.shards ref.segmentID = some (leftShards coded missing)) :
    s.getECSegment newEncoder none ref off length =
      if req.reader.length < off.toNat then .failed .invalidRange
      else sliceECPayload req.reader off length := by
  obtain ⟨same, count, nonempty⟩ := written.coded_shape lawful
  obtain ⟨zeros, flat⟩ := written.payload
  have joined : encoder.join coded (asInt64 req.sizeBytes) = .ok req.reader := by
    rw [asInt64_eq (declared ▸ written.small), declared, (lawful written.created).joins nonempty (by omega)
      (by rw [same, flat, List.length_append]; omega), same, flat, List.take_left']
    rfl
  unfold LocalStore.getECSegment
  simp only [written.config, written.created, held, written.reconstruct lawful few,
    written.size, joined, gt_iff_lt, UInt64.lt_iff_toNat_lt, declared]

/-- The range of a payload, over the integers; all of the rest for length zero. -/
def exactRange (payload : List UInt8) (off length : UInt64) : SegmentRead :=
  if payload.length < off.toNat then .failed .invalidRange
  else .bytes ((payload.drop off.toNat).take
    (if length = 0 then payload.length else length.toNat))

/-- Slicing is exact unless the end of the range wraps around. -/
theorem sliceECPayload_eq_iff {payload : List UInt8} (small : payload.length < 2 ^ 63)
    (inside : off.toNat ≤ payload.length) :
    sliceECPayload payload off length = .bytes ((payload.drop off.toNat).take
        (if length = 0 then payload.length else length.toNat)) ↔
      off.toNat + length.toNat < 2 ^ 64 := by
  have size : (UInt64.ofNat payload.length).toNat = payload.length :=
    UInt64.toNat_ofNat_of_lt' (show _ < 2 ^ 64 by omega)
  have positive : length > 0 ↔ 0 < length.toNat := UInt64.lt_iff_toNat_lt
  have zero : length = 0 ↔ length.toNat = 0 := by rw [← UInt64.toNat_inj]; rfl
  unfold sliceECPayload
  simp only [UInt64.lt_iff_toNat_lt, positive, zero, apply_ite UInt64.toNat, size, UInt64.toNat_add]
  have whole {m : Nat} (long : payload.length - off.toNat ≤ m) :
      (payload.drop off.toNat).take m = payload.drop off.toNat :=
    List.take_of_length_le (by rw [List.length_drop]; exact long)
  by_cases wraps : off.toNat + length.toNat < 2 ^ 64
  · rw [Nat.mod_eq_of_lt wraps]
    simp only [wraps, iff_true]
    by_cases clipped : 0 < length.toNat ∧ off.toNat + length.toNat < payload.length
    · rw [if_pos clipped, if_neg (by omega), if_neg (by omega), Nat.add_sub_cancel_left]
    · rw [if_neg clipped, if_neg (by omega), whole le_rfl, whole (by split <;> omega)]
  · have bound := length.toNat_lt
    have wrapped : (off.toNat + length.toNat) % 2 ^ 64 = off.toNat + length.toNat - 2 ^ 64 := by
      omega
    have before : 0 < length.toNat ∧ off.toNat + length.toNat - 2 ^ 64 < payload.length := by
      omega
    rw [wrapped, if_pos before, if_pos (by omega)]
    simp only [reduceCtorEq, wraps]

/-- A payload put in shards, of which no more than the parity shards are missing. -/
structure HeldInShards (newEncoder : NewEncoder) (req : PutSegmentRequest) (missing : Finset Nat)
    (ref : SegmentRef) (s : LocalStore) : Prop where
  declared : req.sizeBytes.toNat = req.reader.length
  put : ∃ platform segmentID now coded,
    putECSegment platform newEncoder none segmentID now req = .ok (ref, coded) ∧
      s.shards ref.segmentID = some (leftShards coded missing)
  few : ∀ {d p}, ecShardConfig req.storageClass = .ok (d, p) → missing.card ≤ p

theorem HeldInShards.getECSegment_eq (held : HeldInShards newEncoder req missing ref s)
    (lawful : LawfulEncoders newEncoder) (off length : UInt64) :
    req.reader.length < 2 ^ 63 ∧ s.getECSegment newEncoder none ref off length =
      if req.reader.length < off.toNat then .failed .invalidRange
      else sliceECPayload req.reader off length := by
  obtain ⟨platform, segmentID, now, coded, put, files⟩ := held.put
  obtain ⟨d, p, encoder, shards, config, written⟩ := putECSegment_ok held.declared put
  exact ⟨written.small, written.getECSegment_eq lawful held.declared (held.few config) files⟩

/-- Every read of a segment that can be reconstructed is exact, unless it starts inside the
payload and its end wraps around. -/
theorem shards_read_exactly_iff (lawful : LawfulEncoders newEncoder)
    (held : HeldInShards newEncoder req missing ref s) (off length : UInt64) :
    s.getECSegment newEncoder none ref off length = exactRange req.reader off length ↔
      (off.toNat ≤ req.reader.length → off.toNat + length.toNat < 2 ^ 64) := by
  obtain ⟨small, read⟩ := held.getECSegment_eq lawful off length
  rw [read, exactRange]
  by_cases beyond : req.reader.length < off.toNat
  · rw [if_pos beyond, if_pos beyond]
    simp [Nat.not_le.mpr beyond]
  · rw [if_neg beyond, if_neg beyond, sliceECPayload_eq_iff small (by omega)]
    simp [Nat.not_lt.mp beyond]

end

/-! ## A mirror -/

/-- One data shard and its copy. -/
def mirror : ShardEncoder where
  encode
    | [data, parity] => if parity.length = data.length then .ok [data, data] else .error "size"
    | _ => .error "shards"
  reconstruct
    | [data, parity] => if data = [] then .ok [parity, parity] else .ok [data, data]
    | _ => .error "shards"
  join shards size := .ok ((shards.take 1).flatten.take size.toNat)

def newMirror : NewEncoder := fun d p => if d = 1 ∧ p = 1 then .ok mirror else .error "shards"

theorem mirror_encode {shards coded : List (List UInt8)}
    (encoded : mirror.encode shards = .ok coded) :
    ∃ data parity, parity.length = data.length ∧ shards = [data, parity] ∧ coded =
    [data, data] := by
  unfold mirror at encoded
  dsimp only at encoded
  split at encoded
  · split at encoded
    · next same =>
      cases encoded
      exact ⟨_, _, same, rfl, rfl⟩
    · cases encoded
  · cases encoded

theorem newMirror_lawful : LawfulEncoders newMirror := by
  intro d p encoder created
  unfold newMirror at created
  split at created
  · next counts =>
    cases created
    obtain ⟨rfl, rfl⟩ := counts
    refine ⟨fun {shards coded} encoded => ?_, fun {shards coded kept} encoded sized own some => ?_,
      fun _ _ _ => rfl⟩
    · obtain ⟨data, parity, same, rfl, rfl⟩ := mirror_encode encoded
      simp [same]
    obtain ⟨data, parity, same, rfl, rfl⟩ := mirror_encode encoded
    obtain ⟨first, second, rfl⟩ := List.length_eq_two.mp sized
    have own₀ := own 0
    have own₁ := own 1
    simp only [List.getElem?_cons_zero, List.getElem?_cons_succ, Option.some.injEq] at own₀ own₁
    have some : first ≠ [] ∨ second ≠ [] := by
      by_contra none
      push Not at none
      simp [none] at some
    unfold mirror
    dsimp only
    by_cases lost : first = []
    · rw [if_pos lost, own₁.resolve_left (some.resolve_left (not_not.mpr lost))]
    · rw [if_neg lost, own₀.resolve_left lost]
  · cases created

def mirroredPut : PutSegmentRequest :=
  { reader := [1, 2, 3], sizeBytes := 3
    storageClass := { parameters := [("data_shards", "1"), ("parity_shards", "1")] } }

def mirroredRef : SegmentRef :=
  ecSegmentRef mirroredPut "s" (plainPlatform.sha256Hex [1, 2, 3]) 0 1 1 3

/-- The data shard is lost. -/
def halfMirror : LocalStore where
  shards _ := some (leftShards [[1, 2, 3], [1, 2, 3]] {0})

theorem mirroredPut_held : HeldInShards newMirror mirroredPut {0} mirroredRef halfMirror where
  declared := rfl
  put := ⟨plainPlatform, "s", 0, [[1, 2, 3], [1, 2, 3]], by decide +kernel, rfl⟩
  few config := by
    cases config
    decide

/-- The copy gives back the payload. -/
theorem lost_shard_read_back :
    halfMirror.getECSegment newMirror none mirroredRef 1 0 = exactRange [1, 2, 3] 1 0 :=
  (shards_read_exactly_iff newMirror_lawful mirroredPut_held 1 0).mpr fun _ => by decide

/-- A range whose end wraps around panics. -/
theorem wrapped_range_panics :
    halfMirror.getECSegment newMirror none mirroredRef 1 (2 ^ 64 - 1) = .panicked ∧
      exactRange [1, 2, 3] 1 (2 ^ 64 - 1) = .bytes [2, 3] := by
  decide +kernel

end Namros.Guarantees
