import Mathlib.Tactic.Ring
import Namros.Library.GoString
import Namros.Library.OrderedStore
import Namros.Library.PathKey
import Namros.Source.OperationalRecords

/-!
# Keyspace

The key builders of `internal/meta/keyspace/keyspace.go` (and `sequenceKey` of the
repository). A `Key` names one builder with its arguments, `Key.encode` is the string the
builder returns, and `Key.Value` the record stored there. Listings run over the encoded
strings, so the theorems below say which keys a string prefix selects.

The builders escape every argument, so two builders can return one string only for the
bucket ids `by-id` and `by-name`, which the id generator never issues; distinct `Key`s are
otherwise distinct strings.
-/

namespace Namros.Source

open Library

/-! ## Escaping -/

/-- `isSafe`: letters, digits, `-`, `_`, `.` and `~`. -/
def isSafe (c : UInt8) : Bool :=
  (0x41 ≤ c && c ≤ 0x5a) || (0x61 ≤ c && c ≤ 0x7a) || (0x30 ≤ c && c ≤ 0x39) ||
    c == 0x2d || c == 0x5f || c == 0x2e || c == 0x7e

/-- An upper-case hexadecimal digit. -/
def hexDigit (n : UInt8) : UInt8 := if n < 10 then 0x30 + n else 0x37 + n

def escapeByte (c : UInt8) : Bytes :=
  if isSafe c then [c] else [0x25, hexDigit (c / 16), hexDigit (c % 16)]

/-- `escape`: every unsafe byte becomes `%XX`. -/
def escape (x : Bytes) : Bytes := x.flatMap escapeByte

private theorem hexDigit_inj {m n : UInt8} (small : m < 16) (small' : n < 16)
    (same : hexDigit m = hexDigit n) : m = n := by
  have table : ∀ i < 16, ∀ j < 16, hexDigit (UInt8.ofNat i) = hexDigit (UInt8.ofNat j) →
      i = j := by decide
  rw [UInt8.lt_iff_toNat_lt] at small small'
  refine UInt8.toNat_inj.mp (table m.toNat small n.toNat small' ?_)
  simpa using same

theorem nibbles_inj {c d : UInt8} (high : c / 16 = d / 16) (low : c % 16 = d % 16) :
    c = d := by
  have high' := congrArg UInt8.toNat high
  have low' := congrArg UInt8.toNat low
  rw [UInt8.toNat_div, UInt8.toNat_div] at high'
  rw [UInt8.toNat_mod, UInt8.toNat_mod] at low'
  refine UInt8.toNat_inj.mp ?_
  have sixteen : UInt8.toNat 16 = 16 := rfl
  rw [sixteen] at high' low'
  omega

theorem escapeByte_prefixCode : PrefixCode escapeByte where
  nonempty c := by unfold escapeByte; split <;> simp
  decodes := by
    intro c d x starts
    have percent : isSafe 0x25 = false := by decide
    unfold escapeByte at starts
    split at starts <;> split at starts
    · simpa using starts
    · rename_i safe _
      rw [List.cons_append, List.cons_prefix_cons] at starts
      rw [starts.1, percent] at safe
      exact absurd safe (by decide)
    · rename_i _ safe
      rw [List.cons_append, List.cons_prefix_cons] at starts
      rw [← starts.1, percent] at safe
      exact absurd safe (by decide)
    · simp only [List.cons_append, List.nil_append, List.cons_prefix_cons, true_and,
        List.nil_prefix, and_true] at starts
      have below : ∀ e : UInt8, e / 16 < 16 ∧ e % 16 < 16 := by
        intro e
        have bound := e.toNat_lt
        rw [UInt8.lt_iff_toNat_lt, UInt8.lt_iff_toNat_lt, UInt8.toNat_div, UInt8.toNat_mod]
        have sixteen : UInt8.toNat 16 = 16 := rfl
        rw [sixteen]
        omega
      exact nibbles_inj (hexDigit_inj (below c).1 (below d).1 starts.1)
        (hexDigit_inj (below c).2 (below d).2 starts.2)

/-- Escaping keeps prefixes. -/
theorem escape_isPrefix_iff {x y : Bytes} : escape x <+: escape y ↔ x <+: y :=
  escapeByte_prefixCode.flatMap_isPrefix_iff

theorem escape_inj {x y : Bytes} : escape x = escape y ↔ x = y :=
  ⟨fun same => escapeByte_prefixCode.flatMap_injective same, fun same => congrArg escape same⟩

@[simp] theorem escape_nil : escape [] = [] := rfl

/-- What is not safe is left of an escaped text only as the escape sign. -/
theorem escape_free {c : UInt8} (outside : isSafe c = false) (other : c ≠ 0x25) (x : Bytes) :
    c ∉ escape x := by
  intro member
  obtain ⟨d, -, inside⟩ := List.mem_flatMap.mp member
  have digits : ∀ n < 16, isSafe (hexDigit (UInt8.ofNat n)) = true := by decide
  have noDigit : ∀ e : UInt8, e < 16 → c ≠ hexDigit e := by
    intro e small same
    rw [UInt8.lt_iff_toNat_lt] at small
    have safe := digits e.toNat small
    rw [UInt8.ofNat_toNat, ← same, outside] at safe
    cases safe
  unfold escapeByte at inside
  split at inside
  · rename_i safe
    rw [← List.mem_singleton.mp inside, outside] at safe
    cases safe
  simp only [List.mem_cons, List.not_mem_nil, or_false] at inside
  have bound := d.toNat_lt
  have sixteen : UInt8.toNat 16 = 16 := rfl
  rcases inside with percent | high | low
  · exact other percent
  · refine noDigit _ ?_ high
    rw [UInt8.lt_iff_toNat_lt, UInt8.toNat_div, sixteen]
    omega
  · refine noDigit _ ?_ low
    rw [UInt8.lt_iff_toNat_lt, UInt8.toNat_mod, sixteen]
    omega

/-- No separator survives escaping. -/
theorem escape_closed (x : Bytes) : Path.Closed (escape x) :=
  escape_free (by decide) (by decide) x

/-- An escaped string, the form of every key component that comes from an argument. -/
def esc (argument : GoString) : Bytes := escape argument.bytes

@[simp] theorem esc_inj {s t : GoString} : esc s = esc t ↔ s = t := by
  rw [esc, esc, escape_inj, GoString.bytes_inj]

theorem esc_closed (argument : GoString) : Path.Closed (esc argument) := escape_closed _

@[simp] theorem esc_eq_nil {s : GoString} : esc s = [] ↔ s = "" := by
  rw [show ([] : Bytes) = esc "" from rfl, esc_inj]

/-! ## Decimal components -/

/-- The decimal digits of `n` in front of `rest`. -/
def decimalOnto : Nat → Nat → Bytes → Bytes
  | 0, _, rest => rest
  | fuel + 1, n, rest =>
    let rest := UInt8.ofNat (0x30 + n % 10) :: rest
    if n < 10 then rest else decimalOnto fuel (n / 10) rest

/-- `strconv.Itoa` on natural numbers. -/
def itoa (n : Nat) : Bytes := decimalOnto (n + 1) n []

def leftPadInt (value width : Nat) : Bytes :=
  List.replicate (width - (itoa value).length) 0x30 ++ itoa value

/-- The number a string of decimal digits stands for. -/
def decimalValue (x : Bytes) : Nat := x.foldl (fun n c => n * 10 + (c.toNat - 0x30)) 0

private theorem foldl_decimal (x : Bytes) (start : Nat) :
    x.foldl (fun n c => n * 10 + (c.toNat - 0x30)) start =
      start * 10 ^ x.length + decimalValue x := by
  induction x generalizing start with
  | nil => simp [decimalValue]
  | cons c x ih =>
    rw [decimalValue, List.foldl_cons, List.foldl_cons, ih, ih (0 * 10 + _)]
    simp only [List.length_cons, Nat.pow_succ]
    ring

private theorem digit_toNat (n : Nat) : (UInt8.ofNat (0x30 + n % 10)).toNat - 0x30 = n % 10 := by
  have small := Nat.mod_lt n (by decide : 0 < 10)
  rw [UInt8.toNat_ofNat', Nat.mod_eq_of_lt (by omega)]
  omega

private theorem decimalOnto_value (fuel n : Nat) (rest : Bytes) (enough : n < fuel) :
    decimalValue (decimalOnto fuel n rest) = n * 10 ^ rest.length + decimalValue rest := by
  induction fuel generalizing n rest with
  | zero => exact absurd enough (Nat.not_lt_zero _)
  | succ fuel ih =>
    have consed : decimalValue (UInt8.ofNat (0x30 + n % 10) :: rest) =
        n % 10 * 10 ^ rest.length + decimalValue rest := by
      rw [decimalValue, List.foldl_cons, foldl_decimal, digit_toNat]
      simp
    unfold decimalOnto
    dsimp only
    split
    · rename_i small
      rw [consed, Nat.mod_eq_of_lt small]
    rw [ih _ _ (by omega), consed, List.length_cons, Nat.pow_succ]
    have split := Nat.div_add_mod n 10
    calc n / 10 * (10 ^ rest.length * 10) + (n % 10 * 10 ^ rest.length + decimalValue rest)
        = (10 * (n / 10) + n % 10) * 10 ^ rest.length + decimalValue rest := by ring
      _ = n * 10 ^ rest.length + decimalValue rest := by rw [split]

theorem decimalValue_leftPadInt (value width : Nat) :
    decimalValue (leftPadInt value width) = value := by
  have zeros (count : Nat) (x : Bytes) :
      decimalValue (List.replicate count 0x30 ++ x) = decimalValue x := by
    induction count with
    | zero => rfl
    | succ count ih => exact ih
  rw [leftPadInt, zeros, itoa, decimalOnto_value _ _ _ (Nat.lt_succ_self _)]
  simp [decimalValue]

@[simp] theorem leftPadInt_inj {m n width : Nat} :
    leftPadInt m width = leftPadInt n width ↔ m = n := by
  refine ⟨fun same => ?_, fun same => congrArg (leftPadInt · width) same⟩
  rw [← decimalValue_leftPadInt m width, same, decimalValue_leftPadInt]

private theorem decimalOnto_digits (fuel n : Nat) (rest : Bytes)
    (digits : ∀ c ∈ rest, 0x30 ≤ c.toNat ∧ c.toNat ≤ 0x39) :
    ∀ c ∈ decimalOnto fuel n rest, 0x30 ≤ c.toNat ∧ c.toNat ≤ 0x39 := by
  induction fuel generalizing n rest with
  | zero => exact digits
  | succ fuel ih =>
    have extended : ∀ c ∈ UInt8.ofNat (0x30 + n % 10) :: rest, 0x30 ≤ c.toNat ∧ c.toNat ≤ 0x39 := by
      intro c member
      rcases List.mem_cons.mp member with first | old
      · have small := Nat.mod_lt n (by decide : 0 < 10)
        rw [first, UInt8.toNat_ofNat', Nat.mod_eq_of_lt (by omega)]
        omega
      · exact digits c old
    unfold decimalOnto
    dsimp only
    split
    · exact extended
    · exact ih _ _ extended

theorem leftPadInt_digits (value width : Nat) :
    ∀ c ∈ leftPadInt value width, 0x30 ≤ c.toNat ∧ c.toNat ≤ 0x39 := by
  intro c member
  rcases List.mem_append.mp member with pad | digit
  · rw [List.eq_of_mem_replicate pad]
    decide
  · exact decimalOnto_digits _ _ _ (fun c h => absurd h List.not_mem_nil) c digit

theorem leftPadInt_closed (value width : Nat) : Path.Closed (leftPadInt value width) := by
  intro member
  have range := leftPadInt_digits value width _ member
  exact absurd range (by decide)

/-! ## Keys -/

/-- One constructor per key builder. Object keys come from clients and may be any Go string. -/
inductive Key
  | metadataSchema
  | tenant (tenantID : String)
  | tenantQuota (tenantID : String)
  | tenantUsage (tenantID : String)
  | accessKey (accessKeyID : String)
  | kmsKey (keyID : String)
  | complianceProfileAttachment (profileID : String)
  | bucketByName (name : String)
  | bucketByID (bucketID : String)
  | bucketQuota (bucketID : String)
  | objectHead (bucketID : String) (key : GoString)
  | objectVersion (bucketID : String) (key : GoString) (versionSortKey : String)
  | objectVersionByID (bucketID versionID : String)
  | objectManifestChunk (bucketID versionID : String) (chunkNumber : Nat)
  | listObject (bucketID : String) (key : GoString)
  | multipartUpload (bucketID uploadID : String)
  | multipartCompletion (bucketID uploadID : String)
  | multipartUploadByKey (bucketID : String) (key : GoString) (uploadID : String)
  | multipartPart (bucketID uploadID : String) (partNumber : Nat)
  | gcCandidate (segmentID : String)
  | gcOperation (operationID : String)
  | dedupeOperation (operationID : String)
  | dedupeOperationLock (lockID : String)
  | sharedObjectRelease (sharedObjectID segmentID : String)
  | sharedObject (sharedObjectID : String)
  | sharedObjectRef (sharedObjectID bucketID : String) (key : GoString) (versionID : String)
  | volumePool (poolID : String)
  | volumeDrainOperation (operationID : String)
  | metadataMigrationOperation (operationID : String)
  | workerLease (workerKind shardID : String)
  | workerOperation (operationID : String)
  | workerControl (workerKind shardID : String)
  | auditEvent (eventID : String)
  | auditHead
  | protectedRefByVersion (bucketID : String) (key : GoString) (versionID refID : String)
  | protectedRefBySegment (segmentID refID : String)
  | sequence (name : String)
deriving DecidableEq

/-- The record stored under a key. -/
@[reducible] def Key.Value : Key → Type
  | .metadataSchema => UnreadRecord
  | .tenant _ => Tenant
  | .tenantQuota _ => TenantQuota
  | .tenantUsage _ => TenantUsage
  | .accessKey _ => AccessKey
  | .kmsKey _ => KMSKeyRecord
  | .complianceProfileAttachment _ => UnreadRecord
  | .bucketByName _ => String
  | .bucketByID _ => Bucket
  | .bucketQuota _ => BucketQuota
  | .objectHead _ _ => ObjectHeadEntry
  | .objectVersion _ _ _ => ObjectVersion
  | .objectVersionByID _ _ => ObjectVersionLocator
  | .objectManifestChunk _ _ _ => ObjectManifestChunk
  | .listObject _ _ => ObjectListEntry
  | .multipartUpload _ _ => MultipartUpload
  | .multipartCompletion _ _ => MultipartCompletionRecord
  | .multipartUploadByKey _ _ _ => String
  | .multipartPart _ _ _ => MultipartPart
  | .gcCandidate _ => UnreadRecord
  | .gcOperation _ => UnreadRecord
  | .dedupeOperation _ => UnreadRecord
  | .dedupeOperationLock _ => UnreadRecord
  | .sharedObjectRelease _ _ => UnreadRecord
  | .sharedObject _ => SharedObject
  | .sharedObjectRef _ _ _ _ => SharedObjectRef
  | .volumePool _ => VolumePool
  | .volumeDrainOperation _ => VolumeDrainOperationRecord
  | .metadataMigrationOperation _ => UnreadRecord
  | .workerLease _ _ => WorkerLease
  | .workerOperation _ => UnreadRecord
  | .workerControl _ _ => UnreadRecord
  | .auditEvent _ => AuditEvent
  | .auditHead => String
  | .protectedRefByVersion _ _ _ _ => ProtectedRef
  | .protectedRefBySegment _ _ => ProtectedRef
  | .sequence _ => Nat

/-- An argument that is left out of the path when it is empty. -/
def optionalComponent (text : String) (rest : List Bytes) : List Bytes :=
  if text = "" then rest else esc text :: rest

/-- The components after `/namros/v1`. -/
def Key.path : Key → List Bytes
  | .metadataSchema => [bytes "system", bytes "schema"]
  | .tenant t => [bytes "tenants", esc t]
  | .tenantQuota t => [bytes "tenants", esc t, bytes "quota"]
  | .tenantUsage t => [bytes "tenants", esc t, bytes "usage"]
  | .accessKey a => [bytes "access-keys", esc a]
  | .kmsKey k => [bytes "kms", bytes "keys", esc k]
  | .complianceProfileAttachment p => [bytes "compliance", bytes "profile-attachments", esc p]
  | .bucketByName n => [bytes "buckets", bytes "by-name", esc n]
  | .bucketByID b => [bytes "buckets", bytes "by-id", esc b]
  | .bucketQuota b => [bytes "buckets", esc b, bytes "quota"]
  | .objectHead b k => [bytes "buckets", esc b, bytes "objects", esc k, bytes "head"]
  | .objectVersion b k sk => [bytes "buckets", esc b, bytes "versions", esc k, esc sk]
  | .objectVersionByID b v => [bytes "buckets", esc b, bytes "versions-by-id", esc v]
  | .objectManifestChunk b v n =>
    [bytes "buckets", esc b, bytes "object-manifests", esc v, bytes "chunks",
      if n = 0 then [] else leftPadInt n 6]
  | .listObject b k => [bytes "buckets", esc b, bytes "list", esc k]
  | .multipartUpload b u => [bytes "buckets", esc b, bytes "multipart", esc u, bytes "state"]
  | .multipartCompletion b u =>
    [bytes "buckets", esc b, bytes "multipart", esc u, bytes "completion"]
  | .multipartUploadByKey b k u =>
    [bytes "buckets", esc b, bytes "multipart-by-key", esc k, esc u]
  | .multipartPart b u n =>
    [bytes "buckets", esc b, bytes "multipart", esc u, bytes "parts", leftPadInt n 5]
  | .gcCandidate s => [bytes "gc", bytes "candidates", esc s]
  | .gcOperation o => [bytes "gc", bytes "operations", esc o]
  | .dedupeOperation o => [bytes "dedupe", bytes "operations", esc o]
  | .dedupeOperationLock l => [bytes "dedupe", bytes "operation-locks", esc l]
  | .sharedObjectRelease o s =>
    bytes "gc" :: bytes "shared-object-releases" :: optionalComponent o [esc s]
  | .sharedObject o => [bytes "dedupe", bytes "shared-objects", esc o]
  | .sharedObjectRef o b k v =>
    bytes "dedupe" :: bytes "shared-object-refs" :: optionalComponent o [esc b, esc k, esc v]
  | .volumePool p => [bytes "storage", bytes "volume-pools", esc p]
  | .volumeDrainOperation o => [bytes "storage", bytes "volume-drain", bytes "operations", esc o]
  | .metadataMigrationOperation o =>
    [bytes "metadata", bytes "migrations", bytes "operations", esc o]
  | .workerLease w s =>
    bytes "workers" :: bytes "leases" :: if w = "" then [[]] else [esc w, esc s]
  | .workerOperation o => [bytes "workers", bytes "operations", esc o]
  | .workerControl w s =>
    bytes "workers" :: bytes "control" :: if w = "" then [[]] else [esc w, esc s]
  | .auditEvent e => [bytes "audit", bytes "events", esc e]
  | .auditHead => [bytes "audit", bytes "head"]
  | .protectedRefByVersion b k v r =>
    [bytes "buckets", esc b, bytes "protected-refs", bytes "by-version", esc k, esc v, esc r]
  | .protectedRefBySegment s r => [bytes "protected-refs", bytes "by-segment", esc s, esc r]
  | .sequence n => [bytes "sequences", esc n]

/-- The string a builder returns: `/namros/v1` and the components. -/
def Key.encode (k : Key) : Bytes := Path.join (bytes "namros" :: bytes "v1" :: k.path)

def keyCode : KeyCode Key where
  encode := Key.encode
  nonempty k := by simp [Key.encode]

/-- The repository's store. -/
abbrev Store := AList Key.Value

theorem Key.path_closed (k : Key) : ∀ c ∈ k.path, Path.Closed c := by
  have empty : Path.Closed [] := List.not_mem_nil
  cases k <;> simp only [Key.path, optionalComponent] <;> (try split) <;>
    simp only [List.forall_mem_cons, List.not_mem_nil, false_implies, implies_true, and_true] <;>
    and_intros <;>
    first
      | exact esc_closed _
      | exact leftPadInt_closed _ _
      | exact empty
      | decide

/-- Keys with one encoding have one path. -/
theorem Key.path_eq_of_encode_eq {j k : Key} (same : j.encode = k.encode) : j.path = k.path := by
  have rooted : ∀ l : Key, ∀ c ∈ bytes "namros" :: bytes "v1" :: l.path, Path.Closed c := by
    intro l
    simp only [List.forall_mem_cons]
    exact ⟨by decide, by decide, l.path_closed⟩
  have paths := Path.join_injective (rooted j) (rooted k) same
  simpa using paths

/-! ## Prefixes of listings -/

/-- The string in front of every key below `path` whose next component begins with `start`. -/
def below (path : List Bytes) (start : Bytes) : Bytes :=
  Path.join (bytes "namros" :: bytes "v1" :: path) ++ Path.separator :: start

/-- The keys below the path of a key's first components. -/
theorem below_isPrefix_iff {path : List Bytes} {start : Bytes} (member : Key)
    (begins : path <+: member.path) (startClosed : Path.Closed start) (k : Key) :
    below path start <+: k.encode ↔ ∃ c r, k.path = path ++ c :: r ∧ start <+: c := by
  have rooted : ∀ p : List Bytes, (∀ c ∈ p, Path.Closed c) →
      ∀ c ∈ bytes "namros" :: bytes "v1" :: p, Path.Closed c := by
    intro p closed
    simp only [List.forall_mem_cons]
    exact ⟨by decide, by decide, closed⟩
  have pathClosed : ∀ c ∈ path, Path.Closed c := fun c inside =>
    member.path_closed c (begins.subset inside)
  rw [below, Key.encode, Path.open_isPrefix_iff (rooted _ pathClosed) startClosed
    (rooted _ k.path_closed)]
  simp

/-- The keys below a path, where they are the keys of one family. -/
theorem below_isPrefix_family {α : Type} [Inhabited α] {path : List Bytes} {start : Bytes}
    (family : α → Key) (next : α → Bytes) (startClosed : Path.Closed start)
    (shape : ∀ a, ∃ r, (family a).path = path ++ next a :: r)
    (only : ∀ (K : Key) c r, K.path = path ++ c :: r → ∃ a, K = family a) (K : Key) :
    below path start <+: K.encode ↔ ∃ a, K = family a ∧ start <+: next a := by
  obtain ⟨r, member⟩ := shape default
  rw [below_isPrefix_iff (family default) ⟨_, member.symm⟩ startClosed]
  constructor
  · rintro ⟨c, r, split, starts⟩
    obtain ⟨a, rfl⟩ := only K c r split
    obtain ⟨r', own⟩ := shape a
    have same := List.append_cancel_left (own.symm.trans split)
    exact ⟨a, rfl, (List.cons.inj same).1 ▸ starts⟩
  · rintro ⟨a, rfl, starts⟩
    obtain ⟨r, own⟩ := shape a
    exact ⟨next a, r, own, starts⟩

/-- All keys below a path, where they are the keys of one family. -/
theorem below_nil_isPrefix_family {α : Type} [Inhabited α] {path : List Bytes}
    (family : α → Key) (shape : ∀ a, ∃ c r, (family a).path = path ++ c :: r)
    (only : ∀ (K : Key) c r, K.path = path ++ c :: r → ∃ a, K = family a) (K : Key) :
    below path [] <+: K.encode ↔ ∃ a, K = family a := by
  choose next shape using shape
  simpa using below_isPrefix_family family next List.not_mem_nil shape only K

theorem below_isPrefix_below {path : List Bytes} {start other : Bytes} :
    below path start <+: below path other ↔ start <+: other := by
  rw [below, below, List.prefix_append_right_inj, List.cons_prefix_cons]
  simp

/-- `versionPrefix`: the versions of one object. -/
def versionPrefix (bucketID : String) (key : GoString) : Bytes :=
  (Key.objectVersion bucketID key "").encode

/-- `versionsBucketPrefix`: the versions of one bucket. -/
def versionsBucketPrefix (bucketID : String) : Bytes :=
  below [bytes "buckets", esc bucketID, bytes "versions"] []

/-- `objectHeadPrefix`: the heads of one bucket. `strings.TrimSuffix` cuts `/head`. -/
def objectHeadPrefix (bucketID : String) : Bytes :=
  below [bytes "buckets", esc bucketID, bytes "objects"] []

/-- The chunks of one version's manifest. -/
def manifestChunkPrefix (bucketID versionID : String) : Bytes :=
  (Key.objectManifestChunk bucketID versionID 0).encode

/-- `protectedRefVersionPrefix`: the protected references of one version. -/
def protectedRefVersionPrefix (bucketID : String) (key : GoString) (versionID : String) : Bytes :=
  (Key.protectedRefByVersion bucketID key versionID "").encode

theorem versionPrefix_isPrefix_iff (b : String) (k : GoString) (K : Key) :
    versionPrefix b k <+: K.encode ↔ ∃ sk, K = .objectVersion b k sk := by
  have shape : versionPrefix b k = below [bytes "buckets", esc b, bytes "versions", esc k] [] := by
    simp [versionPrefix, below, Key.encode, Key.path, Path.join]
  rw [shape]
  refine below_nil_isPrefix_family _ (fun sk => ⟨_, _, rfl⟩) (fun J c r shape => ?_) K
  cases J <;> simp [Key.path, optionalComponent, bytes_inj] at shape ⊢
  exact ⟨shape.1, shape.2.1⟩

theorem manifestChunkPrefix_isPrefix_iff (b v : String) (K : Key) :
    manifestChunkPrefix b v <+: K.encode ↔ ∃ n, K = .objectManifestChunk b v n := by
  have shape : manifestChunkPrefix b v =
      below [bytes "buckets", esc b, bytes "object-manifests", esc v, bytes "chunks"] [] := by
    simp [manifestChunkPrefix, below, Key.encode, Key.path, Path.join]
  rw [shape]
  refine below_nil_isPrefix_family _ (fun n => ⟨_, _, rfl⟩) (fun J c r shape => ?_) K
  cases J <;> simp [Key.path, optionalComponent, bytes_inj] at shape ⊢
  exact ⟨shape.1, shape.2.1⟩

theorem protectedRefVersionPrefix_isPrefix_iff (b : String) (k : GoString) (v : String) (K : Key) :
    protectedRefVersionPrefix b k v <+: K.encode ↔ ∃ r, K = .protectedRefByVersion b k v r := by
  have shape : protectedRefVersionPrefix b k v =
      below [bytes "buckets", esc b, bytes "protected-refs", bytes "by-version", esc k, esc v]
        [] := by
    simp [protectedRefVersionPrefix, below, Key.encode, Key.path, Path.join]
  rw [shape]
  refine below_nil_isPrefix_family _ (fun r => ⟨_, _, rfl⟩) (fun J c r shape => ?_) K
  cases J <;> simp [Key.path, optionalComponent, bytes_inj] at shape ⊢
  exact ⟨shape.1, shape.2.1, shape.2.2.1⟩

end Namros.Source
