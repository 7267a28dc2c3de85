import Namros.Guarantees.IndexInvariant
import Namros.Source.MetadataCache

/-!
# Coherence of the metadata cache with its own writes

Any number of calls go through one cache wrapper and their steps interleave: the cache lookup,
the repository call, the fill and the invalidation of each are separate steps, and the clock
may show anything at each of them. A read that starts after a write has returned should not
return a record from before that write.

Which writes count for a record is decided by the repository: a write changes a record when it
does so in some store. The wrapper drops every record a write can change, so the cache goes wrong
in one way only: a fill may come after the invalidation of a write that was committed after
the fetch. Nothing ties the two together, and the old record then stays until it expires. In
runs without such a fill the guarantee holds.
-/

namespace Namros.Guarantees

open Library Source ReadThrough

/-- The wrapper over a repository, before any call. -/
def newCache (s : Store) : System CacheKey.Record Store CacheWrite := { states := fun _ => s }

/-! ## What a write can change -/

/-- The keys a cached read looks up. -/
def lookedUp : CacheKey → Key → Prop
  | .accessKey accessKeyID, k => k = .accessKey accessKeyID
  | .bucketByName _, k => bucketKey k

theorem repositoryGet_agree {s t : Store} {k : CacheKey} (agree : Agree (lookedUp k) t s) :
    repositoryGet t k = repositoryGet s k := by
  cases k with
  | accessKey accessKeyID =>
    have same : t.lookup (.accessKey accessKeyID) = s.lookup (.accessKey accessKeyID) :=
      agree _ rfl
    rw [repositoryGet_accessKey, repositoryGet_accessKey, same]
  | bucketByName name =>
    have named : t.lookup (.bucketByName name) = s.lookup (.bucketByName name) := agree _ trivial
    rw [repositoryGet_bucketByName, repositoryGet_bucketByName, named]
    exact congrArg _ (funext fun bucketID => agree (.bucketByID bucketID) trivial)

theorem writes_putAccessKey (context : CallContext) (req : PutAccessKeyRequest) :
    Writes (· = .accessKey req.accessKeyID) (putAccessKey context req) :=
  .bind (.failIf _ _) fun _ => .bind (writes_setJSON _ rfl) fun _ => .pure _

section BucketWrites

variable {accessKeyID : String}

/-- No bucket write touches an access key. -/
theorem keeps_of_writes_bucketKey {α : Type} {body : Tx α} (writes : Writes bucketKey body) :
    Keeps (lookedUp (.accessKey accessKeyID)) body := by
  refine writes.mono fun k looked inside => ?_
  cases looked
  exact inside

theorem keeps_updateBucketAudited {platform : Platform} {context : CallContext} {bucketID : String}
    {update : Bucket → Bucket} {audit : AuditContext} {action : String} {details : StringMap} :
    Keeps (lookedUp (.accessKey accessKeyID))
      (updateBucketAudited platform context bucketID update audit action details) := by
  refine .bind (keeps_of_writes_bucketKey (keeps_updateBucket _ _)) fun bucket => ?_
  refine .bind ((keeps_appendAuditEvent _ _ _).mono fun k looked inside => ?_) fun _ => .pure _
  cases looked
  exact inside

theorem keeps_deleteBucket (bucketID : String) :
    Keeps (lookedUp (.accessKey accessKeyID)) (deleteBucket bucketID) := by
  refine .read (readOnly_requireBucket _) fun bucket => .bind (keeps_scanRecords _ _) fun _ =>
    .bind (keeps_scanRecords _ _) fun _ => .bind (.failIf _ _) fun _ => ?_
  exact .bind (keeps_deleteKey nofun) fun _ => .bind (keeps_deleteKey nofun) fun _ =>
    keeps_deleteKey nofun

end BucketWrites

/-- A write leaves the records alone that it does not drop. -/
theorem keeps_body_of_not_invalidates (platform : Platform) {w : CacheWrite} {k : CacheKey}
    (kept : w.invalidates k = false) : Keeps (lookedUp k) (w.body platform) := by
  cases k with
  | bucketByName name =>
    cases w with
    | putAccessKey context req =>
      refine (writes_putAccessKey context req).dropResult.mono fun j looked put => ?_
      subst put
      exact looked
    | _ => cases kept
  | accessKey accessKeyID =>
    cases w with
    | putAccessKey context req =>
      refine (writes_putAccessKey context req).dropResult.mono fun j looked put => ?_
      cases looked
      cases put
      simp [CacheWrite.invalidates] at kept
    | createBucket context req =>
      exact (keeps_of_writes_bucketKey (keeps_createBucket context req)).dropResult
    | deleteBucket bucketID => exact keeps_deleteBucket bucketID
    | putBucketVersioning bucketID state =>
      exact (keeps_of_writes_bucketKey (keeps_putBucketVersioning _ _)).dropResult
    | putBucketCORS bucketID rules =>
      exact .dropResult (.bind (.failIf _ _) fun _ =>
        keeps_of_writes_bucketKey (keeps_updateBucket _ _))
    | deleteBucketCORS bucketID =>
      exact (keeps_of_writes_bucketKey (keeps_updateBucket _ _)).dropResult
    | putBucketLifecycle | putBucketEncryption | putBucketObjectLock =>
      exact .dropResult (.bind (.failIf _ _) fun _ => .bind (.ofOutcome _) fun _ =>
        keeps_updateBucketAudited)
    | putBucketPolicy =>
      exact .dropResult (.bind (.failIf _ _) fun _ => .bind (.failIf _ _) fun _ =>
        keeps_updateBucketAudited)
    | deleteBucketLifecycle | deleteBucketEncryption | deleteBucketPolicy =>
      exact .dropResult keeps_updateBucketAudited

/-- The wrapper drops every record a write can change. -/
theorem cacheProtocol_covers (platform : Platform) (ttl : Int) :
    Covers (cacheProtocol platform ttl) := by
  rintro w k ⟨s, t, wrote, changed⟩
  by_contra missed
  have kept := keeps_body_of_not_invalidates platform (Bool.eq_false_of_not_eq_true missed)
  cases ran : (w.body platform).run s with
  | error e => simp [cacheProtocol, ran, Except.toOption] at wrote
  | ok outcome =>
    obtain ⟨result, u⟩ := outcome
    have reached : u = t := by simpa [cacheProtocol, ran, Except.toOption] using wrote
    subst reached
    exact changed (repositoryGet_agree (kept s result u ran))

/-! ## Runs -/

/-- A record returned by a read is the repository's record at a moment at or after every write
of it that had returned when the read started. -/
def ReadsNotOlder (platform : Platform) (ttl : Int)
    (σ : System CacheKey.Record Store CacheWrite) : Prop :=
  ∀ a ∈ σ.answers, Current (cacheProtocol platform ttl) σ a.before a.key a.value

/-- In every run in which no fill follows the invalidation of a write that can change its record
and was committed after the fetch, no read returns a record older than a write that had
returned before the read started. -/
theorem cached_reads_not_older (platform : Platform) (ttl : Int) (s : Store)
    {events : List (Event CacheKey Store CacheWrite)} {σ : System CacheKey.Record Store CacheWrite}
    (timely : RunTimely (cacheProtocol platform ttl) (Changes (cacheProtocol platform ttl))
      (newCache s) events)
    (ran : run (cacheProtocol platform ttl) (newCache s) events = some σ) :
    ReadsNotOlder platform ttl σ :=
  (run_coherent (cacheProtocol_covers platform ttl) (coherent_initial _) timely ran).answers

/-- An access key is written with a status. -/
def keyWithStatus (status : String) : CacheWrite :=
  .putAccessKey (numberedContext 0 0)
    { tenantID := "t", accessKeyID := "ak", secretHash := "h", status := status }

/-- An access key is put. -/
def putKey (call : Nat) (status : String) : List (Event CacheKey Store CacheWrite) :=
  [.commit call (keyWithStatus status), .invalidate call, .finish call]

/-- A read fetches an active key, the key is disabled by a write that returns, and the read then
fills the cache; the next read starts and hits. -/
def lateFill : List (Event CacheKey Store CacheWrite) :=
  putKey 0 "active" ++ [.startRead 1 (.accessKey "ak"), .look 1 0, .fetch 1 false] ++
    putKey 2 "disabled" ++ [.fill 1 0, .startRead 3 (.accessKey "ak"), .look 3 1]

/-- The read that starts after the write returned gives the key as it was before. -/
theorem late_fill_returns_disabled_key :
    ∃ σ, run (cacheProtocol plainPlatform 60) (newCache ∅) lateFill = some σ ∧
      ¬ ReadsNotOlder plainPlatform 60 σ := by
  refine ⟨_, rfl, fun notOlder => ?_⟩
  obtain ⟨n, reached, read, later⟩ := notOlder _ List.mem_cons_self
  have changes : Changes (cacheProtocol plainPlatform 60) (keyWithStatus "disabled")
      (.accessKey "ak") := ⟨∅, _, rfl, by decide +kernel⟩
  have after : 2 ≤ n := later ⟨keyWithStatus "disabled", 2⟩ List.mem_cons_self changes
  have last : n = 2 := Nat.le_antisymm reached after
  subst last
  revert read
  decide +kernel

/-- The same calls with the fill before the write. -/
def earlyFill : List (Event CacheKey Store CacheWrite) :=
  putKey 0 "active" ++ [.startRead 1 (.accessKey "ak"), .look 1 0, .fetch 1 false, .fill 1 0] ++
    putKey 2 "disabled" ++ [.startRead 3 (.accessKey "ak"), .look 3 1, .fetch 3 false, .fill 3 1]

theorem early_fill_not_older :
    ∃ σ, run (cacheProtocol plainPlatform 60) (newCache ∅) earlyFill = some σ ∧
      σ.answers.length = 2 ∧ ReadsNotOlder plainPlatform 60 σ := by
  have dropped : RunTimely (cacheProtocol plainPlatform 60)
      (fun w k => (cacheProtocol plainPlatform 60).drops w k = true) (newCache ∅) earlyFill := by
    decide +kernel
  have timely := dropped.mono (cacheProtocol_covers plainPlatform 60)
  exact ⟨(run (cacheProtocol plainPlatform 60) (newCache ∅) earlyFill).get (by decide +kernel),
    (Option.some_get _).symm, by decide +kernel,
    cached_reads_not_older plainPlatform 60 ∅ timely (Option.some_get _).symm⟩

end Namros.Guarantees
