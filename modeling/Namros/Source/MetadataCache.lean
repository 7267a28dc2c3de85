import Namros.Library.ReadThrough
import Namros.Source.Footprints
import Namros.Source.Tenants

/-!
# The metadata cache

`internal/meta/cache/repository.go`: a repository whose `GetAccessKey` and `GetBucketByName` go
through a cache in memory and whose bucket and access key writes drop cached records after the
repository call. The two maps of the source are one table over `CacheKey`; each critical
section of its mutex is one step of the protocol. `clone` copies a record through JSON, which is
how the repository stores it, and is the identity here.
-/

namespace Namros.Source

open Library Transaction ReadThrough

/-- A cached record's key: an entry of `accessKeys` or of `bucketsByName`. -/
inductive CacheKey
  | accessKey (accessKeyID : String)
  | bucketByName (name : String)
deriving DecidableEq

/-- The type of the record under a key. -/
def CacheKey.Record : CacheKey → Type
  | .accessKey _ => AccessKey
  | .bucketByName _ => Bucket

instance : (k : CacheKey) → DecidableEq k.Record
  | .accessKey _ => inferInstanceAs (DecidableEq AccessKey)
  | .bucketByName _ => inferInstanceAs (DecidableEq Bucket)

/-- The repository calls behind the two cached reads; every failure is the call's. -/
def repositoryGet (s : Store) : (k : CacheKey) → Option k.Record
  | .accessKey accessKeyID => ((getAccessKey accessKeyID).run s).toOption.map Prod.fst
  | .bucketByName name => ((getBucketByName name).run s).toOption.map Prod.fst

theorem repositoryGet_accessKey (s : Store) (accessKeyID : String) :
    repositoryGet s (.accessKey accessKeyID) = s.lookup (.accessKey accessKeyID) := by
  have read : (getAccessKey accessKeyID).run s =
      (orFail (s.lookup (.accessKey accessKeyID)) Error.notFound : Tx AccessKey).run s := rfl
  simp only [repositoryGet, read]
  cases s.lookup (.accessKey accessKeyID) <;> rfl

theorem repositoryGet_bucketByName (s : Store) (name : String) :
    repositoryGet s (.bucketByName name) =
      (s.lookup (.bucketByName name)).bind fun bucketID => s.lookup (.bucketByID bucketID) := by
  have named : (getBucketByName name).run s =
      (orFail (s.lookup (.bucketByName name)) Error.notFound >>= requireBucket : Tx Bucket).run s :=
    rfl
  simp only [repositoryGet, named]
  cases s.lookup (.bucketByName name) with
  | none => rfl
  | some bucketID =>
    have read : (orFail (some bucketID) Error.notFound >>= requireBucket : Tx Bucket).run s =
        (orFail (s.lookup (.bucketByID bucketID)) Error.notFound : Tx Bucket).run s := rfl
    rw [read, Option.bind_some]
    cases s.lookup (.bucketByID bucketID) <;> rfl

/-- The writes the wrapper overrides. -/
inductive CacheWrite
  | putAccessKey (context : CallContext) (req : PutAccessKeyRequest)
  | createBucket (context : CallContext) (req : CreateBucketRequest)
  | deleteBucket (bucketID : String)
  | putBucketVersioning (bucketID : String) (state : BucketVersioningState)
  | putBucketCORS (bucketID : String) (rules : List CORSRule)
  | deleteBucketCORS (bucketID : String)
  | putBucketLifecycle (context : CallContext) (bucketID : String)
      (rules : LifecycleConfiguration) (audit : AuditContext)
  | deleteBucketLifecycle (context : CallContext) (bucketID : String) (audit : AuditContext)
  | putBucketEncryption (context : CallContext) (bucketID : String)
      (encryption : ServerSideEncryption) (audit : AuditContext)
  | deleteBucketEncryption (context : CallContext) (bucketID : String) (audit : AuditContext)
  | putBucketPolicy (context : CallContext) (bucketID : String) (policy : PolicyDocument)
      (audit : AuditContext)
  | deleteBucketPolicy (context : CallContext) (bucketID : String) (audit : AuditContext)
  | putBucketObjectLock (context : CallContext) (bucketID : String)
      (configuration : BucketObjectLockConfiguration) (audit : AuditContext)

/-- The repository call of a write. -/
def CacheWrite.body (platform : Platform) : CacheWrite → Tx Unit
  | .putAccessKey context req => dropResult (Source.putAccessKey context req)
  | .createBucket context req => dropResult (Source.createBucket context req)
  | .deleteBucket bucketID => Source.deleteBucket bucketID
  | .putBucketVersioning bucketID state => dropResult (Source.putBucketVersioning bucketID state)
  | .putBucketCORS bucketID rules => dropResult (Source.putBucketCORS bucketID rules)
  | .deleteBucketCORS bucketID => dropResult (Source.deleteBucketCORS bucketID)
  | .putBucketLifecycle context bucketID rules audit =>
    dropResult (Source.putBucketLifecycle platform context bucketID rules audit)
  | .deleteBucketLifecycle context bucketID audit =>
    dropResult (Source.deleteBucketLifecycle platform context bucketID audit)
  | .putBucketEncryption context bucketID encryption audit =>
    dropResult (Source.putBucketEncryption platform context bucketID encryption audit)
  | .deleteBucketEncryption context bucketID audit =>
    dropResult (Source.deleteBucketEncryption platform context bucketID audit)
  | .putBucketPolicy context bucketID policy audit =>
    dropResult (Source.putBucketPolicy platform context bucketID policy audit)
  | .deleteBucketPolicy context bucketID audit =>
    dropResult (Source.deleteBucketPolicy platform context bucketID audit)
  | .putBucketObjectLock context bucketID configuration audit =>
    dropResult (Source.putBucketObjectLock platform context bucketID configuration audit)

/-- What the wrapper drops after the repository call: `PutAccessKey` deletes its own entry, every
bucket write clears `bucketsByName` (`invalidateBuckets`). -/
def CacheWrite.invalidates : CacheWrite → CacheKey → Bool
  | .putAccessKey _ req, .accessKey accessKeyID => accessKeyID = req.accessKeyID
  | .putAccessKey _ _, .bucketByName _ => false
  | _, .accessKey _ => false
  | _, .bucketByName _ => true

/-- The wrapper as a read-through cache: `GetAccessKey`, `GetBucketByName` and the overridden
writes. Calls the wrapper only passes on, and failed writes the repository applied all the same,
are moves of the repository. -/
def cacheProtocol (platform : Platform) (ttl : Int) :
    Protocol CacheKey.Record Store CacheWrite where
  read := repositoryGet
  write write s := ((write.body platform).run s).toOption.map Prod.snd
  drops := CacheWrite.invalidates
  ttl := ttl

end Namros.Source
