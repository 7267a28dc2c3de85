import Namros.Source.Audit
import Namros.Source.ObjectLock

/-!
# Tenants and access keys

The closures of `repository.go:117-320` and `378-606` with the builders of
`internal/meta/quota.go`.
-/

namespace Namros.Source

open Library Transaction

/-! ## Tenants -/

structure CreateTenantRequest where
  (tenantID displayName : String := "")
deriving DecidableEq

structure TenantQuotaRequest where
  tenantID : String := ""
  (maxBytes maxObjects maxActiveUploads : Int := 0)
deriving DecidableEq

structure TenantUsageRequest where
  tenantID : String := ""
  (objectBytes objectCount activeUploads : Int := 0)
  reconciledAt : Time := 0
  (reconciliationID reconciliationErr : String := "")
deriving DecidableEq

def buildTenantQuota (existing : TenantQuota) (req : TenantQuotaRequest) (now hostNow : Time) :
    Except Error TenantQuota :=
  if req.tenantID = "" then .error (.invalidArgument "tenant id is required")
  else if req.maxBytes < 0 then .error (.invalidArgument "max bytes cannot be negative")
  else if req.maxObjects < 0 then .error (.invalidArgument "max objects cannot be negative")
  else if req.maxActiveUploads < 0 then
    .error (.invalidArgument "max active uploads cannot be negative")
  else
    let now := if now.isZero then hostNow else now
    .ok { tenantID := req.tenantID, maxBytes := req.maxBytes, maxObjects := req.maxObjects,
          maxActiveUploads := req.maxActiveUploads,
          createdAt := if existing.createdAt.isZero then now else existing.createdAt,
          updatedAt := now }

def buildTenantUsage (existing : TenantUsage) (req : TenantUsageRequest) (now hostNow : Time) :
    Except Error TenantUsage :=
  if req.tenantID = "" then .error (.invalidArgument "tenant id is required")
  else if req.objectBytes < 0 then .error (.invalidArgument "object bytes cannot be negative")
  else if req.objectCount < 0 then .error (.invalidArgument "object count cannot be negative")
  else if req.activeUploads < 0 then
    .error (.invalidArgument "active uploads cannot be negative")
  else
    let now := if now.isZero then hostNow else now
    .ok { tenantID := req.tenantID, objectBytes := req.objectBytes,
          objectCount := req.objectCount, activeUploads := req.activeUploads,
          reconciledAt := if req.reconciledAt.isZero then now else req.reconciledAt,
          updatedAt := now,
          createdAt := if existing.createdAt.isZero then now else existing.createdAt,
          reconciliationID := req.reconciliationID,
          reconciliationErr := req.reconciliationErr }

def createTenant (context : CallContext) (req : CreateTenantRequest) : Tx Tenant := do
  failIf (req.tenantID = "") (.invalidArgument "tenant id is required")
  let taken ← getJSON (.tenant req.tenantID)
  failIf taken.isSome (.alreadyExists "")
  let tenant : Tenant :=
    { tenantID := req.tenantID, displayName := req.displayName, createdAt := context.now 0 }
  setJSON (.tenant tenant.tenantID) tenant
  pure tenant

/-- `GetTenant`; also the check the quota and usage operations begin with. -/
def getTenant (tenantID : String) : Tx Tenant := do
  let tenant ← getJSON (.tenant tenantID)
  orFail tenant .notFound

def putTenantQuota (context : CallContext) (req : TenantQuotaRequest) : Tx TenantQuota := do
  let _ ← getTenant req.tenantID
  let existing ← getJSON (.tenantQuota req.tenantID)
  let quota ← ofOutcome (buildTenantQuota (existing.getD {}) req (context.now 0) (context.now 1))
  setJSON (.tenantQuota req.tenantID) quota
  pure quota

def putTenantUsage (context : CallContext) (req : TenantUsageRequest) : Tx TenantUsage := do
  let _ ← getTenant req.tenantID
  let existing ← getJSON (.tenantUsage req.tenantID)
  let usage ← ofOutcome (buildTenantUsage (existing.getD {}) req (context.now 0) (context.now 1))
  setJSON (.tenantUsage req.tenantID) usage
  pure usage

/-! ## Access keys -/

structure PutAccessKeyRequest where
  (tenantID accessKeyID secretHash status : String := "")
  permissions : List String := []
deriving DecidableEq

def putAccessKey (context : CallContext) (req : PutAccessKeyRequest) : Tx AccessKey := do
  failIf (req.tenantID = "" ∨ req.accessKeyID = "" ∨ req.secretHash = "")
    (.invalidArgument "access key fields are required")
  let accessKey : AccessKey :=
    { tenantID := req.tenantID, accessKeyID := req.accessKeyID, secretHash := req.secretHash,
      status := if req.status = "" then "active" else req.status,
      permissions := req.permissions, createdAt := context.now 0 }
  setJSON (.accessKey accessKey.accessKeyID) accessKey
  pure accessKey

def getAccessKey (accessKeyID : String) : Tx AccessKey := do
  let accessKey ← getJSON (.accessKey accessKeyID)
  orFail accessKey .notFound

end Namros.Source
