import Namros.Guarantees.MultipartLifecycle
import Namros.Guarantees.ProtectedRefIndex
import Namros.Index.Progress
import Namros.Index.Manifests
import Namros.Source.Tenants

/-!
# Runs of object, upload and tenant calls

The calls of the object and multipart interfaces share one store. In every store a run reaches
from the empty one the object index is consistent, every version can be read with its
manifest, and a tenant's usage record names that tenant.
-/

namespace Namros.Guarantees

open Library Source Index Transaction

/-- A call on objects, uploads or tenants. -/
inductive SystemCall
  | object (call : ObjectCall)
  | multipart (call : MultipartCall)
  | createTenant (req : CreateTenantRequest)
  | putTenantQuota (req : TenantQuotaRequest)
  | putTenantUsage (req : TenantUsageRequest)

/-- The closure of a call. -/
def systemCallBody (platform : Platform) (context : CallContext) : SystemCall → Tx Unit
  | .object call => objectCallBody platform context call
  | .multipart call => multipartCallBody context call
  | .createTenant req => dropResult (createTenant context req)
  | .putTenantQuota req => dropResult (putTenantQuota context req)
  | .putTenantUsage req => dropResult (putTenantUsage context req)

/-- The store after a sequence of calls; a failed call leaves it as it was. -/
def runSystem (platform : Platform) (calls : List (CallContext × SystemCall)) (s : Store) : Store :=
  calls.foldl (fun s call => (systemCallBody platform call.1 call.2).settle s) s

/-- Over the whole run the generator issues no version id twice, and never the empty text. -/
def IssuesOnce (calls : List (CallContext × SystemCall)) : Prop :=
  (calls.flatMap fun call => issuedVersionIDs call.1).Nodup ∧
    ∀ call ∈ calls, "" ∉ issuedVersionIDs call.1

instance (calls : List (CallContext × SystemCall)) : Decidable (IssuesOnce calls) :=
  inferInstanceAs (Decidable (_ ∧ _))

/-- A usage record names the tenant it is filed under. -/
def UsageOwned (s : Store) : Prop :=
  ∀ tenantID usage, s.lookup (.tenantUsage tenantID) = some usage → usage.tenantID = tenantID

/-- What holds in every store a run reaches. -/
structure Serviceable (issued : Set String) (s : Store) : Prop where
  consistent : Consistent issued (objectIndex s)
  readable : Readable (holdings s)
  owned : UsageOwned s

variable {platform : Platform} {context : CallContext}

/-! ## Usage records -/

theorem usageOwned_of_agree {s t : Store} (agree : Agree tenantUsageKey t s)
    (owned : UsageOwned s) : UsageOwned t := by
  intro tenantID usage found
  rw [agree (.tenantUsage tenantID) trivial] at found
  exact owned tenantID usage found

theorem usageOwned_insert {s : Store} (owned : UsageOwned s) {usage : TenantUsage}
    {tenantID : String} (same : usage.tenantID = tenantID) :
    UsageOwned (s.insert (.tenantUsage tenantID) usage) := by
  intro other found stored
  by_cases here : other = tenantID
  · subst here
    rw [AList.lookup_insert] at stored
    exact Option.some.inj stored ▸ same
  · rw [AList.lookup_insert_ne fun clash => here (Key.tenantUsage.inj clash)] at stored
    exact owned other found stored

theorem tenantUsageAfter_owner {existing usage : TenantUsage} {tenantID : String} {delta : Int}
    {now hostNow : Time}
    (built : tenantUsageAfter existing tenantID delta now hostNow = .ok usage) :
    usage.tenantID = tenantID := by
  unfold tenantUsageAfter at built
  split at built
  · cases built
  split at built
  · cases built
  · cases built
    rfl

theorem usageOwned_applyTenantActiveUploadDelta (tenantID : String) (delta : Int)
    (now hostNow : Time) :
    Maintains UsageOwned (applyTenantActiveUploadDelta tenantID delta now hostNow) := by
  have readTenant : Maintains UsageOwned (getJSON (.tenant tenantID)) :=
    Keeps.maintains (keeps_getJSON _) fun _ _ => usageOwned_of_agree
  refine .ite (fun _ => .pure _) fun _ => .bind readTenant fun tenant => ?_
  cases tenant with
  | none => exact .pure _
  | some _ =>
    intro s u t owned ran
    replace ran := past ran rfl
    obtain ⟨usage, built, ran⟩ := ofOutcome_bind_ok.mp ran
    cases ran
    exact usageOwned_insert owned (tenantUsageAfter_owner built)

theorem usageOwned_putTenantUsage (req : TenantUsageRequest) :
    Maintains UsageOwned (putTenantUsage context req) := by
  intro s r t owned ran
  obtain ⟨_, s₁, step, ran⟩ := of_bind ran
  replace step := past step rfl
  obtain ⟨-, rfl⟩ := run_orFail_ok.mp step
  replace ran := past ran rfl
  obtain ⟨usage, built, ran⟩ := ofOutcome_bind_ok.mp ran
  cases ran
  refine usageOwned_insert owned ?_
  unfold buildTenantUsage at built
  split at built
  · cases built
  split at built
  · cases built
  split at built
  · cases built
  split at built
  · cases built
  · cases built
    rfl

/-! ## One call -/

def tenantKey : Key → Prop
  | .tenant _ | .tenantQuota _ | .tenantUsage _ => True
  | _ => False

theorem keeps_createTenant (req : CreateTenantRequest) :
    Keeps (fun k => ¬ (tenantKey k ∧ ¬ tenantUsageKey k)) (createTenant context req) :=
  .bind (.failIf _ _) fun _ => .bind (keeps_getJSON _) fun _ => .bind (.failIf _ _) fun _ =>
    .bind (writes_setJSON _ ⟨trivial, not_false⟩) fun _ => .pure _

theorem keeps_putTenantQuota (req : TenantQuotaRequest) :
    Keeps (fun k => ¬ (tenantKey k ∧ ¬ tenantUsageKey k)) (putTenantQuota context req) :=
  .bind (.bind (keeps_getJSON _) fun _ => .orFail _ _) fun _ => .bind (keeps_getJSON _) fun _ =>
    .bind (.ofOutcome _) fun _ =>
      .bind (writes_setJSON _ ⟨trivial, not_false⟩) fun _ => .pure _

theorem keeps_putTenantUsage (req : TenantUsageRequest) :
    Writes tenantUsageKey (putTenantUsage context req) :=
  .bind (.bind (keeps_getJSON _) fun _ => .orFail _ _) fun _ => .bind (keeps_getJSON _) fun _ =>
    .bind (.ofOutcome _) fun _ =>
      .bind (writes_setJSON _ trivial) fun _ => .pure _

theorem keeps_objectCallBody (call : ObjectCall) :
    Writes objectCallKey (objectCallBody platform context call) :=
  fun _ _ _ ran => (objectCallBody_records ran).outside

/-- The records the object index and the holdings are read from. -/
def objectStateKey (k : Key) : Prop := indexKey k ∨ holdingKey k

theorem objectStateKey_apart (k : Key) :
    objectStateKey k → ¬ uploadRecordKey k ∧ ¬ tenantKey k ∧ ¬ tenantUsageKey k := by
  cases k <;> simp [objectStateKey, indexKey, holdingKey, segmentKey, protectedRefKey,
    uploadRecordKey, tenantKey, tenantUsageKey]

theorem objectCallKey_apart (k : Key) : tenantUsageKey k → ¬ objectCallKey k := by
  cases k <;> simp [tenantUsageKey, objectCallKey, sharedRecordKey, objectRecordKey,
    sharedObjectKey, bucketKey]

variable {U V : Set String} {s t : Store}

theorem Serviceable.of_agree (h : Serviceable U s) (agree : Agree objectStateKey t s)
    (owned : UsageOwned t) : Serviceable U t where
  consistent := by
    rw [objectIndex_congr (agree.mono fun _ index => .inl index)]
    exact h.consistent
  readable := by
    rw [holdings_of_agree (agree.mono fun _ holding => .inr holding)]
    exact h.readable
  owned := owned

/-- A multipart call leaves the object index alone. -/
theorem multipartCallBody_index (call : MultipartCall) :
    objectIndex ((multipartCallBody context call).settle s) = objectIndex s := by
  refine Maintains.settle (P := fun t => objectIndex t = objectIndex s)
    (multipartCallBody_maintains ?_ ?_ call) rfl
  · intro s t agree same
    rw [objectIndex_congr (agree.mono fun k index => (objectStateKey_apart k (.inl index)).1), same]
  intro tenantID delta now hostNow s u t same ran
  have kept := keeps_applyTenantActiveUploadDelta _ _ _ _ _ _ _ ran
  rw [objectIndex_congr (kept.mono fun k index => (objectStateKey_apart k (.inl index)).2.2),
    same]

theorem serviceable_multipartCallBody (call : MultipartCall) :
    Maintains (Serviceable U) (multipartCallBody context call) := by
  refine multipartCallBody_maintains ?_ ?_ call
  · intro s t agree h
    refine h.of_agree (agree.mono fun k state => (objectStateKey_apart k state).1) ?_
    refine usageOwned_of_agree (agree.mono fun k usage inside => ?_) h.owned
    cases k <;> first | exact usage.elim | exact inside.elim
  · intro tenantID delta now hostNow s u t h ran
    have kept := keeps_applyTenantActiveUploadDelta _ _ _ _ _ _ _ ran
    exact h.of_agree (kept.mono fun k state => (objectStateKey_apart k state).2.2)
      (usageOwned_applyTenantActiveUploadDelta _ _ _ _ _ _ _ h.owned ran)

theorem serviceable_tenantRecords {α : Type} {body : Tx α}
    (keeps : Keeps (fun k => ¬ (tenantKey k ∧ ¬ tenantUsageKey k)) body) :
    Maintains (Serviceable U) body := by
  intro s a t h ran
  have kept := keeps s a t ran
  refine h.of_agree (kept.mono fun k state inside => (objectStateKey_apart k state).2.1 inside.1) ?_
  exact usageOwned_of_agree (kept.mono fun k usage inside => inside.2 usage) h.owned

theorem systemCallBody_serviceable {call : SystemCall} (h : Serviceable U s)
    (issues : IssuesFresh context U V)
    (ran : (systemCallBody platform context call).run s = .ok ((), t)) : Serviceable V t := by
  have widen : Serviceable U t → Serviceable V t := fun h =>
    ⟨h.consistent.mono issues.grows, h.readable, h.owned⟩
  cases call with
  | object call =>
    have kept := keeps_objectCallBody call _ _ _ ran
    exact ⟨(objectCallBody_advances h.consistent issues ran).consistent,
      h.readable.moves (objectCallBody_advances h.consistent issues ran).moves,
      usageOwned_of_agree (kept.mono objectCallKey_apart) h.owned⟩
  | multipart call => exact widen (serviceable_multipartCallBody call _ _ _ h ran)
  | createTenant req =>
    exact widen ((serviceable_tenantRecords (keeps_createTenant req)).dropResult _ _ _ h ran)
  | putTenantQuota req =>
    exact widen ((serviceable_tenantRecords (keeps_putTenantQuota req)).dropResult _ _ _ h ran)
  | putTenantUsage req =>
    obtain ⟨usage, put⟩ := run_dropResult_ok.mp ran
    have kept := keeps_putTenantUsage req _ _ _ put
    exact widen (h.of_agree (kept.mono fun k state => (objectStateKey_apart k state).2.2)
      (usageOwned_putTenantUsage req _ _ _ h.owned put))

/-! ## Whole runs -/

theorem serviceable_empty : Serviceable ∅ (∅ : Store) where
  consistent := Consistent.empty
  readable := by
    intro b k id held found
    obtain ⟨v, stored, -⟩ := held_iff.mp found
    cases stored
  owned := by
    intro tenantID usage found
    cases found

theorem runSystem_serviceable (platform : Platform) {calls : List (CallContext × SystemCall)}
    (once : IssuesOnce calls) : ∃ issued, Serviceable issued (runSystem platform calls ∅) :=
  foldl_settle_fresh (systemCallBody platform) (P := Serviceable)
    (fun grows h => ⟨h.consistent.mono grows, h.readable, h.owned⟩)
    (fun h issues ran => systemCallBody_serviceable h issues ran)
    serviceable_empty once.1 once.2 fun _ _ _ _ issued => issued

/-- In such a store the version of every head is read with its whole manifest, and
`GetObjectHead` returns the head with that manifest, unless it is a delete marker's. -/
theorem Serviceable.head_served {b k : String} {entry : ObjectHeadEntry} (h : Serviceable U s)
    (stored : s.lookup (.objectHead b k) = some entry) :
    ∃ full, (getObjectVersion b k entry.versionID).run s = .ok (full, s) ∧
      full.state = .committed ∧ (entry.deleteMarker = false →
        (getHead b k).run s = .ok ((headFromHeadEntry entry).withRefsOf full, s)) := by
  obtain ⟨v, _, _, indexed, committed, same⟩ := (h.consistent.heads b k).current stored
  obtain ⟨w, located, found⟩ := locateVersion_located (h.consistent.versions.at indexed)
  obtain ⟨full, hydrated⟩ := h.readable.hydrates found
  have searched := findVersionByID_finds h.consistent.versions found hydrated
  obtain ⟨-, alike⟩ := findVersionByID_indexed h.consistent.versions searched
  obtain rfl := Option.some.inj (indexed.symm.trans (alike _ _ rfl).2)
  refine ⟨full, run_bind_ok.mpr ⟨_, s, searched, rfl⟩, committed, fun live => ?_⟩
  have bare : ¬ (headFromHeadEntry entry).selfContained := by
    rintro (marker | unnamed | one | many)
    · exact absurd (live.symm.trans marker) Bool.false_ne_true
    · exact h.consistent.versions.named indexed unnamed
    · exact one rfl
    · exact many rfl
  have whole : (hydrateObjectVersionManifest w).run s = .ok (full, s) :=
    run_bind_ok.mpr ⟨s, s, rfl, run_ofOutcome_ok.mpr ⟨hydrated, rfl⟩⟩
  subst same
  obtain ⟨rfl, rfl, -⟩ := h.consistent.versions.identified indexed
  refine run_bind_ok.mpr ⟨_, s, getObjectHead_run .., orFail_bind_ok.mpr
    ⟨_, congrArg (Option.map headFromHeadEntry) stored, ?_⟩⟩
  rw [hydrateHeadOrEmpty, if_neg bare]
  refine run_bind_ok.mpr ⟨_, s, located, ?_⟩
  simp only [StateT.run] at whole ⊢
  rw [whole]

/-! ## Keys that are texts -/

theorem strayKey_apart (K : Key) (stray : strayKey K) :
    ¬ objectCallKey K ∧ ¬ uploadRecordKey K ∧ ¬ tenantKey K ∧ ¬ tenantUsageKey K := by
  refine ⟨strayKey_unwritten K stray, ?_⟩
  unfold strayKey at stray
  split at stray <;> simp [uploadRecordKey, tenantKey, tenantUsageKey] at stray ⊢

/-- No call writes under an object key that is no text. -/
theorem systemCallBody_textual (call : SystemCall) :
    Maintains Textual (systemCallBody platform context call) := by
  cases call with
  | object call =>
    exact Keeps.maintains (keeps_objectCallBody call) fun s t agree h =>
      h.of_agree (agree.mono fun K stray => (strayKey_apart K stray).1)
  | multipart call =>
    refine multipartCallBody_maintains (fun s t agree h => ?_) ?_ call
    · exact h.of_agree (agree.mono fun K stray => (strayKey_apart K stray).2.1)
    · exact fun _ _ _ _ => Keeps.maintains (keeps_applyTenantActiveUploadDelta _ _ _ _)
        fun s t agree h => h.of_agree (agree.mono fun K stray => (strayKey_apart K stray).2.2.2)
  | createTenant req =>
    exact .dropResult (Keeps.maintains (keeps_createTenant req) fun s t agree h =>
      h.of_agree (agree.mono fun K stray written => (strayKey_apart K stray).2.2.1 written.1))
  | putTenantQuota req =>
    exact .dropResult (Keeps.maintains (keeps_putTenantQuota req) fun s t agree h =>
      h.of_agree (agree.mono fun K stray written => (strayKey_apart K stray).2.2.1 written.1))
  | putTenantUsage req =>
    exact .dropResult (Keeps.maintains (keeps_putTenantUsage req) fun s t agree h =>
      h.of_agree (agree.mono fun K stray => (strayKey_apart K stray).2.2.2))

theorem runSystem_textual (calls : List (CallContext × SystemCall)) (h : Textual s) :
    Textual (runSystem platform calls s) := by
  unfold runSystem
  induction calls generalizing s with
  | nil => exact h
  | cons call rest ih => exact ih (Maintains.settle (systemCallBody_textual call.2) h)

end Namros.Guarantees
