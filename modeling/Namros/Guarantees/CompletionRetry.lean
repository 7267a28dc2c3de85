import Mathlib.Data.Int.Interval
import Namros.Guarantees.SystemRuns

/-!
# Retries of a multipart completion

A completion records the version it is about to commit and the head it expects, and a retry
resumes from that record. It converges exactly while the recorded version is stored and is
either committed already or still on top of the expected head with a record that fits the
value budget; once another write or delete of the key has moved the head, every later retry
ends in the same conflict.
-/

namespace Namros.Guarantees

open Library Source Index Transaction

/-! ## Requests that run alone -/

/-- The steps in which `completeMultipartUpload` decides on its success response. -/
def reportsSuccess : Request → Request → Bool
  | .complete _, .cleanup _ => true
  | .finish _, .markCompleted _ => true
  | _, _ => false

/-- A request that runs alone for a number of transactions, the `n`-th of its attempt in
`contexts n`: the store it leaves, and whether it reported success. -/
def runAlone (platform : Platform) (contexts : Nat → CallContext)
    (target : MultipartUploadRequest) :
    Nat → Nat → Store → Request → Store × Bool
  | 0, _, s, _ => (s, false)
  | steps + 1, n, s, request =>
    let served := request.serve platform (contexts n) target s
    let rest := runAlone platform contexts target steps (n + 1) served.1 served.2
    (rest.1, reportsSuccess request served.2 || rest.2)

/-- The version is stored and committed. -/
def VersionCommitted (s : Store) (b k id : String) : Prop :=
  ∃ v, s.lookup (.objectVersion b k id) = some v ∧ v.state = .committed

/-- The request ends in success with the version of the completion committed. -/
def Converges (platform : Platform) (contexts : Nat → CallContext) (target : MultipartUploadRequest)
    (record : MultipartCompletionRecord) (steps n : Nat) (s : Store) (request : Request) : Prop :=
  (runAlone platform contexts target steps n s request).2 = true ∧
    VersionCommitted (runAlone platform contexts target steps n s request).1 record.bucketID
      record.key record.objectVersionID

/-- The upload a request names is active. -/
def ActiveUpload (target : MultipartUploadRequest) (s : Store) : Prop :=
  ∃ upload, (getUpload target).run s = .ok (upload, s) ∧ upload.state = .active

/-- The record is one that a completion of the upload prepared. -/
structure LeftByCompletion (platform : Platform) (target : MultipartUploadRequest)
    (record : MultipartCompletionRecord) : Prop where
  upload : record.upload = target
  parts : ∃ requested available selected etag, completeRequestValid requested = true ∧
    selectCompleteParts available requested = some selected ∧
    multipartETag platform selected = some etag ∧ record.etag = etag ∧
    record.sizeBytes = partsTotalSize selected ∧ record.partCount = selected.length
  version : record.objectVersionID ≠ ""

/-- The version of the completion is committed, or it is pending on top of the head that the
completion expects and its committed record fits the value budget. -/
def Resumable (platform : Platform) (now : Time) (record : MultipartCompletionRecord) (s : Store) :
    Prop :=
  ∃ v, s.lookup (.objectVersion record.bucketID record.key record.objectVersionID) = some v ∧
    (v.state = .committed ∨
      (currentID (objectIndex s) record.bucketID record.key = record.expectedHeadVersionID ∧
        ∃ full plan, hydrateWith (chunksOf s v) v = .ok full ∧
          planObjectVersionManifestStorage platform
            { full with state := .committed, committedAt := now } = .ok plan))

variable {platform : Platform} {contexts : Nat → CallContext} {context : CallContext}
  {target : MultipartUploadRequest} {record : MultipartCompletionRecord} {s t : Store}
  {steps n : Nat}

variable {b k id : String}

theorem versionCommitted_iff :
    VersionCommitted s b k id ↔ ∃ v, (objectIndex s).version b k id = some v ∧
      v.state = .committed := by
  constructor
  · rintro ⟨v, stored, committed⟩
    exact ⟨metadata v, congrArg (Option.map metadata) stored, committed⟩
  · rintro ⟨v, indexed, committed⟩
    obtain ⟨w, stored, rfl⟩ := Option.map_eq_some_iff.mp indexed
    exact ⟨w, stored, committed⟩

variable {α : Type} {body : Tx α} {succeeded : α → Request} {failed : Error → Request}

theorem attempt_of_ok {a : α} (ran : body.run s = .ok (a, t)) :
    attempt body s succeeded failed = (t, succeeded a) := by
  unfold attempt
  rw [ran]

theorem attempt_of_error {e : Error} (ran : body.run s = .error e) :
    attempt body s succeeded failed = (s, failed e) := by
  unfold attempt
  rw [ran]

theorem attempt_store (body : Tx α) (s : Store) (succeeded : α → Request)
    (failed : Error → Request) : (attempt body s succeeded failed).1 = body.settle s := by
  unfold attempt settle
  cases body.run s <;> rfl

variable {request : Request}

/-- A transaction that decides nothing leaves the rest of the request to converge. -/
theorem converges_step {next : Request}
    (served : request.serve platform (contexts n) target s = (t, next))
    (undecided : reportsSuccess request next = false) :
    Converges platform contexts target record (steps + 1) n s request ↔
      Converges platform contexts target record steps (n + 1) t next := by
  unfold Converges
  rw [runAlone, served]
  simp [undecided]

theorem not_converges_finished :
    ¬ Converges platform contexts target record steps n s .finished := by
  induction steps generalizing n with
  | zero => exact fun converges => nomatch converges.1
  | succ steps ih =>
    exact ih

/-! ## After the commit -/

/-- The requests that only close the upload. -/
def Closing : Request → Prop
  | .markPublished _ | .finish _ | .markCompleted _ | .cleanup _ | .finished => True
  | _ => False

theorem attempt_next {P : Request → Prop} (yes : ∀ a, P (succeeded a)) (no : ∀ e, P (failed e)) :
    P (attempt body s succeeded failed).2 := by
  unfold attempt
  cases body.run s with
  | error e => exact no e
  | ok r => exact yes r.1

theorem closing_serve (closing : Closing request) :
    Closing (request.serve platform context target s).2 ∧
      objectIndex (request.serve platform context target s).1 = objectIndex s := by
  -- the store a closing request leaves is the one of its multipart call
  have index (call : MultipartCall) {α : Type} {body : Tx α} {succeeded : α → Request}
      {failed : Error → Request} (same : multipartCallBody context call = dropResult body) :
      objectIndex (attempt body s succeeded failed).1 = objectIndex s := by
    rw [attempt_store, ← settle_dropResult, ← same]
    exact multipartCallBody_index call
  cases request with
  | markPublished completion =>
    exact ⟨attempt_next (fun _ => trivial) fun _ => trivial,
      index (.markMultipartCompletionPublished completion.upload) rfl⟩
  | finish completion =>
    exact ⟨attempt_next (fun _ => trivial) fun _ => trivial, index (.completeMultipartUpload _) rfl⟩
  | markCompleted completion =>
    exact ⟨attempt_next (fun _ => trivial) fun _ => trivial,
      index (.markMultipartCompletionCompleted completion.upload) rfl⟩
  | cleanup upload =>
    exact ⟨attempt_next (fun _ => trivial) fun _ => trivial,
      index (.cleanupMultipartUploadParts upload _) rfl⟩
  | finished => exact ⟨trivial, rfl⟩
  | _ => exact closing.elim

theorem closing_runAlone (closing : Closing request) :
    objectIndex (runAlone platform contexts target steps n s request).1 = objectIndex s := by
  induction steps generalizing n s request with
  | zero => rfl
  | succ steps ih =>
    have served : Closing (request.serve platform (contexts n) target s).2 ∧
        objectIndex (request.serve platform (contexts n) target s).1 = objectIndex s :=
      closing_serve closing
    exact (ih served.1).trans served.2

theorem applyTenantActiveUploadDelta_succeeds (owned : UsageOwned s) (tenantID : String)
    (delta : Int) (now hostNow : Time) :
    ∃ r, (applyTenantActiveUploadDelta tenantID delta now hostNow).run s = .ok r := by
  unfold applyTenantActiveUploadDelta
  by_cases anonymous : tenantID = ""
  · rw [if_pos anonymous]
    exact ⟨_, rfl⟩
  rw [if_neg anonymous]
  refine exists_run_bind (run_getJSON _ _) ?_
  cases s.lookup (.tenant tenantID) with
  | none => exact ⟨_, rfl⟩
  | some _ =>
    refine exists_run_bind (run_getJSON _ _) ?_
    obtain ⟨existing, stored⟩ : ∃ existing : Option TenantUsage,
      s.lookup (.tenantUsage tenantID) = existing := ⟨_, rfl⟩
    have mine : (existing.getD {}).tenantID ≠ "" → (existing.getD {}).tenantID = tenantID := by
      cases existing with
      | none => exact fun absent => absurd rfl absent
      | some usage => exact fun _ => owned tenantID usage stored
    rw [stored, tenantUsageAfter, if_neg anonymous, if_neg fun other => other.2 (mine other.1)]
    exact exists_run_bind (run_ofOutcome_ok.mpr ⟨rfl, rfl⟩) ⟨_, rfl⟩

theorem applyTenantActiveUploadDeltaForBucket_succeeds (owned : UsageOwned s) (bucketID : String)
    (delta : Int) (now hostNow : Time) :
    ∃ r, (applyTenantActiveUploadDeltaForBucket bucketID delta now hostNow).run s = .ok r := by
  refine exists_run_bind (run_getJSON _ _) ?_
  cases s.lookup (.bucketByID bucketID) with
  | none => exact ⟨_, rfl⟩
  | some bucket => exact applyTenantActiveUploadDelta_succeeds owned _ _ _ _

/-- Storing a closed upload and counting its tenant's uploads down. -/
theorem closeUpload_succeeds (owned : UsageOwned s) (upload : MultipartUpload) (bucketID : String)
    (now hostNow : Time) (result : α) : ∃ r, (do
      setMultipartUpload upload
      applyTenantActiveUploadDeltaForBucket bucketID (-1) now hostNow
      pure result : Tx α).run s = .ok r := by
  have stores : Total (setMultipartUpload upload) :=
    .bind (total_setJSON _ _) fun _ => .ite (total_deleteKey _) (total_setJSON _ _)
  obtain ⟨_, s₁, stored⟩ := stores s
  have owned₁ : UsageOwned s₁ :=
    maintains_setMultipartUpload (fun _ _ agree => usageOwned_of_agree <|
      agree.mono fun k usage inside => by
        cases k <;> first | exact usage.elim | exact inside.elim) upload _ _ _ owned stored
  obtain ⟨⟨_, s₂⟩, counted⟩ := applyTenantActiveUploadDeltaForBucket_succeeds owned₁ bucketID (-1)
    now hostNow
  exact exists_run_bind stored (exists_run_bind counted ⟨_, rfl⟩)

/-! ## The record of a completion -/

theorem selectCompleteParts_length {available selected : List MultipartPart}
    {requested : List CompletePart}
    (chosen : selectCompleteParts available requested = some selected) :
    selected.length = requested.length := by
  induction requested generalizing selected with
  | nil =>
    cases chosen
    rfl
  | cons req rest ih =>
    unfold selectCompleteParts at chosen
    simp only [Option.bind_eq_bind, Option.bind_eq_some_iff] at chosen
    obtain ⟨part, -, chosen⟩ := chosen
    split at chosen
    · cases chosen
    · obtain ⟨others, following, same⟩ := Option.bind_eq_some_iff.mp chosen
      cases same
      rw [List.length_cons, List.length_cons, ih following]

/-- Increasing numbers between one and `bound` are at most `bound` many. -/
theorem length_le_of_increasing {numbers : List Int} {bound : Nat}
    (increasing : numbers.IsChain (· < ·))
    (within : ∀ number ∈ numbers, 1 ≤ number ∧ number ≤ (bound : Int)) :
    numbers.length ≤ bound := by
  have distinct : numbers.Nodup := by
    have sorted := List.isChain_iff_pairwise.mp increasing
    exact sorted.imp fun less => ne_of_lt less
  have inside : numbers.toFinset ⊆ Finset.Icc 1 (bound : Int) := fun number member =>
    Finset.mem_Icc.mpr (within number (List.mem_toFinset.mp member))
  have counted := Finset.card_le_card inside
  rw [List.toFinset_card_of_nodup distinct, Int.card_Icc] at counted
  omega

theorem completeRequestValid_length {requested : List CompletePart}
    (valid : completeRequestValid requested = true) :
    1 ≤ requested.length ∧ requested.length ≤ 10000 := by
  unfold completeRequestValid at valid
  simp only [Bool.and_eq_true, decide_eq_true_eq, List.all_eq_true] at valid
  obtain ⟨⟨nonempty, within⟩, increasing⟩ := valid
  refine ⟨List.length_pos_iff.mpr nonempty, ?_⟩
  rw [← List.length_map (f := CompletePart.partNumber)]
  refine length_le_of_increasing increasing fun number member => ?_
  obtain ⟨part, requested, rfl⟩ := List.mem_map.mp member
  exact within part requested

theorem LeftByCompletion.partCount (left : LeftByCompletion platform target record) :
    1 ≤ record.partCount ∧ record.partCount ≤ maxMultipartParts := by
  obtain ⟨requested, available, selected, etag, valid, chosen, -, -, -, counted⟩ := left.parts
  have bounds := completeRequestValid_length valid
  have same := selectCompleteParts_length chosen
  have limit : maxMultipartParts = 10000 := rfl
  omega

theorem LeftByCompletion.etag (left : LeftByCompletion platform target record) :
    record.etag ≠ "" := by
  obtain ⟨requested, available, selected, etag, -, -, computed, same, -⟩ := left.parts
  obtain ⟨digests, -, computed⟩ := Option.bind_eq_some_iff.mp computed
  cases computed
  rw [same]
  intro empty
  have lengths := congrArg String.length empty
  simp [String.length_append] at lengths

/-! ## The retry -/

/-- The records of completions. -/
def completionKey : Key → Prop
  | .multipartCompletion _ _ => True
  | _ => False

theorem ActiveUpload.of_agree (active : ActiveUpload target s)
    (agree : Agree (fun k => ∃ b u, k = .multipartUpload b u) t s) : ActiveUpload target t := by
  obtain ⟨upload, read, active⟩ := active
  refine ⟨upload, ?_, active⟩
  obtain ⟨named, read⟩ := failIf_bind_ok.mp read
  replace read := past read rfl
  have same : t.lookup (.multipartUpload target.bucketID target.uploadID) =
      s.lookup (.multipartUpload target.bucketID target.uploadID) := agree _ ⟨_, _, rfl⟩
  obtain ⟨_, found, read⟩ := orFail_bind_ok.mp read
  obtain ⟨matching, read⟩ := failIf_bind_ok.mp read
  cases read
  refine run_bind_ok.mpr ⟨(), t, run_failIf_ok.mpr ⟨named, rfl⟩,
    run_bind_ok.mpr ⟨_, t, rfl, run_bind_ok.mpr ⟨upload, t, ?_, ?_⟩⟩⟩
  · rw [same]
    exact run_orFail_ok.mpr ⟨found, rfl⟩
  · exact run_bind_ok.mpr ⟨(), t, run_failIf_ok.mpr ⟨matching, rfl⟩, rfl⟩

/-- Once the version is committed, an active upload is completed. -/
theorem converges_markPublished (left : LeftByCompletion platform target record)
    (active : ActiveUpload target s) (owned : UsageOwned s)
    (committed : VersionCommitted s record.bucketID record.key record.objectVersionID) :
    Converges platform contexts target record (steps + 2) n s (.markPublished record) := by
  have writes : Writes completionKey
      (markMultipartCompletionState (contexts n) record.upload .published) :=
    .read (readOnly_getMultipartCompletion _) fun _ => .ite
      (fun _ => .bind (writes_setJSON _ trivial) fun _ => .pure _)
      fun _ => .pure _
  have kept : Agree (fun k => ¬ completionKey k)
      ((markMultipartCompletionState (contexts n) record.upload .published).settle s) s :=
    settle_induction (.refl s) fun _ _ ran => writes _ _ _ ran
  have marked : Request.serve platform (contexts n) target s (.markPublished record) =
      ((markMultipartCompletionState (contexts n) record.upload .published).settle s,
        .finish record) :=
    Prod.ext (attempt_store _ _ _ _)
      (attempt_next (P := fun next => next = .finish record) (fun _ => rfl) fun _ => rfl)
  generalize (markMultipartCompletionState (contexts n) record.upload .published).settle s = s₁
    at kept marked
  have active₁ : ActiveUpload record.upload s₁ := by
    rw [left.upload]
    exact active.of_agree (kept.mono (by rintro k ⟨b, u, rfl⟩ no; exact no))
  have owned₁ : UsageOwned s₁ := usageOwned_of_agree
    (kept.mono fun k usage inside => by cases k <;> first | exact usage.elim | exact inside.elim)
    owned
  have completes : ∃ r, (completeMultipartUpload (contexts (n + 1))
      { upload := record.upload, objectVersionID := record.objectVersionID, etag := record.etag,
        sizeBytes := record.sizeBytes, partCount := record.partCount }).run s₁ = .ok r := by
    obtain ⟨upload, read, active⟩ := active₁
    have valid : validateCompletedMultipartPartCount record.partCount = .ok () := by
      have counted := left.partCount
      unfold validateCompletedMultipartPartCount
      rw [if_neg (by omega)]
    refine exists_run_bind (a := ())
      (run_failIf_ok.mpr ⟨not_or.mpr ⟨left.version, left.etag⟩, rfl⟩) (exists_run_bind read ?_)
    rw [active]
    exact exists_run_bind (run_ofOutcome_ok.mpr ⟨valid, rfl⟩)
      (closeUpload_succeeds owned₁ _ _ _ _ _)
  obtain ⟨⟨upload, s₂⟩, completed⟩ := completes
  have finished : Request.serve platform (contexts (n + 1)) target s₁ (.finish record) =
      (s₂, .markCompleted record) := attempt_of_ok completed
  constructor
  · rw [runAlone, marked, runAlone, finished]
    simp [reportsSuccess]
  · have closing : Closing (.markPublished record) := trivial
    rw [versionCommitted_iff, closing_runAlone closing]
    exact versionCommitted_iff.mp committed

variable {U : Set String}

/-- A version found by its id is the stored one with its manifest. -/
theorem Serviceable.found (h : Serviceable U s) {K : Key} {full : ObjectVersion}
    (searched : (findVersionByID b k id).run s = .ok (some (K, full), t)) :
    s = t ∧ ∃ v, s.lookup (.objectVersion b k id) = some v ∧
      hydrateWith (chunksOf s v) v = .ok full ∧ full.state = v.state := by
  obtain ⟨same, indexed⟩ := findVersionByID_indexed h.consistent.versions searched
  obtain ⟨-, indexed⟩ := indexed _ _ rfl
  obtain ⟨v, stored, alike⟩ := Option.map_eq_some_iff.mp indexed
  obtain ⟨full', hydrated⟩ := h.readable.hydrates stored
  have again := findVersionByID_finds h.consistent.versions stored hydrated
  rw [again] at searched
  cases searched
  exact ⟨same, v, stored, hydrated, (congrArg ObjectVersion.state alike).symm⟩

theorem Serviceable.getObjectVersion_ok (h : Serviceable U s) {v full : ObjectVersion}
    (stored : s.lookup (.objectVersion b k id) = some v)
    (hydrated : hydrateWith (chunksOf s v) v = .ok full) :
    (getObjectVersion b k id).run s = .ok (full, s) ∧ full.state = v.state := by
  have searched := findVersionByID_finds h.consistent.versions stored hydrated
  obtain ⟨-, w, stored', -, state⟩ := h.found searched
  rw [Option.some.inj (stored.symm.trans stored')]
  exact ⟨run_bind_ok.mpr ⟨_, s, searched, rfl⟩, state⟩

/-- The commit a retry makes. -/
def commitRequest (record : MultipartCompletionRecord) : CommitObjectVersionRequest :=
  { bucketID := record.bucketID, key := record.key, versionID := record.objectVersionID,
    expectedHeadVersionID := record.expectedHeadVersionID }

variable {head : ObjectHead}

theorem resumable_of_commit (h : Serviceable U s)
    (ran : (commitObjectVersion platform context (commitRequest record)).run s =
      .ok (head, t)) : Resumable platform (context.now 0) record s := by
  obtain ⟨bucket, current, s₁, K, full, -, -, headed, expected, searched, rest⟩ :=
    commitObjectVersion_ok ran
  obtain ⟨rfl, v, stored, hydrated, state⟩ := h.found searched
  refine ⟨v, stored, ?_⟩
  rcases rest with ⟨committed, -⟩ | ⟨-, installed⟩
  · exact .inl (state ▸ committed)
  obtain ⟨s₂, -, -, -, put, -⟩ := installVersion_ok installed
  obtain ⟨plan, _, step, -⟩ := of_bind put
  have fits := (run_ofOutcome_ok.mp step).1
  obtain ⟨current', headed', same⟩ := getObjectHead_currentID s record.bucketID record.key
  cases headed.symm.trans headed'
  exact .inr ⟨same.symm.trans expected, full, plan, hydrated, fits⟩

theorem committed_of_commit (h : Serviceable U s)
    (ran : (commitObjectVersion platform context (commitRequest record)).run s =
      .ok (head, t)) : VersionCommitted t record.bucketID record.key record.objectVersionID := by
  rw [versionCommitted_iff]
  obtain ⟨bucket, v, -, stored, rest⟩ := commitObjectVersion_versions h.consistent ran
  rcases rest with ⟨committed, rfl⟩ | ⟨-, versions⟩
  · exact ⟨v, stored, committed⟩
  obtain ⟨sameBucket, sameKey, sameID, -⟩ := h.consistent.versions.identified stored
  refine ⟨{ v with state := .committed, committedAt := context.now 0 }, ?_, rfl⟩
  rw [versions]
  exact if_pos ⟨sameBucket.symm, sameKey.symm, sameID.symm⟩

theorem upload_apart (k : Key) : (∃ b u, k = .multipartUpload b u) → ¬ objectCallKey k := by
  cases k <;> simp [objectCallKey, sharedRecordKey, objectRecordKey, sharedObjectKey, bucketKey]

/-- A retry that can resume converges. -/
theorem converges_of_resumable (h : Serviceable U s)
    (left : LeftByCompletion platform target record)
    (active : ActiveUpload target s) {bucket : Bucket}
    (hosted : s.lookup (.bucketByID target.bucketID) = some bucket)
    (resumable : Resumable platform ((contexts (n + 1)).now 0) record s) :
    Converges platform contexts target record (steps + 4) n s (.resume record) := by
  obtain ⟨v, stored, resumes⟩ := resumable
  by_cases committed : v.state = .committed
  · obtain ⟨full, hydrated⟩ := h.readable.hydrates stored
    obtain ⟨read, state⟩ := h.getObjectVersion_ok stored hydrated
    have served : Request.serve platform (contexts n) target s (.resume record) =
        (s, .markPublished record) :=
      (attempt_of_ok read).trans (congrArg (Prod.mk s) (if_pos (state.trans committed)))
    rw [converges_step served rfl]
    exact converges_markPublished left active h.owned ⟨v, stored, committed⟩
  · obtain ⟨expected, full, plan, hydrated, fits⟩ := resumes.resolve_left committed
    obtain ⟨read, state⟩ := h.getObjectVersion_ok stored hydrated
    have served : Request.serve platform (contexts n) target s (.resume record) =
        (s, .commit record) :=
      (attempt_of_ok read).trans (congrArg (Prod.mk s) (if_neg (state ▸ committed)))
    rw [converges_step served rfl]
    have named : record.bucketID ≠ "" ∧ record.key ≠ "" := by
      obtain ⟨upload, found, -⟩ := active
      obtain ⟨_, _, step, -⟩ := of_bind found
      obtain ⟨named, -⟩ := run_failIf_ok.mp step
      rw [← left.upload] at named
      exact ⟨fun empty => named (.inl empty), fun empty => named (.inr (.inl empty))⟩
    rw [← left.upload] at hosted
    have commits : ∃ head t, (commitObjectVersion platform (contexts (n + 1))
        (commitRequest record)).run s = .ok (head, t) :=
      commitObjectVersion_succeeds h.consistent h.readable named hosted expected stored hydrated
        committed fits
    obtain ⟨head, t, commit⟩ := commits
    have next : Request.serve platform (contexts (n + 1)) target s (.commit record) =
        (t, .markPublished record) := attempt_of_ok commit
    have kept := (commitObjectVersion_records commit).outside
    rw [converges_step next rfl]
    refine converges_markPublished left (active.of_agree ?_) (usageOwned_of_agree ?_ h.owned)
      (committed_of_commit h commit)
    · exact kept.mono fun k upload => upload_apart k upload
    · exact kept.mono fun k usage => objectCallKey_apart k usage

/-- The head `GetObjectHead` returns is the stored one, or the empty one. -/
theorem getHead_versionID (ran : (getHead b k).run s = .ok (head, t))
    (named : head.versionID ≠ "") : currentID (objectIndex s) b k = head.versionID := by
  obtain ⟨current, headed, same⟩ := getObjectHead_currentID s b k
  obtain ⟨_, _, step, ran⟩ := of_bind ran
  cases headed.symm.trans step
  obtain ⟨stored, rfl, ran⟩ := orFail_bind_ok.mp ran
  rw [← same]
  rcases hydrateHeadOrEmpty_ok ran with
    ⟨rfl, -⟩ | ⟨-, -, -, ⟨rfl, -⟩ | ⟨rfl, -⟩ | ⟨-, w, -, rfl⟩⟩
  · rfl
  · rfl
  · exact absurd rfl named
  · rfl

/-- A commit that goes on to close the upload could resume. -/
theorem resumable_of_converges_commit (h : Serviceable U s) (named : record.objectVersionID ≠ "")
    (converges : Converges platform contexts target record steps n s (.commit record)) :
    Resumable platform ((contexts n).now 0) record s := by
  cases steps with
  | zero => exact nomatch converges.1
  | succ steps =>
    cases commit : (commitObjectVersion platform (contexts n) (commitRequest record)).run s with
    | ok r => exact resumable_of_commit h commit
    | error e =>
      have served : ∃ next, Request.serve platform (contexts n) target s (.commit record) =
          (s, next) ∧ (next = .confirmHead record ∨ next = .finished) := by
        refine ⟨_, attempt_of_error commit, ?_⟩
        split
        · exact .inl rfl
        · exact .inr rfl
      obtain ⟨_, served, rfl | rfl⟩ := served
      · rw [converges_step served rfl] at converges
        cases steps with
        | zero => exact nomatch converges.1
        | succ steps =>
          cases confirm : (getHead record.bucketID record.key).run s with
          | error e =>
            have confirmed : Request.serve platform (contexts (n + 1)) target s
              (.confirmHead record) = (s, .finished) := attempt_of_error confirm
            rw [converges_step confirmed rfl] at converges
            exact absurd converges not_converges_finished
          | ok r =>
            obtain ⟨head, t⟩ := r
            have confirmed : Request.serve platform (contexts (n + 1)) target s
                (.confirmHead record) =
              (t, if head.versionID = record.objectVersionID then .markPublished record
                else .finished) := attempt_of_ok confirm
            by_cases mine : head.versionID = record.objectVersionID
            · have current := getHead_versionID confirm (mine ▸ named)
              have headed : currentID (objectIndex s) record.bucketID record.key ≠ "" := by
                rw [current, mine]
                exact named
              obtain ⟨v, committed, indexed⟩ := h.consistent.currentID_committed headed
              rw [current, mine] at indexed
              obtain ⟨w, stored, rfl⟩ := Option.map_eq_some_iff.mp indexed
              exact ⟨w, stored, .inl committed⟩
            · rw [if_neg mine] at confirmed
              rw [converges_step confirmed rfl] at converges
              exact absurd converges not_converges_finished
      · rw [converges_step served rfl] at converges
        exact absurd converges not_converges_finished

theorem resumable_of_converges (h : Serviceable U s) (named : record.objectVersionID ≠ "")
    (converges : Converges platform contexts target record steps n s (.resume record)) :
    Resumable platform ((contexts (n + 1)).now 0) record s := by
  cases steps with
  | zero => exact nomatch converges.1
  | succ steps =>
    cases read : (getObjectVersion record.bucketID record.key record.objectVersionID).run s with
    | error e =>
      have served : Request.serve platform (contexts n) target s (.resume record) =
          (s, if e = .notFound then .commit record else .finished) := attempt_of_error read
      by_cases absent : e = .notFound
      · rw [if_pos absent] at served
        rw [converges_step served rfl] at converges
        exact resumable_of_converges_commit h named converges
      · rw [if_neg absent] at served
        rw [converges_step served rfl] at converges
        exact absurd converges not_converges_finished
    | ok r =>
      obtain ⟨version, t⟩ := r
      obtain ⟨found, s₁, searched, rest⟩ := of_bind read
      obtain ⟨⟨K, full⟩, rfl, rest⟩ := orFail_bind_ok.mp rest
      cases rest
      obtain ⟨rfl, v, stored, -, state⟩ := h.found searched
      have served : Request.serve platform (contexts n) target s (.resume record) =
          (s, if version.state = .committed then .markPublished record else .commit record) :=
        attempt_of_ok read
      by_cases committed : version.state = .committed
      · exact ⟨v, stored, .inl (state ▸ committed)⟩
      · rw [if_neg committed] at served
        rw [converges_step served rfl] at converges
        exact resumable_of_converges_commit h named converges

/-- A retry of a prepared completion, alone and without failures, ends in success with the
object committed exactly when the completion can be resumed. -/
theorem completion_retry_converges_iff (platform : Platform)
    (calls : List (CallContext × SystemCall)) (once : IssuesOnce calls)
    (target : MultipartUploadRequest) (record : MultipartCompletionRecord) (bucket : Bucket)
    (hosted : (runSystem platform calls ∅).lookup (.bucketByID target.bucketID) = some bucket)
    (active : ActiveUpload target (runSystem platform calls ∅))
    (prepared : (getMultipartCompletion target).run (runSystem platform calls ∅) =
      .ok (record, runSystem platform calls ∅))
    (left : LeftByCompletion platform target record) (requested : List CompletePart)
    (contexts : Nat → CallContext) (steps : Nat) (enough : 8 ≤ steps) :
    Converges platform contexts target record steps 0 (runSystem platform calls ∅)
        (.complete requested) ↔
      Resumable platform ((contexts 3).now 0) record (runSystem platform calls ∅) := by
  obtain ⟨issued, h⟩ := runSystem_serviceable platform once
  generalize runSystem platform calls ∅ = s at *
  obtain ⟨rest, rfl⟩ := Nat.exists_eq_add_of_le' enough
  obtain ⟨upload, read, open_⟩ := active
  have first : Request.serve platform (contexts 0) target s (.complete requested) =
      (s, .findCompletion requested upload) :=
    (attempt_of_ok read).trans (by rw [open_])
  have second : Request.serve platform (contexts 1) target s (.findCompletion requested upload) =
      (s, .resume record) := attempt_of_ok prepared
  rw [converges_step first rfl, converges_step second rfl]
  constructor
  · exact resumable_of_converges h left.version
  · exact converges_of_resumable h left ⟨upload, read, open_⟩ hosted

/-! ## Sample runs -/

theorem activeUpload_of_lookup
    (named : target.bucketID ≠ "" ∧ target.key ≠ "" ∧ target.uploadID ≠ "")
    (found : ∃ upload ∈ s.lookup (.multipartUpload target.bucketID target.uploadID),
      upload.key = target.key ∧ upload.state = .active) : ActiveUpload target s := by
  obtain ⟨upload, stored, sameKey, active⟩ := found
  refine ⟨upload, ?_, active⟩
  refine run_bind_ok.mpr ⟨(), s, run_failIf_ok.mpr ⟨by tauto, rfl⟩,
    run_bind_ok.mpr ⟨_, s, rfl, run_bind_ok.mpr ⟨upload, s, ?_, ?_⟩⟩⟩
  · exact run_orFail_ok.mpr ⟨stored, rfl⟩
  · have passes := not_not.mpr (congrArg GoString.text sameKey)
    exact run_bind_ok.mpr ⟨(), s, run_failIf_ok.mpr ⟨passes, rfl⟩, rfl⟩

theorem getMultipartCompletion_of_lookup
    (stored : s.lookup (.multipartCompletion target.bucketID target.uploadID) = some record)
    (sameKey : record.key = target.key) :
    (getMultipartCompletion target).run s = .ok (record, s) := by
  refine run_bind_ok.mpr ⟨_, s, rfl, run_bind_ok.mpr ⟨record, s, ?_, ?_⟩⟩
  · exact run_orFail_ok.mpr ⟨stored, rfl⟩
  · have passes := not_not.mpr (congrArg GoString.text sameKey)
    exact run_bind_ok.mpr ⟨(), s, run_failIf_ok.mpr ⟨passes, rfl⟩, rfl⟩

theorem ok_of_toOption {ran : Except Error α} {a : α} (succeeded : ran.toOption = some a) :
    ran = .ok a := by
  cases ran with
  | error e => cases succeeded
  | ok b =>
    cases succeeded
    rfl

def retriedTarget : MultipartUploadRequest :=
  { bucketID := "bkt_1", key := "k", uploadID := "upl_2" }

/-- The record the completion of the one part leaves. -/
def retriedRecord : MultipartCompletionRecord :=
  { bucketID := "bkt_1", key := "k", uploadID := "upl_2", objectVersionID := "ver_4",
    etag := "\"a-1\"", partCount := 1, state := .prepared, createdAt := 5, updatedAt := 5 }

/-- An upload of one part whose completion stopped after it had prepared its record. -/
def preparedCalls : List (CallContext × SystemCall) :=
  [(numberedContext 1 1, .object (.createBucket { tenantID := "t", name := "b", region := "r" })),
   (numberedContext 2 2, .multipart (.createMultipartUpload { bucketID := "bkt_1", key := "k" })),
   (numberedContext 3 3, .multipart (.putMultipartPart
      { upload := retriedTarget, partNumber := 1, etag := "61", segmentRef := { segmentID := "A" } })),
   (numberedContext 4 4, .object (.beginPutObject
      { bucketID := "bkt_1", key := "k", etag := "\"a-1\"", segmentRefs := [{ segmentID := "A" }] })),
   (numberedContext 5 5, .multipart (.prepareMultipartCompletion
      { upload := retriedTarget, objectVersionID := "ver_4", etag := "\"a-1\"", partCount := 1 }))]

/-- The same, and then another write of the key. -/
def overtakenCalls : List (CallContext × SystemCall) :=
  preparedCalls ++
    [(numberedContext 6 6, .object (.putObjectVersion { bucketID := "bkt_1", key := "k" }))]

/-- The contexts of the retry. -/
def retryContexts (n : Nat) : CallContext := numberedContext (n + 7) (n + 7)

theorem retriedRecord_left : LeftByCompletion plainPlatform retriedTarget retriedRecord where
  upload := rfl
  parts := ⟨[{ partNumber := 1 }], [{ partNumber := 1, etag := "61", segmentRef := { segmentID := "A" } }],
    _, _, by decide, rfl, rfl, by decide +kernel, by decide +kernel, by decide +kernel⟩
  version := by decide

theorem completion_retry_resumes :
    Converges plainPlatform retryContexts retriedTarget retriedRecord 8 0
      (runSystem plainPlatform preparedCalls ∅) (.complete [{ partNumber := 1 }]) := by
  obtain ⟨bucket, hosted⟩ : ∃ bucket,
      (runSystem plainPlatform preparedCalls ∅).lookup (.bucketByID "bkt_1") = some bucket :=
    Option.isSome_iff_exists.mp (by decide +kernel)
  have found : (runSystem plainPlatform preparedCalls ∅).lookup
      (.multipartCompletion "bkt_1" "upl_2") = some retriedRecord := by decide +kernel
  have pending : ∃ v ∈ (runSystem plainPlatform preparedCalls ∅).lookup
      (.objectVersion "bkt_1" "k" "ver_4"), ∃ full ∈ (hydrateWith
        (chunksOf (runSystem plainPlatform preparedCalls ∅) v) v).toOption,
      (planObjectVersionManifestStorage plainPlatform
        { full with state := .committed, committedAt := 10 }).toOption.isSome := by
    decide +kernel
  obtain ⟨v, stored, full, hydrated, fits⟩ := pending
  obtain ⟨plan, fits⟩ := Option.isSome_iff_exists.mp fits
  refine (completion_retry_converges_iff plainPlatform preparedCalls (by decide +kernel)
    retriedTarget retriedRecord bucket hosted (activeUpload_of_lookup (by decide) (by decide +kernel))
    (getMultipartCompletion_of_lookup found rfl) retriedRecord_left [{ partNumber := 1 }]
    retryContexts 8 le_rfl).mpr
    ⟨v, stored, .inr ⟨by decide +kernel, full, plan, ok_of_toOption hydrated,
      ok_of_toOption fits⟩⟩

/-- After another write of the key the retry fails. -/
theorem overtaken_completion_retry_fails :
    IssuesOnce overtakenCalls ∧
      ActiveUpload retriedTarget (runSystem plainPlatform overtakenCalls ∅) ∧
      (getMultipartCompletion retriedTarget).run (runSystem plainPlatform overtakenCalls ∅) =
        .ok (retriedRecord, runSystem plainPlatform overtakenCalls ∅) ∧
      LeftByCompletion plainPlatform retriedTarget retriedRecord ∧
      ¬ Converges plainPlatform retryContexts retriedTarget retriedRecord 8 0
        (runSystem plainPlatform overtakenCalls ∅) (.complete [{ partNumber := 1 }]) := by
  have found : (runSystem plainPlatform overtakenCalls ∅).lookup
      (.multipartCompletion "bkt_1" "upl_2") = some retriedRecord := by decide +kernel
  have failed : (runAlone plainPlatform retryContexts retriedTarget 8 0
      (runSystem plainPlatform overtakenCalls ∅) (.complete [{ partNumber := 1 }])).2 = false := by
    decide +kernel
  refine ⟨by decide +kernel, activeUpload_of_lookup (by decide) (by decide +kernel),
    getMultipartCompletion_of_lookup found rfl, retriedRecord_left, fun converges => ?_⟩
  exact Bool.false_ne_true (failed.symm.trans converges.1)

end Namros.Guarantees
