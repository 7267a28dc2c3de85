import Namros.Guarantees.IndexInvariant
import Namros.Multipart.LifecycleSteps

/-!
# Uploads over whole runs

Whatever multipart calls are made on keys that are UTF-8, in whatever order and whether they
succeed or fail, every upload goes through one life: it is closed at most once, it is listed
exactly while it is active, its completion record only moves forward, its summary is that of the
parts that were written, and cleanup accounts for every one of them. An upload that was created
at a key of other bytes can be closed at the text its record keeps, and stays listed.
-/

namespace Namros.Guarantees

open Library Source Multipart Transaction

/-- The multipart calls that write. -/
inductive MultipartCall
  | createMultipartUpload (req : CreateMultipartUploadRequest)
  | putMultipartPart (req : PutMultipartPartRequest)
  | prepareMultipartCompletion (req : CompletionRequest)
  | markMultipartCompletionPublished (req : MultipartUploadRequest)
  | markMultipartCompletionCompleted (req : MultipartUploadRequest)
  | completeMultipartUpload (req : CompletionRequest)
  | abortMultipartUpload (req : MultipartUploadRequest)
  | cleanupMultipartUploadParts (req : MultipartUploadRequest) (limit : Int)

/-- The closure of a call. -/
def multipartCallBody (context : CallContext) : MultipartCall → Tx Unit
  | .createMultipartUpload req => dropResult (createMultipartUpload context req)
  | .putMultipartPart req => dropResult (putMultipartPart context req)
  | .prepareMultipartCompletion req => dropResult (prepareMultipartCompletion context req)
  | .markMultipartCompletionPublished req =>
    dropResult (markMultipartCompletionState context req .published)
  | .markMultipartCompletionCompleted req =>
    dropResult (markMultipartCompletionState context req .completed)
  | .completeMultipartUpload req => dropResult (completeMultipartUpload context req)
  | .abortMultipartUpload req => dropResult (abortMultipartUpload context req)
  | .cleanupMultipartUploadParts req limit =>
    dropResult (cleanupMultipartUploadParts context req limit)

/-- The call with another object key. -/
def MultipartCall.withKey (key : String) : MultipartCall → MultipartCall
  | .createMultipartUpload req => .createMultipartUpload { req with key }
  | .putMultipartPart req => .putMultipartPart { req with upload.key := key }
  | .prepareMultipartCompletion req => .prepareMultipartCompletion { req with upload.key := key }
  | .markMultipartCompletionPublished req => .markMultipartCompletionPublished { req with key }
  | .markMultipartCompletionCompleted req => .markMultipartCompletionCompleted { req with key }
  | .completeMultipartUpload req => .completeMultipartUpload { req with upload.key := key }
  | .abortMultipartUpload req => .abortMultipartUpload { req with key }
  | .cleanupMultipartUploadParts req limit => .cleanupMultipartUploadParts { req with key } limit

/-- The closure of a call on an object key of any bytes: paths are made of its bytes, and records
keep its JSON text. -/
def multipartCallAt (context : CallContext) (call : MultipartCall) (path : GoString) : Tx Unit :=
  match call.withKey path.jsonText with
  | .createMultipartUpload req => dropResult (createMultipartUpload context req path)
  | .putMultipartPart req => dropResult (putMultipartPart context req path)
  | .prepareMultipartCompletion req => dropResult (prepareMultipartCompletion context req path)
  | .markMultipartCompletionPublished req =>
    dropResult (markMultipartCompletionState context req .published path)
  | .markMultipartCompletionCompleted req =>
    dropResult (markMultipartCompletionState context req .completed path)
  | .completeMultipartUpload req => dropResult (completeMultipartUpload context req path)
  | .abortMultipartUpload req => dropResult (abortMultipartUpload context req path)
  | .cleanupMultipartUploadParts req limit =>
    dropResult (cleanupMultipartUploadParts context req limit path)

theorem multipartCallAt_valid (context : CallContext) (call : MultipartCall) {path : GoString}
    (valid : path.Valid) :
    multipartCallAt context call path = multipartCallBody context (call.withKey path.jsonText) := by
  rw [valid.eq_text]
  cases call <;> rfl

/-- The stores of a run after `s`, one for each call; a failed call leaves the store as it
was. -/
def laterStores : Store → List (CallContext × MultipartCall × GoString) → List Store
  | _, [] => []
  | s, (context, call, path) :: calls =>
    let t := (multipartCallAt context call path).settle s
    t :: laterStores t calls

/-- The part records written in a run, a later one over an earlier one of its number. -/
def partsWritten (b u : String) (stores : List Store) : Nat → Option MultipartPart :=
  stores.foldl (fun earlier s => (uploadState b u s).written earlier) fun _ => none

/-- The life of one upload, up to the last store of a run. -/
structure UploadLife (b u : String) (stores : List Store) (s : Store) : Prop where
  /-- An upload is active until it is completed or aborted, and stays that; its result is set
  once, and a completion record keeps all but its update time and its state, which only moves
  forward. -/
  evolves : stores.Pairwise fun earlier later =>
    Evolves (uploadState b u earlier) (uploadState b u later)
  known : ∀ upload, s.lookup (.multipartUpload b u) = some upload →
    upload.state = .active ∨ upload.state = .completed ∨ upload.state = .aborted
  unset : ∀ upload, s.lookup (.multipartUpload b u) = some upload → upload.state = .active →
    Unset upload
  /-- The upload is listed under its key, exactly while it is active. -/
  listed : ∀ key id, s.lookup (.multipartUploadByKey b key u) = some id ↔
    id = u ∧ ∃ upload, s.lookup (.multipartUpload b u) = some upload ∧ upload.state = .active ∧
      upload.key = key
  /-- Every part written has its own number, which is at most the greatest one allowed. -/
  numbered : ∀ n part, partsWritten b u stores n = some part →
    n ≤ lastPartNumber ∧ part.partNumber = n
  /-- The summary of the upload is that of the parts written while it was active. -/
  summary : ∀ upload, s.lookup (.multipartUpload b u) = some upload →
    upload.partCount = partCount (partsWritten b u stores) ∧
      upload.totalPartSizeBytes = partBytes (partsWritten b u stores) ∧
      upload.maxPartNumber = partMax (partsWritten b u stores)
  /-- While the upload is active its parts are those written; no part is written afterwards. -/
  kept : ∀ upload, s.lookup (.multipartUpload b u) = some upload → upload.state = .active →
    ∀ n, s.lookup (.multipartPart b u n) = partsWritten b u stores n
  remaining : ∀ n part, s.lookup (.multipartPart b u n) = some part →
    partsWritten b u stores n = some part
  /-- After it is closed, the parts that were cleaned up and those that remain make up all;
  cleanup is done only when none remain. -/
  cleaned : ∀ upload, s.lookup (.multipartUpload b u) = some upload → upload.state ≠ .active →
    upload.partsCleanupDeleted + (partKeys b u s).length = upload.partCount ∧
      (upload.partsCleanupState = .done → partKeys b u s = [])

/-! ## What a call writes -/

/-- The records of uploads, under keys that are texts. -/
def uploadRecordKey : Key → Prop
  | .multipartUpload _ _ | .multipartUploadByKey _ (.text _) _ | .multipartPart _ _ _
  | .multipartCompletion _ _ => True
  | _ => False

section MultipartCalls

variable {I : Store → Prop} (records : ∀ s t, Agree (fun k => ¬ uploadRecordKey k) t s → I s → I t)

include records

theorem maintains_setMultipartUpload (upload : MultipartUpload) :
    Maintains I (setMultipartUpload upload) := by
  refine Keeps.maintains ?_ records
  refine .bind (writes_setJSON _ trivial) fun _ => .ite ?_ ?_
  · exact fun _ => writes_deleteKey trivial
  · exact fun _ => writes_setJSON _ trivial

theorem maintains_readOnly {α : Type} {body : Tx α} (readOnly : ReadOnly body) :
    Maintains I body :=
  Keeps.maintains (.of_readOnly readOnly) records

theorem maintains_setRecord {k : Key} (v : k.Value) (upload : uploadRecordKey k) :
    Maintains I (setJSON k v) :=
  Keeps.maintains (keeps_setJSON _ (not_not.mpr upload)) records

theorem maintains_getUpload (req : MultipartUploadRequest) : Maintains I (getUpload req) :=
  maintains_readOnly records (readOnly_getUpload req)

theorem maintains_cleanupMultipartUploadParts (req : MultipartUploadRequest) (limit : Int) :
    Maintains I (cleanupMultipartUploadParts context req limit) := by
  intro s r t before ran
  obtain ⟨upload, upload', numbers, -, -, -, -, -, -, -, -, -, stored⟩ :=
    Multipart.cleanupMultipartUploadParts_cases ran
  refine maintains_setMultipartUpload records _ _ _ _ (records _ _ ?_ before) stored
  exact Multipart.eraseParts_agree numbers fun _ outside => outside trivial

variable (counts : ∀ tenantID delta now hostNow,
  Maintains I (applyTenantActiveUploadDelta tenantID delta now hostNow))

include counts

theorem maintains_applyTenantActiveUploadDeltaForBucket (bucketID : String) (delta : Int)
    (now hostNow : Time) :
    Maintains I (applyTenantActiveUploadDeltaForBucket bucketID delta now hostNow) := by
  refine .bind (maintains_readOnly records (readOnly_getJSON _)) fun bucket => ?_
  cases bucket with
  | none => exact .pure _
  | some bucket => exact counts _ _ _ _

/-- Closing an upload: its record is stored and its tenant's usage counted down. -/
theorem maintains_closeUpload {α : Type} (upload : MultipartUpload) (bucketID : String)
    (now hostNow : Time) (result : α) :
    Maintains I (do
      setMultipartUpload upload
      applyTenantActiveUploadDeltaForBucket bucketID (-1) now hostNow
      pure result) :=
  .bind (maintains_setMultipartUpload records _) fun _ =>
    .bind (maintains_applyTenantActiveUploadDeltaForBucket records counts _ _ _ _) fun _ => .pure _

/-- A multipart call maintains what upload records do not matter to and the counting of active
uploads maintains. -/
theorem multipartCallBody_maintains (call : MultipartCall) :
    Maintains I (multipartCallBody context call) := by
  have readOnly : ∀ {α : Type} {body : Tx α}, ReadOnly body → Maintains I body :=
    maintains_readOnly records
  cases call with
  | createMultipartUpload req =>
    refine .dropResult ?_
    exact .bind (readOnly (.failIf _ _)) fun _ => .bind (readOnly (.ofOutcome _)) fun _ =>
      .bind (readOnly (readOnly_requireBucket _)) fun _ =>
        .bind (readOnly (readOnly_enforceTenantActiveUploadQuota _)) fun _ =>
          .bind (readOnly (readOnly_nextFreeID _ _)) fun _ =>
            .bind (maintains_setMultipartUpload records _) fun _ =>
              .bind (counts _ _ _ _) fun _ => .pure _
  | putMultipartPart req =>
    refine .dropResult (.bind (readOnly (.failIf _ _)) fun _ => .bind ?_ fun _ => ?_)
    · exact .bind (maintains_getUpload records _) fun _ => .bind (readOnly (.failIf _ _)) fun _ =>
        .pure _
    · exact .bind (readOnly (readOnly_getJSON _)) fun _ =>
        .bind (maintains_setRecord records _ trivial) fun _ =>
          .bind (maintains_setMultipartUpload records _) fun _ => .pure _
  | prepareMultipartCompletion req =>
    refine .dropResult (.bind (readOnly (.failIf _ _)) fun _ =>
      .bind (readOnly (readOnly_getJSON _)) fun existing => ?_)
    cases existing with
    | some existing => exact .bind (readOnly (.failIf _ _)) fun _ => .pure _
    | none =>
      exact .bind (maintains_getUpload records _) fun _ => .bind (readOnly (.failIf _ _)) fun _ =>
        .bind (maintains_setRecord records _ trivial) fun _ => .pure _
  | markMultipartCompletionPublished req =>
    exact .dropResult (.bind (readOnly (readOnly_getMultipartCompletion _)) fun _ =>
      .ite (fun _ => .bind (maintains_setRecord records _ trivial) fun _ => .pure _)
        fun _ => .pure _)
  | markMultipartCompletionCompleted req =>
    exact .dropResult (.bind (readOnly (readOnly_getMultipartCompletion _)) fun _ =>
      .ite (fun _ => .bind (maintains_setRecord records _ trivial) fun _ => .pure _)
        fun _ => .pure _)
  | completeMultipartUpload req =>
    refine .dropResult (.bind (readOnly (.failIf _ _)) fun _ =>
      .bind (maintains_getUpload records _) fun upload => ?_)
    split
    · exact .pure _
    · exact .bind (readOnly (.ofOutcome _)) fun _ => maintains_closeUpload records counts _ _ _ _ _
    · exact .throw _
  | abortMultipartUpload req =>
    refine .dropResult (.bind (maintains_getUpload records _) fun upload => ?_)
    split
    · exact readOnly (readOnly_listParts _)
    · exact .bind (readOnly (readOnly_listParts _)) fun _ =>
        maintains_closeUpload records counts _ _ _ _ _
    · exact .throw _
  | cleanupMultipartUploadParts req limit =>
    exact .dropResult (maintains_cleanupMultipartUploadParts records req limit)

end MultipartCalls

/-- No upload is listed under a key that is no text. -/
def ListedTexts (s : Store) : Prop :=
  ∀ b raw invalid u, s.lookup (.multipartUploadByKey b (.stray raw invalid) u) = none

theorem multipartCallBody_listedTexts {context : CallContext} (call : MultipartCall) :
    Maintains ListedTexts (multipartCallBody context call) := by
  refine multipartCallBody_maintains ?_ ?_ call
  · intro s t agree texts b raw invalid u
    rw [agree _ id, texts]
  · intro tenantID delta now hostNow s u t texts ran b raw invalid upload
    rw [keeps_applyTenantActiveUploadDelta _ _ _ _ _ _ _ ran _ id, texts]

/-! ## One call -/

variable {s : Store}

theorem multipartCallBody_step {context : CallContext} {call : MultipartCall} {t : Store} {x : Unit}
    (sound : ∀ b u, Sound b u (uploadState b u s))
    (ran : (multipartCallBody context call).run s = .ok (x, t)) (b u : String) :
    Step (∃ n, context.newID .upload n = some u) b u (uploadState b u s) (uploadState b u t) := by
  cases call with
    (try replace ran := (run_dropResult_ok.mp ran).choose_spec)
  | createMultipartUpload req => exact createMultipartUpload_step ran b u
  | putMultipartPart req => exact putMultipartPart_step sound ran b u
  | prepareMultipartCompletion req =>
    generalize Exists.choose _ = r at ran
    obtain ⟨-, ⟨-, rfl⟩ | ⟨absent, ⟨upload, found, active⟩, rfl⟩⟩ :=
      prepareMultipartCompletion_ok ran
    · exact .skip _
    · exact completion_step (.prepare found active absent _) b u
  | markMultipartCompletionPublished req => exact markMultipartCompletionState_step ran b u
  | markMultipartCompletionCompleted req => exact markMultipartCompletionState_step ran b u
  | completeMultipartUpload req =>
    generalize Exists.choose _ = r at ran
    obtain ⟨upload, found, ⟨-, rfl⟩ | ⟨completed, closes⟩⟩ := completeMultipartUpload_cases ran
    · exact .skip _
    · exact closes.step sound found (.inl completed) b u
  | abortMultipartUpload req =>
    generalize Exists.choose _ = r at ran
    obtain ⟨-, upload, found, ⟨-, rfl⟩ | ⟨upload', aborted, closes⟩⟩ :=
      abortMultipartUpload_cases ran
    · exact .skip _
    · exact closes.step sound found (.inr aborted) b u
  | cleanupMultipartUploadParts req limit =>
    exact cleanupMultipartUploadParts_step sound ran b u

theorem settled_step {context : CallContext} {call : MultipartCall}
    (sound : ∀ b u, Sound b u (uploadState b u s)) (b u : String) :
    Step (∃ n, context.newID .upload n = some u) b u (uploadState b u s)
      (uploadState b u ((multipartCallBody context call).settle s)) :=
  settle_induction (P := fun t => Step _ b u (uploadState b u s) (uploadState b u t)) (.skip _)
    fun _ _ ran => multipartCallBody_step sound ran b u

/-! ## Whole runs -/

/-- What a run keeps, for every upload at once: `past` are the stores up to and with `s`. -/
structure Lived (past : List Store) (s : Store) : Prop where
  sound : ∀ b u, Sound b u (uploadState b u s)
  recorded : ∀ b u, Recorded (uploadState b u s) (partsWritten b u past)
  numbered : ∀ b u n part, partsWritten b u past n = some part →
    n ≤ lastPartNumber ∧ part.partNumber = n
  evolves : ∀ b u, past.Pairwise fun earlier later =>
    Evolves (uploadState b u earlier) (uploadState b u later)
  latest : ∀ b u, ∀ earlier ∈ past, Evolves (uploadState b u earlier) (uploadState b u s)
  texts : ListedTexts s

theorem partsWritten_append (b u : String) (past : List Store) (s : Store) :
    partsWritten b u (past ++ [s]) = (uploadState b u s).written (partsWritten b u past) := by
  unfold partsWritten
  rw [List.foldl_append]
  rfl

/-- A store without records of uploads. -/
structure NoUploads (s : Store) : Prop where
  unused : ∀ b u, uploadState b u s = .unused
  unlisted : ∀ b (key : GoString) u, s.lookup (.multipartUploadByKey b key u) = none

theorem Lived.initial (bare : NoUploads s) : Lived [s] s where
  sound b u := by
    rw [bare.unused]
    exact .initial
  recorded b u := by
    change Recorded _ ((uploadState b u s).written fun _ => none)
    rw [bare.unused]
    exact .initial
  numbered b u n part found := by
    change (uploadState b u s).written (fun _ => none) n = some part at found
    rw [bare.unused] at found
    cases found
  evolves b u := List.pairwise_singleton _ _
  latest b u earlier member := by
    rw [List.mem_singleton.mp member]
    exact .refl _
  texts b _ _ u := bare.unlisted b _ u

variable {past : List Store}

theorem Lived.step {t : Store} (h : Lived past s) {drawn : String → Prop}
    (moved : ∀ b u, Step (drawn u) b u (uploadState b u s) (uploadState b u t))
    (texts : ListedTexts t) : Lived (past ++ [t]) t where
  sound b u := (h.sound b u).step (moved b u)
  recorded b u := by
    rw [partsWritten_append]
    exact (h.recorded b u).step (h.sound b u) (moved b u)
  numbered b u n part found := by
    rw [partsWritten_append, UploadState.written, Option.or_eq_some_iff] at found
    rcases found with now | ⟨-, before⟩
    · exact ((h.sound b u).step (moved b u)).numbered now
    · exact h.numbered b u n part before
  evolves b u := by
    rw [List.pairwise_append]
    refine ⟨h.evolves b u, List.pairwise_singleton _ _, fun earlier member later last => ?_⟩
    rw [List.mem_singleton.mp last]
    exact (h.latest b u earlier member).trans (.of_step (moved b u))
  latest b u earlier member := by
    rcases List.mem_append.mp member with before | last
    · exact (h.latest b u earlier before).trans (.of_step (moved b u))
    · rw [List.mem_singleton.mp last]
      exact .refl _
  texts := texts

/-- Every key of the calls is UTF-8. -/
def ValidKeys {γ : Type} (calls : List (CallContext × γ × GoString)) : Prop :=
  ∀ call ∈ calls, call.2.2.Valid
deriving Decidable

variable {calls : List (CallContext × MultipartCall × GoString)}

theorem Lived.moved (h : Lived past s) (context : CallContext) (call : MultipartCall)
    {path : GoString} (valid : path.Valid) (b u : String) :
    Step (∃ n, context.newID .upload n = some u) b u (uploadState b u s)
      (uploadState b u ((multipartCallAt context call path).settle s)) := by
  rw [multipartCallAt_valid context call valid]
  exact settled_step h.sound b u

theorem Lived.call (h : Lived past s) (context : CallContext) (call : MultipartCall)
    {path : GoString} (valid : path.Valid) :
    Lived (past ++ [(multipartCallAt context call path).settle s])
      ((multipartCallAt context call path).settle s) := by
  refine h.step (h.moved context call valid) ?_
  rw [multipartCallAt_valid context call valid]
  exact Maintains.settle (multipartCallBody_listedTexts _) h.texts

theorem laterStores_lived (h : Lived past s) (valid : ValidKeys calls) :
    Lived (past ++ laterStores s calls) ((laterStores s calls).getLastD s) := by
  induction calls generalizing past s with
  | nil =>
    rw [laterStores, List.append_nil]
    exact h
  | cons call calls ih =>
    obtain ⟨context, call, path⟩ := call
    obtain ⟨here, rest⟩ := List.forall_mem_cons.mp valid
    have later := ih (h.call context call here) rest
    rw [List.append_assoc] at later
    rw [laterStores, List.getLastD_cons]
    exact later

theorem Lived.uploadLife (h : Lived past s) (b u : String) :
    UploadLife b u past s where
  evolves := h.evolves b u
  known _ found := (h.sound b u).known found
  unset _ found := (h.sound b u).unset found
  listed key id := by
    cases key with
    | text key =>
      simp only [GoString.text.injEq]
      exact (h.sound b u).listed key id
    | stray raw invalid => simp [h.texts b raw invalid u]
  numbered := h.numbered b u
  summary _ found := (h.recorded b u).summary found
  kept upload found active n := by
    rw [(h.recorded b u).kept]
    · rfl
    intro upload' found'
    have same : s.lookup (.multipartUpload b u) = some upload' := found'
    rw [found] at same
    cases same
    exact active
  remaining n part found := (h.recorded b u).stored found
  cleaned upload found closed := by
    obtain ⟨counted, finished⟩ := (h.sound b u).cleaned found closed
    rw [partCount_eq_length (h.sound b u)] at counted
    refine ⟨counted, fun done => ?_⟩
    rw [List.eq_nil_iff_forall_not_mem]
    intro K member
    obtain ⟨n, rfl, stored⟩ := mem_partKeys.mp member
    rw [finished done n] at stored
    cases stored

/-- From a store without uploads, every upload lives one life, whatever calls are made on keys
that are UTF-8. -/
theorem multipart_lifecycle (s : Store) (bare : NoUploads s) (valid : ValidKeys calls)
    (b u : String) :
    UploadLife b u (s :: laterStores s calls) ((laterStores s calls).getLastD s) := by
  have lived := laterStores_lived (Lived.initial bare) valid
  exact lived.uploadLife b u

/-- A store with one bucket. -/
def bucketStore : Store :=
  (∅ : Store).insert (.bucketByID "bkt_1")
    { bucketID := "bkt_1", tenantID := "t", name := "b", region := "r" }

theorem bucketStore_bare : NoUploads bucketStore where
  unused _ _ := uploadState_insert_outside (k := .bucketByID _) id _
  unlisted _ _ _ := AList.lookup_insert_ne fun clash => nomatch clash

/-- An upload of two parts, one of them replaced, which is completed and cleaned up. -/
def uploadCalls : List (CallContext × MultipartCall × GoString) :=
  let target : MultipartUploadRequest := { bucketID := "bkt_1", uploadID := "upl_1" }
  [(numberedContext 1 1, .createMultipartUpload { bucketID := "bkt_1" }, "k"),
   (numberedContext 2 2, .putMultipartPart { upload := target, partNumber := 1, sizeBytes := 5 }, "k"),
   (numberedContext 3 3, .putMultipartPart { upload := target, partNumber := 7, sizeBytes := 2 }, "k"),
   (numberedContext 4 4, .putMultipartPart { upload := target, partNumber := 1, sizeBytes := 6 }, "k"),
   (numberedContext 5 5, .completeMultipartUpload
      { upload := target, objectVersionID := "ver_1", etag := "e", partCount := 1 }, "k"),
   (numberedContext 6 6, .abortMultipartUpload target, "k"),
   (numberedContext 7 7, .cleanupMultipartUploadParts target 1, "k")]

theorem uploadCalls_lifecycle :
    UploadLife "bkt_1" "upl_1" (bucketStore :: laterStores bucketStore uploadCalls)
        ((laterStores bucketStore uploadCalls).getLastD bucketStore) ∧
      (((laterStores bucketStore uploadCalls).getLastD bucketStore).lookup
          (.multipartUpload "bkt_1" "upl_1")).map
        (fun u => (u.state, u.partCount, u.totalPartSizeBytes, u.partsCleanupDeleted)) =
      some (.completed, 2, 8, 1) :=
  ⟨multipart_lifecycle bucketStore bucketStore_bare (by decide +kernel) "bkt_1" "upl_1",
    by decide +kernel⟩

/-- An upload is created at a key of one byte that is no text, and aborted at the text that its
record keeps of the key. -/
def strayCalls : List (CallContext × MultipartCall × GoString) :=
  [(numberedContext 1 1, .createMultipartUpload { bucketID := "bkt_1" }, .ofBytes [0xff]),
   (numberedContext 2 2, .abortMultipartUpload { bucketID := "bkt_1", uploadID := "upl_1" },
      "\uFFFD")]

/-- The aborted upload is still listed. -/
theorem stray_upload_stays_listed :
    NoUploads bucketStore ∧
      ¬ UploadLife "bkt_1" "upl_1" (bucketStore :: laterStores bucketStore strayCalls)
        ((laterStores bucketStore strayCalls).getLastD bucketStore) := by
  refine ⟨bucketStore_bare, fun life => ?_⟩
  have listed : (((laterStores bucketStore strayCalls).getLastD bucketStore).lookup
      (.multipartUploadByKey "bkt_1" (.ofBytes [0xff]) "upl_1") : Option String) =
        some "upl_1" := by decide +kernel
  have aborted : (((laterStores bucketStore strayCalls).getLastD bucketStore).lookup
      (.multipartUpload "bkt_1" "upl_1")).map MultipartUpload.state = some .aborted := by
    decide +kernel
  obtain ⟨-, upload, stored, active, -⟩ := (life.listed _ _).mp listed
  rw [stored, Option.map_some, active] at aborted
  cases aborted

end Namros.Guarantees
