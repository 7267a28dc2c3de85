import Namros.Index.Segments
import Namros.Library.Interleaving
import Namros.Source.MultipartOutcomes

/-!
# Who still needs a segment

While requests on one upload run interleaved, every segment of the upload is in flight to
become a part, is a part, is read by a completion, is referenced by the version a completion
recorded, or is doomed: deleted, or next in line to be deleted. The invariant keeps the doomed
segments apart from all the others that can still become part of a committed version.
-/

namespace Namros.Source.Request

/-! ## What a request holds -/

/-- Segments of the parts a completion has read and not yet recorded. -/
def held : Request → List String
  | .beginObject _ selected _ | .prepare selected _ _ =>
    selected.map fun part => part.segmentRef.segmentID
  | _ => []

/-- Segments the request will pass to `DeleteSegment`. -/
def scheduled : Request → List String
  | .deleteParts _ refs => refs.map SegmentRef.segmentID
  | .deletePrevious previous => [previous.segmentID]
  | _ => []

/-- A written segment that is not a part yet. -/
def inFlight : Request → Option String
  | .putPart _ segmentRef _ => some segmentRef.segmentID
  | _ => none

/-- The recorded completion a request carries out. -/
def resumed : Request → Option MultipartCompletionRecord
  | .resume completion | .commit completion | .confirmHead completion
  | .markPublished completion | .finish completion | .markCompleted completion => some completion
  | _ => none

/-- The version a request is about to record. -/
def begun : Request → Option String
  | .prepare _ _ pending => some pending.version.versionID
  | _ => none

/-- The upload a request cleans. -/
def cleans : Request → Option MultipartUploadRequest
  | .cleanup upload => some upload
  | _ => none

end Namros.Source.Request

namespace Namros.Multipart

open Library Source Index

/-- Deleted, or about to be. -/
def doomed (sys : MultipartSystem) : List String :=
  sys.deletions.map SegmentRef.segmentID ++ sys.requests.flatMap Request.scheduled

/-! ## The invariant -/

section

variable (target : MultipartUploadRequest)

/-- The upload still takes parts and a completion. -/
def Open (s : Store) : Prop :=
  (uploadRecords target s).completion = none ∧
    ∃ upload, (uploadRecords target s).upload = some upload ∧ upload.state = .active

/-- One request against the store `s` with doomed segments `D`; `used` are the segments written
so far and `issued` the version ids. -/
structure RequestSafe (issued : Set String) (used : Set String) (s : Store) (D : List String)
    (r : Request) : Prop where
  resumes : ∀ c, r.resumed = some c → c.upload = target ∧
    ∃ stored, (uploadRecords target s).completion = some stored ∧
      stored.objectVersionID = c.objectVersionID
  cleans : ∀ upload, r.cleans = some upload → upload = target
  begun : ∀ id, r.begun = some id → id ∈ issued ∧
    ∀ x, References s target.bucketID id x → x ∈ r.held
  held : Open target s → ∀ x ∈ r.held, x ∉ D
  inFlight : ∀ x, r.inFlight = some x → x ∈ used ∧ x ∉ D ∧
    ∀ n part, (uploadRecords target s).part n = some part → part.segmentRef.segmentID ≠ x

/-- The whole system; `all` are the segments the run ever writes. -/
structure Safe (issued : Set String) (used all : Set String) (sys : MultipartSystem) : Prop where
  consistent : Consistent issued (objectIndex sys.store)
  identified : ∀ upload, (uploadRecords target sys.store).upload = some upload →
    upload.Identified target
  recorded : ∀ c, (uploadRecords target sys.store).completion = some c →
    c.upload = target ∧ c.objectVersionID ∈ issued ∧
      ∀ x ∈ doomed sys, ¬ References sys.store target.bucketID c.objectVersionID x
  committed : ∀ x ∈ doomed sys, ¬ CommittedReference sys.store x
  unclaimed : (uploadRecords target sys.store).completion = none →
    ∀ x ∈ all, ¬ CommittedReference sys.store x
  parts : Open target sys.store → ∀ n part, (uploadRecords target sys.store).part n = some part →
    part.segmentRef.segmentID ∉ doomed sys
  partsUsed : ∀ n part, (uploadRecords target sys.store).part n = some part →
    part.segmentRef.segmentID ∈ used
  partsDistinct : ∀ m n p q, (uploadRecords target sys.store).part m = some p →
    (uploadRecords target sys.store).part n = some q →
    p.segmentRef.segmentID = q.segmentRef.segmentID → m = n
  doomedUsed : ∀ x ∈ doomed sys, x ∈ used
  usedAll : used ⊆ all
  requests : ∀ (i : Nat) r, sys.requests[i]? = some r →
    RequestSafe target issued used sys.store (doomed sys) r
  flights : ∀ (i j : Nat) p q x, sys.requests[i]? = some p → sys.requests[j]? = some q →
    p.inFlight = some x → q.inFlight = some x → i = j

end

/-! ## Steps of the store -/

variable {target : MultipartUploadRequest} {issued issued' used used' all : Set String}
  {sys : MultipartSystem} {s t : Store}

/-- A store step that no request has to fear: parts and references only disappear, a completion
keeps its identity, and what becomes committed was referenced by the recorded version. -/
structure Quiet (target : MultipartUploadRequest) (issued issued' : Set String) (s t : Store) :
    Prop where
  consistent : Consistent issued' (objectIndex t)
  grows : issued ⊆ issued'
  identified : ∀ upload, (uploadRecords target t).upload = some upload → upload.Identified target
  opened : Open target t → Open target s
  recorded : (uploadRecords target t).completion.map (fun c => (c.upload, c.objectVersionID)) =
    (uploadRecords target s).completion.map fun c => (c.upload, c.objectVersionID)
  parts : ∀ n part, (uploadRecords target t).part n = some part →
    (uploadRecords target s).part n = some part
  references : ∀ id ∈ issued, ∀ x, References t target.bucketID id x →
    References s target.bucketID id x
  committed : ∀ x, CommittedReference t x → CommittedReference s x ∨
    ∃ c, (uploadRecords target s).completion = some c ∧
      References s target.bucketID c.objectVersionID x

theorem Quiet.record_to {c : MultipartCompletionRecord} (quiet : Quiet target issued issued' s t)
    (found : (uploadRecords target s).completion = some c) :
    ∃ d, (uploadRecords target t).completion = some d ∧ d.upload = c.upload ∧
      d.objectVersionID = c.objectVersionID := by
  have same := quiet.recorded
  rw [found] at same
  obtain ⟨d, stored, shape⟩ := Option.map_eq_some_iff.mp same
  simp only [Prod.mk.injEq] at shape
  exact ⟨d, stored, shape⟩

variable {r : Request}

theorem RequestSafe.quiet {D : List String} (h : RequestSafe target issued used s D r)
    (quiet : Quiet target issued issued' s t) :
    RequestSafe target issued' used t D r where
  resumes c carried := by
    obtain ⟨upload, stored, present, same⟩ := h.resumes c carried
    obtain ⟨d, present, -, kept⟩ := quiet.record_to present
    exact ⟨upload, d, present, kept.trans same⟩
  cleans := h.cleans
  begun id pending := by
    obtain ⟨member, covered⟩ := h.begun id pending
    exact ⟨quiet.grows member, fun x references => covered x (quiet.references id member x references)⟩
  held opened := h.held (quiet.opened opened)
  inFlight x flying := by
    obtain ⟨written, alive, apart⟩ := h.inFlight x flying
    exact ⟨written, alive, fun n part found => apart n part (quiet.parts n part found)⟩

theorem Safe.quiet (h : Safe target issued used all sys)
    (quiet : Quiet target issued issued' sys.store t) :
    Safe target issued' used all { sys with store := t } where
  consistent := quiet.consistent
  identified := quiet.identified
  recorded c found := by
    have kept := quiet.recorded
    rw [found] at kept
    obtain ⟨d, stored, shape⟩ := Option.map_eq_some_iff.mp kept.symm
    obtain ⟨upload, same⟩ := Prod.mk.inj shape
    obtain ⟨atTarget, member, apart⟩ := h.recorded d stored
    rw [same] at member apart
    refine ⟨upload.symm.trans atTarget, quiet.grows member, fun x dead references => ?_⟩
    exact apart x dead (quiet.references _ member x references)
  committed x dead references := by
    rcases quiet.committed x references with old | ⟨c, stored, named⟩
    · exact h.committed x dead old
    · exact (h.recorded c stored).2.2 x dead named
  unclaimed absent x member references := by
    rcases quiet.committed x references with old | ⟨c, stored, -⟩
    · refine h.unclaimed ?_ x member old
      have same := quiet.recorded
      rw [absent] at same
      exact Option.map_eq_none_iff.mp same.symm
    · obtain ⟨d, present, -⟩ := quiet.record_to stored
      rw [absent] at present
      cases present
  parts opened n part found := h.parts (quiet.opened opened) n part (quiet.parts n part found)
  partsUsed n part found := h.partsUsed n part (quiet.parts n part found)
  partsDistinct m n p q first second :=
    h.partsDistinct m n p q (quiet.parts m p first) (quiet.parts n q second)
  doomedUsed := h.doomedUsed
  usedAll := h.usedAll
  requests i r here := (h.requests i r here).quiet quiet
  flights := h.flights

/-! ## Steps of a request -/

variable {i : Nat}

/-- Segments that may be doomed now. -/
structure Expendable (target : MultipartUploadRequest) (used : Set String) (sys : MultipartSystem)
    (i : Nat) (x : String) : Prop where
  written : x ∈ used
  uncommitted : ¬ CommittedReference sys.store x
  unrecorded : ∀ c, (uploadRecords target sys.store).completion = some c →
    ¬ References sys.store target.bucketID c.objectVersionID x
  notPart : Open target sys.store → ∀ n part,
    (uploadRecords target sys.store).part n = some part → part.segmentRef.segmentID ≠ x
  notHeld : Open target sys.store → ∀ (j : Nat) r, j ≠ i → sys.requests[j]? = some r → x ∉ r.held
  notFlying : ∀ (j : Nat) r, j ≠ i → sys.requests[j]? = some r → r.inFlight ≠ some x

variable {old : Request}

/-- Request `i` becomes `r`, which may doom further segments. -/
theorem Safe.request (h : Safe target issued used all sys) {deletions : List SegmentRef}
    (here : sys.requests[i]? = some old)
    (dooms : ∀ x ∈ doomed ⟨sys.store, sys.requests.set i r, deletions⟩,
      x ∈ doomed sys ∨ Expendable target used sys i x)
    (safe : RequestSafe target issued used sys.store
      (doomed ⟨sys.store, sys.requests.set i r, deletions⟩) r)
    (flight : ∀ x, r.inFlight = some x → old.inFlight = some x ∨
      ∀ (j : Nat) q, sys.requests[j]? = some q → q.inFlight ≠ some x) :
    Safe target issued used all ⟨sys.store, sys.requests.set i r, deletions⟩ where
  consistent := h.consistent
  identified := h.identified
  recorded c found := by
    obtain ⟨atTarget, member, apart⟩ := h.recorded c found
    refine ⟨atTarget, member, fun x dead => ?_⟩
    rcases dooms x dead with old | expendable
    · exact apart x old
    · exact expendable.unrecorded c found
  committed x dead := by
    rcases dooms x dead with old | expendable
    · exact h.committed x old
    · exact expendable.uncommitted
  unclaimed := h.unclaimed
  parts opened n part found dead := by
    rcases dooms _ dead with old | expendable
    · exact h.parts opened n part found old
    · exact expendable.notPart opened n part found rfl
  partsUsed := h.partsUsed
  partsDistinct := h.partsDistinct
  doomedUsed x dead := by
    rcases dooms x dead with old | expendable
    · exact h.doomedUsed x old
    · exact expendable.written
  usedAll := h.usedAll
  requests j q there := by
    rcases getElem?_set_cases there with ⟨-, rfl⟩ | ⟨other, there⟩
    · exact safe
    have old := h.requests j q there
    refine ⟨old.resumes, old.cleans, old.begun, fun opened x member dead => ?_,
      fun x flying => ?_⟩
    · rcases dooms x dead with known | expendable
      · exact old.held opened x member known
      · exact expendable.notHeld opened j q other there member
    obtain ⟨written, alive, apart⟩ := old.inFlight x flying
    refine ⟨written, fun dead => ?_, apart⟩
    rcases dooms x dead with known | expendable
    · exact alive known
    · exact expendable.notFlying j q other there flying
  flights j k p q x first second flyingFirst flyingSecond := by
    rcases getElem?_set_cases first with ⟨rfl, rfl⟩ | ⟨-, before⟩ <;>
      rcases getElem?_set_cases second with ⟨rfl, rfl⟩ | ⟨-, before'⟩
    · rfl
    · rcases flight x flyingFirst with same | new
      · exact h.flights _ _ _ _ x here before' same flyingSecond
      · exact absurd flyingSecond (new k q before')
    · rcases flight x flyingSecond with same | new
      · exact h.flights _ _ _ _ x before here flyingFirst same
      · exact absurd flyingFirst (new j p before)
    · exact h.flights j k p q x before before' flyingFirst flyingSecond

theorem RequestSafe.anti {D D' : List String} (h : RequestSafe target issued used s D r)
    (fewer : ∀ x ∈ D', x ∈ D) :
    RequestSafe target issued used s D' r where
  resumes := h.resumes
  cleans := h.cleans
  begun := h.begun
  held opened x member dead := h.held opened x member (fewer x dead)
  inFlight x flying := by
    obtain ⟨written, alive, apart⟩ := h.inFlight x flying
    exact ⟨written, fun dead => alive (fewer x dead), apart⟩

theorem doomed_set {store : Store} {deletions : List SegmentRef} {x : String}
    (dead : x ∈ doomed ⟨store, sys.requests.set i r, deletions⟩) :
    x ∈ deletions.map SegmentRef.segmentID ∨ x ∈ r.scheduled ∨
      x ∈ sys.requests.flatMap Request.scheduled := by
  rcases List.mem_append.mp dead with deleted | waiting
  · exact .inl deleted
  obtain ⟨q, member, queued⟩ := List.mem_flatMap.mp waiting
  rcases List.mem_or_eq_of_mem_set member with known | rfl
  · exact .inr (.inr (List.mem_flatMap.mpr ⟨q, known, queued⟩))
  · exact .inr (.inl queued)

theorem doomed_set_idle {store : Store} {x : String} (idle : r.scheduled = [])
    (dead : x ∈ doomed ⟨store, sys.requests.set i r, sys.deletions⟩) : x ∈ doomed sys := by
  rcases doomed_set dead with deleted | waiting | waiting
  · exact List.mem_append_left _ deleted
  · rw [idle] at waiting
    cases waiting
  · exact List.mem_append_right _ waiting

/-- Request `i` moves on without dooming anything. -/
theorem Safe.advance (h : Safe target issued used all sys) (here : sys.requests[i]? = some old)
    (safe : RequestSafe target issued used sys.store (doomed sys) r)
    (idle : r.scheduled = []) (flight : ∀ x, r.inFlight = some x → old.inFlight = some x) :
    Safe target issued used all { sys with requests := sys.requests.set i r } :=
  h.request here (fun _ dead => .inl (doomed_set_idle idle dead))
    (safe.anti fun _ dead => doomed_set_idle idle dead) fun x flying => .inl (flight x flying)

/-- Request `i` dooms segments nobody needs. -/
theorem Safe.schedule (h : Safe target issued used all sys) (here : sys.requests[i]? = some old)
    (expendable : ∀ x ∈ r.scheduled, Expendable target used sys i x) (flight : r.inFlight = none)
    (safe : ∀ D, RequestSafe target issued used sys.store D r) :
    Safe target issued used all { sys with requests := sys.requests.set i r } := by
  refine h.request here (fun x dead => ?_) (safe _) fun x flying => ?_
  · rcases doomed_set dead with deleted | waiting | waiting
    · exact .inl (List.mem_append_left _ deleted)
    · exact .inr (expendable x waiting)
    · exact .inl (List.mem_append_right _ waiting)
  · rw [flight] at flying
    cases flying

/-- Request `i` deletes its next segment. -/
theorem Safe.delete (h : Safe target issued used all sys) {ref : SegmentRef}
    (here : sys.requests[i]? = some old) (next : ref.segmentID ∈ old.scheduled)
    (rest : ∀ x ∈ r.scheduled, x ∈ old.scheduled) (flight : r.inFlight = none)
    (safe : ∀ D, RequestSafe target issued used sys.store D r) :
    Safe target issued used all
      ⟨sys.store, sys.requests.set i r, ref :: sys.deletions⟩ := by
  have waiting : ∀ x ∈ old.scheduled, x ∈ doomed sys := fun x member =>
    List.mem_append_right _ (List.mem_flatMap.mpr ⟨old, List.mem_of_getElem? here, member⟩)
  refine h.request here (fun x dead => .inl ?_) (safe _) fun x flying => ?_
  · rcases doomed_set dead with deleted | scheduled | scheduled
    · rcases List.mem_cons.mp deleted with rfl | deleted
      · exact waiting _ next
      · exact List.mem_append_left _ deleted
    · exact waiting x (rest x scheduled)
    · exact List.mem_append_right _ scheduled
  · rw [flight] at flying
    cases flying

/-- More segments may have been written. -/
theorem Safe.widen (h : Safe target issued used all sys) (grows : used ⊆ used')
    (within : used' ⊆ all) : Safe target issued used' all sys := by
  refine { h with
    partsUsed := fun n part found => grows (h.partsUsed n part found)
    doomedUsed := fun x dead => grows (h.doomedUsed x dead)
    usedAll := within
    requests := fun j q there => ?_ }
  have old := h.requests j q there
  refine { old with inFlight := fun x flying => ?_ }
  obtain ⟨member, rest⟩ := old.inFlight x flying
  exact ⟨grows member, rest⟩

/-- A segment is written for request `i`. -/
theorem Safe.write (h : Safe target issued used all sys) {partNumber : Int} {ref : SegmentRef}
    {etag : String} (here : sys.requests[i]? = some old) (grows : used ⊆ used')
    (within : used' ⊆ all) (fresh : ref.segmentID ∉ used) (written : ref.segmentID ∈ used') :
    Safe target issued used' all
      { sys with requests := sys.requests.set i (.putPart partNumber ref etag) } := by
  have wider := h.widen grows within
  have alive : ref.segmentID ∉ doomed sys := fun dead => fresh (h.doomedUsed _ dead)
  refine wider.request here (fun x dead => .inl (doomed_set_idle rfl dead)) ?_ ?_
  · refine ⟨by rintro _ ⟨⟩, by rintro _ ⟨⟩, by rintro _ ⟨⟩, by rintro _ _ ⟨⟩, ?_⟩
    rintro x ⟨⟩
    refine ⟨written, fun dead => alive (doomed_set_idle rfl dead), fun n part found same => fresh ?_⟩
    rw [← same]
    exact h.partsUsed n part found
  · rintro x ⟨⟩
    refine .inr fun j q there flying => fresh ?_
    exact ((h.requests j q there).inFlight _ flying).1

/-- Request `i` stores its segment as part `n` and is left with nothing. -/
theorem Safe.storePart (h : Safe target issued used all sys) {n : Nat} {part : MultipartPart}
    {upload : MultipartUpload} (here : sys.requests[i]? = some old)
    (flying : old.inFlight = some part.segmentRef.segmentID)
    (active : ∃ upload, (uploadRecords target sys.store).upload = some upload ∧
      upload.state = .active) (identified : upload.Identified target)
    (records : uploadRecords target t = { uploadRecords target sys.store with
      upload := some upload
      part := Function.update (uploadRecords target sys.store).part n (some part) })
    (index : objectIndex t = objectIndex sys.store)
    (segments : versionSegments t = versionSegments sys.store) :
    Safe target issued used all ⟨t, sys.requests.set i .finished, sys.deletions⟩ := by
  obtain ⟨written, alive, apart⟩ := (h.requests i old here).inFlight _ flying
  have completion : (uploadRecords target t).completion =
      (uploadRecords target sys.store).completion := by rw [records]
  have opened : Open target t → Open target sys.store := fun opened =>
    ⟨completion ▸ opened.1, active⟩
  have parts : ∀ m p, (uploadRecords target t).part m = some p →
      (m = n ∧ p = part) ∨ (m ≠ n ∧ (uploadRecords target sys.store).part m = some p) := by
    intro m p found
    rw [records] at found
    dsimp only at found
    by_cases same : m = n
    · subst same
      rw [Function.update_self] at found
      cases found
      exact .inl ⟨rfl, rfl⟩
    · rw [Function.update_of_ne same] at found
      exact .inr ⟨same, found⟩
  have fewer : ∀ x ∈ doomed ⟨t, sys.requests.set i .finished, sys.deletions⟩, x ∈ doomed sys :=
    fun x dead => doomed_set_idle rfl dead
  constructor
  case consistent => exact index ▸ h.consistent
  case identified =>
    rintro u found
    rw [records] at found
    cases found
    exact identified
  case recorded =>
    intro c found
    obtain ⟨atTarget, member, unreferenced⟩ := h.recorded c (completion ▸ found)
    refine ⟨atTarget, member, fun x dead => ?_⟩
    rw [references_congr segments]
    exact unreferenced x (fewer x dead)
  case committed =>
    intro x dead
    rw [committedReference_congr index segments]
    exact h.committed x (fewer x dead)
  case unclaimed =>
    intro absent x member
    rw [committedReference_congr index segments]
    exact h.unclaimed (completion ▸ absent) x member
  case parts =>
    intro isOpen m p found dead
    rcases parts m p found with ⟨-, rfl⟩ | ⟨-, found⟩
    · exact alive (fewer _ dead)
    · exact h.parts (opened isOpen) m p found (fewer _ dead)
  case partsUsed =>
    intro m p found
    rcases parts m p found with ⟨-, rfl⟩ | ⟨-, found⟩
    · exact written
    · exact h.partsUsed m p found
  case partsDistinct =>
    intro m k p q first second same
    rcases parts m p first with ⟨rfl, rfl⟩ | ⟨-, before⟩ <;>
      rcases parts k q second with ⟨rfl, rfl⟩ | ⟨-, before'⟩
    · rfl
    · exact absurd same.symm (apart k q before')
    · exact absurd same (apart m p before)
    · exact h.partsDistinct m k p q before before' same
  case doomedUsed => exact fun x dead => h.doomedUsed x (fewer x dead)
  case usedAll => exact h.usedAll
  case requests =>
    intro j q there
    rcases getElem?_set_cases there with ⟨-, rfl⟩ | ⟨other, there⟩
    · exact ⟨by rintro _ ⟨⟩, by rintro _ ⟨⟩, by rintro _ ⟨⟩, by rintro _ _ ⟨⟩, by rintro _ ⟨⟩⟩
    have safe := (h.requests j q there).anti fewer
    refine ⟨?_, safe.cleans, ?_, fun isOpen => safe.held (opened isOpen), fun x flies => ?_⟩
    · rw [completion]
      exact safe.resumes
    · rw [references_congr segments]
      exact safe.begun
    obtain ⟨member, alive, away⟩ := safe.inFlight x flies
    refine ⟨member, alive, fun m p found same => ?_⟩
    rcases parts m p found with ⟨-, rfl⟩ | ⟨-, found⟩
    · exact other (h.flights j i q old x there here flies (same ▸ flying))
    · exact away m p found same
  case flights =>
    intro j k p q x first second flyingFirst flyingSecond
    rcases getElem?_set_cases first with ⟨-, rfl⟩ | ⟨-, before⟩
    · cases flyingFirst
    · rcases getElem?_set_cases second with ⟨-, rfl⟩ | ⟨-, before'⟩
      · cases flyingSecond
      · exact h.flights j k p q x before before' flyingFirst flyingSecond

/-- The first completion of the upload is recorded. -/
theorem Safe.record (h : Safe target issued used all sys) {record : MultipartCompletionRecord}
    (here : sys.requests[i]? = some old) (begins : old.begun = some record.objectVersionID)
    (atTarget : record.upload = target) (opened : Open target sys.store)
    (records : uploadRecords target t =
      { uploadRecords target sys.store with completion := some record })
    (index : objectIndex t = objectIndex sys.store)
    (segments : versionSegments t = versionSegments sys.store) :
    Safe target issued used all { sys with store := t } := by
  have recording := h.requests i old here
  have closed : ¬ Open target t := by
    rintro ⟨absent, -⟩
    rw [records] at absent
    cases absent
  have part : (uploadRecords target t).part = (uploadRecords target sys.store).part := by
    rw [records]
  constructor
  case consistent => exact index ▸ h.consistent
  case identified =>
    rw [records]
    exact h.identified
  case recorded =>
    intro c found
    rw [records] at found
    cases found
    obtain ⟨member, covered⟩ := recording.begun _ begins
    refine ⟨atTarget, member, fun x dead references => ?_⟩
    rw [references_congr segments] at references
    exact recording.held opened x (covered x references) dead
  case committed =>
    intro x dead
    rw [committedReference_congr index segments]
    exact h.committed x dead
  case unclaimed =>
    intro absent
    rw [records] at absent
    cases absent
  case parts => exact fun isOpen => absurd isOpen closed
  case partsUsed => exact part ▸ h.partsUsed
  case partsDistinct => exact part ▸ h.partsDistinct
  case doomedUsed => exact h.doomedUsed
  case usedAll => exact h.usedAll
  case requests =>
    intro j q there
    have safe := h.requests j q there
    refine ⟨fun c carried => ?_, safe.cleans, ?_, fun isOpen => absurd isOpen closed, ?_⟩
    · obtain ⟨-, stored, present, -⟩ := safe.resumes c carried
      rw [opened.1] at present
      cases present
    · rw [references_congr segments]
      exact safe.begun
    · rw [part]
      exact safe.inFlight
  case flights => exact h.flights

end Namros.Multipart
