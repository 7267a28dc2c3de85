import Namros.Source.Outcomes

/-!
# What the object operations write

Versions with their locators and manifests, heads, list entries, protected references and
audit records; buckets, uploads and everything else are left alone.
-/

namespace Namros.Source

open Library Transaction

def objectRecordKey : Key → Prop
  | .objectVersion _ (.text _) _ | .objectVersionByID _ _ | .objectManifestChunk _ _ _
  | .objectHead _ (.text _) | .listObject _ (.text _) | .protectedRefByVersion _ (.text _) _ _
  | .protectedRefBySegment _ _ | .sequence _ | .auditEvent _ | .auditHead => True
  | _ => False

/-- Object records, and shared objects with their references. -/
def sharedRecordKey (k : Key) : Prop := objectRecordKey k ∨ sharedObjectKey k

/-- The records object calls may write. -/
def objectCallKey (k : Key) : Prop := sharedRecordKey k ∨ bucketKey k

/-- A key of a record under an object key that is no text. -/
def strayKey : Key → Prop
  | .objectVersion _ (.stray _ _) _ | .objectHead _ (.stray _ _) | .listObject _ (.stray _ _)
  | .multipartUploadByKey _ (.stray _ _) _ | .protectedRefByVersion _ (.stray _ _) _ _
  | .sharedObjectRef _ _ (.stray _ _) _ => True
  | _ => False

/-- Every object key of the store is a text. -/
def Textual (s : Store) : Prop := ∀ K, strayKey K → s.lookup K = none

theorem strayKey_unwritten (K : Key) (stray : strayKey K) : ¬ objectCallKey K := by
  unfold strayKey at stray
  split at stray <;>
    simp [objectCallKey, sharedRecordKey, objectRecordKey, sharedObjectKey, bucketKey] at stray ⊢

theorem Textual.of_agree {s t : Store} (agree : Agree strayKey t s) (h : Textual s) : Textual t :=
  fun K stray => (agree K stray).trans (h K stray)

variable {context : CallContext}

/-! ## Searches -/

theorem keeps_hydrateHeadManifest (head : ObjectHead) :
    Writes locatorKey (hydrateHeadManifest head) := by
  refine .ite (fun _ => .pure _) fun _ => .bind (keeps_findVersionByID _ _ _) fun found => ?_
  rcases found with _ | ⟨K, version⟩
  · exact .pure _
  · exact .pure _

theorem keeps_hydrateHeadOrEmpty (head : ObjectHead) :
    Writes locatorKey (hydrateHeadOrEmpty head) := by
  intro s hydrated t ran
  rcases hydrateHeadOrEmpty_ok ran with ⟨-, rfl⟩ | ⟨found, s₁, searched, cases⟩
  · exact .refl _
  have located := keeps_locateVersion _ _ _ s found s₁ searched
  rcases cases with ⟨-, rfl⟩ | ⟨-, rfl⟩ | ⟨version, w, hydrating, -⟩
  · exact located
  · exact located
  · rw [readOnly_hydrateObjectVersionManifest _ _ _ _ hydrating]
    exact located

theorem keeps_currentHydratedHead (bucketID key : String) :
    Writes locatorKey (currentHydratedHead bucketID key) := by
  refine .read (readOnly_getObjectHead _ _) fun head => ?_
  cases head with
  | none => exact .pure _
  | some head => exact .bind (keeps_hydrateHeadManifest _) fun _ => .pure _

theorem readOnly_nextObjectVersionID (bucketID key : String) :
    ReadOnly (nextObjectVersionID context bucketID key) :=
  readOnly_nextFreeID _ _

end Namros.Source
