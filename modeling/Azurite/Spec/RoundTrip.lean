import Azurite.Spec.Leases

/-!
# Storing a blob model and reading it back

Every write of a `Blobs` row goes through `convertBlobModelToDbModel` and every read through
`convertDbModelToBlobModel`. This file says exactly what survives the trip.

* `convertDbModelToBlobModel_convertBlobModelToDbModel`: the model read back is the model
  written with the properties `BlobProperties.stored` keeps. `x || null` drops an empty tier and
  a `false` `accessTierInferred`, the sequence number comes back as the text its `VARCHAR`
  column holds, and the copy properties, which have no column, come back undefined. The lease
  comes back as `BlobLeaseAdapter` stored it, an undefined state and status as `available` and
  `unlocked`; the content properties and every other field come back as written.
* `convertBlobModelToDbModel_read_back_iff`: a model reads back as itself exactly when its
  properties are `Storable`; the model `startCopyFromURL` writes never is
  (`copiedBlob_not_storable`).
* `startCopyFromURL_loses_copy_status`: the copy id and status `startCopyFromURL` returns are not
  what `getBlobProperties` reports right after.
-/

namespace Azurite

/-! ### What a row keeps -/

/-- A sequence number the `VARCHAR` column gives back as it was: text that is not empty. -/
def JsNumber.isText : JsNumber → Bool
  | .number _ => false
  | .string t => t != ""

/-- The properties a `Blobs` row gives back for `p`. -/
def BlobProperties.stored (p : BlobProperties) : BlobProperties :=
  { p with
    leaseState := some (p.leaseState.getD .available),
    leaseStatus := some (p.leaseStatus.getD .unlocked),
    accessTier := orNullString p.accessTier,
    accessTierInferred := orNullBool p.accessTierInferred,
    blobSequenceNumber := (orNullNumberText p.blobSequenceNumber).map .string,
    copyId := none, copyStatus := none, copySource := none, copyProgress := none,
    copyCompletionTime := none }

/-- Properties a row gives back unchanged: a lease state and status, no empty tier, no `false`
inferred tier, a sequence number only as text that is not empty, and no copy properties. -/
def BlobProperties.Storable (p : BlobProperties) : Prop :=
  p.leaseState.isSome ∧ p.leaseStatus.isSome ∧
  p.accessTier ≠ some "" ∧ p.accessTierInferred ≠ some false ∧
  p.blobSequenceNumber.all JsNumber.isText ∧ p.copyId = none ∧ p.copyStatus = none ∧
  p.copySource = none ∧ p.copyProgress = none ∧ p.copyCompletionTime = none

instance : DecidablePred BlobProperties.Storable :=
  fun _ => inferInstanceAs (Decidable (_ ∧ _))

/-- Storing a model and reading its row back gives the model with the properties the row
keeps. -/
theorem convertDbModelToBlobModel_convertBlobModelToDbModel (b : BlobModel) :
    convertDbModelToBlobModel (convertBlobModelToDbModel b) =
      { b with properties := b.properties.stored } :=
  rfl

theorem some_getD_eq_self {α : Type} {o : Option α} {d : α} :
    some (o.getD d) = o ↔ o.isSome := by
  cases o <;> simp

theorem orNullString_eq_self {s : Option String} : orNullString s = s ↔ s ≠ some "" := by
  rcases s with _ | t
  · simp [orNullString]
  · by_cases ht : t = "" <;> simp [orNullString, Option.filter, ht]

theorem orNullBool_eq_self {b : Option Bool} : orNullBool b = b ↔ b ≠ some false := by
  rcases b with _ | _ | _ <;> simp [orNullBool, Option.filter]

theorem orNullNumberText_eq_self {n : Option JsNumber} :
    (orNullNumberText n).map .string = n ↔ n.all JsNumber.isText := by
  rcases n with _ | k | t
  · simp [orNullNumberText]
  · simp only [orNullNumberText, JsNumber.isText, Option.all_some]
    split_ifs <;> simp
  · simp only [orNullNumberText, JsNumber.isText, Option.all_some]
    split_ifs with ht <;> simp [ht]

/-- The properties come back unchanged exactly when they are storable. -/
theorem BlobProperties.stored_eq_self_iff (p : BlobProperties) : p.stored = p ↔ p.Storable := by
  obtain ⟨_, _, _, _, _, _, _, _, _, _, _, _, _, _, _, _, _, _, _, _, _, _, _⟩ := p
  simp only [BlobProperties.stored, BlobProperties.mk.injEq, BlobProperties.Storable,
    some_getD_eq_self, orNullString_eq_self, orNullBool_eq_self, orNullNumberText_eq_self,
    true_and, and_true,
    @eq_comm _ none]

/-- A model reads back as itself exactly when its properties are storable. -/
theorem convertBlobModelToDbModel_read_back_iff (b : BlobModel) :
    convertDbModelToBlobModel (convertBlobModelToDbModel b) = b ↔ b.properties.Storable := by
  rw [convertDbModelToBlobModel_convertBlobModelToDbModel, ← BlobProperties.stored_eq_self_iff]
  exact ⟨congrArg BlobModel.properties, fun h => by rw [h]⟩

/-- The model `startCopyFromURL` writes carries a copy id, so it does not read back as itself. -/
theorem copiedBlob_not_storable (ctx : Context) (sourceBlob : BlobModel)
    (destBlob : Option BlobModel) (destination : BlobId) (copySource : String)
    (metadata : Option Metadata) (blobTags : Option BlobTags) (t : Option String) :
    ¬ ({ (copiedBlob ctx sourceBlob destBlob destination copySource metadata blobTags).properties
          with accessTier := t } : BlobProperties).Storable :=
  fun h => Option.noConfusion h.2.2.2.2.2.1

/-- A copy at time 1000 whose id is `u`. -/
def copyCtx : Context := { startTime := 1000, newEtag := "e2", uuid := "u" }

/-- Copying `b` to `d` returns the copy's id and status; reading `d` right after reports
neither. -/
theorem startCopyFromURL_loses_copy_status :
    ∃ p s', startCopyFromURL sampleRuntime copyCtx ⟨"a", "c", "b", ""⟩ ⟨"a", "c", "d", ""⟩
        "src" none none {} leasedStore = .ok (p, s') ∧
      p.copyId = some "u" ∧ p.copyStatus = some .success ∧
      ∃ q, getBlobProperties sampleRuntime copyCtx "a" "c" "d" "" none none s' = .ok q ∧
        q.properties.copyId = none ∧ q.properties.copyStatus = none :=
  ⟨_, _, rfl, rfl, rfl, _, rfl, rfl, rfl⟩

end Azurite
