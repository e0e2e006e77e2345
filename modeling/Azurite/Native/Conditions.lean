import Azurite.Native.Basic

/-!
# Conditional request headers

`validateReadConditions` and `validateWriteConditions` (`src/blob/conditions/`) check a request's
`If-Match`, `If-None-Match`, `If-Modified-Since`, `If-Unmodified-Since` and `x-ms-if-tags` headers
against the entity a transaction has just read, or against its absence. Their code is not among
the sources at hand, so both are modelled from §4.2 of the spec, and `ConditionsHold` states the
same rules as a proposition: `validateWriteConditions_ok` says the two agree.
-/

namespace Azurite

/-- `Models.ModifiedAccessConditions`; times in milliseconds. -/
structure ModifiedAccessConditions where
  ifModifiedSince : Option Nat := none
  ifUnmodifiedSince : Option Nat := none
  ifMatch : Option String := none
  ifNoneMatch : Option String := none
  ifTags : Option String := none
  deriving DecidableEq, Repr

/-- What a condition is checked against: the etag, last-modified time and tags of the entity
the transaction read. Containers have no tags. -/
structure ConditionTarget where
  etag : String
  lastModified : Nat
  tags : Option BlobTags
  deriving DecidableEq, Repr

/-- Modelled from the spec: the checks of §4.2 against an existing entity, failing with
`notMet` (`ConditionNotMet`, or `SourceConditionNotMet` for a copy source) or, for the tag
filter, with a precondition failure. -/
def checkExisting (rt : Runtime) (notMet : StorageError) (c : ModifiedAccessConditions)
    (e : ConditionTarget) : Except StorageError Unit := do
  ensure (c.ifModifiedSince.all (· < e.lastModified)) notMet
  ensure (c.ifUnmodifiedSince.all (e.lastModified ≤ ·)) notMet
  ensure (c.ifMatch.all fun m => m = "*" ∨ m = e.etag) notMet
  ensure (c.ifNoneMatch.all fun m => m ≠ "*" ∧ m ≠ e.etag) notMet
  ensure (c.ifTags.all (rt.matchesTags · e.tags)) .preconditionFailed

/-- Modelled from the spec: `validateReadConditions(context, conditions, model, isSource)`.
Against an absent entity only `If-Match` can fail. -/
def validateReadConditions (rt : Runtime) (c : Option ModifiedAccessConditions)
    (e : Option ConditionTarget) (isSource : Bool := false) : Except StorageError Unit :=
  let notMet := if isSource then StorageError.sourceConditionNotMet else .conditionNotMet
  match c, e with
  | none, _ => .ok ()
  | some c, none => if c.ifMatch.isSome then .error notMet else .ok ()
  | some c, some e => checkExisting rt notMet c e

/-- Modelled from the spec: `validateWriteConditions(context, conditions, model)`. Against an
absent entity, `If-Match` or `If-Unmodified-Since` fails with a not-found error. -/
def validateWriteConditions (rt : Runtime) (c : Option ModifiedAccessConditions)
    (e : Option ConditionTarget) : Except StorageError Unit :=
  match c, e with
  | none, _ => .ok ()
  | some c, none =>
    if c.ifMatch.isSome || c.ifUnmodifiedSince.isSome then .error .notFound else .ok ()
  | some c, some e => checkExisting rt .conditionNotMet c e

/-- The rules of §4.2 as a proposition: the conditions `c` hold of the entity `e` (absent when
`none`). -/
def ConditionsHold (rt : Runtime) (c : ModifiedAccessConditions) : Option ConditionTarget → Prop
  | none => c.ifMatch = none ∧ c.ifUnmodifiedSince = none
  | some e =>
    (∀ t ∈ c.ifModifiedSince, t < e.lastModified) ∧
    (∀ t ∈ c.ifUnmodifiedSince, e.lastModified ≤ t) ∧
    (∀ m ∈ c.ifMatch, m = "*" ∨ m = e.etag) ∧
    (∀ m ∈ c.ifNoneMatch, m ≠ "*" ∧ m ≠ e.etag) ∧
    (∀ t ∈ c.ifTags, rt.matchesTags t e.tags = true)

theorem checkExisting_ok {rt : Runtime} {notMet : StorageError} {c : ModifiedAccessConditions}
    {e : ConditionTarget} :
    checkExisting rt notMet c e = .ok () ↔ ConditionsHold rt c (some e) := by
  simp only [checkExisting, Bool.decide_or, ne_eq, Bool.decide_and, decide_not, ensure_bind_ok,
    option_all_iff, Option.mem_def, decide_eq_true_eq, Bool.or_eq_true, Bool.and_eq_true,
    Bool.not_eq_eq_eq_not, Bool.not_true, decide_eq_false_iff_not, ensure_ok, ConditionsHold]

/-- The write-path validator passes exactly when the conditions hold. -/
theorem validateWriteConditions_ok {rt : Runtime} {c : ModifiedAccessConditions}
    {e : Option ConditionTarget} :
    validateWriteConditions rt (some c) e = .ok () ↔ ConditionsHold rt c e := by
  cases e with
  | none =>
    simp only [validateWriteConditions, ConditionsHold]
    cases c.ifMatch <;> cases c.ifUnmodifiedSince <;> simp
  | some e => exact checkExisting_ok

/-- On an existing entity the read-path validator checks the same rules. -/
theorem validateReadConditions_ok {rt : Runtime} {c : ModifiedAccessConditions}
    {e : ConditionTarget} {isSource : Bool} :
    validateReadConditions rt (some c) (some e) isSource = .ok () ↔
        ConditionsHold rt c (some e) :=
  checkExisting_ok

end Azurite
