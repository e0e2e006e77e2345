import Mathlib.Data.List.Basic
import Mathlib.Data.String.Basic

/-!
# Errors, request context and the store's collaborators

`SqlBlobMetadataStore` (`src/blob/persistence/SqlBlobMetadataStore.ts`) reports every failure by
throwing one of the errors of `StorageErrorFactory`; a thrown error aborts the surrounding
Sequelize transaction, so no row it touched is kept. We model an operation as a function into
`Except StorageError`, and `StorageError` lists the errors the store throws, with the texts and
header names the code passes to them.

The store also calls code that is not part of `SqlBlobMetadataStore.ts`: `newEtag()` and `uuid()`
produce fresh values, `Buffer.from(name, "base64")` decodes a block name,
`generateQueryBlobWithTagsWhereFunction` evaluates an `x-ms-if-tags` filter and
`getTagsFromString` parses an `x-ms-tags` header. The fresh values of a request are fields of its
`Context`; the functions are the fields of `Runtime`, so that every theorem about the store holds
whatever these collaborators compute.
-/

namespace Azurite

/-- The errors of `StorageErrorFactory` that the store and its lease and condition checks throw.
The `contextId` every error carries is left out: it is always the request's. -/
inductive StorageError where
  | containerNotFound
  | containerAlreadyExists
  | blobNotFound
  | blobAlreadyExists
  | blobArchived
  | invalidBlobOrBlock
  | invalidBlockList
  | snapshotsPresent
  | blobSnapshotsPresent
  | accessTierNotSupportedForBlobType
  | invalidOperation (message : String)
  | invalidHeaderValue (headerName headerValue : String)
  /-- `NotImplementedinSQLError`. -/
  | notImplemented
  /-- `throw new Error("412")` of `getBlobTag`'s `x-ms-if-tags` check. -/
  | preconditionFailed
  | conditionNotMet
  | sourceConditionNotMet
  /-- The write-path failure of §4.2 for a condition on an absent entity. -/
  | notFound
  | leaseAlreadyPresent
  | leaseIdMissing
  | leaseIdMismatchWithLeaseOperation
  | leaseIdMismatchWithBlobOperation
  | leaseIdMismatchWithContainerOperation
  | leaseNotPresentWithLeaseOperation
  | leaseNotPresentWithBlobOperation
  | leaseNotPresentWithContainerOperation
  | leaseIsBrokenAndCannotBeRenewed
  | leaseIsBreakingAndCannotBeAcquired
  | leaseIsBreakingAndCannotBeChanged
  /-- A JavaScript `Error` the code throws itself (`throw new Error(message)`). -/
  | thrown (message : String)
  /-- A `TypeError` of the JavaScript runtime, such as a property read on `undefined`. -/
  | typeError (message : String)
  /-- The `RangeError` `ContainerLeaseAdapter` throws for a container model without a lease
  state or status. The adapter is not among the sources, so its message is left out. -/
  | rangeError
  /-- A write that leaves `column` of `table`, declared `allowNull: false`, `NULL`: Sequelize's
  `notNull Violation`, or the database's `NOT NULL constraint failed`. -/
  | notNullViolation (table column : String)
  deriving DecidableEq, Repr

/-- The request context. `startTime` is the request's clock in milliseconds; `newEtag` and `uuid`
are the values `newEtag()` and `uuid()` return while the request runs (each store operation calls
each of them at most once). -/
structure Context where
  contextId : String := ""
  startTime : Nat
  newEtag : String := ""
  uuid : String := ""
  deriving DecidableEq, Repr

/-- One `{ key, value }` entry of `Models.BlobTags.blobTagSet`. -/
structure BlobTag where
  key : String
  value : String
  deriving DecidableEq, Repr

/-- `Models.BlobTags`. -/
structure BlobTags where
  blobTagSet : List BlobTag
  deriving DecidableEq, Repr

/-- A metadata object (`IContainerMetadata`, `Models.BlobMetadata`), as its list of pairs. -/
abbrev Metadata := List (String × String)

/-- The functions the store calls that lie outside `SqlBlobMetadataStore.ts`. -/
structure Runtime where
  /-- `Buffer.from(name, "base64").length`. -/
  decodedLength : String → Nat
  /-- Whether `generateQueryBlobWithTagsWhereFunction(context, where)` accepts a blob with
  these tags. -/
  matchesTags : String → Option BlobTags → Bool
  /-- `getTagsFromString(tags, contextId)`: the tags of an `x-ms-tags` header. -/
  getTagsFromString : String → Except StorageError BlobTags

/-- `if (!b) throw err`: a check that lets an operation go on only when `b` holds. -/
def ensure (b : Bool) (err : StorageError) : Except StorageError Unit :=
  if b then .ok () else .error err

@[simp] theorem ensure_ok {b : Bool} {err : StorageError} : ensure b err = .ok () ↔ b = true := by
  unfold ensure; split <;> simp_all

/-- A bound computation succeeds exactly when both of its parts do. -/
theorem bind_ok_iff {ε α β : Type} {x : Except ε α} {f : α → Except ε β} {b : β} :
    x >>= f = .ok b ↔ ∃ a, x = .ok a ∧ f a = .ok b := by
  cases x <;> simp [bind, Except.bind]

@[simp] theorem ensure_bind_ok {b : Bool} {err : StorageError} {β : Type}
    {f : Unit → Except StorageError β} {r : β} :
    ensure b err >>= f = .ok r ↔ b = true ∧ f () = .ok r := by
  unfold ensure; cases b <;> simp [bind, Except.bind]

/-- `Option.all` as a bounded quantifier. -/
theorem option_all_iff {α : Type} {p : α → Bool} {o : Option α} :
    o.all p = true ↔ ∀ a ∈ o, p a = true := by
  cases o <;> simp

end Azurite
