import Azurite.Native.Lease
import Azurite.Native.Conditions

/-!
# Models and rows

The store moves between two shapes of the same entity: the model objects of
`IBlobMetadataStore` (`ContainerModel`, `BlobModel`) that the rest of the service works with, and
the rows of the Sequelize tables `Containers`, `Blobs` and `Blocks` declared in `init()`. This
file gives both shapes and the converters of `SqlBlobMetadataStore.ts` between them.

A column that holds JSON (`metadata`, `lease`, `contentProperties`, ...) is modelled by the value
it encodes, `none` standing for SQL `NULL`: `JSON.parse(JSON.stringify(v))` gives back `v` for
every value stored here, dates in a lease included, since `convertDbModelToLease` turns them back
into `Date`s. What the converters do lose is modelled exactly. `x || null` maps every falsy value
to `NULL` (`orNull`); `blobSequenceNumber` goes into a `VARCHAR` column and comes back as text
(`JsNumber`); and a field with no column is not stored at all.
-/

namespace Azurite

/-- `Models.BlobType`. -/
inductive BlobType where
  | blockBlob | pageBlob | appendBlob
  deriving DecidableEq, Repr

/-- `Models.PublicAccessType`. -/
inductive PublicAccessType where
  | container | blob
  deriving DecidableEq, Repr

/-- `Models.CopyStatusType`. -/
inductive CopyStatusType where
  | pending | success | aborted | failed
  deriving DecidableEq, Repr

/-- The `Models.AccessTier` values the store compares with. Tiers are kept as the strings of
the enum, as the `accessTier` column holds them. -/
def AccessTier.hot : String := "Hot"
/-- `Models.AccessTier.Cool`. -/
def AccessTier.cool : String := "Cool"
/-- `Models.AccessTier.Archive`. -/
def AccessTier.archive : String := "Archive"
/-- `Models.AccessTier.Cold`. -/
def AccessTier.cold : String := "Cold"

/-- A value of TypeScript type `number` as JavaScript holds it at run time. `getModelValue`
returns a `VARCHAR` column's text unconverted, so `blobSequenceNumber` may hold a string. -/
inductive JsNumber where
  | number (n : Nat)
  | string (s : String)
  deriving DecidableEq, Repr

/-- `IExtentChunk`: where the bytes of a block or blob live in the extent store. -/
structure ExtentChunk where
  id : String
  offset : Nat
  count : Nat
  deriving DecidableEq, Repr

/-- `PersistencyBlockModel`: a block of a committed block list. -/
structure PersistencyBlock where
  name : String
  size : Nat
  persistency : Option ExtentChunk
  deriving DecidableEq, Repr

/-- `Models.AccessPolicy`, with its dates as the strings the protocol layer passes. -/
structure AccessPolicy where
  start : Option String := none
  expiry : Option String := none
  permission : Option String := none
  deriving DecidableEq, Repr

/-- `Models.SignedIdentifier`, one entry of a container ACL. -/
structure SignedIdentifier where
  id : String
  accessPolicy : Option AccessPolicy := none
  deriving DecidableEq, Repr

/-! ### Containers -/

/-- `Models.ContainerProperties`, the fields the store reads or writes. -/
structure ContainerProperties where
  lastModified : Nat
  etag : String
  leaseStatus : Option LeaseStatusType := none
  leaseDuration : Option LeaseDurationType := none
  leaseState : Option LeaseStateType := none
  publicAccess : Option PublicAccessType := none
  hasImmutabilityPolicy : Option Bool := none
  hasLegalHold : Option Bool := none
  deriving DecidableEq, Repr

/-- `ContainerModel`. -/
structure ContainerModel where
  accountName : String
  name : String
  properties : ContainerProperties
  metadata : Option Metadata := none
  containerAcl : Option (List SignedIdentifier) := none
  leaseId : Option String := none
  leaseBreakTime : Option Nat := none
  leaseExpireTime : Option Nat := none
  leaseDurationSeconds : Option Nat := none
  deriving DecidableEq, Repr

/-- The columns of a `Containers` row other than its `containerId`. -/
structure ContainerValues where
  accountName : String
  containerName : String
  lastModified : Nat
  etag : String
  metadata : Option Metadata
  containerAcl : Option (List SignedIdentifier)
  publicAccess : Option PublicAccessType
  lease : Option Lease
  hasImmutabilityPolicy : Option Bool
  hasLegalHold : Option Bool
  deriving DecidableEq, Repr

/-- A row of `Containers`. -/
structure ContainerRow extends ContainerValues where
  containerId : Nat
  deriving DecidableEq, Repr

/-- Modelled from the spec: the lease fields of a container model, as `ContainerLeaseAdapter`
holds them once its check passes (`ContainerModel.leaseAdapter`). -/
def ContainerModel.lease (c : ContainerModel) : Lease :=
  { leaseId := c.leaseId, leaseState := c.properties.leaseState,
    leaseStatus := c.properties.leaseStatus, leaseDurationType := c.properties.leaseDuration,
    leaseDurationSeconds := c.leaseDurationSeconds, leaseExpireTime := c.leaseExpireTime,
    leaseBreakTime := c.leaseBreakTime }

/-- `ContainerLeaseSyncer(container).sync(lease)`: write a lease into a container model. -/
def ContainerModel.syncLease (c : ContainerModel) (l : Lease) : ContainerModel :=
  { c with
    leaseId := l.leaseId, leaseExpireTime := l.leaseExpireTime,
    leaseDurationSeconds := l.leaseDurationSeconds, leaseBreakTime := l.leaseBreakTime,
    properties := { c.properties with leaseDuration := l.leaseDurationType,
                                      leaseState := l.leaseState, leaseStatus := l.leaseStatus } }

/-- `convertDbModelToLease`: a `NULL` lease column reads as the empty lease `{}`. -/
def convertDbModelToLease (lease : Option Lease) : Lease := lease.getD {}

@[simp] theorem convertDbModelToLease_some (l : Lease) : convertDbModelToLease (some l) = l := rfl

/-- `convertDbModelToContainerModel`. -/
def convertDbModelToContainerModel (r : ContainerValues) : ContainerModel :=
  let lease := convertDbModelToLease r.lease
  { accountName := r.accountName, name := r.containerName,
    properties := { lastModified := r.lastModified, etag := r.etag,
                    leaseStatus := lease.leaseStatus, leaseDuration := lease.leaseDurationType,
                    leaseState := lease.leaseState, publicAccess := r.publicAccess,
                    hasImmutabilityPolicy := r.hasImmutabilityPolicy,
                    hasLegalHold := r.hasLegalHold },
    metadata := r.metadata, containerAcl := r.containerAcl, leaseId := lease.leaseId,
    leaseBreakTime := lease.leaseBreakTime, leaseExpireTime := lease.leaseExpireTime,
    leaseDurationSeconds := lease.leaseDurationSeconds }

/-- Modelled from the spec: `new ContainerLeaseAdapter(container)`. The adapter is not among the
sources; it throws a `RangeError` for a container model without a lease state or status, and
otherwise holds the model's lease fields. -/
def ContainerModel.leaseAdapter (c : ContainerModel) : Except StorageError Lease :=
  if c.lease.Defined then .ok c.lease else .error .rangeError

/-- The values `convertContainerModelToDbModel` makes of a container model, `lease` being the
adapter it stores. -/
def ContainerModel.toDbModel (c : ContainerModel) (lease : Lease) : ContainerValues :=
  { accountName := c.accountName, containerName := c.name,
    lastModified := c.properties.lastModified, etag := c.properties.etag,
    metadata := c.metadata, containerAcl := c.containerAcl,
    publicAccess := c.properties.publicAccess, lease := some lease,
    hasImmutabilityPolicy := c.properties.hasImmutabilityPolicy,
    hasLegalHold := c.properties.hasLegalHold }

/-- `convertContainerModelToDbModel`, whose first step is
`new ContainerLeaseAdapter(container).toString()`. -/
def convertContainerModelToDbModel (c : ContainerModel) : Except StorageError ContainerValues := do
  let lease ← c.leaseAdapter
  pure (c.toDbModel lease)

/-- What conditional headers on a container are checked against. -/
def ContainerModel.target (c : ContainerModel) : ConditionTarget :=
  { etag := c.properties.etag, lastModified := c.properties.lastModified, tags := none }

/-! ### Blobs -/

/-- `Models.BlobPropertiesInternal`, the fields the store reads or writes. -/
structure BlobProperties where
  lastModified : Nat
  etag : String
  creationTime : Option Nat := none
  leaseDuration : Option LeaseDurationType := none
  leaseState : Option LeaseStateType := none
  leaseStatus : Option LeaseStatusType := none
  accessTier : Option String := none
  accessTierInferred : Option Bool := none
  accessTierChangeTime : Option Nat := none
  blobSequenceNumber : Option JsNumber := none
  blobType : Option BlobType := none
  contentMD5 : Option (List UInt8) := none
  contentDisposition : Option String := none
  contentEncoding : Option String := none
  contentLanguage : Option String := none
  contentLength : Option Nat := none
  contentType : Option String := none
  cacheControl : Option String := none
  copyId : Option String := none
  copyStatus : Option CopyStatusType := none
  copySource : Option String := none
  copyProgress : Option String := none
  copyCompletionTime : Option Nat := none
  deriving DecidableEq, Repr

/-- `BlobModel`. -/
structure BlobModel where
  accountName : String
  containerName : String
  name : String
  snapshot : String
  isCommitted : Bool
  properties : BlobProperties
  leaseDurationSeconds : Option Nat := none
  leaseBreakTime : Option Nat := none
  leaseExpireTime : Option Nat := none
  leaseId : Option String := none
  persistency : Option ExtentChunk := none
  committedBlocksInOrder : Option (List PersistencyBlock) := none
  metadata : Option Metadata := none
  blobTags : Option BlobTags := none
  deriving DecidableEq, Repr

/-- `IBlobContentProperties`, the JSON of the `contentProperties` column. -/
structure BlobContentProperties where
  contentLength : Option Nat := none
  contentType : Option String := none
  contentEncoding : Option String := none
  contentLanguage : Option String := none
  contentMD5 : Option (List UInt8) := none
  contentDisposition : Option String := none
  cacheControl : Option String := none
  deriving DecidableEq, Repr

/-- The object `convertBlobModelToDbModel` returns: a value for every column of `Blobs` but
`blobId` and `deleting`. Only `blobType` can be `undefined`, here `none`. -/
structure BlobValues where
  accountName : String
  containerName : String
  blobName : String
  snapshot : String
  blobType : Option BlobType
  blobSequenceNumber : Option String
  isCommitted : Bool
  lastModified : Nat
  creationTime : Option Nat
  etag : String
  accessTier : Option String
  accessTierChangeTime : Option Nat
  accessTierInferred : Option Bool
  lease : Option Lease
  persistency : Option ExtentChunk
  committedBlocksInOrder : Option (List PersistencyBlock)
  metadata : Option Metadata
  blobTags : Option BlobTags
  contentProperties : Option BlobContentProperties
  deriving DecidableEq, Repr

/-- A row of `Blobs`. `deleting` is the tombstone counter of the unique index; `0` is live. -/
structure BlobRow extends BlobValues where
  blobId : Nat
  deleting : Nat
  deriving DecidableEq, Repr

/-- A row of `Blocks`: a staged block. Its `id` is the auto-increment key Sequelize adds. -/
structure BlockRow where
  id : Nat
  accountName : String
  containerName : String
  blobName : String
  blockName : String
  deleting : Nat
  size : Nat
  persistency : Option ExtentChunk
  deriving DecidableEq, Repr

/-- Modelled from the spec: `new BlobLeaseAdapter(blob)`, the lease fields of a blob model. The
adapter is not among the sources; it reads an undefined lease state and status as `available`
and `unlocked`, a lease's initial state, so every lease it hands on or stores has both. -/
def BlobModel.lease (b : BlobModel) : Lease :=
  { leaseId := b.leaseId, leaseState := some (b.properties.leaseState.getD .available),
    leaseStatus := some (b.properties.leaseStatus.getD .unlocked),
    leaseDurationType := b.properties.leaseDuration,
    leaseDurationSeconds := b.leaseDurationSeconds, leaseExpireTime := b.leaseExpireTime,
    leaseBreakTime := b.leaseBreakTime }

/-- `BlobLeaseSyncer(blob).sync(lease)`, and `BlobWriteLeaseSyncer`: write a lease into a blob
model. Modelled from the spec: a syncer writes back the observed lease fields. -/
def BlobModel.syncLease (b : BlobModel) (l : Lease) : BlobModel :=
  { b with
    leaseId := l.leaseId, leaseExpireTime := l.leaseExpireTime,
    leaseDurationSeconds := l.leaseDurationSeconds, leaseBreakTime := l.leaseBreakTime,
    properties := { b.properties with leaseDuration := l.leaseDurationType,
                                      leaseState := l.leaseState, leaseStatus := l.leaseStatus } }

@[simp] theorem BlobModel.lease_syncLease (b : BlobModel) (l : Lease) :
    (b.syncLease l).lease = l.withDefaults := rfl

@[simp] theorem BlobModel.withDefaults_lease (b : BlobModel) : b.lease.withDefaults = b.lease :=
  rfl

theorem BlobModel.lease_defined (b : BlobModel) : b.lease.Defined := ⟨rfl, rfl⟩

@[simp] theorem BlobModel.withDefaults_observe_lease (b : BlobModel) (now : Nat) :
    (b.lease.observe now).withDefaults = b.lease.observe now :=
  Lease.withDefaults_of_defined (Lease.observe_defined b.lease_defined now)

/-- The lease of a model reads its properties only through their lease fields. -/
theorem BlobModel.lease_of_properties {b : BlobModel} {p : BlobProperties}
    (h₁ : p.leaseState = b.properties.leaseState)
    (h₂ : p.leaseStatus = b.properties.leaseStatus)
    (h₃ : p.leaseDuration = b.properties.leaseDuration) :
    ({ b with properties := p } : BlobModel).lease = b.lease := by
  simp only [BlobModel.lease, h₁, h₂, h₃]

@[simp] theorem ContainerModel.lease_syncLease (c : ContainerModel) (l : Lease) :
    (c.syncLease l).lease = l := rfl

/-- What conditional headers on a blob are checked against. -/
def BlobModel.target (b : BlobModel) : ConditionTarget :=
  { etag := b.properties.etag, lastModified := b.properties.lastModified, tags := b.blobTags }

@[simp] theorem BlobModel.target_syncLease (b : BlobModel) (l : Lease) :
    (b.syncLease l).target = b.target := rfl

/-! ### `x || null` -/

/-- `s || null` for a string: the empty string is falsy. -/
def orNullString (s : Option String) : Option String := s.filter (· ≠ "")

/-- `b || null` for a boolean: `false` is falsy. -/
def orNullBool (b : Option Bool) : Option Bool := b.filter id

/-- `n || null` for a `number` field, and the text a `VARCHAR` column then keeps: `0` and the
empty string are falsy, a number is stored as its decimal digits. -/
def orNullNumberText : Option JsNumber → Option String
  | some (.number n) => if n = 0 then none else some (toString n)
  | some (.string s) => if s = "" then none else some s
  | none => none

/-- `restoreUint8Array`: the bytes of an MD5 the `contentProperties` JSON held. -/
def restoreUint8Array (bytes : Option (List UInt8)) : Option (List UInt8) := bytes

/-- `convertBlobContentPropertiesToDbModel`: the JSON of the content fields, never `NULL`. -/
def convertBlobContentPropertiesToDbModel (p : BlobProperties) : Option BlobContentProperties :=
  some { contentLength := p.contentLength, contentType := p.contentType,
         contentEncoding := p.contentEncoding, contentLanguage := p.contentLanguage,
         contentMD5 := p.contentMD5, contentDisposition := p.contentDisposition,
         cacheControl := p.cacheControl }

/-- `convertBlobModelToDbModel`. The `lease*` keys it also sets are not columns of `Blobs`,
so Sequelize drops them; the lease is stored as the JSON of `BlobLeaseAdapter`. -/
def convertBlobModelToDbModel (b : BlobModel) : BlobValues :=
  { accountName := b.accountName, containerName := b.containerName, blobName := b.name,
    snapshot := b.snapshot, blobType := b.properties.blobType,
    blobSequenceNumber := orNullNumberText b.properties.blobSequenceNumber,
    isCommitted := b.isCommitted, lastModified := b.properties.lastModified,
    creationTime := b.properties.creationTime, etag := b.properties.etag,
    accessTier := orNullString b.properties.accessTier,
    accessTierChangeTime := b.properties.accessTierChangeTime,
    accessTierInferred := orNullBool b.properties.accessTierInferred,
    lease := some b.lease, persistency := b.persistency,
    committedBlocksInOrder := b.committedBlocksInOrder, metadata := b.metadata,
    blobTags := b.blobTags,
    contentProperties := convertBlobContentPropertiesToDbModel b.properties }

/-- `convertDbModelToBlobModel`. -/
def convertDbModelToBlobModel (r : BlobValues) : BlobModel :=
  let lease := convertDbModelToLease r.lease
  let cp := r.contentProperties
  { accountName := r.accountName, containerName := r.containerName, name := r.blobName,
    snapshot := r.snapshot, isCommitted := r.isCommitted,
    properties :=
      { lastModified := r.lastModified, etag := r.etag, leaseDuration := lease.leaseDurationType,
        creationTime := r.creationTime, leaseState := lease.leaseState,
        leaseStatus := lease.leaseStatus, accessTier := r.accessTier,
        accessTierInferred := r.accessTierInferred,
        accessTierChangeTime := r.accessTierChangeTime,
        blobSequenceNumber := r.blobSequenceNumber.map .string, blobType := r.blobType,
        contentMD5 := restoreUint8Array (cp.bind (·.contentMD5)),
        contentDisposition := cp.bind (·.contentDisposition),
        contentEncoding := cp.bind (·.contentEncoding),
        contentLanguage := cp.bind (·.contentLanguage),
        contentLength := cp.bind (·.contentLength),
        contentType := cp.bind (·.contentType),
        cacheControl := cp.bind (·.cacheControl) },
    leaseDurationSeconds := lease.leaseDurationSeconds, leaseBreakTime := lease.leaseBreakTime,
    leaseExpireTime := lease.leaseExpireTime, leaseId := lease.leaseId,
    persistency := r.persistency, committedBlocksInOrder := r.committedBlocksInOrder,
    metadata := r.metadata, blobTags := r.blobTags }

/-- The lease a blob row stores, as `BlobLeaseAdapter` reads it. -/
@[simp] theorem convertDbModelToBlobModel_lease (r : BlobValues) :
    (convertDbModelToBlobModel r).lease = (convertDbModelToLease r.lease).withDefaults := rfl

/-- Storing a model and reading it back gives back its lease. -/
@[simp] theorem convertBlobModelToDbModel_lease (b : BlobModel) :
    convertDbModelToLease (convertBlobModelToDbModel b).lease = b.lease := rfl

end Azurite
