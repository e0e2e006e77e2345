import Azurite.Native.Models

/-!
# The store and its container operations

The state of `SqlBlobMetadataStore` is the content of its four Sequelize tables. A table is a
list of rows in insertion order; auto-increment keys come from counters kept beside the tables.
The Sequelize calls the store makes are modelled by what they do to such a list:

* `findOne({ where })` is the first row the where clause accepts (`List.find?`);
* `update(values, { where })` rewrites every accepted row, skipping keys whose value is
  `undefined`;
* `destroy({ where })` deletes every accepted row;
* `upsert(values)` rewrites the row that has the same unique key as `values`, keeping its
  primary key, or inserts a new row when there is none.

Each operation runs in one transaction, and an exception rolls all of it back: an operation is a
function of the store into `Except StorageError`, and the store it returns is the committed one.
-/

namespace Azurite

/-- A row of `Services`: the JSON of each service property, `none` for `NULL`. -/
structure ServiceRow where
  accountName : String
  defaultServiceVersion : Option String
  cors : Option String
  logging : Option String
  minuteMetrics : Option String
  hourMetrics : Option String
  staticWebsite : Option String
  deleteRetentionPolicy : Option String
  deriving DecidableEq, Repr

/-- The four tables, and the next value of each auto-increment key. -/
structure Store where
  services : List ServiceRow := []
  containers : List ContainerRow := []
  blobs : List BlobRow := []
  blocks : List BlockRow := []
  nextContainerId : Nat := 1
  nextBlobId : Nat := 1
  nextBlockId : Nat := 1
  deriving DecidableEq, Repr

/-- The empty store that `init()` creates. -/
def Store.empty : Store := {}

/-! ### Where clauses -/

/-- `where: { accountName, containerName }` on `Containers`. -/
def ContainerRow.isContainer (account container : String) (r : ContainerRow) : Bool :=
  r.accountName == account && r.containerName == container

/-- `where: { accountName, containerName, blobName, snapshot, deleting: 0 }` on `Blobs`. -/
def BlobRow.isLive (account container blob snapshot : String) (r : BlobRow) : Bool :=
  r.accountName == account && r.containerName == container && r.blobName == blob &&
    r.snapshot == snapshot && r.deleting == 0

/-- The same clause with `isCommitted: true`. -/
def BlobRow.isLiveCommitted (account container blob snapshot : String) (r : BlobRow) : Bool :=
  r.isLive account container blob snapshot && r.isCommitted

/-- `where: { accountName, containerName, blobName }` on `Blobs` or `Blocks`: every row of a
blob name, whatever its snapshot or `deleting`. -/
def BlobRow.ofBlob (account container blob : String) (r : BlobRow) : Bool :=
  r.accountName == account && r.containerName == container && r.blobName == blob

/-- `where: { accountName, containerName }` on `Blobs`. -/
def BlobRow.ofContainer (account container : String) (r : BlobRow) : Bool :=
  r.accountName == account && r.containerName == container

/-- `where: { accountName, containerName, blobName }` on `Blocks`. -/
def BlockRow.ofBlob (account container blob : String) (r : BlockRow) : Bool :=
  r.accountName == account && r.containerName == container && r.blobName == blob

/-- `where: { accountName, containerName, blobName, deleting: 0 }` on `Blocks`: the staged blocks
of a blob that no commit has retired. -/
def BlockRow.isLive (account container blob : String) (r : BlockRow) : Bool :=
  r.ofBlob account container blob && r.deleting == 0

/-- `where: { accountName, containerName }` on `Blocks`. -/
def BlockRow.ofContainer (account container : String) (r : BlockRow) : Bool :=
  r.accountName == account && r.containerName == container

/-! ### Writes -/

/-- A row rewritten with `values` by `update` or `upsert`: an `undefined` `blobType` is skipped. -/
def BlobRow.assign (r : BlobRow) (v : BlobValues) : BlobRow :=
  { r with toBlobValues := { v with blobType := v.blobType <|> r.blobType } }

/-- The write of `BlobsModel.upsert(values)`, once the values are valid. The unique index of
`Blobs` is `(accountName, containerName, blobName, snapshot, deleting)`; the values leave
`deleting` to its default `0`, so the row they meet is the live row of the same blob and
snapshot. That row keeps its `blobId`. -/
def Store.upsertBlob (s : Store) (v : BlobValues) : Store :=
  let key (r : BlobRow) : Bool := r.isLive v.accountName v.containerName v.blobName v.snapshot
  if s.blobs.any key then
    { s with blobs := s.blobs.map fun r =>
        if key r then r.assign v else r }
  else
    { s with blobs := s.blobs ++ [{ toBlobValues := v, blobId := s.nextBlobId, deleting := 0 }],
             nextBlobId := s.nextBlobId + 1 }

/-- `BlocksModel.upsert({ ..., deleting: 0, ... })`. The unique index of `Blocks` is
`(accountName, containerName, blobName, blockName)`, without `deleting`: staging a name again
rewrites its row, and revives it when a commit had retired it. -/
def Store.upsertBlock (s : Store) (account container blob blockName : String) (size : Nat)
    (persistency : Option ExtentChunk) : Store :=
  let key (r : BlockRow) : Bool := r.ofBlob account container blob && r.blockName == blockName
  if s.blocks.any key then
    { s with blocks := s.blocks.map fun r =>
        if key r then { r with size, deleting := 0, persistency := persistency <|> r.persistency }
        else r }
  else
    { s with blocks := s.blocks ++ [⟨s.nextBlockId, account, container, blob, blockName, 0, size,
                                     persistency⟩],
             nextBlockId := s.nextBlockId + 1 }

/-- `BlobsModel.upsert(values)`. Of the `allowNull: false` columns of `Blobs`, two can be left
empty by `convertBlobModelToDbModel`: `creationTime` (`blob.properties.creationTime || null`)
and `blobType` (`undefined` when the model has none, which the insert writes as `NULL`). Either
fails the write, `creationTime` first: Sequelize validates it before the query runs. -/
def BlobsModel.upsert (s : Store) (v : BlobValues) : Except StorageError Store := do
  ensure v.creationTime.isSome (.notNullViolation "Blobs" "creationTime")
  ensure v.blobType.isSome (.notNullViolation "Blobs" "blobType")
  pure (s.upsertBlob v)

/-- `BlobsModel.update(values, { where })`, for a rewrite `f` of the accepted rows. -/
def Store.updateBlobs (s : Store) (p : BlobRow → Bool) (f : BlobRow → BlobRow) : Store :=
  { s with blobs := s.blobs.map fun r => if p r then f r else r }

/-- `BlobsModel.update(values, { where })` with the whole of a blob's values. `update` drops the
`undefined` keys before it validates, so an absent `blobType` keeps the row's (`BlobRow.assign`),
but a `creationTime` left `null` fails the write. -/
def BlobsModel.update (s : Store) (p : BlobRow → Bool) (v : BlobValues) :
    Except StorageError Store := do
  ensure v.creationTime.isSome (.notNullViolation "Blobs" "creationTime")
  pure (s.updateBlobs p (·.assign v))

/-- `ContainersModel.update(values, { where })`, for a rewrite `f` of the accepted rows. -/
def Store.updateContainers (s : Store) (p : ContainerRow → Bool)
    (f : ContainerRow → ContainerRow) : Store :=
  { s with containers := s.containers.map fun r => if p r then f r else r }

/-- `deleteBlobFromSQL(where)`: `BlobsModel.destroy`. -/
def Store.deleteBlobFromSQL (s : Store) (p : BlobRow → Bool) : Store :=
  { s with blobs := s.blobs.filter fun r => !p r }

/-- `deleteBlockFromSQL(where)`: `BlocksModel.destroy`. -/
def Store.deleteBlockFromSQL (s : Store) (p : BlockRow → Bool) : Store :=
  { s with blocks := s.blocks.filter fun r => !p r }

/-! ### Reads shared by every operation -/

/-- `assertContainerExists`: the container's row, or `ContainerNotFound`. -/
def Store.assertContainerExists (s : Store) (account container : String) :
    Except StorageError ContainerRow :=
  match s.containers.find? (ContainerRow.isContainer account container) with
  | some r => .ok r
  | none => .error .containerNotFound

/-- The container a conditional or lease check on a found row sees. -/
def ContainerRow.model (r : ContainerRow) : ContainerModel :=
  convertDbModelToContainerModel r.toContainerValues

/-- The blob model of a found row. -/
def BlobRow.model (r : BlobRow) : BlobModel := convertDbModelToBlobModel r.toBlobValues

/-! ### Service properties -/

/-- `ServicePropertiesModel`, each property as its JSON. -/
structure ServicePropertiesModel where
  accountName : String
  defaultServiceVersion : Option String := none
  cors : Option String := none
  logging : Option String := none
  minuteMetrics : Option String := none
  hourMetrics : Option String := none
  staticWebsite : Option String := none
  deleteRetentionPolicy : Option String := none
  deriving DecidableEq, Repr

/-- `setServiceProperties`: create the account's row, or update it. `serializeModelValue` makes
an absent property `undefined`, which `create` stores as `NULL` and `update` skips. -/
def setServiceProperties (p : ServicePropertiesModel) (s : Store) :
    Except StorageError (ServicePropertiesModel × Store) :=
  let row : ServiceRow :=
    { accountName := p.accountName, defaultServiceVersion := p.defaultServiceVersion,
      cors := p.cors, logging := p.logging, minuteMetrics := p.minuteMetrics,
      hourMetrics := p.hourMetrics, staticWebsite := p.staticWebsite,
      deleteRetentionPolicy := p.deleteRetentionPolicy }
  if s.services.any (·.accountName == p.accountName) then
    .ok (p, { s with services := s.services.map fun r =>
      if r.accountName == p.accountName then
        { r with defaultServiceVersion := p.defaultServiceVersion <|> r.defaultServiceVersion,
                 cors := p.cors <|> r.cors, logging := p.logging <|> r.logging,
                 minuteMetrics := p.minuteMetrics <|> r.minuteMetrics,
                 hourMetrics := p.hourMetrics <|> r.hourMetrics,
                 staticWebsite := p.staticWebsite <|> r.staticWebsite,
                 deleteRetentionPolicy := p.deleteRetentionPolicy <|> r.deleteRetentionPolicy }
      else r })
  else .ok (p, { s with services := s.services ++ [row] })

/-- `getServiceProperties`: the account's properties, `undefined` when it has no row. -/
def getServiceProperties (account : String) (s : Store) : Option ServicePropertiesModel :=
  (s.services.find? (·.accountName == account)).map fun r =>
    { accountName := account, defaultServiceVersion := r.defaultServiceVersion, cors := r.cors,
      logging := r.logging, minuteMetrics := r.minuteMetrics, hourMetrics := r.hourMetrics,
      staticWebsite := r.staticWebsite, deleteRetentionPolicy := r.deleteRetentionPolicy }

/-! ### Container operations -/

/-- `createContainer`: `ContainersModel.create` of the converted model, whose unique index on
`(accountName, containerName)` turns a second container of the same name into
`ContainerAlreadyExists`. The conversion's `RangeError` comes first and is rethrown as it is. -/
def createContainer (container : ContainerModel) (s : Store) :
    Except StorageError (ContainerModel × Store) := do
  let values ← convertContainerModelToDbModel container
  if s.containers.any (ContainerRow.isContainer container.accountName container.name) then
    .error .containerAlreadyExists
  else
    .ok (container,
      { s with containers := s.containers ++
                 [{ toContainerValues := values, containerId := s.nextContainerId }],
               nextContainerId := s.nextContainerId + 1 })

/-- The row a container write reads in its transaction, checked against the request's
conditions: `ContainerNotFound` when there is none. -/
def findContainerForWrite (rt : Runtime) (account container : String)
    (mac : Option ModifiedAccessConditions) (s : Store) : Except StorageError ContainerRow := do
  let found := s.containers.find? (ContainerRow.isContainer account container)
  validateWriteConditions rt mac (found.map (·.model.target))
  match found with
  | some r => pure r
  | none => throw .containerNotFound

/-- `deleteContainer`: the container, and in the same transaction every blob and block in it. -/
def deleteContainer (rt : Runtime) (ctx : Context) (account container : String)
    (lac : Option LeaseAccessConditions) (mac : Option ModifiedAccessConditions) (s : Store) :
    Except StorageError Store := do
  let r ← findContainerForWrite rt account container mac s
  Lease.validateContainerDelete ((convertDbModelToLease r.lease).observe ctx.startTime) lac
  let s := { s with containers := s.containers.filter fun r => !r.isContainer account container }
  let s := s.deleteBlobFromSQL (BlobRow.ofContainer account container)
  pure (s.deleteBlockFromSQL (BlockRow.ofContainer account container))

/-- `setContainerMetadata`. The lease is checked by `ContainerReadLeaseValidator`. -/
def setContainerMetadata (rt : Runtime) (ctx : Context) (account container : String)
    (lastModified : Nat) (etag : String) (metadata : Option Metadata)
    (lac : Option LeaseAccessConditions) (mac : Option ModifiedAccessConditions) (s : Store) :
    Except StorageError Store := do
  let r ← findContainerForWrite rt account container mac s
  Lease.validateContainerRead ((convertDbModelToLease r.lease).observe ctx.startTime) lac
  pure (s.updateContainers (ContainerRow.isContainer account container)
    fun r => { r with lastModified, etag, metadata })

/-- `SetContainerAccessPolicyOptions`. -/
structure SetContainerAccessPolicyOptions where
  lastModified : Nat
  etag : String
  containerAcl : Option (List SignedIdentifier) := none
  publicAccess : Option PublicAccessType := none
  leaseAccessConditions : Option LeaseAccessConditions := none
  modifiedAccessConditions : Option ModifiedAccessConditions := none
  deriving DecidableEq, Repr

/-- `setContainerACL`. `containerAcl` is written as `serializeModelValue(..) || null`, but
`publicAccess` as `serializeModelValue(..)` alone: an absent value is `undefined`, which
`update` skips. The update must change a row: the store counts changed rows, as the comment in
`setServiceProperties` records ("Set the exactly equal properties will affect 0 rows"). -/
def setContainerACL (rt : Runtime) (ctx : Context) (account container : String)
    (acl : SetContainerAccessPolicyOptions) (s : Store) : Except StorageError Store := do
  let r ← findContainerForWrite rt account container acl.modifiedAccessConditions s
  Lease.validateContainerRead ((convertDbModelToLease r.lease).observe ctx.startTime)
    acl.leaseAccessConditions
  let write (r : ContainerRow) : ContainerRow :=
    { r with lastModified := acl.lastModified, etag := acl.etag, containerAcl := acl.containerAcl,
             publicAccess := acl.publicAccess <|> r.publicAccess }
  let s' := s.updateContainers (ContainerRow.isContainer account container) write
  if s'.containers = s.containers then throw .containerNotFound
  pure s'

/-- The shape of the five container lease operations: read the container for a write, run the
lease operation `op` on its lease as observed now, and store the resulting lease. -/
def containerLeaseOperation (rt : Runtime) (ctx : Context) (account container : String)
    (mac : Option ModifiedAccessConditions) (op : Lease → Except StorageError Lease) (s : Store) :
    Except StorageError (ContainerModel × Store) := do
  let r ← findContainerForWrite rt account container mac s
  let l ← op (r.model.lease.observe ctx.startTime)
  let m := r.model.syncLease l
  pure (m, s.updateContainers (ContainerRow.isContainer account container)
    fun r => { r with lease := some m.lease })

/-- `acquireContainerLease`, returning the container's properties and lease id. -/
def acquireContainerLease (rt : Runtime) (ctx : Context) (account container : String)
    (duration : Int) (proposedLeaseId : Option String) (mac : Option ModifiedAccessConditions)
    (s : Store) : Except StorageError (ContainerModel × Store) :=
  containerLeaseOperation rt ctx account container mac
    (Lease.acquire · ctx.startTime duration proposedLeaseId ctx.uuid) s

/-- `releaseContainerLease`. -/
def releaseContainerLease (rt : Runtime) (ctx : Context) (account container leaseId : String)
    (mac : Option ModifiedAccessConditions) (s : Store) :
    Except StorageError (ContainerModel × Store) :=
  containerLeaseOperation rt ctx account container mac (Lease.release · leaseId) s

/-- `renewContainerLease`. -/
def renewContainerLease (rt : Runtime) (ctx : Context) (account container leaseId : String)
    (mac : Option ModifiedAccessConditions) (s : Store) :
    Except StorageError (ContainerModel × Store) :=
  containerLeaseOperation rt ctx account container mac (Lease.renew · ctx.startTime leaseId) s

/-- `breakContainerLease`. The remaining break time it reports is computed from the returned
model by `leaseTimeSeconds`. -/
def breakContainerLease (rt : Runtime) (ctx : Context) (account container : String)
    (breakPeriod : Option Nat) (mac : Option ModifiedAccessConditions) (s : Store) :
    Except StorageError (ContainerModel × Store) :=
  containerLeaseOperation rt ctx account container mac
    (Lease.«break» · ctx.startTime breakPeriod) s

/-- `changeContainerLease`. -/
def changeContainerLease (rt : Runtime) (ctx : Context)
    (account container leaseId proposedLeaseId : String) (mac : Option ModifiedAccessConditions)
    (s : Store) : Except StorageError (ContainerModel × Store) :=
  containerLeaseOperation rt ctx account container mac (Lease.change · leaseId proposedLeaseId) s

/-- The `leaseTime` a break reports: `Math.round((leaseBreakTime - startTime) / 1000)` seconds
while breaking, else `0`. -/
def leaseTimeSeconds (ctx : Context) (l : Lease) : Nat :=
  match l.leaseState, l.leaseBreakTime with
  | some .breaking, some t => (t - ctx.startTime + 500) / 1000
  | _, _ => 0

end Azurite
