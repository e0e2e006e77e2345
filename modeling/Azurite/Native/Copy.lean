import Azurite.Native.BlobOps

/-!
# Copying a blob

`startCopyFromURL` clones a committed source blob onto a destination base blob in one
transaction. Both blobs are read through `getBlobWithLeaseUpdated`, which finds a row without
looking at `deleting` and returns it with its lease as observed at the request's time; the
destination keeps its lease, and everything else comes from the source.
-/

namespace Azurite

/-- `getBlobWithLeaseUpdated(account, container, blob, snapshot, context, forceExist,
forceCommitted)`. A missing row is `BlobNotFound` unless `forceExist` is `false`; an uncommitted
one is refused, or dropped when `forceExist` is `false`, if `forceCommitted`. A snapshot is
returned with an available lease, any other row with its lease observed now. -/
def getBlobWithLeaseUpdated (ctx : Context) (account container blob snapshot : String)
    (forceExist forceCommitted : Option Bool) (s : Store) :
    Except StorageError (Option BlobModel) := do
  let _ ← s.assertContainerExists account container
  match s.blobs.find? fun r => r.accountName == account && r.containerName == container &&
      r.blobName == blob && r.snapshot == snapshot with
  | none => if forceExist == some false then pure none else throw .blobNotFound
  | some r =>
    let doc := r.model
    let synced :=
      if snapshot != "" then
        doc.syncLease { leaseState := some .available, leaseStatus := some .unlocked }
      else doc.syncLease (doc.lease.observe ctx.startTime)
    let dropped := forceCommitted == some true && !doc.isCommitted
    if forceExist != some false then
      ensure (!dropped) .blobNotFound
      pure (some synced)
    else if dropped then pure none
    else pure (some synced)

/-- `parseTier`: the tier a header names, compared case-insensitively. -/
def parseTier (tier : String) : Option String :=
  let t := tier.toLower
  if t == "hot" then some AccessTier.hot
  else if t == "cool" then some AccessTier.cool
  else if t == "archive" then some AccessTier.archive
  else if t == "cold" then some AccessTier.cold
  else none

/-- `BlobId`: a blob and snapshot (`""` for the base blob). -/
structure BlobId where
  account : String
  container : String
  blob : String
  snapshot : String := ""
  deriving DecidableEq, Repr

/-- `Models.SourceModifiedAccessConditions`. -/
structure SourceModifiedAccessConditions where
  sourceIfModifiedSince : Option Nat := none
  sourceIfUnmodifiedSince : Option Nat := none
  sourceIfMatch : Option String := none
  sourceIfNoneMatch : Option String := none
  sourceIfTags : Option String := none
  deriving DecidableEq, Repr

/-- `Models.BlobStartCopyFromURLOptionalParams`, the fields the store reads. -/
structure StartCopyOptions where
  sourceModifiedAccessConditions : Option SourceModifiedAccessConditions := none
  modifiedAccessConditions : Option ModifiedAccessConditions := none
  leaseAccessConditions : Option LeaseAccessConditions := none
  blobTagsString : Option String := none
  deriving DecidableEq, Repr

/-- The source conditions as the `ModifiedAccessConditions` `validateReadConditions` checks. -/
def SourceModifiedAccessConditions.toModified (c : SourceModifiedAccessConditions) :
    ModifiedAccessConditions :=
  { ifModifiedSince := c.sourceIfModifiedSince, ifUnmodifiedSince := c.sourceIfUnmodifiedSince,
    ifMatch := c.sourceIfMatch, ifNoneMatch := c.sourceIfNoneMatch, ifTags := c.sourceIfTags }

/-- The blob `startCopyFromURL` writes: the source's properties, blocks and metadata (unless
new metadata is given), with a fresh creation time, etag and copy status, and the destination's
lease when the destination exists. -/
def copiedBlob (ctx : Context) (sourceBlob : BlobModel) (destBlob : Option BlobModel)
    (destination : BlobId) (copySource : String) (metadata : Option Metadata)
    (blobTags : Option BlobTags) : BlobModel :=
  { name := destination.blob, snapshot := "", accountName := destination.account,
    containerName := destination.container, isCommitted := sourceBlob.isCommitted,
    properties := { sourceBlob.properties with
      creationTime := some ctx.startTime, lastModified := ctx.startTime, etag := ctx.newEtag,
      leaseStatus := match destBlob with
        | some d => d.properties.leaseStatus
        | none => some .unlocked,
      leaseState := match destBlob with
        | some d => d.properties.leaseState
        | none => some .available,
      leaseDuration := destBlob.bind (·.properties.leaseDuration),
      copyId := some ctx.uuid, copyStatus := some .success, copySource := some copySource,
      copyProgress := match sourceBlob.properties.contentLength with
        | some n => if n = 0 then none else some s!"{n}/{n}"
        | none => none,
      copyCompletionTime := some ctx.startTime, accessTierChangeTime := none },
    metadata := match metadata with
      | some m => if m.isEmpty then some (sourceBlob.metadata.getD []) else some m
      | none => some (sourceBlob.metadata.getD []),
    leaseDurationSeconds := destBlob.bind (·.leaseDurationSeconds),
    leaseId := destBlob.bind (·.leaseId),
    leaseExpireTime := destBlob.bind (·.leaseExpireTime),
    leaseBreakTime := destBlob.bind (·.leaseBreakTime),
    committedBlocksInOrder := sourceBlob.committedBlocksInOrder,
    persistency := sourceBlob.persistency, blobTags }

/-- The two tier checks of `startCopyFromURL`: a block blob takes the requested tier, which
must parse, and a page blob refuses any. -/
def applyCopyTier (copied : BlobModel) (tier : Option String) : Except StorageError BlobModel :=
  match tier with
  | some t =>
    if copied.properties.blobType == some .blockBlob then
      match parseTier t with
      | some accessTier =>
        pure { copied with properties := { copied.properties with accessTier := some accessTier } }
      | none => throw (.invalidHeaderValue "x-ms-access-tier" t)
    else if copied.properties.blobType == some .pageBlob then
      throw (.invalidHeaderValue "x-ms-access-tier" t)
    else pure copied
  | none => pure copied

/-- `startCopyFromURL`. Source conditions are checked as read conditions, destination conditions
and the destination's lease as a write; the source must be committed and, when archived, may
only be copied within its account to an explicit tier. -/
def startCopyFromURL (rt : Runtime) (ctx : Context) (source destination : BlobId)
    (copySource : String) (metadata : Option Metadata) (tier : Option String)
    (options : StartCopyOptions) (s : Store) : Except StorageError (BlobProperties × Store) := do
  let sourceBlob ← getBlobWithLeaseUpdated ctx source.account source.container source.blob
    source.snapshot (some true) (some true) s
  validateReadConditions rt
    (some (options.sourceModifiedAccessConditions.getD {}).toModified)
    (sourceBlob.map (·.target)) true
  let destBlob ← getBlobWithLeaseUpdated ctx destination.account destination.container
    destination.blob "" (some false) none s
  validateWriteConditions rt options.modifiedAccessConditions (destBlob.map (·.target))
  destBlob.forM fun d => Lease.validateBlobWrite d.lease options.leaseAccessConditions
  match sourceBlob with
  | none => throw .blobNotFound
  | some sourceBlob =>
    ensure sourceBlob.isCommitted .blobNotFound
    ensure (!(sourceBlob.properties.accessTier == some AccessTier.archive &&
      (tier.isNone || source.account != destination.account))) .blobArchived
    let _ ← s.assertContainerExists destination.account destination.container
    let blobTags ← options.blobTagsString.mapM rt.getTagsFromString
    let copied ← applyCopyTier
      (copiedBlob ctx sourceBlob destBlob destination copySource metadata blobTags) tier
    let s ← BlobsModel.upsert s (convertBlobModelToDbModel copied)
    pure (copied.properties, s)

end Azurite
