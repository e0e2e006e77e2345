import Azurite.Native.BlockOps

/-!
# Blob operations

The operations of `SqlBlobMetadataStore` on single blobs: creating and reading them, snapshots,
deletion under its four policies, property, metadata, tag and tier setters, the five blob lease
operations, and `startCopyFromURL`. Each follows the same pattern: assert that the container
exists, find the blob's row, check the request's conditions and the blob's lease as observed at
the request's time, then write.
-/

namespace Azurite

/-! ### Snapshot times -/

/-- `n` in decimal, left-padded with zeros to `width` digits. -/
def padDigits (width n : Nat) : String :=
  let s := toString n
  "".pushn '0' (width - s.length) ++ s

/-- The proleptic Gregorian (year, month, day) of a day count since 1970-01-01. -/
def civilFromDays (days : Nat) : Nat × Nat × Nat :=
  let z := days + 719468
  let era := z / 146097
  let doe := z - era * 146097
  let yoe := (doe - doe / 1460 + doe / 36524 - doe / 146096) / 365
  let doy := doe - (365 * yoe + yoe / 4 - yoe / 100)
  let mp := (5 * doy + 2) / 153
  let d := doy - (153 * mp + 2) / 5 + 1
  let m := if mp < 10 then mp + 3 else mp - 9
  (yoe + era * 400 + (if m ≤ 2 then 1 else 0), m, d)

/-- `Date.prototype.toISOString()` for a time in milliseconds since the epoch. -/
def toISOString (ms : Nat) : String :=
  let (y, m, d) := civilFromDays (ms / 86400000)
  let t := ms % 86400000
  let year := if y ≤ 9999 then padDigits 4 y else "+" ++ padDigits 6 y
  year ++ "-" ++ padDigits 2 m ++ "-" ++ padDigits 2 d ++ "T" ++ padDigits 2 (t / 3600000) ++
    ":" ++ padDigits 2 (t / 60000 % 60) ++ ":" ++ padDigits 2 (t / 1000 % 60) ++ "." ++
    padDigits 3 (t % 1000) ++ "Z"

example : toISOString 1700000000123 = "2023-11-14T22:13:20.123Z" := by decide

/-- `String.prototype.replace` with a one-character pattern: the first occurrence of `c` is
replaced, and only that one. -/
def replaceFirst (c : Char) (replacement : List Char) : List Char → List Char
  | [] => []
  | d :: l => if d = c then replacement ++ l else d :: replaceFirst c replacement l

/-- Modelled from the spec: `convertDateTimeStringMsTo7Digital`, which renders the ISO time of
a snapshot with seven fractional digits, `dateTimeString.replace("Z", "0000Z")`. -/
def convertDateTimeStringMsTo7Digital (s : String) : String :=
  ⟨replaceFirst 'Z' "0000Z".toList s.toList⟩

example : convertDateTimeStringMsTo7Digital (toISOString 1000) = "1970-01-01T00:00:01.0000000Z" :=
  by decide

/-! ### Creating and reading blobs -/

/-- `createBlob`. An existing committed row must pass the conditions, must not meet
`If-None-Match: *`, must not be archived, and lends its lease to the new row ("Keep original blob
lease"). -/
def createBlob (rt : Runtime) (ctx : Context) (blob : BlobModel)
    (lac : Option LeaseAccessConditions) (mac : Option ModifiedAccessConditions) (s : Store) :
    Except StorageError Store := do
  let _ ← s.assertContainerExists blob.accountName blob.containerName
  let found := s.blobs.find? (BlobRow.isLiveCommitted blob.accountName blob.containerName
    blob.name blob.snapshot)
  validateWriteConditions rt mac (found.map (·.model.target))
  ensure (!(mac.any (·.ifNoneMatch == some "*") && found.isSome)) .blobAlreadyExists
  let blob ← match found with
    | some r => do
      let l := r.model.lease.observe ctx.startTime
      Lease.validateBlobWrite l lac
      ensure (r.model.properties.accessTier != some AccessTier.archive) .blobArchived
      pure (blob.syncLease l)
    | none => pure blob
  BlobsModel.upsert s (convertBlobModelToDbModel blob)

/-- `downloadBlob`: the committed blob with its lease observed now. -/
def downloadBlob (rt : Runtime) (ctx : Context) (account container blob snapshot : String)
    (lac : Option LeaseAccessConditions) (mac : Option ModifiedAccessConditions) (s : Store) :
    Except StorageError BlobModel := do
  let _ ← s.assertContainerExists account container
  let found := s.blobs.find? (BlobRow.isLiveCommitted account container blob snapshot)
  validateReadConditions rt mac (found.map (·.model.target))
  match found with
  | none => throw .blobNotFound
  | some r =>
    let l := r.model.lease.observe ctx.startTime
    Lease.validateBlobRead l lac
    pure (r.model.syncLease l)

/-- `getBlobProperties`: the committed blob with its lease observed now. The `tagCount` it adds
is computed by `getBlobTagsCount`, outside the store, and left out. -/
def getBlobProperties (rt : Runtime) (ctx : Context) (account container blob snapshot : String)
    (lac : Option LeaseAccessConditions) (mac : Option ModifiedAccessConditions) (s : Store) :
    Except StorageError BlobModel := do
  let _ ← s.assertContainerExists account container
  let found := s.blobs.find? (BlobRow.isLiveCommitted account container blob snapshot)
  validateReadConditions rt mac (found.map (·.model.target))
  match found with
  | none => throw .blobNotFound
  | some r =>
    ensure r.model.isCommitted .blobNotFound
    let l := r.model.lease.observe ctx.startTime
    Lease.validateBlobRead l lac
    pure (r.model.syncLease l)

/-- `createSnapshot`: a copy of the committed base row under the request's time, with the given
metadata if any and its lease synced to `{}`. Returns the snapshot's properties and id. -/
def createSnapshot (rt : Runtime) (ctx : Context) (account container blob : String)
    (lac : Option LeaseAccessConditions) (metadata : Option Metadata)
    (mac : Option ModifiedAccessConditions) (s : Store) :
    Except StorageError ((BlobProperties × String) × Store) := do
  let _ ← s.assertContainerExists account container
  let found := s.blobs.find? (BlobRow.isLiveCommitted account container blob "")
  validateReadConditions rt mac (found.map (·.model.target))
  match found with
  | none => throw .blobNotFound
  | some r =>
    Lease.validateBlobRead (r.model.lease.observe ctx.startTime) lac
    let snapshotTime := convertDateTimeStringMsTo7Digital (toISOString ctx.startTime)
    let snapshotBlob := ({ r.model with snapshot := snapshotTime,
                                        metadata := metadata <|> r.model.metadata } : BlobModel)
      |>.syncLease {}
    let s ← BlobsModel.upsert s (convertBlobModelToDbModel snapshotBlob)
    pure ((snapshotBlob.properties, snapshotTime), s)

/-! ### Deleting blobs -/

/-- `Models.DeleteSnapshotsOptionType`. -/
inductive DeleteSnapshotsOptionType where
  | include | only
  deriving DecidableEq, Repr

/-- `Models.BlobDeleteMethodOptionalParams`. -/
structure BlobDeleteOptions where
  snapshot : Option String := none
  deleteSnapshots : Option DeleteSnapshotsOptionType := none
  leaseAccessConditions : Option LeaseAccessConditions := none
  modifiedAccessConditions : Option ModifiedAccessConditions := none
  deriving DecidableEq, Repr

/-- `deleteBlob`. The target is the committed row of the given snapshot (the base blob when
none is given); only a base blob has its lease checked. The code's four scenarios exclude one
another: delete the base blob (refused with `SnapshotsPresent` while it has snapshots), delete
one snapshot, delete the base blob and its snapshots, delete the snapshots only. Deleting a base
blob also deletes the blocks of its name. -/
def deleteBlob (rt : Runtime) (ctx : Context) (account container blob : String)
    (options : BlobDeleteOptions) (s : Store) : Except StorageError Store := do
  let _ ← s.assertContainerExists account container
  let found := s.blobs.find? (BlobRow.isLiveCommitted account container blob
    (options.snapshot.getD ""))
  validateWriteConditions rt options.modifiedAccessConditions (found.map (·.model.target))
  match found with
  | none => throw .blobNotFound
  | some r =>
    let againstBaseBlob := r.model.snapshot == ""
    if againstBaseBlob then
      Lease.validateBlobWrite (r.model.lease.observe ctx.startTime) options.leaseAccessConditions
    ensure (!(!againstBaseBlob && options.deleteSnapshots.isSome))
      (.invalidOperation "Invalid operation against a blob snapshot.")
    let deleteAll (s : Store) : Store :=
      (s.deleteBlobFromSQL (BlobRow.ofBlob account container blob)).deleteBlockFromSQL
        (BlockRow.ofBlob account container blob)
    if againstBaseBlob then
      match options.deleteSnapshots with
      | none =>
        ensure (s.blobs.countP (fun b => b.ofBlob account container blob && b.deleting == 0) ≤ 1)
          .snapshotsPresent
        pure (deleteAll s)
      | some .include => pure (deleteAll s)
      | some .only =>
        pure (s.deleteBlobFromSQL fun b => b.ofBlob account container blob &&
            decide ("" < b.snapshot))
    else
      pure (s.deleteBlobFromSQL fun b =>
        b.ofBlob account container blob && b.snapshot == r.model.snapshot)

/-! ### Setters -/

/-- The committed base row a blob write reads in its transaction, checked against the request's
conditions: `BlobNotFound` when there is none. -/
def findBaseBlobForWrite (rt : Runtime) (account container blob : String)
    (mac : Option ModifiedAccessConditions) (s : Store) : Except StorageError BlobRow := do
  let _ ← s.assertContainerExists account container
  let found := s.blobs.find? (BlobRow.isLiveCommitted account container blob "")
  validateWriteConditions rt mac (found.map (·.model.target))
  match found with
  | some r => pure r
  | none => throw .blobNotFound

/-- `Models.BlobHTTPHeaders`. -/
structure BlobHTTPHeaders where
  blobCacheControl : Option String := none
  blobContentType : Option String := none
  blobContentMD5 : Option (List UInt8) := none
  blobContentEncoding : Option String := none
  blobContentLanguage : Option String := none
  blobContentDisposition : Option String := none
  deriving DecidableEq, Repr

/-- The content headers of a blob's properties set from `BlobHTTPHeaders`. -/
def BlobProperties.setHTTPHeaders (p : BlobProperties) (h : BlobHTTPHeaders) : BlobProperties :=
  { p with cacheControl := h.blobCacheControl, contentType := h.blobContentType,
           contentMD5 := h.blobContentMD5, contentEncoding := h.blobContentEncoding,
           contentLanguage := h.blobContentLanguage,
           contentDisposition := h.blobContentDisposition }

/-- `setBlobHTTPHeaders`: the content headers, when given, a new etag and last-modified time,
written back through `convertBlobModelToDbModel`. -/
def setBlobHTTPHeaders (rt : Runtime) (ctx : Context) (account container blob : String)
    (lac : Option LeaseAccessConditions) (headers : Option BlobHTTPHeaders)
    (mac : Option ModifiedAccessConditions) (s : Store) :
    Except StorageError (BlobProperties × Store) := do
  let r ← findBaseBlobForWrite rt account container blob mac s
  let l := r.model.lease.observe ctx.startTime
  Lease.validateBlobWrite l lac
  let m := r.model.syncLease l
  let p := match headers with
    | some h => m.properties.setHTTPHeaders h
    | none => m.properties
  let m := { m with properties := { p with etag := ctx.newEtag, lastModified := ctx.startTime } }
  let s ← BlobsModel.update s (BlobRow.isLive account container blob "")
    (convertBlobModelToDbModel m)
  pure (m.properties, s)

/-- `setBlobMetadata`, returning the new last-modified time, etag and lease state. -/
def setBlobMetadata (rt : Runtime) (ctx : Context) (account container blob : String)
    (lac : Option LeaseAccessConditions) (metadata : Option Metadata)
    (mac : Option ModifiedAccessConditions) (s : Store) :
    Except StorageError (BlobProperties × Store) := do
  let r ← findBaseBlobForWrite rt account container blob mac s
  let l := r.model.lease.observe ctx.startTime
  Lease.validateBlobWrite l lac
  let m := r.model.syncLease l
  pure ({ lastModified := ctx.startTime, etag := ctx.newEtag,
          leaseStatus := m.properties.leaseStatus, leaseDuration := m.properties.leaseDuration,
          leaseState := m.properties.leaseState },
    s.updateBlobs (BlobRow.isLive account container blob "") fun r =>
      { r with metadata, lastModified := ctx.startTime, etag := ctx.newEtag,
               lease := some m.lease })

/-- `setBlobTag`. The `modifiedAccessConditions` it receives are never checked. -/
def setBlobTag (ctx : Context) (account container blob : String) (snapshot : Option String)
    (lac : Option LeaseAccessConditions) (tags : Option BlobTags)
    (_modifiedAccessConditions : Option ModifiedAccessConditions) (s : Store) :
    Except StorageError Store := do
  let _ ← s.assertContainerExists account container
  let snapshot := snapshot.getD ""
  match s.blobs.find? (BlobRow.isLiveCommitted account container blob snapshot) with
  | none => throw .blobNotFound
  | some r =>
    let l := r.model.lease.observe ctx.startTime
    Lease.validateBlobWrite l lac
    let m := r.model.syncLease l
    pure (s.updateBlobs (BlobRow.isLive account container blob snapshot) fun r =>
      { r with blobTags := tags, lease := some m.lease })

/-- `getBlobTag`. Its `x-ms-if-tags` check runs when the header is a non-empty string. -/
def getBlobTag (rt : Runtime) (ctx : Context) (account container blob snapshot : String)
    (lac : Option LeaseAccessConditions) (mac : Option ModifiedAccessConditions) (s : Store) :
    Except StorageError (Option BlobTags) := do
  let _ ← s.assertContainerExists account container
  match s.blobs.find? (BlobRow.isLiveCommitted account container blob snapshot) with
  | none => throw .blobNotFound
  | some r =>
    validateReadConditions rt mac (some r.model.target)
    ensure r.model.isCommitted .blobNotFound
    Lease.validateBlobRead (r.model.lease.observe ctx.startTime) lac
    match (mac.bind (·.ifTags)).filter (· ≠ "") with
    | some t => ensure (rt.matchesTags t r.model.blobTags) .preconditionFailed
    | none => pure ()
    pure r.model.blobTags

/-- `setTier`: a block blob moves between the four standard tiers; the response is `202` when
it leaves the archive tier. It reads no conditional headers. -/
def setTier (ctx : Context) (account container blob tier : String)
    (lac : Option LeaseAccessConditions) (s : Store) : Except StorageError (Nat × Store) := do
  let _ ← s.assertContainerExists account container
  match s.blobs.find? (BlobRow.isLiveCommitted account container blob "") with
  | none => throw .blobNotFound
  | some r =>
    Lease.validateBlobWrite (r.model.lease.observe ctx.startTime) lac
    ensure (r.model.snapshot == "") .blobSnapshotsPresent
    let online := tier == AccessTier.cool || tier == AccessTier.hot || tier == AccessTier.cold
    ensure ((tier == AccessTier.archive || online) &&
      r.model.properties.blobType == some .blockBlob) .accessTierNotSupportedForBlobType
    let responseCode :=
      if r.model.properties.accessTier == some AccessTier.archive && online then 202 else 200
    pure (responseCode, s.updateBlobs (BlobRow.isLive account container blob "") fun r =>
      { r with accessTier := some tier, accessTierInferred := some false,
               accessTierChangeTime := some ctx.startTime })

/-! ### Blob leases -/

/-- The shape of the five blob lease operations: read the committed base row for a write, run
the lease operation on its lease as observed now, and store the resulting lease. Returns the
blob as read and the new lease. -/
def blobLeaseOperation (rt : Runtime) (ctx : Context) (account container blob : String)
    (mac : Option ModifiedAccessConditions) (op : Lease → Except StorageError Lease) (s : Store) :
    Except StorageError ((BlobModel × Lease) × Store) := do
  let r ← findBaseBlobForWrite rt account container blob mac s
  let l ← op (r.model.lease.observe ctx.startTime)
  pure ((r.model, l),
    s.updateBlobs (BlobRow.isLive account container blob "") fun r => { r with lease := some l })

/-- `acquireBlobLease`. -/
def acquireBlobLease (rt : Runtime) (ctx : Context) (account container blob : String)
    (duration : Int) (proposedLeaseId : Option String) (mac : Option ModifiedAccessConditions)
    (s : Store) : Except StorageError ((BlobModel × Lease) × Store) :=
  blobLeaseOperation rt ctx account container blob mac
    (Lease.acquire · ctx.startTime duration proposedLeaseId ctx.uuid) s

/-- `releaseBlobLease`. -/
def releaseBlobLease (rt : Runtime) (ctx : Context) (account container blob leaseId : String)
    (mac : Option ModifiedAccessConditions) (s : Store) :
    Except StorageError ((BlobModel × Lease) × Store) :=
  blobLeaseOperation rt ctx account container blob mac (Lease.release · leaseId) s

/-- `renewBlobLease`. -/
def renewBlobLease (rt : Runtime) (ctx : Context) (account container blob leaseId : String)
    (mac : Option ModifiedAccessConditions) (s : Store) :
    Except StorageError ((BlobModel × Lease) × Store) :=
  blobLeaseOperation rt ctx account container blob mac (Lease.renew · ctx.startTime leaseId) s

/-- `breakBlobLease`; its `leaseTime` is `leaseTimeSeconds` of the new lease. -/
def breakBlobLease (rt : Runtime) (ctx : Context) (account container blob : String)
    (breakPeriod : Option Nat) (mac : Option ModifiedAccessConditions) (s : Store) :
    Except StorageError ((BlobModel × Lease) × Store) :=
  blobLeaseOperation rt ctx account container blob mac
    (Lease.«break» · ctx.startTime breakPeriod) s

/-- `changeBlobLease`. -/
def changeBlobLease (rt : Runtime) (ctx : Context)
    (account container blob leaseId proposedLeaseId : String)
    (mac : Option ModifiedAccessConditions) (s : Store) :
    Except StorageError ((BlobModel × Lease) × Store) :=
  blobLeaseOperation rt ctx account container blob mac (Lease.change · leaseId proposedLeaseId) s

/-! ### Existence checks -/

/-- `checkBlobExist`: any live row of the blob and snapshot, committed or not. -/
def checkBlobExist (account container blob : String) (snapshot : Option String) (s : Store) :
    Except StorageError Unit := do
  let _ ← s.assertContainerExists account container
  match s.blobs.find? (BlobRow.isLive account container blob (snapshot.getD "")) with
  | some _ => pure ()
  | none => throw .blobNotFound

/-- `getBlobType`: the type and commit state of a live row, if any. -/
def getBlobType (account container blob : String) (snapshot : Option String) (s : Store) :
    Option (Option BlobType × Bool) :=
  (s.blobs.find? (BlobRow.isLive account container blob (snapshot.getD ""))).map
    fun r => (r.blobType, r.isCommitted)

end Azurite
