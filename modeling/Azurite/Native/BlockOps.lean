import Azurite.Native.Store
import Mathlib.Data.List.Sort

/-!
# Staging and committing blocks

A block blob is assembled in two steps. `stageBlock` upserts a row of `Blocks` (creating an
uncommitted placeholder row in `Blobs` when the blob has none), and `commitBlockList` turns a
list of block names into the blob's committed block list, retiring every staged block of the
blob by incrementing its `deleting` counter. `getBlockList` reads both lists back.
-/

namespace Azurite

/-- `BlockModel`: a block to stage. -/
structure BlockModel where
  accountName : String
  containerName : String
  blobName : String
  name : String
  size : Nat
  persistency : ExtentChunk
  deriving DecidableEq, Repr

/-- `Models.Block`, an entry of `getBlockList`'s uncommitted list. -/
structure Block where
  name : String
  size : Nat
  deriving DecidableEq, Repr

/-- What `getBlockList` returns. -/
structure BlockList where
  uncommittedBlocks : List Block
  committedBlocks : List PersistencyBlock
  deriving DecidableEq, Repr

/-- One entry of the block list `commitBlockList` receives. -/
structure BlockListItem where
  blockName : String
  blockCommitType : String
  deriving DecidableEq, Repr

/-- The staged blocks of a blob that no commit has retired. -/
def Store.liveBlocks (s : Store) (account container blob : String) : List BlockRow :=
  s.blocks.filter (BlockRow.isLive account container blob)

/-- `findOne({ ..., order: [["id", "ASC"]] })`: the row with the least id. -/
def firstById : List BlockRow → Option BlockRow
  | [] => none
  | r :: rs =>
    match firstById rs with
    | some r' => if r'.id < r.id then some r' else some r
    | none => some r

/-- `findAll({ ..., order: [["id", "ASC"]] })`. -/
def sortById (rows : List BlockRow) : List BlockRow :=
  rows.insertionSort (fun a b => a.id ≤ b.id)

/-- The uncommitted placeholder `stageBlock` creates for a blob that has no row yet. -/
def stagingPlaceholder (ctx : Context) (block : BlockModel) : BlobModel :=
  { accountName := block.accountName, containerName := block.containerName,
    name := block.blobName, snapshot := "", isCommitted := false,
    properties := { creationTime := some ctx.startTime, lastModified := ctx.startTime,
                    etag := ctx.newEtag, contentLength := some 0,
                    blobType := some .blockBlob } }

/-- `stageBlock`. When the blob has a row, a committed one has its lease checked, and the new
block's base64-decoded name must be as long as that of the blob's first live block
(`InvalidBlobOrBlock`). -/
def stageBlock (rt : Runtime) (ctx : Context) (block : BlockModel)
    (lac : Option LeaseAccessConditions) (s : Store) : Except StorageError Store := do
  let _ ← s.assertContainerExists block.accountName block.containerName
  let s ← match s.blobs.find? (BlobRow.isLive block.accountName block.containerName
      block.blobName "") with
    | some r => do
      if r.isCommitted then
        Lease.validateBlobWrite (r.model.lease.observe ctx.startTime) lac
      match firstById (s.liveBlocks block.accountName block.containerName block.blobName) with
      | some b =>
        ensure (rt.decodedLength b.blockName == rt.decodedLength block.name) .invalidBlobOrBlock
      | none => pure ()
      pure s
    | none => BlobsModel.upsert s (convertBlobModelToDbModel (stagingPlaceholder ctx block))
  pure (s.upsertBlock block.accountName block.containerName block.blobName block.name block.size
    (some block.persistency))

/-- `getBlockList`: the committed list of the blob's row (any `isCommitted`), and the staged
blocks of the blob name in id order; `isCommitted` selects which of the two are returned. -/
def getBlockList (rt : Runtime) (ctx : Context) (account container blob : String)
    (snapshot : String) (isCommitted : Option Bool) (lac : Option LeaseAccessConditions)
    (mac : Option ModifiedAccessConditions) (s : Store) : Except StorageError BlockList := do
  let _ ← s.assertContainerExists account container
  let found := s.blobs.find? (BlobRow.isLive account container blob snapshot)
  validateReadConditions rt mac (found.map (·.model.target))
  match found with
  | none => throw .blobNotFound
  | some r =>
    Lease.validateBlobRead (r.model.lease.observe ctx.startTime) lac
    pure { committedBlocks :=
             if isCommitted != some false then r.model.committedBlocksInOrder.getD [] else []
           uncommittedBlocks :=
             if isCommitted != some true then
               (sortById (s.liveBlocks account container blob)).map
                 fun b => ⟨b.blockName, b.size⟩
             else [] }

/-- The entry a JavaScript `Map` filled by `set(block.name, block)` over `blocks` holds for
`name`: the last block of that name. -/
def lastNamed (blocks : List PersistencyBlock) (name : String) : Option PersistencyBlock :=
  blocks.reverse.find? (·.name == name)

/-- The selection `commitBlockList` makes for one entry of the block list, from the previous
committed list and the staged blocks. The commit type is compared after `toLowerCase()`; no
other character lowers to a letter of the three commit types, so ASCII lowering decides the same
comparisons. -/
def resolveBlock (committed uncommitted : List PersistencyBlock) (item : BlockListItem) :
    Except StorageError PersistencyBlock :=
  let found : Option PersistencyBlock → Except StorageError PersistencyBlock
    | some b => .ok b
    | none => .error .invalidBlockList
  match item.blockCommitType.toLower with
  | "uncommitted" => found (lastNamed uncommitted item.blockName)
  | "committed" => found (lastNamed committed item.blockName)
  | "latest" => found (lastNamed uncommitted item.blockName <|> lastNamed committed item.blockName)
  | _ => .error .invalidBlockList

/-- `BlocksModel.update({ deleting: literal("deleting + 1") }, { where })` for every block row of
a blob name. -/
def Store.retireBlocks (s : Store) (account container blob : String) : Store :=
  { s with blocks := s.blocks.map fun b =>
      if b.ofBlob account container blob then { b with deleting := b.deleting + 1 } else b }

/-- `commitBlockList`. The committed list of the blob's committed row and the live staged blocks
resolve the block list; an unresolved entry fails the whole commit with `InvalidBlockList`.
The blob is upserted with the selected blocks, their total size, a cleared lease and its first
creation time, and every block row of the blob name is retired. -/
def commitBlockList (rt : Runtime) (ctx : Context) (blob : BlobModel)
    (blockList : List BlockListItem) (lac : Option LeaseAccessConditions)
    (mac : Option ModifiedAccessConditions) (s : Store) : Except StorageError Store := do
  let _ ← s.assertContainerExists blob.accountName blob.containerName
  let found := s.blobs.find? (BlobRow.isLiveCommitted blob.accountName blob.containerName
    blob.name blob.snapshot)
  validateWriteConditions rt mac (found.map (·.model.target))
  let creationTime := blob.properties.creationTime.getD ctx.startTime
  let (creationTime, committed) ← match found with
    | some r => do
      ensure (!(mac.any (·.ifNoneMatch == some "*") && r.isCommitted)) .blobAlreadyExists
      Lease.validateBlobWrite (r.model.lease.observe ctx.startTime) lac
      pure (r.model.properties.creationTime.getD creationTime,
        r.model.committedBlocksInOrder.getD [])
    | none => pure (creationTime, [])
  let uncommitted := (s.liveBlocks blob.accountName blob.containerName blob.name).map
    fun b => (⟨b.blockName, b.size, b.persistency⟩ : PersistencyBlock)
  let selected ← blockList.mapM (resolveBlock committed uncommitted)
  let commitBlockBlob : BlobModel :=
    ({ blob with
        committedBlocksInOrder := some selected,
        properties := { blob.properties with
          creationTime := some creationTime,
          contentLength := some ((selected.map (·.size)).foldl (· + ·) 0),
          blobType := some .blockBlob } } : BlobModel).syncLease {}
  let s ← BlobsModel.upsert s (convertBlobModelToDbModel commitBlockBlob)
  pure (s.retireBlocks blob.accountName blob.containerName blob.name)

end Azurite
