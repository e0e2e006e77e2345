import Azurite.Native.BlockOps

/-!
# Listing

Four listings page through a table with an exclusive marker: `listContainers` (one account's
containers by name), `listAllBlobs` (every blob of every account, by blob name, for extent
garbage collection), `filterBlobs` (the blobs of an account or a container whose tags meet a
filter) and `listUncommittedBlockPersistencyChunks` (every live block, by id). All but
`filterBlobs` read one row more than the page size to learn whether a next page exists;
`filterBlobs` leaves that to its pager.

`ORDER BY` is a stable insertion sort: rows with equal sort keys keep their table order, one of
the orders SQL allows.
-/

namespace Azurite

/-- SQL `LIKE` on a pattern: `%` matches any sequence, `_` any one character, and `\` makes the
next character literal. -/
def sqlLike : List Char → List Char → Bool
  | [], s => s.isEmpty
  | '%' :: p, s => s.tails.any (sqlLike p)
  | '_' :: p, s => match s with
    | [] => false
    | _ :: s' => sqlLike p s'
  | '\\' :: c :: p, s => match s with
    | [] => false
    | d :: s' => c == d && sqlLike p s'
  | c :: p, s => match s with
    | [] => false
    | d :: s' => c == d && sqlLike p s'

example : sqlLike "a_%".toList "ab".toList = true := by decide

/-- `listContainers(context, account, prefix, maxResults, marker)`: the page of the account's
containers whose names are `LIKE prefix%` (`prefixText` here) and greater than the marker (`""`
for none), each with its lease observed now, and the next marker. The next marker is read from
the second-to-last of the `maxResults + 1` rows fetched, before the last is dropped. -/
def listContainers (ctx : Context) (account prefixText : String) (maxResults : Nat)
    (marker : String)
    (s : Store) : Except StorageError (List ContainerModel × Option String) :=
  let accepts (r : ContainerRow) : Bool :=
    r.accountName == account &&
      (prefixText.length == 0 || sqlLike (prefixText ++ "%").toList r.containerName.toList) &&
      (marker == "" || decide (marker < r.containerName))
  let findResult := ((s.containers.filter accepts).insertionSort
    (fun a b => a.containerName ≤ b.containerName)).take (maxResults + 1)
  let leaseUpdateMapper (r : ContainerRow) : ContainerModel :=
    r.model.syncLease (r.model.lease.observe ctx.startTime)
  if findResult.length ≤ maxResults then .ok (findResult.map leaseUpdateMapper, none)
  else
    match findResult.reverse.get? 1 with
    | some tail => .ok (findResult.dropLast.map leaseUpdateMapper, some tail.containerName)
    | none => .error (.typeError "Cannot read properties of undefined (reading 'get')")

/-- The rows `listAllBlobs` selects: live, after the marker, base blobs unless snapshots are
included, committed unless uncommitted blobs are included. -/
def listAllBlobs.accepts (marker : Option String) (includeSnapshots includeUncommittedBlobs :
    Option Bool) (r : BlobRow) : Bool :=
  marker.all (· < r.blobName) && (includeSnapshots == some true || r.snapshot == "") &&
    (includeUncommittedBlobs == some true || r.isCommitted) && r.deleting == 0

/-- `listAllBlobs(maxResults, marker, includeSnapshots, includeUncommittedBlobs)`: a page of the
selected rows of every account, by blob name, and the name of its last row as the next marker
when more rows follow. -/
def listAllBlobs (maxResults : Nat) (marker : Option String)
    (includeSnapshots includeUncommittedBlobs : Option Bool) (s : Store) :
    Except StorageError (List BlobModel × Option String) :=
  let blobFindResult := ((s.blobs.filter (listAllBlobs.accepts marker includeSnapshots
    includeUncommittedBlobs)).insertionSort (fun a b => a.blobName ≤ b.blobName)).take
    (maxResults + 1)
  if blobFindResult.length ≤ maxResults then .ok (blobFindResult.map (·.model), none)
  else
    let page := blobFindResult.dropLast
    match page.getLast? with
    | some tail => .ok (page.map (·.model), some tail.blobName)
    | none => .error (.typeError "Cannot read properties of undefined (reading 'get')")

/-! ### `filterBlobs` -/

/-- `FilterBlobModel`: a blob as `filterBlobs` returns it. -/
structure FilterBlobModel where
  containerName : String
  name : String
  tags : Option BlobTags
  deriving DecidableEq, Repr

/-- `convertDbModelToFilterBlobModel`. -/
def convertDbModelToFilterBlobModel (r : BlobRow) : FilterBlobModel :=
  { containerName := r.containerName, name := r.blobName, tags := r.blobTags }

/-- `FilterBlobPage`, a page of at most `maxResults` items. -/
structure FilterBlobPage where
  maxResults : Nat

/-- Modelled from its contract, as `FilterBlobPage` is not among the sources:
`fill(readPage, nameItem)` returns the rows `readPage(0)` reads and, when rows remain after them
(`readPage(maxResults)` reads some), the name of the last as the next marker. -/
def FilterBlobPage.fill (page : FilterBlobPage) (readPage : Nat → List BlobRow)
    (nameItem : BlobRow → String) : List BlobRow × Option String :=
  let items := readPage 0
  (items, if readPage page.maxResults = [] then none else items.getLast?.map nameItem)

/-- The rows `filterBlobs`' `whereQuery` selects: the live base blobs of the account, of the
container when one is given, named after the marker when one is given. -/
def filterBlobs.whereQuery (account : String) (container marker : Option String)
    (r : BlobRow) : Bool :=
  r.accountName == account && container.all (· == r.containerName) &&
    marker.all (· < r.blobName) && r.snapshot == "" && r.deleting == 0

/-- The callback `filterBlobs` filters its page with: whether the blob's tags meet the filter and,
when they do, the blob with those tags, which the callback sets before it returns `true`. -/
def filterBlobs.tagsMeet (filterFunction : FilterBlobModel → List BlobTag)
    (blobItem : FilterBlobModel) : Option FilterBlobModel :=
  let tagsMeetConditions := filterFunction blobItem
  if tagsMeetConditions.length ≠ 0 then some { blobItem with tags := some ⟨tagsMeetConditions⟩ }
  else none

/-- `filterBlobs(context, account, container, where, maxResults, marker)`: a page of the selected
rows in name order, filled by `FilterBlobPage`, and then those whose tags meet the filter, each
with the tags that meet it. `whereFunction` is what
`generateQueryBlobWithTagsWhereFunction(context, where)` returns or throws; the query interpreter
is not among the sources, and the function it returns yields the tags of an item that meet the
conditions, in the form `toBlobTags` gives them. -/
def filterBlobs (whereFunction : Except StorageError (FilterBlobModel → List BlobTag))
    (account : String) (container : Option String) (maxResults : Nat) (marker : Option String)
    (s : Store) : Except StorageError (List FilterBlobModel × Option String) := do
  -- `if (container)`: an empty name, like an absent one, is falsy
  let container := container.filter (· ≠ "")
  if let some c := container then
    let _ ← s.assertContainerExists account c
  let filterFunction ← whereFunction
  let readPage (off : Nat) : List BlobRow :=
    ((((s.blobs.filter (filterBlobs.whereQuery account container marker)).insertionSort
      (fun a b => a.blobName ≤ b.blobName)).drop off).take maxResults)
  let (blobItems, nextMarker) := FilterBlobPage.fill ⟨maxResults⟩ readPage (·.blobName)
  pure ((blobItems.map convertDbModelToFilterBlobModel).filterMap
    (filterBlobs.tagsMeet filterFunction), nextMarker)

/-- `listUncommittedBlockPersistencyChunks(marker, maxResults)`: the persistency of live blocks
with ids above the marker (`parseInt(marker)`, `-1` at first), in id order, and the id of the last
one returned as the next marker. The last page is recognised by `res.length < maxResults`. -/
def listUncommittedBlockPersistencyChunks (marker : Int) (maxResults : Nat) (s : Store) :
    Except StorageError (List ExtentChunk × Option Nat) :=
  let res := (sortById (s.blocks.filter fun b => decide (marker < b.id) && b.deleting == 0)).take
    (maxResults + 1)
  let persistency (b : BlockRow) : Except StorageError ExtentChunk :=
    match b.persistency with
    | some p => .ok p
    | none => .error (.thrown ("SqlBlobMetadataStore:deserializeModelValue() error. " ++
        "persistency is required but value from database model is undefined."))
  if res.length < maxResults then do
    let chunks ← res.mapM persistency
    pure (chunks, none)
  else do
    let res := res.dropLast
    match res.getLast? with
    | none => throw (.typeError "Cannot read properties of undefined (reading 'get')")
    | some tail =>
      let chunks ← res.mapM persistency
      pure (chunks, some tail.id)

end Azurite
