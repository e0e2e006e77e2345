import Azurite.Spec.BlockIds
import Azurite.Spec.ReadBack

/-!
# Block blobs: the store refines an abstract block-blob machine

A base blob, seen through `getBlockList` and `getBlobProperties`, is a committed block list, a
content length and a map from staged block names to sizes (`BlockBlobView`). The abstract
machine acts on that view: `stage n s` sets `staged[n] := s`; `commit L` resolves each entry of
`L` (`uncommitted` from the staged map, `committed` from the last committed entry of the name,
`latest` from the staged map and else the committed list) and, when every entry resolves, makes
the resolved entries the committed list, their total size the content length, and empties the
staged map; it fails with `InvalidBlockList` otherwise.

`Store.blockBlobView` reads the view off the tables: the live base row's committed list and
content length when the row is committed, and the live block rows of the blob
(`getBlockList_view`, `getBlobProperties_view`). Over every consistent store:

* `stageBlock_refines`: once the container and lease checks pass, and the block-id check of
  `Spec/BlockIds.lean`, which the abstract machine does not have, `stageBlock` changes the view
  of its blob as `stage` does.
* `commitBlockList_refines`: once the container, condition and lease checks pass,
  `commitBlockList` of a committed model fails exactly when `commit` fails, with the same
  error, and otherwise changes the view as `commit` does.
* `deleteBlob_view`: deleting a base blob removes its view, unless only its snapshots go.
* `stageBlock_view_other`, `commitBlockList_view_other`, `deleteBlob_view_other`: no other
  blob's view changes.

`blockBlobView_refines_machine` collects these over every reachable store, and
`blockBlobView_read_back` shows that there the view is what the getters return.
-/

namespace Azurite

/-! ### The abstract machine -/

/-- The block-blob view of a base blob: its committed block list as names and sizes, its content
length, and its staged blocks as a map from name to size. -/
@[ext] structure BlockBlobView where
  committed : List (String × Nat)
  contentLength : Option Nat
  staged : String → Option Nat

namespace BlockBlobView

/-- A blob with nothing committed or staged: what staging on an absent blob starts from. -/
def empty : BlockBlobView := ⟨[], none, fun _ => none⟩

/-- `stage(n, s)`: the last stage of a name wins. -/
def stage (v : BlockBlobView) (name : String) (size : Nat) : BlockBlobView :=
  { v with staged := Function.update v.staged name (some size) }

/-- The last entry named `name` of a committed list. -/
def lastCommitted (l : List (String × Nat)) (name : String) : Option (String × Nat) :=
  l.reverse.find? (·.1 == name)

/-- What an entry of a block list resolves to. Commit types are compared case-insensitively, as
the protocol's element names are capitalised. -/
def resolve (v : BlockBlobView) (item : BlockListItem) : Option (String × Nat) :=
  let staged := (v.staged item.blockName).map (item.blockName, ·)
  match item.blockCommitType.toLower with
  | "uncommitted" => staged
  | "committed" => lastCommitted v.committed item.blockName
  | "latest" => staged <|> lastCommitted v.committed item.blockName
  | _ => none

/-- The total size of a list of blocks. -/
def totalSize : List (String × Nat) → Nat
  | [] => 0
  | b :: l => b.2 + totalSize l

/-- `commitBlockList(L)`: fails with `InvalidBlockList` unless every entry resolves. -/
def commit (v : BlockBlobView) (L : List BlockListItem) : Except StorageError BlockBlobView :=
  match L.mapM v.resolve with
  | some sel => .ok ⟨sel, some (totalSize sel), fun _ => none⟩
  | none => .error .invalidBlockList

end BlockBlobView

/-! ### The view of the tables -/

/-- A committed block as name and size. -/
def PersistencyBlock.nameSize (b : PersistencyBlock) : String × Nat := (b.name, b.size)

/-- The view of the base blob `(a, c, n)`, present while it has a live row: the committed list
and content length of that row when it is committed, and the sizes of the blob's live block rows
by name. -/
def Store.blockBlobView (s : Store) (a c n : String) : Option BlockBlobView :=
  (s.blobs.find? (BlobRow.isLive a c n "")).map fun r =>
    { committed :=
        if r.isCommitted then (r.model.committedBlocksInOrder.getD []).map (·.nameSize) else []
      contentLength := if r.isCommitted then r.model.properties.contentLength else none
      staged := fun m => (s.liveBlock (a, c, n, m)).map (·.size) }

/-- The base blob whose view a block-blob write changes. -/
def Op.blockBlobWrite : Op → Option (String × String × String)
  | .stageBlock block _ => some (block.accountName, block.containerName, block.blobName)
  | .commitBlockList blob _ _ _ => some (blob.accountName, blob.containerName, blob.name)
  | .deleteBlob a c n _ => some (a, c, n)
  | _ => none

/-- The checks `stageBlock` makes that the abstract machine shares: the container exists, and the
lease of a committed row admits the write. -/
def stageChecks (ctx : Context) (block : BlockModel) (lac : Option LeaseAccessConditions)
    (s : Store) : Prop :=
  (block.accountName, block.containerName) ∈ s.containerKeys ∧
  ∀ r, s.blobs.find? (BlobRow.isLive block.accountName block.containerName block.blobName "") =
      some r → r.isCommitted = true →
    Lease.validateBlobWrite (r.model.lease.observe ctx.startTime) lac = .ok ()

/-- The block-id check `stageBlock` adds: the staged id decodes to as many bytes as that of the
blob's first live block. -/
def blockIdFits (rt : Runtime) (block : BlockModel) (s : Store) : Prop :=
  ∀ b, firstById (s.liveBlocks block.accountName block.containerName block.blobName) = some b →
    rt.decodedLength b.blockName = rt.decodedLength block.name

/-- The checks `commitBlockList` makes before it resolves the block list: the container exists,
the request's conditions hold on the committed row, and a committed row is not guarded by
`If-None-Match: *` and admits the write under its lease. -/
def commitChecks (rt : Runtime) (ctx : Context) (blob : BlobModel)
    (lac : Option LeaseAccessConditions) (mac : Option ModifiedAccessConditions) (s : Store) :
    Prop :=
  (blob.accountName, blob.containerName) ∈ s.containerKeys ∧
  validateWriteConditions rt mac ((s.blobs.find? (BlobRow.isLiveCommitted blob.accountName
    blob.containerName blob.name blob.snapshot)).map (·.model.target)) = .ok () ∧
  ∀ r, s.blobs.find? (BlobRow.isLiveCommitted blob.accountName blob.containerName blob.name
      blob.snapshot) = some r →
    (!(mac.any (·.ifNoneMatch == some "*") && r.isCommitted)) = true ∧
    Lease.validateBlobWrite (r.model.lease.observe ctx.startTime) lac = .ok ()

/-! ### Reading the view -/

section
variable {s s' : Store} {a c n : String}

/-- Two stores with the same live row and live blocks of a blob show the same view of it. -/
theorem Store.blockBlobView_congr
    (hb : s'.blobs.find? (BlobRow.isLive a c n "") = s.blobs.find? (BlobRow.isLive a c n ""))
    (hk : ∀ m, s'.liveBlock (a, c, n, m) = s.liveBlock (a, c, n, m)) :
    s'.blockBlobView a c n = s.blockBlobView a c n := by
  simp only [Store.blockBlobView, hb, hk]

/-- Keys of different blobs differ. -/
theorem blockKey_ne {a' c' n' m m' : String} (hk : (a, c, n) ≠ (a', c', n')) :
    (a, c, n, m) ≠ (a', c', n', m') :=
  fun h => hk (congrArg (fun k => (k.1, k.2.1, k.2.2.1)) h)

/-- In a consistent store a blob without a live row has no live block. -/
theorem Store.Consistent.liveBlock_eq_none (hc : s.Consistent)
    (hr : s.blobs.find? (BlobRow.isLive a c n "") = none) (m : String) :
    s.liveBlock (a, c, n, m) = none := by
  rw [← Store.find?_liveBlocks, hc.liveBlocks_eq_nil hr]
  rfl

/-- The staged map after a block upsert: the staged size under the staged name. -/
theorem Store.staged_upsertBlock {m : String} {size : Nat} {p : Option ExtentChunk} :
    (fun k => ((s.upsertBlock a c n m size p).liveBlock (a, c, n, k)).map (·.size)) =
      Function.update (fun k => (s.liveBlock (a, c, n, k)).map (·.size)) m (some size) := by
  funext k
  by_cases hk : k = m
  · subst hk
    obtain ⟨b, hb, hs, -⟩ := @Store.liveBlock_upsertBlock_self s a c n k size p
    simp [hb, hs]
  · rw [Function.update_noteq hk, Store.liveBlock_upsertBlock_other (by simp [hk])]

/-- The live row an upsert writes carries the upserted commit state, block list and content
properties. -/
theorem Store.find?_upsertBlob_key {v : BlobValues} {snap : String}
    (hk : v.key = (a, c, n, snap)) :
    ∃ r, (s.upsertBlob v).blobs.find? (BlobRow.isLive a c n snap) = some r ∧
      r.isCommitted = v.isCommitted ∧ r.committedBlocksInOrder = v.committedBlocksInOrder ∧
      r.contentProperties = v.contentProperties := by
  obtain ⟨r, hr, hv, -⟩ := @Store.find?_upsertBlob_self s v
  simp only [BlobValues.key, Prod.mk.injEq] at hk
  obtain ⟨rfl, rfl, rfl, rfl⟩ := hk
  exact ⟨r, hr, by simp [hv]⟩

/-- A commit's upsert of committed values, followed by the retire of the blob's blocks, shows the
values' block list and content length and nothing staged. -/
theorem Store.blockBlobView_upsertBlob_retireBlocks {v : BlobValues}
    (hk : v.key = (a, c, n, "")) (hv : v.isCommitted = true) :
    ((s.upsertBlob v).retireBlocks a c n).blockBlobView a c n =
      some ⟨(v.committedBlocksInOrder.getD []).map (·.nameSize),
        v.contentProperties.bind (·.contentLength), fun _ => none⟩ := by
  obtain ⟨r, hr, hc, hb, hp⟩ := @Store.find?_upsertBlob_key s a c n v "" hk
  simp [Store.blockBlobView, hr, hc, hv, Store.liveBlock_retireBlocks_self, BlobRow.model,
    convertDbModelToBlobModel, hb, hp]

end

/-! ### Resolving a block list -/

/-- The lists `commitBlockList` resolves against agree with a view: the committed list is the
view's, and the last staged block of each name is the view's staged size. -/
structure BlockBlobView.Agrees (v : BlockBlobView) (committed uncommitted : List PersistencyBlock) :
    Prop where
  committed : committed.map (·.nameSize) = v.committed
  uncommitted : ∀ m, (lastNamed uncommitted m).map (·.nameSize) = (v.staged m).map (m, ·)

theorem lastNamed_nameSize {l : List PersistencyBlock} {m : String} :
    (lastNamed l m).map (·.nameSize) = BlockBlobView.lastCommitted (l.map (·.nameSize)) m := by
  unfold lastNamed BlockBlobView.lastCommitted
  rw [← List.map_reverse, List.find?_map]
  rfl

section
variable {v : BlockBlobView} {C U : List PersistencyBlock}

/-- `resolveBlock` fails only with `InvalidBlockList`. -/
theorem resolveBlock_error {item : BlockListItem} {e : StorageError}
    (h : resolveBlock C U item = .error e) : e = .invalidBlockList := by
  unfold resolveBlock at h
  dsimp only at h
  split at h <;> (try split at h) <;> cases h <;> rfl

/-- `resolveBlock` selects what `resolve` selects. -/
theorem BlockBlobView.Agrees.resolve (hv : v.Agrees C U) (item : BlockListItem) :
    (resolveBlock C U item).toOption.map (·.nameSize) = v.resolve item := by
  have hU := hv.uncommitted item.blockName
  have hC : (lastNamed C item.blockName).map (·.nameSize) =
      BlockBlobView.lastCommitted v.committed item.blockName := by
    rw [lastNamed_nameSize, hv.committed]
  unfold resolveBlock
  dsimp only
  split
  next h =>
    rw [BlockBlobView.resolve, h, ← hU]
    cases lastNamed U item.blockName <;> rfl
  next h =>
    rw [BlockBlobView.resolve, h, ← hC]
    cases lastNamed C item.blockName <;> rfl
  next h =>
    rw [BlockBlobView.resolve, h, ← hU, ← hC]
    cases lastNamed U item.blockName <;> cases lastNamed C item.blockName <;> rfl
  next =>
    rw [BlockBlobView.resolve]
    split <;> first | rfl | simp_all

/-- Resolving a whole block list selects what `resolve` selects, entry by entry. -/
theorem BlockBlobView.Agrees.mapM (hv : v.Agrees C U) : ∀ L : List BlockListItem,
    (L.mapM (resolveBlock C U)).toOption.map (·.map (·.nameSize)) = L.mapM v.resolve
  | [] => rfl
  | item :: L => by
    have hi := hv.resolve item
    have ih := hv.mapM L
    rw [List.mapM_cons, List.mapM_cons, ← hi, ← ih]
    cases resolveBlock C U item <;> cases L.mapM (resolveBlock C U) <;> rfl

/-- Resolving a block list fails only with `InvalidBlockList`. -/
theorem mapM_resolveBlock_error : ∀ {L : List BlockListItem} {e : StorageError},
    L.mapM (resolveBlock C U) = .error e → e = .invalidBlockList
  | [], _, h => by cases h
  | item :: L, e, h => by
    rw [List.mapM_cons] at h
    cases hr : resolveBlock C U item with
    | error e' =>
      rw [hr] at h
      cases h
      exact resolveBlock_error hr
    | ok b =>
      cases hL : L.mapM (resolveBlock C U) with
      | error e' =>
        rw [hr, hL] at h
        cases h
        exact mapM_resolveBlock_error hL
      | ok bs =>
        rw [hr, hL] at h
        cases h

end

/-- In a consistent store, the lists `commitBlockList` resolves a base blob's block list against,
the committed row's list and the live blocks, agree with the blob's view. -/
theorem Store.Consistent.agrees {s : Store} (hc : s.Consistent) (a c n : String) :
    ((s.blockBlobView a c n).getD .empty).Agrees
      (((s.blobs.find? (BlobRow.isLiveCommitted a c n "")).map
        (·.model.committedBlocksInOrder.getD [])).getD [])
      ((s.liveBlocks a c n).map fun b =>
        (⟨b.blockName, b.size, b.persistency⟩ : PersistencyBlock))
    where
  committed := by
    rw [hc.find?_isLiveCommitted]
    cases hr : s.blobs.find? (BlobRow.isLive a c n "") with
    | none => simp [Store.blockBlobView, hr, BlockBlobView.empty]
    | some r => cases hcm : r.isCommitted <;> simp [Store.blockBlobView, hr, hcm, Option.filter]
  uncommitted m := by
    have hstaged : ((s.blockBlobView a c n).getD .empty).staged m =
        (s.liveBlock (a, c, n, m)).map (·.size) := by
      cases hr : s.blobs.find? (BlobRow.isLive a c n "") with
      | none => simp [Store.blockBlobView, hr, BlockBlobView.empty, hc.liveBlock_eq_none hr]
      | some r => simp [Store.blockBlobView, hr]
    have hlast : lastNamed ((s.liveBlocks a c n).map fun b =>
        (⟨b.blockName, b.size, b.persistency⟩ : PersistencyBlock)) m =
        (s.liveBlock (a, c, n, m)).map fun b => ⟨b.blockName, b.size, b.persistency⟩ := by
      unfold lastNamed
      rw [← List.map_reverse, List.find?_map]
      exact congrArg _ (Store.find?_perm_liveBlocks hc.block_keys (List.reverse_perm _))
    rw [hstaged, hlast]
    cases hb : s.liveBlock (a, c, n, m) with
    | none => rfl
    | some b =>
      have hb : s.blocks.find? (fun b => b.key == (a, c, n, m) && b.deleting == 0) = some b := hb
      have hp := List.find?_some hb
      have hk := (BlockRow.isLiveKey_eq_true.1 hp).1
      have : b.blockName = m := congrArg (·.2.2.2) hk
      simp [PersistencyBlock.nameSize, this]

/-! ### Staging -/

section
variable {rt : Runtime} {ctx : Context} {s s' : Store}

@[simp] theorem Store.liveBlock_upsertBlob {v : BlobValues}
    {k : String × String × String × String} :
    (s.upsertBlob v).liveBlock k = s.liveBlock k := by
  simp only [Store.liveBlock, Store.upsertBlob_blocks]

/-- Once its checks pass, `stageBlock` succeeds. -/
theorem stageBlock_ok_of_checks {block : BlockModel} {lac : Option LeaseAccessConditions}
    (hchk : stageChecks ctx block lac s) (hid : blockIdFits rt block s) :
    ∃ s', stageBlock rt ctx block lac s = .ok s' := by
  obtain ⟨k, hk⟩ := Store.assertContainerExists_of_mem hchk.1
  cases hr : s.blobs.find? (BlobRow.isLive block.accountName block.containerName block.blobName
    "") with
  | none => simp [stageBlock, hk, hr, bind, Except.bind, pure, Except.pure]
  | some r =>
    have hl := hchk.2 r hr
    cases hb : firstById (s.liveBlocks block.accountName block.containerName block.blobName) with
    | none => cases hcm : r.isCommitted <;>
      simp [stageBlock, hk, hr, hcm, hb, hl, bind, Except.bind, ensure, pure, Except.pure]
    | some b => cases hcm : r.isCommitted <;>
      simp [stageBlock, hk, hr, hcm, hb, hid _ hb, hl, bind, Except.bind, ensure, pure, Except.pure]

/-- A successful `stageBlock` stages the block in its blob's view. -/
theorem stageBlock_view (hc : s.Consistent) {block : BlockModel}
    {lac : Option LeaseAccessConditions} (h : stageBlock rt ctx block lac s = .ok s') :
    s'.blockBlobView block.accountName block.containerName block.blobName =
      some (((s.blockBlobView block.accountName block.containerName block.blobName).getD
        .empty).stage block.name block.size) := by
  obtain ⟨-, ⟨r, hr, -, -, rfl⟩ | ⟨hr, rfl⟩⟩ := stageBlock_ok h
  · simp only [Store.blockBlobView, Store.upsertBlock_blobs, hr, Option.map_some',
      Option.getD_some, BlockBlobView.stage, Store.staged_upsertBlock]
  · obtain ⟨r, hr', hcm, -⟩ := @Store.find?_upsertBlob_key s block.accountName
      block.containerName block.blobName (convertBlobModelToDbModel (stagingPlaceholder ctx block))
      "" rfl
    have hcm : r.isCommitted = false := hcm
    simp only [Store.blockBlobView, Store.upsertBlock_blobs, hr', hr, hcm, Option.map_some',
      Option.map_none', Option.getD_none, Store.staged_upsertBlock, Store.liveBlock_upsertBlob,
      hc.liveBlock_eq_none hr, BlockBlobView.stage, BlockBlobView.empty]
    rfl

/-- `stageBlock` changes no other blob's view. -/
theorem stageBlock_view_other {block : BlockModel} {lac : Option LeaseAccessConditions}
    (h : stageBlock rt ctx block lac s = .ok s') {a c n : String}
    (hk : (a, c, n) ≠ (block.accountName, block.containerName, block.blobName)) :
    s'.blockBlobView a c n = s.blockBlobView a c n := by
  have hblk : ∀ (t : Store) m, (t.upsertBlock block.accountName block.containerName
      block.blobName block.name block.size (some block.persistency)).liveBlock (a, c, n, m) =
      t.liveBlock (a, c, n, m) := fun _ _ => Store.liveBlock_upsertBlock_other (blockKey_ne hk)
  obtain ⟨-, ⟨r, -, -, -, rfl⟩ | ⟨-, rfl⟩⟩ := stageBlock_ok h
  · exact Store.blockBlobView_congr (by rw [Store.upsertBlock_blobs]) (hblk s)
  · refine Store.blockBlobView_congr ?_ fun m => (hblk _ m).trans Store.liveBlock_upsertBlob
    rw [Store.upsertBlock_blobs, Store.find?_upsertBlob_other (blockKey_ne hk)]

/-- Once the container and lease checks pass and the block id fits, `stageBlock` stages the
block in its blob's view. -/
theorem stageBlock_refines (hc : s.Consistent) {block : BlockModel}
    {lac : Option LeaseAccessConditions} (hchk : stageChecks ctx block lac s)
    (hid : blockIdFits rt block s) :
    (stageBlock rt ctx block lac s).map
        (·.blockBlobView block.accountName block.containerName block.blobName) =
      .ok (some (((s.blockBlobView block.accountName block.containerName block.blobName).getD
        .empty).stage block.name block.size)) := by
  obtain ⟨s', h⟩ := stageBlock_ok_of_checks hchk hid
  rw [h, ← stageBlock_view hc h]
  rfl

/-! ### Committing -/

/-- The content length `commitBlockList` sums is the total size of the committed blocks. -/
theorem foldl_size_eq_totalSize (l : List PersistencyBlock) :
    ∀ k, (l.map (·.size)).foldl (· + ·) k =
      k + BlockBlobView.totalSize (l.map (·.nameSize)) := by
  induction l with
  | nil => intro k; rfl
  | cons b l ih =>
    intro k
    rw [List.map_cons, List.foldl_cons, ih, List.map_cons, BlockBlobView.totalSize, Nat.add_assoc]
    rfl

/-- A successful `commitBlockList` of a committed model of a base blob commits the block list in
the blob's view. -/
theorem commitBlockList_view (hc : s.Consistent) {blob : BlobModel} {L : List BlockListItem}
    {lac : Option LeaseAccessConditions} {mac : Option ModifiedAccessConditions}
    (hsnap : blob.snapshot = "") (hcom : blob.isCommitted = true)
    (h : commitBlockList rt ctx blob L lac mac s = .ok s') :
    ∃ v', ((s.blockBlobView blob.accountName blob.containerName blob.name).getD .empty).commit L =
        .ok v' ∧ s'.blockBlobView blob.accountName blob.containerName blob.name = some v' := by
  obtain ⟨-, -, ct, committed, sel, hcase, hres, rfl⟩ := commitBlockList_ok h
  rw [hsnap] at hcase
  have hcomm : committed = ((s.blobs.find? (BlobRow.isLiveCommitted blob.accountName
      blob.containerName blob.name "")).map (·.model.committedBlocksInOrder.getD [])).getD [] := by
    rcases hcase with ⟨hf, -, rfl⟩ | ⟨r, hf, -, -, -, rfl⟩ <;> rw [hf] <;> rfl
  subst hcomm
  have hm := (hc.agrees blob.accountName blob.containerName blob.name).mapM L
  rw [hres] at hm
  refine ⟨_, by rw [BlockBlobView.commit, ← hm]; rfl, ?_⟩
  rw [Store.blockBlobView_upsertBlob_retireBlocks (by simp [BlobValues.key,
    convertBlobModelToDbModel, BlobModel.syncLease, hsnap]) (by simp [convertBlobModelToDbModel,
    BlobModel.syncLease, hcom])]
  simp [convertBlobModelToDbModel, convertBlobContentPropertiesToDbModel, BlobModel.syncLease,
    foldl_size_eq_totalSize]

/-- Once its checks pass, `commitBlockList` fails only in resolving the block list. -/
theorem commitBlockList_error {blob : BlobModel} {L : List BlockListItem}
    {lac : Option LeaseAccessConditions} {mac : Option ModifiedAccessConditions}
    {e : StorageError} (hchk : commitChecks rt ctx blob lac mac s)
    (h : commitBlockList rt ctx blob L lac mac s = .error e) :
    L.mapM (resolveBlock (((s.blobs.find? (BlobRow.isLiveCommitted blob.accountName
        blob.containerName blob.name blob.snapshot)).map
          (·.model.committedBlocksInOrder.getD [])).getD [])
      ((s.liveBlocks blob.accountName blob.containerName blob.name).map
        fun b => ⟨b.blockName, b.size, b.persistency⟩)) = .error e := by
  obtain ⟨hk, hw, hr⟩ := hchk
  obtain ⟨k, hk⟩ := Store.assertContainerExists_of_mem hk
  cases hf : s.blobs.find? (BlobRow.isLiveCommitted blob.accountName blob.containerName blob.name
    blob.snapshot) with
  | none =>
    rw [hf, Option.map_none'] at hw
    simp only [commitBlockList, hk, hf, hw, bind, Except.bind, Option.map_none', pure,
      Except.pure] at h ⊢
    split at h <;> cases h
    assumption
  | some r =>
    rw [hf, Option.map_some'] at hw
    obtain ⟨hn, hl⟩ := hr r hf
    simp only [commitBlockList, hk, hf, hw, hn, hl, ensure, bind, Except.bind, Option.map_some',
      pure, Except.pure, if_true] at h ⊢
    split at h <;> cases h
    assumption

/-- Once its container, condition and lease checks pass, `commitBlockList` of a committed model
of a base blob fails exactly when `commit` fails, with `InvalidBlockList`, and otherwise commits
the block list in the blob's view. -/
theorem commitBlockList_refines (hc : s.Consistent) {blob : BlobModel} {L : List BlockListItem}
    {lac : Option LeaseAccessConditions} {mac : Option ModifiedAccessConditions}
    (hsnap : blob.snapshot = "") (hcom : blob.isCommitted = true)
    (hchk : commitChecks rt ctx blob lac mac s) :
    (commitBlockList rt ctx blob L lac mac s).map
        (·.blockBlobView blob.accountName blob.containerName blob.name) =
      (((s.blockBlobView blob.accountName blob.containerName blob.name).getD .empty).commit
        L).map some := by
  cases h : commitBlockList rt ctx blob L lac mac s with
  | ok s' =>
    obtain ⟨v', hv', hs'⟩ := commitBlockList_view hc hsnap hcom h
    rw [hv']
    exact congrArg Except.ok hs'
  | error e =>
    have hm := commitBlockList_error hchk h
    rw [hsnap] at hm
    have hv := (hc.agrees blob.accountName blob.containerName blob.name).mapM L
    rw [hm] at hv
    rw [mapM_resolveBlock_error hm, BlockBlobView.commit, ← hv]
    rfl

/-- `commitBlockList` changes no other blob's view. -/
theorem commitBlockList_view_other {blob : BlobModel} {L : List BlockListItem}
    {lac : Option LeaseAccessConditions} {mac : Option ModifiedAccessConditions}
    (h : commitBlockList rt ctx blob L lac mac s = .ok s') {a c n : String}
    (hk : (a, c, n) ≠ (blob.accountName, blob.containerName, blob.name)) :
    s'.blockBlobView a c n = s.blockBlobView a c n := by
  obtain ⟨-, -, -, -, -, -, -, rfl⟩ := commitBlockList_ok h
  refine Store.blockBlobView_congr ?_ fun m => ?_
  · rw [Store.retireBlocks_blobs, Store.find?_upsertBlob_other (blockKey_ne hk)]
  · rw [Store.liveBlock_retireBlocks_other hk, Store.liveBlock_upsertBlob]

/-! ### Deleting -/

theorem BlobRow.ofBlob_of_isLive {r : BlobRow} {a c n snap : String}
    (h : r.isLive a c n snap = true) : r.ofBlob a c n = true := by
  simp only [BlobRow.isLive, Bool.and_eq_true, beq_iff_eq] at h
  simp [BlobRow.ofBlob, h]

/-- A row live for one blob is no row of another. -/
theorem BlobRow.ofBlob_eq_false {r : BlobRow} {a c n a' c' n' snap : String}
    (hk : (a', c', n') ≠ (a, c, n)) (h : r.isLive a' c' n' snap = true) :
    r.ofBlob a c n = false := by
  simp only [BlobRow.isLive, Bool.and_eq_true, beq_iff_eq] at h
  obtain ⟨⟨⟨⟨rfl, rfl⟩, rfl⟩, -⟩, -⟩ := h
  simpa [BlobRow.ofBlob, and_assoc] using hk

/-- Deleting a base blob removes its view, unless only its snapshots are deleted. -/
theorem deleteBlob_view {a c n : String} {o : BlobDeleteOptions} (hb : o.snapshot = none)
    (h : deleteBlob rt ctx a c n o s = .ok s') :
    s'.blockBlobView a c n =
      if o.deleteSnapshots = some .only then s.blockBlobView a c n else none := by
  obtain ⟨-, r, hr, -, ⟨-, -, ⟨hne, rfl⟩ | ⟨heq, rfl⟩⟩ | ⟨hs, -, -⟩⟩ :=
      deleteBlob_ok h
  · rw [if_neg hne, Store.blockBlobView, Option.map_eq_none']
    refine List.find?_eq_none.2 fun x hx hl => ?_
    simp [Store.deleteBlockFromSQL, Store.deleteBlobFromSQL, BlobRow.ofBlob_of_isLive hl] at hx
  · rw [if_pos heq]
    refine Store.blockBlobView_congr (Store.find?_deleteBlobFromSQL fun x _ hl => ?_) fun _ => rfl
    have hx := (BlobRow.isLive_eq_true.1 hl).1
    have : x.snapshot = "" := congrArg (·.2.2.2) hx
    simp [this]
  · rw [hb] at hr
    exact absurd (congrArg (·.2.2.2) (Store.find?_isLiveCommitted hr).2.1) hs

/-- `deleteBlob` changes no other blob's view. -/
theorem deleteBlob_view_other {a c n : String} {o : BlobDeleteOptions}
    (h : deleteBlob rt ctx a c n o s = .ok s') {a' c' n' : String}
    (hk : (a', c', n') ≠ (a, c, n)) : s'.blockBlobView a' c' n' = s.blockBlobView a' c' n' := by
  have spared : ∀ q : BlobRow → Bool, ∀ x ∈ s.blobs, x.isLive a' c' n' "" = true →
      (x.ofBlob a c n && q x) = false := fun _ _ _ hl => by
    rw [BlobRow.ofBlob_eq_false hk hl, Bool.false_and]
  obtain ⟨-, r, -, -, ⟨-, -, ⟨-, rfl⟩ | ⟨-, rfl⟩⟩ | ⟨-, -, rfl⟩⟩ :=
      deleteBlob_ok h
  · refine Store.blockBlobView_congr
      (Store.find?_deleteBlobFromSQL fun x _ hl => BlobRow.ofBlob_eq_false hk hl) fun m => ?_
    refine Store.liveBlock_deleteBlockFromSQL fun b _ hbk => Bool.eq_false_iff.2 fun hb => hk ?_
    have := (BlockRow.baseKey_eq_of_key hbk).symm.trans (BlockRow.ofBlob_eq_true.1 hb)
    simpa using this
  · exact Store.blockBlobView_congr (Store.find?_deleteBlobFromSQL (spared _)) fun _ => rfl
  · exact Store.blockBlobView_congr (Store.find?_deleteBlobFromSQL (spared _)) fun _ => rfl

/-- A block-blob write changes the view of no blob but its own. -/
theorem Op.exec_blockBlobView_other {op : Op} {t : String × String × String}
    (ht : op.blockBlobWrite = some t) (h : op.exec rt ctx s = .ok s') {a c n : String}
    (hk : (a, c, n) ≠ t) : s'.blockBlobView a c n = s.blockBlobView a c n := by
  cases op with
  | stageBlock block lac => cases ht; exact stageBlock_view_other h hk
  | commitBlockList blob L lac mac => cases ht; exact commitBlockList_view_other h hk
  | deleteBlob a' c' n' o => cases ht; exact deleteBlob_view_other h hk
  | _ => cases ht

/-! ### Reading the view back -/

/-- `getBlockList` lists a blob's staged map as its uncommitted blocks. -/
theorem getBlockList_view (hc : s.Consistent) {a c n : String} (hk : (a, c) ∈ s.containerKeys)
    {v : BlockBlobView} (hv : s.blockBlobView a c n = some v) :
    ∃ bl, getBlockList rt ctx a c n "" none none none s = .ok bl ∧
      ∀ m, (bl.uncommittedBlocks.find? (·.name == m)).map (·.size) = v.staged m := by
  obtain ⟨k, hk⟩ := Store.assertContainerExists_of_mem hk
  obtain ⟨r, hr, rfl⟩ := Option.map_eq_some'.1 hv
  refine ⟨⟨(sortById (s.liveBlocks a c n)).map fun b => ⟨b.blockName, b.size⟩,
    r.model.committedBlocksInOrder.getD []⟩, ?_, fun m => ?_⟩
  · simp [getBlockList, hk, hr, bind, Except.bind, validateReadConditions, Lease.validateBlobRead,
      Lease.validateRead, LeaseAccessConditions.id?, pure, Except.pure]
  · rw [List.find?_map, Function.comp_def]
    simp only [Option.map_map, Function.comp_def]
    rw [sortById, Store.find?_perm_liveBlocks hc.block_keys (List.perm_insertionSort _ _)]

/-- `getBlobProperties` returns a committed blob's committed list and content length as its view
shows them; an uncommitted blob is not found, and its view shows nothing committed. -/
theorem getBlobProperties_view (hc : s.Consistent) {a c n : String}
    (hk : (a, c) ∈ s.containerKeys) {v : BlockBlobView} (hv : s.blockBlobView a c n = some v) :
    (∃ b, getBlobProperties rt ctx a c n "" none none s = .ok b ∧
        (b.committedBlocksInOrder.getD []).map (·.nameSize) = v.committed ∧
        b.properties.contentLength = v.contentLength) ∨
      (getBlobProperties rt ctx a c n "" none none s = .error .blobNotFound ∧
        v.committed = [] ∧ v.contentLength = none) := by
  obtain ⟨r, hr, rfl⟩ := Option.map_eq_some'.1 hv
  have hf := hc.find?_isLiveCommitted a c n ""
  rw [hr] at hf
  cases hcm : r.isCommitted
  · obtain ⟨k, hk⟩ := Store.assertContainerExists_of_mem hk
    refine .inr ⟨?_, by simp [hcm], by simp [hcm]⟩
    simp [getBlobProperties, hk, hf, hcm, Option.filter, bind, Except.bind, validateReadConditions]
    rfl
  · refine .inl ⟨_, getBlobProperties_of_find hk (show s.blobs.find? _ = some r by
      simp [hf, hcm, Option.filter]), ?_, ?_⟩ <;> simp [BlobModel.syncLease, hcm]

end

/-! ### The block-blob machine -/

/-- In every reachable store, once the container, lease and conditional checks pass, the view of
a base blob changes as the abstract machine's: `stageBlock` stages, when in addition the block id
fits; `commitBlockList` of a committed model commits, or fails with `InvalidBlockList`, as
`commit` does; deleting the base blob removes its view, unless only its snapshots go; and none of
the three changes the view of another blob. -/
theorem blockBlobView_refines_machine {rt : Runtime} {s : Store} (hs : Reachable rt s) :
    (∀ ctx block lac, stageChecks ctx block lac s → blockIdFits rt block s →
      (stageBlock rt ctx block lac s).map
          (·.blockBlobView block.accountName block.containerName block.blobName) =
        .ok (some (((s.blockBlobView block.accountName block.containerName block.blobName).getD
          .empty).stage block.name block.size))) ∧
    (∀ ctx blob L lac mac, blob.snapshot = "" → blob.isCommitted = true →
      commitChecks rt ctx blob lac mac s →
      (commitBlockList rt ctx blob L lac mac s).map
          (·.blockBlobView blob.accountName blob.containerName blob.name) =
        (((s.blockBlobView blob.accountName blob.containerName blob.name).getD .empty).commit
          L).map some) ∧
    (∀ ctx a c n o s', o.snapshot = none → deleteBlob rt ctx a c n o s = .ok s' →
      s'.blockBlobView a c n =
        if o.deleteSnapshots = some .only then s.blockBlobView a c n else none) ∧
    (∀ ctx (op : Op) s' t, op.blockBlobWrite = some t → op.exec rt ctx s = .ok s' →
      ∀ a c n, (a, c, n) ≠ t → s'.blockBlobView a c n = s.blockBlobView a c n) :=
  ⟨fun _ _ _ => stageBlock_refines hs.consistent,
    fun _ _ _ _ _ => commitBlockList_refines hs.consistent,
    fun _ _ _ _ _ _ => deleteBlob_view,
    fun _ _ _ _ ht h _ _ _ => Op.exec_blockBlobView_other ht h⟩

/-- In every reachable store the view of a base blob is what the getters read: `getBlockList`
lists its staged map as the uncommitted blocks, and `getBlobProperties` returns its committed
list and content length, or does not find a blob whose row is the uncommitted placeholder. -/
theorem blockBlobView_read_back {rt : Runtime} {s : Store} (hs : Reachable rt s) (ctx : Context)
    {a c n : String} {v : BlockBlobView} (hv : s.blockBlobView a c n = some v) :
    (∃ bl, getBlockList rt ctx a c n "" none none none s = .ok bl ∧
      ∀ m, (bl.uncommittedBlocks.find? (·.name == m)).map (·.size) = v.staged m) ∧
    ((∃ b, getBlobProperties rt ctx a c n "" none none s = .ok b ∧
        (b.committedBlocksInOrder.getD []).map (·.nameSize) = v.committed ∧
        b.properties.contentLength = v.contentLength) ∨
      (getBlobProperties rt ctx a c n "" none none s = .error .blobNotFound ∧
        v.committed = [] ∧ v.contentLength = none)) := by
  obtain ⟨r, hr, -⟩ := Option.map_eq_some'.1 hv
  have hk := hs.consistent.blob_container _ (Store.mem_blobKeys (List.mem_of_find?_eq_some hr))
  rw [(BlobRow.isLive_eq_true.1 (List.find?_some hr)).1] at hk
  exact ⟨getBlockList_view hs.consistent hk hv, getBlobProperties_view hs.consistent hk hv⟩

/-- The block `name`, three bytes long, for the blob `b` of container `c` of account `a`. -/
def sampleBlock (name : String) : BlockModel :=
  { accountName := "a", containerName := "c", blobName := "b", name, size := 3,
    persistency := ⟨"x", 0, 3⟩ }

/-- The store after creating the container `c` and staging the block `AAAA` for `b`, which had no
row: `b` has an uncommitted placeholder row. -/
def stagedStore : Store :=
  { containers := [sampleContainerRow "c" 1],
    blobs := [⟨convertBlobModelToDbModel (stagingPlaceholder { startTime := 0 }
      (sampleBlock "AAAA")), 1, 0⟩],
    blocks := [⟨1, "a", "c", "b", "AAAA", 0, 3, some ⟨"x", 0, 3⟩⟩],
    nextContainerId := 2, nextBlobId := 2, nextBlockId := 2 }

example : (stagedStore.blockBlobView "a" "c" "b").map
    (fun v => (v.committed, v.contentLength, v.staged "AAAA")) = some ([], none, some 3) := rfl

theorem reachable_stagedStore : Reachable sampleRuntime stagedStore :=
  .step { startTime := 0 } (.stageBlock (sampleBlock "AAAA") none)
    (.step { startTime := 0 } (.createContainer sampleContainer) .empty rfl) rfl

/-- The staged store has a container, a blob row and a live block, each with its owner. -/
theorem reachable_rows_have_owners_staged :
    (∀ r ∈ stagedStore.blobs, ∃ k ∈ stagedStore.containers,
      k.accountName = r.accountName ∧ k.containerName = r.containerName) ∧
    (∀ b ∈ stagedStore.blocks, ∃ k ∈ stagedStore.containers,
      k.accountName = b.accountName ∧ k.containerName = b.containerName) ∧
    (∀ b ∈ stagedStore.blocks, b.deleting = 0 → ∃ r ∈ stagedStore.blobs,
      r.accountName = b.accountName ∧ r.containerName = b.containerName ∧
      r.blobName = b.blobName ∧ r.snapshot = "") :=
  reachable_rows_have_owners reachable_stagedStore

/-- On the staged store, the block `AAAAAAAA` (six bytes) is refused with `InvalidBlobOrBlock`,
and the characterisation gives the reason: the container exists, `b`'s row is not committed, and
its live block `AAAA` decodes to three bytes. -/
theorem stageBlock_rejects_exactly_mismatched_ids_staged :
    stageBlock sampleRuntime laterCtx (sampleBlock "AAAAAAAA") none stagedStore =
      .error .invalidBlobOrBlock ∧
    (∃ k, stagedStore.assertContainerExists "a" "c" = .ok k) ∧
    (∀ r, stagedStore.blobs.find? (BlobRow.isLive "a" "c" "b" "") = some r →
      r.isCommitted = true →
        Lease.validateBlobWrite (r.model.lease.observe laterCtx.startTime) none = .ok ()) ∧
    ∃ b ∈ stagedStore.liveBlocks "a" "c" "b",
      sampleRuntime.decodedLength b.blockName ≠ sampleRuntime.decodedLength "AAAAAAAA" :=
  have h : stageBlock sampleRuntime laterCtx (sampleBlock "AAAAAAAA") none stagedStore =
      .error .invalidBlobOrBlock := rfl
  ⟨h, ((stageBlock_rejects_exactly_mismatched_ids reachable_stagedStore).2 _ _ _).1 h⟩

theorem blockBlobView_refines_machine_commit :
    (commitBlockList sampleRuntime laterCtx sampleBlob [⟨"AAAA", "Latest"⟩] none none
        stagedStore).map (·.blockBlobView "a" "c" "b") =
      (((stagedStore.blockBlobView "a" "c" "b").getD .empty).commit
        [⟨"AAAA", "Latest"⟩]).map some :=
  (blockBlobView_refines_machine reachable_stagedStore).2.1 laterCtx sampleBlob _ none none rfl rfl
    ⟨by decide, rfl, fun r hr => by cases hr⟩

/-- On the staged store, the block `AAAAAAAA`, which decodes to six bytes, passes the container
and lease checks of `stageBlock` but is refused with `InvalidBlobOrBlock`, as the staged `AAAA`
decodes to three: the view is not staged. -/
theorem stageBlock_refuses_checked_block :
    Reachable sampleRuntime stagedStore ∧
    stageChecks laterCtx (sampleBlock "AAAAAAAA") none stagedStore ∧
    stageBlock sampleRuntime laterCtx (sampleBlock "AAAAAAAA") none stagedStore =
      .error .invalidBlobOrBlock :=
  ⟨reachable_stagedStore, ⟨by decide, fun r hr hc => by cases hr; cases hc⟩, rfl⟩

end Azurite
