import Azurite.Spec.Snapshots

/-!
# What an operation leaves alone

Each write of the store names the rows it touches with a where clause or a unique key. This file
gives every operation its scope, `Op.scope`: the Services row of an account, the Containers row
of a container, a container with every Blobs and Blocks row in it (`deleteContainer`), or the
Blobs and Blocks rows of one blob name (the destination's, for `startCopyFromURL`).
`Store.outside` is what a scope leaves out of each table, and
`rows_outside_scope_unchanged` proves that a successful operation changes none of it: the rows
outside are the same rows, in the same order.

The read operations are functions of the store that return no store, so they change nothing by
construction.
-/

namespace Azurite

/-! ### Scopes -/

/-- The rows an operation may write. -/
inductive Scope where
  /-- The Services row of an account. -/
  | service (account : String)
  /-- The Containers row of a container. -/
  | container (account container : String)
  /-- A container's row with every Blobs and Blocks row in it. -/
  | containerTree (account container : String)
  /-- The Blobs and Blocks rows of one blob name, every snapshot included. -/
  | blob (account container blob : String)
  deriving DecidableEq, Repr

namespace Scope

/-- The Services rows a scope covers. -/
def coversService : Scope → ServiceRow → Bool
  | .service a, r => r.accountName == a
  | _, _ => false

/-- The Containers rows a scope covers. -/
def coversContainer : Scope → ContainerRow → Bool
  | .container a c, r | .containerTree a c, r => r.isContainer a c
  | _, _ => false

/-- The Blobs rows a scope covers. -/
def coversBlob : Scope → BlobRow → Bool
  | .containerTree a c, r => r.ofContainer a c
  | .blob a c n, r => r.ofBlob a c n
  | _, _ => false

/-- The Blocks rows a scope covers. -/
def coversBlock : Scope → BlockRow → Bool
  | .containerTree a c, b => b.ofContainer a c
  | .blob a c n, b => b.ofBlob a c n
  | _, _ => false

end Scope

/-- The scope of each operation. -/
def Op.scope : Op → Scope
  | .setServiceProperties p => .service p.accountName
  | .createContainer k => .container k.accountName k.name
  | .deleteContainer a c _ _ => .containerTree a c
  | .setContainerMetadata a c _ _ _ _ _ | .setContainerACL a c _
  | .acquireContainerLease a c _ _ _ | .releaseContainerLease a c _ _
  | .renewContainerLease a c _ _ | .breakContainerLease a c _ _
  | .changeContainerLease a c _ _ _ => .container a c
  | .createBlob b _ _ | .commitBlockList b _ _ _ => .blob b.accountName b.containerName b.name
  | .stageBlock b _ => .blob b.accountName b.containerName b.blobName
  | .createSnapshot a c n _ _ _ | .deleteBlob a c n _ | .setBlobHTTPHeaders a c n _ _ _
  | .setBlobMetadata a c n _ _ _ | .acquireBlobLease a c n _ _ _ | .releaseBlobLease a c n _ _
  | .renewBlobLease a c n _ _ | .breakBlobLease a c n _ _ | .changeBlobLease a c n _ _ _
  | .setTier a c n _ _ | .setBlobTag a c n _ _ _ _ => .blob a c n
  | .startCopyFromURL _ dst _ _ _ _ => .blob dst.account dst.container dst.blob

/-- The rows of each table that a scope does not cover. -/
def Store.outside (s : Store) (sc : Scope) :
    List ServiceRow × List ContainerRow × List BlobRow × List BlockRow :=
  (s.services.filter fun r => !sc.coversService r,
   s.containers.filter fun r => !sc.coversContainer r,
   s.blobs.filter fun r => !sc.coversBlob r,
   s.blocks.filter fun b => !sc.coversBlock b)

/-! ### Rows outside a set of rows -/

section Lists
variable {α : Type} {p q : α → Bool}

/-- Rewriting rows of a set into rows of it leaves the rows outside the set as they were. -/
theorem filter_not_map_ite {f : α → α} (h : ∀ x, p x = true → q x = true ∧ q (f x) = true)
    (l : List α) :
    (l.map fun x => if p x then f x else x).filter (fun x => !q x) = l.filter fun x => !q x := by
  induction l with
  | nil => rfl
  | cons x l ih =>
    by_cases hx : p x = true
    · simp [hx, (h x hx).1, (h x hx).2, ih]
    · simp [hx, List.filter_cons, ih]

/-- Appending a row of the set leaves the rows outside it as they were. -/
theorem filter_not_append_of {x : α} (hx : q x = true) (l : List α) :
    (l ++ [x]).filter (fun y => !q y) = l.filter fun y => !q y := by
  simp [List.filter_append, hx]

/-- Deleting rows of the set leaves the rows outside it as they were. -/
theorem filter_not_filter_not (h : ∀ x, p x = true → q x = true) (l : List α) :
    (l.filter fun x => !p x).filter (fun x => !q x) = l.filter fun x => !q x := by
  rw [List.filter_filter]
  refine List.filter_congr fun x _ => ?_
  cases hq : q x
  · cases hp : p x
    · rfl
    · exact absurd (h x hp) (by simp [hq])
  · rfl

end Lists

/-! ### Each table write -/

section Writes
variable {s : Store} {sc : Scope}

theorem Store.outside_updateBlobs {p : BlobRow → Bool} {f : BlobRow → BlobRow}
    (h : ∀ r, p r = true → sc.coversBlob r = true ∧ sc.coversBlob (f r) = true) :
    (s.updateBlobs p f).outside sc = s.outside sc := by
  simp only [Store.outside, Store.updateBlobs, filter_not_map_ite h]

theorem Store.outside_deleteBlobFromSQL {p : BlobRow → Bool}
    (h : ∀ r, p r = true → sc.coversBlob r = true) :
    (s.deleteBlobFromSQL p).outside sc = s.outside sc := by
  simp only [Store.outside, Store.deleteBlobFromSQL, filter_not_filter_not h]

theorem Store.outside_deleteBlockFromSQL {p : BlockRow → Bool}
    (h : ∀ b, p b = true → sc.coversBlock b = true) :
    (s.deleteBlockFromSQL p).outside sc = s.outside sc := by
  simp only [Store.outside, Store.deleteBlockFromSQL, filter_not_filter_not h]

theorem Store.outside_updateContainers {p : ContainerRow → Bool}
    {f : ContainerRow → ContainerRow}
    (h : ∀ r, p r = true → sc.coversContainer r = true ∧ sc.coversContainer (f r) = true) :
    (s.updateContainers p f).outside sc = s.outside sc := by
  simp only [Store.outside, Store.updateContainers, filter_not_map_ite h]

variable {a c n : String}

/-- An upsert writes rows of its values' blob name only. -/
theorem Store.outside_upsertBlob {v : BlobValues}
    (h : (v.accountName, v.containerName, v.blobName) = (a, c, n)) :
    (s.upsertBlob v).outside (.blob a c n) = s.outside (.blob a c n) := by
  simp only [Prod.mk.injEq] at h
  obtain ⟨rfl, rfl, rfl⟩ := h
  have hv (r : BlobRow) (hk : r.key = v.key) :
      (Scope.blob v.accountName v.containerName v.blobName).coversBlob r = true :=
    (BlobRow.ofBlob_of_key hk).1
  cases h : s.blobs.any (BlobRow.isLive v.accountName v.containerName v.blobName v.snapshot)
  · rw [Store.upsertBlob_of_not_any h]
    simp only [Store.outside, filter_not_append_of (hv ⟨v, s.nextBlobId, 0⟩ rfl)]
  · rw [Store.upsertBlob_of_any h]
    exact Store.outside_updateBlobs fun r hr =>
      ⟨hv r (BlobRow.isLive_eq_true.1 hr).1, hv _ (BlobRow.assign_key r v)⟩

theorem Store.outside_upsertBlock {m : String} {size : Nat} {persistency : Option ExtentChunk} :
    (s.upsertBlock a c n m size persistency).outside (.blob a c n) = s.outside (.blob a c n) := by
  unfold Store.upsertBlock
  dsimp only
  split
  · simp only [Store.outside]
    rw [filter_not_map_ite fun b hb => ?_]
    have hb : b.ofBlob a c n = true := (Bool.and_eq_true _ _ ▸ hb).1
    exact ⟨hb, hb⟩
  · simp only [Store.outside]
    rw [filter_not_append_of (by simp [Scope.coversBlock, BlockRow.ofBlob])]

theorem Store.outside_retireBlocks :
    (s.retireBlocks a c n).outside (.blob a c n) = s.outside (.blob a c n) := by
  have h : ∀ b : BlockRow, b.ofBlob a c n = true → (Scope.blob a c n).coversBlock b = true ∧
      (Scope.blob a c n).coversBlock { b with deleting := b.deleting + 1 } = true :=
    fun _ hb => ⟨hb, hb⟩
  simp only [Store.outside, Store.retireBlocks, filter_not_map_ite h]

end Writes

/-- `setServiceProperties` rewrites or appends the account's row. -/
theorem setServiceProperties_outside {p p' : ServicePropertiesModel} {s s' : Store}
    (h : setServiceProperties p s = .ok (p', s')) :
    s'.outside (.service p.accountName) = s.outside (.service p.accountName) := by
  unfold setServiceProperties at h
  split at h <;> cases h
  · simp only [Store.outside]
    rw [filter_not_map_ite fun r hr => ?_]
    exact ⟨hr, hr⟩
  · simp only [Store.outside]
    rw [filter_not_append_of (by simp [Scope.coversService])]

/-! ### Every operation -/

/-- A successful operation changes no row outside its scope: every table keeps the rows its
scope does not cover, in the same order. -/
theorem rows_outside_scope_unchanged {rt : Runtime} {ctx : Context} {op : Op} {s s' : Store}
    (h : op.exec rt ctx s = .ok s') : s'.outside op.scope = s.outside op.scope := by
  cases op with
  | setServiceProperties p =>
    obtain ⟨⟨_, _⟩, hx, rfl⟩ := map_eq_ok.1 h
    exact setServiceProperties_outside hx
  | createContainer k =>
    obtain ⟨⟨_, _⟩, hx, rfl⟩ := map_eq_ok.1 h
    obtain ⟨v, hv, rfl⟩ := createContainer_ok hx
    obtain ⟨-, rfl⟩ := convertContainerModelToDbModel_ok hv
    simp only [Store.outside]
    rw [filter_not_append_of ?_]
    exact ContainerRow.isContainer_eq_true.2 rfl
  | deleteContainer a c lac mac =>
    obtain ⟨r, -, -, rfl⟩ := deleteContainer_ok h
    refine (Store.outside_deleteBlockFromSQL fun _ h => h).trans
      ((Store.outside_deleteBlobFromSQL fun _ h => h).trans ?_)
    simp only [Store.outside]
    rw [filter_not_filter_not fun _ h => ?_]
    exact h
  | setContainerMetadata a c lm e md lac mac =>
    obtain ⟨r, -, -, rfl⟩ := setContainerMetadata_ok h
    exact Store.outside_updateContainers fun _ h => ⟨h, h⟩
  | setContainerACL a c acl =>
    obtain ⟨r, -, -, rfl, -⟩ := setContainerACL_ok h
    exact Store.outside_updateContainers fun _ h => ⟨h, h⟩
  | acquireContainerLease | releaseContainerLease | renewContainerLease | breakContainerLease
  | changeContainerLease =>
    obtain ⟨⟨_, _⟩, hx, rfl⟩ := map_eq_ok.1 h
    obtain ⟨r, l, -, -, rfl⟩ := containerLeaseOperation_ok hx
    exact Store.outside_updateContainers fun _ h => ⟨h, h⟩
  | createBlob b lac mac =>
    obtain ⟨-, -, ⟨-, rfl⟩ | ⟨r, -, -, rfl⟩⟩ := createBlob_ok h <;>
      exact Store.outside_upsertBlob rfl
  | stageBlock b lac =>
    obtain ⟨-, ⟨r, -, -, -, rfl⟩ | ⟨-, rfl⟩⟩ := stageBlock_ok h
    · exact Store.outside_upsertBlock
    · exact Store.outside_upsertBlock.trans
        (Store.outside_upsertBlob rfl)
  | commitBlockList b l lac mac =>
    obtain ⟨-, -, _, _, _, -, -, rfl⟩ := commitBlockList_ok h
    exact Store.outside_retireBlocks.trans
      (Store.outside_upsertBlob rfl)
  | createSnapshot a c n lac md mac =>
    obtain ⟨⟨_, _⟩, hx, rfl⟩ := map_eq_ok.1 h
    obtain ⟨-, r, hr, -, rfl⟩ := createSnapshot_ok hx
    obtain ⟨-, hk, -⟩ := Store.find?_isLiveCommitted hr
    simp only [BlobValues.key, Prod.mk.injEq] at hk
    exact Store.outside_upsertBlob (by
      simp [convertBlobModelToDbModel, BlobModel.syncLease, BlobRow.model,
        convertDbModelToBlobModel, hk])
  | deleteBlob a c n o =>
    obtain ⟨-, r, -, -, ⟨-, -, ⟨-, rfl⟩ | ⟨-, rfl⟩⟩ | ⟨-, -, rfl⟩⟩ :=
      deleteBlob_ok h
    · exact (Store.outside_deleteBlockFromSQL fun _ h => h).trans
        (Store.outside_deleteBlobFromSQL fun _ h => h)
    · exact Store.outside_deleteBlobFromSQL fun _ h => (Bool.and_eq_true _ _ ▸ h).1
    · exact Store.outside_deleteBlobFromSQL fun _ h => (Bool.and_eq_true _ _ ▸ h).1
  | setBlobHTTPHeaders a c n lac hd mac =>
    obtain ⟨⟨_, _⟩, hx, rfl⟩ := map_eq_ok.1 h
    obtain ⟨r, hr, -, rfl⟩ := setBlobHTTPHeaders_ok hx
    obtain ⟨-, hr, -⟩ := findBaseBlobForWrite_ok hr
    have hk := (BlobRow.ofBlob_of_key (Store.find?_isLiveCommitted hr).2.1).1
    exact Store.outside_updateBlobs fun _ h => ⟨BlobRow.ofBlob_of_isLive h, hk⟩
  | setBlobMetadata a c n lac md mac =>
    obtain ⟨⟨_, _⟩, hx, rfl⟩ := map_eq_ok.1 h
    obtain ⟨r, -, -, rfl⟩ := setBlobMetadata_ok hx
    exact Store.outside_updateBlobs fun _ h =>
      ⟨BlobRow.ofBlob_of_isLive h, BlobRow.ofBlob_of_isLive h⟩
  | acquireBlobLease | releaseBlobLease | renewBlobLease | breakBlobLease | changeBlobLease =>
    obtain ⟨⟨_, _⟩, hx, rfl⟩ := map_eq_ok.1 h
    obtain ⟨r, l, -, -, rfl⟩ := blobLeaseOperation_ok hx
    exact Store.outside_updateBlobs fun _ h =>
      ⟨BlobRow.ofBlob_of_isLive h, BlobRow.ofBlob_of_isLive h⟩
  | startCopyFromURL src dst cs md t o =>
    obtain ⟨⟨_, _⟩, hx, rfl⟩ := map_eq_ok.1 h
    obtain ⟨-, -, -, -, -, -, -, -, rfl⟩ := startCopyFromURL_ok hx
    exact Store.outside_upsertBlob rfl
  | setTier a c n t lac =>
    obtain ⟨⟨_, _⟩, hx, rfl⟩ := map_eq_ok.1 h
    obtain ⟨-, r, -, -, rfl⟩ := setTier_ok hx
    exact Store.outside_updateBlobs fun _ h =>
      ⟨BlobRow.ofBlob_of_isLive h, BlobRow.ofBlob_of_isLive h⟩
  | setBlobTag a c n snap lac tags mac =>
    obtain ⟨-, r, -, -, rfl⟩ := setBlobTag_ok mac h
    exact Store.outside_updateBlobs fun _ h =>
      ⟨BlobRow.ofBlob_of_isLive h, BlobRow.ofBlob_of_isLive h⟩

theorem rows_outside_scope_unchanged_deleteContainer :
    ∃ s', Op.exec sampleRuntime laterCtx (.deleteContainer "a" "c1" none none) twoContainerStore =
        .ok s' ∧
      s'.outside (.containerTree "a" "c1") = twoContainerStore.outside (.containerTree "a" "c1") :=
  ⟨_, rfl, @rows_outside_scope_unchanged sampleRuntime laterCtx
    (.deleteContainer "a" "c1" none none) twoContainerStore _ rfl⟩

end Azurite
