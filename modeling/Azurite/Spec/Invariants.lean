import Azurite.Spec.Effects

/-!
# The store invariant

`Store.Consistent` is what every reachable store satisfies: blob rows are live and unique per
`(account, container, blob, snapshot)`, block rows are unique per
`(account, container, blob, block)`, every blob and block row lies in an existing container, and
every live block row belongs to an existing base blob. The last two are the foreign keys the
tables do not declare; they hold because each write checks its container inside its transaction,
`stageBlock` creates a placeholder for a blob that has no row, and `deleteBlob` and
`deleteContainer` delete the rows below what they delete.

One lemma per table write says when it keeps the invariant; `Consistent.step` cases on the
operation, and `Reachable.consistent` runs it over every history.
-/

namespace Azurite

/-- The invariant of the tables. -/
structure Store.Consistent (s : Store) : Prop where
  blob_live : ∀ r ∈ s.blobs, r.deleting = 0
  blob_keys : s.blobKeys.Nodup
  block_keys : (s.blocks.map (·.key)).Nodup
  blob_container : ∀ k ∈ s.blobKeys, (k.1, k.2.1) ∈ s.containerKeys
  block_container : ∀ b ∈ s.blocks, b.containerKey ∈ s.containerKeys
  block_base : ∀ b ∈ s.blocks, b.deleting = 0 → b.baseKey ∈ s.blobKeys

theorem Store.consistent_empty : Store.empty.Consistent :=
  ⟨by simp [Store.empty], by simp [Store.empty, Store.blobKeys], by simp [Store.empty],
    by simp [Store.empty, Store.blobKeys], by simp [Store.empty], by simp [Store.empty]⟩

namespace Store.Consistent

variable {s : Store}

/-! ### Blob writes -/

theorem upsertBlob (hi : s.Consistent) {v : BlobValues}
    (hv : (v.accountName, v.containerName) ∈ s.containerKeys) : (s.upsertBlob v).Consistent where
  blob_live := Store.deleting_upsertBlob hi.blob_live
  blob_keys := Store.blobKeys_nodup_upsertBlob hi.blob_live hi.blob_keys
  block_keys := by simpa using hi.block_keys
  blob_container k hk := by
    rcases Store.mem_blobKeys_upsertBlob.1 hk with hk | rfl
    · simpa [Store.containerKeys] using hi.blob_container k hk
    · simpa [Store.containerKeys] using hv
  block_container b hb := by
    simpa [Store.containerKeys] using hi.block_container b (by simpa using hb)
  block_base b hb hd :=
    Store.mem_blobKeys_upsertBlob.2 (.inl (hi.block_base b (by simpa using hb) hd))

theorem updateBlobs (hi : s.Consistent) {p : BlobRow → Bool} {f : BlobRow → BlobRow}
    (hf : KeepsKey p f) : (s.updateBlobs p f).Consistent where
  blob_live := Store.deleting_updateBlobs hf hi.blob_live
  blob_keys := (Store.blobKeys_updateBlobs hf).symm ▸ hi.blob_keys
  block_keys := hi.block_keys
  blob_container k hk := by
    simpa [Store.containerKeys] using hi.blob_container k (Store.blobKeys_updateBlobs hf ▸ hk)
  block_container := hi.block_container
  block_base b hb hd := (Store.blobKeys_updateBlobs hf).symm ▸ hi.block_base b hb hd

/-- Deleting blob rows that no live block has as its base. -/
theorem deleteBlobFromSQL (hi : s.Consistent) {p : BlobRow → Bool}
    (hp : ∀ r ∈ s.blobs, p r = true →
      ∀ b ∈ s.blocks, b.deleting = 0 → b.baseKey ≠ r.key) :
    (s.deleteBlobFromSQL p).Consistent where
  blob_live r hr := hi.blob_live r (List.mem_filter.1 hr).1
  blob_keys := hi.blob_keys.sublist ((List.filter_sublist _).map _)
  block_keys := hi.block_keys
  blob_container k hk := by
    obtain ⟨r, hr, rfl⟩ := List.mem_map.1 hk
    exact hi.blob_container _ (List.mem_map.2 ⟨r, (List.mem_filter.1 hr).1, rfl⟩)
  block_container := hi.block_container
  block_base b hb hd := by
    obtain ⟨r, hr, hk⟩ := List.mem_map.1 (hi.block_base b hb hd)
    refine List.mem_map.2 ⟨r, List.mem_filter.2 ⟨hr, ?_⟩, hk⟩
    cases h : p r
    · rfl
    · exact absurd hk.symm (hp r hr h b hb hd)

/-! ### Block writes -/

theorem upsertBlock (hi : s.Consistent) {a c n m : String} {size : Nat}
    {persistency : Option ExtentChunk} (hc : (a, c) ∈ s.containerKeys)
    (hb : (a, c, n, "") ∈ s.blobKeys) : (s.upsertBlock a c n m size persistency).Consistent where
  blob_live := by simpa using hi.blob_live
  blob_keys := by simpa [Store.blobKeys] using hi.blob_keys
  block_keys := Store.blockKeys_nodup_upsertBlock hi.block_keys
  blob_container k hk := by
    simpa [Store.containerKeys] using hi.blob_container k (by simpa [Store.blobKeys] using hk)
  block_container b h := by
    simp only [Store.containerKeys, Store.upsertBlock_containers]
    rcases Store.mem_upsertBlock h with h | h
    · exact hi.block_container b h
    · exact BlockRow.containerKey_eq_of_key h ▸ hc
  block_base b h hd := by
    simp only [Store.blobKeys, Store.upsertBlock_blobs]
    rcases Store.mem_upsertBlock h with h | h
    · exact hi.block_base b h hd
    · exact BlockRow.baseKey_eq_of_key h ▸ hb

theorem retireBlocks (hi : s.Consistent) {a c n : String} : (s.retireBlocks a c n).Consistent where
  blob_live := hi.blob_live
  blob_keys := hi.blob_keys
  block_keys := by rw [Store.blockKeys_retireBlocks]; exact hi.block_keys
  blob_container := hi.blob_container
  block_container b h := by
    obtain ⟨b0, hb0, hk, -⟩ := Store.mem_retireBlocks h
    have : b.containerKey = b0.containerKey := by
      simp only [BlockRow.key, Prod.mk.injEq] at hk; simp [BlockRow.containerKey, hk]
    exact this ▸ hi.block_container b0 hb0
  block_base b h hd := by
    obtain ⟨b0, hb0, -, hb⟩ := Store.mem_retireBlocks h
    obtain ⟨rfl, -⟩ := hb hd
    exact hi.block_base b hb0 hd

theorem deleteBlockFromSQL (hi : s.Consistent) {p : BlockRow → Bool} :
    (s.deleteBlockFromSQL p).Consistent where
  blob_live := hi.blob_live
  blob_keys := hi.blob_keys
  block_keys := hi.block_keys.sublist ((List.filter_sublist _).map _)
  blob_container := hi.blob_container
  block_container b h := hi.block_container b (List.mem_filter.1 h).1
  block_base b h := hi.block_base b (List.mem_filter.1 h).1

/-! ### Container writes -/

theorem updateContainers (hi : s.Consistent) {p : ContainerRow → Bool}
    {f : ContainerRow → ContainerRow} (hf : ∀ r, p r = true → (f r).key = r.key) :
    (s.updateContainers p f).Consistent where
  blob_live := hi.blob_live
  blob_keys := hi.blob_keys
  block_keys := hi.block_keys
  blob_container k hk := (Store.containerKeys_updateContainers hf).symm ▸ hi.blob_container k hk
  block_container b hb := (Store.containerKeys_updateContainers hf).symm ▸ hi.block_container b hb
  block_base := hi.block_base

/-- Adding container rows keeps the invariant. -/
theorem addContainers (hi : s.Consistent) (rows : List ContainerRow) (n : Nat) :
    ({ s with containers := s.containers ++ rows, nextContainerId := n } : Store).Consistent where
  blob_live := hi.blob_live
  blob_keys := hi.blob_keys
  block_keys := hi.block_keys
  blob_container k hk := by
    simp only [Store.containerKeys, List.map_append, List.mem_append]
    exact .inl (hi.blob_container k hk)
  block_container b hb := by
    simp only [Store.containerKeys, List.map_append, List.mem_append]
    exact .inl (hi.block_container b hb)
  block_base := hi.block_base

/-- A container key other than the deleted one survives `deleteContainer`'s destroy. -/
private theorem mem_containerKeys_filter {a c : String} {k : String × String}
    (hk : k ∈ s.containerKeys) (hne : k ≠ (a, c)) :
    k ∈ Store.containerKeys
      { s with containers := s.containers.filter fun r => !r.isContainer a c } := by
  obtain ⟨r, hr, rfl⟩ := List.mem_map.1 hk
  refine List.mem_map.2 ⟨r, List.mem_filter.2 ⟨hr, ?_⟩, rfl⟩
  simp only [Bool.not_eq_true', Bool.eq_false_iff]
  exact fun h => hne (ContainerRow.isContainer_eq_true.1 h)

/-- `deleteContainer` deletes the container with every blob and block row in it. -/
theorem deleteContainer (hi : s.Consistent) (a c : String) :
    ((Store.deleteBlobFromSQL
      { s with containers := s.containers.filter fun r => !r.isContainer a c }
      (BlobRow.ofContainer a c)).deleteBlockFromSQL (BlockRow.ofContainer a c)).Consistent where
  blob_live r hr := hi.blob_live r (List.mem_filter.1 hr).1
  blob_keys := hi.blob_keys.sublist ((List.filter_sublist _).map _)
  block_keys := hi.block_keys.sublist ((List.filter_sublist _).map _)
  blob_container k hk := by
    obtain ⟨r, hr, rfl⟩ := List.mem_map.1 hk
    obtain ⟨hr, hn⟩ := List.mem_filter.1 hr
    refine mem_containerKeys_filter (hi.blob_container _ (List.mem_map.2 ⟨r, hr, rfl⟩)) ?_
    simpa [BlobValues.key, BlobRow.ofContainer, or_iff_not_imp_left] using hn
  block_container b hb := by
    obtain ⟨hb, hn⟩ := List.mem_filter.1 hb
    refine mem_containerKeys_filter (hi.block_container b hb) ?_
    simpa [BlockRow.containerKey, BlockRow.ofContainer, or_iff_not_imp_left] using hn
  block_base b hb hd := by
    obtain ⟨hb, hn⟩ := List.mem_filter.1 hb
    obtain ⟨r, hr, hk⟩ := List.mem_map.1 (hi.block_base b hb hd)
    refine List.mem_map.2 ⟨r, List.mem_filter.2 ⟨hr, ?_⟩, hk⟩
    simp only [BlockRow.baseKey, BlobValues.key, Prod.mk.injEq] at hk
    simpa [BlobRow.ofContainer, BlockRow.ofContainer, hk.1, hk.2.1] using hn

/-- The invariant reads only the three tables. -/
theorem of_tables (hi : s.Consistent) {s' : Store} (hc : s'.containers = s.containers)
    (hb : s'.blobs = s.blobs) (hk : s'.blocks = s.blocks) : s'.Consistent := by
  obtain ⟨h1, h2, h3, h4, h5, h6⟩ := hi
  constructor <;> simp only [Store.blobKeys, Store.containerKeys, hc, hb, hk] at * <;> assumption

/-- A base key has snapshot `""`, so it is not the key of a snapshot row. -/
private theorem baseKey_ne_key {b : BlockRow} {r : BlobRow} (h : r.snapshot ≠ "") :
    b.baseKey ≠ r.key := by
  intro hk
  simp only [BlockRow.baseKey, BlobValues.key, Prod.mk.injEq] at hk
  exact h hk.2.2.2.symm

/-! ### One step -/

/-- Every successful operation keeps the invariant. -/
theorem step (hi : s.Consistent) {rt : Runtime} {ctx : Context} {op : Op} {s' : Store}
    (h : op.exec rt ctx s = .ok s') : s'.Consistent := by
  cases op with
  | setServiceProperties p =>
    obtain ⟨⟨_, _⟩, hx, rfl⟩ := map_eq_ok.1 h
    obtain ⟨hc, hb, hk⟩ := setServiceProperties_ok hx
    exact hi.of_tables hc hb hk
  | createContainer k =>
    obtain ⟨⟨_, _⟩, hx, rfl⟩ := map_eq_ok.1 h
    obtain ⟨v, -, rfl⟩ := createContainer_ok hx
    exact hi.addContainers _ _
  | deleteContainer a c lac mac =>
    obtain ⟨r, -, -, rfl⟩ := deleteContainer_ok h
    exact hi.deleteContainer a c
  | setContainerMetadata a c lm e md lac mac =>
    obtain ⟨r, -, -, rfl⟩ := setContainerMetadata_ok h
    exact hi.updateContainers fun _ _ => rfl
  | setContainerACL a c acl =>
    obtain ⟨r, -, -, rfl, -⟩ := setContainerACL_ok h
    exact hi.updateContainers fun _ _ => rfl
  | acquireContainerLease | releaseContainerLease | renewContainerLease | breakContainerLease
  | changeContainerLease =>
    obtain ⟨⟨_, _⟩, hx, rfl⟩ := map_eq_ok.1 h
    obtain ⟨r, l, -, -, rfl⟩ := containerLeaseOperation_ok hx
    exact hi.updateContainers fun _ _ => rfl
  | createBlob b lac mac =>
    obtain ⟨hc, -, ⟨-, rfl⟩ | ⟨r, -, -, rfl⟩⟩ := createBlob_ok h <;>
      exact hi.upsertBlob hc
  | stageBlock b lac =>
    obtain ⟨hc, ⟨r, hr, -, -, rfl⟩ | ⟨-, rfl⟩⟩ := stageBlock_ok h
    · obtain ⟨hr, hk⟩ := Store.find?_isLive hr
      exact hi.upsertBlock hc (hk ▸ Store.mem_blobKeys hr)
    · exact (hi.upsertBlob hc).upsertBlock (by simpa [Store.containerKeys] using hc)
        (Store.mem_blobKeys_upsertBlob.2 (.inr rfl))
  | commitBlockList b l lac mac =>
    obtain ⟨hc, -, _, _, _, -, -, rfl⟩ := commitBlockList_ok h
    exact (hi.upsertBlob hc).retireBlocks
  | createSnapshot a c n lac md mac =>
    obtain ⟨⟨_, _⟩, hx, rfl⟩ := map_eq_ok.1 h
    obtain ⟨hc, r, hr, -, rfl⟩ := createSnapshot_ok hx
    obtain ⟨-, hk, -⟩ := Store.find?_isLiveCommitted hr
    simp only [BlobValues.key, Prod.mk.injEq] at hk
    exact hi.upsertBlob (by simpa [convertBlobModelToDbModel, BlobRow.model,
      convertDbModelToBlobModel, BlobModel.syncLease, hk.1, hk.2.1] using hc)
  | deleteBlob a c n o =>
    obtain ⟨-, r, hr, -, ⟨-, -, ⟨-, rfl⟩ | ⟨-, rfl⟩⟩ | ⟨hs, -, rfl⟩⟩ :=
        deleteBlob_ok h
    · rw [Store.deleteBlockFromSQL_deleteBlobFromSQL]
      refine hi.deleteBlockFromSQL.deleteBlobFromSQL fun r' _ hp b hb _ hk => ?_
      have hb := (Store.mem_deleteBlockFromSQL.1 hb).2
      simp only [BlockRow.baseKey, BlobValues.key, Prod.mk.injEq] at hk
      simp [BlobRow.ofBlob, BlockRow.ofBlob, hk.1, hk.2.1, hk.2.2.1] at hp hb
      exact hb hp.1.1 hp.1.2 hp.2
    · refine hi.deleteBlobFromSQL fun r' _ hp b _ _ => baseKey_ne_key fun h => ?_
      simp [h] at hp
    · refine hi.deleteBlobFromSQL fun r' _ hp b _ _ => baseKey_ne_key fun h => ?_
      simp only [Bool.and_eq_true, beq_iff_eq] at hp
      exact hs (hp.2.symm.trans h)
  | setBlobHTTPHeaders a c n lac hd mac =>
    obtain ⟨⟨_, _⟩, hx, rfl⟩ := map_eq_ok.1 h
    obtain ⟨r, hr, -, rfl⟩ := setBlobHTTPHeaders_ok hx
    obtain ⟨-, hr, -⟩ := findBaseBlobForWrite_ok hr
    have hk := (Store.find?_isLiveCommitted hr).2.1
    exact hi.updateBlobs fun r' h' => ⟨hk.trans (BlobRow.isLive_eq_true.1 h').1.symm, rfl⟩
  | setBlobMetadata a c n lac md mac =>
    obtain ⟨⟨_, _⟩, hx, rfl⟩ := map_eq_ok.1 h
    obtain ⟨r, -, -, rfl⟩ := setBlobMetadata_ok hx
    exact hi.updateBlobs fun _ _ => ⟨rfl, rfl⟩
  | acquireBlobLease | releaseBlobLease | renewBlobLease | breakBlobLease | changeBlobLease =>
    obtain ⟨⟨_, _⟩, hx, rfl⟩ := map_eq_ok.1 h
    obtain ⟨r, l, -, -, rfl⟩ := blobLeaseOperation_ok hx
    exact hi.updateBlobs fun _ _ => ⟨rfl, rfl⟩
  | startCopyFromURL src dst cs md t o =>
    obtain ⟨⟨_, _⟩, hx, rfl⟩ := map_eq_ok.1 h
    obtain ⟨hc, -, -, -, -, -, -, -, rfl⟩ := startCopyFromURL_ok hx
    exact hi.upsertBlob hc
  | setTier a c n t lac =>
    obtain ⟨⟨_, _⟩, hx, rfl⟩ := map_eq_ok.1 h
    obtain ⟨-, r, -, -, rfl⟩ := setTier_ok hx
    exact hi.updateBlobs fun _ _ => ⟨rfl, rfl⟩
  | setBlobTag a c n snap lac tags mac =>
    obtain ⟨-, r, -, -, rfl⟩ := setBlobTag_ok mac h
    exact hi.updateBlobs fun _ _ => ⟨rfl, rfl⟩

end Store.Consistent

/-- Every reachable store is consistent. -/
theorem Reachable.consistent {rt : Runtime} {s : Store} (h : Reachable rt s) : s.Consistent :=
  h.induction Store.consistent_empty fun _ _ _ _ hi hexec => hi.step hexec

/-! ### Columns every row fills -/

/-- What the rows of a reachable store hold beyond their keys: the lease of every container has a
state and a status, and every blob row has a creation time and a blob type, the
`allowNull: false` columns that `BlobsModel.upsert` checks. -/
structure Store.ColumnsDefined (s : Store) : Prop where
  container_lease : ∀ r ∈ s.containers, (convertDbModelToLease r.lease).Defined
  blob_columns : ∀ r ∈ s.blobs, r.creationTime.isSome ∧ r.blobType.isSome

namespace Store.ColumnsDefined

variable {s s' : Store}

theorem of_tables (hs : s.ColumnsDefined) (hc : s'.containers = s.containers)
    (hb : s'.blobs = s.blobs) : s'.ColumnsDefined :=
  ⟨hc ▸ hs.container_lease, hb ▸ hs.blob_columns⟩

theorem updateBlobs (hs : s.ColumnsDefined) {p : BlobRow → Bool} {f : BlobRow → BlobRow}
    (hf : ∀ r ∈ s.blobs, p r = true → (f r).creationTime.isSome ∧ (f r).blobType.isSome) :
    (s.updateBlobs p f).ColumnsDefined := by
  refine ⟨hs.container_lease, ?_⟩
  simp only [Store.updateBlobs, List.mem_map]
  rintro _ ⟨r, hr, rfl⟩
  by_cases hp : p r = true
  · rw [if_pos hp]; exact hf r hr hp
  · rw [if_neg hp]; exact hs.blob_columns r hr

/-- A row rewritten with values that have a creation time keeps a blob type: an absent one is
skipped. -/
theorem assign (hs : s.ColumnsDefined) {v : BlobValues} (h : v.creationTime.isSome) :
    ∀ r ∈ s.blobs, (r.assign v).creationTime.isSome ∧ (r.assign v).blobType.isSome :=
  fun r hr => ⟨h, by
    show (v.blobType <|> r.blobType).isSome = true
    cases v.blobType
    · exact (hs.blob_columns r hr).2
    · rfl⟩

theorem upsertBlob (hs : s.ColumnsDefined) {v : BlobValues} (h₁ : v.creationTime.isSome)
    (h₂ : v.blobType.isSome) : (s.upsertBlob v).ColumnsDefined := by
  cases h : s.blobs.any (BlobRow.isLive v.accountName v.containerName v.blobName v.snapshot)
  · rw [Store.upsertBlob_of_not_any h]
    refine ⟨hs.container_lease, fun r hr => ?_⟩
    rcases List.mem_append.1 hr with hr | hr
    · exact hs.blob_columns r hr
    · rw [List.mem_singleton.1 hr]; exact ⟨h₁, h₂⟩
  · rw [Store.upsertBlob_of_any h]
    exact hs.updateBlobs fun r hr _ => hs.assign h₁ r hr

theorem upsertBlock (hs : s.ColumnsDefined) {a c n m : String} {size : Nat}
    {persistency : Option ExtentChunk} : (s.upsertBlock a c n m size persistency).ColumnsDefined :=
  hs.of_tables (by simp) (by simp)

theorem retireBlocks (hs : s.ColumnsDefined) {a c n : String} :
    (s.retireBlocks a c n).ColumnsDefined :=
  hs.of_tables rfl rfl

theorem updateContainers (hs : s.ColumnsDefined) {p : ContainerRow → Bool}
    {f : ContainerRow → ContainerRow}
    (hf : ∀ r ∈ s.containers, p r = true → (convertDbModelToLease (f r).lease).Defined) :
    (s.updateContainers p f).ColumnsDefined := by
  refine ⟨?_, hs.blob_columns⟩
  simp only [Store.updateContainers, List.mem_map]
  rintro _ ⟨r, hr, rfl⟩
  by_cases hp : p r = true
  · rw [if_pos hp]; exact hf r hr hp
  · rw [if_neg hp]; exact hs.container_lease r hr

/-- The lease a container lease operation stores: the operation's result on the row's lease as
observed now. -/
theorem containerLease (hs : s.ColumnsDefined) {rt : Runtime} {ctx : Context} {a c : String}
    {mac : Option ModifiedAccessConditions} {op : Lease → Except StorageError Lease}
    {m : ContainerModel}
    (hop : ∀ l l', l.Defined → op l = .ok l' → l'.Defined)
    (h : containerLeaseOperation rt ctx a c mac op s = .ok (m, s')) : s'.ColumnsDefined := by
  obtain ⟨r, l, hr, hl, rfl⟩ := containerLeaseOperation_ok h
  have hmem := List.mem_of_find?_eq_some (findContainerForWrite_ok hr).1
  exact hs.updateContainers fun _ _ _ =>
    hop _ _ (Lease.observe_defined (hs.container_lease r hmem) _) hl

variable {rt : Runtime} {ctx : Context}

/-- Every successful operation keeps the columns filled. -/
theorem step (hs : s.ColumnsDefined) {op : Op} (h : op.exec rt ctx s = .ok s') :
    s'.ColumnsDefined := by
  cases op with
  | setServiceProperties p =>
    obtain ⟨⟨_, _⟩, hx, rfl⟩ := map_eq_ok.1 h
    obtain ⟨hc, hb, -⟩ := setServiceProperties_ok hx
    exact hs.of_tables hc hb
  | createContainer k =>
    obtain ⟨⟨_, _⟩, hx, rfl⟩ := map_eq_ok.1 h
    obtain ⟨v, hv, rfl⟩ := createContainer_ok hx
    obtain ⟨hd, rfl⟩ := convertContainerModelToDbModel_ok hv
    refine ⟨fun r hr => ?_, hs.blob_columns⟩
    rcases List.mem_append.1 hr with hr | hr
    · exact hs.container_lease r hr
    · rw [List.mem_singleton.1 hr]; exact hd
  | deleteContainer a c lac mac =>
    obtain ⟨r, -, -, rfl⟩ := deleteContainer_ok h
    exact ⟨fun r hr => hs.container_lease r (List.mem_filter.1 hr).1,
      fun r hr => hs.blob_columns r (List.mem_filter.1 hr).1⟩
  | setContainerMetadata a c lm e md lac mac =>
    obtain ⟨r, -, -, rfl⟩ := setContainerMetadata_ok h
    exact hs.updateContainers fun r hr _ => hs.container_lease r hr
  | setContainerACL a c acl =>
    obtain ⟨r, -, -, rfl, -⟩ := setContainerACL_ok h
    exact hs.updateContainers fun r hr _ => hs.container_lease r hr
  | acquireContainerLease a c d p mac =>
    obtain ⟨⟨_, _⟩, hx, rfl⟩ := map_eq_ok.1 h
    exact hs.containerLease (fun _ _ _ => Lease.acquire_defined) hx
  | releaseContainerLease a c l mac =>
    obtain ⟨⟨_, _⟩, hx, rfl⟩ := map_eq_ok.1 h
    exact hs.containerLease (fun _ _ _ => Lease.release_defined) hx
  | renewContainerLease a c l mac =>
    obtain ⟨⟨_, _⟩, hx, rfl⟩ := map_eq_ok.1 h
    exact hs.containerLease (fun _ _ _ => Lease.renew_defined) hx
  | breakContainerLease a c p mac =>
    obtain ⟨⟨_, _⟩, hx, rfl⟩ := map_eq_ok.1 h
    exact hs.containerLease (fun _ _ hl h => Lease.break_defined hl h) hx
  | changeContainerLease a c l p mac =>
    obtain ⟨⟨_, _⟩, hx, rfl⟩ := map_eq_ok.1 h
    exact hs.containerLease (fun _ _ hl h => Lease.change_defined hl h) hx
  | createBlob b lac mac =>
    obtain ⟨v, h₁, h₂, rfl⟩ := createBlob_columns h
    exact hs.upsertBlob h₁ h₂
  | stageBlock b lac =>
    obtain ⟨-, ⟨r, -, -, -, rfl⟩ | ⟨-, rfl⟩⟩ := stageBlock_ok h
    · exact hs.upsertBlock
    · exact (hs.upsertBlob (by rfl) (by rfl)).upsertBlock
  | commitBlockList b l lac mac =>
    obtain ⟨-, -, _, _, _, -, -, rfl⟩ := commitBlockList_ok h
    exact (hs.upsertBlob (by rfl) (by rfl)).retireBlocks
  | createSnapshot a c n lac md mac =>
    obtain ⟨⟨_, _⟩, hx, rfl⟩ := map_eq_ok.1 h
    obtain ⟨v, h₁, h₂, rfl⟩ := createSnapshot_columns hx
    exact hs.upsertBlob h₁ h₂
  | deleteBlob a c n o =>
    obtain ⟨-, r, -, -, ⟨-, -, ⟨-, rfl⟩ | ⟨-, rfl⟩⟩ | ⟨-, -, rfl⟩⟩ :=
      deleteBlob_ok h <;> exact ⟨hs.container_lease, fun r hr => hs.blob_columns r
        (List.mem_filter.1 (by simpa only [Store.deleteBlockFromSQL] using hr)).1⟩
  | setBlobHTTPHeaders a c n lac hd mac =>
    obtain ⟨⟨_, _⟩, hx, rfl⟩ := map_eq_ok.1 h
    obtain ⟨r, hr, -, rfl⟩ := setBlobHTTPHeaders_ok hx
    have hmem := List.mem_of_find?_eq_some (findBaseBlobForWrite_ok hr).2.1
    cases hd <;>
      exact hs.updateBlobs fun _ hr' _ => hs.assign (by exact (hs.blob_columns r hmem).1) _ hr'
  | setBlobMetadata a c n lac md mac =>
    obtain ⟨⟨_, _⟩, hx, rfl⟩ := map_eq_ok.1 h
    obtain ⟨r, -, -, rfl⟩ := setBlobMetadata_ok hx
    exact hs.updateBlobs fun r hr _ => hs.blob_columns r hr
  | acquireBlobLease | releaseBlobLease | renewBlobLease | breakBlobLease | changeBlobLease =>
    obtain ⟨⟨_, _⟩, hx, rfl⟩ := map_eq_ok.1 h
    obtain ⟨r, l, -, -, rfl⟩ := blobLeaseOperation_ok hx
    exact hs.updateBlobs fun r hr _ => hs.blob_columns r hr
  | startCopyFromURL src dst cs md t o =>
    obtain ⟨⟨_, _⟩, hx, rfl⟩ := map_eq_ok.1 h
    obtain ⟨v, h₁, h₂, rfl⟩ := startCopyFromURL_columns hx
    exact hs.upsertBlob h₁ h₂
  | setTier a c n t lac =>
    obtain ⟨⟨_, _⟩, hx, rfl⟩ := map_eq_ok.1 h
    obtain ⟨-, r, -, -, rfl⟩ := setTier_ok hx
    exact hs.updateBlobs fun r hr _ => hs.blob_columns r hr
  | setBlobTag a c n snap lac tags mac =>
    obtain ⟨-, r, -, -, rfl⟩ := setBlobTag_ok mac h
    exact hs.updateBlobs fun r hr _ => hs.blob_columns r hr

end Store.ColumnsDefined

/-- In every reachable store every container's lease has a state and a status, and every blob row
has a creation time and a blob type. -/
theorem Reachable.columnsDefined {rt : Runtime} {s : Store} (h : Reachable rt s) :
    s.ColumnsDefined :=
  h.induction ⟨by simp [Store.empty], by simp [Store.empty]⟩
    fun _ _ _ _ hi hexec => hi.step hexec

/-- `ContainerLeaseAdapter` accepts the model of every container row of a reachable store: the
reads that construct it never meet its `RangeError`. -/
theorem Reachable.leaseAdapter_ok {rt : Runtime} {s : Store} (h : Reachable rt s)
    {r : ContainerRow} (hr : r ∈ s.containers) : r.model.leaseAdapter = .ok r.model.lease :=
  if_pos (h.columnsDefined.container_lease r hr)

/-! ### Live blocks -/

/-- Only `stageBlock` makes a block row live: a live row after any other operation was a row
before, and a live row after `stageBlock` was a row before or is the staged block's row. -/
theorem Op.exec_liveBlock {rt : Runtime} {ctx : Context} {op : Op} {s s' : Store}
    (h : op.exec rt ctx s = .ok s') {b : BlockRow} (hb : b ∈ s'.blocks) (hd : b.deleting = 0) :
    b ∈ s.blocks ∨ ∃ block lac, op = .stageBlock block lac ∧
      b.key = (block.accountName, block.containerName, block.blobName, block.name) := by
  cases op with
  | stageBlock block lac =>
    obtain ⟨-, ⟨r, -, -, -, rfl⟩ | ⟨-, rfl⟩⟩ := stageBlock_ok h <;>
      rcases Store.mem_upsertBlock hb with hb | hk
    · exact .inl hb
    · exact .inr ⟨block, lac, rfl, hk⟩
    · exact .inl (by simpa using hb)
    · exact .inr ⟨block, lac, rfl, hk⟩
  | commitBlockList blob l lac mac =>
    obtain ⟨-, -, _, _, _, -, -, rfl⟩ := commitBlockList_ok h
    obtain ⟨b0, hb0, -, hb⟩ := Store.mem_retireBlocks hb
    exact .inl ((hb hd).1 ▸ by simpa using hb0)
  | deleteBlob a c n o =>
    obtain ⟨-, r, -, -, ⟨-, -, ⟨-, rfl⟩ | ⟨-, rfl⟩⟩ | ⟨-, -, rfl⟩⟩ :=
        deleteBlob_ok h
    · exact .inl (Store.mem_deleteBlockFromSQL.1 hb).1
    · exact .inl hb
    · exact .inl hb
  | deleteContainer a c lac mac =>
    obtain ⟨r, -, -, rfl⟩ := deleteContainer_ok h
    exact .inl (Store.mem_deleteBlockFromSQL.1 hb).1
  | setServiceProperties p =>
    obtain ⟨⟨_, _⟩, hx, rfl⟩ := map_eq_ok.1 h
    exact .inl ((setServiceProperties_ok hx).2.2 ▸ hb)
  | createContainer k =>
    obtain ⟨⟨_, _⟩, hx, rfl⟩ := map_eq_ok.1 h
    obtain ⟨v, -, rfl⟩ := createContainer_ok hx
    exact .inl hb
  | setContainerMetadata a c lm e md lac mac =>
    obtain ⟨r, -, -, rfl⟩ := setContainerMetadata_ok h
    exact .inl hb
  | setContainerACL a c acl =>
    obtain ⟨r, -, -, rfl, -⟩ := setContainerACL_ok h
    exact .inl hb
  | acquireContainerLease | releaseContainerLease | renewContainerLease | breakContainerLease
  | changeContainerLease =>
    obtain ⟨⟨_, _⟩, hx, rfl⟩ := map_eq_ok.1 h
    obtain ⟨r, l, -, -, rfl⟩ := containerLeaseOperation_ok hx
    exact .inl hb
  | createBlob b lac mac =>
    obtain ⟨-, -, ⟨-, rfl⟩ | ⟨r, -, -, rfl⟩⟩ := createBlob_ok h <;>
      exact .inl (by simpa using hb)
  | createSnapshot a c n lac md mac =>
    obtain ⟨⟨_, _⟩, hx, rfl⟩ := map_eq_ok.1 h
    obtain ⟨-, r, -, -, rfl⟩ := createSnapshot_ok hx
    exact .inl (by simpa using hb)
  | setBlobHTTPHeaders a c n lac hd mac =>
    obtain ⟨⟨_, _⟩, hx, rfl⟩ := map_eq_ok.1 h
    obtain ⟨r, -, -, rfl⟩ := setBlobHTTPHeaders_ok hx
    exact .inl hb
  | setBlobMetadata a c n lac md mac =>
    obtain ⟨⟨_, _⟩, hx, rfl⟩ := map_eq_ok.1 h
    obtain ⟨r, -, -, rfl⟩ := setBlobMetadata_ok hx
    exact .inl hb
  | acquireBlobLease | releaseBlobLease | renewBlobLease | breakBlobLease | changeBlobLease =>
    obtain ⟨⟨_, _⟩, hx, rfl⟩ := map_eq_ok.1 h
    obtain ⟨r, l, -, -, rfl⟩ := blobLeaseOperation_ok hx
    exact .inl hb
  | startCopyFromURL src dst cs md t o =>
    obtain ⟨⟨_, _⟩, hx, rfl⟩ := map_eq_ok.1 h
    obtain ⟨-, _, _, _, _, -, -, -, rfl⟩ := startCopyFromURL_ok hx
    exact .inl (by simpa using hb)
  | setTier a c n t lac =>
    obtain ⟨⟨_, _⟩, hx, rfl⟩ := map_eq_ok.1 h
    obtain ⟨-, r, -, -, rfl⟩ := setTier_ok hx
    exact .inl hb
  | setBlobTag a c n snap lac tags mac =>
    obtain ⟨-, r, -, -, rfl⟩ := setBlobTag_ok mac h
    exact .inl hb

/-! ### Rows have owners -/

/-- In every reachable store every blob row and every block row lies in an existing container,
and every live block row belongs to an existing base blob. -/
theorem reachable_rows_have_owners {rt : Runtime} {s : Store} (h : Reachable rt s) :
    (∀ r ∈ s.blobs, ∃ k ∈ s.containers,
      k.accountName = r.accountName ∧ k.containerName = r.containerName) ∧
    (∀ b ∈ s.blocks, ∃ k ∈ s.containers,
      k.accountName = b.accountName ∧ k.containerName = b.containerName) ∧
    (∀ b ∈ s.blocks, b.deleting = 0 → ∃ r ∈ s.blobs, r.accountName = b.accountName ∧
      r.containerName = b.containerName ∧ r.blobName = b.blobName ∧ r.snapshot = "") := by
  have hi := h.consistent
  refine ⟨fun r hr => ?_, fun b hb => ?_, fun b hb hd => ?_⟩
  · obtain ⟨k, hk, he⟩ := List.mem_map.1 (hi.blob_container _ (Store.mem_blobKeys hr))
    simp only [ContainerRow.key, BlobValues.key, Prod.mk.injEq] at he
    exact ⟨k, hk, he⟩
  · obtain ⟨k, hk, he⟩ := List.mem_map.1 (hi.block_container b hb)
    simp only [ContainerRow.key, BlockRow.containerKey, Prod.mk.injEq] at he
    exact ⟨k, hk, he⟩
  · obtain ⟨r, hr, he⟩ := List.mem_map.1 (hi.block_base b hb hd)
    simp only [BlockRow.baseKey, BlobValues.key, Prod.mk.injEq] at he
    exact ⟨r, hr, he⟩

/-- A runtime to run the model on: `Buffer.from(id, "base64").length` of an unpadded base64 id,
three bytes for every four characters; a tag filter that accepts every blob; no tags parsed. -/
def sampleRuntime : Runtime where
  decodedLength id := id.length / 4 * 3
  matchesTags _ _ := true
  getTagsFromString _ := .ok ⟨[]⟩

end Azurite
