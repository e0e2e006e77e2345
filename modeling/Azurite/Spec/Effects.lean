import Azurite.Spec.Tables
import Azurite.Native.Exec

/-!
# What a successful operation did

One inversion lemma per operation of the store: from `op ... s = .ok (.., s')` it recovers every
check the operation passed and the table writes that made `s'`. The invariants and the refinement
proofs case on the operation and cite these lemmas; none of them unfolds an operation again.
-/

namespace Azurite

/-! ### `Except` -/

@[simp] theorem pure_eq_ok {ε α : Type} {a b : α} : (pure a : Except ε α) = .ok b ↔ a = b :=
  ⟨Except.ok.inj, congrArg _⟩

@[simp] theorem map_eq_ok {ε α β : Type} {f : α → β} {x : Except ε α} {b : β} :
    f <$> x = .ok b ↔ ∃ a, x = .ok a ∧ f a = b := by
  cases x <;> simp [Functor.map, Except.map]

@[simp] theorem exists_ok_unit {ε : Type} {x : Except ε Unit} :
    (∃ u, x = .ok u) ↔ x = .ok () :=
  ⟨fun ⟨(), h⟩ => h, fun h => ⟨(), h⟩⟩

variable {rt : Runtime} {ctx : Context} {s s' : Store}

/-! ### Validated blob writes -/

@[simp] theorem BlobsModel.upsert_ok {v : BlobValues} :
    BlobsModel.upsert s v = .ok s' ↔
      v.creationTime.isSome ∧ v.blobType.isSome ∧ s.upsertBlob v = s' := by
  simp [BlobsModel.upsert]

@[simp] theorem BlobsModel.update_ok {p : BlobRow → Bool} {v : BlobValues} :
    BlobsModel.update s p v = .ok s' ↔
      v.creationTime.isSome ∧ s.updateBlobs p (·.assign v) = s' := by
  simp [BlobsModel.update]

/-- The placeholder `stageBlock` writes has a creation time and a blob type. -/
@[simp] theorem BlobsModel.upsert_stagingPlaceholder (block : BlockModel) :
    BlobsModel.upsert s (convertBlobModelToDbModel (stagingPlaceholder ctx block)) =
      .ok (s.upsertBlob (convertBlobModelToDbModel (stagingPlaceholder ctx block))) := rfl

/-! ### Reads shared by the writes -/

/-- The row a container write reads exists, has the key asked for, and meets the conditions. -/
theorem findContainerForWrite_ok {a c : String} {mac : Option ModifiedAccessConditions}
    {r : ContainerRow} (h : findContainerForWrite rt a c mac s = .ok r) :
    s.containers.find? (ContainerRow.isContainer a c) = some r ∧
      validateWriteConditions rt mac (some r.model.target) = .ok () := by
  simp only [findContainerForWrite, bind_ok_iff] at h
  obtain ⟨u, hu, h⟩ := h
  split at h <;> simp_all

/-- The row a blob write reads is the committed live base row, in an existing container, and
meets the conditions. -/
theorem findBaseBlobForWrite_ok {a c n : String} {mac : Option ModifiedAccessConditions}
    {r : BlobRow} (h : findBaseBlobForWrite rt a c n mac s = .ok r) :
    (a, c) ∈ s.containerKeys ∧ s.blobs.find? (BlobRow.isLiveCommitted a c n "") = some r ∧
      validateWriteConditions rt mac (some r.model.target) = .ok () := by
  simp only [findBaseBlobForWrite, bind_ok_iff] at h
  obtain ⟨k, hk, u, hu, h⟩ := h
  refine ⟨Store.mem_containerKeys_of_assert hk, ?_⟩
  split at h <;> simp_all

/-! ### Service and container operations -/

theorem setServiceProperties_ok {p p' : ServicePropertiesModel}
    (h : setServiceProperties p s = .ok (p', s')) :
    s'.containers = s.containers ∧ s'.blobs = s.blobs ∧ s'.blocks = s.blocks := by
  unfold setServiceProperties at h
  split at h <;> cases h <;> exact ⟨rfl, rfl, rfl⟩

/-- The lease adapter accepts only a container whose lease has a state and a status. -/
theorem convertContainerModelToDbModel_ok {k : ContainerModel} {v : ContainerValues}
    (h : convertContainerModelToDbModel k = .ok v) :
    k.lease.Defined ∧ v = k.toDbModel k.lease := by
  unfold convertContainerModelToDbModel ContainerModel.leaseAdapter at h
  split at h
  · exact ⟨‹_›, (Except.ok.inj h).symm⟩
  · cases h

theorem createContainer_ok {k k' : ContainerModel} (h : createContainer k s = .ok (k', s')) :
    ∃ v, convertContainerModelToDbModel k = .ok v ∧
      s' = { s with containers := s.containers ++ [⟨v, s.nextContainerId⟩],
                    nextContainerId := s.nextContainerId + 1 } := by
  rw [createContainer, bind_ok_iff] at h
  obtain ⟨v, hv, h⟩ := h
  split at h <;> cases h
  exact ⟨v, hv, rfl⟩

theorem deleteContainer_ok {a c : String} {lac : Option LeaseAccessConditions}
    {mac : Option ModifiedAccessConditions} (h : deleteContainer rt ctx a c lac mac s = .ok s') :
    ∃ r, findContainerForWrite rt a c mac s = .ok r ∧
      Lease.validateContainerDelete ((convertDbModelToLease r.lease).observe ctx.startTime) lac =
        .ok () ∧
      s' = ({ s with containers := s.containers.filter fun r => !r.isContainer a c }
        |>.deleteBlobFromSQL (BlobRow.ofContainer a c)).deleteBlockFromSQL
          (BlockRow.ofContainer a c) := by
  simp only [deleteContainer, bind_ok_iff] at h
  obtain ⟨r, hr, u, hu, h⟩ := h
  exact ⟨r, hr, hu, (Except.ok.inj h).symm⟩

theorem setContainerMetadata_ok {a c : String} {lm : Nat} {e : String} {md : Option Metadata}
    {lac : Option LeaseAccessConditions} {mac : Option ModifiedAccessConditions}
    (h : setContainerMetadata rt ctx a c lm e md lac mac s = .ok s') :
    ∃ r, findContainerForWrite rt a c mac s = .ok r ∧
      Lease.validateContainerRead ((convertDbModelToLease r.lease).observe ctx.startTime) lac =
        .ok () ∧
      s' = s.updateContainers (ContainerRow.isContainer a c)
        fun r => { r with lastModified := lm, etag := e, metadata := md } := by
  simp only [setContainerMetadata, bind_ok_iff] at h
  obtain ⟨r, hr, u, hu, h⟩ := h
  exact ⟨r, hr, hu, (Except.ok.inj h).symm⟩

theorem setContainerACL_ok {a c : String} {acl : SetContainerAccessPolicyOptions}
    (h : setContainerACL rt ctx a c acl s = .ok s') :
    ∃ r, findContainerForWrite rt a c acl.modifiedAccessConditions s = .ok r ∧
      Lease.validateContainerRead ((convertDbModelToLease r.lease).observe ctx.startTime)
        acl.leaseAccessConditions = .ok () ∧
      s' = s.updateContainers (ContainerRow.isContainer a c)
        (fun r => { r with lastModified := acl.lastModified, etag := acl.etag,
                           containerAcl := acl.containerAcl,
                           publicAccess := acl.publicAccess <|> r.publicAccess }) ∧
      s'.containers ≠ s.containers := by
  simp only [setContainerACL, bind_ok_iff] at h
  obtain ⟨r, hr, u, hu, h⟩ := h
  split at h
  · cases h
  · exact ⟨r, hr, hu, (Except.ok.inj h).symm, (Except.ok.inj h) ▸ ‹_›⟩

theorem containerLeaseOperation_ok {a c : String} {mac : Option ModifiedAccessConditions}
    {op : Lease → Except StorageError Lease} {m : ContainerModel}
    (h : containerLeaseOperation rt ctx a c mac op s = .ok (m, s')) :
    ∃ r l, findContainerForWrite rt a c mac s = .ok r ∧
      op (r.model.lease.observe ctx.startTime) = .ok l ∧
      s' = s.updateContainers (ContainerRow.isContainer a c)
        fun r => { r with lease := some l } := by
  simp only [containerLeaseOperation, bind_ok_iff] at h
  obtain ⟨r, hr, l, hl, h⟩ := h
  cases h
  exact ⟨r, l, hr, hl, by simp⟩

/-! ### Blob operations -/

theorem createBlob_ok {blob : BlobModel} {lac : Option LeaseAccessConditions}
    {mac : Option ModifiedAccessConditions} (h : createBlob rt ctx blob lac mac s = .ok s') :
    (blob.accountName, blob.containerName) ∈ s.containerKeys ∧
    validateWriteConditions rt mac ((s.blobs.find? (BlobRow.isLiveCommitted blob.accountName
      blob.containerName blob.name blob.snapshot)).map (·.model.target)) = .ok () ∧
    ((s.blobs.find? (BlobRow.isLiveCommitted blob.accountName blob.containerName blob.name
        blob.snapshot) = none ∧ s' = s.upsertBlob (convertBlobModelToDbModel blob)) ∨
     ∃ r, s.blobs.find? (BlobRow.isLiveCommitted blob.accountName blob.containerName blob.name
        blob.snapshot) = some r ∧
      Lease.validateBlobWrite (r.model.lease.observe ctx.startTime) lac = .ok () ∧
      s' = s.upsertBlob (convertBlobModelToDbModel
        (blob.syncLease (r.model.lease.observe ctx.startTime)))) := by
  rw [createBlob, bind_ok_iff] at h
  obtain ⟨k, hk, h⟩ := h
  refine ⟨Store.mem_containerKeys_of_assert hk, ?_⟩
  cases hf : s.blobs.find? (BlobRow.isLiveCommitted blob.accountName blob.containerName blob.name
    blob.snapshot) <;> simp [hf, bind_ok_iff] at h <;> simp_all

/-- The row `createBlob` writes has a creation time and a blob type. -/
theorem createBlob_columns {blob : BlobModel} {lac : Option LeaseAccessConditions}
    {mac : Option ModifiedAccessConditions} (h : createBlob rt ctx blob lac mac s = .ok s') :
    ∃ v : BlobValues, v.creationTime.isSome ∧ v.blobType.isSome ∧ s' = s.upsertBlob v := by
  rw [createBlob, bind_ok_iff] at h
  obtain ⟨_, -, h⟩ := h
  obtain ⟨_, -, h⟩ := bind_ok_iff.1 h
  obtain ⟨_, -, h⟩ := bind_ok_iff.1 h
  dsimp only at h
  split at h <;> simp only [bind_ok_iff, pure_bind] at h
  · obtain ⟨_, -, _, -, h⟩ := h
    obtain ⟨h₁, h₂, rfl⟩ := BlobsModel.upsert_ok.1 h
    exact ⟨_, h₁, h₂, rfl⟩
  · obtain ⟨h₁, h₂, rfl⟩ := BlobsModel.upsert_ok.1 h
    exact ⟨_, h₁, h₂, rfl⟩

theorem stageBlock_ok {block : BlockModel} {lac : Option LeaseAccessConditions}
    (h : stageBlock rt ctx block lac s = .ok s') :
    (block.accountName, block.containerName) ∈ s.containerKeys ∧
    ((∃ r, s.blobs.find? (BlobRow.isLive block.accountName block.containerName block.blobName
          "") = some r ∧
        (r.isCommitted = true →
          Lease.validateBlobWrite (r.model.lease.observe ctx.startTime) lac = .ok ()) ∧
        (∀ b, firstById (s.liveBlocks block.accountName block.containerName block.blobName) =
          some b → rt.decodedLength b.blockName = rt.decodedLength block.name) ∧
        s' = s.upsertBlock block.accountName block.containerName block.blobName block.name
          block.size (some block.persistency)) ∨
     (s.blobs.find? (BlobRow.isLive block.accountName block.containerName block.blobName "") =
        none ∧
      s' = (s.upsertBlob (convertBlobModelToDbModel (stagingPlaceholder ctx block))).upsertBlock
        block.accountName block.containerName block.blobName block.name block.size
        (some block.persistency))) := by
  rw [stageBlock, bind_ok_iff] at h
  obtain ⟨k, hk, h⟩ := h
  refine ⟨Store.mem_containerKeys_of_assert hk, ?_⟩
  cases hr : s.blobs.find? (BlobRow.isLive block.accountName block.containerName block.blobName
    "") with
  | none =>
    simp only [hr] at h
    exact .inr ⟨rfl, (Except.ok.inj h).symm⟩
  | some r =>
    refine .inl ⟨r, rfl, ?_⟩
    simp only [hr] at h
    cases hc : r.isCommitted <;>
      cases hb : firstById (s.liveBlocks block.accountName block.containerName block.blobName) <;>
      simp [hc, hb, bind_ok_iff] at h <;> simp_all

/-- The committed list and creation time `commitBlockList` starts from, when its checks pass. -/
theorem commitBlockList_ok {blob : BlobModel} {blockList : List BlockListItem}
    {lac : Option LeaseAccessConditions} {mac : Option ModifiedAccessConditions}
    (h : commitBlockList rt ctx blob blockList lac mac s = .ok s') :
    (blob.accountName, blob.containerName) ∈ s.containerKeys ∧
    validateWriteConditions rt mac ((s.blobs.find? (BlobRow.isLiveCommitted blob.accountName
      blob.containerName blob.name blob.snapshot)).map (·.model.target)) = .ok () ∧
    ∃ creationTime committed selected,
      ((s.blobs.find? (BlobRow.isLiveCommitted blob.accountName blob.containerName blob.name
          blob.snapshot) = none ∧
        creationTime = blob.properties.creationTime.getD ctx.startTime ∧ committed = []) ∨
       ∃ r, s.blobs.find? (BlobRow.isLiveCommitted blob.accountName blob.containerName blob.name
          blob.snapshot) = some r ∧
        (!(mac.any (·.ifNoneMatch == some "*") && r.isCommitted)) = true ∧
        Lease.validateBlobWrite (r.model.lease.observe ctx.startTime) lac = .ok () ∧
        creationTime = r.model.properties.creationTime.getD
          (blob.properties.creationTime.getD ctx.startTime) ∧
        committed = r.model.committedBlocksInOrder.getD []) ∧
      blockList.mapM (resolveBlock committed
        ((s.liveBlocks blob.accountName blob.containerName blob.name).map
          fun b => ⟨b.blockName, b.size, b.persistency⟩)) = .ok selected ∧
      s' = (s.upsertBlob (convertBlobModelToDbModel
        (({ blob with
            committedBlocksInOrder := some selected,
            properties := { blob.properties with
              creationTime := some creationTime,
              contentLength := some ((selected.map (·.size)).foldl (· + ·) 0),
              blobType := some .blockBlob } } : BlobModel).syncLease {}))).retireBlocks
        blob.accountName blob.containerName blob.name := by
  rw [commitBlockList, bind_ok_iff] at h
  obtain ⟨k, hk, h⟩ := h
  refine ⟨Store.mem_containerKeys_of_assert hk, ?_⟩
  obtain ⟨u, hu, h⟩ := bind_ok_iff.1 h
  refine ⟨hu, ?_⟩
  cases hf : s.blobs.find? (BlobRow.isLiveCommitted blob.accountName blob.containerName blob.name
    blob.snapshot) with
  | none =>
    simp only [hf, bind_ok_iff, pure_eq_ok, exists_eq_left', BlobsModel.upsert_ok] at h
    obtain ⟨sel, hs, _, ⟨-, -, rfl⟩, rfl⟩ := h
    exact ⟨_, _, sel, .inl ⟨rfl, rfl, rfl⟩, hs, rfl⟩
  | some r =>
    simp only [hf, bind_ok_iff, exists_and_right, exists_ok_unit, ensure_ok, pure_eq_ok,
      exists_eq_left', BlobsModel.upsert_ok] at h
    obtain ⟨hn, hv, sel, hs, _, ⟨-, -, rfl⟩, rfl⟩ := h
    exact ⟨_, _, sel, .inr ⟨r, rfl, hn, hv, rfl, rfl⟩, hs, rfl⟩

theorem createSnapshot_ok {a c n : String} {lac : Option LeaseAccessConditions}
    {md : Option Metadata} {mac : Option ModifiedAccessConditions} {p : BlobProperties × String}
    (h : createSnapshot rt ctx a c n lac md mac s = .ok (p, s')) :
    (a, c) ∈ s.containerKeys ∧ ∃ r,
      s.blobs.find? (BlobRow.isLiveCommitted a c n "") = some r ∧
      Lease.validateBlobRead (r.model.lease.observe ctx.startTime) lac = .ok () ∧
      s' = s.upsertBlob (convertBlobModelToDbModel
        (({ r.model with snapshot := convertDateTimeStringMsTo7Digital (toISOString ctx.startTime),
                         metadata := md <|> r.model.metadata } : BlobModel).syncLease {})) := by
  rw [createSnapshot, bind_ok_iff] at h
  obtain ⟨k, hk, h⟩ := h
  refine ⟨Store.mem_containerKeys_of_assert hk, ?_⟩
  obtain ⟨u, -, h⟩ := bind_ok_iff.1 h
  split at h
  · cases h
  · rename_i r hr
    obtain ⟨v, hv, h⟩ := bind_ok_iff.1 h
    obtain ⟨s₁, hs₁, h⟩ := bind_ok_iff.1 h
    cases h
    obtain ⟨-, -, rfl⟩ := BlobsModel.upsert_ok.1 hs₁
    exact ⟨r, hr, by simpa using hv, rfl⟩

/-- The row `createSnapshot` writes has a creation time and a blob type. -/
theorem createSnapshot_columns {a c n : String} {lac : Option LeaseAccessConditions}
    {md : Option Metadata} {mac : Option ModifiedAccessConditions} {p : BlobProperties × String}
    (h : createSnapshot rt ctx a c n lac md mac s = .ok (p, s')) :
    ∃ v : BlobValues, v.creationTime.isSome ∧ v.blobType.isSome ∧ s' = s.upsertBlob v := by
  rw [createSnapshot, bind_ok_iff] at h
  obtain ⟨_, -, h⟩ := h
  obtain ⟨_, -, h⟩ := bind_ok_iff.1 h
  split at h
  · cases h
  · obtain ⟨_, -, h⟩ := bind_ok_iff.1 h
    obtain ⟨_, hu, h⟩ := bind_ok_iff.1 h
    cases h
    obtain ⟨h₁, h₂, rfl⟩ := BlobsModel.upsert_ok.1 hu
    exact ⟨_, h₁, h₂, rfl⟩

/-- `createSnapshot` checks its conditions as read conditions on the committed base row. -/
theorem createSnapshot_conditions {a c n : String} {lac : Option LeaseAccessConditions}
    {md : Option Metadata} {mac : Option ModifiedAccessConditions} {p : BlobProperties × String}
    (h : createSnapshot rt ctx a c n lac md mac s = .ok (p, s')) :
    validateReadConditions rt mac
      ((s.blobs.find? (BlobRow.isLiveCommitted a c n "")).map (·.model.target)) = .ok () := by
  rw [createSnapshot, bind_ok_iff] at h
  obtain ⟨k, -, h⟩ := h
  obtain ⟨u, hu, -⟩ := bind_ok_iff.1 h
  exact hu

/-- `createSnapshot` returns the request's time, rendered with seven fractional digits, as the
snapshot's id. -/
theorem createSnapshot_snapshot {a c n : String} {lac : Option LeaseAccessConditions}
    {md : Option Metadata} {mac : Option ModifiedAccessConditions} {p : BlobProperties × String}
    (h : createSnapshot rt ctx a c n lac md mac s = .ok (p, s')) :
    p.2 = convertDateTimeStringMsTo7Digital (toISOString ctx.startTime) := by
  rw [createSnapshot, bind_ok_iff] at h
  obtain ⟨k, -, h⟩ := h
  obtain ⟨u, -, h⟩ := bind_ok_iff.1 h
  split at h
  · cases h
  · obtain ⟨v, -, h⟩ := bind_ok_iff.1 h
    obtain ⟨s₁, -, h⟩ := bind_ok_iff.1 h
    cases h
    rfl

/-- The three ways `deleteBlob` can succeed: the base blob with its blocks (once no snapshot is
left, or with its snapshots), the snapshots only, or one snapshot. -/
theorem deleteBlob_ok {a c n : String} {o : BlobDeleteOptions}
    (h : deleteBlob rt ctx a c n o s = .ok s') :
    (a, c) ∈ s.containerKeys ∧
    ∃ r, s.blobs.find? (BlobRow.isLiveCommitted a c n (o.snapshot.getD "")) = some r ∧
      validateWriteConditions rt o.modifiedAccessConditions (some r.model.target) = .ok () ∧
      ((r.snapshot = "" ∧
          Lease.validateBlobWrite (r.model.lease.observe ctx.startTime)
            o.leaseAccessConditions = .ok () ∧
          ((o.deleteSnapshots ≠ some .only ∧
              s' = (s.deleteBlobFromSQL (BlobRow.ofBlob a c n)).deleteBlockFromSQL
                (BlockRow.ofBlob a c n)) ∨
           (o.deleteSnapshots = some .only ∧
              s' = s.deleteBlobFromSQL fun b => b.ofBlob a c n && decide ("" < b.snapshot)))) ∨
       (r.snapshot ≠ "" ∧ o.deleteSnapshots = none ∧
          s' = s.deleteBlobFromSQL fun b => b.ofBlob a c n && b.snapshot == r.snapshot)) := by
  rw [deleteBlob, bind_ok_iff] at h
  obtain ⟨k, hk, h⟩ := h
  refine ⟨Store.mem_containerKeys_of_assert hk, ?_⟩
  obtain ⟨u, hu, h⟩ := bind_ok_iff.1 h
  split at h
  · cases h
  · rename_i r hr
    refine ⟨r, hr, by simpa [hr] using hu, ?_⟩
    by_cases hb : r.snapshot = ""
    · have hb' : r.model.snapshot = "" := hb
      simp only [hb', beq_self_eq_true, if_true, bind_ok_iff] at h
      obtain ⟨v, hv, w, -, h⟩ := h
      refine .inl ⟨hb, by simpa using hv, ?_⟩
      rcases hd : o.deleteSnapshots with _ | _ | _ <;>
        simp only [hd, bind_ok_iff, pure_eq_ok] at h
      · obtain ⟨-, -, h⟩ := h
        exact .inl ⟨nofun, h.symm⟩
      · exact .inl ⟨nofun, h.symm⟩
      · exact .inr ⟨rfl, h.symm⟩
    · have hb' : (r.model.snapshot == "") = false := by simpa using hb
      simp only [hb', Bool.false_eq_true, if_false, bind_ok_iff] at h
      obtain ⟨v, -, h⟩ := h
      simp only [bind_ok_iff, exists_and_right, exists_ok_unit, ensure_ok, pure_eq_ok] at h
      exact .inr ⟨hb, by simpa using h.1, h.2.symm⟩

theorem setBlobHTTPHeaders_ok {a c n : String} {lac : Option LeaseAccessConditions}
    {hd : Option BlobHTTPHeaders} {mac : Option ModifiedAccessConditions} {p : BlobProperties}
    (h : setBlobHTTPHeaders rt ctx a c n lac hd mac s = .ok (p, s')) :
    ∃ r, findBaseBlobForWrite rt a c n mac s = .ok r ∧
      Lease.validateBlobWrite (r.model.lease.observe ctx.startTime) lac = .ok () ∧
      s' = s.updateBlobs (BlobRow.isLive a c n "") (·.assign (convertBlobModelToDbModel
        (let m := r.model.syncLease (r.model.lease.observe ctx.startTime)
         { m with properties := { (match hd with
            | some h => m.properties.setHTTPHeaders h
            | none => m.properties) with
              etag := ctx.newEtag, lastModified := ctx.startTime } }))) := by
  simp only [setBlobHTTPHeaders, bind_ok_iff] at h
  obtain ⟨r, hr, u, hu, s₁, hs₁, h⟩ := h
  cases h
  exact ⟨r, hr, hu, (BlobsModel.update_ok.1 hs₁).2.symm⟩

theorem setBlobMetadata_ok {a c n : String} {lac : Option LeaseAccessConditions}
    {md : Option Metadata} {mac : Option ModifiedAccessConditions} {p : BlobProperties}
    (h : setBlobMetadata rt ctx a c n lac md mac s = .ok (p, s')) :
    ∃ r, findBaseBlobForWrite rt a c n mac s = .ok r ∧
      Lease.validateBlobWrite (r.model.lease.observe ctx.startTime) lac = .ok () ∧
      s' = s.updateBlobs (BlobRow.isLive a c n "") fun r' =>
        { r' with metadata := md, lastModified := ctx.startTime, etag := ctx.newEtag,
                  lease := some (r.model.lease.observe ctx.startTime) } := by
  simp only [setBlobMetadata, bind_ok_iff] at h
  obtain ⟨r, hr, u, hu, h⟩ := h
  cases h
  exact ⟨r, hr, hu, by simp⟩

theorem setBlobTag_ok {a c n : String} {snap : Option String} {lac : Option LeaseAccessConditions}
    {tags : Option BlobTags} (mac : Option ModifiedAccessConditions)
    (h : setBlobTag ctx a c n snap lac tags mac s = .ok s') :
    (a, c) ∈ s.containerKeys ∧
    ∃ r, s.blobs.find? (BlobRow.isLiveCommitted a c n (snap.getD "")) = some r ∧
      Lease.validateBlobWrite (r.model.lease.observe ctx.startTime) lac = .ok () ∧
      s' = s.updateBlobs (BlobRow.isLive a c n (snap.getD "")) fun r' =>
        { r' with blobTags := tags, lease := some (r.model.lease.observe ctx.startTime) } := by
  rw [setBlobTag, bind_ok_iff] at h
  obtain ⟨k, hk, h⟩ := h
  refine ⟨Store.mem_containerKeys_of_assert hk, ?_⟩
  dsimp only at h
  split at h
  · cases h
  · rename_i r hr
    obtain ⟨u, hu, h⟩ := bind_ok_iff.1 h
    cases h
    exact ⟨r, hr, hu, by simp⟩

theorem setTier_ok {a c n t : String} {lac : Option LeaseAccessConditions} {code : Nat}
    (h : setTier ctx a c n t lac s = .ok (code, s')) :
    (a, c) ∈ s.containerKeys ∧
    ∃ r, s.blobs.find? (BlobRow.isLiveCommitted a c n "") = some r ∧
      Lease.validateBlobWrite (r.model.lease.observe ctx.startTime) lac = .ok () ∧
      s' = s.updateBlobs (BlobRow.isLive a c n "") fun r' =>
        { r' with accessTier := some t, accessTierInferred := some false,
                  accessTierChangeTime := some ctx.startTime } := by
  rw [setTier, bind_ok_iff] at h
  obtain ⟨k, hk, h⟩ := h
  refine ⟨Store.mem_containerKeys_of_assert hk, ?_⟩
  split at h
  · cases h
  · rename_i r hr
    obtain ⟨u, hu, h⟩ := bind_ok_iff.1 h
    simp only [ensure_bind_ok] at h
    exact ⟨r, hr, hu, (congrArg Prod.snd (Except.ok.inj h.2.2)).symm⟩

theorem blobLeaseOperation_ok {a c n : String} {mac : Option ModifiedAccessConditions}
    {op : Lease → Except StorageError Lease} {res : BlobModel × Lease}
    (h : blobLeaseOperation rt ctx a c n mac op s = .ok (res, s')) :
    ∃ r l, findBaseBlobForWrite rt a c n mac s = .ok r ∧
      op (r.model.lease.observe ctx.startTime) = .ok l ∧
      s' = s.updateBlobs (BlobRow.isLive a c n "") fun r => { r with lease := some l } := by
  simp only [blobLeaseOperation, bind_ok_iff] at h
  obtain ⟨r, hr, l, hl, h⟩ := h
  cases h
  exact ⟨r, l, hr, hl, rfl⟩

/-! ### Copy -/

/-- A destination read with `forceExist = false` is the row of the destination, committed or not,
with its lease observed now, or nothing. -/
theorem getBlobWithLeaseUpdated_dest {a c n : String} {d : Option BlobModel}
    (h : getBlobWithLeaseUpdated ctx a c n "" (some false) none s = .ok d) :
    (a, c) ∈ s.containerKeys ∧
      d = (s.blobs.find? fun r => r.accountName == a && r.containerName == c &&
        r.blobName == n && r.snapshot == "").map
          fun r => r.model.syncLease (r.model.lease.observe ctx.startTime) := by
  rw [getBlobWithLeaseUpdated, bind_ok_iff] at h
  obtain ⟨k, hk, h⟩ := h
  refine ⟨Store.mem_containerKeys_of_assert hk, ?_⟩
  cases hf : s.blobs.find? fun r => r.accountName == a && r.containerName == c &&
    r.blobName == n && r.snapshot == "" <;> simp [hf] at h <;> exact h.symm

/-- A source read with `forceExist` and `forceCommitted` is a committed row, found whatever its
`deleting`. -/
theorem getBlobWithLeaseUpdated_source {a c n snap : String} {d : Option BlobModel}
    (h : getBlobWithLeaseUpdated ctx a c n snap (some true) (some true) s = .ok d) :
    ∃ r, (s.blobs.find? fun r => r.accountName == a && r.containerName == c &&
        r.blobName == n && r.snapshot == snap) = some r ∧ r.isCommitted = true ∧
      d.map (·.target) = some r.model.target := by
  rw [getBlobWithLeaseUpdated, bind_ok_iff] at h
  obtain ⟨k, -, h⟩ := h
  cases hf : s.blobs.find? fun r => r.accountName == a && r.containerName == c &&
    r.blobName == n && r.snapshot == snap with
  | none => simp [hf] at h
  | some r =>
    have hm : r.model.isCommitted = r.isCommitted := rfl
    cases hc : r.isCommitted <;> simp [hf, bind, Except.bind, ensure, hm, hc] at h
    subst h
    exact ⟨r, rfl, hc, by split <;> rfl⟩

theorem applyCopyTier_ok {copied c : BlobModel} {tier : Option String}
    (h : applyCopyTier copied tier = .ok c) :
    ∃ t, c = { copied with properties := { copied.properties with accessTier := t } } := by
  unfold applyCopyTier at h
  split at h
  · split at h
    · split at h <;> cases h
      exact ⟨_, rfl⟩
    · split at h <;> cases h
      exact ⟨_, rfl⟩
  · cases h
    exact ⟨_, rfl⟩

/-- A copy upserts, in an existing destination container, the source's blob under the
destination's name, keeping the lease of the destination as observed now; a destination that
exists has its lease checked. -/
theorem startCopyFromURL_ok {src dst : BlobId} {cs : String} {md : Option Metadata}
    {tier : Option String} {o : StartCopyOptions} {p : BlobProperties}
    (h : startCopyFromURL rt ctx src dst cs md tier o s = .ok (p, s')) :
    (dst.account, dst.container) ∈ s.containerKeys ∧
    ∃ srcBlob destBlob tags t,
      getBlobWithLeaseUpdated ctx dst.account dst.container dst.blob "" (some false) none s =
        .ok destBlob ∧
      validateWriteConditions rt o.modifiedAccessConditions (destBlob.map (·.target)) = .ok () ∧
      (∀ d ∈ destBlob, Lease.validateBlobWrite d.lease o.leaseAccessConditions = .ok ()) ∧
      s' = s.upsertBlob (convertBlobModelToDbModel
        (let c := copiedBlob ctx srcBlob destBlob dst cs md tags
         { c with properties := { c.properties with accessTier := t } })) := by
  simp only [startCopyFromURL, bind_ok_iff] at h
  obtain ⟨sb, -, u, -, db, hdb, u', hw, u'', hl, h⟩ := h
  have hl' : ∀ d ∈ db, Lease.validateBlobWrite d.lease o.leaseAccessConditions = .ok () := by
    rintro d rfl; simpa [Option.forM] using hl
  cases sb with
  | none => cases h
  | some sb =>
    simp only [bind_ok_iff] at h
    obtain ⟨-, -, -, -, k, hk, tg, -, cp, hcp, s₁, hs₁, h⟩ := h
    obtain ⟨t, rfl⟩ := applyCopyTier_ok hcp
    cases h
    exact ⟨Store.mem_containerKeys_of_assert hk, sb, db, tg, t, hdb, hw, hl',
      (BlobsModel.upsert_ok.1 hs₁).2.2.symm⟩

/-- The row a copy writes has a creation time and a blob type. -/
theorem startCopyFromURL_columns {src dst : BlobId} {cs : String} {md : Option Metadata}
    {tier : Option String} {o : StartCopyOptions} {p : BlobProperties}
    (h : startCopyFromURL rt ctx src dst cs md tier o s = .ok (p, s')) :
    ∃ v : BlobValues, v.creationTime.isSome ∧ v.blobType.isSome ∧ s' = s.upsertBlob v := by
  simp only [startCopyFromURL, bind_ok_iff] at h
  obtain ⟨sb, -, u, -, db, -, u', -, u'', -, h⟩ := h
  cases sb with
  | none => cases h
  | some sb =>
    simp only [bind_ok_iff] at h
    obtain ⟨-, -, -, -, k, -, tg, -, cp, -, s₁, hs₁, h⟩ := h
    cases h
    obtain ⟨h₁, h₂, rfl⟩ := BlobsModel.upsert_ok.1 hs₁
    exact ⟨_, h₁, h₂, rfl⟩

/-- The source of a successful copy is a committed row that meets the source conditions. -/
theorem startCopyFromURL_source {src dst : BlobId} {cs : String} {md : Option Metadata}
    {tier : Option String} {o : StartCopyOptions} {p : BlobProperties}
    (h : startCopyFromURL rt ctx src dst cs md tier o s = .ok (p, s')) :
    ∃ r, (s.blobs.find? fun r => r.accountName == src.account &&
        r.containerName == src.container &&
        r.blobName == src.blob && r.snapshot == src.snapshot) = some r ∧ r.isCommitted = true ∧
      validateReadConditions rt (some (o.sourceModifiedAccessConditions.getD {}).toModified)
        (some r.model.target) true = .ok () := by
  simp only [startCopyFromURL, bind_ok_iff] at h
  obtain ⟨sb, hsb, u, hu, -⟩ := h
  obtain ⟨r, hr, hc, ht⟩ := getBlobWithLeaseUpdated_source hsb
  exact ⟨r, hr, hc, ht ▸ hu⟩

end Azurite
