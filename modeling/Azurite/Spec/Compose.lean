import Azurite.Spec.BlockBlob
import Azurite.Spec.RoundTrip

/-!
# How requests compose

Clients retry a request whose response they did not see, so the store should treat a replay of a
request that succeeded as harmless. For `stageBlock` (store.ts 1413-1505) it is:

* `stageBlock_retry`: on a reachable store, staging the same block again with the same context
  succeeds and leaves the store as the first call left it.

The second call does not run the branches the first ran. When the blob had no row, the first call
wrote the uncommitted placeholder, so the second finds a row, skips the lease (an uncommitted row
has none to check) and compares the block's decoded id length with the blob's first live block,
a comparison the first call never made. That comparison passes because every reachable store has
the ids of a blob's live blocks of one decoded length (`Store.BlockIdsAligned`), the staged block's
among them. The upsert of the block row is then idempotent (`Store.upsertBlock_idem`): its unique
key `(account, container, blob, blockName)` finds the row the first call wrote, with the same size
and persistency.

Undoing is another composition a client relies on:

* `deleteContainer_undoes_createContainer`: on a reachable store, deleting a container right
  after creating it leaves every table as it was; only the container id counter has moved on.
  `deleteContainer` (store.ts 602-665) destroys every blob and block row of the container's name,
  so this rests on the invariant that no such row outlives its container
  (`Store.Consistent.blob_container`, `Store.Consistent.block_container`).

A read right after a write is the third:

* `createBlob_read_back`: from any store, `downloadBlob` and `getBlobProperties` right after a
  `createBlob` of a committed model with a blob type return that model, with the properties its
  row keeps (`BlobProperties.stored`) and whatever lease the row holds when read. The upsert may
  overwrite an uncommitted placeholder or a committed row in place; either way the first row
  `findOne` meets on the key is the one written.
-/

namespace Azurite

section
variable {s : Store} {a c n m : String} {size : Nat} {p : ExtentChunk}

/-- A row of the staged key after an upsert already holds what the upsert writes. -/
private theorem restage_of_upsertBlock {b : BlockRow}
    (hb : b ∈ (s.upsertBlock a c n m size (some p)).blocks) (hk : b.key = (a, c, n, m)) :
    b.restage size (some p) = b := by
  by_cases h : ∃ b ∈ s.blocks, b.key = (a, c, n, m)
  · rw [Store.upsertBlock_of_mem h] at hb
    obtain ⟨b₀, -, rfl⟩ := List.mem_map.1 hb
    by_cases hb₀ : b₀.key = (a, c, n, m)
    · rw [if_pos hb₀]
      rfl
    · rw [if_neg hb₀] at hk
      exact absurd hk hb₀
  · push_neg at h
    rw [Store.upsertBlock_of_not_mem h] at hb
    rcases List.mem_append.1 hb with hb | hb
    · exact absurd hk (h b hb)
    · rw [List.mem_singleton.1 hb]
      rfl

/-- Upserting a block row twice with the same values is upserting it once. -/
theorem Store.upsertBlock_idem :
    (s.upsertBlock a c n m size (some p)).upsertBlock a c n m size (some p) =
      s.upsertBlock a c n m size (some p) := by
  obtain ⟨b, hb, -, hk⟩ := @Store.liveBlock_upsertBlock_self s a c n m size (some p)
  rw [Store.upsertBlock_of_mem ⟨b, List.mem_of_find?_eq_some hb, hk⟩]
  have hfix : ((s.upsertBlock a c n m size (some p)).blocks.map fun b =>
      if b.key = (a, c, n, m) then b.restage size (some p) else b) =
      (s.upsertBlock a c n m size (some p)).blocks := by
    refine (List.map_congr_left fun b hb => ?_).trans (List.map_id _)
    split
    · exact restage_of_upsertBlock hb ‹_›
    · rfl
  rw [hfix]

end

section
variable {rt : Runtime} {ctx : Context} {s s₁ : Store} {block : BlockModel}
  {lac : Option LeaseAccessConditions}

/-- After a successful `stageBlock`, the blob has a live row, and a committed one is the row the
blob had before. -/
private theorem stageBlock_row (h : stageBlock rt ctx block lac s = .ok s₁) :
    ∃ r, s₁.blobs.find? (BlobRow.isLive block.accountName block.containerName block.blobName "") =
      some r ∧ (r.isCommitted = true →
        s.blobs.find? (BlobRow.isLive block.accountName block.containerName block.blobName "") =
          some r) := by
  obtain ⟨-, ⟨r, hr, -, -, rfl⟩ | ⟨-, rfl⟩⟩ := stageBlock_ok h
  · exact ⟨r, by rw [Store.upsertBlock_blobs, hr], fun _ => hr⟩
  · obtain ⟨r, hr, hcm, -⟩ := @Store.find?_upsertBlob_key s block.accountName
      block.containerName block.blobName (convertBlobModelToDbModel (stagingPlaceholder ctx block))
      "" rfl
    exact ⟨r, by rw [Store.upsertBlock_blobs, hr],
      fun h => absurd ((show r.isCommitted = false from hcm).symm.trans h) Bool.false_ne_true⟩

/-- The checks a replayed `stageBlock` makes pass: the container is still there, and a committed
row is the one whose lease the first call checked. -/
private theorem stageChecks_of_stageBlock (h : stageBlock rt ctx block lac s = .ok s₁) :
    stageChecks ctx block lac s₁ := by
  obtain ⟨hk, hcase⟩ := stageBlock_ok h
  obtain ⟨r₁, hr₁, hold⟩ := stageBlock_row h
  refine ⟨?_, fun r hr hcm => ?_⟩
  · rcases hcase with ⟨-, -, -, -, rfl⟩ | ⟨-, rfl⟩ <;>
      simpa [Store.containerKeys] using hk
  · obtain rfl := Option.some.inj (hr.symm.trans hr₁)
    rcases hcase with ⟨r₀, hr₀, hl, -, -⟩ | ⟨hn, -⟩
    · obtain rfl := Option.some.inj (hr₀.symm.trans (hold hcm))
      exact hl hcm
    · simp [hold hcm] at hn

/-- On a reachable store the staged block's id fits every live block of its blob after the
call, the first by id included. -/
private theorem blockIdFits_of_stageBlock (hs : Reachable rt s)
    (h : stageBlock rt ctx block lac s = .ok s₁) : blockIdFits rt block s₁ := by
  have ha := (Reachable.step ctx (.stageBlock block lac) hs h).blockIdsAligned
  obtain ⟨-, hcase⟩ := stageBlock_ok h
  have hb₀ : ∃ b₀ ∈ s₁.blocks, b₀.key =
      (block.accountName, block.containerName, block.blobName, block.name) ∧ b₀.deleting = 0 := by
    rcases hcase with ⟨-, -, -, -, rfl⟩ | ⟨-, rfl⟩ <;>
    · obtain ⟨b₀, hf, -, hk⟩ := @Store.liveBlock_upsertBlock_self _ block.accountName
        block.containerName block.blobName block.name block.size (some block.persistency)
      have := List.find?_some hf
      simp only [Bool.and_eq_true, beq_iff_eq] at this
      exact ⟨b₀, List.mem_of_find?_eq_some hf, hk, this.2⟩
  obtain ⟨b₀, hm₀, hk₀, hd₀⟩ := hb₀
  intro b hf
  obtain ⟨hm, hk, hd⟩ := Store.mem_liveBlocks.1 (firstById_mem hf)
  rw [ha b hm b₀ hm₀ hd hd₀ (hk.trans (BlockRow.baseKey_eq_of_key hk₀).symm)]
  simp only [BlockRow.key, Prod.mk.injEq] at hk₀
  rw [hk₀.2.2.2]

/-- Replaying a successful `stageBlock` on a reachable store succeeds and changes nothing. -/
theorem stageBlock_retry (hs : Reachable rt s) (h : stageBlock rt ctx block lac s = .ok s₁) :
    stageBlock rt ctx block lac s₁ = .ok s₁ := by
  obtain ⟨s₂, h₂⟩ := stageBlock_ok_of_checks (stageChecks_of_stageBlock h)
    (blockIdFits_of_stageBlock hs h)
  obtain ⟨r, hr, -⟩ := stageBlock_row h
  obtain ⟨-, ⟨-, -, -, -, rfl⟩ | ⟨hn, -⟩⟩ := stageBlock_ok h₂
  · rw [h₂]
    obtain ⟨-, ⟨-, -, -, -, rfl⟩ | ⟨-, rfl⟩⟩ := stageBlock_ok h <;> rw [Store.upsertBlock_idem]
  · simp [hr] at hn

end

/-- Staging `BBBB` on the staged store, and replaying the request. -/
theorem stageBlock_retry_staged :
    stageBlock sampleRuntime { startTime := 0 } (sampleBlock "BBBB") none
        (stagedStore.upsertBlock "a" "c" "b" "BBBB" 3 (some ⟨"x", 0, 3⟩)) =
      .ok (stagedStore.upsertBlock "a" "c" "b" "BBBB" 3 (some ⟨"x", 0, 3⟩)) :=
  stageBlock_retry reachable_stagedStore rfl

/-! ### Creating and deleting a container -/

section
variable {rt : Runtime} {ctx : Context} {s s₁ s₂ : Store} {k k' : ContainerModel}
  {lac : Option LeaseAccessConditions} {mac : Option ModifiedAccessConditions}

/-- `createContainer` succeeds only for a name the account does not use yet. -/
private theorem createContainer_fresh (h : createContainer k s = .ok (k', s₁)) :
    (k.accountName, k.name) ∉ s.containerKeys := by
  rw [createContainer, bind_ok_iff] at h
  obtain ⟨v, -, h⟩ := h
  split at h
  · cases h
  · intro hm
    obtain ⟨r, hr, hk⟩ := List.mem_map.1 hm
    exact ‹¬_› (List.any_eq_true.2 ⟨r, hr, ContainerRow.isContainer_eq_true.2 hk⟩)

/-- Deleting a container right after creating it restores every table of a reachable store. -/
theorem deleteContainer_undoes_createContainer (hs : Reachable rt s)
    (hc : createContainer k s = .ok (k', s₁))
    (hd : deleteContainer rt ctx k.accountName k.name lac mac s₁ = .ok s₂) :
    s₂ = { s with nextContainerId := s.nextContainerId + 1 } := by
  have hi := hs.consistent
  have hfresh := createContainer_fresh hc
  obtain ⟨-, -, -, rfl⟩ := deleteContainer_ok hd
  obtain ⟨v, hv, rfl⟩ := createContainer_ok hc
  have hC : s.containers.filter (fun r => !r.isContainer k.accountName k.name) = s.containers :=
    List.filter_eq_self.2 fun r hr => by
      rw [Bool.not_eq_true', Bool.eq_false_iff]
      intro hk
      have hm : r.key ∈ s.containerKeys := List.mem_map_of_mem _ hr
      rw [ContainerRow.isContainer_eq_true.1 hk] at hm
      exact hfresh hm
  have hB : s.blobs.filter (fun r => !BlobRow.ofContainer k.accountName k.name r) = s.blobs :=
    List.filter_eq_self.2 fun r hr => by
      rw [Bool.not_eq_true', Bool.eq_false_iff]
      intro hk
      simp only [BlobRow.ofContainer, Bool.and_eq_true, beq_iff_eq] at hk
      have hm := hi.blob_container r.key (List.mem_map_of_mem _ hr)
      rw [show (r.key.1, r.key.2.1) = (k.accountName, k.name) from Prod.ext hk.1 hk.2] at hm
      exact hfresh hm
  have hK : s.blocks.filter (fun b => !BlockRow.ofContainer k.accountName k.name b) = s.blocks :=
    List.filter_eq_self.2 fun b hb => by
      rw [Bool.not_eq_true', Bool.eq_false_iff]
      intro hk
      simp only [BlockRow.ofContainer, Bool.and_eq_true, beq_iff_eq] at hk
      have hm := hi.block_container b hb
      rw [show b.containerKey = (k.accountName, k.name) from Prod.ext hk.1 hk.2] at hm
      exact hfresh hm
  have hnew : ContainerRow.isContainer k.accountName k.name ⟨v, s.nextContainerId⟩ = true := by
    simp [ContainerRow.isContainer, (convertContainerModelToDbModel_ok hv).2,
      ContainerModel.toDbModel]
  simp only [Store.deleteBlobFromSQL, Store.deleteBlockFromSQL, List.filter_append, hC, hB, hK,
    List.filter_singleton, hnew, Bool.not_true, cond_false, List.append_nil]

end

/-- Creating the container `d` next to the staged blob, and deleting it: the blob and its block
stay, and only the counter has moved. -/
theorem deleteContainer_undoes_createContainer_staged :
    ({ stagedStore with nextContainerId := 3 } : Store) =
      { stagedStore with nextContainerId := stagedStore.nextContainerId + 1 } :=
  deleteContainer_undoes_createContainer reachable_stagedStore
    (show createContainer { sampleContainer with name := "d" } stagedStore = .ok (_, _) from rfl)
    (show deleteContainer sampleRuntime { startTime := 0 } "a" "d" none none _ =
      .ok { stagedStore with nextContainerId := 3 } from rfl)

/-! ### Writing a blob and reading it back -/

/-- A model synced with its own lease is stored as the model itself. -/
theorem BlobModel.convertBlobModelToDbModel_syncLease_lease (b : BlobModel) :
    convertBlobModelToDbModel (b.syncLease b.lease) = convertBlobModelToDbModel b := rfl

/-- The properties a row keeps do not depend on the lease, which a later sync overwrites. -/
theorem BlobModel.syncLease_stored (b : BlobModel) (l l' : Lease) :
    ({ b.syncLease l with properties := (b.syncLease l).properties.stored } : BlobModel).syncLease
      l' = ({ b with properties := b.properties.stored } : BlobModel).syncLease l' :=
  rfl

/-- The first element a test finds is the first a stronger test finds, when it passes both. -/
theorem List.find?_of_find?_imp {α : Type} {p q : α → Bool} {x : α} :
    ∀ {l : List α}, l.find? p = some x → q x = true → (∀ y, q y = true → p y = true) →
      l.find? q = some x
  | [], h, _, _ => by simp at h
  | y :: l, h, hx, hqp => by
    by_cases hy : p y = true
    · rw [List.find?_cons_of_pos _ hy, Option.some.injEq] at h
      subst h
      exact List.find?_cons_of_pos _ hx
    · rw [List.find?_cons_of_neg _ hy] at h
      rw [List.find?_cons_of_neg _ fun hq => hy (hqp y hq)]
      exact List.find?_of_find?_imp h hx hqp

section
variable {rt : Runtime} {ctx : Context} {s : Store}

theorem downloadBlob_of_find {a c n snap : String} {r : BlobRow}
    (hc : (a, c) ∈ s.containerKeys)
    (h : s.blobs.find? (BlobRow.isLiveCommitted a c n snap) = some r) :
    downloadBlob rt ctx a c n snap none none s =
      .ok (r.model.syncLease (r.model.lease.observe ctx.startTime)) := by
  obtain ⟨k, hk⟩ := Store.assertContainerExists_of_mem hc
  simp [downloadBlob, hk, h, bind, Except.bind, validateReadConditions, Lease.validateBlobRead,
    Lease.validateRead, LeaseAccessConditions.id?]

/-- What `createBlob` writes, `downloadBlob` and `getBlobProperties` read back at once, from any
store: the model written, with the properties its row keeps, under the lease the row holds when
read. -/
theorem createBlob_read_back {b : BlobModel} {lac : Option LeaseAccessConditions}
    {mac : Option ModifiedAccessConditions} {s' : Store}
    (h : createBlob rt ctx b lac mac s = .ok s') (hc : b.isCommitted = true)
    (ht : b.properties.blobType.isSome = true) (ctx' : Context) :
    ∃ l : Lease,
      downloadBlob rt ctx' b.accountName b.containerName b.name b.snapshot none none s' =
        .ok (({ b with properties := b.properties.stored } : BlobModel).syncLease l) ∧
      getBlobProperties rt ctx' b.accountName b.containerName b.name b.snapshot none none s' =
        .ok (({ b with properties := b.properties.stored } : BlobModel).syncLease l) := by
  obtain ⟨hk, -, hw⟩ := createBlob_ok h
  -- the row is written with the given model, under its own lease or the one found
  obtain ⟨l₀, rfl⟩ : ∃ l₀, s' = s.upsertBlob (convertBlobModelToDbModel (b.syncLease l₀)) := by
    rcases hw with ⟨-, rfl⟩ | ⟨r, -, -, rfl⟩
    · exact ⟨b.lease, by rw [BlobModel.convertBlobModelToDbModel_syncLease_lease]⟩
    · exact ⟨_, rfl⟩
  obtain ⟨r, hr, hv, -⟩ :=
    @Store.find?_upsertBlob_self s (convertBlobModelToDbModel (b.syncLease l₀))
  obtain ⟨t, ht⟩ := Option.isSome_iff_exists.1 ht
  have hvalues : r.toBlobValues = convertBlobModelToDbModel (b.syncLease l₀) := by
    rw [hv]
    simp [convertBlobModelToDbModel, BlobModel.syncLease, ht]
  have hl : r.isLive b.accountName b.containerName b.name b.snapshot = true := List.find?_some hr
  have hfind : (s.upsertBlob (convertBlobModelToDbModel (b.syncLease l₀))).blobs.find?
      (BlobRow.isLiveCommitted b.accountName b.containerName b.name b.snapshot) = some r :=
    List.find?_of_find?_imp hr
      (by
        rw [BlobRow.isLiveCommitted, hl, Bool.true_and,
          show r.isCommitted = b.isCommitted from congrArg BlobValues.isCommitted hvalues, hc])
      fun y hy => by
        simp only [BlobRow.isLiveCommitted, Bool.and_eq_true] at hy
        exact hy.1
  have hmodel :
      r.model = { b.syncLease l₀ with properties := (b.syncLease l₀).properties.stored } := by
    rw [BlobRow.model, hvalues]
    rfl
  have hk' : (b.accountName, b.containerName) ∈
      (s.upsertBlob (convertBlobModelToDbModel (b.syncLease l₀))).containerKeys := by
    simpa [Store.containerKeys] using hk
  refine ⟨r.model.lease.observe ctx'.startTime, ?_, ?_⟩
  · rw [downloadBlob_of_find hk' hfind, hmodel, BlobModel.syncLease_stored]
  · rw [getBlobProperties_of_find hk' hfind, hmodel, BlobModel.syncLease_stored]

end

/-- Creating the committed blob `b` over its uncommitted placeholder in the staged store, and
reading it back a second later. -/
theorem createBlob_read_back_staged :
    ∃ s', createBlob sampleRuntime { startTime := 0 } sampleBlob none none stagedStore = .ok s' ∧
      ∃ l : Lease,
        downloadBlob sampleRuntime { startTime := 1000 } "a" "c" "b" "" none none s' =
          .ok (({ sampleBlob with properties := sampleBlob.properties.stored } :
            BlobModel).syncLease l) ∧
        getBlobProperties sampleRuntime { startTime := 1000 } "a" "c" "b" "" none none s' =
          .ok (({ sampleBlob with properties := sampleBlob.properties.stored } :
            BlobModel).syncLease l) :=
  have h := show createBlob sampleRuntime { startTime := 0 } sampleBlob none none stagedStore =
    .ok _ from rfl
  ⟨_, h, createBlob_read_back h rfl rfl _⟩

end Azurite
