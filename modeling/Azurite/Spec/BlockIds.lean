import Azurite.Spec.Invariants

/-!
# The block ids of a blob have one decoded length

`stageBlock` rejects a block with `InvalidBlobOrBlock` when its base64-decoded id is not as long
as that of one staged block: the blob's first live block by id, and only when the blob has a row.
One comparison is enough because in every reachable store all live blocks of a blob have ids of
one decoded length (`Store.BlockIdsAligned`), and a blob without a row has no live block
(`Store.Consistent.block_base`). So `stageBlock` rejects exactly the blocks whose id length
differs from that of some live block of the blob.
-/

namespace Azurite

/-! ### `firstById` -/

theorem firstById_mem : ∀ {l : List BlockRow} {b : BlockRow}, firstById l = some b → b ∈ l
  | [], _, h => by simp [firstById] at h
  | r :: rs, b, h => by
    unfold firstById at h
    split at h
    · split at h <;> cases h
      · exact List.mem_cons_of_mem _ (firstById_mem ‹_›)
      · exact List.mem_cons_self _ _
    · cases h
      exact List.mem_cons_self _ _

theorem firstById_eq_none {l : List BlockRow} : firstById l = none ↔ l = [] := by
  cases l with
  | nil => simp [firstById]
  | cons r rs => simp only [firstById, reduceCtorEq, iff_false]; split <;> [split; skip] <;> simp

/-! ### The invariant -/

/-- All live block rows of one blob have ids of one decoded length. -/
def Store.BlockIdsAligned (rt : Runtime) (s : Store) : Prop :=
  ∀ b₁ ∈ s.blocks, ∀ b₂ ∈ s.blocks, b₁.deleting = 0 → b₂.deleting = 0 →
    b₁.baseKey = b₂.baseKey →
      rt.decodedLength b₁.blockName = rt.decodedLength b₂.blockName

section
variable {rt : Runtime} {ctx : Context} {s s' : Store}

/-- A write that makes no row live keeps the invariant. -/
theorem Store.BlockIdsAligned.mono (ha : s.BlockIdsAligned rt)
    (h : ∀ b ∈ s'.blocks, b.deleting = 0 → b ∈ s.blocks) : s'.BlockIdsAligned rt :=
  fun b₁ h₁ b₂ h₂ d₁ d₂ => ha b₁ (h b₁ h₁ d₁) b₂ (h b₂ h₂ d₂) d₁ d₂

/-- A blob without a row has no live block. -/
theorem Store.Consistent.liveBlocks_eq_nil (hc : s.Consistent) {a c n : String}
    (hr : s.blobs.find? (BlobRow.isLive a c n "") = none) : s.liveBlocks a c n = [] := by
  refine List.eq_nil_iff_forall_not_mem.2 fun b hb => ?_
  obtain ⟨hb, hbk, hd⟩ := Store.mem_liveBlocks.1 hb
  obtain ⟨r, hr', hrk⟩ := List.mem_map.1 (hc.block_base b hb hd)
  exact List.find?_eq_none.1 hr r hr'
    (BlobRow.isLive_eq_true.2 ⟨hrk.trans hbk, hc.blob_live r hr'⟩)

/-- A live block of the blob a successful `stageBlock` stages for has an id as long as the
staged one: the blob has a row, whose first live block passed the comparison. -/
private theorem stageBlock_len (hc : s.Consistent) (ha : s.BlockIdsAligned rt)
    {block : BlockModel} {lac : Option LeaseAccessConditions}
    (h : stageBlock rt ctx block lac s = .ok s') {b : BlockRow} (hb : b ∈ s.blocks)
    (hd : b.deleting = 0)
    (hk : b.baseKey = (block.accountName, block.containerName, block.blobName, "")) :
    rt.decodedLength b.blockName = rt.decodedLength block.name := by
  have hl : b ∈ s.liveBlocks block.accountName block.containerName block.blobName :=
    Store.mem_liveBlocks.2 ⟨hb, hk, hd⟩
  obtain ⟨-, ⟨r, -, -, hlen, -⟩ | ⟨hn, -⟩⟩ := stageBlock_ok h
  · obtain ⟨b₀, hf⟩ := Option.ne_none_iff_exists'.1
      (mt firstById_eq_none.1 (List.ne_nil_of_mem hl))
    obtain ⟨h₀, hk₀, hd₀⟩ := Store.mem_liveBlocks.1 (firstById_mem hf)
    rw [ha b hb b₀ h₀ hd hd₀ (hk.trans hk₀.symm), hlen b₀ hf]
  · simp [hc.liveBlocks_eq_nil hn] at hl

/-- Every successful operation keeps the invariant. -/
theorem Store.BlockIdsAligned.step (hc : s.Consistent) (ha : s.BlockIdsAligned rt) {op : Op}
    (h : op.exec rt ctx s = .ok s') : s'.BlockIdsAligned rt := by
  by_cases hs : ∃ block lac, op = .stageBlock block lac
  · obtain ⟨block, lac, rfl⟩ := hs
    have staged : ∀ b ∈ s'.blocks, b.deleting = 0 →
        b.baseKey = (block.accountName, block.containerName, block.blobName, "") →
        rt.decodedLength b.blockName = rt.decodedLength block.name := fun b hb hd hk => by
      rcases Op.exec_liveBlock h hb hd with hb | ⟨_, _, he, hbk⟩
      · exact stageBlock_len hc ha h hb hd hk
      · cases he
        simp only [BlockRow.key, Prod.mk.injEq] at hbk
        rw [hbk.2.2.2]
    intro b₁ h₁ b₂ h₂ d₁ d₂ hk
    by_cases hb : b₁.baseKey = (block.accountName, block.containerName, block.blobName, "")
    · rw [staged b₁ h₁ d₁ hb, staged b₂ h₂ d₂ (hk ▸ hb)]
    · have old : ∀ b ∈ s'.blocks, b.deleting = 0 → b.baseKey = b₁.baseKey →
          b ∈ s.blocks := fun b hb' hd hbk =>
        (Op.exec_liveBlock h hb' hd).resolve_right fun ⟨_, _, he, hkey⟩ => by
          cases he; exact hb (hbk ▸ BlockRow.baseKey_eq_of_key hkey)
      exact ha b₁ (old b₁ h₁ d₁ rfl) b₂ (old b₂ h₂ d₂ hk.symm) d₁ d₂ hk
  · exact ha.mono fun b hb hd =>
      (Op.exec_liveBlock h hb hd).resolve_right fun ⟨bl, l, he, _⟩ => hs ⟨bl, l, he⟩

/-- Every reachable store satisfies the invariant. -/
theorem Reachable.blockIdsAligned (h : Reachable rt s) : s.BlockIdsAligned rt :=
  (@Reachable.induction rt (fun s => s.Consistent ∧ s.BlockIdsAligned rt)
    ⟨Store.consistent_empty, fun _ h => by simp [Store.empty] at h⟩
    (fun _ _ _ _ hi hexec => ⟨hi.1.step hexec, hi.2.step hi.1 hexec⟩) s h).2

/-! ### Which blocks `stageBlock` rejects -/

/-- The lease check never fails with `InvalidBlobOrBlock`. -/
theorem Lease.validateBlobWrite_error {l : Lease} {lac : Option LeaseAccessConditions}
    {e : StorageError} (h : Lease.validateBlobWrite l lac = .error e) :
    e ≠ .invalidBlobOrBlock := by
  unfold Lease.validateBlobWrite Lease.validateLocked at h
  split at h
  · split at h
    · cases h; nofun
    · split at h <;> cases h; nofun
  · cases h

/-- Over a consistent store whose live blocks agree on the id length, `stageBlock` fails with
`InvalidBlobOrBlock` exactly when the container exists, the lease of a committed blob admits the
request, and some live block of the blob has an id of another decoded length. -/
theorem stageBlock_invalid_iff (hc : s.Consistent) (ha : s.BlockIdsAligned rt)
    {block : BlockModel} {lac : Option LeaseAccessConditions} :
    stageBlock rt ctx block lac s = .error .invalidBlobOrBlock ↔
      (∃ k, s.assertContainerExists block.accountName block.containerName = .ok k) ∧
      (∀ r, s.blobs.find? (BlobRow.isLive block.accountName block.containerName block.blobName
          "") = some r → r.isCommitted = true →
        Lease.validateBlobWrite (r.model.lease.observe ctx.startTime) lac = .ok ()) ∧
      ∃ b ∈ s.liveBlocks block.accountName block.containerName block.blobName,
        rt.decodedLength b.blockName ≠ rt.decodedLength block.name := by
  cases hk : s.assertContainerExists block.accountName block.containerName with
  | error e =>
    simp only [stageBlock, bind, Except.bind, hk, Store.assertContainerExists_error hk,
      Except.error.injEq, reduceCtorEq, exists_false, ne_eq, false_and]
  | ok k =>
    cases hr : s.blobs.find? (BlobRow.isLive block.accountName block.containerName
      block.blobName "") with
    | none =>
      simp only [stageBlock, bind, Except.bind, hk, hr, BlobsModel.upsert_stagingPlaceholder, pure,
        Except.pure, reduceCtorEq, Except.ok.injEq, exists_eq', IsEmpty.forall_iff, implies_true,
        hc.liveBlocks_eq_nil hr,
        List.not_mem_nil, ne_eq, false_and, exists_false, and_false]
    | some r =>
      by_cases hv : r.isCommitted = true →
          Lease.validateBlobWrite (r.model.lease.observe ctx.startTime) lac = .ok ()
      · cases hf : firstById
          (s.liveBlocks block.accountName block.containerName block.blobName) with
        | none =>
          cases hcm : r.isCommitted <;>
            simp only [stageBlock, bind, Except.bind, hk, hr, hcm, Bool.false_eq_true, ↓reduceIte,
              hv, pure, Except.pure, firstById_eq_none.1 hf, firstById, reduceCtorEq,
              Except.ok.injEq, exists_eq', Option.some.injEq, forall_eq', IsEmpty.forall_iff,
              imp_self, List.not_mem_nil, ne_eq, false_and, exists_false, and_false]
        | some b₀ =>
          obtain ⟨h₀, hk₀, hd₀⟩ := Store.mem_liveBlocks.1 (firstById_mem hf)
          have hex : (∃ b ∈ s.liveBlocks block.accountName block.containerName block.blobName,
              rt.decodedLength b.blockName ≠ rt.decodedLength block.name) ↔
              rt.decodedLength b₀.blockName ≠ rt.decodedLength block.name := by
            refine ⟨fun ⟨b, hb, hne⟩ => ?_, fun hne => ⟨b₀, firstById_mem hf, hne⟩⟩
            obtain ⟨hb, hbk, hd⟩ := Store.mem_liveBlocks.1 hb
            rwa [← ha b hb b₀ h₀ hd hd₀ (hbk.trans hk₀.symm)]
          by_cases hl : rt.decodedLength b₀.blockName = rt.decodedLength block.name <;>
            cases hcm : r.isCommitted <;>
            simp only [stageBlock, bind, Except.bind, hk, hr, hcm, Bool.false_eq_true, ↓reduceIte,
              hv, pure, Except.pure, hf, ensure, hl, beq_self_eq_true, beq_iff_eq, reduceCtorEq,
              Except.ok.injEq, exists_eq', Option.some.injEq, forall_eq', IsEmpty.forall_iff,
              imp_self, ne_eq, hex, not_true_eq_false, not_false_eq_true, and_false, and_self]
      · simp only [Classical.not_imp] at hv
        obtain ⟨hcm, hne⟩ := hv
        cases hvv : Lease.validateBlobWrite (r.model.lease.observe ctx.startTime) lac with
        | ok u => exact absurd hvv hne
        | error e =>
          simp only [stageBlock, bind, Except.bind, hk, hr, hcm, ↓reduceIte, hvv,
            Except.error.injEq, Lease.validateBlobWrite_error hvv, Except.ok.injEq, exists_eq',
            Option.some.injEq, forall_eq', reduceCtorEq, imp_false, not_true_eq_false, ne_eq,
            false_and, and_false]

/-- In every reachable store the live blocks of one blob have ids of one decoded length, and
`stageBlock`, which compares only with the first live block of a blob that has a row, rejects
with `InvalidBlobOrBlock` exactly the blocks whose id length differs from that of some live
block of the blob, once the container and lease checks pass. -/
theorem stageBlock_rejects_exactly_mismatched_ids (h : Reachable rt s) :
    (∀ b₁ ∈ s.blocks, ∀ b₂ ∈ s.blocks, b₁.deleting = 0 → b₂.deleting = 0 →
      b₁.baseKey = b₂.baseKey →
        rt.decodedLength b₁.blockName = rt.decodedLength b₂.blockName) ∧
    ∀ ctx block lac, stageBlock rt ctx block lac s = .error .invalidBlobOrBlock ↔
      (∃ k, s.assertContainerExists block.accountName block.containerName = .ok k) ∧
      (∀ r, s.blobs.find? (BlobRow.isLive block.accountName block.containerName block.blobName
          "") = some r → r.isCommitted = true →
        Lease.validateBlobWrite (r.model.lease.observe ctx.startTime) lac = .ok ()) ∧
      ∃ b ∈ s.liveBlocks block.accountName block.containerName block.blobName,
        rt.decodedLength b.blockName ≠ rt.decodedLength block.name :=
  ⟨h.blockIdsAligned, fun _ _ _ => stageBlock_invalid_iff h.consistent h.blockIdsAligned⟩

end

end Azurite
