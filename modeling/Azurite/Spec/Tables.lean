import Azurite.Native.BlockOps
import Mathlib.Data.List.Nodup

/-!
# Row keys, and what the table writes do to them

Every invariant of the store is stated through the keys of its rows: a blob row's
`(accountName, containerName, blobName, snapshot)`, a block row's
`(accountName, containerName, blobName, blockName)` and a container row's
`(accountName, containerName)`. This module says once, for each table write of `Store`, which
keys it keeps, adds or removes, and what a `findOne` finds after it. The lemmas about the
operations cite these and never unfold a write.
-/

namespace Azurite

/-! ### Keys -/

/-- The unique key of a blob row, `deleting` aside. -/
def BlobValues.key (v : BlobValues) : String × String × String × String :=
  (v.accountName, v.containerName, v.blobName, v.snapshot)

/-- The container a blob row belongs to. -/
def BlobValues.containerKey (v : BlobValues) : String × String :=
  (v.accountName, v.containerName)

/-- The unique key of a container row. -/
def ContainerRow.key (r : ContainerRow) : String × String := (r.accountName, r.containerName)

/-- The unique key of a block row. -/
def BlockRow.key (b : BlockRow) : String × String × String × String :=
  (b.accountName, b.containerName, b.blobName, b.blockName)

/-- The container a block row belongs to. -/
def BlockRow.containerKey (b : BlockRow) : String × String := (b.accountName, b.containerName)

/-- The key of the base blob a block row is staged for. -/
def BlockRow.baseKey (b : BlockRow) : String × String × String × String :=
  (b.accountName, b.containerName, b.blobName, "")

/-- The keys of the container rows. -/
def Store.containerKeys (s : Store) : List (String × String) := s.containers.map (·.key)

/-- The keys of the blob rows. -/
def Store.blobKeys (s : Store) : List (String × String × String × String) := s.blobs.map (·.key)

/-- The live block row of a key, as `findOne({ where: { ..., blockName, deleting: 0 } })`. -/
def Store.liveBlock (s : Store) (k : String × String × String × String) : Option BlockRow :=
  s.blocks.find? fun b => b.key == k && b.deleting == 0

theorem ContainerRow.isContainer_eq_true {r : ContainerRow} {a c : String} :
    r.isContainer a c = true ↔ r.key = (a, c) := by
  simp [ContainerRow.isContainer, ContainerRow.key]

theorem BlockRow.ofBlob_eq_true {b : BlockRow} {a c n : String} :
    b.ofBlob a c n = true ↔ b.baseKey = (a, c, n, "") := by
  simp [BlockRow.ofBlob, BlockRow.baseKey, and_assoc]

theorem BlockRow.baseKey_eq_of_key {b : BlockRow} {a c n m : String}
    (h : b.key = (a, c, n, m)) : b.baseKey = (a, c, n, "") := by
  simp_all [BlockRow.key, BlockRow.baseKey]

theorem BlockRow.containerKey_eq_of_key {b : BlockRow} {a c n m : String}
    (h : b.key = (a, c, n, m)) : b.containerKey = (a, c) := by
  simp_all [BlockRow.key, BlockRow.containerKey]

theorem BlockRow.containerKey_eq_of_baseKey {b : BlockRow} {a c n : String}
    (h : b.baseKey = (a, c, n, "")) : b.containerKey = (a, c) := by
  simp_all [BlockRow.baseKey, BlockRow.containerKey]

/-- A `findOne` of a container row by its where clause finds a row of that key. -/
theorem Store.assertContainerExists_ok {s : Store} {a c : String} {r : ContainerRow}
    (h : s.assertContainerExists a c = .ok r) : r ∈ s.containers ∧ r.key = (a, c) := by
  unfold Store.assertContainerExists at h
  split at h <;> cases h
  rename_i hf
  exact ⟨List.mem_of_find?_eq_some hf, ContainerRow.isContainer_eq_true.1 (List.find?_some hf)⟩

theorem Store.mem_containerKeys_of_assert {s : Store} {a c : String} {r : ContainerRow}
    (h : s.assertContainerExists a c = .ok r) : (a, c) ∈ s.containerKeys := by
  obtain ⟨hr, hk⟩ := Store.assertContainerExists_ok h
  exact List.mem_map.2 ⟨r, hr, hk⟩

/-- The only error of the container check is `ContainerNotFound`. -/
theorem Store.assertContainerExists_error {s : Store} {a c : String} {e : StorageError}
    (h : s.assertContainerExists a c = .error e) : e = .containerNotFound := by
  unfold Store.assertContainerExists at h
  split at h <;> cases h
  rfl

/-! ### `findOne` through a rewrite or a delete -/

section Lists
variable {α : Type} {p q : α → Bool} {f : α → α}

/-- `find?` reads its predicate only on the list's elements. -/
theorem find?_congr_mem {l : List α} (h : ∀ x ∈ l, p x = q x) : l.find? p = l.find? q := by
  induction l with
  | nil => rfl
  | cons x l ih =>
    simp only [List.find?_cons, h x (List.mem_cons_self x l),
      ih fun y hy => h y (List.mem_cons_of_mem x hy)]

/-- `find? p` through a rewrite `f` is `find?` of what `p` says of the rewritten rows. -/
theorem find?_map_of_congr (q : α → Bool) {l : List α} (h : ∀ x ∈ l, p (f x) = q x) :
    (l.map f).find? p = (l.find? q).map f := by
  rw [List.find?_map]
  exact congrArg _ (find?_congr_mem h)

/-- A rewrite that keeps `p`'s verdict on every row and fixes the rows `p` accepts keeps what
`find? p` finds. -/
theorem find?_map_of_fixed {l : List α} (hp : ∀ x ∈ l, p (f x) = p x)
    (hf : ∀ x ∈ l, p x = true → f x = x) : (l.map f).find? p = l.find? p := by
  rw [find?_map_of_congr p hp]
  cases h : l.find? p with
  | none => rfl
  | some x => exact congrArg some (hf x (List.mem_of_find?_eq_some h) (List.find?_some h))

/-- A delete that spares every row `p` accepts keeps what `find? p` finds. -/
theorem find?_filter_of_spared {l : List α} (h : ∀ x ∈ l, p x = true → q x = true) :
    (l.filter q).find? p = l.find? p := by
  rw [List.find?_filter]
  exact find?_congr_mem fun x hx => by
    by_cases hp : p x = true <;> simp [hp, h x hx]

/-- On two orders of the same rows, `find? p` finds the same row when at most one row
satisfies `p`. -/
theorem find?_eq_of_perm {l l' : List α} (hp : l.Perm l')
    (hu : ∀ x ∈ l, ∀ y ∈ l, p x = true → p y = true → x = y) :
    l.find? p = l'.find? p := by
  cases h : l.find? p with
  | none =>
    exact (List.find?_eq_none.2 fun x hx => List.find?_eq_none.1 h x (hp.mem_iff.2 hx)).symm
  | some x =>
    have hx := List.find?_some h
    obtain ⟨y, hy⟩ := Option.isSome_iff_exists.1
      (List.find?_isSome.2 ⟨x, hp.mem_iff.1 (List.mem_of_find?_eq_some h), hx⟩)
    rw [hy, hu x (List.mem_of_find?_eq_some h) y (hp.mem_iff.2 (List.mem_of_find?_eq_some hy)) hx
      (List.find?_some hy)]

end Lists

/-! ### Blob rows -/

theorem BlobRow.isLive_eq_key (r : BlobRow) (a c n snap : String) :
    r.isLive a c n snap = (decide (r.key = (a, c, n, snap)) && r.deleting == 0) := by
  refine Bool.eq_iff_iff.2 ?_
  simp [BlobRow.isLive, BlobValues.key, and_assoc]

theorem BlobRow.isLive_eq_true {r : BlobRow} {a c n snap : String} :
    r.isLive a c n snap = true ↔ r.key = (a, c, n, snap) ∧ r.deleting = 0 := by
  simp [BlobRow.isLive_eq_key]

theorem BlobRow.isLiveCommitted_eq_true {r : BlobRow} {a c n snap : String} :
    r.isLiveCommitted a c n snap = true ↔
      (r.key = (a, c, n, snap) ∧ r.deleting = 0) ∧ r.isCommitted = true := by
  simp [BlobRow.isLiveCommitted, BlobRow.isLive_eq_true]

/-- What `findOne` on a live key finds is a row of that key. -/
theorem Store.find?_isLive {s : Store} {a c n snap : String} {r : BlobRow}
    (h : s.blobs.find? (BlobRow.isLive a c n snap) = some r) :
    r ∈ s.blobs ∧ r.key = (a, c, n, snap) :=
  ⟨List.mem_of_find?_eq_some h, (BlobRow.isLive_eq_true.1 (List.find?_some h)).1⟩

/-- What `findOne` on a live committed key finds is a committed row of that key. -/
theorem Store.find?_isLiveCommitted {s : Store} {a c n snap : String} {r : BlobRow}
    (h : s.blobs.find? (BlobRow.isLiveCommitted a c n snap) = some r) :
    r ∈ s.blobs ∧ r.key = (a, c, n, snap) ∧ r.isCommitted = true :=
  have h' := BlobRow.isLiveCommitted_eq_true.1 (List.find?_some h)
  ⟨List.mem_of_find?_eq_some h, h'.1.1, h'.2⟩

theorem Store.mem_blobKeys {s : Store} {r : BlobRow} (h : r ∈ s.blobs) : r.key ∈ s.blobKeys :=
  List.mem_map_of_mem _ h

/-- What an in-place rewrite of the rows `p` accepts keeps: each row's key and `deleting`, so
that a rewritten row is still the row of its key. -/
def KeepsKey (p : BlobRow → Bool) (f : BlobRow → BlobRow) : Prop :=
  ∀ r, p r = true → (f r).key = r.key ∧ (f r).deleting = r.deleting

section BlobRows
variable {s : Store} {v : BlobValues} {p : BlobRow → Bool} {f : BlobRow → BlobRow}

@[simp] theorem BlobRow.assign_key (r : BlobRow) (v : BlobValues) : (r.assign v).key = v.key :=
  rfl

@[simp] theorem BlobRow.assign_deleting (r : BlobRow) (v : BlobValues) :
    (r.assign v).deleting = r.deleting := rfl

@[simp] theorem Store.updateBlobs_containers : (s.updateBlobs p f).containers = s.containers :=
  rfl

@[simp] theorem Store.updateBlobs_blocks : (s.updateBlobs p f).blocks = s.blocks := rfl

@[simp] theorem Store.updateBlobs_services : (s.updateBlobs p f).services = s.services := rfl

/-- A rewrite keeps, on every row, the row's key and `deleting`. -/
private theorem keepsKey_ite (hf : KeepsKey p f) (r : BlobRow) :
    (if p r then f r else r).key = r.key ∧ (if p r then f r else r).deleting = r.deleting := by
  by_cases h : p r = true
  · simpa [h] using hf r h
  · simp [h]

/-- An in-place rewrite keeps the keys of the table. -/
theorem Store.blobKeys_updateBlobs (hf : KeepsKey p f) :
    (s.updateBlobs p f).blobKeys = s.blobKeys := by
  unfold Store.updateBlobs Store.blobKeys
  rw [List.map_map]
  exact List.map_congr_left fun r _ => (keepsKey_ite hf r).1

theorem Store.deleting_updateBlobs (hf : KeepsKey p f) (h : ∀ r ∈ s.blobs, r.deleting = 0) :
    ∀ r ∈ (s.updateBlobs p f).blobs, r.deleting = 0 := by
  simp only [Store.updateBlobs, List.mem_map]
  rintro _ ⟨r, hr, rfl⟩
  rw [(keepsKey_ite hf r).2, h r hr]

/-- After an in-place rewrite, `findOne` on a live key finds the rewrite of the row it found
before. -/
theorem Store.find?_updateBlobs (hf : KeepsKey p f) (a c n snap : String) :
    (s.updateBlobs p f).blobs.find? (BlobRow.isLive a c n snap) =
      (s.blobs.find? (BlobRow.isLive a c n snap)).map fun r => if p r then f r else r := by
  unfold Store.updateBlobs
  rw [List.find?_map]
  refine congrArg _ (find?_congr_mem fun r _ => ?_)
  simp only [Function.comp, BlobRow.isLive_eq_key, (keepsKey_ite hf r).1, (keepsKey_ite hf r).2]

/-- The rewrite the upsert's unique index makes keeps keys: the row it meets has the values'
key. -/
theorem keepsKey_assign (v : BlobValues) :
    KeepsKey (BlobRow.isLive v.accountName v.containerName v.blobName v.snapshot)
      (·.assign v) := fun _ h =>
  ⟨(BlobRow.isLive_eq_true.1 h).1.symm, rfl⟩

theorem Store.upsertBlob_of_any
    (h : s.blobs.any (BlobRow.isLive v.accountName v.containerName v.blobName v.snapshot)) :
    s.upsertBlob v = s.updateBlobs
      (BlobRow.isLive v.accountName v.containerName v.blobName v.snapshot) (·.assign v) := by
  simp [Store.upsertBlob, h, Store.updateBlobs]

theorem Store.upsertBlob_of_not_any
    (h : s.blobs.any (BlobRow.isLive v.accountName v.containerName v.blobName v.snapshot) =
      false) :
    s.upsertBlob v = { s with blobs := s.blobs ++ [⟨v, s.nextBlobId, 0⟩],
                              nextBlobId := s.nextBlobId + 1 } := by
  simp [Store.upsertBlob, h]

@[simp] theorem Store.upsertBlob_containers : (s.upsertBlob v).containers = s.containers := by
  unfold Store.upsertBlob; dsimp only; split <;> rfl

@[simp] theorem Store.upsertBlob_blocks : (s.upsertBlob v).blocks = s.blocks := by
  unfold Store.upsertBlob; dsimp only; split <;> rfl

@[simp] theorem Store.upsertBlob_services : (s.upsertBlob v).services = s.services := by
  unfold Store.upsertBlob; dsimp only; split <;> rfl

/-- An upsert keeps every key of the table and adds the values' own. -/
theorem Store.mem_blobKeys_upsertBlob {k : String × String × String × String} :
    k ∈ (s.upsertBlob v).blobKeys ↔ k ∈ s.blobKeys ∨ k = v.key := by
  cases h : s.blobs.any (BlobRow.isLive v.accountName v.containerName v.blobName v.snapshot)
  · simp [Store.upsertBlob_of_not_any h, Store.blobKeys, or_comm]
  · obtain ⟨r, hr, hl⟩ := List.any_eq_true.1 h
    have hv : v.key ∈ s.blobKeys := List.mem_map.2 ⟨r, hr, (BlobRow.isLive_eq_true.1 hl).1⟩
    rw [Store.upsertBlob_of_any h, Store.blobKeys_updateBlobs (keepsKey_assign v)]
    exact ⟨Or.inl, fun h => h.elim id (· ▸ hv)⟩

/-- An upsert writes only live rows. -/
theorem Store.deleting_upsertBlob (h : ∀ r ∈ s.blobs, r.deleting = 0) :
    ∀ r ∈ (s.upsertBlob v).blobs, r.deleting = 0 := by
  cases hv : s.blobs.any (BlobRow.isLive v.accountName v.containerName v.blobName v.snapshot)
  · simp only [Store.upsertBlob_of_not_any hv, List.mem_append, List.mem_singleton]
    rintro r (hr | rfl)
    exacts [h r hr, rfl]
  · rw [Store.upsertBlob_of_any hv]
    exact Store.deleting_updateBlobs (keepsKey_assign v) h

/-- While every row is live, an upsert keeps the blob keys unique. -/
theorem Store.blobKeys_nodup_upsertBlob (hl : ∀ r ∈ s.blobs, r.deleting = 0)
    (hn : s.blobKeys.Nodup) : (s.upsertBlob v).blobKeys.Nodup := by
  cases h : s.blobs.any (BlobRow.isLive v.accountName v.containerName v.blobName v.snapshot)
  · simp only [Store.upsertBlob_of_not_any h, Store.blobKeys, List.map_append,
      List.map_singleton]
    refine hn.append (List.nodup_singleton _) ?_
    rw [List.disjoint_singleton]
    intro hk
    obtain ⟨r, hr, hk⟩ := List.mem_map.1 hk
    have := List.any_eq_false.1 h r hr
    rw [BlobRow.isLive_eq_true, hk] at this
    exact this ⟨rfl, hl r hr⟩
  · rw [Store.upsertBlob_of_any h, Store.blobKeys_updateBlobs (keepsKey_assign v)]
    exact hn

/-- After an upsert, `findOne` on the values' own key finds the values, with the `blobType` of
the row they met when they leave it `undefined`. -/
theorem Store.find?_upsertBlob_self :
    ∃ r, (s.upsertBlob v).blobs.find?
        (BlobRow.isLive v.accountName v.containerName v.blobName v.snapshot) = some r ∧
      r.toBlobValues = { v with blobType := v.blobType <|> ((s.blobs.find?
        (BlobRow.isLive v.accountName v.containerName v.blobName v.snapshot)).bind
          (·.blobType)) } ∧ r.deleting = 0 := by
  cases h : s.blobs.any (BlobRow.isLive v.accountName v.containerName v.blobName v.snapshot)
  · have hn : s.blobs.find? (BlobRow.isLive v.accountName v.containerName v.blobName
        v.snapshot) = none :=
      List.find?_eq_none.2 fun x hx => by simp [List.any_eq_false.1 h x hx]
    refine ⟨{ toBlobValues := v, blobId := s.nextBlobId, deleting := 0 }, ?_, by simp [hn], rfl⟩
    rw [Store.upsertBlob_of_not_any h, List.find?_append, hn]
    simp [BlobRow.isLive]
  · obtain ⟨r, hr⟩ := Option.isSome_iff_exists.1 (List.find?_isSome.2 (List.any_eq_true.1 h))
    have hl := List.find?_some hr
    refine ⟨r.assign v, ?_, by simp [hr, BlobRow.assign], (BlobRow.isLive_eq_true.1 hl).2⟩
    rw [Store.upsertBlob_of_any h, Store.find?_updateBlobs (keepsKey_assign v), hr]
    simp [hl]

/-- After an upsert, `findOne` on any other live key finds what it found before. -/
theorem Store.find?_upsertBlob_other {a c n snap : String} (hk : (a, c, n, snap) ≠ v.key) :
    (s.upsertBlob v).blobs.find? (BlobRow.isLive a c n snap) =
      s.blobs.find? (BlobRow.isLive a c n snap) := by
  cases h : s.blobs.any (BlobRow.isLive v.accountName v.containerName v.blobName v.snapshot)
  · have hn : (⟨v, s.nextBlobId, 0⟩ : BlobRow).isLive a c n snap = false := by
      rw [BlobRow.isLive_eq_key, show (⟨v, s.nextBlobId, 0⟩ : BlobRow).key = v.key from rfl]
      simp [Ne.symm hk]
    rw [Store.upsertBlob_of_not_any h, List.find?_append]
    simp [hn]
  · rw [Store.upsertBlob_of_any h, Store.find?_updateBlobs (keepsKey_assign v)]
    cases hf : s.blobs.find? (BlobRow.isLive a c n snap) with
    | none => rfl
    | some r =>
      have hr : r.isLive v.accountName v.containerName v.blobName v.snapshot = false := by
        rw [BlobRow.isLive_eq_key, (BlobRow.isLive_eq_true.1 (List.find?_some hf)).1]
        simp [show (a, c, n, snap) ≠ (v.accountName, v.containerName, v.blobName, v.snapshot)
          from hk]
      simp [hr]

/-- The two destroys of a blob deletion touch different tables. -/
theorem Store.deleteBlockFromSQL_deleteBlobFromSQL {p : BlobRow → Bool} {q : BlockRow → Bool} :
    (s.deleteBlobFromSQL p).deleteBlockFromSQL q = (s.deleteBlockFromSQL q).deleteBlobFromSQL p :=
  rfl

/-- Deleting rows that a `findOne` never accepts leaves it alone. -/
theorem Store.find?_deleteBlobFromSQL {q : BlobRow → Bool}
    (h : ∀ r ∈ s.blobs, q r = true → p r = false) :
    (s.deleteBlobFromSQL p).blobs.find? q = s.blobs.find? q :=
  find?_filter_of_spared fun r hr hq => by simp [h r hr hq]

end BlobRows

/-! ### Container rows -/

section ContainerRows
variable {s : Store} {p : ContainerRow → Bool} {f : ContainerRow → ContainerRow}

@[simp] theorem Store.updateContainers_blobs : (s.updateContainers p f).blobs = s.blobs := rfl

@[simp] theorem Store.updateContainers_blocks : (s.updateContainers p f).blocks = s.blocks := rfl

/-- An in-place rewrite that keeps each row's key keeps the keys of the table. -/
theorem Store.containerKeys_updateContainers (hf : ∀ r, p r = true → (f r).key = r.key) :
    (s.updateContainers p f).containerKeys = s.containerKeys := by
  unfold Store.updateContainers Store.containerKeys
  rw [List.map_map]
  exact List.map_congr_left fun r _ => by by_cases h : p r = true <;> simp [h, hf]

end ContainerRows

/-! ### Block rows -/

theorem BlockRow.isLiveKey_eq_true {b : BlockRow} {k : String × String × String × String} :
    (b.key == k && b.deleting == 0) = true ↔ b.key = k ∧ b.deleting = 0 := by
  simp

section BlockRows
variable {s : Store} {a c n m : String} {size : Nat} {persistency : Option ExtentChunk}

/-- The unique index of `Blocks` as the upsert tests it. -/
private theorem upsertBlockKey_eq_true {b : BlockRow} :
    (b.ofBlob a c n && b.blockName == m) = true ↔ b.key = (a, c, n, m) := by
  simp [BlockRow.ofBlob, BlockRow.key, and_assoc]

/-- The row a block upsert makes of the row of its key. -/
def BlockRow.restage (b : BlockRow) (size : Nat) (persistency : Option ExtentChunk) : BlockRow :=
  { b with size, deleting := 0, persistency := persistency <|> b.persistency }

@[simp] theorem BlockRow.restage_key (b : BlockRow) : (b.restage size persistency).key = b.key :=
  rfl

@[simp] theorem BlockRow.restage_deleting (b : BlockRow) :
    (b.restage size persistency).deleting = 0 := rfl

@[simp] theorem BlockRow.restage_size (b : BlockRow) : (b.restage size persistency).size = size :=
  rfl

/-- A block upsert on a key that has a row rewrites the rows of that key. -/
theorem Store.upsertBlock_of_mem (h : ∃ b ∈ s.blocks, b.key = (a, c, n, m)) :
    s.upsertBlock a c n m size persistency =
      { s with blocks := s.blocks.map fun b =>
                 if b.key = (a, c, n, m) then b.restage size persistency else b } := by
  obtain ⟨b, hb, hk⟩ := h
  have hany : (s.blocks.any fun r => r.ofBlob a c n && r.blockName == m) = true :=
    List.any_eq_true.2 ⟨b, hb, upsertBlockKey_eq_true.2 hk⟩
  simp only [Store.upsertBlock, hany, if_true, upsertBlockKey_eq_true]
  rfl

/-- A block upsert on a new key appends its row. -/
theorem Store.upsertBlock_of_not_mem (h : ∀ b ∈ s.blocks, b.key ≠ (a, c, n, m)) :
    s.upsertBlock a c n m size persistency = { s with
      blocks := s.blocks ++ [⟨s.nextBlockId, a, c, n, m, 0, size, persistency⟩],
      nextBlockId := s.nextBlockId + 1 } := by
  have hany : (s.blocks.any fun r => r.ofBlob a c n && r.blockName == m) = false :=
    List.any_eq_false.2 fun b hb hk => h b hb (upsertBlockKey_eq_true.1 hk)
  simp only [Store.upsertBlock, hany]
  rfl

/-- The two cases of a block upsert. -/
private theorem upsertBlock_cases (P : Store → Prop)
    (hmem : (∃ b ∈ s.blocks, b.key = (a, c, n, m)) →
      P { s with blocks := s.blocks.map fun b =>
                   if b.key = (a, c, n, m) then b.restage size persistency else b })
    (hnew : (∀ b ∈ s.blocks, b.key ≠ (a, c, n, m)) → P { s with
      blocks := s.blocks ++ [⟨s.nextBlockId, a, c, n, m, 0, size, persistency⟩],
      nextBlockId := s.nextBlockId + 1 }) :
    P (s.upsertBlock a c n m size persistency) := by
  by_cases h : ∃ b ∈ s.blocks, b.key = (a, c, n, m)
  · rw [Store.upsertBlock_of_mem h]; exact hmem h
  · push_neg at h; rw [Store.upsertBlock_of_not_mem h]; exact hnew h

@[simp] theorem Store.upsertBlock_blobs :
    (s.upsertBlock a c n m size persistency).blobs = s.blobs :=
  upsertBlock_cases (·.blobs = s.blobs) (fun _ => rfl) (fun _ => rfl)

@[simp] theorem Store.upsertBlock_containers :
    (s.upsertBlock a c n m size persistency).containers = s.containers :=
  upsertBlock_cases (·.containers = s.containers) (fun _ => rfl) (fun _ => rfl)

/-- Every row after a block upsert was there before or is the row of the staged key. -/
theorem Store.mem_upsertBlock {b : BlockRow}
    (h : b ∈ (s.upsertBlock a c n m size persistency).blocks) :
    b ∈ s.blocks ∨ b.key = (a, c, n, m) := by
  revert h
  refine upsertBlock_cases (fun s' => b ∈ s'.blocks → b ∈ s.blocks ∨ b.key = (a, c, n, m))
    (fun _ h => ?_) (fun _ h => ?_)
  · obtain ⟨b0, hb0, rfl⟩ := List.mem_map.1 h
    by_cases hk : b0.key = (a, c, n, m)
    · exact Or.inr (by simp [hk])
    · exact Or.inl (by simpa [hk] using hb0)
  · rcases List.mem_append.1 h with h | h
    · exact Or.inl h
    · exact Or.inr (by simp only [List.mem_singleton] at h; subst h; rfl)

/-- A block upsert keeps the block keys unique. -/
theorem Store.blockKeys_nodup_upsertBlock (hn : (s.blocks.map (·.key)).Nodup) :
    ((s.upsertBlock a c n m size persistency).blocks.map (·.key)).Nodup := by
  refine upsertBlock_cases (fun s' => (s'.blocks.map (·.key)).Nodup) (fun _ => ?_) (fun h => ?_)
  · dsimp only
    rw [List.map_map]
    refine (List.map_congr_left fun b _ => ?_).symm ▸ hn
    by_cases hk : b.key = (a, c, n, m) <;> simp [hk]
  · dsimp only
    simp only [List.map_append, List.map_singleton]
    refine hn.append (List.nodup_singleton _) ?_
    rw [List.disjoint_singleton]
    intro hk
    obtain ⟨b, hb, hk⟩ := List.mem_map.1 hk
    exact h b hb hk

/-- After a block upsert the staged key has a live row of the staged size: the last stage wins,
and a retired row is revived. -/
theorem Store.liveBlock_upsertBlock_self :
    ∃ b, (s.upsertBlock a c n m size persistency).liveBlock (a, c, n, m) = some b ∧
      b.size = size ∧ b.key = (a, c, n, m) := by
  refine upsertBlock_cases (fun s' => ∃ b, s'.liveBlock (a, c, n, m) = some b ∧
    b.size = size ∧ b.key = (a, c, n, m)) (fun h => ?_) (fun h => ?_)
  · obtain ⟨b, hb⟩ : ∃ b, s.blocks.find? (fun b => decide (b.key = (a, c, n, m))) = some b :=
      Option.isSome_iff_exists.1 (List.find?_isSome.2 (by simpa using h))
    have hbk : b.key = (a, c, n, m) := by simpa using List.find?_some hb
    refine ⟨b.restage size persistency, ?_, rfl, hbk⟩
    dsimp only
    unfold Store.liveBlock
    rw [find?_map_of_congr (fun x => decide (x.key = (a, c, n, m))) fun x _ => ?_, hb]
    · simp [hbk]
    · by_cases hx : x.key = (a, c, n, m) <;> simp [hx]
  · refine ⟨⟨s.nextBlockId, a, c, n, m, 0, size, persistency⟩, ?_, rfl, rfl⟩
    have hn : s.blocks.find? (fun b => b.key == (a, c, n, m) && b.deleting == 0) = none :=
      List.find?_eq_none.2 fun x hx hl => h x hx (BlockRow.isLiveKey_eq_true.1 hl).1
    unfold Store.liveBlock
    rw [List.find?_append, hn]
    simp [BlockRow.key]

/-- A block upsert leaves the live row of every other key alone. -/
theorem Store.liveBlock_upsertBlock_other {k : String × String × String × String}
    (hk : k ≠ (a, c, n, m)) :
    (s.upsertBlock a c n m size persistency).liveBlock k = s.liveBlock k := by
  refine upsertBlock_cases (fun s' => s'.liveBlock k = s.liveBlock k) (fun _ => ?_) (fun _ => ?_)
  · refine find?_map_of_fixed (fun x _ => ?_) (fun x _ hx => ?_)
    · by_cases hx : x.key = (a, c, n, m) <;> simp [hx, Ne.symm hk]
    · have : x.key ≠ (a, c, n, m) := (BlockRow.isLiveKey_eq_true.1 hx).1 ▸ hk
      simp [this]
  · dsimp only
    unfold Store.liveBlock
    rw [List.find?_append]
    simp [BlockRow.key, Ne.symm hk]

@[simp] theorem Store.retireBlocks_blobs : (s.retireBlocks a c n).blobs = s.blobs := rfl

@[simp] theorem Store.retireBlocks_containers : (s.retireBlocks a c n).containers = s.containers :=
  rfl

theorem Store.blockKeys_retireBlocks :
    (s.retireBlocks a c n).blocks.map (·.key) = s.blocks.map (·.key) := by
  unfold Store.retireBlocks
  rw [List.map_map]
  exact List.map_congr_left fun b _ => by simp only [Function.comp]; split <;> rfl

/-- A retired row was there before, and a row still live after a retire is an untouched row of
another blob. -/
theorem Store.mem_retireBlocks {b : BlockRow} (h : b ∈ (s.retireBlocks a c n).blocks) :
    ∃ b0 ∈ s.blocks, b0.key = b.key ∧
      (b.deleting = 0 → b = b0 ∧ b.ofBlob a c n = false) := by
  obtain ⟨b0, hb0, rfl⟩ := List.mem_map.1 h
  by_cases hb : b0.ofBlob a c n = true
  · refine ⟨b0, hb0, by simp [hb, BlockRow.key], fun hd => ?_⟩
    simp [hb] at hd
  · simp only [hb]
    exact ⟨b0, hb0, rfl, fun _ => ⟨rfl, by simpa using hb⟩⟩

/-- After a commit retires a blob's blocks, none of its keys has a live row. -/
theorem Store.liveBlock_retireBlocks_self :
    (s.retireBlocks a c n).liveBlock (a, c, n, m) = none := by
  refine List.find?_eq_none.2 fun b hb hl => ?_
  obtain ⟨_, -, -, hd⟩ := Store.mem_retireBlocks hb
  obtain ⟨hk, h0⟩ := BlockRow.isLiveKey_eq_true.1 hl
  have h1 := (hd h0).2
  rw [BlockRow.ofBlob_eq_true.2 (BlockRow.baseKey_eq_of_key hk)] at h1
  cases h1

/-- A retire leaves the live rows of every other blob alone. -/
theorem Store.liveBlock_retireBlocks_other {a' c' n' : String} (hk : (a', c', n') ≠ (a, c, n)) :
    (s.retireBlocks a c n).liveBlock (a', c', n', m) = s.liveBlock (a', c', n', m) := by
  refine find?_map_of_fixed (fun x _ => ?_) (fun x _ hx => ?_)
  · split
    · rename_i h
      have h1 := BlockRow.ofBlob_eq_true.1 h
      have : x.key ≠ (a', c', n', m) := fun h2 => hk (by
        simpa using (BlockRow.baseKey_eq_of_key h2).symm.trans h1)
      simp [this]
    · rfl
  · have hb := BlockRow.baseKey_eq_of_key (BlockRow.isLiveKey_eq_true.1 hx).1
    have : x.ofBlob a c n = false := Bool.eq_false_iff.2 fun h => hk (by
      simpa using hb.symm.trans (BlockRow.ofBlob_eq_true.1 h))
    simp [this]

theorem Store.mem_deleteBlockFromSQL {p : BlockRow → Bool} {b : BlockRow} :
    b ∈ (s.deleteBlockFromSQL p).blocks ↔ b ∈ s.blocks ∧ p b = false := by
  simp [Store.deleteBlockFromSQL]

/-- A delete that spares the rows of a key leaves its live row alone. -/
theorem Store.liveBlock_deleteBlockFromSQL {p : BlockRow → Bool}
    {k : String × String × String × String}
    (h : ∀ b ∈ s.blocks, b.key = k → p b = false) :
    (s.deleteBlockFromSQL p).liveBlock k = s.liveBlock k :=
  find?_filter_of_spared fun b hb hl => by simp [h b hb (BlockRow.isLiveKey_eq_true.1 hl).1]

theorem Store.mem_liveBlocks {b : BlockRow} :
    b ∈ s.liveBlocks a c n ↔
      b ∈ s.blocks ∧ b.baseKey = (a, c, n, "") ∧ b.deleting = 0 := by
  simp [Store.liveBlocks, BlockRow.isLive, BlockRow.ofBlob_eq_true]

/-- `findOne` by name among a blob's live blocks is the live row of that key. -/
theorem Store.find?_liveBlocks : (s.liveBlocks a c n).find? (·.blockName == m) =
    s.liveBlock (a, c, n, m) := by
  unfold Store.liveBlocks Store.liveBlock
  rw [List.find?_filter]
  exact find?_congr_mem fun b _ => Bool.eq_iff_iff.2 (by
    simp [BlockRow.isLive, BlockRow.ofBlob, BlockRow.key, and_assoc, and_comm, and_left_comm])

/-- While block keys are unique, a blob's live blocks have unique names, so any order of them
finds the same row by name. -/
theorem Store.find?_perm_liveBlocks {l : List BlockRow} (hn : (s.blocks.map (·.key)).Nodup)
    (hp : l.Perm (s.liveBlocks a c n)) :
    l.find? (·.blockName == m) = s.liveBlock (a, c, n, m) := by
  rw [find?_eq_of_perm hp fun x hx y hy h1 h2 => ?_, Store.find?_liveBlocks]
  have hx' := List.mem_filter.1 (hp.mem_iff.1 hx)
  have hy' := List.mem_filter.1 (hp.mem_iff.1 hy)
  refine List.inj_on_of_nodup_map hn hx'.1 hy'.1 ?_
  simp only [BlockRow.isLive, BlockRow.ofBlob, Bool.and_eq_true, beq_iff_eq] at hx' hy' h1 h2
  simp [BlockRow.key, hx'.2.1.1.1, hx'.2.1.1.2, hx'.2.1.2,
    hy'.2.1.1.1, hy'.2.1.1.2, hy'.2.1.2, h1, h2]

end BlockRows

end Azurite
