import Azurite.Spec.BlockBlob
import Azurite.Spec.ContainerListing

/-!
# Paging through the live blocks

Extent garbage collection reads the persistency of every live block by calling
`listUncommittedBlockPersistencyChunks` with the marker `-1`, then with each returned next
marker, until none is returned (`listUncommittedBlockPersistencyChunksPages`). A call reads
`maxResults + 1` blocks above the marker by id; it treats the page as the last when fewer than
`maxResults` come back, and otherwise drops the extra block and returns the id of the last one it
keeps as the next marker.

* `listUncommittedBlockPersistencyChunksPages_eq`: with pages of at least two, the loop ends and
  returns the persistency of every live block once, by ascending id.
* With pages of one, a call that finds exactly one block drops it and then reads the last of
  none: `listUncommittedBlockPersistencyChunks_fails_at_one` on a reachable store with one
  staged block, and `listUncommittedBlockPersistencyChunksPages_one` for every store with a live
  block.
-/

namespace Azurite

/-- The blocks the `findAll` of `listUncommittedBlockPersistencyChunks` reads before its
`limit`: the live blocks above the marker, by id. -/
def chunkRows (marker : Int) (s : Store) : List BlockRow :=
  sortById (s.blocks.filter fun b => decide (marker < b.id) && b.deleting == 0)

/-- `deserializeModelValue(obj, "persistency", true)`. -/
def BlockRow.requiredPersistency (b : BlockRow) : Except StorageError ExtentChunk :=
  match b.persistency with
  | some p => .ok p
  | none => .error (.thrown ("SqlBlobMetadataStore:deserializeModelValue() error. " ++
      "persistency is required but value from database model is undefined."))

/-- The caller's loop: a call with the marker, then with each returned next marker until none
is returned, making at most `fuel` calls; the persistency of every page in order, or `none`
when the calls run out first. -/
def listUncommittedBlockPersistencyChunksPages (maxResults : Nat) (s : Store) :
    Nat → Int → Except StorageError (Option (List ExtentChunk))
  | 0, _ => .ok none
  | fuel + 1, marker => do
    let (chunks, nextMarker) ← listUncommittedBlockPersistencyChunks marker maxResults s
    match nextMarker with
    | none => pure (some chunks)
    | some m =>
      (listUncommittedBlockPersistencyChunksPages maxResults s fuel m).map
        (·.map (chunks ++ ·))

section
variable {s : Store}

/-- `listUncommittedBlockPersistencyChunks` over the blocks it reads. -/
theorem listUncommittedBlockPersistencyChunks_eq (marker : Int) (maxResults : Nat) :
    listUncommittedBlockPersistencyChunks marker maxResults s =
      let res := (chunkRows marker s).take (maxResults + 1)
      if res.length < maxResults then
        (res.mapM BlockRow.requiredPersistency).map (·, none)
      else
        match res.dropLast.getLast? with
        | none => .error (.typeError "Cannot read properties of undefined (reading 'get')")
        | some tail => (res.dropLast.mapM BlockRow.requiredPersistency).map (·, some tail.id) :=
  rfl

/-- With every persistency present, reading them does not fail. -/
theorem mapM_requiredPersistency : ∀ {l : List BlockRow}, (∀ b ∈ l, b.persistency.isSome) →
    l.mapM BlockRow.requiredPersistency = .ok (l.filterMap (·.persistency))
  | [], _ => rfl
  | b :: l, h => by
    obtain ⟨p, hp⟩ := Option.isSome_iff_exists.1 (h b (.head _))
    rw [List.mapM_cons, mapM_requiredPersistency fun x hx => h x (.tail _ hx)]
    simp [BlockRow.requiredPersistency, hp, bind, Except.bind, pure, Except.pure]

/-- The blocks a call reads are the live blocks above its marker. -/
theorem chunkRows_perm (marker : Int) : (chunkRows marker s).Perm
    (s.blocks.filter fun b => decide (marker < b.id) && b.deleting == 0) :=
  List.perm_insertionSort _ _

/-- A block a call reads lies above its marker. -/
theorem lt_of_mem_chunkRows {marker : Int} {b : BlockRow} (hb : b ∈ chunkRows marker s) :
    marker < b.id := by
  have := (List.mem_filter.1 ((chunkRows_perm marker).subset hb)).2
  simp only [Bool.and_eq_true, decide_eq_true_eq] at this
  exact this.1

/-- Ids are the auto-increment key of `Blocks`, so a call reads the blocks in strictly ascending
id order. -/
theorem chunkRows_sorted (hid : (s.blocks.map (·.id)).Nodup) (marker : Int) :
    (chunkRows marker s).Pairwise fun a b => (a.id : Int) < b.id := by
  have hle : (chunkRows marker s).Pairwise fun a b => a.id ≤ b.id :=
    @List.sorted_insertionSort BlockRow (fun a b => a.id ≤ b.id) _ ⟨fun _ _ => le_total _ _⟩
      ⟨fun _ _ _ => le_trans⟩ _
  have hne := ((chunkRows_perm marker).pairwise_iff Ne.symm).2
    ((List.pairwise_map.1 hid).filter _)
  exact (hle.and hne).imp fun h => Int.ofNat_lt.2 (lt_of_le_of_ne h.1 h.2)

/-- The next call reads the blocks the last one read past the marker it returned. -/
theorem chunkRows_next (hid : (s.blocks.map (·.id)).Nodup) {marker : Int} {i : Nat}
    (hi : i < (chunkRows marker s).length) :
    chunkRows ((chunkRows marker s)[i].id : Int) s = (chunkRows marker s).drop (i + 1) := by
  have hs := chunkRows_sorted hid
  have hx := lt_of_mem_chunkRows (List.getElem_mem hi)
  haveI : IsAntisymm BlockRow fun a b => (a.id : Int) < b.id :=
    ⟨fun _ _ h h' => absurd (h.trans h') (lt_irrefl _)⟩
  refine List.eq_of_perm_of_sorted ?_ (hs _) ((hs marker).sublist (List.drop_sublist _ _))
  rw [drop_eq_filter_of_pairwise_lt (fun b => (b.id : Int)) (hs marker) hi]
  refine (chunkRows_perm _).trans (.trans ?_ ((chunkRows_perm marker).filter _).symm)
  rw [List.filter_filter]
  exact .of_eq (List.filter_congr fun b _ => by
    by_cases h : ((chunkRows marker s)[i].id : Int) < b.id
    · simp [h, hx.trans h]
    · simp [h])


/-- A block a call reads is a live block of the table. -/
theorem mem_of_mem_chunkRows {marker : Int} {b : BlockRow} (hb : b ∈ chunkRows marker s) :
    b ∈ s.blocks ∧ b.deleting = 0 := by
  have := List.mem_filter.1 ((chunkRows_perm marker).subset hb)
  simp only [Bool.and_eq_true, beq_iff_eq] at this
  exact ⟨this.1, this.2.2⟩

/-- With pages of at least two and every persistency present, a call that reads fewer than
`maxResults` blocks returns all of them and no marker; one that reads `n` of at least
`maxResults` returns the first `min maxResults (n - 1)` and the id of the last of them. -/
theorem listUncommittedBlockPersistencyChunks_page {maxResults : Nat} (hm : 2 ≤ maxResults)
    {marker : Int} (hp : ∀ b ∈ chunkRows marker s, b.persistency.isSome) :
    listUncommittedBlockPersistencyChunks marker maxResults s =
      let rows := chunkRows marker s
      let k := min maxResults (rows.length - 1)
      if rows.length < maxResults then .ok (rows.filterMap (·.persistency), none)
      else .ok ((rows.take k).filterMap (·.persistency), rows[k - 1]?.map (·.id)) := by
  rw [listUncommittedBlockPersistencyChunks_eq]
  generalize chunkRows marker s = rows at hp
  dsimp only
  by_cases h : rows.length < maxResults
  · rw [List.take_of_length_le (by omega), if_pos h, if_pos h, mapM_requiredPersistency hp]
    rfl
  · have hl : (rows.take (maxResults + 1)).length = min (maxResults + 1) rows.length :=
      List.length_take _ _
    have hdrop : (rows.take (maxResults + 1)).dropLast =
        rows.take (min maxResults (rows.length - 1)) := by
      rw [List.dropLast_eq_take, hl, List.take_take]
      congr 1
      omega
    have hlast : (rows.take (min maxResults (rows.length - 1))).getLast? =
        rows[min maxResults (rows.length - 1) - 1]? := by
      rw [List.getLast?_eq_getElem?, List.length_take, List.getElem?_take_of_lt (by omega)]
      congr 1
      omega
    rw [if_neg (by omega), if_neg h, hdrop, hlast,
      List.getElem?_eq_getElem (by omega : min maxResults (rows.length - 1) - 1 < rows.length),
      mapM_requiredPersistency fun b hb => hp b (List.mem_of_mem_take hb)]
    rfl

/-- With pages of one and every persistency present, a call that reads no block returns none,
one that reads exactly one block fails, and one that reads more returns the first. -/
theorem listUncommittedBlockPersistencyChunks_one {marker : Int}
    (hp : ∀ b ∈ chunkRows marker s, b.persistency.isSome) :
    listUncommittedBlockPersistencyChunks marker 1 s =
      match chunkRows marker s with
      | [] => .ok ([], none)
      | [_] => .error (.typeError "Cannot read properties of undefined (reading 'get')")
      | b :: _ :: _ => .ok (b.persistency.toList, some b.id) := by
  rw [listUncommittedBlockPersistencyChunks_eq]
  generalize chunkRows marker s = rows at hp
  match rows, hp with
  | [], _ => rfl
  | [_], _ => rfl
  | b :: c :: l, hp =>
    obtain ⟨p, hb⟩ := Option.isSome_iff_exists.1 (hp b (.head _))
    show ([b].mapM BlockRow.requiredPersistency).map (·, some b.id) = _
    rw [mapM_requiredPersistency (by simp [hb])]
    simp [hb, Except.map]


/-- The marker `-1` lies below every id, so the first call reads every live block. -/
theorem chunkRows_start : (chunkRows (-1) s).Perm (s.blocks.filter (·.deleting == 0)) :=
  (chunkRows_perm _).trans (.of_eq (List.filter_congr fun b _ => by
    have : (-1 : Int) < b.id := by omega
    simp [this]))

end

section
variable {s : Store} (hid : (s.blocks.map (·.id)).Nodup)
  (hp : ∀ b ∈ s.blocks, b.deleting = 0 → b.persistency.isSome)
include hid hp

/-- With pages of at least two, given more calls than blocks past the marker, the loop returns
the persistency of every block the first call reads, in its order. -/
theorem listUncommittedBlockPersistencyChunksPages_eq {maxResults : Nat} (hm : 2 ≤ maxResults) :
    ∀ (fuel : Nat) (marker : Int), (chunkRows marker s).length < fuel →
      listUncommittedBlockPersistencyChunksPages maxResults s fuel marker =
        .ok (some ((chunkRows marker s).filterMap (·.persistency)))
  | 0, _, h => absurd h (Nat.not_lt_zero _)
  | fuel + 1, marker, h => by
    rw [listUncommittedBlockPersistencyChunksPages, listUncommittedBlockPersistencyChunks_page hm
      fun b hb => hp b (mem_of_mem_chunkRows hb).1 (mem_of_mem_chunkRows hb).2]
    dsimp only
    split_ifs with hlt
    · rfl
    · have hk : min maxResults ((chunkRows marker s).length - 1) - 1 <
          (chunkRows marker s).length := by omega
      have hnext := chunkRows_next hid hk
      rw [Nat.sub_add_cancel (by omega)] at hnext
      rw [List.getElem?_eq_getElem hk, Option.map_some']
      show Except.map _ (listUncommittedBlockPersistencyChunksPages maxResults s fuel _) = _
      rw [listUncommittedBlockPersistencyChunksPages_eq hm fuel _
        (by rw [hnext, List.length_drop]; omega), hnext]
      simp only [Except.map, ← List.filterMap_append, List.take_append_drop, Option.map_some']

/-- With pages of one, a loop that still has blocks to read ends in the `TypeError` of the call
that reads the last one. -/
theorem listUncommittedBlockPersistencyChunksPages_one_fails :
    ∀ (fuel : Nat) (marker : Int), chunkRows marker s ≠ [] →
      (chunkRows marker s).length ≤ fuel →
      listUncommittedBlockPersistencyChunksPages 1 s fuel marker =
        .error (.typeError "Cannot read properties of undefined (reading 'get')")
  | 0, _, hne, h => absurd (List.length_eq_zero.1 (Nat.le_zero.1 h)) hne
  | fuel + 1, marker, hne, h => by
    have hnext := @chunkRows_next s hid marker 0
    rw [listUncommittedBlockPersistencyChunksPages, listUncommittedBlockPersistencyChunks_one
      fun b hb => hp b (mem_of_mem_chunkRows hb).1 (mem_of_mem_chunkRows hb).2]
    match hr : chunkRows marker s, hne with
    | [_], _ => rfl
    | b :: c :: l, _ =>
      simp only [hr, List.length_cons, List.getElem_cons_zero, List.drop_succ_cons,
        List.drop_zero] at hnext h
      show Except.map _ (listUncommittedBlockPersistencyChunksPages 1 s fuel b.id) = _
      rw [listUncommittedBlockPersistencyChunksPages_one_fails fuel _
        (by rw [hnext (by omega)]; exact List.cons_ne_nil _ _)
        (by rw [hnext (by omega)]; simpa using h)]
      rfl


/-- With pages of at least two, the loop from the marker `-1` ends, within one call more than
the table has blocks, and returns the persistency of every live block once, by ascending id. -/
theorem listUncommittedBlockPersistencyChunks_every_live_block {maxResults : Nat}
    (hm : 2 ≤ maxResults) :
    ∃ rows : List BlockRow, listUncommittedBlockPersistencyChunksPages maxResults s
        (s.blocks.length + 1) (-1) = .ok (some (rows.filterMap (·.persistency))) ∧
      rows.Perm (s.blocks.filter (·.deleting == 0)) ∧ rows.Pairwise (fun a b => a.id < b.id) :=
  ⟨_, listUncommittedBlockPersistencyChunksPages_eq hid hp hm _ _
      (Nat.lt_succ_of_le (chunkRows_start.length_eq ▸ (List.filter_sublist _).length_le)),
    chunkRows_start, (chunkRows_sorted hid _).imp Int.ofNat_lt.1⟩

/-- With pages of one, the loop from the marker `-1` fails with the `TypeError` on every table
with a live block. -/
theorem listUncommittedBlockPersistencyChunksPages_one
    (hlive : ∃ b ∈ s.blocks, b.deleting = 0) :
    listUncommittedBlockPersistencyChunksPages 1 s s.blocks.length (-1) =
      .error (.typeError "Cannot read properties of undefined (reading 'get')") := by
  obtain ⟨b, hb, hd⟩ := hlive
  refine listUncommittedBlockPersistencyChunksPages_one_fails hid hp _ _ (fun h0 => ?_)
    (chunkRows_start.length_eq ▸ (List.filter_sublist _).length_le)
  have := chunkRows_start.symm.subset (List.mem_filter.2 ⟨hb, by simp [hd]⟩)
  rw [h0] at this
  cases this

end

/-- On the reachable store holding one staged block, a call with pages of one drops the block it
reads and then reads the last of none; with pages of two the loop returns its persistency. -/
theorem listUncommittedBlockPersistencyChunks_fails_at_one :
    Reachable sampleRuntime stagedStore ∧
    listUncommittedBlockPersistencyChunks (-1) 1 stagedStore =
      .error (.typeError "Cannot read properties of undefined (reading 'get')") ∧
    listUncommittedBlockPersistencyChunksPages 2 stagedStore 2 (-1) =
      .ok (some [⟨"x", 0, 3⟩]) :=
  ⟨reachable_stagedStore, rfl, rfl⟩

end Azurite
