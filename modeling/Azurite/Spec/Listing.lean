import Azurite.Spec.ReadBack
import Mathlib.Data.List.Sort

/-!
# Paging through every blob

Extent garbage collection (`iteratorExtents`) enumerates every blob by calling `listAllBlobs`
first without a marker, then with each `nextMarker` it returns, until none is returned
(`listAllBlobsPages`). The marker is the blob name of the last row of a page, and the next page
starts after it: `blobName > marker`.

* `listAllBlobsPages_terminates`: for every table and every page size of at least one the loop
  ends, within one call more than the table has rows: each next marker is the name of a selected
  row above the previous marker.
* `listAllBlobs_after_marker`: a page read after a marker holds only rows named above it. Rows
  are unique per account, container, name and snapshot, not per name, so a row named as the
  last row of a page, in another container or as a snapshot, is on no later page;
  `listAllBlobs_skips_same_name` runs the loop on two containers holding a blob `x` each.
* `listAllBlobsPages_exact`: when the rows the flags select have distinct names, each next
  marker starts the next call right after the rows already returned, so the loop lists every
  selected row once, by ascending name.
-/

namespace Azurite

/-- The caller's loop: `listAllBlobs` without a marker, then with each returned next marker
until none is returned, making at most `fuel` calls; the rows of every page in order, or `none`
when the calls run out first. -/
def listAllBlobsPages (maxResults : Nat) (includeSnapshots includeUncommittedBlobs : Option Bool)
    (s : Store) : Nat → Option String → Except StorageError (Option (List BlobModel))
  | 0, _ => .ok none
  | fuel + 1, marker => do
    let (page, nextMarker) ← listAllBlobs maxResults marker includeSnapshots
      includeUncommittedBlobs s
    match nextMarker with
    | none => pure (some page)
    | some m => (listAllBlobsPages maxResults includeSnapshots includeUncommittedBlobs s fuel
        (some m)).map (·.map (page ++ ·))

/-- Filtering by a stronger test keeps fewer elements when some element passes only the weaker. -/
theorem length_filter_lt_of_imp {α : Type} {l : List α} {p q : α → Bool}
    (h : ∀ x ∈ l, p x = true → q x = true) {y : α} (hy : y ∈ l) (hq : q y = true)
    (hp : p y = false) : (l.filter p).length < (l.filter q).length := by
  have : l.filter p = (l.filter q).filter p := by
    rw [List.filter_filter]
    exact List.filter_congr fun x hx => by cases hpx : p x <;> simp [h x hx, hpx]
  rw [this]
  exact List.length_filter_lt_length_iff_exists.2 ⟨y, List.mem_filter.2 ⟨hy, hq⟩,
    by simp [hp]⟩

section
variable {maxResults : Nat} {includeSnapshots includeUncommittedBlobs : Option Bool} {s : Store}

/-- With a page size of at least one, `listAllBlobs` never fails: a page that has a next page is
not empty. -/
theorem listAllBlobs_ok (hm : 1 ≤ maxResults) (marker : Option String) :
    ∃ page nextMarker, listAllBlobs maxResults marker includeSnapshots includeUncommittedBlobs s =
      .ok (page, nextMarker) := by
  unfold listAllBlobs
  dsimp only
  split
  · exact ⟨_, _, rfl⟩
  · rename_i hl
    split
    · exact ⟨_, _, rfl⟩
    · rename_i hn
      rw [List.getLast?_eq_none_iff, ← List.length_eq_zero, List.length_dropLast] at hn
      omega

/-- A next marker is the name of a selected row. -/
theorem listAllBlobs_next {marker : Option String} {page : List BlobModel} {m : String}
    (h : listAllBlobs maxResults marker includeSnapshots includeUncommittedBlobs s =
      .ok (page, some m)) :
    ∃ r ∈ s.blobs, listAllBlobs.accepts marker includeSnapshots includeUncommittedBlobs r ∧
      r.blobName = m := by
  unfold listAllBlobs at h
  dsimp only at h
  split at h
  · cases h
  · split at h
    · rename_i tail ht
      cases h
      have := List.mem_of_mem_take (List.dropLast_subset _ (List.mem_of_getLast?_eq_some ht))
      obtain ⟨hr, ha⟩ := List.mem_filter.1 ((List.perm_insertionSort _ _).mem_iff.1 this)
      exact ⟨tail, hr, ha, rfl⟩
    · cases h

/-- Every row of a page read after a marker is named above the marker, so a row named as the
marker is on no later page. -/
theorem listAllBlobs_after_marker {m : String} {page : List BlobModel} {next : Option String}
    (h : listAllBlobs maxResults (some m) includeSnapshots includeUncommittedBlobs s =
      .ok (page, next)) : ∀ b ∈ page, m < b.name := by
  have sel : ∀ r ∈ ((s.blobs.filter (listAllBlobs.accepts (some m) includeSnapshots
      includeUncommittedBlobs)).insertionSort (fun a b => a.blobName ≤ b.blobName)).take
      (maxResults + 1), m < r.model.name := fun r hr => by
    have ha := (List.mem_filter.1 ((List.perm_insertionSort _ _).mem_iff.1
      (List.mem_of_mem_take hr))).2
    simp only [listAllBlobs.accepts, Option.all_some, Bool.and_eq_true, decide_eq_true_eq] at ha
    exact ha.1.1.1
  unfold listAllBlobs at h
  dsimp only at h
  split at h
  · cases h
    intro b hb
    obtain ⟨r, hr, rfl⟩ := List.mem_map.1 hb
    exact sel r hr
  · split at h
    · cases h
      intro b hb
      obtain ⟨r, hr, rfl⟩ := List.mem_map.1 hb
      exact sel r (List.dropLast_subset _ hr)
    · cases h

/-- How many rows lie after a marker. -/
def Store.rowsAfter (s : Store) (marker : Option String) : Nat :=
  (s.blobs.filter fun r => marker.all (· < r.blobName)).length

/-- A next marker leaves fewer rows after it than the marker did. -/
theorem rowsAfter_next_lt {marker : Option String} {page : List BlobModel} {m : String}
    (h : listAllBlobs maxResults marker includeSnapshots includeUncommittedBlobs s =
      .ok (page, some m)) : s.rowsAfter (some m) < s.rowsAfter marker := by
  obtain ⟨r, hr, ha, rfl⟩ := listAllBlobs_next h
  have hlt : marker.all (· < r.blobName) = true := by
    simp only [listAllBlobs.accepts, Bool.and_eq_true] at ha
    exact ha.1.1.1
  refine length_filter_lt_of_imp (fun x _ hx => ?_) hr hlt (by simp)
  cases marker with
  | none => rfl
  | some k =>
    simp only [Option.all_some, decide_eq_true_eq] at hlt hx ⊢
    exact lt_trans hlt hx

/-- The loop ends within one call more than the rows after the marker. -/
theorem listAllBlobsPages_ends (hm : 1 ≤ maxResults) :
    ∀ (fuel : Nat) (marker : Option String), s.rowsAfter marker < fuel →
      ∃ rows, listAllBlobsPages maxResults includeSnapshots includeUncommittedBlobs s fuel
        marker = .ok (some rows)
  | 0, _, h => absurd h (Nat.not_lt_zero _)
  | fuel + 1, marker, h => by
    obtain ⟨page, next, hl⟩ := @listAllBlobs_ok maxResults includeSnapshots
      includeUncommittedBlobs s hm marker
    cases next with
    | none => exact ⟨page, by simp [listAllBlobsPages, hl, bind, Except.bind]⟩
    | some m =>
      obtain ⟨rows, hr⟩ := listAllBlobsPages_ends hm fuel (some m)
        (Nat.lt_of_lt_of_le (rowsAfter_next_lt hl) (Nat.le_of_lt_succ h))
      exact ⟨page ++ rows, by simp [listAllBlobsPages, hl, hr, bind, Except.bind, Functor.map,
        Except.map]⟩

/-- For every table and every page size of at least one, the caller's loop, started without a
marker, ends within one call more than the table has rows. -/
theorem listAllBlobsPages_terminates (hm : 1 ≤ maxResults) :
    ∃ rows, listAllBlobsPages maxResults includeSnapshots includeUncommittedBlobs s
      (s.blobs.length + 1) none = .ok (some rows) :=
  listAllBlobsPages_ends hm _ none (by simp [Store.rowsAfter])

end

/-! ### Pages of distinct names -/

/-- In a list strictly ascending under `f`, the elements after position `i` are those above
the element at `i`. -/
theorem drop_eq_filter_of_pairwise_lt {α β : Type} [LinearOrder β] (f : α → β) :
    ∀ {l : List α} {i : Nat}, l.Pairwise (fun a b => f a < f b) → (hi : i < l.length) →
      l.drop (i + 1) = l.filter fun y => decide (f l[i] < f y)
  | a :: l, 0, hl, _ => by
    simp only [List.drop_succ_cons, List.drop_zero, List.getElem_cons_zero, List.filter_cons,
      lt_irrefl, decide_False, Bool.false_eq_true, if_false]
    exact (List.filter_eq_self.2 fun y hy => decide_eq_true (List.rel_of_pairwise_cons hl hy)).symm
  | a :: l, i + 1, hl, hi => by
    have hi : i < l.length := Nat.lt_of_succ_lt_succ hi
    have ha : ¬ f l[i] < f a := not_lt_of_gt (List.rel_of_pairwise_cons hl (List.getElem_mem _))
    simp only [List.drop_succ_cons, List.getElem_cons_succ, List.filter_cons, ha, decide_False,
      Bool.false_eq_true, if_false]
    exact drop_eq_filter_of_pairwise_lt f hl.of_cons hi

/-- A marker below `x` is below every name above `x`. -/
theorem Option.all_lt_of_lt {m : Option String} {x y : String} (hx : m.all (· < x) = true)
    (h : x < y) : m.all (· < y) = true := by
  cases m with
  | none => rfl
  | some m =>
    simp only [Option.all_some, decide_eq_true_eq] at hx ⊢
    exact hx.trans h

/-- The rows the flags of `listAllBlobs` select, before any marker. -/
def listAllBlobs.selected (includeSnapshots includeUncommittedBlobs : Option Bool) (s : Store) :
    List BlobRow :=
  s.blobs.filter (listAllBlobs.accepts none includeSnapshots includeUncommittedBlobs)

/-- The rows the `findAll` of `listAllBlobs` reads before its `limit`: those its `where` clause
accepts, by name. -/
def listAllBlobs.ordered (marker : Option String)
    (includeSnapshots includeUncommittedBlobs : Option Bool) (s : Store) : List BlobRow :=
  (s.blobs.filter (listAllBlobs.accepts marker includeSnapshots
    includeUncommittedBlobs)).insertionSort (fun a b => a.blobName ≤ b.blobName)

section
variable {maxResults : Nat} {includeSnapshots includeUncommittedBlobs : Option Bool} {s : Store}

/-- Up to the page size a call returns every row it reads and no marker; past it, the first
`maxResults` rows and the name of the last of them. -/
theorem listAllBlobs_ordered (hm : 1 ≤ maxResults) (marker : Option String) :
    listAllBlobs maxResults marker includeSnapshots includeUncommittedBlobs s =
      let rows := listAllBlobs.ordered marker includeSnapshots includeUncommittedBlobs s
      if rows.length ≤ maxResults then .ok (rows.map (·.model), none)
      else
        .ok ((rows.take maxResults).map (·.model), rows[maxResults - 1]?.map (·.blobName)) := by
  show (let blobFindResult :=
      (listAllBlobs.ordered marker includeSnapshots includeUncommittedBlobs s).take (maxResults + 1)
    if blobFindResult.length ≤ maxResults then .ok (blobFindResult.map (·.model), none)
    else match blobFindResult.dropLast.getLast? with
      | some tail => .ok (blobFindResult.dropLast.map (·.model), some tail.blobName)
      | none => .error (.typeError "Cannot read properties of undefined (reading 'get')") :
    Except StorageError (List BlobModel × Option String)) = _
  generalize listAllBlobs.ordered marker includeSnapshots includeUncommittedBlobs s = rows
  dsimp only
  by_cases h : rows.length ≤ maxResults
  · rw [if_pos (by rw [List.length_take]; omega), if_pos h, List.take_of_length_le (by omega)]
  · have hl : (rows.take (maxResults + 1)).length = maxResults + 1 := by
      rw [List.length_take]; omega
    have hlast : (rows.take (maxResults + 1)).dropLast = rows.take maxResults := by
      rw [List.dropLast_eq_take, hl, List.take_take, Nat.add_sub_cancel,
        Nat.min_eq_left (by omega)]
    rw [if_neg (by omega), if_neg h, hlast, List.getLast?_eq_getElem?, List.length_take,
      Nat.min_eq_left (by omega), List.getElem?_take_of_lt (by omega),
      List.getElem?_eq_getElem (by omega)]
    rfl

/-- A call reads the rows the flags select that lie after its marker. -/
theorem listAllBlobs.ordered_perm (marker : Option String) :
    (listAllBlobs.ordered marker includeSnapshots includeUncommittedBlobs s).Perm
      ((listAllBlobs.selected includeSnapshots includeUncommittedBlobs s).filter
        fun r => marker.all (· < r.blobName)) := by
  refine (List.perm_insertionSort _ _).trans (.of_eq ?_)
  rw [listAllBlobs.selected, List.filter_filter]
  refine List.filter_congr fun r _ => ?_
  simp only [listAllBlobs.accepts, Option.all_none, Bool.true_and]
  cases Option.all (fun m => decide (m < r.blobName)) marker <;> simp

/-- A row a call reads lies after its marker. -/
theorem listAllBlobs.all_of_mem_ordered {marker : Option String} {r : BlobRow}
    (hr : r ∈ listAllBlobs.ordered marker includeSnapshots includeUncommittedBlobs s) :
    marker.all (· < r.blobName) = true :=
  (List.mem_filter.1 ((listAllBlobs.ordered_perm marker).subset hr)).2

/-- When the rows the flags select have distinct names, a call reads them in strictly ascending
name order. -/
theorem listAllBlobs.ordered_sorted
    (hd : ((listAllBlobs.selected includeSnapshots includeUncommittedBlobs s).map
      (·.blobName)).Nodup)
    (marker : Option String) :
    (listAllBlobs.ordered marker includeSnapshots includeUncommittedBlobs s).Pairwise
      fun a b => a.blobName < b.blobName := by
  have hle : (listAllBlobs.ordered marker includeSnapshots includeUncommittedBlobs s).Pairwise
      fun a b => a.blobName ≤ b.blobName :=
    @List.sorted_insertionSort BlobRow (fun a b => a.blobName ≤ b.blobName) _
      ⟨fun _ _ => le_total _ _⟩ ⟨fun _ _ _ => le_trans⟩ _
  have hne := ((listAllBlobs.ordered_perm marker).pairwise_iff Ne.symm).2
    ((List.pairwise_map.1 hd).filter _)
  exact (hle.and hne).imp fun h => lt_of_le_of_ne h.1 h.2

/-- After a full page, the next call reads the rows the last one read past the page. -/
theorem listAllBlobs.ordered_next
    (hd : ((listAllBlobs.selected includeSnapshots includeUncommittedBlobs s).map
      (·.blobName)).Nodup)
    {marker : Option String} {i : Nat}
    (hi : i < (listAllBlobs.ordered marker includeSnapshots includeUncommittedBlobs s).length) :
    listAllBlobs.ordered
        (some (listAllBlobs.ordered marker includeSnapshots includeUncommittedBlobs s)[i].blobName)
        includeSnapshots includeUncommittedBlobs s =
      (listAllBlobs.ordered marker includeSnapshots includeUncommittedBlobs s).drop (i + 1) := by
  have hs := listAllBlobs.ordered_sorted hd
  have hx := listAllBlobs.all_of_mem_ordered (List.getElem_mem hi)
  haveI : IsAntisymm BlobRow fun a b => a.blobName < b.blobName :=
    ⟨fun _ _ h h' => absurd (h.trans h') (lt_irrefl _)⟩
  refine List.eq_of_perm_of_sorted ?_ (hs _) ((hs marker).sublist (List.drop_sublist _ _))
  rw [drop_eq_filter_of_pairwise_lt _ (hs marker) hi]
  refine (listAllBlobs.ordered_perm _).trans
    (.trans ?_ ((listAllBlobs.ordered_perm marker).filter _).symm)
  simp only [listAllBlobs.selected, List.filter_filter]
  refine .of_eq (List.filter_congr fun r _ => ?_)
  rw [Bool.eq_iff_iff]
  simp only [Option.all_some, Bool.and_eq_true, decide_eq_true_eq]
  exact ⟨fun ⟨h, ha⟩ => ⟨h, Option.all_lt_of_lt hx h, ha⟩, fun ⟨h, _, ha⟩ => ⟨h, ha⟩⟩

/-- Given more calls than rows after the marker, the loop returns every row the first call
reads, in its order. -/
theorem listAllBlobsPages_eq (hm : 1 ≤ maxResults)
    (hd : ((listAllBlobs.selected includeSnapshots includeUncommittedBlobs s).map
      (·.blobName)).Nodup) :
    ∀ (fuel : Nat) (marker : Option String),
      (listAllBlobs.ordered marker includeSnapshots includeUncommittedBlobs s).length < fuel →
      listAllBlobsPages maxResults includeSnapshots includeUncommittedBlobs s fuel marker =
        .ok (some ((listAllBlobs.ordered marker includeSnapshots includeUncommittedBlobs s).map
          (·.model)))
  | 0, _, h => absurd h (Nat.not_lt_zero _)
  | fuel + 1, marker, h => by
    rw [listAllBlobsPages, listAllBlobs_ordered hm]
    dsimp only
    split_ifs with hle
    · rfl
    · have hi : maxResults - 1 <
          (listAllBlobs.ordered marker includeSnapshots includeUncommittedBlobs s).length := by
        omega
      have hnext := listAllBlobs.ordered_next hd hi
      rw [Nat.sub_add_cancel hm] at hnext
      rw [List.getElem?_eq_getElem hi, Option.map_some']
      show Except.map _ (listAllBlobsPages maxResults includeSnapshots includeUncommittedBlobs s
        fuel _) = _
      rw [listAllBlobsPages_eq hm hd fuel _ (by rw [hnext, List.length_drop]; omega), hnext]
      simp only [Except.map, ← List.map_append, List.take_append_drop, Option.map_some']

/-- For every table and page size of at least one, when the rows the flags select have distinct
names, the caller's loop started without a marker lists each of them once, by ascending name. -/
theorem listAllBlobsPages_exact (hm : 1 ≤ maxResults)
    (hd : ((listAllBlobs.selected includeSnapshots includeUncommittedBlobs s).map
      (·.blobName)).Nodup) :
    ∃ rows : List BlobRow,
      listAllBlobsPages maxResults includeSnapshots includeUncommittedBlobs s
          (s.blobs.length + 1) none = .ok (some (rows.map (·.model))) ∧
      rows.Perm (listAllBlobs.selected includeSnapshots includeUncommittedBlobs s) ∧
      rows.Pairwise (fun a b => a.blobName < b.blobName) := by
  have hperm := @listAllBlobs.ordered_perm includeSnapshots includeUncommittedBlobs s none
  refine ⟨_, listAllBlobsPages_eq hm hd _ none ?_,
    hperm.trans (.of_eq (List.filter_eq_self.2 fun _ _ => rfl)),
    listAllBlobs.ordered_sorted hd none⟩
  rw [hperm.length_eq]
  exact Nat.lt_succ_of_le
    ((List.filter_sublist _).length_le.trans (List.filter_sublist _).length_le)

end

/-- Containers `c1` and `c2`, holding the blobs `x` and `y`. -/
def distinctNameStore : Store :=
  { containers := [sampleContainerRow "c1" 1, sampleContainerRow "c2" 2],
    blobs :=
      [⟨convertBlobModelToDbModel { sampleBlob with containerName := "c1", name := "x" }, 1, 0⟩,
        ⟨convertBlobModelToDbModel { sampleBlob with containerName := "c2", name := "y" }, 2, 0⟩],
    nextContainerId := 3, nextBlobId := 3 }

/-- With pages of one row, the loop lists `c1/x`, then `c2/y`. -/
theorem listAllBlobsPages_exact_two :
    1 ≤ 1 ∧ ((listAllBlobs.selected none none distinctNameStore).map (·.blobName)).Nodup ∧
    ∃ rows : List BlobRow,
      listAllBlobsPages 1 none none distinctNameStore (distinctNameStore.blobs.length + 1) none =
        .ok (some (rows.map (·.model))) ∧
      rows.Perm (listAllBlobs.selected none none distinctNameStore) ∧
      rows.Pairwise (fun a b => a.blobName < b.blobName) :=
  have hd : ((listAllBlobs.selected none none distinctNameStore).map (·.blobName)).Nodup := by
    simp [listAllBlobs.selected, distinctNameStore, listAllBlobs.accepts, convertBlobModelToDbModel,
      sampleBlob]
  ⟨le_rfl, hd, listAllBlobsPages_exact le_rfl hd⟩

/-! ### Rows of one name across a page boundary -/

/-- The committed blob `x` of container `c` of account `a`, as row `id`. -/
def sameNameRow (c : String) (id : Nat) : BlobRow :=
  ⟨convertBlobModelToDbModel { sampleBlob with containerName := c, name := "x" }, id, 0⟩

/-- Containers `c1` and `c2`, each holding a blob `x`. -/
def sameNameStore : Store :=
  { containers := [sampleContainerRow "c1" 1, sampleContainerRow "c2" 2],
    blobs := [sameNameRow "c1" 1, sameNameRow "c2" 2], nextContainerId := 3, nextBlobId := 3 }

/-- With pages of one row, the first page ends at `c1/x` with the marker `x`, and the next page
asks for names above `x`: the committed base blob `c2/x`, which every flag selects, is never
listed. -/
theorem listAllBlobs_skips_same_name :
    sameNameRow "c2" 2 ∈ sameNameStore.blobs ∧
    listAllBlobs.accepts none none none (sameNameRow "c2" 2) = true ∧
    listAllBlobs 1 none none none sameNameStore = .ok ([(sameNameRow "c1" 1).model], some "x") ∧
    listAllBlobs 1 (some "x") none none sameNameStore = .ok ([], none) ∧
    listAllBlobsPages 1 none none sameNameStore 3 none = .ok (some [(sameNameRow "c1" 1).model]) :=
  have first : listAllBlobs 1 none none none sameNameStore =
      .ok ([(sameNameRow "c1" 1).model], some "x") := by
    simp [listAllBlobs, listAllBlobs.accepts, sameNameStore, sameNameRow,
      convertBlobModelToDbModel, sampleBlob, List.insertionSort, List.orderedInsert]
  have second : listAllBlobs 1 (some "x") none none sameNameStore = .ok ([], none) := by
    simp [listAllBlobs, listAllBlobs.accepts, sameNameStore, sameNameRow,
      convertBlobModelToDbModel, sampleBlob]
  ⟨by simp [sameNameStore], rfl, first, second, by
    simp [listAllBlobsPages, first, second, bind, Except.bind, Functor.map, Except.map, pure,
      Except.pure]⟩

end Azurite
