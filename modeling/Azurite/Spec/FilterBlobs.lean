import Azurite.Spec.Listing

/-!
# Listing blobs by tags

`filterBlobs` pages through the live base blobs of an account (or of one container) in name
order with a `FilterBlobPage`, and only then keeps the blobs whose tags meet the filter. The pager
is given no filter: it fills its page with rows, not with matches. Its contract, the model of
`FilterBlobPage.fill`, is that it returns the first `maxResults` rows after the marker and the
name of the last as the next marker when more rows remain.

## Key results

- `filterBlobs_ok`: what `filterBlobs` returns once its checks pass.
- `filterBlobs_last_page`: a page without a next marker holds every selected blob whose tags
  meet the filter.
- `filterBlobs_short_page_iff`: a page holds fewer than `maxResults` blobs and still carries a
  next marker exactly when more rows than `maxResults` are selected and one of the first
  `maxResults` does not meet the filter.
- `filterBlobs_short_page_carries_marker`: on a store of two blobs of which only the second
  meets the filter, one blob per page, the first page is empty with a next marker, and the
  matching blob is on the next page.
-/

namespace Azurite

/-- The rows `filterBlobs` pages through, in name order. -/
def Store.filterRows (s : Store) (account : String) (container marker : Option String) :
    List BlobRow :=
  (s.blobs.filter (filterBlobs.whereQuery account (container.filter (· ≠ "")) marker)).insertionSort
    (fun a b => a.blobName ≤ b.blobName)

theorem length_filterMap_lt_iff {α β : Type} {g : α → Option β} {l : List α} :
    (l.filterMap g).length < l.length ↔ ∃ a ∈ l, g a = none := by
  rw [Nat.lt_iff_le_and_ne, and_iff_right (List.length_filterMap_le g l), Ne,
    List.filterMap_length_eq_length]
  simp [Option.isSome_iff_ne_none]

section
variable {f : FilterBlobModel → List BlobTag} {b : FilterBlobModel}

/-- The callback drops exactly the blobs none of whose tags meet the filter. -/
theorem filterBlobs.tagsMeet_eq_none : filterBlobs.tagsMeet f b = none ↔ f b = [] := by
  simp [filterBlobs.tagsMeet]

theorem filterBlobs.tagsMeet_of_ne_nil (h : f b ≠ []) :
    filterBlobs.tagsMeet f b = some { b with tags := some ⟨f b⟩ } := by
  simp [filterBlobs.tagsMeet, h]

end

section
variable {f : FilterBlobModel → List BlobTag} {account : String} {container marker : Option String}
  {maxResults : Nat} {s : Store} {items : List FilterBlobModel} {next : Option String}

/-- Once the container check passes, `filterBlobs` returns, of the first `maxResults` rows, those
whose tags meet the filter, and the name of the last of these rows as the next marker when more
rows follow. -/
theorem filterBlobs_ok
    (h : filterBlobs (.ok f) account container maxResults marker s = .ok (items, next)) :
    items = (((s.filterRows account container marker).take maxResults).map
      convertDbModelToFilterBlobModel).filterMap (filterBlobs.tagsMeet f) ∧
    next = if ((s.filterRows account container marker).drop maxResults).take maxResults = []
      then none
      else ((s.filterRows account container marker).take maxResults).getLast?.map (·.blobName) := by
  unfold filterBlobs at h
  simp only [bind, Except.bind, pure, Except.pure, FilterBlobPage.fill] at h
  split at h
  · split at h
    · cases h
    · cases h
      exact ⟨rfl, rfl⟩
  · cases h
    exact ⟨rfl, rfl⟩

/-- A next marker is returned exactly when more rows than `maxResults` are selected. -/
theorem filterBlobs_next_isSome (hm : 1 ≤ maxResults)
    (h : filterBlobs (.ok f) account container maxResults marker s = .ok (items, next)) :
    next.isSome ↔ maxResults < (s.filterRows account container marker).length := by
  rw [(filterBlobs_ok h).2]
  generalize s.filterRows account container marker = rows
  split
  · rename_i he
    simp only [List.take_eq_nil_iff, List.drop_eq_nil_iff] at he
    simp only [Option.isSome_none, Bool.false_eq_true, false_iff, not_lt]
    omega
  · rename_i he
    simp only [List.take_eq_nil_iff, List.drop_eq_nil_iff, not_or, not_le] at he
    simp only [Option.isSome_map', Option.isSome_iff_ne_none, ne_eq,
      List.getLast?_eq_none_iff, List.take_eq_nil_iff, not_or]
    exact iff_of_true ⟨he.1, fun h => by simp [h] at he⟩ he.2

/-- A page without a next marker holds every selected blob whose tags meet the filter. -/
theorem filterBlobs_last_page (hm : 1 ≤ maxResults)
    (h : filterBlobs (.ok f) account container maxResults marker s = .ok (items, none)) :
    items = ((s.filterRows account container marker).map
      convertDbModelToFilterBlobModel).filterMap (filterBlobs.tagsMeet f) := by
  have hle := not_lt.1 ((filterBlobs_next_isSome hm h).not.1 Bool.false_ne_true)
  rw [(filterBlobs_ok h).1, List.take_of_length_le hle]

/-- A page is short yet carries a next marker exactly when more rows than `maxResults` are
selected and one of the first `maxResults` does not meet the filter. -/
theorem filterBlobs_short_page_iff (hm : 1 ≤ maxResults)
    (h : filterBlobs (.ok f) account container maxResults marker s = .ok (items, next)) :
    (items.length < maxResults ∧ next.isSome) ↔
      maxResults < (s.filterRows account container marker).length ∧
        ∃ r ∈ (s.filterRows account container marker).take maxResults,
          f (convertDbModelToFilterBlobModel r) = [] := by
  rw [filterBlobs_next_isSome hm h, and_comm, (filterBlobs_ok h).1]
  refine and_congr_right fun hlt => ?_
  have hpage : (((s.filterRows account container marker).take maxResults).map
      convertDbModelToFilterBlobModel).length = maxResults := by
    simp only [List.length_map, List.length_take]
    omega
  have key := @length_filterMap_lt_iff _ _ (filterBlobs.tagsMeet f)
    (((s.filterRows account container marker).take maxResults).map
      convertDbModelToFilterBlobModel)
  rw [hpage] at key
  rw [key]
  simp only [List.mem_map, exists_exists_and_eq_and, filterBlobs.tagsMeet_eq_none]

end

/-! ### Sparse matches -/

/-- A committed blob of container `c` with the one tag `t = value`. -/
def taggedBlob (name value : String) : BlobModel :=
  { sampleBlob with name := name, blobTags := some ⟨[⟨"t", value⟩]⟩ }

/-- Container `c` of account `a` with the blobs `x`, tagged `t = 0`, and `y`, tagged `t = 1`. -/
def sparseTagStore : Store :=
  { containers := [sampleContainerRow "c" 1],
    blobs := [⟨convertBlobModelToDbModel (taggedBlob "x" "0"), 1, 0⟩,
      ⟨convertBlobModelToDbModel (taggedBlob "y" "1"), 2, 0⟩],
    nextContainerId := 2, nextBlobId := 3 }

theorem reachable_sparseTagStore : Reachable sampleRuntime sparseTagStore :=
  .step { startTime := 0 } (.createBlob (taggedBlob "y" "1") none none)
    (.step { startTime := 0 } (.createBlob (taggedBlob "x" "0") none none)
      (.step { startTime := 0 } (.createContainer sampleContainer) .empty rfl) rfl) rfl

/-- For every filter that `y`'s tags meet and `x`'s do not, one blob per page: the first page is
empty yet carries the next marker `x`, and `y` is on the page after it. -/
theorem filterBlobs_short_page_carries_marker (f : FilterBlobModel → List BlobTag)
    (hx : f ⟨"c", "x", some ⟨[⟨"t", "0"⟩]⟩⟩ = []) (hy : f ⟨"c", "y", some ⟨[⟨"t", "1"⟩]⟩⟩ ≠ []) :
    Reachable sampleRuntime sparseTagStore ∧
      filterBlobs (.ok f) "a" (some "c") 1 none sparseTagStore = .ok ([], some "x") ∧
      filterBlobs (.ok f) "a" (some "c") 1 (some "x") sparseTagStore =
        .ok ([⟨"c", "y", some ⟨f ⟨"c", "y", some ⟨[⟨"t", "1"⟩]⟩⟩⟩⟩], none) := by
  refine ⟨reachable_sparseTagStore, ?_, ?_⟩ <;>
    simp +decide [filterBlobs, FilterBlobPage.fill, filterBlobs.whereQuery, filterBlobs.tagsMeet,
      hx, hy, Option.filter, sparseTagStore, taggedBlob, sampleBlob, convertBlobModelToDbModel,
      Store.assertContainerExists, convertDbModelToFilterBlobModel, bind, Except.bind, pure,
      Except.pure]

/-- A filter function for `t = '1'`: the blob's tags with key `t` and value `1`. -/
def tagsEqualOne (b : FilterBlobModel) : List BlobTag :=
  ((b.tags.map (·.blobTagSet)).getD []).filter fun t => t.key = "t" ∧ t.value = "1"

theorem filterBlobs_short_page_carries_marker_t1 :
    (tagsEqualOne ⟨"c", "x", some ⟨[⟨"t", "0"⟩]⟩⟩ = [] ∧
      tagsEqualOne ⟨"c", "y", some ⟨[⟨"t", "1"⟩]⟩⟩ ≠ []) ∧
    Reachable sampleRuntime sparseTagStore ∧
      filterBlobs (.ok tagsEqualOne) "a" (some "c") 1 none sparseTagStore = .ok ([], some "x") ∧
      filterBlobs (.ok tagsEqualOne) "a" (some "c") 1 (some "x") sparseTagStore =
        .ok ([⟨"c", "y", some ⟨tagsEqualOne ⟨"c", "y", some ⟨[⟨"t", "1"⟩]⟩⟩⟩⟩], none) :=
  ⟨⟨by decide, by decide⟩,
    filterBlobs_short_page_carries_marker tagsEqualOne (by decide) (by decide)⟩

end Azurite
