import Azurite.Spec.Leases

/-!
# Conditional requests

A write that receives `ModifiedAccessConditions` is to check them, per §4.2, against the entity
its transaction reads: `If-Match` and `If-None-Match` against the etag, `If-Modified-Since` and
`If-Unmodified-Since` against the last-modified time, `x-ms-if-tags` against the tags.
`Op.conditionChecks` lists, for each operation, the conditions it receives with that entity, and
`ConditionsHold` (`Native/Conditions.lean`) says what meeting them means.

* `Op.exec_conditionsHold`: every successful operation other than `setBlobTag` met each of the
  conditions it received, `startCopyFromURL` both its source and its destination conditions.
* `setBlobTag_ignores_conditions`: `setBlobTag` receives `modifiedAccessConditions` and evaluates
  none of them (`getBlobTag`, its reader, checks both the conditions and `x-ms-if-tags`). With an
  `If-Match` the blob's etag fails it writes the tags, where `setBlobMetadata` is refused.
-/

namespace Azurite

/-! ### The entity each write reads -/

/-- The container row a container write reads, as a condition target. -/
def Store.containerTarget (s : Store) (a c : String) : Option ConditionTarget :=
  (s.containers.find? (ContainerRow.isContainer a c)).map (·.model.target)

/-- The committed blob row a blob write reads, as a condition target. -/
def Store.committedTarget (s : Store) (a c n snap : String) : Option ConditionTarget :=
  (s.blobs.find? (BlobRow.isLiveCommitted a c n snap)).map (·.model.target)

/-- The row `getBlobWithLeaseUpdated` reads, whatever its `deleting`, as a condition target. -/
def Store.rowTarget (s : Store) (a c n snap : String) : Option ConditionTarget :=
  (s.blobs.find? fun r => r.accountName == a && r.containerName == c && r.blobName == n &&
    r.snapshot == snap).map (·.model.target)

/-- The conditions `mac`, when given, to hold of `e`. -/
def conditionCheck (mac : Option ModifiedAccessConditions) (e : Option ConditionTarget) :
    List (ModifiedAccessConditions × Option ConditionTarget) :=
  mac.toList.map (·, e)

/-- The conditions each operation receives, each with the entity its transaction reads. -/
def Op.conditionChecks (s : Store) :
    Op → List (ModifiedAccessConditions × Option ConditionTarget)
  | .deleteContainer a c _ mac | .setContainerMetadata a c _ _ _ _ mac
  | .acquireContainerLease a c _ _ mac | .releaseContainerLease a c _ mac
  | .renewContainerLease a c _ mac | .breakContainerLease a c _ mac
  | .changeContainerLease a c _ _ mac => conditionCheck mac (s.containerTarget a c)
  | .setContainerACL a c acl => conditionCheck acl.modifiedAccessConditions (s.containerTarget a c)
  | .createBlob b _ mac | .commitBlockList b _ _ mac =>
    conditionCheck mac (s.committedTarget b.accountName b.containerName b.name b.snapshot)
  | .createSnapshot a c n _ _ mac | .setBlobHTTPHeaders a c n _ _ mac
  | .setBlobMetadata a c n _ _ mac | .acquireBlobLease a c n _ _ mac
  | .releaseBlobLease a c n _ mac | .renewBlobLease a c n _ mac | .breakBlobLease a c n _ mac
  | .changeBlobLease a c n _ _ mac => conditionCheck mac (s.committedTarget a c n "")
  | .deleteBlob a c n o =>
    conditionCheck o.modifiedAccessConditions (s.committedTarget a c n (o.snapshot.getD ""))
  | .setBlobTag a c n snap _ _ mac => conditionCheck mac (s.committedTarget a c n (snap.getD ""))
  | .startCopyFromURL src dst _ _ _ o =>
    ((o.sourceModifiedAccessConditions.getD {}).toModified,
      s.rowTarget src.account src.container src.blob src.snapshot) ::
    conditionCheck o.modifiedAccessConditions (s.rowTarget dst.account dst.container dst.blob "")
  | _ => []

/-- Whether an operation is a `setBlobTag`. -/
def Op.isSetBlobTag : Op → Bool
  | .setBlobTag .. => true
  | _ => false

/-! ### Every write but `setBlobTag` checks its conditions -/

section
variable {rt : Runtime} {ctx : Context} {s s' : Store}

theorem conditionCheck_of_write {mac : Option ModifiedAccessConditions}
    {e : Option ConditionTarget} (h : validateWriteConditions rt mac e = .ok ()) :
    ∀ ce ∈ conditionCheck mac e, ConditionsHold rt ce.1 ce.2 := by
  cases mac with
  | none => simp [conditionCheck]
  | some c => simpa [conditionCheck] using validateWriteConditions_ok.1 h

theorem conditionCheck_of_read {mac : Option ModifiedAccessConditions} {e : ConditionTarget}
    {isSource : Bool} (h : validateReadConditions rt mac (some e) isSource = .ok ()) :
    ∀ ce ∈ conditionCheck mac (some e), ConditionsHold rt ce.1 ce.2 := by
  cases mac with
  | none => simp [conditionCheck]
  | some c => simpa [conditionCheck] using validateReadConditions_ok.1 h

/-- A container write met its conditions on the row it read. -/
private theorem conditionCheck_container {a c : String} {mac : Option ModifiedAccessConditions}
    {r : ContainerRow} (h : findContainerForWrite rt a c mac s = .ok r) :
    ∀ ce ∈ conditionCheck mac (s.containerTarget a c), ConditionsHold rt ce.1 ce.2 := by
  obtain ⟨hf, hv⟩ := findContainerForWrite_ok h
  rw [Store.containerTarget, hf]
  exact conditionCheck_of_write hv

/-- A write of a committed base blob met its conditions on the row it read. -/
private theorem conditionCheck_baseBlob {a c n : String} {mac : Option ModifiedAccessConditions}
    {r : BlobRow} (h : findBaseBlobForWrite rt a c n mac s = .ok r) :
    ∀ ce ∈ conditionCheck mac (s.committedTarget a c n ""), ConditionsHold rt ce.1 ce.2 := by
  obtain ⟨-, hf, hv⟩ := findBaseBlobForWrite_ok h
  rw [Store.committedTarget, hf]
  exact conditionCheck_of_write hv

/-- Every successful operation other than `setBlobTag` met each condition it received, on the
entity its transaction read. -/
theorem Op.exec_conditionsHold {op : Op} (hop : op.isSetBlobTag = false)
    (h : op.exec rt ctx s = .ok s') :
    ∀ ce ∈ op.conditionChecks s, ConditionsHold rt ce.1 ce.2 := by
  cases op with
  | setServiceProperties | createContainer | stageBlock | setTier =>
    exact fun ce h => absurd h (List.not_mem_nil ce)
  | deleteContainer a c lac mac =>
    obtain ⟨r, hr, -⟩ := deleteContainer_ok h
    exact conditionCheck_container hr
  | setContainerMetadata a c lm e md lac mac =>
    obtain ⟨r, hr, -⟩ := setContainerMetadata_ok h
    exact conditionCheck_container hr
  | setContainerACL a c acl =>
    obtain ⟨r, hr, -⟩ := setContainerACL_ok h
    exact conditionCheck_container hr
  | acquireContainerLease | releaseContainerLease | renewContainerLease | breakContainerLease
  | changeContainerLease =>
    obtain ⟨⟨_, _⟩, hx, -⟩ := map_eq_ok.1 h
    obtain ⟨r, l, hr, -⟩ := containerLeaseOperation_ok hx
    exact conditionCheck_container hr
  | createBlob b lac mac => exact conditionCheck_of_write (createBlob_ok h).2.1
  | commitBlockList b l lac mac => exact conditionCheck_of_write (commitBlockList_ok h).2.1
  | createSnapshot a c n lac md mac =>
    obtain ⟨⟨_, _⟩, hx, -⟩ := map_eq_ok.1 h
    obtain ⟨-, r, hr, -⟩ := createSnapshot_ok hx
    have hv := createSnapshot_conditions hx
    rw [hr] at hv
    unfold Op.conditionChecks
    simp only [Store.committedTarget, hr]
    exact conditionCheck_of_read hv
  | deleteBlob a c n o =>
    obtain ⟨-, r, hr, hv, -⟩ := deleteBlob_ok h
    unfold Op.conditionChecks
    simp only [Store.committedTarget, hr]
    exact conditionCheck_of_write hv
  | setBlobHTTPHeaders a c n lac hd mac =>
    obtain ⟨⟨_, _⟩, hx, -⟩ := map_eq_ok.1 h
    obtain ⟨r, hr, -⟩ := setBlobHTTPHeaders_ok hx
    exact conditionCheck_baseBlob hr
  | setBlobMetadata a c n lac md mac =>
    obtain ⟨⟨_, _⟩, hx, -⟩ := map_eq_ok.1 h
    obtain ⟨r, hr, -⟩ := setBlobMetadata_ok hx
    exact conditionCheck_baseBlob hr
  | acquireBlobLease | releaseBlobLease | renewBlobLease | breakBlobLease | changeBlobLease =>
    obtain ⟨⟨_, _⟩, hx, -⟩ := map_eq_ok.1 h
    obtain ⟨r, l, hr, -⟩ := blobLeaseOperation_ok hx
    exact conditionCheck_baseBlob hr
  | startCopyFromURL src dst cs md tier o =>
    obtain ⟨⟨_, _⟩, hx, -⟩ := map_eq_ok.1 h
    obtain ⟨r, hr, -, hv⟩ := startCopyFromURL_source hx
    obtain ⟨-, -, d, -, -, hd, hw, -⟩ := startCopyFromURL_ok hx
    have hd := (getBlobWithLeaseUpdated_dest hd).2
    subst hd
    simp only [Option.map_map, Function.comp_def, BlobModel.target_syncLease] at hw
    unfold Op.conditionChecks
    simp only [List.forall_mem_cons, Store.rowTarget, hr, Option.map_some']
    exact ⟨validateReadConditions_ok.1 hv, conditionCheck_of_write hw⟩
  | setBlobTag => cases hop

end

/-! ### `setBlobTag` -/

/-- On the leased blob of `Spec/Leases.lean` (etag `e1`), the holder's `setBlobTag` with
`If-Match: e9` writes the tags, though the condition fails on the blob it reads; the holder's
`setBlobMetadata` with the same condition is refused with `ConditionNotMet`. -/
theorem setBlobTag_ignores_conditions :
    ¬ ConditionsHold sampleRuntime { ifMatch := some "e9" }
      (leasedStore.committedTarget "a" "c" "b" "") ∧
    (∃ s', Op.exec sampleRuntime laterCtx (.setBlobTag "a" "c" "b" none holderLac
        (some ⟨[⟨"k", "v"⟩]⟩) (some { ifMatch := some "e9" })) leasedStore = .ok s' ∧
      getBlobTag sampleRuntime laterCtx "a" "c" "b" "" none none s' =
          .ok (some ⟨[⟨"k", "v"⟩]⟩)) ∧
    Op.exec sampleRuntime laterCtx (.setBlobMetadata "a" "c" "b" holderLac none
      (some { ifMatch := some "e9" })) leasedStore = .error .conditionNotMet :=
  ⟨fun h => absurd ((h : ConditionsHold _ _ (some leasedRow.model.target)).2.2.1 "e9" rfl)
    (by decide), ⟨_, rfl, rfl⟩, rfl⟩

end Azurite
