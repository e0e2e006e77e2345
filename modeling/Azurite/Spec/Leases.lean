import Azurite.Spec.Invariants

/-!
# Writes under a lease

A lease is the store's application-level lock: while the lease of a container or a blob is
locked (leased, or breaking before its break time), a write to it must carry the lease's id.
Each write of `SqlBlobMetadataStore` checks the lease of the row it reads in its transaction with
`BlobWriteLeaseValidator` (or `ContainerDeleteLeaseValidator`), as observed at the request's time.

`Op.leaseTarget` names, for every write a lease guards, the entity it writes and the lease access
conditions it carries. The results:

* `locked_target_admits_only_holder`: a write to a committed base blob, or a container deletion,
  whose target's lease is locked succeeds only when it carries the lease's id.
* `held_lease_kept_by_blob_updates`: every update of a committed base blob holding an unexpired
  lease leaves that lease as it was, except `commitBlockList`, which stores the blob with every
  lease field cleared.

A row that is not committed is read by `createBlob`, `stageBlock` and `commitBlockList` without
its lease: those writes check the lease of the committed row only.
-/

namespace Azurite

/-! ### Reading a blob row in a consistent store -/

section
variable {s : Store}

/-- In a consistent store the committed row of a key is the live row of the key, when that row
is committed: keys are unique. -/
theorem Store.Consistent.find?_isLiveCommitted (hc : s.Consistent) (a c n snap : String) :
    s.blobs.find? (BlobRow.isLiveCommitted a c n snap) =
      (s.blobs.find? (BlobRow.isLive a c n snap)).filter (·.isCommitted) := by
  cases h : s.blobs.find? (BlobRow.isLive a c n snap) with
  | none =>
    refine List.find?_eq_none.2 fun x hx hq => List.find?_eq_none.1 h x hx ?_
    simp only [BlobRow.isLiveCommitted, Bool.and_eq_true] at hq
    exact hq.1
  | some r =>
    have hr := List.mem_of_find?_eq_some h
    have hk := BlobRow.isLive_eq_true.1 (List.find?_some h)
    have unique : ∀ x ∈ s.blobs, x.isLiveCommitted a c n snap = (x.isLive a c n snap &&
        r.isCommitted) := fun x hx => by
      unfold BlobRow.isLiveCommitted
      cases hl : x.isLive a c n snap
      · rfl
      · rw [List.inj_on_of_nodup_map hc.blob_keys hx hr
          ((BlobRow.isLive_eq_true.1 hl).1.trans hk.1.symm)]
    rw [find?_congr_mem unique]
    cases hcm : r.isCommitted <;> simp [h, hcm, Option.filter, List.find?_eq_none]

/-- `getBlobWithLeaseUpdated` finds a row without looking at `deleting`; in a consistent store
every row is live, so it finds the live row. -/
theorem Store.Consistent.find?_blobRow (hc : s.Consistent) (a c n snap : String) :
    s.blobs.find? (fun r => r.accountName == a && r.containerName == c && r.blobName == n &&
      r.snapshot == snap) = s.blobs.find? (BlobRow.isLive a c n snap) :=
  find?_congr_mem fun r hr => by simp [BlobRow.isLive, hc.blob_live r hr]

/-- The live row of a key an upsert writes stores the upserted lease. -/
theorem Store.lease_upsertBlob_self {v : BlobValues} {a c n snap : String}
    (hk : v.key = (a, c, n, snap)) :
    ∃ r, (s.upsertBlob v).blobs.find? (BlobRow.isLive a c n snap) = some r ∧
      r.model.lease = (convertDbModelToLease v.lease).withDefaults := by
  obtain ⟨r, hr, hv, -⟩ := @Store.find?_upsertBlob_self s v
  simp only [BlobValues.key, Prod.mk.injEq] at hk
  obtain ⟨rfl, rfl, rfl, rfl⟩ := hk
  exact ⟨r, hr, by simp [BlobRow.model, hv]⟩

/-- A row rewritten with the values of a model holds the model's lease. -/
theorem BlobRow.model_lease_assign (r : BlobRow) (b : BlobModel) :
    (r.assign (convertBlobModelToDbModel b)).model.lease = b.lease := rfl

/-- An update of the live row of a key leaves the rewritten row as the row of the key. -/
theorem Store.find?_updateBlobs_self {a c n snap : String} {f : BlobRow → BlobRow} {r : BlobRow}
    (hf : KeepsKey (BlobRow.isLive a c n snap) f)
    (hr : s.blobs.find? (BlobRow.isLive a c n snap) = some r) :
    (s.updateBlobs (BlobRow.isLive a c n snap) f).blobs.find? (BlobRow.isLive a c n snap) =
      some (f r) := by
  rw [Store.find?_updateBlobs hf, hr, Option.map_some', if_pos (List.find?_some hr)]

end

/-! ### Lease checks -/

/-- A write lease check that passed on a locked lease saw the lease's id on the request. -/
theorem Lease.validateLocked_id {m₁ m₂ : StorageError} {l : Lease}
    {lac : Option LeaseAccessConditions} (h : Lease.validateLocked m₁ m₂ l lac = .ok ())
    (hl : l.locked = true) :
    ∃ L, l.leaseId = some L ∧ LeaseAccessConditions.id? lac = some L := by
  obtain ⟨L, h₁, h₂⟩ := Lease.validateLocked_ok.1 h hl
  exact ⟨L, h₂, h₁⟩

/-- A lease observed as leased is locked, and observed as stored. -/
theorem Lease.observe_eq_of_leased {l : Lease} {now : Nat}
    (h : (l.observe now).leaseState = some .leased) : l.observe now = l :=
  Lease.observe_eq_of_locked (by simp [Lease.locked, h])

/-! ### The writes a lease guards -/

/-- An entity a lease guards: a base blob, or a container. -/
inductive LeaseTarget where
  | blob (account container blob : String)
  | container (account container : String)
  deriving DecidableEq, Repr

/-- The base blob an operation updates in place and the lease access conditions it carries:
`createBlob`, `stageBlock`, `commitBlockList`, the setters, `setTier` and a copy onto the blob. -/
def Op.blobUpdate : Op → Option ((String × String × String) × Option LeaseAccessConditions)
  | .createBlob b lac _ =>
    if b.snapshot = "" then some ((b.accountName, b.containerName, b.name), lac) else none
  | .stageBlock b lac => some ((b.accountName, b.containerName, b.blobName), lac)
  | .commitBlockList b _ lac _ =>
    if b.snapshot = "" then some ((b.accountName, b.containerName, b.name), lac) else none
  | .setBlobHTTPHeaders a c n lac _ _ => some ((a, c, n), lac)
  | .setBlobMetadata a c n lac _ _ => some ((a, c, n), lac)
  | .setBlobTag a c n snap lac _ _ => if snap.getD "" = "" then some ((a, c, n), lac) else none
  | .setTier a c n _ lac => some ((a, c, n), lac)
  | .startCopyFromURL _ dst _ _ _ o =>
    some ((dst.account, dst.container, dst.blob), o.leaseAccessConditions)
  | _ => none

/-- Whether an operation is a `commitBlockList`. -/
def Op.isCommitBlockList : Op → Bool
  | .commitBlockList .. => true
  | _ => false

/-- The entity a write guarded by a lease writes, and the lease access conditions it carries:
the updates of a base blob, the deletion of a base blob, and the deletion of a container. -/
def Op.leaseTarget : Op → Option (LeaseTarget × Option LeaseAccessConditions)
  | .deleteContainer a c lac _ => some (.container a c, lac)
  | .deleteBlob a c n o =>
    if o.snapshot.getD "" = "" then some (.blob a c n, o.leaseAccessConditions) else none
  | op => op.blobUpdate.map fun ((a, c, n), lac) => (.blob a c n, lac)

/-- The stored lease of a target: that of the committed base blob, or of the container. -/
def Store.targetLease (s : Store) : LeaseTarget → Option Lease
  | .blob a c n => (s.blobs.find? (BlobRow.isLiveCommitted a c n "")).map (·.model.lease)
  | .container a c => (s.containers.find? (ContainerRow.isContainer a c)).map (·.model.lease)

/-! ### A leased blob

The store the witnesses below run on: account `a`, container `c`, and a committed block blob `b`
on which `acquireBlobLease` took the lease `L` for 15 seconds at time 0. Requests then come at
time 1000, while the lease is held. -/

/-- The container `c` of account `a`, with the lease of a new container. -/
def sampleContainer : ContainerModel :=
  { accountName := "a", name := "c",
    properties := { lastModified := 0, etag := "e0", leaseState := some .available,
                    leaseStatus := some .unlocked } }

/-- The row `createContainer` adds for the container `name` of account `a`, numbered `id`. -/
def sampleContainerRow (name : String) (id : Nat) : ContainerRow :=
  ⟨ContainerModel.toDbModel { sampleContainer with name } Lease.initial, id⟩

/-- The committed block blob `b` in it. -/
def sampleBlob : BlobModel :=
  { accountName := "a", containerName := "c", name := "b", snapshot := "", isCommitted := true,
    properties := { lastModified := 0, creationTime := some 0, etag := "e1",
                    blobType := some .blockBlob } }

/-- The lease `acquire` at time 0 for 15 seconds with the proposed id `L` gives. -/
def sampleLease : Lease :=
  { leaseId := some "L", leaseState := some .leased, leaseStatus := some .locked,
    leaseDurationType := some .fixed, leaseDurationSeconds := some 15,
    leaseExpireTime := some 15000 }

/-- The row of `b` once leased. -/
def leasedRow : BlobRow :=
  ⟨{ convertBlobModelToDbModel sampleBlob with lease := some sampleLease }, 1, 0⟩

/-- The store after creating the container and the blob and acquiring the lease. -/
def leasedStore : Store :=
  { containers := [sampleContainerRow "c" 1], blobs := [leasedRow],
    nextContainerId := 2, nextBlobId := 2 }

/-- A request at time 1000. -/
def laterCtx : Context := { startTime := 1000, newEtag := "e2" }

/-- The holder of `L`. -/
def holderLac : Option LeaseAccessConditions := some { leaseId := some "L" }

theorem reachable_leasedStore : Reachable sampleRuntime leasedStore :=
  .step { startTime := 0 } (.acquireBlobLease "a" "c" "b" 15 (some "L") none)
    (.step { startTime := 0 } (.createBlob sampleBlob none none)
      (.step { startTime := 0 } (.createContainer sampleContainer) .empty rfl) rfl) rfl

/-! ### Only the holder writes under a locked lease -/

section
variable {rt : Runtime} {ctx : Context} {s s' : Store}

/-- A successful write passed a write lease check on its target's lease as observed at the
request's time. -/
theorem Op.exec_leaseChecked (hc : s.Consistent) {op : Op} {t : LeaseTarget}
    {lac : Option LeaseAccessConditions} (hop : op.leaseTarget = some (t, lac)) {l : Lease}
    (hl : s.targetLease t = some l) (h : op.exec rt ctx s = .ok s') :
    ∃ m₁ m₂, Lease.validateLocked m₁ m₂ (l.observe ctx.startTime) lac = .ok () := by
  cases t with
  | container a c =>
    obtain ⟨r, hr, hlr⟩ := Option.map_eq_some'.1 hl
    cases op <;> simp only [Op.leaseTarget, Op.blobUpdate, LeaseTarget.blob.injEq,
      LeaseTarget.container.injEq, Option.ite_none_right_eq_some, Option.map_if, Option.map_none',
      Option.map_some', Option.some.injEq, Prod.mk.injEq, and_false, false_and, reduceCtorEq] at hop
    obtain ⟨⟨rfl, rfl⟩, rfl⟩ := hop
    obtain ⟨r', hr', hv, -⟩ := deleteContainer_ok h
    cases hr.symm.trans (findContainerForWrite_ok hr').1
    subst hlr
    exact ⟨_, _, hv⟩
  | blob a c n =>
    obtain ⟨r, hr, rfl⟩ := Option.map_eq_some'.1 hl
    have hlive : s.blobs.find? (BlobRow.isLive a c n "") = some r := by
      rw [hc.find?_isLiveCommitted] at hr
      exact (Option.filter_eq_some.1 hr).1
    cases op <;> simp only [Op.leaseTarget, Op.blobUpdate, LeaseTarget.blob.injEq,
      LeaseTarget.container.injEq, Option.ite_none_right_eq_some, Option.map_if, Option.map_none',
      Option.map_some', Option.some.injEq, Prod.mk.injEq, and_false, false_and, reduceCtorEq] at hop
    case createBlob b lac' mac =>
      obtain ⟨hs, ⟨rfl, rfl, rfl⟩, rfl⟩ := hop
      obtain ⟨-, -, ⟨hn, -⟩ | ⟨r', hr', hv, -⟩⟩ := createBlob_ok h
      · rw [hs] at hn; simp [hn] at hr
      · rw [hs, hr] at hr'; cases hr'
        exact ⟨_, _, hv⟩
    case stageBlock b lac' =>
      obtain ⟨⟨rfl, rfl, rfl⟩, rfl⟩ := hop
      obtain ⟨-, ⟨r', hr', hv, -⟩ | ⟨hn, -⟩⟩ := stageBlock_ok h
      · rw [hlive] at hr'; cases hr'
        exact ⟨_, _, hv (Store.find?_isLiveCommitted hr).2.2⟩
      · simp [hn] at hlive
    case commitBlockList b l lac' mac =>
      obtain ⟨hs, ⟨rfl, rfl, rfl⟩, rfl⟩ := hop
      obtain ⟨-, -, _, _, _, ⟨hn, -⟩ | ⟨r', hr', -, hv, -⟩, -⟩ := commitBlockList_ok h
      · rw [hs] at hn; simp [hn] at hr
      · rw [hs, hr] at hr'; cases hr'
        exact ⟨_, _, hv⟩
    case setBlobHTTPHeaders a c n lac' hd mac =>
      obtain ⟨⟨rfl, rfl, rfl⟩, rfl⟩ := hop
      obtain ⟨⟨_, _⟩, hx, rfl⟩ := map_eq_ok.1 h
      obtain ⟨r', hr', hv, -⟩ := setBlobHTTPHeaders_ok hx
      cases hr.symm.trans (findBaseBlobForWrite_ok hr').2.1
      exact ⟨_, _, hv⟩
    case setBlobMetadata a c n lac' md mac =>
      obtain ⟨⟨rfl, rfl, rfl⟩, rfl⟩ := hop
      obtain ⟨⟨_, _⟩, hx, rfl⟩ := map_eq_ok.1 h
      obtain ⟨r', hr', hv, -⟩ := setBlobMetadata_ok hx
      cases hr.symm.trans (findBaseBlobForWrite_ok hr').2.1
      exact ⟨_, _, hv⟩
    case setBlobTag a c n snap lac' tags mac =>
      obtain ⟨hs, ⟨rfl, rfl, rfl⟩, rfl⟩ := hop
      obtain ⟨-, r', hr', hv, -⟩ := setBlobTag_ok mac h
      rw [hs, hr] at hr'; cases hr'
      exact ⟨_, _, hv⟩
    case setTier a c n t lac' =>
      obtain ⟨⟨rfl, rfl, rfl⟩, rfl⟩ := hop
      obtain ⟨⟨_, _⟩, hx, rfl⟩ := map_eq_ok.1 h
      obtain ⟨-, r', hr', hv, -⟩ := setTier_ok hx
      cases hr.symm.trans hr'
      exact ⟨_, _, hv⟩
    case deleteBlob a c n o =>
      obtain ⟨hs, ⟨rfl, rfl, rfl⟩, rfl⟩ := hop
      obtain ⟨-, r', hr', -, ⟨-, hv, -⟩ | ⟨hs', -, -⟩⟩ := deleteBlob_ok h
      · rw [hs, hr] at hr'; cases hr'
        exact ⟨_, _, hv⟩
      · rw [hs, hr] at hr'; cases hr'
        exact absurd (Store.find?_isLive hlive).2 fun hk => hs' (by simp_all [BlobValues.key])
    case startCopyFromURL src dst cs md tier o =>
      obtain ⟨⟨rfl, rfl, rfl⟩, rfl⟩ := hop
      obtain ⟨⟨_, _⟩, hx, rfl⟩ := map_eq_ok.1 h
      obtain ⟨-, -, d, -, -, hd, -, hv, -⟩ := startCopyFromURL_ok hx
      have hd := (getBlobWithLeaseUpdated_dest hd).2
      rw [hc.find?_blobRow, hlive] at hd
      exact ⟨_, _, by simpa using hv _ hd⟩

/-- While the lease of a committed base blob or of a container is locked at the request's time,
a write to it succeeds only when it carries the lease's id. -/
theorem locked_target_admits_only_holder (hs : Reachable rt s) {op : Op} {t : LeaseTarget}
    {lac : Option LeaseAccessConditions} (hop : op.leaseTarget = some (t, lac)) {l : Lease}
    (hl : s.targetLease t = some l) (hlock : (l.observe ctx.startTime).locked = true)
    (h : op.exec rt ctx s = .ok s') :
    ∃ L, (l.observe ctx.startTime).leaseId = some L ∧ LeaseAccessConditions.id? lac = some L :=
  have ⟨_, _, hv⟩ := Op.exec_leaseChecked hs.consistent hop hl h
  Lease.validateLocked_id hv hlock

theorem locked_target_admits_only_holder_setTier :
    ∃ L, (sampleLease.observe 1000).leaseId = some L ∧
      LeaseAccessConditions.id? holderLac = some L :=
  @locked_target_admits_only_holder sampleRuntime laterCtx leasedStore _ reachable_leasedStore
    (.setTier "a" "c" "b" AccessTier.cool holderLac) (.blob "a" "c" "b") holderLac rfl sampleLease
    rfl rfl rfl

/-- The store after the holder of `L` rewrites `b` as an uncommitted blob: `createBlob` checks
the lease of the committed row and keeps it on the new one. -/
def uncommittedStore : Store :=
  { leasedStore with
    blobs := [⟨convertBlobModelToDbModel ({ sampleBlob with isCommitted := false }.syncLease
      sampleLease), 1, 0⟩] }

/-- On the uncommitted row the lease is still locked with `L`, yet `createBlob` without a lease
id, which reads only a committed row, replaces the row and drops the lease: the row is left
available and unlocked. -/
theorem createBlob_skips_lease_of_uncommitted_row :
    Reachable sampleRuntime uncommittedStore ∧
    (uncommittedStore.blobs.find? (BlobRow.isLive "a" "c" "b" "")).map (·.model.lease) =
      some sampleLease ∧
    (sampleLease.observe 1000).locked = true ∧
    ∃ s', Op.exec sampleRuntime laterCtx (.createBlob sampleBlob none none) uncommittedStore =
        .ok s' ∧
      (s'.blobs.find? (BlobRow.isLive "a" "c" "b" "")).map (·.model.lease) = some Lease.initial :=
  ⟨.step laterCtx (.createBlob { sampleBlob with isCommitted := false } holderLac none)
    reachable_leasedStore rfl, rfl, rfl, _, rfl, rfl⟩

/-! ### Updates keep a held lease -/

/-- Every update of a committed base blob whose lease is leased and unexpired at the request's
time leaves the lease as stored, except `commitBlockList`, which syncs every lease field to
`undefined` before its upsert: `BlobLeaseAdapter` then stores the lease available and unlocked,
with no id, duration or times. -/
theorem held_lease_kept_by_blob_updates (hs : Reachable rt s) {a c n : String} {r : BlobRow}
    (hr : s.blobs.find? (BlobRow.isLiveCommitted a c n "") = some r)
    (hl : (r.model.lease.observe ctx.startTime).leaseState = some .leased) {op : Op}
    {lac : Option LeaseAccessConditions} (hop : op.blobUpdate = some ((a, c, n), lac))
    (h : op.exec rt ctx s = .ok s') :
    ∃ r', s'.blobs.find? (BlobRow.isLive a c n "") = some r' ∧
      r'.model.lease = if op.isCommitBlockList then Lease.initial else r.model.lease := by
  have hc := hs.consistent
  have hlive : s.blobs.find? (BlobRow.isLive a c n "") = some r := by
    rw [hc.find?_isLiveCommitted] at hr
    exact (Option.filter_eq_some.1 hr).1
  have hkey := (Store.find?_isLiveCommitted hr).2.1
  have hobs := Lease.observe_eq_of_leased hl
  cases op <;> simp only [Op.blobUpdate, Option.ite_none_right_eq_some, Option.some.injEq,
    Prod.mk.injEq, reduceCtorEq] at hop
  case createBlob b lac' mac =>
    obtain ⟨hsn, ⟨rfl, rfl, rfl⟩, rfl⟩ := hop
    obtain ⟨-, -, ⟨hn, -⟩ | ⟨r₀, hr₀, -, rfl⟩⟩ := createBlob_ok h
    · rw [hsn] at hn; simp [hn] at hr
    · rw [hsn, hr] at hr₀; cases hr₀
      simp only [Op.isCommitBlockList, hobs]
      exact Store.lease_upsertBlob_self (by simp [BlobValues.key, convertBlobModelToDbModel,
        BlobModel.syncLease, hsn])
  case stageBlock b lac' =>
    obtain ⟨⟨rfl, rfl, rfl⟩, rfl⟩ := hop
    obtain ⟨-, ⟨r₀, -, -, -, rfl⟩ | ⟨hn, -⟩⟩ := stageBlock_ok h
    · exact ⟨r, by simpa using hlive, by simp [Op.isCommitBlockList]⟩
    · simp [hn] at hlive
  case commitBlockList b l lac' mac =>
    obtain ⟨hsn, ⟨rfl, rfl, rfl⟩, rfl⟩ := hop
    obtain ⟨-, -, _, _, _, -, -, rfl⟩ := commitBlockList_ok h
    simp only [Store.retireBlocks_blobs, Op.isCommitBlockList, if_true]
    exact Store.lease_upsertBlob_self (by simp [BlobValues.key, convertBlobModelToDbModel,
      BlobModel.syncLease, hsn])
  case setBlobHTTPHeaders a c n lac' hd mac =>
    obtain ⟨⟨rfl, rfl, rfl⟩, rfl⟩ := hop
    obtain ⟨⟨_, _⟩, hx, rfl⟩ := map_eq_ok.1 h
    obtain ⟨r₀, hr₀, -, rfl⟩ := setBlobHTTPHeaders_ok hx
    cases hr.symm.trans (findBaseBlobForWrite_ok hr₀).2.1
    refine ⟨_, Store.find?_updateBlobs_self (fun r' h' =>
      ⟨hkey.trans (BlobRow.isLive_eq_true.1 h').1.symm, rfl⟩) hlive, ?_⟩
    rw [BlobRow.model_lease_assign]
    cases hd <;> exact (BlobModel.lease_of_properties rfl rfl rfl).trans
      (by simpa [Op.isCommitBlockList] using hobs)
  case setBlobMetadata a c n lac' md mac =>
    obtain ⟨⟨rfl, rfl, rfl⟩, rfl⟩ := hop
    obtain ⟨⟨_, _⟩, hx, rfl⟩ := map_eq_ok.1 h
    obtain ⟨r₀, hr₀, -, rfl⟩ := setBlobMetadata_ok hx
    cases hr.symm.trans (findBaseBlobForWrite_ok hr₀).2.1
    exact ⟨_, Store.find?_updateBlobs_self (fun _ _ => ⟨rfl, rfl⟩) hlive,
      by simpa [Op.isCommitBlockList, BlobRow.model] using hobs⟩
  case setBlobTag a c n snap lac' tags mac =>
    obtain ⟨hsn, ⟨rfl, rfl, rfl⟩, rfl⟩ := hop
    obtain ⟨-, r₀, hr₀, -, rfl⟩ := setBlobTag_ok mac h
    rw [hsn, hr] at hr₀; cases hr₀
    rw [hsn]
    exact ⟨_, Store.find?_updateBlobs_self (fun _ _ => ⟨rfl, rfl⟩) hlive,
      by simpa [Op.isCommitBlockList, BlobRow.model] using hobs⟩
  case setTier a c n t lac' =>
    obtain ⟨⟨rfl, rfl, rfl⟩, rfl⟩ := hop
    obtain ⟨⟨_, _⟩, hx, rfl⟩ := map_eq_ok.1 h
    obtain ⟨-, r₀, -, -, rfl⟩ := setTier_ok hx
    exact ⟨_, Store.find?_updateBlobs_self (fun _ _ => ⟨rfl, rfl⟩) hlive,
      by simp [Op.isCommitBlockList, BlobRow.model]⟩
  case startCopyFromURL src dst cs md tier o =>
    obtain ⟨⟨rfl, rfl, rfl⟩, rfl⟩ := hop
    obtain ⟨⟨_, _⟩, hx, rfl⟩ := map_eq_ok.1 h
    obtain ⟨-, sb, d, tg, t, hd, -, -, rfl⟩ := startCopyFromURL_ok hx
    have hd := (getBlobWithLeaseUpdated_dest hd).2
    rw [hc.find?_blobRow, hlive] at hd
    subst hd
    simp only [Op.isCommitBlockList, Option.map_some', hobs]
    exact Store.lease_upsertBlob_self rfl

theorem held_lease_kept_by_blob_updates_setBlobMetadata :
    ∃ s', Op.exec sampleRuntime laterCtx (.setBlobMetadata "a" "c" "b" holderLac none none)
        leasedStore = .ok s' ∧
      ∃ r', s'.blobs.find? (BlobRow.isLive "a" "c" "b" "") = some r' ∧
        r'.model.lease = leasedRow.model.lease :=
  ⟨_, rfl, @held_lease_kept_by_blob_updates sampleRuntime laterCtx leasedStore _
    reachable_leasedStore "a" "c" "b" leasedRow rfl rfl
    (.setBlobMetadata "a" "c" "b" holderLac none none) holderLac rfl rfl⟩

/-- `commitBlockList` by the holder of `L`, while the lease is held, stores the blob available
and unlocked, with no lease id. -/
theorem commitBlockList_clears_held_lease :
    (leasedRow.model.lease.observe 1000).leaseState = some .leased ∧
    ∃ s', Op.exec sampleRuntime laterCtx (.commitBlockList sampleBlob [] holderLac none)
        leasedStore = .ok s' ∧
      ∃ r', s'.blobs.find? (BlobRow.isLive "a" "c" "b" "") = some r' ∧
        r'.model.lease = Lease.initial :=
  ⟨rfl, _, rfl, _, rfl, rfl⟩

end

end Azurite
