import Azurite.Spec.BlockBlob
import Azurite.Spec.ContainerListing

/-!
# Snapshots

A snapshot is a row of `Blobs` with a non-empty `snapshot`: `createSnapshot` copies the committed
base row under the request's time, rendered with seven fractional digits, and `deleteBlob`
removes snapshots one at a time, with their base blob (`Include`), or all but the base blob
(`Only`).

* `createSnapshot_adds_fresh_row`: when no row of the blob has the id of the request's time,
  `createSnapshot` appends exactly the snapshot row and changes nothing else. The row is written
  with `upsert`, so two snapshots in the same millisecond share one row:
  `createSnapshot_same_time_overwrites`.
* `deleteBlob_follows_policy`: on a store where the unique index holds and no row of the name is
  marked deleting, `deleteBlob` removes what its `deleteSnapshots` option names and nothing else.
  It destroys rows by name without looking at `deleting`, so a snapshot row already marked
  deleting goes with the base blob: `deleteBlob_removes_marked_snapshot`.
* `snapshot_rows_hold_no_lease`: `createSnapshot` writes its row without a lease, lease
  operations and setters touch only base rows, and `setBlobTag` writes back a snapshot row's own
  lease, so along every history whose `createBlob` requests give a snapshot no lease, no
  snapshot row holds one. `createBlob` stores the lease of the model it is given when no
  committed row has its key, a snapshot's included, and `getBlobProperties` reports it:
  `createBlob_stores_model_lease`.
-/

namespace Azurite

/-! ### Rows of a blob -/

section
variable {rt : Runtime} {ctx : Context} {s s' : Store}

/-- The row of a key is a row of the key's blob, with the key's snapshot. -/
theorem BlobRow.ofBlob_of_key {r : BlobRow} {a c n snap : String}
    (h : r.key = (a, c, n, snap)) : r.ofBlob a c n = true ∧ r.snapshot = snap := by
  simp only [BlobValues.key, Prod.mk.injEq] at h
  simp [BlobRow.ofBlob, h]

/-- An upsert whose key no live row has appends its row. -/
theorem Store.upsertBlob_of_fresh {v : BlobValues}
    (h : ∀ r ∈ s.blobs, r.deleting = 0 → r.key ≠ v.key) :
    s.upsertBlob v = { s with blobs := s.blobs ++ [⟨v, s.nextBlobId, 0⟩],
                              nextBlobId := s.nextBlobId + 1 } :=
  Store.upsertBlob_of_not_any (List.any_eq_false.2 fun r hr hl =>
    have hk := BlobRow.isLive_eq_true.1 hl
    h r hr hk.2 hk.1)

/-! ### Taking a snapshot -/

/-- When no row of the blob already has the id of the request's time, a successful
`createSnapshot` appends one row, the base row's copy under that id with the given metadata and
its lease synced to `{}`, which `BlobLeaseAdapter` stores available and unlocked with no lease
id, and changes no other row; the id is not empty and differs from the id of every other row of
the blob. -/
theorem createSnapshot_adds_fresh_row {a c n : String} {lac : Option LeaseAccessConditions}
    {md : Option Metadata} {mac : Option ModifiedAccessConditions} {p : BlobProperties × String}
    (h : createSnapshot rt ctx a c n lac md mac s = .ok (p, s'))
    (hfresh : ∀ r ∈ s.blobs, r.ofBlob a c n = true →
      r.snapshot ≠ convertDateTimeStringMsTo7Digital (toISOString ctx.startTime)) :
    p.2 = convertDateTimeStringMsTo7Digital (toISOString ctx.startTime) ∧ p.2 ≠ "" ∧
    (∀ r ∈ s.blobs, r.ofBlob a c n = true → r.snapshot ≠ p.2) ∧
    ∃ r, s.blobs.find? (BlobRow.isLiveCommitted a c n "") = some r ∧
      s' = { s with
        blobs := s.blobs ++ [⟨convertBlobModelToDbModel
          (({ r.model with snapshot := p.2, metadata := md <|> r.model.metadata } :
            BlobModel).syncLease {}), s.nextBlobId, 0⟩],
        nextBlobId := s.nextBlobId + 1 } := by
  have hid := createSnapshot_snapshot h
  obtain ⟨-, r, hr, -, rfl⟩ := createSnapshot_ok h
  rw [← hid] at hfresh
  obtain ⟨hmem, hkey, -⟩ := Store.find?_isLiveCommitted hr
  obtain ⟨hof, h0⟩ := BlobRow.ofBlob_of_key hkey
  refine ⟨hid, fun he => hfresh r hmem hof (h0.trans he.symm), hfresh, r, hr, ?_⟩
  simp only [BlobValues.key, Prod.mk.injEq] at hkey
  rw [hid, Store.upsertBlob_of_fresh fun x hx _ hk => ?_]
  have hv : x.key = (a, c, n, convertDateTimeStringMsTo7Digital (toISOString ctx.startTime)) :=
    hk.trans (by simp [BlobValues.key, convertBlobModelToDbModel, BlobModel.syncLease,
      BlobRow.model, convertDbModelToBlobModel, hkey])
  have hx' := BlobRow.ofBlob_of_key hv
  exact hfresh x hx hx'.1 (hx'.2.trans hid.symm)

end

theorem createSnapshot_adds_fresh_row_leased :
    ∃ p s', createSnapshot sampleRuntime laterCtx "a" "c" "b" none none none leasedStore =
        .ok (p, s') ∧
      p.2 = convertDateTimeStringMsTo7Digital (toISOString laterCtx.startTime) ∧ p.2 ≠ "" ∧
      (∀ r ∈ leasedStore.blobs, r.ofBlob "a" "c" "b" = true → r.snapshot ≠ p.2) ∧
      ∃ r, leasedStore.blobs.find? (BlobRow.isLiveCommitted "a" "c" "b" "") = some r ∧
        s' = { leasedStore with
          blobs := leasedStore.blobs ++ [⟨convertBlobModelToDbModel
            (({ r.model with snapshot := p.2, metadata := none <|> r.model.metadata } :
              BlobModel).syncLease {}), leasedStore.nextBlobId, 0⟩],
          nextBlobId := leasedStore.nextBlobId + 1 } :=
  ⟨_, _, rfl, @createSnapshot_adds_fresh_row sampleRuntime laterCtx leasedStore _ "a" "c" "b" none
    none none _ rfl (by decide)⟩

/-- Two snapshots of `b` in the same millisecond get the same id, and the second, with other
metadata, rewrites the first's row instead of adding one. -/
theorem createSnapshot_same_time_overwrites :
    ∃ p₁ s₁ p₂ s₂,
      createSnapshot sampleRuntime laterCtx "a" "c" "b" none (some [("k", "1")]) none
        leasedStore = .ok (p₁, s₁) ∧
      createSnapshot sampleRuntime laterCtx "a" "c" "b" none (some [("k", "2")]) none s₁ =
        .ok (p₂, s₂) ∧
      p₂.2 = p₁.2 ∧ s₂.blobs.length = s₁.blobs.length ∧
      ∃ r ∈ s₁.blobs, r ∉ s₂.blobs :=
  ⟨_, _, _, _, rfl, rfl, rfl, rfl, by decide⟩

/-! ### Deleting a blob and its snapshots -/

/-- Only the empty snapshot id lies below `snapshot > ""`. -/
theorem empty_lt_iff_ne {t : String} : "" < t ↔ t ≠ "" :=
  ⟨fun h he => lt_irrefl t (he ▸ h), empty_lt_of_ne⟩

section
variable {rt : Runtime} {ctx : Context} {s : Store}

/-- Once the container, the conditions and, against a base blob, the lease pass, `deleteBlob`
does what its scenario says: the base blob with its blocks (refused while more than one live row
has the name), the base blob with its snapshots and blocks, the snapshots only, or one
snapshot. -/
theorem deleteBlob_of_checks {a c n : String} {o : BlobDeleteOptions} {r : BlobRow}
    (hc : (a, c) ∈ s.containerKeys)
    (hr : s.blobs.find? (BlobRow.isLiveCommitted a c n (o.snapshot.getD "")) = some r)
    (hcond : validateWriteConditions rt o.modifiedAccessConditions (some r.model.target) = .ok ())
    (hlease : r.snapshot = "" → Lease.validateBlobWrite (r.model.lease.observe ctx.startTime)
      o.leaseAccessConditions = .ok ()) :
    deleteBlob rt ctx a c n o s =
      if r.snapshot = "" then
        match o.deleteSnapshots with
        | none =>
          if s.blobs.countP (fun b => b.ofBlob a c n && b.deleting == 0) ≤ 1 then
            .ok ((s.deleteBlobFromSQL (BlobRow.ofBlob a c n)).deleteBlockFromSQL
              (BlockRow.ofBlob a c n))
          else .error .snapshotsPresent
        | some .include => .ok ((s.deleteBlobFromSQL (BlobRow.ofBlob a c n)).deleteBlockFromSQL
            (BlockRow.ofBlob a c n))
        | some .only => .ok (s.deleteBlobFromSQL fun b =>
            b.ofBlob a c n && decide ("" < b.snapshot))
      else if o.deleteSnapshots.isSome then
        .error (.invalidOperation "Invalid operation against a blob snapshot.")
      else .ok (s.deleteBlobFromSQL fun b => b.ofBlob a c n && b.snapshot == r.snapshot) := by
  obtain ⟨k, hk⟩ := Store.assertContainerExists_of_mem hc
  have hm : r.model.snapshot = r.snapshot := rfl
  by_cases hb : r.snapshot = ""
  · rcases hd : o.deleteSnapshots with _ | _ | _ <;>
      simp [deleteBlob, hk, hr, hcond, hm, hb, hlease hb, hd, bind, Except.bind, ensure, pure,
        Except.pure]
    split_ifs <;> rfl
  · cases hd : o.deleteSnapshots <;>
      simp [deleteBlob, hk, hr, hcond, hm, hb, hd, bind, Except.bind, ensure, pure, Except.pure]

/-- Under the unique index of `Blobs`, when every row of the blob is live, a row of the blob with
the snapshot id of a live row of it is that row. -/
theorem eq_of_ofBlob_snapshot {a c n : String}
    (hidx : (s.blobs.map fun x => (x.key, x.deleting)).Nodup)
    (hlive : ∀ x ∈ s.blobs, x.ofBlob a c n = true → x.deleting = 0) {r x : BlobRow}
    (hr : r ∈ s.blobs) (hrk : r.key = (a, c, n, r.snapshot)) (hrd : r.deleting = 0)
    (hx : x ∈ s.blobs) (hxo : x.ofBlob a c n = true) (hxs : x.snapshot = r.snapshot) : x = r := by
  refine List.inj_on_of_nodup_map hidx hx hr (Prod.ext ?_ (by rw [hlive x hx hxo, hrd]))
  simp only [BlobRow.ofBlob, Bool.and_eq_true, beq_iff_eq] at hxo
  rw [hrk]
  simp only [BlobValues.key, hxo, hxs]

/-- Deleting the rows a clause accepts, when it accepts exactly `r`, deletes `r`. -/
theorem filter_not_eq_filter_ne {α : Type} [DecidableEq α] {l : List α} {p : α → Bool}
    {r : α} (h : ∀ x ∈ l, p x = true ↔ x = r) :
    l.filter (fun x => !p x) = l.filter (· ≠ r) :=
  List.filter_congr fun x hx => by
    rw [Bool.eq_iff_iff.2 ((h x hx).trans decide_eq_true_iff.symm)]
    simp

/-- Two different members make a list of at least two. -/
theorem two_le_length_of_mem {α : Type} [DecidableEq α] {l : List α} {x y : α} (hx : x ∈ l)
    (hy : y ∈ l) (hxy : x ≠ y) : 2 ≤ l.length := by
  have := List.length_pos_of_mem (List.mem_erase_of_ne (Ne.symm hxy) |>.2 hy)
  rw [List.length_erase_of_mem hx] at this
  omega

/-- For every store respecting the unique index of `Blobs` in which no row of the blob is
marked deleting, and every `deleteBlob` whose container, conditions and, against the base blob,
lease pass: against the base blob without `deleteSnapshots` it fails with `SnapshotsPresent`
exactly when a snapshot row of the name exists, and otherwise removes the base row and the
name's blocks; with `Include` it removes every row and block of the name; with `Only` it removes
the snapshot rows; against a snapshot it fails with `InvalidOperation` when `deleteSnapshots` is
given and otherwise removes that row. No other row changes. -/
theorem deleteBlob_follows_policy {a c n : String} {o : BlobDeleteOptions} {r : BlobRow}
    (hidx : (s.blobs.map fun x => (x.key, x.deleting)).Nodup)
    (hlive : ∀ x ∈ s.blobs, x.ofBlob a c n = true → x.deleting = 0)
    (hc : (a, c) ∈ s.containerKeys)
    (hr : s.blobs.find? (BlobRow.isLiveCommitted a c n (o.snapshot.getD "")) = some r)
    (hcond : validateWriteConditions rt o.modifiedAccessConditions (some r.model.target) = .ok ())
    (hlease : r.snapshot = "" → Lease.validateBlobWrite (r.model.lease.observe ctx.startTime)
      o.leaseAccessConditions = .ok ()) :
    (r.snapshot = "" → o.deleteSnapshots = none →
      ((∃ x ∈ s.blobs, x.ofBlob a c n = true ∧ x.snapshot ≠ "") →
        deleteBlob rt ctx a c n o s = .error .snapshotsPresent) ∧
      ((∀ x ∈ s.blobs, x.ofBlob a c n = true → x.snapshot = "") →
        deleteBlob rt ctx a c n o s = .ok { s with
          blobs := s.blobs.filter (· ≠ r),
          blocks := s.blocks.filter fun b => !b.ofBlob a c n })) ∧
    (r.snapshot = "" → o.deleteSnapshots = some .include →
      deleteBlob rt ctx a c n o s = .ok { s with
        blobs := s.blobs.filter fun x => !x.ofBlob a c n,
        blocks := s.blocks.filter fun b => !b.ofBlob a c n }) ∧
    (r.snapshot = "" → o.deleteSnapshots = some .only →
      deleteBlob rt ctx a c n o s =
        .ok { s with blobs := s.blobs.filter fun x => !(x.ofBlob a c n && x.snapshot != "") }) ∧
    (r.snapshot ≠ "" → o.deleteSnapshots.isSome →
      deleteBlob rt ctx a c n o s =
        .error (.invalidOperation "Invalid operation against a blob snapshot.")) ∧
    (r.snapshot ≠ "" → o.deleteSnapshots = none →
      deleteBlob rt ctx a c n o s = .ok { s with blobs := s.blobs.filter (· ≠ r) }) := by
  have heq := deleteBlob_of_checks hc hr hcond hlease
  obtain ⟨⟨hrk, hrd⟩, -⟩ := BlobRow.isLiveCommitted_eq_true.1 (List.find?_some hr)
  have hrm := List.mem_of_find?_eq_some hr
  obtain ⟨hro, hsnap⟩ := BlobRow.ofBlob_of_key hrk
  have uniq : ∀ x ∈ s.blobs, x.ofBlob a c n = true → x.snapshot = r.snapshot → x = r :=
    fun _ hx hxo hxs => eq_of_ofBlob_snapshot hidx hlive hrm (hsnap ▸ hrk) hrd hx hxo hxs
  refine ⟨fun hb hd => ⟨fun ⟨x, hx, hxo, hxs⟩ => ?_, fun hall => ?_⟩, fun hb hd => ?_,
    fun hb hd => ?_, fun hb hd => ?_, fun hb hd => ?_⟩
  · rw [heq, if_pos hb, hd, if_neg]
    rw [List.countP_eq_length_filter, not_le]
    exact two_le_length_of_mem (List.mem_filter.2 ⟨hrm, by simp [hro, hrd]⟩)
      (List.mem_filter.2 ⟨hx, by simp [hxo, hlive x hx hxo]⟩) fun he => hxs (he ▸ hb)
  · have hof : ∀ x ∈ s.blobs, x.ofBlob a c n = true ↔ x = r := fun x hx =>
      ⟨fun hxo => uniq x hx hxo ((hall x hx hxo).trans hb.symm), fun he => he ▸ hro⟩
    have hcount : s.blobs.countP (fun b => b.ofBlob a c n && b.deleting == 0) ≤ 1 :=
      calc s.blobs.countP (fun b => b.ofBlob a c n && b.deleting == 0)
          ≤ s.blobs.count r := List.countP_mono_left fun x hx h => by
            simp [(hof x hx).1 (Bool.and_eq_true _ _ ▸ h).1]
        _ ≤ 1 := List.nodup_iff_count_le_one.1 (List.Nodup.of_map _ hidx) r
    rw [heq, if_pos hb, hd, if_pos hcount]
    simp only [Store.deleteBlobFromSQL, Store.deleteBlockFromSQL]
    congr 2
    exact filter_not_eq_filter_ne hof
  · rw [heq, if_pos hb, hd]; rfl
  · rw [heq, if_pos hb, hd]
    refine congrArg (fun l => Except.ok { s with blobs := l }) (List.filter_congr fun x _ => ?_)
    have hx : decide ("" < x.snapshot) = (x.snapshot != "") :=
      Bool.eq_iff_iff.2 (decide_eq_true_iff.trans (empty_lt_iff_ne.trans bne_iff_ne.symm))
    simp only [hx]
  · rw [heq, if_neg hb, if_pos hd]
  · rw [heq, if_neg hb, hd]
    simp only [Option.isSome_none, Bool.false_eq_true, if_false, Store.deleteBlobFromSQL]
    refine congrArg (fun l => Except.ok { s with blobs := l })
      (filter_not_eq_filter_ne fun x hx => ⟨fun h => ?_, fun he => ?_⟩)
    · obtain ⟨hxo, hxs⟩ := Bool.and_eq_true _ _ ▸ h
      exact uniq x hx hxo (beq_iff_eq.1 hxs)
    · simp [he, hro]

end

theorem deleteBlob_follows_policy_leased :
    deleteBlob sampleRuntime laterCtx "a" "c" "b" { leaseAccessConditions := holderLac }
        leasedStore =
      .ok { leasedStore with
        blobs := leasedStore.blobs.filter (· ≠ leasedRow),
        blocks := leasedStore.blocks.filter fun b => !b.ofBlob "a" "c" "b" } :=
  (@deleteBlob_follows_policy sampleRuntime laterCtx leasedStore "a" "c" "b"
    { leaseAccessConditions := holderLac } leasedRow (by decide) (by decide) (by decide) rfl rfl
    (fun _ => rfl)).1 rfl rfl |>.2 (by decide)

/-- The snapshot `s1` of `b`, marked deleting. -/
def tombstoneRow : BlobRow :=
  ⟨{ convertBlobModelToDbModel sampleBlob with snapshot := "s1" }, 2, 1⟩

/-- The leased store with that tombstone beside the base row of `b`. -/
def tombstoneStore : Store :=
  { leasedStore with blobs := leasedStore.blobs ++ [tombstoneRow], nextBlobId := 3 }

/-- `deleteBlob` counts only rows with `deleting = 0` but destroys every row of the name: with a
snapshot row of `b` marked deleting, deleting the base blob without `deleteSnapshots` succeeds
and removes that snapshot row too. -/
theorem deleteBlob_removes_marked_snapshot :
    tombstoneRow ∈ tombstoneStore.blobs ∧ tombstoneRow.ofBlob "a" "c" "b" = true ∧
    tombstoneRow.snapshot ≠ "" ∧
    ∃ s', deleteBlob sampleRuntime laterCtx "a" "c" "b" { leaseAccessConditions := holderLac }
        tombstoneStore = .ok s' ∧ tombstoneRow ∉ s'.blobs :=
  ⟨by decide, rfl, by decide, _, rfl, by decide⟩


/-! ### Snapshots hold no lease -/

/-- A lease no one holds: it has no id and is neither leased nor breaking. -/
def Lease.Unheld (l : Lease) : Prop := l.leaseId = none ∧ l.locked = false

/-- No snapshot row carries a lease id or a leased or breaking lease. -/
def Store.SnapshotsUnleased (s : Store) : Prop :=
  ∀ r ∈ s.blobs, r.snapshot ≠ "" → r.model.lease.Unheld

/-- The requests that give no snapshot row a lease: all but a `createBlob` of a snapshot whose
model holds one. -/
def Op.leavesSnapshotsUnleased : Op → Prop
  | .createBlob b _ _ => b.snapshot ≠ "" → b.lease.Unheld
  | _ => True

/-- The stores that some sequence of successful requests, each one `ok` admits, builds from the
empty store. -/
inductive ReachableBy (rt : Runtime) (ok : Op → Prop) : Store → Prop where
  | empty : ReachableBy rt ok Store.empty
  | step {s s' : Store} (ctx : Context) (op : Op) :
      ReachableBy rt ok s → ok op → op.exec rt ctx s = .ok s' → ReachableBy rt ok s'

/-- An unheld lease is observed as stored, so still unheld. -/
theorem Lease.Unheld.observe {l : Lease} (h : l.Unheld) (now : Nat) : (l.observe now).Unheld := by
  rw [Lease.observe_eq_of_not_locked h.2]
  exact h

/-- An undefined state reads as `available`, which no one holds. -/
theorem Lease.Unheld.withDefaults {l : Lease} (h : l.Unheld) : l.withDefaults.Unheld :=
  ⟨h.1, (Lease.locked_withDefaults l).trans h.2⟩

/-- A row `findOne` accepts on a live key has the key's snapshot. -/
theorem BlobRow.snapshot_of_isLive {r : BlobRow} {a c n snap : String}
    (h : r.isLive a c n snap = true) : r.snapshot = snap :=
  (BlobRow.ofBlob_of_key (BlobRow.isLive_eq_true.1 h).1).2

namespace Store.SnapshotsUnleased
variable {s : Store}

theorem of_subset (hs : s.SnapshotsUnleased) {s' : Store} (h : ∀ r ∈ s'.blobs, r ∈ s.blobs) :
    s'.SnapshotsUnleased :=
  fun r hr => hs r (h r hr)

/-- An in-place rewrite keeps the invariant when each snapshot row it writes holds no lease. -/
theorem updateBlobs (hs : s.SnapshotsUnleased) {p : BlobRow → Bool} {f : BlobRow → BlobRow}
    (hf : ∀ r ∈ s.blobs, p r = true → (f r).snapshot ≠ "" → (f r).model.lease.Unheld) :
    (s.updateBlobs p f).SnapshotsUnleased := by
  simp only [Store.SnapshotsUnleased, Store.updateBlobs, List.mem_map]
  rintro _ ⟨r, hr, rfl⟩
  by_cases hp : p r = true
  · rw [if_pos hp]; exact hf r hr hp
  · rw [if_neg hp]; exact hs r hr

/-- A rewrite of the base rows of a blob that leaves them base rows keeps the invariant. -/
theorem updateBase (hs : s.SnapshotsUnleased) {a c n : String} {f : BlobRow → BlobRow}
    (hf : ∀ r, r.snapshot = "" → (f r).snapshot = "") :
    (s.updateBlobs (BlobRow.isLive a c n "") f).SnapshotsUnleased :=
  hs.updateBlobs fun r _ hp hne => absurd (hf r (BlobRow.snapshot_of_isLive hp)) hne

/-- An upsert keeps the invariant when the row it writes holds no lease or is a base row. -/
theorem upsertBlob (hs : s.SnapshotsUnleased) {v : BlobValues}
    (hv : v.snapshot ≠ "" → (convertDbModelToLease v.lease).Unheld) :
    (s.upsertBlob v).SnapshotsUnleased := by
  cases h : s.blobs.any (BlobRow.isLive v.accountName v.containerName v.blobName v.snapshot)
  · rw [Store.upsertBlob_of_not_any h]
    intro r hr
    rcases List.mem_append.1 hr with hr | hr
    · exact hs r hr
    · rw [List.mem_singleton.1 hr]; exact fun hn => (hv hn).withDefaults
  · rw [Store.upsertBlob_of_any h]
    exact hs.updateBlobs fun _ _ _ hn => (hv hn).withDefaults

theorem deleteBlobFromSQL (hs : s.SnapshotsUnleased) (p : BlobRow → Bool) :
    (s.deleteBlobFromSQL p).SnapshotsUnleased :=
  hs.of_subset fun _ hr => (List.mem_filter.1 hr).1

theorem deleteBlockFromSQL (hs : s.SnapshotsUnleased) (p : BlockRow → Bool) :
    (s.deleteBlockFromSQL p).SnapshotsUnleased :=
  hs

theorem upsertBlock (hs : s.SnapshotsUnleased) (a c n m : String) (size : Nat)
    (persistency : Option ExtentChunk) :
    (s.upsertBlock a c n m size persistency).SnapshotsUnleased :=
  hs.of_subset fun _ hr => by rwa [Store.upsertBlock_blobs] at hr

theorem updateContainers (hs : s.SnapshotsUnleased) (p : ContainerRow → Bool)
    (f : ContainerRow → ContainerRow) : (s.updateContainers p f).SnapshotsUnleased :=
  hs

variable {rt : Runtime} {ctx : Context} {s' : Store}

/-- Every successful request that gives no snapshot row a lease keeps the invariant. -/
theorem step (hs : s.SnapshotsUnleased) {op : Op} (hop : op.leavesSnapshotsUnleased)
    (h : op.exec rt ctx s = .ok s') : s'.SnapshotsUnleased := by
  cases op with
  | setServiceProperties p =>
    obtain ⟨⟨_, _⟩, hx, rfl⟩ := map_eq_ok.1 h
    exact hs.of_subset fun r hr => (setServiceProperties_ok hx).2.1 ▸ hr
  | createContainer k =>
    obtain ⟨⟨_, _⟩, hx, rfl⟩ := map_eq_ok.1 h
    obtain ⟨v, -, rfl⟩ := createContainer_ok hx
    exact hs
  | deleteContainer a c lac mac =>
    obtain ⟨r, -, -, rfl⟩ := deleteContainer_ok h
    exact fun r hr => hs r (List.mem_filter.1 hr).1
  | setContainerMetadata a c lm e md lac mac =>
    obtain ⟨r, -, -, rfl⟩ := setContainerMetadata_ok h
    exact hs.updateContainers _ _
  | setContainerACL a c acl =>
    obtain ⟨r, -, -, rfl, -⟩ := setContainerACL_ok h
    exact hs.updateContainers _ _
  | acquireContainerLease | releaseContainerLease | renewContainerLease | breakContainerLease
  | changeContainerLease =>
    obtain ⟨⟨_, _⟩, hx, rfl⟩ := map_eq_ok.1 h
    obtain ⟨r, l, -, -, rfl⟩ := containerLeaseOperation_ok hx
    exact hs.updateContainers _ _
  | createBlob b lac mac =>
    obtain ⟨-, -, ⟨-, rfl⟩ | ⟨r, hr, -, rfl⟩⟩ := createBlob_ok h
    · exact hs.upsertBlob hop
    · obtain ⟨hm, hk, -⟩ := Store.find?_isLiveCommitted hr
      have hsnap : r.snapshot = b.snapshot := (BlobRow.ofBlob_of_key hk).2
      exact hs.upsertBlob fun hb => ((hs r hm (hsnap ▸ hb)).observe _).withDefaults
  | stageBlock b lac =>
    obtain ⟨-, ⟨r, -, -, -, rfl⟩ | ⟨-, rfl⟩⟩ := stageBlock_ok h
    · exact hs.upsertBlock _ _ _ _ _ _
    · exact (hs.upsertBlob fun hb => (hb rfl).elim).upsertBlock _ _ _ _ _ _
  | commitBlockList b l lac mac =>
    obtain ⟨-, -, _, _, _, -, -, rfl⟩ := commitBlockList_ok h
    exact hs.upsertBlob fun _ => ⟨rfl, rfl⟩
  | createSnapshot a c n lac md mac =>
    obtain ⟨⟨_, _⟩, hx, rfl⟩ := map_eq_ok.1 h
    obtain ⟨-, r, -, -, rfl⟩ := createSnapshot_ok hx
    exact hs.upsertBlob fun _ => ⟨rfl, rfl⟩
  | deleteBlob a c n o =>
    obtain ⟨-, r, -, -, ⟨-, -, ⟨-, rfl⟩ | ⟨-, rfl⟩⟩ | ⟨-, -, rfl⟩⟩ :=
      deleteBlob_ok h
    · exact (deleteBlobFromSQL hs _).deleteBlockFromSQL _
    · exact deleteBlobFromSQL hs _
    · exact deleteBlobFromSQL hs _
  | setBlobHTTPHeaders a c n lac hd mac =>
    obtain ⟨⟨_, _⟩, hx, rfl⟩ := map_eq_ok.1 h
    obtain ⟨r, hr, -, rfl⟩ := setBlobHTTPHeaders_ok hx
    obtain ⟨-, hr, -⟩ := findBaseBlobForWrite_ok hr
    have hk := (BlobRow.ofBlob_of_key (Store.find?_isLiveCommitted hr).2.1).2
    exact hs.updateBase fun _ _ => hk
  | setBlobMetadata a c n lac md mac =>
    obtain ⟨⟨_, _⟩, hx, rfl⟩ := map_eq_ok.1 h
    obtain ⟨r, -, -, rfl⟩ := setBlobMetadata_ok hx
    exact hs.updateBase fun _ h => h
  | acquireBlobLease | releaseBlobLease | renewBlobLease | breakBlobLease | changeBlobLease =>
    obtain ⟨⟨_, _⟩, hx, rfl⟩ := map_eq_ok.1 h
    obtain ⟨r, l, -, -, rfl⟩ := blobLeaseOperation_ok hx
    exact hs.updateBase fun _ h => h
  | startCopyFromURL src dst cs md t o =>
    obtain ⟨⟨_, _⟩, hx, rfl⟩ := map_eq_ok.1 h
    obtain ⟨-, -, -, -, -, -, -, -, rfl⟩ := startCopyFromURL_ok hx
    exact hs.upsertBlob fun hb => (hb rfl).elim
  | setTier a c n t lac =>
    obtain ⟨⟨_, _⟩, hx, rfl⟩ := map_eq_ok.1 h
    obtain ⟨-, r, -, -, rfl⟩ := setTier_ok hx
    exact hs.updateBase fun _ h => h
  | setBlobTag a c n snap lac tags mac =>
    obtain ⟨-, r, hr, -, rfl⟩ := setBlobTag_ok mac h
    obtain ⟨hm, hk, -⟩ := Store.find?_isLiveCommitted hr
    have hsnap := (BlobRow.ofBlob_of_key hk).2
    refine hs.updateBlobs fun r' _ hp hne => ((hs r hm ?_).observe _).withDefaults
    rwa [hsnap, ← BlobRow.snapshot_of_isLive hp]

end Store.SnapshotsUnleased

/-- Along every history whose `createBlob` requests give a snapshot no lease, no snapshot row
carries a lease id or a leased or breaking lease. -/
theorem snapshot_rows_hold_no_lease {rt : Runtime} {s : Store}
    (h : ReachableBy rt Op.leavesSnapshotsUnleased s) : s.SnapshotsUnleased := by
  induction h with
  | empty => exact fun r hr => nomatch hr
  | step ctx op _ hok hexec ih => exact ih.step hok hexec

/-! ### A snapshot created with a lease -/

section
variable {rt : Runtime} {ctx : Context} {s s' : Store}

/-- The first live row of a key is its committed row when it is committed. -/
theorem Store.find?_isLiveCommitted_of_isLive {a c n snap : String} {r : BlobRow}
    (h : s.blobs.find? (BlobRow.isLive a c n snap) = some r) (hc : r.isCommitted = true) :
    s.blobs.find? (BlobRow.isLiveCommitted a c n snap) = some r := by
  obtain ⟨hr, as, bs, he, hn⟩ := List.find?_eq_some.1 h
  refine List.find?_eq_some.2 ⟨by simp [BlobRow.isLiveCommitted, hr, hc], as, bs, he, ?_⟩
  intro x hx
  simp [BlobRow.isLiveCommitted, by simpa using hn x hx]

/-- `createBlob` of a committed model whose key has no committed row stores the lease of the
model, whatever its snapshot: `getBlobProperties` of the key reports that lease, observed at the
reader's time. `getBlobWithLeaseUpdated` marks snapshots "Snapshot doesn't have lease" and reads
them as available and unlocked, but `createBlob` has no such branch. -/
theorem createBlob_stores_model_lease {blob : BlobModel} {lac : Option LeaseAccessConditions}
    {mac : Option ModifiedAccessConditions} (h : createBlob rt ctx blob lac mac s = .ok s')
    (hnew : s.blobs.find? (BlobRow.isLiveCommitted blob.accountName blob.containerName blob.name
      blob.snapshot) = none) (hc : blob.isCommitted = true) (ctx' : Context) :
    (·.lease) <$> getBlobProperties rt ctx' blob.accountName blob.containerName blob.name
      blob.snapshot none none s' = .ok (blob.lease.observe ctx'.startTime) := by
  obtain ⟨hk, -, ⟨-, rfl⟩ | ⟨r, hr, -⟩⟩ := createBlob_ok h
  · have hkey : (convertBlobModelToDbModel blob).key =
        (blob.accountName, blob.containerName, blob.name, blob.snapshot) := rfl
    obtain ⟨r, hr, hl⟩ := @Store.lease_upsertBlob_self s _ _ _ _ _ hkey
    obtain ⟨r', hr', hrc, -⟩ := @Store.find?_upsertBlob_key s _ _ _ _ _ hkey
    cases hr.symm.trans hr'
    rw [getBlobProperties_of_find (by simpa [Store.containerKeys] using hk)
      (Store.find?_isLiveCommitted_of_isLive hr (hrc.trans hc))]
    simp [hl]
  · rw [hnew] at hr
    cases hr

end

/-- The store after creating the container `c`. -/
def containerStore : Store :=
  { containers := [sampleContainerRow "c" 1], nextContainerId := 2 }

/-- The snapshot `s` of `b`, as a caller hands it to `createBlob` with the lease `L`. -/
def leasedSnapshot : BlobModel := { sampleBlob with snapshot := "s" }.syncLease sampleLease

/-- The store after creating the container and then `leasedSnapshot`. -/
def leasedSnapshotStore : Store :=
  { containers := [sampleContainerRow "c" 1],
    blobs := [⟨convertBlobModelToDbModel leasedSnapshot, 1, 0⟩],
    nextContainerId := 2, nextBlobId := 2 }

/-- `createBlob` of `leasedSnapshot` on the store with only the container leaves a reachable store
with a snapshot row leased as `L`, and `getBlobProperties` of the snapshot reports the lease as
locked. -/
theorem createBlob_leases_snapshot :
    Reachable sampleRuntime leasedSnapshotStore ∧
      (∃ r ∈ leasedSnapshotStore.blobs, r.snapshot ≠ "" ∧
        r.model.lease.leaseId = some "L" ∧ r.model.lease.locked = true) ∧
      (·.lease) <$> getBlobProperties sampleRuntime laterCtx "a" "c" "b" "s" none none
        leasedSnapshotStore = .ok (leasedSnapshot.lease.observe laterCtx.startTime) ∧
      (leasedSnapshot.lease.observe laterCtx.startTime).locked = true :=
  ⟨.step { startTime := 0 } (.createBlob leasedSnapshot none none)
      (.step { startTime := 0 } (.createContainer sampleContainer) .empty rfl) rfl,
    ⟨_, List.mem_singleton_self _, by decide, rfl, rfl⟩,
    createBlob_stores_model_lease
      (show createBlob sampleRuntime { startTime := 0 } leasedSnapshot none none containerStore =
        .ok leasedSnapshotStore from rfl) rfl rfl laterCtx,
    rfl⟩

/-- `leasedStore` is built by requests that give no snapshot a lease. -/
theorem reachableBy_leasedStore :
    ReachableBy sampleRuntime Op.leavesSnapshotsUnleased leasedStore :=
  .step { startTime := 0 } (.acquireBlobLease "a" "c" "b" 15 (some "L") none)
    (.step { startTime := 0 } (.createBlob sampleBlob none none)
      (.step { startTime := 0 } (.createContainer sampleContainer) .empty trivial rfl)
      (fun h => (h rfl).elim) rfl) trivial rfl

example :
    ∃ s, Op.exec sampleRuntime laterCtx (.createSnapshot "a" "c" "b" none none none) leasedStore =
        .ok s ∧ s.SnapshotsUnleased :=
  ⟨_, rfl, snapshot_rows_hold_no_lease
    (.step laterCtx (.createSnapshot "a" "c" "b" none none none) reachableBy_leasedStore trivial
      rfl)⟩

end Azurite
