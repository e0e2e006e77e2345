import Azurite.Native.Basic

/-!
# Leases

The lease of a container or a blob: its fields (`ILease`), the state it is in when a request
observes it, the five lease operations, and the checks that other operations run against it.

The store reaches all of this through `LeaseFactory.createLeaseState`, the lease validators and
the lease syncers of `src/blob/lease/`, which are not among the sources at hand. Every definition
below is therefore modelled from §4.1 of the spec. The store keeps a lease as stored fields and
"derives the current effective state by comparing stored expire/break timestamps against now"
(`Lease.observe`); operations then run on that observed lease, and a syncer writes the observed
fields back into the entity.
-/

namespace Azurite

/-- `Models.LeaseStateType`. -/
inductive LeaseStateType where
  | available | leased | expired | breaking | broken
  deriving DecidableEq, Repr

/-- `Models.LeaseStatusType`. -/
inductive LeaseStatusType where
  | locked | unlocked
  deriving DecidableEq, Repr

/-- `Models.LeaseDurationType`. -/
inductive LeaseDurationType where
  | infinite | fixed
  deriving DecidableEq, Repr

/-- `ILease`: the lease fields of a container or a blob, times in milliseconds. The empty
record `{}` is what `convertDbModelToLease` makes of a `null` lease column. -/
structure Lease where
  leaseId : Option String := none
  leaseState : Option LeaseStateType := none
  leaseStatus : Option LeaseStatusType := none
  leaseDurationType : Option LeaseDurationType := none
  leaseDurationSeconds : Option Nat := none
  leaseExpireTime : Option Nat := none
  leaseBreakTime : Option Nat := none
  deriving DecidableEq, Repr

/-- `Models.LeaseAccessConditions`. -/
structure LeaseAccessConditions where
  leaseId : Option String := none
  deriving DecidableEq, Repr

/-- The lease id a request carries, if any. -/
def LeaseAccessConditions.id? (lac : Option LeaseAccessConditions) : Option String :=
  lac.bind (·.leaseId)

namespace Lease

/-- The lease left when a fixed lease has expired: unlocked, with its id kept. -/
def expired (l : Lease) : Lease :=
  { leaseId := l.leaseId, leaseState := some .expired, leaseStatus := some .unlocked }

/-- The lease left when a lease is broken: unlocked, with its id kept. -/
def broken (l : Lease) : Lease :=
  { leaseId := l.leaseId, leaseState := some .broken, leaseStatus := some .unlocked }

/-- Modelled from the spec: `LeaseFactory.createLeaseState(lease, context)`, the lease as a
request at time `now` observes it. A leased lease whose expire time has come is expired, a
breaking lease whose break time has come is broken; any other lease is observed as stored. -/
def observe (l : Lease) (now : Nat) : Lease :=
  match l.leaseState, l.leaseExpireTime, l.leaseBreakTime with
  | some .leased, some t, _ => if t ≤ now then l.expired else l
  | some .breaking, _, some t => if t ≤ now then l.broken else l
  | _, _, _ => l

/-- A lease is locked when it is leased or breaking: only its holder may then write. -/
def locked (l : Lease) : Bool :=
  l.leaseState = some .leased || l.leaseState = some .breaking

/-- The lease of an entity no one has leased: available and unlocked, the initial state of a
lease. -/
def initial : Lease := { leaseState := some .available, leaseStatus := some .unlocked }

/-- The lease with an undefined state and status read as those of `initial`. -/
def withDefaults (l : Lease) : Lease :=
  { l with leaseState := some (l.leaseState.getD .available),
           leaseStatus := some (l.leaseStatus.getD .unlocked) }

/-- A lease whose state and status are both defined. -/
def Defined (l : Lease) : Prop := l.leaseState.isSome ∧ l.leaseStatus.isSome

instance : DecidablePred Defined := fun _ => inferInstanceAs (Decidable (_ ∧ _))

/-- Modelled from the spec: the check of a write lease validator (`BlobWriteLeaseValidator`,
`ContainerDeleteLeaseValidator`). A locked lease lets a request through only when it carries the
lease's id; `missing` and `mismatch` are the validator's errors. -/
def validateLocked (missing mismatch : StorageError) (l : Lease)
    (lac : Option LeaseAccessConditions) : Except StorageError Unit :=
  if l.locked then
    match LeaseAccessConditions.id? lac with
    | none => .error missing
    | some id => if l.leaseId = some id then .ok () else .error mismatch
  else .ok ()

/-- Modelled from the spec: the check of a read lease validator (`BlobReadLeaseValidator`,
`ContainerReadLeaseValidator`). A request without a lease id passes; one with an id passes only
when the lease is locked with that id. -/
def validateRead (notPresent mismatch : StorageError) (l : Lease)
    (lac : Option LeaseAccessConditions) : Except StorageError Unit :=
  match LeaseAccessConditions.id? lac with
  | none => .ok ()
  | some id =>
    if !l.locked then .error notPresent
    else if l.leaseId = some id then .ok () else .error mismatch

/-- `BlobWriteLeaseValidator`. -/
def validateBlobWrite : Lease → Option LeaseAccessConditions → Except StorageError Unit :=
  validateLocked .leaseIdMissing .leaseIdMismatchWithBlobOperation

/-- `ContainerDeleteLeaseValidator`. -/
def validateContainerDelete : Lease → Option LeaseAccessConditions → Except StorageError Unit :=
  validateLocked .leaseIdMissing .leaseIdMismatchWithContainerOperation

/-- `BlobReadLeaseValidator`. -/
def validateBlobRead : Lease → Option LeaseAccessConditions → Except StorageError Unit :=
  validateRead .leaseNotPresentWithBlobOperation .leaseIdMismatchWithBlobOperation

/-- `ContainerReadLeaseValidator`. -/
def validateContainerRead : Lease → Option LeaseAccessConditions → Except StorageError Unit :=
  validateRead .leaseNotPresentWithContainerOperation .leaseIdMismatchWithContainerOperation

/-! ### The five lease operations

Each runs on the observed lease and yields the lease to store. -/

/-- Modelled from the spec: `acquire(duration, proposedLeaseId)`. `duration` is `-1` (infinite)
or in `[15, 60]` seconds; `generatedId` is the id the state machine makes up when none is
proposed. -/
def acquire (l : Lease) (now : Nat) (duration : Int) (proposedLeaseId : Option String)
    (generatedId : String) : Except StorageError Lease :=
  if ¬(duration = -1 ∨ (15 ≤ duration ∧ duration ≤ 60)) then
    .error (.invalidHeaderValue "x-ms-lease-duration" (toString duration))
  else match l.leaseState with
    | some .leased => .error .leaseAlreadyPresent
    | some .breaking => .error .leaseIsBreakingAndCannotBeAcquired
    | _ =>
      let id := proposedLeaseId.getD generatedId
      if duration = -1 then
        .ok { leaseId := some id, leaseState := some .leased, leaseStatus := some .locked,
              leaseDurationType := some .infinite }
      else
        .ok { leaseId := some id, leaseState := some .leased, leaseStatus := some .locked,
              leaseDurationType := some .fixed, leaseDurationSeconds := some duration.toNat,
              leaseExpireTime := some (now + 1000 * duration.toNat) }

/-- Modelled from the spec: `renew(leaseId)`, legal while leased or breaking with the matching id;
the new expire time runs the original duration from now. -/
def renew (l : Lease) (now : Nat) (leaseId : String) : Except StorageError Lease :=
  match l.leaseState with
  | some .leased | some .breaking =>
    if l.leaseId = some leaseId then
      .ok { l with leaseState := some .leased, leaseStatus := some .locked,
                   leaseExpireTime := l.leaseDurationSeconds.map (now + 1000 * ·),
                   leaseBreakTime := none }
    else .error .leaseIdMismatchWithLeaseOperation
  | some .broken => .error .leaseIsBrokenAndCannotBeRenewed
  | _ => .error .leaseNotPresentWithLeaseOperation

/-- Modelled from the spec: `release(leaseId)`, legal while leased or breaking with the matching
id; the lease becomes available and loses its id and times. -/
def release (l : Lease) (leaseId : String) : Except StorageError Lease :=
  match l.leaseState with
  | some .leased | some .breaking =>
    if l.leaseId = some leaseId then
      .ok { leaseState := some .available, leaseStatus := some .unlocked }
    else .error .leaseIdMismatchWithLeaseOperation
  | _ => .error .leaseNotPresentWithLeaseOperation

/-- Modelled from the spec: `break(breakPeriod)`. An infinite lease, or a break without a period,
breaks at once; otherwise the lease is breaking stop the earlier of its expire time and the end
of the period. Breaking again never moves the break time later; a broken lease stays broken. -/
def «break» (l : Lease) (now : Nat) (breakPeriod : Option Nat) : Except StorageError Lease :=
  match l.leaseState, breakPeriod with
  | some .leased, none => .ok l.broken
  | some .leased, some p =>
    if l.leaseDurationType = some .infinite then .ok l.broken
    else
      let stop := now + 1000 * p
      .ok { l with leaseState := some .breaking, leaseStatus := some .locked,
                   leaseBreakTime := some ((l.leaseExpireTime.getD stop).min stop) }
  | some .breaking, none => .ok l
  | some .breaking, some p =>
    let stop := now + 1000 * p
    .ok { l with leaseBreakTime := some ((l.leaseBreakTime.getD stop).min stop) }
  | some .broken, _ => .ok l
  | _, _ => .error .leaseNotPresentWithLeaseOperation

/-- Modelled from the spec: `change(leaseId, proposedLeaseId)`, legal only while leased with the
matching id; only the id changes. -/
def change (l : Lease) (leaseId proposedLeaseId : String) : Except StorageError Lease :=
  match l.leaseState with
  | some .leased =>
    if l.leaseId = some leaseId then .ok { l with leaseId := some proposedLeaseId }
    else .error .leaseIdMismatchWithLeaseOperation
  | some .breaking => .error .leaseIsBreakingAndCannotBeChanged
  | _ => .error .leaseNotPresentWithLeaseOperation

/-! ### Defined leases -/

variable {l l' : Lease}

theorem withDefaults_defined (l : Lease) : l.withDefaults.Defined := ⟨rfl, rfl⟩

theorem withDefaults_of_defined (h : l.Defined) : l.withDefaults = l := by
  obtain ⟨_, _ | _, _ | _, _, _, _, _⟩ := l <;> simp_all [Defined, withDefaults]

@[simp] theorem withDefaults_withDefaults (l : Lease) : l.withDefaults.withDefaults =
    l.withDefaults := rfl

/-- An undefined state reads as `available`, which is not locked. -/
@[simp] theorem locked_withDefaults (l : Lease) : l.withDefaults.locked = l.locked := by
  obtain ⟨_, _ | _, _⟩ := l <;> rfl

theorem observe_defined (h : l.Defined) (now : Nat) : (l.observe now).Defined := by
  unfold observe
  split <;> (try split) <;> first | exact ⟨rfl, rfl⟩ | exact h

@[simp] theorem withDefaults_observe_withDefaults (l : Lease) (now : Nat) :
    (l.withDefaults.observe now).withDefaults = l.withDefaults.observe now :=
  withDefaults_of_defined (observe_defined (withDefaults_defined l) now)

/-- The five lease operations leave a lease whose state and status are defined. -/
theorem acquire_defined {now : Nat} {d : Int} {p : Option String} {g : String}
    (h : l.acquire now d p g = .ok l') : l'.Defined := by
  unfold acquire at h
  split at h
  · cases h
  · split at h <;> (try split at h) <;> cases h <;> exact ⟨rfl, rfl⟩

theorem renew_defined {now : Nat} {id : String} (h : l.renew now id = .ok l') : l'.Defined := by
  unfold renew at h
  split at h <;> (try split at h) <;> cases h <;> exact ⟨rfl, rfl⟩

theorem release_defined {id : String} (h : l.release id = .ok l') : l'.Defined := by
  unfold release at h
  split at h <;> (try split at h) <;> cases h <;> exact ⟨rfl, rfl⟩

theorem break_defined (hl : l.Defined) {now : Nat} {p : Option Nat}
    (h : l.break now p = .ok l') : l'.Defined := by
  unfold «break» at h
  split at h <;> (try split at h) <;> cases h <;> first | exact ⟨rfl, rfl⟩ | exact hl

theorem change_defined (hl : l.Defined) {id p : String} (h : l.change id p = .ok l') :
    l'.Defined := by
  unfold change at h
  split at h <;> (try split at h) <;> cases h
  exact hl

/-! ### Observation lemmas -/

/-- A lease that is still locked at `now` is observed as stored. -/
theorem observe_eq_of_locked {l : Lease} {now : Nat} (h : (l.observe now).locked) :
    l.observe now = l := by
  obtain ⟨id, st, _, _, _, et, bt⟩ := l
  rcases st with _ | ⟨_ | _ | _ | _ | _⟩ <;> rcases et with _ | t <;> rcases bt with _ | b <;>
    simp only [observe] at h ⊢ <;> split_ifs at h ⊢ <;> simp_all [locked, expired, broken]

/-- A lease that is neither leased nor breaking is observed as stored. -/
theorem observe_eq_of_not_locked {l : Lease} {now : Nat} (h : l.locked = false) :
    l.observe now = l := by
  unfold observe
  split <;> simp_all [locked]

/-- A write lease check passes exactly when the observed lease is unlocked or the request
carries its id. -/
theorem validateLocked_ok {missing mismatch : StorageError} {l : Lease}
    {lac : Option LeaseAccessConditions} :
    validateLocked missing mismatch l lac = .ok () ↔
      (l.locked = true → ∃ id, LeaseAccessConditions.id? lac = some id ∧
        l.leaseId = some id) := by
  unfold validateLocked
  split
  · split <;> simp_all
  · simp_all

end Lease

end Azurite
