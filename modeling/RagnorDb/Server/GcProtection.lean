import RagnorDb.Catalog.MetadataGc

/-!
# Protection of the readers of a process

A process holds one protection in the metadata state for all its transactions
(`transaction_lifecycle.rs`).  The tracker keeps the active transactions and a cache of the
published lease; it publishes when the cache does not cover a new reader, and a background task
renews the lease, raises its floor or gives it up.  The tracker's lock is held across a
publication, while other processes go on, so each method is given in two halves: what it does
before the publication, and what it does with the result.
-/

namespace RagnorDb

open Std Checked OrderedMap

/-- `AGGREGATE_GC_PROTECTION_ID`, that is `u128::MAX - 2`. -/
def aggregateGcProtectionId : Nat := 2 ^ 128 - 3

inductive GcProtectionPublication where
  | register (floor : Timestamp) (deadlineMs : Nat)
  | update (floor : Timestamp) (deadlineMs : Nat)
  | renew (deadlineMs : Nat)
  | release
  deriving DecidableEq

/-- `published_floor` and `published_deadline_ms`, which are set and cleared together. -/
structure PublishedLease where
  floor : Timestamp
  deadlineMs : Nat
  deriving DecidableEq

/-- Process-local membership for ordinary transaction history pins. -/
structure GcProtectionTracker where
  active : ExtTreeMap TxnId Timestamp := ∅
  published : Option PublishedLease := none
  idleSince : Option Nat := none
  leaseHealthy : Bool := true

/-- What a method does before its publication: the publication to make, if one is needed. -/
abbrev GcPlan := Except Error (Option GcProtectionPublication) × GcProtectionTracker

namespace GcProtectionTracker

variable (self : GcProtectionTracker)

/-- The deadline that foreground requests see; zero means that there is no published lease. -/
def leaseDeadline : Nat :=
  self.published.elim 0 (·.deadlineMs)

def activeFloor : Option Timestamp :=
  (values self.active).min?

variable (txnId : TxnId)

def setActive (readTs : Timestamp) : GcProtectionTracker :=
  { self with active := self.active.insert txnId readTs, idleSince := none }

def setUnhealthy : GcProtectionTracker :=
  { self with leaseHealthy := false }

/-- `register_with_publish` up to its publication. -/
def registerPlan (readTs : Timestamp) (deadlineMs nowMs renewBeforeMs : Nat) : GcPlan :=
  -- A duplicate attempt belongs to the existing admission.
  if txnId ∈ self.active then
    (.ok none, self)
  else
    let admitted := self.setActive txnId readTs
    let floor := admitted.activeFloor.getD readTs
    match self.published with
    | none => (.ok (some (.register floor deadlineMs)), admitted)
    | some previous =>
      if previous.deadlineMs ≤ nowMs then
        (.error (.proposalUnavailable
          "aggregate GC protection lease expired before transaction admission"),
          self.setUnhealthy)
      else if floor < previous.floor then
        (.ok (some (.update floor (max deadlineMs previous.deadlineMs))), admitted)
      else if self.leaseHealthy = false ∨ previous.deadlineMs ≤ renewBeforeMs then
        (.ok (some (.renew (max deadlineMs previous.deadlineMs))), admitted)
      else
        -- The current durable floor protects this read timestamp.
        (.ok none, admitted)

/-- The stores after a publication that succeeded. -/
def storePublication : GcProtectionPublication → GcProtectionTracker
  | .register floor deadlineMs | .update floor deadlineMs =>
    { self with published := some ⟨floor, deadlineMs⟩, leaseHealthy := true }
  | .renew deadlineMs =>
    { self with
      published := self.published.map fun lease => { lease with deadlineMs }
      leaseHealthy := true }
  | .release => { self with published := none, idleSince := none, leaseHealthy := true }

/-- Take back the registration of a transaction. -/
def withdraw (previousIdleSince : Option Nat) : GcProtectionTracker :=
  { self with active := self.active.erase txnId, idleSince := previousIdleSince }

/-- `register_with_publish` after its publication. -/
def registerSettle (previousIdleSince : Option Nat) (publication : GcProtectionPublication) :
    Except Error Unit → GcPlan
  | .error error =>
    let withdrawn := self.withdraw txnId previousIdleSince
    match publication with
    | .update _ _ | .renew _ =>
      (.error error, if withdrawn.active.isEmpty then withdrawn else withdrawn.setUnhealthy)
    | .register _ _ | .release => (.error error, withdrawn)
  | .ok () =>
    match publication with
    | .release =>
      (.error (.corruptData "transaction registration cannot release aggregate GC protection"),
        self.withdraw txnId previousIdleSince)
    | publication => (.ok (some publication), self.storePublication publication)

/-- Remove one transaction without a publication: the published floor stays. -/
def releaseLocal (now : Nat) : Bool × GcProtectionTracker :=
  if txnId ∈ self.active then
    let active := self.active.erase txnId
    (true, { self with active, idleSince := if active.isEmpty then some now else self.idleSince })
  else
    (false, self)

variable {txnId}

/-- `reconcile_with_publish` up to its publication. -/
def reconcilePlan (now idleGrace nextDeadlineMs renewBeforeMs : Nat) :
    Option GcProtectionPublication × GcProtectionTracker :=
  let renewal (previous : PublishedLease) : Option GcProtectionPublication :=
    if self.leaseHealthy = false ∨ previous.deadlineMs ≤ renewBeforeMs then
      some (.renew nextDeadlineMs)
    else none
  match self.activeFloor with
  | some floor =>
    (self.published.bind fun previous =>
      if previous.floor < floor then
        some (.update floor (max nextDeadlineMs previous.deadlineMs))
      else renewal previous,
      { self with idleSince := none })
  | none =>
    match self.idleSince, self.published with
    | none, _ => (none, self)
    | some _, none => (none, { self with idleSince := none })
    | some idleSince, some previous =>
      (if idleGrace ≤ now - idleSince then some .release else renewal previous, self)

/-- `reconcile_with_publish` after its publication. -/
def reconcileSettle (publication : GcProtectionPublication) :
    Except Error Unit → GcPlan
  | .error error => (.error error, self.setUnhealthy)
  | .ok () =>
    match publication with
    | .register _ _ =>
      (.error (.corruptData "GC reconciliation cannot register a new aggregate protection"),
        self)
    | publication => (.ok (some publication), self.storePublication publication)

/-- `renew` up to its publication: whether the lease is extended. -/
def renewPlan (deadlineMs : Nat) : Bool :=
  match self.published with
  | none => false
  | some previous => !self.active.isEmpty && previous.deadlineMs < deadlineMs

/-- `renew` after its publication. -/
def renewSettle (deadlineMs : Nat) : Except Error Unit → Except Error Bool × GcProtectionTracker
  | .error error => (.error error, self.setUnhealthy)
  | .ok () => (.ok true, self.storePublication (.renew deadlineMs))

end GcProtectionTracker

/-! ## The runtime of a process -/

structure GcProtectionConfig where
  gcProtectionLeaseMs : Nat
  maxClockSkewMs : Nat
  gcProtectionIdleGrace : Nat

/-- The clock that no process is ahead of. -/
def conservativeGcExpirationTimeMs (nowMs maxClockSkewMs : Nat) : Nat :=
  nowMs - maxClockSkewMs

namespace GcProtectionConfig

variable (config : GcProtectionConfig)

/-- The deadline of a lease taken now, and the boundary below which a lease is renewed. -/
def leaseTimes (nowMs : Nat) (boundaryError : String) : Except Error (Nat × Nat) := do
  let deadlineMs ← okOr (checkedAdd nowMs config.gcProtectionLeaseMs)
    (.invalidArgument "GC protection deadline overflowed")
  let renewBeforeMs ← okOr
    ((checkedAdd nowMs (config.gcProtectionLeaseMs / 2)).bind
      (checkedAdd · config.maxClockSkewMs))
    (.invalidArgument boundaryError)
  return (deadlineMs, renewBeforeMs)

/-- `register_gc_protection` up to its publication. -/
def registerGcProtection (tracker : GcProtectionTracker) (txnId : TxnId) (readTs : Timestamp)
    (nowMs : Nat) : GcPlan :=
  let conservativeNowMs := saturatingAdd nowMs config.maxClockSkewMs
  match config.leaseTimes nowMs "GC protection renewal boundary overflowed" with
  | .error error => (.error error, tracker)
  | .ok (deadlineMs, renewBeforeMs) =>
    tracker.registerPlan txnId readTs deadlineMs conservativeNowMs renewBeforeMs

/-- `reconcile_gc_protection_once` up to its publication. -/
def reconcileGcProtectionOnce (tracker : GcProtectionTracker) (now nowMs : Nat) : GcPlan :=
  let conservativeNowMs := saturatingAdd nowMs config.maxClockSkewMs
  match config.leaseTimes nowMs "GC renewal boundary overflowed" with
  | .error error => (.error error, tracker)
  | .ok (nextDeadlineMs, renewBeforeMs) =>
    let (publication, tracker) := tracker.reconcilePlan now config.gcProtectionIdleGrace
      nextDeadlineMs (max renewBeforeMs conservativeNowMs)
    (.ok publication, tracker)

end GcProtectionConfig

namespace GcProtectionPublication

/-- The metadata command of a publication. -/
def command (ownerId nowMs : Nat) : GcProtectionPublication → MetadataCommand
  | register floor deadlineMs =>
    .registerGcProtection ⟨ownerId, aggregateGcProtectionId, floor, deadlineMs⟩ nowMs
  | update floor deadlineMs =>
    .updateGcProtection ⟨ownerId, aggregateGcProtectionId, floor, deadlineMs⟩ nowMs
  | renew deadlineMs => .renewGcProtection ownerId aggregateGcProtectionId deadlineMs nowMs
  | release => .releaseGcProtection ownerId aggregateGcProtectionId

/-- `publish_gc_protection` after the metadata group has answered. -/
def result (publication : GcProtectionPublication) : MetadataApplyOutcome → Except Error Unit
  | .applied | .alreadyApplied => .ok ()
  | .rejected (.gcProtectionBelowSafePoint protectedAt safePoint) =>
    .error (.writeConflict (s!"transaction snapshot {protectedAt} is below the MVCC GC safe " ++
      s!"point {safePoint}"))
  | .rejected (.unknownGcProtection ownerId protectionId) =>
    -- Release is idempotent.
    if publication = release then .ok ()
    else .error (.invalidArgument
      ("metadata rejected transaction GC protection transition: " ++
        (MetadataRejection.unknownGcProtection ownerId protectionId).display))
  | .rejected rejection => .error (.invalidArgument
      s!"metadata rejected transaction GC protection transition: {rejection.display}")
  | _ => .error (.corruptData "metadata returned unexpected GC protection result")

/-- `renew_gc_protection` after the metadata group has answered. -/
def renewalResult : MetadataApplyOutcome → Except Error Unit
  | .applied | .alreadyApplied => .ok ()
  | .rejected rejection => .error (.writeConflict
      s!"metadata refused transaction GC lease renewal: {rejection.display}")
  | _ => .error (.corruptData "metadata returned unexpected GC renewal result")

/-- The deadline that a publication asks for. -/
def deadline? : GcProtectionPublication → Option Nat
  | register _ deadlineMs | update _ deadlineMs | renew deadlineMs => some deadlineMs
  | release => none

/-- The floor that a publication asks for. -/
def floor? : GcProtectionPublication → Option Timestamp
  | register floor _ | update floor _ => some floor
  | renew _ | release => none

end GcProtectionPublication

/-! ## Processes over one metadata state -/

/-- The method that waits for a publication. -/
inductive GcMethod where
  | registration (txnId : TxnId) (previousIdleSince : Option Nat)
  | reconciliation
  | renewal (deadlineMs : Nat)
  deriving DecidableEq

/-- A publication on its way, and the answer of the metadata group once it is applied. -/
structure GcCall where
  method : GcMethod
  publication : GcProtectionPublication
  nowMs : Nat
  outcome : Option MetadataApplyOutcome := none

/-- One process; a call that is on its way holds the tracker's lock. -/
structure GcProcess where
  tracker : GcProtectionTracker := {}
  call : Option GcCall := none
  lastStart : Timestamp := 0

namespace GcProcess

/-- Start a method: the publication to make, if one is needed, is on its way. -/
def begin (process : GcProcess) (method : GcMethod) (nowMs : Nat) : GcPlan → GcProcess
  | (.ok (some publication), tracker) =>
    { process with tracker, call := some { method, publication, nowMs } }
  | (_, tracker) => { process with tracker }

/-- The waiting method goes on with the result. -/
def settle (tracker : GcProtectionTracker) (call : GcCall) (result : Except Error Unit) :
    GcProtectionTracker :=
  match call.method with
  | .registration txnId previousIdleSince =>
    (tracker.registerSettle txnId previousIdleSince call.publication result).2
  | .reconciliation => (tracker.reconcileSettle call.publication result).2
  | .renewal deadlineMs => (tracker.renewSettle deadlineMs result).2

/-- What the waiting method makes of an outcome. -/
def resultOf (call : GcCall) (outcome : MetadataApplyOutcome) : Except Error Unit :=
  match call.method with
  | .renewal _ => GcProtectionPublication.renewalResult outcome
  | _ => call.publication.result outcome

end GcProcess

/-- Clocks read at least `timeMs`, and at most the configured skew more. -/
structure GcCluster where
  metadata : MetadataState
  processes : Nat → GcProcess
  timeMs : Nat

namespace GcCluster

inductive Action where
  | register (ownerId : Nat) (txnId : TxnId) (readTs : Timestamp) (nowMs : Nat)
  | releaseLocal (ownerId : Nat) (txnId : TxnId) (now : Nat)
  | reconcile (ownerId now nowMs : Nat)
  | renew (ownerId deadlineMs nowMs : Nat)
  /-- The metadata group applies the publication. -/
  | deliver (ownerId : Nat)
  /-- The answer reaches the process. -/
  | answer (ownerId : Nat)
  /-- The process gives up, whether the publication was applied or not. -/
  | fail (ownerId : Nat) (error : Error)
  | advanceSafePoint (candidate : Timestamp) (nowMs : Nat)
  /-- Any other command. -/
  | propose (entry : MetadataState.LogEntry)
  | tick (timeMs : Nat)

/-- A command that is not one of the trackers' and does not move the safe point. -/
def Foreign : MetadataCommand → Prop
  | .registerGcProtection protection _ | .updateGcProtection protection _ =>
    protection.protectionId ≠ aggregateGcProtectionId
  | .renewGcProtection _ protectionId _ _ | .releaseGcProtection _ protectionId =>
    protectionId ≠ aggregateGcProtectionId
  | .advanceGcSafePoint _ _ => False
  | _ => True

instance : DecidablePred Foreign := by
  intro command
  unfold Foreign
  induction command using MetadataCommand.casesOn <;> infer_instance

def setProcess (s : GcCluster) (ownerId : Nat) (process : GcProcess) : GcCluster :=
  { s with processes := Function.update s.processes ownerId process }

/-- The state after an action, if it can be taken.  A method needs the tracker's lock; it may
read its clock well before it gets the lock, so only the clock of a sweep is bounded. -/
def next (config : GcProtectionConfig) (s : GcCluster) : Action → Option GcCluster
  | .register ownerId txnId readTs nowMs =>
    let process := s.processes ownerId
    if process.call.isNone ∧ process.lastStart < readTs then
      some (s.setProcess ownerId
        ({ process with lastStart := readTs }.begin
          (.registration txnId process.tracker.idleSince) nowMs
          (config.registerGcProtection process.tracker txnId readTs nowMs)))
    else none
  | .releaseLocal ownerId txnId now =>
    let process := s.processes ownerId
    if process.call.isNone then
      some (s.setProcess ownerId
        { process with tracker := (process.tracker.releaseLocal txnId now).2 })
    else none
  | .reconcile ownerId now nowMs =>
    let process := s.processes ownerId
    if process.call.isNone then
      some (s.setProcess ownerId (process.begin .reconciliation nowMs
        (config.reconcileGcProtectionOnce process.tracker now nowMs)))
    else none
  | .renew ownerId deadlineMs nowMs =>
    let process := s.processes ownerId
    if process.call.isNone ∧ process.tracker.renewPlan deadlineMs then
      some (s.setProcess ownerId
        { process with call := some ⟨.renewal deadlineMs, .renew deadlineMs, nowMs, none⟩ })
    else none
  | .deliver ownerId =>
    let process := s.processes ownerId
    match process.call with
    | some ⟨method, publication, nowMs, none⟩ =>
      let (outcome, metadata) :=
        s.metadata.applyEntry (none, publication.command ownerId nowMs)
      some { s.setProcess ownerId
          { process with call := some ⟨method, publication, nowMs, some outcome⟩ } with
        metadata }
    | _ => none
  | .answer ownerId =>
    let process := s.processes ownerId
    process.call.bind fun call => call.outcome.map fun outcome =>
      s.setProcess ownerId
        { process with
          tracker := GcProcess.settle process.tracker call (GcProcess.resultOf call outcome)
          call := none }
  | .fail ownerId error =>
    let process := s.processes ownerId
    process.call.map fun call =>
      s.setProcess ownerId
        { process with
          tracker := GcProcess.settle process.tracker call (.error error)
          call := none }
  | .advanceSafePoint candidate nowMs =>
    if nowMs ≤ s.timeMs + config.maxClockSkewMs ∧ candidate ≠ 0 then
      let command := MetadataCommand.advanceGcSafePoint candidate
        (conservativeGcExpirationTimeMs nowMs config.maxClockSkewMs)
      some { s with metadata := (s.metadata.applyEntry (none, command)).2 }
    else none
  | .propose entry =>
    if Foreign entry.2 then some { s with metadata := (s.metadata.applyEntry entry).2 } else none
  | .tick timeMs => if s.timeMs ≤ timeMs then some { s with timeMs } else none

/-- Processes start on any metadata state, each under an owner id of its own. -/
def system (config : GcProtectionConfig) : Lts GcCluster Action :=
  .ofNext (fun s => MetadataState.metadataLog.Reachable s.metadata ∧
    ∀ ownerId, s.processes ownerId = {} ∧
      s.metadata.gcProtections[(ownerId, aggregateGcProtectionId)]? = none) (next config)

end GcCluster

end RagnorDb
