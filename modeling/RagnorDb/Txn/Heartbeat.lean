import RagnorDb.Storage.MvccInvariant
import RagnorDb.Tablet.Dispatch
import RagnorDb.Txn.Planner

/-!
# Heartbeats of a transaction

`heartbeat.rs` plans the renewal of a pending status record; the status tablet applies it as a
command that has checks of its own.
-/

namespace RagnorDb

open Std Checked

structure TransactionHeartbeatPolicy where
  leaseDurationMs : Nat

theorem LogicalMutationId.fromKey_of_eq_ok {key : Bytes} {id : LogicalMutationId}
    (h : fromKey key = .ok id) : fromKey key = .ok key := by
  simp only [fromKey, eq_ok] at h ⊢
  obtain ⟨rowKey, hrowKey, _⟩ := h
  exact ⟨rowKey, hrowKey, trivial⟩

/-- Where the status record of a transaction is, with what its constructor checked. -/
structure TransactionStatusLocation where
  txnId : TxnId
  primaryKey : LogicalMutationId
  route : Option ParticipantRoute
  txnId_ne_zero : txnId ≠ 0
  primaryKey_canonical : LogicalMutationId.fromKey primaryKey = .ok primaryKey

namespace TransactionStatusLocation

def new (txnId : TxnId) (primaryKey : Bytes) : Except Error TransactionStatusLocation :=
  if hzero : txnId = 0 then
    .error (.invalidArgument "transaction status key cannot use transaction ID 0")
  else
    match hkey : LogicalMutationId.fromKey primaryKey with
    | .error error => .error error
    | .ok _ => .ok
      { txnId, primaryKey
        route := none
        txnId_ne_zero := hzero
        primaryKey_canonical := LogicalMutationId.fromKey_of_eq_ok hkey }

/-- A route is a refreshable hint. -/
def setRoute (self : TransactionStatusLocation) (route : ParticipantRoute) :
    TransactionStatusLocation :=
  { self with route := some route }

end TransactionStatusLocation

structure TransactionHeartbeatPlan where
  statusRoute : ParticipantRoute
  nextStatus : TxnStatusRecord
  heartbeatTimestamp : Timestamp
  leaseDeadlineMs : Nat
  deriving DecidableEq

inductive HeartbeatDecision where
  | alreadyApplied (status : TxnStatusRecord)
  | renew (plan : TransactionHeartbeatPlan)
  deriving DecidableEq

/-- Build a fenced heartbeat update for a pending transaction status. -/
def planTransactionHeartbeat (statusLocation : TransactionStatusLocation)
    (currentStatus : TxnStatusRecord) (heartbeatTimestamp : Timestamp) (nowMs : Nat)
    (policy : TransactionHeartbeatPolicy) : Except Error HeartbeatDecision := do
  currentStatus.validate.mapError fun error =>
    .corruptData s!"invalid transaction status: {error}"
  rejectIf (statusLocation.txnId ≠ currentStatus.txnId ∨
      statusLocation.primaryKey ≠ currentStatus.primaryKey)
    (.corruptData "heartbeat status location does not identify the transaction owner")
  rejectIf (currentStatus.status ≠ .pending)
    (.writeConflict "terminal transaction status cannot receive a heartbeat")
  rejectIf (heartbeatTimestamp = 0) (.invalidArgument "heartbeat timestamp must be non-zero")
  rejectIf (heartbeatTimestamp ≤ currentStatus.startTimestamp) (.invalidArgument
    "heartbeat timestamp must be newer than the transaction start timestamp")
  let previousHeartbeat :=
    currentStatus.lastHeartbeatTimestamp.getD currentStatus.startTimestamp
  let proposedDeadline ← okOr (checkedAdd nowMs policy.leaseDurationMs)
    (.invalidArgument "heartbeat lease deadline overflowed u64")
  rejectIf (heartbeatTimestamp < previousHeartbeat)
    (.writeConflict "heartbeat timestamp is older than the durable heartbeat")
  if heartbeatTimestamp = previousHeartbeat then do
    rejectIf (currentStatus.leaseDeadlineMs ≠ some proposedDeadline)
      (.writeConflict "heartbeat replay carries a different lease deadline")
    return .alreadyApplied currentStatus
  else do
    rejectIf (currentStatus.leaseDeadlineMs.any (· ≤ nowMs))
      (.writeConflict "heartbeat arrived after the durable transaction lease expired")
    let leaseDeadlineMs := max (currentStatus.leaseDeadlineMs.getD 0) proposedDeadline
    let nextStatus :=
      { currentStatus with
        lastHeartbeatTimestamp := some heartbeatTimestamp
        leaseDeadlineMs := some leaseDeadlineMs }
    nextStatus.validate.mapError fun error =>
      .invalidArgument s!"invalid heartbeat status: {error}"
    let statusRoute ← okOr statusLocation.route
      (.invalidArgument "heartbeat planning requires a current status route")
    return .renew ⟨statusRoute, nextStatus, heartbeatTimestamp, leaseDeadlineMs⟩

variable {location : TransactionStatusLocation} {current : TxnStatusRecord}
  {timestamp : Timestamp} {nowMs : Nat} {policy : TransactionHeartbeatPolicy}
  {plan : TransactionHeartbeatPlan}

/-- What a renewal is planned from. -/
structure Renews (current : TxnStatusRecord) (timestamp : Timestamp) (nowMs : Nat)
    (next : TxnStatusRecord) : Prop where
  current_valid : current.validate = .ok ()
  next_valid : next.validate = .ok ()
  pending : current.status = .pending
  newer : current.lastHeartbeatTimestamp.getD current.startTimestamp < timestamp
  live : ∀ deadline, current.leaseDeadlineMs = some deadline → nowMs < deadline
  next_eq : ∃ deadline, current.leaseDeadlineMs.getD 0 ≤ deadline ∧ next =
    { current with lastHeartbeatTimestamp := some timestamp, leaseDeadlineMs := some deadline }

theorem renews_of_plan
    (h : planTransactionHeartbeat location current timestamp nowMs policy = .ok (.renew plan)) :
    Renews current timestamp nowMs plan.nextStatus := by
  simp only [planTransactionHeartbeat, eq_ok', Nat.not_lt] at h
  obtain ⟨⟨⟩, hvalid, -, hpending, -, -, _, -, hle, h⟩ := h
  split at h
  · simp at h
  · next hne =>
      simp only [eq_ok', not_any_iff, decide_eq_true_eq, Nat.not_le] at h
      obtain ⟨hlive, ⟨⟩, hnext, _, -, heq⟩ := h
      cases heq
      exact ⟨hvalid, hnext, hpending, Nat.lt_of_le_of_ne hle (Ne.symm hne), hlive, _,
        Nat.le_max_left _ _, rfl⟩

/-- The command of a planned renewal passes its checks exactly if the record has a deadline and
the clock is not at zero. -/
theorem Renews.validate_iff {next : TxnStatusRecord} (h : Renews current timestamp nowMs next) :
    (HeartbeatTransactionStatus.mk current next nowMs).validate = .ok () ↔
      current.leaseDeadlineMs.isSome = true ∧ nowMs ≠ 0 := by
  obtain ⟨hcurrent, hnext, hpending, hnewer, hlive, deadline, hle, rfl⟩ := h
  have hcommit : current.commitTimestamp = none := by
    have hdecision := (TxnStatusRecord.validate_eq_ok.mp hcurrent).2
    rw [TxnStatusRecord.DecisionOk, hpending] at hdecision
    cases hc : current.commitTimestamp with
    | none => rfl
    | some => simp [hc] at hdecision
  cases hdeadline : current.leaseDeadlineMs with
  | none => simp [HeartbeatTransactionStatus.validate, hdeadline]
  | some old =>
    rw [hpending, hcommit] at hnext
    simpa [HeartbeatTransactionStatus.validate, hcurrent, hnext, hpending, hcommit, hdeadline,
      sameTransactionStatusIdentity, hlive old hdeadline, hnewer] using fun _ => hle

/-- A planned renewal is accepted by its own checks and by every status tablet that still has
the record, and advances it, exactly if the record has a lease deadline and the clock is not at
zero. -/
theorem planned_heartbeat_accepted_iff
    (h : planTransactionHeartbeat location current timestamp nowMs policy = .ok (.renew plan)) :
    ((HeartbeatTransactionStatus.mk current plan.nextStatus nowMs).validate = .ok () ∧
      ∀ machine : TabletStateMachine, machine.transactionStatuses[current.txnId]? = some current →
        ∃ machine', (TabletStateMachine.applyHeartbeatTransactionStatus
            ⟨current, plan.nextStatus, nowMs⟩).run machine =
              .ok .heartbeatTransactionStatus machine' ∧
          ∃ record, machine'.transactionStatuses[current.txnId]? = some record ∧
            (∃ heartbeat ∈ record.lastHeartbeatTimestamp,
              current.lastHeartbeatTimestamp.getD current.startTimestamp ≤ heartbeat) ∧
            ∃ deadline ∈ record.leaseDeadlineMs, current.leaseDeadlineMs.getD 0 ≤ deadline) ↔
      current.leaseDeadlineMs.isSome = true ∧ nowMs ≠ 0 := by
  have hrenews := renews_of_plan h
  rw [← hrenews.validate_iff]
  refine ⟨And.left, fun hvalid => ⟨hvalid, fun machine hcurrent => ?_⟩⟩
  refine ⟨machine.published current.txnId (some plan.nextStatus), ?_, plan.nextStatus, ?_, ?_, ?_⟩
  · simp only [TabletStateMachine.applyHeartbeatTransactionStatus, run_eq_ok,
      TabletStateMachine.publishStatus_bind_run, eq_ok]
    exact ⟨(), hvalid, current, hcurrent, (), by simp, trivial⟩
  · simp [TabletStateMachine.published]
  · obtain ⟨_, -, hnext⟩ := hrenews.next_eq
    exact ⟨timestamp, by simp [hnext], Nat.le_of_lt hrenews.newer⟩
  · obtain ⟨deadline, hle, hnext⟩ := hrenews.next_eq
    exact ⟨deadline, by simp [hnext], hle⟩

def sampleLocation : Except Error TransactionStatusLocation :=
  (TransactionStatusLocation.new 5 InMemoryMvcc.sampleKey).map (·.setRoute ⟨3, 1, 3, 1⟩)

def samplePending (leaseDeadlineMs : Option Nat) : TxnStatusRecord :=
  ⟨5, 5, none, .pending, InMemoryMvcc.sampleKey, [3], none, leaseDeadlineMs⟩

def sampleRenewed : TxnStatusRecord :=
  { samplePending (some 110) with lastHeartbeatTimestamp := some 6 }

/-- A record that has no deadline yet is planned for renewal, and the renewal is refused. -/
theorem planned_heartbeat_refused :
    (do planTransactionHeartbeat (← sampleLocation) (samplePending none) 6 10 ⟨100⟩) =
        .ok (.renew ⟨⟨3, 1, 3, 1⟩, sampleRenewed, 6, 110⟩) ∧
      (HeartbeatTransactionStatus.mk (samplePending none) sampleRenewed 10).validate =
        .error "heartbeat requires an existing lease deadline" := by
  decide +kernel

theorem planned_heartbeat_accepted_sample :
    (HeartbeatTransactionStatus.mk (samplePending (some 50)) sampleRenewed 10).validate =
      .ok () := by
  have hplan :
      (do planTransactionHeartbeat (← sampleLocation) (samplePending (some 50)) 6 10 ⟨100⟩) =
        .ok (.renew ⟨⟨3, 1, 3, 1⟩, sampleRenewed, 6, 110⟩) := by
    decide +kernel
  obtain ⟨location, _, hplan⟩ := bind_eq_ok.mp hplan
  exact ((planned_heartbeat_accepted_iff hplan).mpr ⟨rfl, by decide⟩).1

end RagnorDb
