import RagnorDb.Tablet.Outcome
import RagnorDb.Txn.Gateway

/-!
# Two-phase commit

One distributed transaction over any set of tablets.  Its coordinator prewrites every key,
then commits or rolls back with the primary first; a command it has handed over may reach
its tablet late, any number of times, or never.  Heartbeats, expiries, resolutions of left
intents and the commands of other transactions arrive at any time.
-/

namespace RagnorDb

open Std Checked DistributedTransactionCoordinator

namespace TwoPhase

/-- Where the coordinator is. -/
inductive Phase where
  | idle
  /-- Every prewrite is handed over; these are not yet known to be applied. -/
  | prewriting (outstanding : List Dispatch)
  /-- The commands that are left, in order. -/
  | committing (commitTimestamp : Timestamp) (primaryApplied : Bool) (queue : List Dispatch)
  | rollingBack (queue : List Dispatch)
  deriving DecidableEq

/-- What belongs to the transaction. -/
structure Run where
  phase : Phase
  /-- The commit timestamp, once it has been allocated. -/
  commitTimestamp : Option Timestamp
  /-- The commands handed to the transport. -/
  sent : List Dispatch

def Run.new : Run := ⟨.idle, none, []⟩

structure State extends Run where
  tablets : TabletId → TabletStateMachine
  /-- The commands that a tablet has applied. -/
  applied : List Dispatch

inductive Action where
  | beginPrewrite (ttlMs : Nat)
  | sendPrewrite (tabletId : TabletId) (command : PrewriteCommand) (lease : Option (Nat × Nat))
  | prewriteApplied (tabletId : TabletId) (command : PrewriteCommand) (lease : Option (Nat × Nat))
  | beginCommit (commitTimestamp : Timestamp)
  | beginRollback
  /-- The next command of the phase is handed over. -/
  | send
  /-- The next command of the phase is known to be applied. -/
  | succeeded
  /-- The phase is planned again, over the same routes. -/
  | restart
  /-- A reader or a cleaner has found a lock and asks the primary's tablet for the status. -/
  | resolve (tabletId : TabletId) (key : Bytes) (lock : LockRecord)
  | deliver (envelope : TabletCommandEnvelope)

/-- A prewrite goes out as planned, or with the lease of the transaction lifecycle. -/
def leased (command : PrewriteCommand) : Option (Nat × Nat) → PrewriteCommand
  | none => command
  | some (lockTtlMs, leaseDeadlineMs) => Gateway.register lockTtlMs leaseDeadlineMs command

/-- A tablet receives an envelope. -/
def State.deliver (σ : State) (envelope : TabletCommandEnvelope) : State :=
  let tablet := σ.tablets envelope.tabletId
  { σ with
    tablets := Function.update σ.tablets envelope.tabletId
      (after (TabletStateMachine.apply envelope) tablet)
    applied := match answer (TabletStateMachine.apply envelope) tablet with
      | .ok ⟨_, false⟩ => ⟨envelope.tabletId, envelope.command⟩ :: σ.applied
      | _ => σ.applied }

section System

variable (txn : DistributedTransactionCoordinator) (dispatcher : Dispatcher)

/-- The commands that do not come from this transaction's coordinator or from a resolution
of its intents: heartbeats and expiries, with any clock, and everything that belongs to
other transactions. -/
def Foreign : TabletCommand → Prop
  | .heartbeatTransactionStatus _ | .expirePendingTransactionStatus _ | .noop | .catalog _ => True
  | .prewrite command | .commit command | .rollback command | .singleShardCommit command
  | .resolveIntent command =>
    command.txnId ≠ txn.transactionId ∧ command.startTimestamp ≠ txn.startTimestamp
  | .publishAbortedTransactionStatus command => command.statusRecord.txnId ≠ txn.transactionId

instance : DecidablePred (Foreign txn) := fun command => by
  cases command <;> unfold Foreign <;> infer_instance

/-- The steps of the coordinator, of those who resolve its intents, and of the tablets. -/
def next (σ : State) : Action → Option State
  | .beginPrewrite ttlMs =>
    match σ.phase, txn.planPrewrite ttlMs with
    | .idle, .ok batches =>
      some { σ with phase := .prewriting (prewriteDispatches dispatcher batches) }
    | _, _ => none
  | .sendPrewrite tabletId command lease =>
    match σ.phase with
    | .prewriting outstanding =>
      if ⟨tabletId, .prewrite command⟩ ∈ outstanding then
        some { σ with sent := ⟨tabletId, .prewrite (leased command lease)⟩ :: σ.sent }
      else none
    | _ => none
  | .prewriteApplied tabletId command lease =>
    match σ.phase with
    | .prewriting outstanding =>
      if ⟨tabletId, .prewrite (leased command lease)⟩ ∈ σ.applied then
        some { σ with phase := .prewriting (outstanding.erase ⟨tabletId, .prewrite command⟩) }
      else none
    | _ => none
  | .beginCommit commitTimestamp =>
    match σ.phase, txn.planCommitAtTimestamp commitTimestamp with
    | .prewriting [], .ok plan =>
      some { σ with
        phase := .committing commitTimestamp false (plan.dispatches dispatcher)
        commitTimestamp := some commitTimestamp }
    | _, _ => none
  | .beginRollback =>
    match σ.phase, txn.planRollback with
    -- A failed prewrite, or a failed commit whose primary is not known to be applied.
    | .prewriting _, .ok plan | .committing _ false _, .ok plan =>
      some { σ with phase := .rollingBack (plan.dispatches dispatcher) }
    | _, _ => none
  | .send =>
    match σ.phase with
    | .committing _ _ (d :: _) | .rollingBack (d :: _) => some { σ with sent := d :: σ.sent }
    | _ => none
  | .succeeded =>
    match σ.phase with
    | .committing commitTimestamp _ (d :: queue) =>
      if d ∈ σ.applied then some { σ with phase := .committing commitTimestamp true queue }
      else none
    | .rollingBack (d :: queue) =>
      if d ∈ σ.applied then some { σ with phase := .rollingBack queue } else none
    | _ => none
  | .restart =>
    match σ.phase with
    | .committing commitTimestamp primaryApplied _ =>
      match txn.planCommitAtTimestamp commitTimestamp with
      | .ok plan => some { σ with
          phase := .committing commitTimestamp primaryApplied (plan.dispatches dispatcher) }
      | .error _ => none
    | .rollingBack _ =>
      match txn.planRollback with
      | .ok plan => some { σ with phase := .rollingBack (plan.dispatches dispatcher) }
      | .error _ => none
    | _ => none
  | .resolve tabletId key lock =>
    match (σ.tablets txn.primaryTablet).transactionStatuses[txn.transactionId]? with
    | some status =>
      match planIntentResolution key lock status with
      | .ok (.resolve plan) =>
        some { σ with sent := ⟨tabletId, .resolveIntent plan.command⟩ :: σ.sent }
      | _ => none
    | none => none
  | .deliver envelope =>
    if ⟨envelope.tabletId, envelope.command⟩ ∈ σ.sent ∨ Foreign txn envelope.command then
      some (σ.deliver envelope)
    else none

/-- Any set of new tablets, and the transaction before its first prewrite. -/
def system : Lts State Action :=
  .ofNext (fun σ => (∀ tabletId, TabletStateMachine.tabletLog.init (σ.tablets tabletId)) ∧
    σ.toRun = .new ∧ σ.applied = []) (next txn dispatcher)

/-- The steps, by cases. -/
inductive Step (σ : State) : State → Prop
  | beginPrewrite {ttlMs : Nat} {batches : List (BatchPlan PrewriteCommand)} :
      σ.phase = .idle → txn.planPrewrite ttlMs = .ok batches →
      Step σ { σ with phase := .prewriting (prewriteDispatches dispatcher batches) }
  | sendPrewrite {outstanding : List Dispatch} {tabletId : TabletId}
      {command : PrewriteCommand} {lease : Option (Nat × Nat)} :
      σ.phase = .prewriting outstanding → ⟨tabletId, .prewrite command⟩ ∈ outstanding →
      Step σ { σ with sent := ⟨tabletId, .prewrite (leased command lease)⟩ :: σ.sent }
  | prewriteApplied {outstanding : List Dispatch} {tabletId : TabletId}
      {command : PrewriteCommand} {lease : Option (Nat × Nat)} :
      σ.phase = .prewriting outstanding →
      ⟨tabletId, .prewrite (leased command lease)⟩ ∈ σ.applied →
      Step σ { σ with phase := .prewriting (outstanding.erase ⟨tabletId, .prewrite command⟩) }
  | beginCommit {commitTimestamp : Timestamp} {plan : CommitPhasePlan} :
      σ.phase = .prewriting [] → txn.planCommitAtTimestamp commitTimestamp = .ok plan →
      Step σ { σ with
        phase := .committing commitTimestamp false (plan.dispatches dispatcher)
        commitTimestamp := some commitTimestamp }
  | rollback {plan : RollbackPhasePlan} :
      txn.planRollback = .ok plan →
      Step σ { σ with phase := .rollingBack (plan.dispatches dispatcher) }
  | sendCommit {commitTimestamp : Timestamp} {primaryApplied : Bool} {d : Dispatch}
      {queue : List Dispatch} :
      σ.phase = .committing commitTimestamp primaryApplied (d :: queue) →
      Step σ { σ with sent := d :: σ.sent }
  | commitSucceeded {commitTimestamp : Timestamp} {primaryApplied : Bool} {d : Dispatch}
      {queue : List Dispatch} :
      σ.phase = .committing commitTimestamp primaryApplied (d :: queue) → d ∈ σ.applied →
      Step σ { σ with phase := .committing commitTimestamp true queue }
  | sendRollback {d : Dispatch} {queue : List Dispatch} :
      σ.phase = .rollingBack (d :: queue) → Step σ { σ with sent := d :: σ.sent }
  | rollbackSucceeded {d : Dispatch} {queue : List Dispatch} :
      σ.phase = .rollingBack (d :: queue) → d ∈ σ.applied →
      Step σ { σ with phase := .rollingBack queue }
  | restartCommit {commitTimestamp : Timestamp} {primaryApplied : Bool} {queue : List Dispatch}
      {plan : CommitPhasePlan} :
      σ.phase = .committing commitTimestamp primaryApplied queue →
      txn.planCommitAtTimestamp commitTimestamp = .ok plan →
      Step σ { σ with
        phase := .committing commitTimestamp primaryApplied (plan.dispatches dispatcher) }
  | resolve {tabletId : TabletId} {key : Bytes} {lock : LockRecord} {status : TxnStatusRecord}
      {plan : ResolveIntentPlan} :
      (σ.tablets txn.primaryTablet).transactionStatuses[txn.transactionId]? = some status →
      planIntentResolution key lock status = .ok (.resolve plan) →
      Step σ { σ with sent := ⟨tabletId, .resolveIntent plan.command⟩ :: σ.sent }
  | deliver {envelope : TabletCommandEnvelope} :
      ⟨envelope.tabletId, envelope.command⟩ ∈ σ.sent ∨ Foreign txn envelope.command →
      Step σ (σ.deliver envelope)

variable {txn dispatcher}

theorem step_of_next {σ σ' : State} {a : Action} (h : next txn dispatcher σ a = some σ') :
    Step txn dispatcher σ σ' := by
  cases a <;> simp only [next] at h
  case beginPrewrite =>
    split at h
    · next hphase hplan =>
        cases h
        exact .beginPrewrite hphase hplan
    · cases h
  case sendPrewrite =>
    split at h
    · next hphase =>
        obtain ⟨hmem, rfl⟩ := by simpa using h
        exact .sendPrewrite hphase hmem
    · cases h
  case prewriteApplied =>
    split at h
    · next hphase =>
        obtain ⟨hmem, rfl⟩ := by simpa using h
        exact .prewriteApplied hphase hmem
    · cases h
  case beginCommit =>
    split at h
    · next hphase hplan =>
        cases h
        exact .beginCommit hphase hplan
    · cases h
  case beginRollback =>
    split at h
    · next hplan =>
        cases h
        exact .rollback hplan
    · next hplan =>
        cases h
        exact .rollback hplan
    · cases h
  case send =>
    split at h
    · next hphase =>
        cases h
        exact .sendCommit hphase
    · next hphase =>
        cases h
        exact .sendRollback hphase
    · cases h
  case succeeded =>
    split at h
    · next hphase =>
        obtain ⟨hmem, rfl⟩ := by simpa using h
        exact .commitSucceeded hphase hmem
    · next hphase =>
        obtain ⟨hmem, rfl⟩ := by simpa using h
        exact .rollbackSucceeded hphase hmem
    · cases h
  case restart =>
    split at h
    · next hphase =>
        split at h
        · next hplan =>
            cases h
            exact .restartCommit hphase hplan
        · cases h
    · split at h
      · next hplan =>
          cases h
          exact .rollback hplan
      · cases h
    · cases h
  case resolve =>
    split at h
    · next hstatus =>
        split at h
        · next hplan =>
            cases h
            exact .resolve hstatus hplan
        · cases h
    · cases h
  case deliver =>
    obtain ⟨henvelope, rfl⟩ := by simpa using h
    exact .deliver henvelope

end System

end TwoPhase

end RagnorDb
