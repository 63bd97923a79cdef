import RagnorDb.Txn.PlannerSpec

/-!
# Handing a plan to the tablets

A phase of the coordinator hands its commands over one after another, and goes on only
after the one before has been applied.  A dispatcher may hand over a batch as it is; the
SQL gateway of `ragnordb-exec/src/lib.rs` splits it into commands of one key, the primary
key first.  Intents that are left behind are resolved from the status record
(`resolve.rs`).
-/

namespace RagnorDb

open Std Checked

/-- A command on its way to a tablet. -/
structure Dispatch where
  tabletId : TabletId
  command : TabletCommand
  deriving DecidableEq

/-- How a dispatcher hands over a planned batch. -/
inductive Dispatcher where
  /-- As one command. -/
  | batch
  /-- The SQL gateway: key by key. -/
  | gateway
  deriving DecidableEq

/-! ## The SQL gateway -/

namespace Gateway

/-- A stable sort by whether the key is another one than `primary`. -/
def primaryFirst {α : Type} (primary : Bytes) (key : α → Bytes) (items : List α) : List α :=
  items.filter (key · = primary) ++ items.filter (key · ≠ primary)

def prewriteCommands (command : PrewriteCommand) : List PrewriteCommand :=
  (primaryFirst command.primaryKey (·.key) command.writes).map fun write =>
    { command with
      writes := [write]
      pendingStatus := if write.key = command.primaryKey then command.pendingStatus else none }

def commitCommands (command : CommitCommand) (committedStatus : Option TxnStatusRecord) :
    List CommitCommand :=
  let keys := match committedStatus with
    | some status => primaryFirst status.primaryKey id command.keys
    | none => command.keys
  keys.map fun key =>
    { command with
      keys := [key]
      committedStatus := committedStatus.filter fun status => key = status.primaryKey }

/-- The first key of the batch goes first. -/
def rollbackCommands (command : RollbackCommand) : List RollbackCommand :=
  (primaryFirst (command.keys.headD []) id command.keys).map fun key =>
    { command with keys := [key] }

/-- What the transaction lifecycle adds to a primary prewrite before its proposal: the lock
lifetime, and the lease of the pending status. -/
def register (lockTtlMs leaseDeadlineMs : Nat) (command : PrewriteCommand) : PrewriteCommand :=
  match command.pendingStatus with
  | none => command
  | some status =>
    { command with
      ttlMs := lockTtlMs
      pendingStatus := some
        { status with
          leaseDeadlineMs := status.leaseDeadlineMs.or (some leaseDeadlineMs)
          lastHeartbeatTimestamp :=
            status.lastHeartbeatTimestamp.or (some status.startTimestamp) } }

theorem primaryFirst_eq_cons {primary : Bytes} {keys : List Bytes} (h : primary ∈ keys) :
    ∃ rest, primaryFirst primary id keys = primary :: rest := by
  have hmem : primary ∈ keys.filter (id · = primary) := by simpa using h
  cases hfilter : keys.filter (id · = primary) with
  | nil =>
    rw [hfilter] at hmem
    cases hmem
  | cons key =>
    have hkey : key ∈ keys.filter (id · = primary) := hfilter ▸ List.mem_cons_self
    obtain rfl : key = primary := by simpa using (List.mem_filter.mp hkey).2
    exact ⟨_, by rw [primaryFirst, hfilter]; rfl⟩

end Gateway

namespace DistributedTransactionCoordinator

variable {txn : DistributedTransactionCoordinator}

/-! ## Preparing -/

variable (txn : DistributedTransactionCoordinator)

/-- The primary key is the first key of the write set. -/
def PrimaryIsFirst : Prop :=
  txn.writeSet.toList.head?.map Prod.fst = some txn.primaryKey

/-- The coordinator of a gateway's transaction.  The metadata lookup of a route may fail. -/
def prepareDistributedTransaction (transactionId : TxnId) (startTimestamp : Timestamp)
    (writeSet : Mutations) (lookupTabletRoute : Bytes → Except Error ParticipantRoute) :
    Except Error DistributedTransactionCoordinator :=
  match writeSet.toList with
  | [] => throw (.invalidArgument "distributed commit requires at least one write")
  | (primaryKey, _) :: _ => do
    let coordinator ← new transactionId startTimestamp writeSet primaryKey
    writeSet.toList.foldlM (fun coordinator entry => do
      let route ← lookupTabletRoute entry.1
      let coordinator ← coordinator.setParticipantRoute entry.1 route
      return if entry.1 = primaryKey then coordinator.setStatusRoute route else coordinator)
      coordinator

/-! ## Phases -/

/-- The commands of a prewrite plan. -/
def prewriteDispatches (dispatcher : Dispatcher) (batches : List (BatchPlan PrewriteCommand)) :
    List Dispatch :=
  batches.flatMap fun batch =>
    let commands := match dispatcher with
      | .batch => [batch.command]
      | .gateway => Gateway.prewriteCommands batch.command
    commands.map fun command => ⟨batch.route.tabletId, .prewrite command⟩

/-- The commands of a commit plan, in the order they are handed over. -/
def CommitPhasePlan.dispatches (plan : CommitPhasePlan) (dispatcher : Dispatcher) : List Dispatch :=
  let commands (batch : BatchPlan CommitCommand) (committedStatus : Option TxnStatusRecord) :=
    (match dispatcher with
      | .batch => [batch.command]
      | .gateway => Gateway.commitCommands batch.command committedStatus).map
      fun command => Dispatch.mk batch.route.tabletId (.commit command)
  commands plan.primary (some plan.statusRecord) ++ plan.secondary.flatMap (commands · none)

/-- The commands of a rollback plan, in the order they are handed over.  The aborted status
is published last. -/
def RollbackPhasePlan.dispatches (plan : RollbackPhasePlan) (dispatcher : Dispatcher) :
    List Dispatch :=
  let commands (batch : BatchPlan RollbackCommand) :=
    (match dispatcher with
      | .batch => [batch.command]
      | .gateway => Gateway.rollbackCommands batch.command).map
      fun command => Dispatch.mk batch.route.tabletId (.rollback command)
  commands plan.primary ++ plan.secondary.flatMap commands ++
    [⟨plan.statusRoute.tabletId, .publishAbortedTransactionStatus ⟨plan.statusRecord⟩⟩]

/-- A commit of the primary key, which publishes the decision with it. -/
def PrimaryCommit (commitTimestamp : Timestamp) (d : Dispatch) : Prop :=
  d.tabletId = txn.primaryTablet ∧ ∃ keys record,
    d.command = .commit
      ⟨txn.transactionId, txn.startTimestamp, commitTimestamp, keys, some record⟩ ∧
    txn.primaryKey ∈ keys ∧ txn.Records .committed (some commitTimestamp) record

def SecondaryCommit (commitTimestamp : Timestamp) (d : Dispatch) : Prop :=
  ∃ keys, d.command = .commit
      ⟨txn.transactionId, txn.startTimestamp, commitTimestamp, keys, none⟩

def PrimaryRollback (d : Dispatch) : Prop :=
  d.tabletId = txn.primaryTablet ∧ ∃ keys,
    d.command = .rollback ⟨txn.transactionId, txn.startTimestamp, keys⟩ ∧ txn.primaryKey ∈ keys

def SecondaryRollback (d : Dispatch) : Prop :=
  ∃ keys, d.command = .rollback ⟨txn.transactionId, txn.startTimestamp, keys⟩

def StatusAbort (d : Dispatch) : Prop :=
  ∃ record, d.command = .publishAbortedTransactionStatus ⟨record⟩ ∧
    txn.Records .aborted none record

variable {txn}

/-- A commit phase begins with the primary. -/
theorem PlannedCommit.dispatches {commitTimestamp : Timestamp} {plan : CommitPhasePlan}
    (h : txn.PlannedCommit commitTimestamp plan) (dispatcher : Dispatcher) :
    ∃ first rest, plan.dispatches dispatcher = first :: rest ∧
      txn.PrimaryCommit commitTimestamp first ∧
      ∀ d ∈ rest, txn.PrimaryCommit commitTimestamp d ∨ txn.SecondaryCommit commitTimestamp d := by
  have hrecord := h.record
  cases dispatcher with
  | batch =>
    simp only [CommitPhasePlan.dispatches, List.map_cons, List.map_nil, List.cons_append,
      List.nil_append]
    refine ⟨_, _, rfl, ⟨h.primary_tablet, _, _, by rw [h.primary], h.primary_mem, hrecord⟩, ?_⟩
    intro d hd
    simp only [List.mem_flatMap, List.mem_singleton] at hd
    obtain ⟨batch, hbatch, rfl⟩ := hd
    exact .inr ⟨_, by rw [(h.secondary batch hbatch).2]⟩
  | gateway =>
    obtain ⟨rest, hrest⟩ := Gateway.primaryFirst_eq_cons h.primary_mem
    simp only [CommitPhasePlan.dispatches, Gateway.commitCommands, h.primary, hrecord.primaryKey,
      hrest, List.map_cons, List.cons_append]
    refine ⟨_, _, rfl, ⟨h.primary_tablet, [txn.primaryKey], plan.statusRecord, ?_, ?_, hrecord⟩, ?_⟩
    · simp [hrecord.primaryKey]
    · simp
    intro d hd
    simp only [List.map_map, List.mem_append, List.mem_map, List.mem_flatMap,
      Function.comp_apply] at hd
    rcases hd with ⟨key, -, rfl⟩ | ⟨batch, hbatch, key, -, rfl⟩
    · by_cases hkey : key = txn.primaryKey
      · refine .inl ⟨h.primary_tablet, [key], plan.statusRecord, ?_, ?_, hrecord⟩
        · simp [hrecord.primaryKey, hkey]
        · simp [hkey]
      · exact .inr ⟨[key], by simp [hrecord.primaryKey, hkey]⟩
    · exact .inr ⟨[key], by rw [(h.secondary batch hbatch).2]; rfl⟩

theorem PrimaryIsFirst.keysAt (h : txn.PrimaryIsFirst)
    (hmem : txn.primaryKey ∈ txn.keysAt txn.primaryTablet) :
    (txn.keysAt txn.primaryTablet).head? = some txn.primaryKey := by
  obtain ⟨-, hrouted⟩ := mem_keysAt.mp hmem
  unfold PrimaryIsFirst at h
  cases hlist : txn.writeSet.toList with
  | nil => simp [hlist] at h
  | cons =>
    rw [hlist, List.head?_cons, Option.map_some, Option.some.injEq] at h
    rw [DistributedTransactionCoordinator.keysAt, hlist,
      List.filter_cons_of_pos (by rw [h, hrouted]), List.map_cons, List.head?_cons, h]

/-- A rollback phase begins with the primary.  The SQL gateway rolls back the first key of a
batch first. -/
theorem PlannedRollback.dispatches {plan : RollbackPhasePlan} (h : txn.PlannedRollback plan)
    {dispatcher : Dispatcher} (hfirst : dispatcher = .gateway → txn.PrimaryIsFirst) :
    ∃ first rest, plan.dispatches dispatcher = first :: rest ∧ txn.PrimaryRollback first ∧
      ∀ d ∈ rest, txn.PrimaryRollback d ∨ txn.SecondaryRollback d ∨ txn.StatusAbort d := by
  have hrecord := h.record
  cases dispatcher with
  | batch =>
    simp only [RollbackPhasePlan.dispatches, List.map_cons, List.map_nil, List.cons_append,
      List.nil_append]
    refine ⟨_, _, rfl, ⟨h.primary_tablet, _, by rw [h.primary], h.primary_mem⟩, ?_⟩
    intro d hd
    simp only [List.mem_append, List.mem_flatMap, List.mem_singleton] at hd
    rcases hd with ⟨batch, hbatch, rfl⟩ | rfl
    · exact .inr (.inl ⟨_, by rw [(h.secondary batch hbatch).2]⟩)
    · exact .inr (.inr ⟨_, rfl, hrecord⟩)
  | gateway =>
    obtain ⟨rest, hrest⟩ := Gateway.primaryFirst_eq_cons h.primary_mem
    have hhead : (txn.keysAt txn.primaryTablet).headD [] = txn.primaryKey := by
      rw [List.headD_eq_head?_getD, (hfirst rfl).keysAt h.primary_mem]
      rfl
    simp only [RollbackPhasePlan.dispatches, Gateway.rollbackCommands, h.primary, hhead, hrest,
      List.map_cons, List.cons_append]
    refine ⟨_, _, rfl, ⟨h.primary_tablet, [txn.primaryKey], rfl, by simp⟩, ?_⟩
    intro d hd
    simp only [List.map_map, List.mem_append, List.mem_map, List.mem_flatMap,
      Function.comp_apply, List.mem_singleton] at hd
    rcases hd with (⟨key, -, rfl⟩ | ⟨batch, hbatch, key, -, rfl⟩) | rfl
    · exact .inr (.inl ⟨[key], rfl⟩)
    · exact .inr (.inl ⟨[key], by rw [(h.secondary batch hbatch).2]⟩)
    · exact .inr (.inr ⟨_, rfl, hrecord⟩)

end DistributedTransactionCoordinator

/-! ## Resolving intents -/

/-- A terminal resolution of one intent. -/
structure ResolveIntentPlan where
  key : Bytes
  command : ResolveIntentCommand
  deriving DecidableEq

inductive IntentResolutionDecision where
  | pending (status : TxnStatusRecord)
  | resolve (plan : ResolveIntentPlan)
  deriving DecidableEq

/-- Build a terminal resolution from a lock and its transaction's authoritative status. -/
def planIntentResolution (key : Bytes) (lock : LockRecord) (status : TxnStatusRecord) :
    Except Error IntentResolutionDecision := do
  lock.validate.mapError fun error => Error.corruptData s!"invalid intent lock: {error}"
  let _ ← LogicalMutationId.fromKey key
  let _ ← (LogicalMutationId.fromKey lock.primaryKey).mapError fun error =>
    Error.corruptData s!"intent lock has an invalid primary key: {error.display}"
  status.validate.mapError fun error =>
    Error.corruptData s!"invalid transaction status: {error}"
  rejectIf (status.txnId ≠ lock.txnId) (Error.corruptData
    (s!"intent transaction ID {lock.txnId} does not match status transaction ID " ++
      s!"{status.txnId}"))
  rejectIf (status.startTimestamp ≠ lock.startTimestamp) (Error.corruptData
    (s!"intent start timestamp {lock.startTimestamp} does not match status start timestamp " ++
      s!"{status.startTimestamp}"))
  rejectIf (status.primaryKey ≠ lock.primaryKey) (Error.corruptData
    "intent primary key does not match the transaction status primary key")
  if status.status = .pending then
    return .pending status
  else do
    let command : ResolveIntentCommand :=
      { txnId := lock.txnId, startTimestamp := lock.startTimestamp, keys := [key],
        resolvedStatus := status.status, commitTimestamp := status.commitTimestamp }
    command.validate.mapError fun error =>
      Error.invalidArgument s!"invalid intent resolution: {error}"
    return .resolve { key, command }

theorem planIntentResolution_eq_resolve {key : Bytes} {lock : LockRecord} {status : TxnStatusRecord}
    {plan : ResolveIntentPlan} (h : planIntentResolution key lock status = .ok (.resolve plan)) :
    status.status ≠ .pending ∧ plan.command =
      ⟨status.txnId, status.startTimestamp, [key], status.status, status.commitTimestamp⟩ := by
  simp only [planIntentResolution, eq_ok'] at h
  obtain ⟨⟨⟩, -, -, -, -, -, ⟨⟩, -, htxn, hstart, -, h⟩ := h
  split at h
  · cases h
  · next hne =>
      simp only [eq_ok] at h
      obtain ⟨⟨⟩, -, hplan⟩ := h
      cases hplan
      exact ⟨hne, by rw [htxn, hstart]⟩

end RagnorDb
