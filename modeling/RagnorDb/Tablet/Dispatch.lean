import RagnorDb.Storage.MvccStep
import RagnorDb.Tablet.StateMachine

/-!
# What a dispatched command does

`Dispatched` says once, command by command, under which conditions a command succeeds and
what it changes: at most one operation of the store and at most one status record.  A
command that fails changes nothing.
-/

namespace RagnorDb

open Std Checked OrderedMap

/-! ## Ownership -/

/-- The key decodes to a row of the tablet's table. -/
def Tablet.Owns (tablet : Tablet) (key : Bytes) : Prop :=
  InTable tablet.tableId key

/-- A well-formed status record whose status tablet is this tablet. -/
structure Tablet.Governs (tablet : Tablet) (record : TxnStatusRecord) : Prop where
  identity : record.IdentityOk
  decision : record.DecisionOk
  primary : record.participantTabletIds.headD 0 = tablet.id
  owns : tablet.Owns record.primaryKey

namespace TabletStateMachine

variable {self self' : TabletStateMachine}
variable {u : Unit} {status : TxnStatusRecord} {keys : List Bytes} {set : KeySet} {txnId : TxnId}
  {startTs : Timestamp} {transition : Option TxnStatusRecord} {storage : InMemoryMvcc}

theorem validateOwnedKey_eq_ok {key : Bytes} :
    self.validateOwnedKey key = .ok u ↔ self.tablet.Owns key := by
  simp [validateOwnedKey, Tablet.Owns, InTable]

theorem validateStatusAuthority_eq_ok :
    self.validateStatusAuthority status = .ok u ↔ self.tablet.Governs status := by
  simp only [validateStatusAuthority, eq_ok', TxnStatusRecord.validate_eq_ok,
    TxnStatusRecord.primaryTabletId_eq_ok, validateOwnedKey_eq_ok]
  constructor
  · rintro ⟨⟨hid, hdec⟩, _, ⟨-, rfl⟩, hprimary, howns⟩
    exact ⟨hid, hdec, hprimary, howns⟩
  · rintro ⟨hid, hdec, hprimary, howns⟩
    exact ⟨⟨hid, hdec⟩, _, ⟨⟨hid, hdec⟩, rfl⟩, hprimary, howns⟩

/-- The participant's keys are all owned, distinct and at least one. -/
theorem validateOwnedKeys_eq_ok :
    self.validateOwnedKeys keys = .ok set ↔
      keys ≠ [] ∧ (∀ key ∈ keys, self.tablet.Owns key) ∧ keys.Nodup ∧
        set = keys.foldl (·.insert ·) ∅ := by
  have hpresent : ∀ (m : KeySet) (e e' : Bytes),
      (m.insert e).contains e' = true ↔ id e = id e' ∨ m.contains e' = true := by
    simp
  have hentry : ∀ key key' : Bytes,
      (do
        self.validateOwnedKey key
        return key : Except TabletCommandApplyError Bytes) = .ok key' ↔
        self.tablet.Owns key ∧ key = key' := by
    simp [validateOwnedKey_eq_ok]
  rw [validateOwnedKeys]
  simp only [eq_ok', collect_eq_ok hpresent, mapM_eq_ok, hentry, List.forall₂_and_left,
    List.forall₂_eq_eq_eq, List.map_id]
  constructor
  · rintro ⟨hne, ds, ⟨howns, rfl⟩, hnodup, -, rfl⟩
    exact ⟨hne, howns, hnodup, rfl⟩
  · rintro ⟨hne, howns, hnodup, rfl⟩
    exact ⟨hne, keys, ⟨howns, rfl⟩, hnodup, by simp, rfl⟩

theorem mem_of_validateOwnedKeys
    (h : self.validateOwnedKeys keys = .ok set) {k : Bytes} : k ∈ set ↔ k ∈ keys := by
  obtain ⟨-, -, -, rfl⟩ := validateOwnedKeys_eq_ok.mp h
  simp [mem_foldl_insert_set]

theorem collectEntry_eq_ok {write : WriteEntry} {e : Bytes × Mutation} :
    self.collectEntry write = .ok e ↔
      self.tablet.Owns write.key ∧ mutationFromCommand write.op write.row = .ok e.2 ∧
        write.key = e.1 := by
  simp only [collectEntry, eq_ok', validateOwnedKey_eq_ok]
  constructor
  · rintro ⟨howns, m, hm, rfl⟩
    exact ⟨howns, hm, rfl⟩
  · rintro ⟨howns, hm, hkey⟩
    exact ⟨howns, e.2, hm, by rw [hkey]⟩

theorem mem_of_collectMutations {duplicate : String} {writes : List WriteEntry} {ms : Mutations}
    (h : self.collectMutations duplicate writes = .ok ms) :
    (∀ k, k ∈ ms ↔ ∃ write ∈ writes, write.key = k) ∧
      ∀ write ∈ writes, self.tablet.Owns write.key := by
  obtain ⟨ds, hds, -, -, rfl⟩ := (collect_eq_ok contains_insert_entry).mp h
  simp only [mapM_eq_ok, collectEntry_eq_ok, List.forall₂_and_left] at hds
  obtain ⟨howns, hds⟩ := hds
  have hkeys : writes.map (·.key) = ds.map Prod.fst := by
    rw [← List.forall₂_eq_eq_eq, List.forall₂_map_left_iff, List.forall₂_map_right_iff]
    exact hds.imp fun _ _ he => he.2
  refine ⟨fun k => ?_, howns⟩
  rw [mem_foldl_insert, ← List.mem_map, ← List.mem_map, hkeys]
  simp

/-! ## Status transitions -/

theorem sameStatusIdentity_eq_true {existing next : TxnStatusRecord} :
    sameStatusIdentity existing next = true ↔
      existing.txnId = next.txnId ∧ existing.startTimestamp = next.startTimestamp ∧
        existing.primaryKey = next.primaryKey ∧
        existing.participantTabletIds = next.participantTabletIds := by
  simp [sameStatusIdentity]

/-- A primary prewrite publishes the pending status, once. -/
theorem validatePrewriteStatusTransition_eq_ok
    {primaryKey : Bytes} {writes : Mutations} {status : Option TxnStatusRecord} :
    self.validatePrewriteStatusTransition txnId startTs primaryKey writes status = .ok transition ↔
      (status = none ∧ transition = none ∧
        ∀ r, self.transactionStatuses[txnId]? = some r → r.primaryKey = primaryKey →
          r.primaryKey ∉ writes) ∨
      ∃ next, status = some next ∧ self.tablet.Governs next ∧ next.txnId = txnId ∧
        next.startTimestamp = startTs ∧ next.primaryKey = primaryKey ∧ next.primaryKey ∈ writes ∧
        ((self.transactionStatuses[txnId]? = none ∧ transition = some next) ∨
          (self.transactionStatuses[txnId]? = some next ∧ transition = none)) := by
  unfold validatePrewriteStatusTransition
  cases status with
  | none =>
    simp only [eq_ok', not_any_iff, decide_eq_true_eq, reduceCtorEq, false_and, exists_false,
      or_false, true_and]
    rw [and_comm, eq_comm (a := none)]
    simp
  | some next =>
    simp only [eq_ok', validateStatusAuthority_eq_ok, reduceCtorEq, false_and, false_or, eq_some,
      exists_eq_left', and_assoc, ExtTreeMap.contains_iff_mem]
    refine and_congr_right fun _ => and_congr_right fun _ => and_congr_right fun _ =>
      and_congr_right fun _ => and_congr_right fun _ => ?_
    cases self.transactionStatuses[txnId]? with
    | none => simp [eq_comm (a := transition)]
    | some existing =>
      by_cases heq : existing = next
      · simp [heq, eq_comm (a := transition)]
      · simp only [heq, if_false, eq_some, false_and, reduceCtorEq, or_self, iff_false]
        split
        · simp
        · split <;> simp

/-- A primary commit publishes the committed status over the pending one, once. -/
theorem validateCommitStatusTransition_eq_ok {commitTs : Timestamp}
    {keys : KeySet} {status : Option TxnStatusRecord} :
    self.validateCommitStatusTransition txnId startTs commitTs keys status = .ok transition ↔
      (status = none ∧ transition = none ∧
        ∀ r, self.transactionStatuses[txnId]? = some r → r.primaryKey ∉ keys) ∨
      ∃ next existing, status = some next ∧ self.tablet.Governs next ∧ next.txnId = txnId ∧
        next.startTimestamp = startTs ∧ next.commitTimestamp = some commitTs ∧
        next.primaryKey ∈ keys ∧ self.transactionStatuses[txnId]? = some existing ∧
        sameStatusIdentity existing next = true ∧
        ((existing.status = .pending ∧ transition = some next) ∨
          (existing.status ≠ .pending ∧ existing = next ∧ transition = none)) := by
  unfold validateCommitStatusTransition
  cases status with
  | none =>
    simp only [eq_ok', not_any_iff, ExtTreeSet.contains_iff_mem, reduceCtorEq, false_and,
      exists_false, or_false, true_and]
    rw [and_comm, eq_comm (a := none)]
  | some next =>
    simp only [eq_ok', validateStatusAuthority_eq_ok, reduceCtorEq, false_and, false_or, eq_some,
      exists_and_left, exists_eq_left', and_assoc, ExtTreeSet.contains_iff_mem]
    refine and_congr_right fun _ => and_congr_right fun _ => and_congr_right fun _ =>
      and_congr_right fun _ => and_congr_right fun _ => ?_
    cases self.transactionStatuses[txnId]? with
    | none => simp
    | some existing =>
      simp only [eq_some, exists_eq_left']
      by_cases hsame : sameStatusIdentity existing next = true
      · simp only [hsame, not_true_eq_false, if_false, true_and]
        by_cases hpending : existing.status = .pending
        · simp [hpending, eq_comm (a := transition)]
        · simp only [hpending, if_false, false_and, false_or, not_false_eq_true, ne_eq, true_and]
          by_cases heq : existing = next
          · simp [heq, eq_comm (a := transition)]
          · simp only [heq, if_false, false_and, iff_false]
            split <;> simp
      · simp [hsame]

theorem validateAbortStatusTransition_eq_ok {replace : Bool} :
    self.validateAbortStatusTransition status = .ok replace ↔
      ∃ existing, self.transactionStatuses[status.txnId]? = some existing ∧
        sameStatusIdentity existing status = true ∧
        ((existing.status = .pending ∧ replace = true) ∨
          (existing.status = .aborted ∧ existing = status ∧ replace = false)) := by
  simp only [validateAbortStatusTransition, eq_ok']
  refine exists_congr fun existing => and_congr_right fun _ => and_congr_right fun _ => ?_
  cases existing.status with
  | pending => cases replace <;> simp
  | committed => simp
  | aborted =>
    by_cases heq : existing = status
    · cases replace <;> simp [heq]
    · simp [heq]

/-! ## Running a command -/

@[simp] theorem setStorage_storage :
    (self.setStorage storage).tablet.storage = storage := rfl

@[simp] theorem published_tablet :
    (self.published txnId transition).tablet = self.tablet := by
  cases transition <;> rfl

/-- What proposal validation reads of the state. -/
structure SameTarget (s s' : TabletStateMachine) : Prop where
  tabletId : s'.tablet.id = s.tablet.id
  tableId : s'.tablet.tableId = s.tablet.tableId
  epoch : s'.epoch = s.epoch
  raftGroupId : s'.raftGroupId = s.raftGroupId

theorem SameTarget.refl (s : TabletStateMachine) : SameTarget s s := ⟨rfl, rfl, rfl, rfl⟩

/-- Everything but the store and the statuses is the same. -/
structure SameTables (s s' : TabletStateMachine) : Prop extends SameTarget s s' where
  clients : s'.clientDeduplication = s.clientDeduplication
  logical : s'.logicalCommandDeduplication = s.logicalCommandDeduplication
  horizons : s'.logicalClientRetryHorizons = s.logicalClientRetryHorizons

theorem SameTables.refl (self : TabletStateMachine) : SameTables self self :=
  ⟨.refl self, rfl, rfl, rfl⟩

theorem sameTables_published (storage : InMemoryMvcc) (txnId : TxnId)
    (transition : Option TxnStatusRecord) :
    SameTables self ((self.setStorage storage).published txnId transition) := by
  cases transition <;> exact ⟨⟨rfl, rfl, rfl, rfl⟩, rfl, rfl, rfl⟩

theorem onStorage_bind_run_eq_ok {α β : Type} {method : MvccM α} {f : α → TabletM β} {b : β} :
    (onStorage method >>= f).run self = .ok b self' ↔
      ∃ a storage, method.run self.tablet.storage = .ok a storage ∧
        (f a).run (self.setStorage storage) = .ok b self' := by
  rw [EStateM.run_bind, EStateM.run, onStorage]
  cases method.run self.tablet.storage with
  | ok | error => simp

theorem atomic_onStorage {α : Type} {method : MvccM α} (h : Atomic method) :
    Atomic (onStorage method) := by
  intro self e self' hrun
  rw [EStateM.run, onStorage] at hrun
  cases hm : method.run self.tablet.storage with
  | ok =>
    rw [hm] at hrun
    cases hrun
  | error =>
    rw [hm] at hrun
    cases hrun
    rw [h _ _ _ hm]
    rfl

@[simp] theorem publishStatus_bind_run {β : Type} {f : Unit → TabletM β} :
    (publishStatus txnId transition >>= f).run self =
      (f ()).run (self.published txnId transition) := rfl

end TabletStateMachine

/-- The result of a command that succeeds. -/
def TabletCommand.result : TabletCommand → TabletCommandApplyResult
  | .noop | .catalog _ => .noop
  | .singleShardCommit _ => .singleShardCommit
  | .prewrite _ => .prewrite
  | .commit _ => .commit
  | .rollback _ => .rollback
  | .resolveIntent _ => .resolveIntent
  | .publishAbortedTransactionStatus _ => .publishAbortedTransactionStatus
  | .heartbeatTransactionStatus _ => .heartbeatTransactionStatus
  | .expirePendingTransactionStatus _ => .publishAbortedTransactionStatus

namespace TabletStateMachine

variable {command : TabletCommand}

/-- What a command that succeeds has checked and what it has changed. -/
inductive Dispatched (self : TabletStateMachine) : TabletCommand → TabletStateMachine → Prop
  | noop : Dispatched self .noop self
  | catalog {command : CatalogCommand} : Dispatched self (.catalog command) self
  | singleShardCommit {command : SingleShardCommitCommand} {ms : Mutations}
      {storage : InMemoryMvcc} :
      self.collectMutations "single-shard commit contains a duplicate row key"
        command.writes = .ok ms →
      (MvccOp.commitBatch command.txnId command.startTimestamp command.commitTimestamp
        ms).exec.run self.tablet.storage = .ok () storage →
      Dispatched self (.singleShardCommit command) (self.setStorage storage)
  | prewrite {command : PrewriteCommand} {ms : Mutations} {transition : Option TxnStatusRecord}
      {storage : InMemoryMvcc} :
      self.collectMutations "prewrite contains a duplicate row key" command.writes = .ok ms →
      self.validatePrewriteStatusTransition command.txnId command.startTimestamp
        command.primaryKey ms command.pendingStatus = .ok transition →
      (MvccOp.prewriteBatch command.txnId command.startTimestamp ms command.primaryKey
        command.ttlMs).exec.run self.tablet.storage = .ok () storage →
      Dispatched self (.prewrite command)
        ((self.setStorage storage).published command.txnId transition)
  | commit {command : CommitCommand} {keys : KeySet} {transition : Option TxnStatusRecord}
      {storage : InMemoryMvcc} :
      self.validateOwnedKeys command.keys = .ok keys →
      self.validateCommitStatusTransition command.txnId command.startTimestamp
        command.commitTimestamp keys command.committedStatus = .ok transition →
      (MvccOp.commitIntentsBatch command.txnId command.startTimestamp command.commitTimestamp
        keys).exec.run self.tablet.storage = .ok () storage →
      Dispatched self (.commit command)
        ((self.setStorage storage).published command.txnId transition)
  | rollback {command : RollbackCommand} {keys : KeySet} {storage : InMemoryMvcc} :
      self.validateOwnedKeys command.keys = .ok keys →
      (MvccOp.rollbackIntentsBatch command.txnId command.startTimestamp keys).exec.run
        self.tablet.storage = .ok () storage →
      Dispatched self (.rollback command) (self.setStorage storage)
  | resolveCommitted {command : ResolveIntentCommand} {keys : KeySet} {storage : InMemoryMvcc}
      {commitTimestamp : Timestamp} :
      self.validateOwnedKeys command.keys = .ok keys →
      command.resolvedStatus = .committed →
      command.commitTimestamp = some commitTimestamp →
      (MvccOp.commitIntentsBatch command.txnId command.startTimestamp commitTimestamp
        keys).exec.run self.tablet.storage = .ok () storage →
      Dispatched self (.resolveIntent command) (self.setStorage storage)
  | resolveAborted {command : ResolveIntentCommand} {keys : KeySet} {storage : InMemoryMvcc} :
      self.validateOwnedKeys command.keys = .ok keys →
      command.resolvedStatus = .aborted →
      (MvccOp.rollbackIntentsBatch command.txnId command.startTimestamp keys).exec.run
        self.tablet.storage = .ok () storage →
      Dispatched self (.resolveIntent command) (self.setStorage storage)
  | publishAborted {command : PublishAbortedTransactionStatus} {replace : Bool} :
      self.tablet.Governs command.statusRecord →
      self.validateAbortStatusTransition command.statusRecord = .ok replace →
      Dispatched self (.publishAbortedTransactionStatus command)
        (self.published command.statusRecord.txnId
          (if replace then some command.statusRecord else none))
  | heartbeat {command : HeartbeatTransactionStatus} :
      command.validate = .ok () →
      self.transactionStatuses[command.expectedStatus.txnId]? = some command.expectedStatus →
      Dispatched self (.heartbeatTransactionStatus command)
        (self.published command.expectedStatus.txnId (some command.nextStatus))
  | expire {command : ExpirePendingTransactionStatus} :
      command.validate = .ok () →
      self.transactionStatuses[command.expectedStatus.txnId]? = some command.expectedStatus →
      Dispatched self (.expirePendingTransactionStatus command)
        (self.published command.expectedStatus.txnId
          (some (expiredStatus command.expectedStatus)))
  | expireAgain {command : ExpirePendingTransactionStatus} :
      command.validate = .ok () →
      self.transactionStatuses[command.expectedStatus.txnId]? =
        some (expiredStatus command.expectedStatus) →
      Dispatched self (.expirePendingTransactionStatus command) self

variable {self self' : TabletStateMachine} {result : TabletCommandApplyResult}

theorem Dispatched.of_run (h : (dispatchCommand command).run self = .ok result self') :
    Dispatched self command self' ∧ result = command.result := by
  cases command with
  | noop => cases h; exact ⟨.noop, rfl⟩
  | catalog => cases h; exact ⟨.catalog, rfl⟩
  | singleShardCommit =>
    simp only [dispatchCommand, applySingleShardCommit, run_eq_ok, onStorage_bind_run_eq_ok] at h
    obtain ⟨-, -, ms, hms, n, storage, hrun, hres⟩ := h
    cases hres
    exact ⟨.singleShardCommit hms (MvccOp.commitBatch_exec_eq_ok.mpr ⟨n, hrun⟩), rfl⟩
  | prewrite =>
    simp only [dispatchCommand, applyPrewrite, run_eq_ok, onStorage_bind_run_eq_ok,
      publishStatus_bind_run] at h
    obtain ⟨ms, hms, transition, htr, ⟨⟩, storage, hrun, hres⟩ := h
    cases hres
    exact ⟨.prewrite hms htr hrun, rfl⟩
  | commit =>
    simp only [dispatchCommand, applyCommit, run_eq_ok, onStorage_bind_run_eq_ok,
      publishStatus_bind_run] at h
    obtain ⟨keys, hkeys, transition, htr, ⟨⟩, storage, hrun, hres⟩ := h
    cases hres
    exact ⟨.commit hkeys htr hrun, rfl⟩
  | rollback =>
    simp only [dispatchCommand, applyRollback, run_eq_ok, onStorage_bind_run_eq_ok] at h
    obtain ⟨keys, hkeys, ⟨⟩, storage, hrun, hres⟩ := h
    cases hres
    exact ⟨.rollback hkeys hrun, rfl⟩
  | resolveIntent =>
    simp only [dispatchCommand, applyResolveIntent, run_eq_ok] at h
    obtain ⟨keys, hkeys, h⟩ := h
    split at h
    · next hstatus hcommit =>
        obtain ⟨⟨⟩, storage, hrun, hres⟩ := onStorage_bind_run_eq_ok.mp h
        cases hres
        exact ⟨.resolveCommitted hkeys hstatus hcommit hrun, rfl⟩
    · next hstatus _ =>
        obtain ⟨⟨⟩, storage, hrun, hres⟩ := onStorage_bind_run_eq_ok.mp h
        cases hres
        exact ⟨.resolveAborted hkeys hstatus hrun, rfl⟩
    all_goals cases h
  | publishAbortedTransactionStatus =>
    simp only [dispatchCommand, applyPublishAbortedTransactionStatus, run_eq_ok,
      publishStatus_bind_run, validateStatusAuthority_eq_ok] at h
    obtain ⟨-, hgov, replace, hreplace, hres⟩ := h
    cases hres
    exact ⟨.publishAborted hgov hreplace, rfl⟩
  | heartbeatTransactionStatus =>
    simp only [dispatchCommand, applyHeartbeatTransactionStatus, run_eq_ok, publishStatus_bind_run,
      eq_ok] at h
    obtain ⟨⟨⟩, hval, current, hcurrent, -, rfl, hres⟩ := h
    cases hres
    exact ⟨.heartbeat hval hcurrent, rfl⟩
  | expirePendingTransactionStatus command =>
    simp only [dispatchCommand, applyExpirePendingTransactionStatus, run_eq_ok,
      publishStatus_bind_run, eq_ok, not_and] at h
    obtain ⟨⟨⟩, hval, current, hcurrent, -, hexpected, hres⟩ := h
    by_cases haborted : current = expiredStatus command.expectedStatus
    · rw [if_pos haborted] at hres
      cases hres
      exact ⟨.expireAgain hval (haborted ▸ hcurrent), rfl⟩
    · rw [if_neg haborted] at hres
      cases hres
      exact ⟨.expire hval (hexpected haborted ▸ hcurrent), rfl⟩

theorem Dispatched.sameTables (h : Dispatched self command self') : SameTables self self' := by
  cases h with
  | noop | catalog | expireAgain => exact .refl _
  | singleShardCommit | rollback | resolveCommitted | resolveAborted =>
    exact sameTables_published _ 0 none
  | prewrite | commit => exact sameTables_published _ _ _
  | publishAborted | heartbeat | expire => exact sameTables_published self.tablet.storage _ _

/-- A command that fails changes nothing. -/
theorem atomic_dispatchCommand (command : TabletCommand) : Atomic (dispatchCommand command) := by
  have hpublish : ∀ (txnId : TxnId) (transition : Option TxnStatusRecord)
      (result : TabletCommandApplyResult),
      Atomic (publishStatus txnId transition >>= fun _ => pure result) :=
    fun _ _ _ => .modify_bind _ _
  cases command with
  | noop | catalog => exact .pure _
  | singleShardCommit =>
    exact .lift_bind fun _ => .get_bind fun _ => .lift_bind fun ms =>
      .bind_total (atomic_onStorage MvccOp.atomic_commitBatch) fun _ => .pure _
  | prewrite =>
    exact .get_bind fun _ => .lift_bind fun ms => .lift_bind fun _ =>
      .bind_total (atomic_onStorage (MvccOp.exec_error (.prewriteBatch ..)))
        fun _ => .modify_bind _ _
  | commit =>
    exact .get_bind fun _ => .lift_bind fun keys => .lift_bind fun _ =>
      .bind_total (atomic_onStorage (MvccOp.exec_error (.commitIntentsBatch ..)))
        fun _ => .modify_bind _ _
  | rollback =>
    exact .get_bind fun _ => .lift_bind fun keys =>
      .bind_total (atomic_onStorage (MvccOp.exec_error (.rollbackIntentsBatch ..)))
        fun _ => .pure _
  | resolveIntent =>
    refine .get_bind fun _ => .lift_bind fun keys => ?_
    split
    · exact .bind_total (atomic_onStorage (MvccOp.exec_error (.commitIntentsBatch ..)))
        fun _ => .pure _
    · exact .bind_total (atomic_onStorage (MvccOp.exec_error (.rollbackIntentsBatch ..)))
        fun _ => .pure _
    all_goals exact .throw _
  | publishAbortedTransactionStatus =>
    exact .get_bind fun _ => .lift_bind fun _ => .lift_bind fun _ => hpublish _ _ _
  | heartbeatTransactionStatus command | expirePendingTransactionStatus command =>
    exact .lift_bind fun _ => .get_bind fun _ => .lift_bind fun _ => .lift_bind fun _ =>
      hpublish _ _ _

end TabletStateMachine

end RagnorDb
