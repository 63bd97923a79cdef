import RagnorDb.Common.Command

/-!
# What a valid command carries

The checks of `command_codec.rs` read as properties of the command: the rows and keys it names,
the identities it carries and the status records that go with it.
-/

namespace RagnorDb

open Std Checked

variable {u : Unit}

/-! ## Rows and keys -/

/-- A Put has its complete row and a Delete has none. -/
def WriteEntry.Complete (self : WriteEntry) : Prop :=
  self.op = .put ∧ self.row.isSome ∨ self.op = .delete ∧ self.row = none

theorem validateCommandMutation_eq_ok {write : WriteEntry} :
    validateCommandMutation write.op write.row = .ok u ↔ write.Complete := by
  rw [WriteEntry.Complete]
  cases write.op <;> cases write.row <;> simp [validateCommandMutation]

theorem exists_collect_seenKeys {γ : Type} (entry : γ → Except String Bytes) (key : γ → Bytes)
    (duplicate : Bytes → String) (l : List γ) (hentry : ∀ x k, entry x = .ok k → key x = k) :
    (∃ seen, collect entry (fun (seen : SeenKeys) key => seen.contains key)
        (fun seen key => seen.insert key) duplicate l ∅ = .ok seen) ↔
      (∀ x ∈ l, entry x = .ok (key x)) ∧ (l.map key).Nodup := by
  have hpresent : ∀ (seen : SeenKeys) (k k' : Bytes),
      (seen.insert k).contains k' = true ↔ id k = id k' ∨ seen.contains k' = true := by
    simp
  constructor
  · rintro ⟨seen, hseen⟩
    obtain ⟨keys, hkeys, hnodup, -, -⟩ := (collect_eq_ok hpresent).mp hseen
    have hsame : l.map key = keys := by
      have hpointwise := (mapM_eq_ok.mp hkeys).imp hentry
      rwa [← List.forall₂_eq_eq_eq, List.forall₂_map_left_iff]
    subst hsame
    exact ⟨mapM_eq_ok_map.mp hkeys, by simpa using hnodup⟩
  · rintro ⟨hchecks, hnodup⟩
    exact ⟨_, (collect_eq_ok hpresent).mpr
      ⟨l.map key, mapM_eq_ok_map.mpr hchecks, by simpa using hnodup, by simp, rfl⟩⟩

theorem validateKeys_eq_ok {keys : List Bytes} :
    validateKeys keys = .ok u ↔ keys ≠ [] ∧ [] ∉ keys ∧ keys.Nodup := by
  have hcollect := exists_collect_seenKeys
    (fun key : Bytes => do
      rejectIf (key = []) "participant command contains an empty row key"
      return key)
    id (fun _ => "participant command contains a duplicate row key") keys (by simp)
  have hnonempty : (∀ key ∈ keys, ¬key = []) ↔ [] ∉ keys :=
    ⟨fun h hmem => h [] hmem rfl, fun h key hkey hempty => h (hempty ▸ hkey)⟩
  simp only [validateKeys, eq_ok', and_true]
  rw [hcollect]
  simp [hnonempty]

theorem validateWriteEntries_eq_ok {writes : List WriteEntry} :
    validateWriteEntries writes = .ok u ↔ writes ≠ [] ∧
      (∀ write ∈ writes, write.key ≠ [] ∧ write.Complete) ∧ (writes.map (·.key)).Nodup := by
  have hcollect := exists_collect_seenKeys
    (fun write : WriteEntry => do
      rejectIf (write.key = []) "participant command contains an empty row key"
      validateCommandMutation write.op write.row
      return write.key)
    (·.key) (fun _ => "participant command contains a duplicate row key") writes (by simp)
  simp only [validateWriteEntries, eq_ok', and_true]
  rw [hcollect]
  simp [validateCommandMutation_eq_ok]

theorem validateTxnStart_eq_ok {txnId : TxnId} {startTimestamp : Timestamp} :
    validateTxnStart txnId startTimestamp = .ok u ↔ txnId ≠ 0 ∧ startTimestamp ≠ 0 := by
  simp [validateTxnStart]

theorem validateOptional_eq_ok {α : Type} {check : α → Except String Unit} {o : Option α} :
    validateOptional check o = .ok u ↔ ∀ a ∈ o, check a = .ok () := by
  cases o <;> simp [validateOptional]

/-! ## Commands -/

namespace TabletCommand

variable {u : Unit} {command : TabletCommand}

/-- The row mutations of a command. -/
def writes : TabletCommand → List WriteEntry
  | .prewrite command | .singleShardCommit command => command.writes
  | _ => []

/-- The row keys that a command names. -/
def rowKeys : TabletCommand → List Bytes
  | .prewrite command | .singleShardCommit command => command.writes.map (·.key)
  | .commit command | .rollback command | .resolveIntent command => command.keys
  | _ => []

/-- The transaction identity that a command itself carries. -/
def transaction : TabletCommand → Option (TxnId × Timestamp)
  | .prewrite command | .commit command | .rollback command | .singleShardCommit command
  | .resolveIntent command => some (command.txnId, command.startTimestamp)
  | _ => none

/-- The status records that a command carries. -/
def statuses : TabletCommand → List TxnStatusRecord
  | .prewrite command => command.pendingStatus.toList
  | .commit command => command.committedStatus.toList
  | .publishAbortedTransactionStatus command => [command.statusRecord]
  | .heartbeatTransactionStatus command => [command.expectedStatus, command.nextStatus]
  | .expirePendingTransactionStatus command => [command.expectedStatus]
  | _ => []

/-- The status record says what the command does. -/
def AgreesWith : TabletCommand → TxnStatusRecord → Prop
  | .prewrite command, status => status.txnId = command.txnId ∧
      status.startTimestamp = command.startTimestamp ∧ status.status = .pending ∧
      status.commitTimestamp = none ∧ status.primaryKey = command.primaryKey ∧
      status.primaryKey ∈ command.writes.map (·.key)
  | .commit command, status => status.txnId = command.txnId ∧
      status.startTimestamp = command.startTimestamp ∧ status.status = .committed ∧
      status.commitTimestamp = some command.commitTimestamp ∧ status.primaryKey ∈ command.keys
  | .publishAbortedTransactionStatus _, status =>
    status.status = .aborted ∧ status.commitTimestamp = none
  | .heartbeatTransactionStatus command, status =>
    status.status = .pending ∧ status.commitTimestamp = none ∧
    sameTransactionStatusIdentity command.expectedStatus status ∧ status.leaseDeadlineMs.isSome
  | .expirePendingTransactionStatus _, status =>
    status.status = .pending ∧ status.commitTimestamp = none ∧ status.leaseDeadlineMs.isSome
  | _, _ => False

/-- What the checks of a command establish. -/
structure WellFormed (command : TabletCommand) : Prop where
  complete : ∀ write ∈ command.writes, write.Complete
  keysNonempty : [] ∉ command.rowKeys
  keysDistinct : command.rowKeys.Nodup
  identity : ∀ txn ∈ command.transaction, txn.1 ≠ 0 ∧ txn.2 ≠ 0
  statusValid : ∀ status ∈ command.statuses, status.validate = .ok ()
  statusAgrees : ∀ status ∈ command.statuses, command.AgreesWith status

theorem rows_of_validateWriteEntries {writes : List WriteEntry}
    (h : validateWriteEntries writes = .ok u) :
    (∀ write ∈ writes, write.Complete) ∧ [] ∉ writes.map (·.key) ∧ (writes.map (·.key)).Nodup := by
  obtain ⟨-, hwrites, hnodup⟩ := validateWriteEntries_eq_ok.mp h
  refine ⟨fun write hwrite => (hwrites write hwrite).2, fun hmem => ?_, hnodup⟩
  obtain ⟨write, hwrite, hkey⟩ := List.mem_map.mp hmem
  exact (hwrites write hwrite).1 hkey

theorem wellFormed_prewrite {command : PrewriteCommand}
    (h : command.validate = .ok u) : (prewrite command).WellFormed := by
  simp only [PrewriteCommand.validate, eq_ok, exists_unit, validateTxnStart_eq_ok,
    validateOptional_eq_ok, Bool.not_eq_true, Option.isSome_eq_false_iff, eq_some] at h
  obtain ⟨hidentity, hwrites, -, -, hstatus⟩ := h
  obtain ⟨hcomplete, hnonempty, hdistinct⟩ := rows_of_validateWriteEntries hwrites
  refine ⟨hcomplete, hnonempty, hdistinct, ?_, ?_, ?_⟩
  · rintro txn ⟨⟩
    exact hidentity
  · intro status hmem
    exact (hstatus status (Option.mem_toList.mp hmem)).1
  · intro status hmem
    obtain ⟨-, ⟨htxn, hstart, hpending, hcommit, hprimary⟩, hkey⟩ :=
      hstatus status (Option.mem_toList.mp hmem)
    exact ⟨htxn, hstart, hpending, hcommit, hprimary, by simpa using hkey⟩

theorem wellFormed_commit {command : CommitCommand}
    (h : command.validate = .ok u) : (commit command).WellFormed := by
  simp only [CommitCommand.validate, eq_ok, exists_unit, validateTxnStart_eq_ok, validateKeys_eq_ok,
    validateOptional_eq_ok] at h
  obtain ⟨hidentity, -, ⟨-, hnonempty, hdistinct⟩, hstatus⟩ := h
  refine ⟨by simp [writes], hnonempty, hdistinct, ?_, ?_, ?_⟩
  · rintro txn ⟨⟩
    exact hidentity
  · intro status hmem
    exact (hstatus status (Option.mem_toList.mp hmem)).1
  · intro status hmem
    obtain ⟨-, ⟨htxn, hstart, hcommit, hcommitted⟩, hkey⟩ :=
      hstatus status (Option.mem_toList.mp hmem)
    exact ⟨htxn, hstart, hcommitted, hcommit, by simpa using hkey⟩

theorem wellFormed_of_keys {txnId : TxnId} {startTimestamp : Timestamp}
    (hwrites : command.writes = []) (hstatuses : command.statuses = [])
    (htransaction : command.transaction = some (txnId, startTimestamp))
    (hidentity : validateTxnStart txnId startTimestamp = .ok ())
    (hkeys : validateKeys command.rowKeys = .ok ()) : command.WellFormed := by
  obtain ⟨-, hnonempty, hdistinct⟩ := validateKeys_eq_ok.mp hkeys
  refine ⟨by simp [hwrites], hnonempty, hdistinct, ?_, by simp [hstatuses], by simp [hstatuses]⟩
  intro txn hmem
  rw [htransaction] at hmem
  cases hmem
  exact validateTxnStart_eq_ok.mp hidentity

theorem wellFormed_singleShardCommit {command : SingleShardCommitCommand}
    (h : command.validate = .ok u) : (singleShardCommit command).WellFormed := by
  simp only [SingleShardCommitCommand.validate, eq_ok, exists_unit, validateTxnStart_eq_ok] at h
  obtain ⟨hidentity, -, hwrites⟩ := h
  obtain ⟨hcomplete, hnonempty, hdistinct⟩ := rows_of_validateWriteEntries hwrites
  refine ⟨hcomplete, hnonempty, hdistinct, ?_, by simp [statuses], by simp [statuses]⟩
  rintro txn ⟨⟩
  exact hidentity

theorem wellFormed_of_statuses (hwrites : command.writes = [])
    (hkeys : command.rowKeys = []) (htransaction : command.transaction = none)
    (h : ∀ status ∈ command.statuses, status.validate = .ok () ∧ command.AgreesWith status) :
    command.WellFormed :=
  ⟨by simp [hwrites], by simp [hkeys], by simp [hkeys], by simp [htransaction],
    fun status hmem => (h status hmem).1, fun status hmem => (h status hmem).2⟩

theorem wellFormed_publishAborted {command : PublishAbortedTransactionStatus}
    (h : command.validate = .ok u) : (publishAbortedTransactionStatus command).WellFormed := by
  simp only [PublishAbortedTransactionStatus.validate, eq_ok, exists_unit, Bool.not_eq_true,
    Option.isSome_eq_false_iff, eq_some] at h
  obtain ⟨hvalid, hagrees⟩ := h
  refine wellFormed_of_statuses rfl rfl rfl fun status hmem => ?_
  rw [statuses, List.mem_singleton] at hmem
  subst hmem
  exact ⟨hvalid, hagrees⟩

theorem wellFormed_heartbeat {command : HeartbeatTransactionStatus} (h : command.validate = .ok u) :
    (heartbeatTransactionStatus command).WellFormed := by
  simp only [HeartbeatTransactionStatus.validate, eq_ok, exists_unit, Bool.not_eq_true,
    Option.isSome_eq_false_iff, eq_some] at h
  obtain ⟨hexpected, hnext, -, ⟨hpending, hpendingNext, hcommit, hcommitNext⟩, hidentity,
    current, hcurrent, -, next, hnextDeadline, -⟩ := h
  refine wellFormed_of_statuses rfl rfl rfl fun status hmem => ?_
  rw [statuses, List.mem_cons, List.mem_singleton] at hmem
  rcases hmem with rfl | rfl
  · exact ⟨hexpected, hpending, hcommit, by simp [sameTransactionStatusIdentity],
      by simp [hcurrent]⟩
  · exact ⟨hnext, hpendingNext, hcommitNext, by simpa using hidentity, by simp [hnextDeadline]⟩

theorem wellFormed_expirePending {command : ExpirePendingTransactionStatus}
    (h : command.validate = .ok u) : (expirePendingTransactionStatus command).WellFormed := by
  simp only [ExpirePendingTransactionStatus.validate, eq_ok, exists_unit, Bool.not_eq_true,
    Option.isSome_eq_false_iff, eq_some] at h
  obtain ⟨hvalid, -, ⟨hpending, hcommit⟩, deadline, hdeadline, -⟩ := h
  refine wellFormed_of_statuses rfl rfl rfl fun status hmem => ?_
  rw [statuses, List.mem_singleton] at hmem
  subst hmem
  exact ⟨hvalid, hpending, hcommit, by simp [hdeadline]⟩

theorem wellFormed_of_validate (h : command.validate = .ok u) : command.WellFormed := by
  cases command with
  | prewrite => exact wellFormed_prewrite h
  | commit => exact wellFormed_commit h
  | rollback =>
    obtain ⟨_, hidentity, hkeys⟩ := bind_eq_ok.mp h
    exact wellFormed_of_keys rfl rfl rfl hidentity hkeys
  | singleShardCommit => exact wellFormed_singleShardCommit h
  | resolveIntent =>
    obtain ⟨_, hidentity, hrest⟩ := bind_eq_ok.mp h
    obtain ⟨_, hkeys, -⟩ := bind_eq_ok.mp hrest
    exact wellFormed_of_keys rfl rfl rfl hidentity hkeys
  | catalog | noop => exact wellFormed_of_statuses rfl rfl rfl (by simp [statuses])
  | publishAbortedTransactionStatus => exact wellFormed_publishAborted h
  | heartbeatTransactionStatus => exact wellFormed_heartbeat h
  | expirePendingTransactionStatus => exact wellFormed_expirePending h

end TabletCommand

/-! ## Envelopes -/

/-- What the checks of an envelope establish. -/
structure TabletCommandEnvelope.WellFormed (envelope : TabletCommandEnvelope) : Prop where
  version : envelope.formatVersion = tabletCommandEnvelopeVersion
  tabletId : envelope.tabletId ≠ 0
  expectedEpoch : envelope.expectedEpoch ≠ 0
  clientId : envelope.requestId.clientId ≠ 0
  sequence : envelope.requestId.sequence ≠ 0
  raftGroupId : envelope.requestId.raftGroupId ≠ 0
  logicalCommandId : ∀ id ∈ envelope.logicalCommandId, id.clientRequestId.clientId ≠ 0 ∧
    id.clientRequestId.sessionEpoch ≠ 0 ∧ id.clientRequestId.requestSequence ≠ 0 ∧
    id.commandOrdinal ≠ 0
  command : envelope.command.WellFormed

theorem TabletCommandEnvelope.wellFormed_of_validate {envelope : TabletCommandEnvelope}
    (h : envelope.validate = .ok u) : envelope.WellFormed := by
  simp only [validate, validateMetadata, eq_ok, exists_unit] at h
  obtain ⟨⟨hversion, htablet, hepoch, hclient, hsequence, hgroup, hlogical⟩, hcommand⟩ := h
  refine ⟨hversion, htablet, hepoch, hclient, hsequence, hgroup, fun id hid => ?_,
    TabletCommand.wellFormed_of_validate hcommand⟩
  rw [Option.mem_def.mp hid] at hlogical
  simp only [eq_ok, LogicalCommandId.validate, ClientRequestId.validate, exists_unit] at hlogical
  obtain ⟨⟨hclientId, hsession, hrequest⟩, hordinal⟩ := hlogical
  exact ⟨hclientId, hsession, hrequest, hordinal⟩

end RagnorDb
