import RagnorDb.Storage.MvccRefusal
import RagnorDb.Tablet.Invariant

/-!
# Committed entries

The bridge of `tablet_apply.rs` from committed Raft entries to the tablet state machine.  A
command that the state machine rejects deterministically has consumed its log position like
one that it applied; every other error is fatal to the replica group.  The fatal errors that
a validated command can still cause are those of a command which contradicts what the tablet
already holds for the same transaction or at the same timestamp.
-/

namespace RagnorDb

open Std Checked

/-- Raft term and index of an entry. -/
structure ProposalPosition where
  term : Nat
  index : Nat
  deriving DecidableEq

/-- Result of one committed command that was applied. -/
structure AppliedTabletCommand where
  requestId : RequestId
  position : ProposalPosition
  outcome : TabletCommandApplyOutcome
  deriving DecidableEq

/-- Deterministic rejection of one committed command. -/
structure RejectedTabletCommand where
  requestId : RequestId
  position : ProposalPosition
  rejection : TabletCommandApplyError
  deriving DecidableEq

inductive CommittedTabletCommandDisposition where
  | applied (applied : AppliedTabletCommand)
  | rejected (rejected : RejectedTabletCommand)
  deriving DecidableEq

/-- Complete result for one committed entry. -/
inductive CommittedTabletCommandEntry where
  | single (disposition : CommittedTabletCommandDisposition)
  | batch (dispositions : List CommittedTabletCommandDisposition)
  deriving DecidableEq

/-- Why bytes are not a batch.  The bridge tells a protobuf failure from the other errors
and reads those only through their texts. -/
inductive TabletCommandBatchEnvelopeError where
  | decode (reason : String)
  | invalid (reason : String)
  deriving DecidableEq

/-- The bytes of a committed entry, as its two decoders read them. -/
structure CommandBytes where
  single : Except TabletCommandEnvelopeError TabletCommandEnvelope
  batch : Except TabletCommandBatchEnvelopeError (List TabletCommandEnvelope)

/-- Why a committed batch is refused as a whole. -/
inductive InvalidBatchReason where
  | envelope (reason : String)
  | subcommand (index : Nat) (source : TabletCommandApplyError)
  deriving DecidableEq

inductive TabletApplyError where
  | invalidRaftPosition (term index : Nat)
  | invalidEnvelope (error : TabletCommandEnvelopeError)
  | invalidBatch (reason : InvalidBatchReason)
  | fatalApply (error : TabletCommandApplyError)
  deriving DecidableEq

def isRoutingRejection : TabletCommandApplyError → Bool
  | .raftGroupMismatch _ _ | .tabletIdMismatch _ _ | .tabletEpochMismatch _ _ => true
  | _ => false

/-- Whether an error is a normal deterministic result of a valid committed envelope. -/
def isDeterministicRejection : TabletCommandApplyError → Bool
  | .raftGroupMismatch _ _ | .tabletIdMismatch _ _ | .tabletEpochMismatch _ _
  | .staleRequestSequence _ _ | .requestSequenceGap _ _ _ | .requestSequenceExhausted _
  | .requestIdExpired _ _ _ _ | .acknowledgementRegression _ _ _ _
  | .invalidCommand _ | .writeConflict _ | .unsupportedCommand _ => true
  | _ => false

/-- A `&mut self` method of the applier, whose state is the tablet state machine. -/
abbrev TabletApplierM := EStateM TabletApplyError TabletStateMachine

namespace TabletCommandApplier

def applyEnvelope (position : ProposalPosition) (envelope : TabletCommandEnvelope) :
    TabletApplierM CommittedTabletCommandDisposition := fun self =>
  match (TabletStateMachine.apply envelope).run self with
  | .ok outcome self => .ok (.applied ⟨envelope.requestId, position, outcome⟩) self
  | .error rejection self =>
    if isDeterministicRejection rejection then
      .ok (.rejected ⟨envelope.requestId, position, rejection⟩) self
    else
      .error (.fatalApply rejection) self

/-- Validate every subcommand before changing the state machine. -/
def validateSubcommands (self : TabletStateMachine) (commands : List TabletCommandEnvelope) :
    Except TabletApplyError Unit :=
  commands.zipIdx.forM fun e =>
    match self.validateProposal e.1 with
    | .ok () => .ok ()
    | .error source =>
      rejectIf (¬ isRoutingRejection source) (.invalidBatch (.subcommand e.2 source))

/-- Decode and apply a committed entry that is a single envelope or a batch. -/
def applyCommittedEntry (position : ProposalPosition) (command : CommandBytes) :
    TabletApplierM CommittedTabletCommandEntry := do
  rejectIf (position.term = 0 ∨ position.index = 0)
    (TabletApplyError.invalidRaftPosition position.term position.index)
  match command.single with
  | .ok envelope => return .single (← applyEnvelope position envelope)
  | .error singleError =>
    match command.batch with
    | .error (.decode _) => throw (.invalidEnvelope singleError)
    | .error (.invalid reason) => throw (.invalidBatch (.envelope reason))
    | .ok commands => do
      let self ← get
      validateSubcommands self commands
      return .batch (← commands.mapM (applyEnvelope position))

end TabletCommandApplier

/-! ## Contradicting commands -/

/-- What a command asks of each row it names. -/
def TabletCommand.calls : TabletCommand → List (Bytes × Cell.Call)
  | .prewrite command => command.writes.filterMap fun write =>
    (TabletStateMachine.mutationFromCommand write.op write.row).toOption.map fun mutation =>
      (write.key, .prewrite (InMemoryMvcc.prewriteLock command.txnId command.startTimestamp
        mutation command.primaryKey command.ttlMs) mutation)
  | .singleShardCommit command => command.writes.filterMap fun write =>
    (TabletStateMachine.mutationFromCommand write.op write.row).toOption.map fun mutation =>
      (write.key, .direct command.txnId command.startTimestamp command.commitTimestamp mutation)
  | .commit command => command.keys.map fun key =>
    (key, .commit command.txnId command.startTimestamp command.commitTimestamp)
  | .rollback command => command.keys.map fun key =>
    (key, .rollback command.txnId command.startTimestamp)
  | .resolveIntent command => command.keys.map fun key =>
    (key, match command.commitTimestamp with
      | some commitTimestamp => .commit command.txnId command.startTimestamp commitTimestamp
      | none => .rollback command.txnId command.startTimestamp)
  | _ => []

/-- The status record that a command wants to publish over an existing one. -/
def TabletCommand.publishedStatus : TabletCommand → Option TxnStatusRecord
  | .prewrite command => command.pendingStatus
  | .commit command => command.committedStatus
  | .publishAbortedTransactionStatus command => some command.statusRecord
  | _ => none

namespace TabletStateMachine

variable {command : TabletCommand} {P : TabletCommandApplyError → Prop}
  {envelope : TabletCommandEnvelope}

/-- The command agrees with the tablet's state: no row holds something else at the command's
own timestamps, a direct commit is not in place for some of its rows only, and a status
record keeps the identity of the stored one. -/
structure Agrees (s : TabletStateMachine) (command : TabletCommand) : Prop where
  rows : ∀ e ∈ command.calls, ¬ (s.tablet.storage.cell e.1).Clash e.2
  whole : ∀ c, command = .singleShardCommit c →
    ¬ s.tablet.storage.PartlyApplied c.commitTimestamp (c.writes.map (·.key))
  status : ∀ next ∈ command.publishedStatus, ∀ existing ∈ s.transactionStatuses[next.txnId]?,
    sameStatusIdentity existing next = true

/-- Each envelope agrees with the state in which its turn comes. -/
def AgreesInTurn : TabletStateMachine → List TabletCommandEnvelope → Prop
  | _, [] => True
  | s, envelope :: rest =>
    s.Agrees envelope.command ∧ AgreesInTurn (after (apply envelope) s) rest

variable {s s₁ s' : TabletStateMachine}

theorem Agrees.sameData (h : s.Agrees command) (hsame : SameData s s₁) : s₁.Agrees command where
  rows := by
    rw [hsame.tablet]
    exact h.rows
  whole := by
    rw [hsame.tablet]
    exact h.whole
  status := by
    rw [hsame.statuses]
    exact h.status

/-! ## Rejections of a command -/

/-- The error is a deterministic rejection. -/
def IsRejection (e : TabletCommandApplyError) : Prop :=
  isDeterministicRejection e = true

theorem isRejection_mapDatabaseError {e : Error} (h : e.IsRefusal) :
    IsRejection (mapDatabaseError e) := by
  cases e with
  | invalidArgument | writeConflict => rfl
  | _ => exact h.elim

theorem refuses_encodeRow {row : Row} : FailsWith Error.IsRefusal (encodeRow row) := by
  simp only [encodeRow, failsWith_iff]
  refine ⟨fun _ => trivial, fun _ _ => failsWith_foldlM (fun output value _ => ?_) _⟩
  cases value <;> simp [encodeValueInto, Error.IsRefusal]

/-! The checks of a command fail as invalid, and the status transitions as corrupt where the
identity of a status has changed. -/

section Checks

variable {P : TabletCommandApplyError → Prop} (hinvalid : ∀ reason, P (.invalidCommand reason))
include hinvalid

variable {status : TxnStatusRecord} {txnId : TxnId} {startTs : Timestamp}

theorem failsWith_validateOwnedKey {key : Bytes} : FailsWith P (s.validateOwnedKey key) := by
  simp [validateOwnedKey, hinvalid]

theorem failsWith_validateStatusAuthority :
    FailsWith P (s.validateStatusAuthority status) := by
  simp [validateStatusAuthority, failsWith_validateOwnedKey hinvalid, hinvalid]

theorem failsWith_validateOwnedKeys {keys : List Bytes} :
    FailsWith P (s.validateOwnedKeys keys) := by
  simp only [validateOwnedKeys, failsWith_iff]
  refine ⟨fun _ => hinvalid _, fun _ _ => failsWith_collect (fun key _ => ?_) fun _ => hinvalid _⟩
  simp [failsWith_validateOwnedKey hinvalid]

theorem failsWith_mutationFromCommand {op : WriteKind} {row : Option Row}
    (hrow : ∀ e : Error, e.IsRefusal → P (mapDatabaseError e)) :
    FailsWith P (mutationFromCommand op row) := by
  unfold mutationFromCommand
  split
  · simp only [failsWith_iff, failsWith_map]
    exact fun e he => hrow e (refuses_encodeRow e he)
  all_goals simp [hinvalid]

theorem failsWith_collectMutations {duplicate : String} {writes : List WriteEntry}
    (hrow : ∀ e : Error, e.IsRefusal → P (mapDatabaseError e)) :
    FailsWith P (s.collectMutations duplicate writes) := by
  refine failsWith_collect (fun write _ => ?_) fun _ => hinvalid _
  simp [collectEntry, failsWith_validateOwnedKey hinvalid,
    failsWith_mutationFromCommand hinvalid hrow]

theorem failsWith_validatePrewriteStatusTransition
    {primaryKey : Bytes} {ms : Mutations} {status : Option TxnStatusRecord}
    (h : ∀ next ∈ status, ∀ existing ∈ s.transactionStatuses[next.txnId]?,
      sameStatusIdentity existing next = true ∨ P (identityChanged next.txnId)) :
    FailsWith P (s.validatePrewriteStatusTransition txnId startTs primaryKey ms status) := by
  unfold validatePrewriteStatusTransition
  cases status with
  | none => simp [hinvalid]
  | some next =>
    simp only [failsWith_iff, eq_ok]
    refine ⟨failsWith_validateStatusAuthority hinvalid, fun _ _ => ⟨fun _ => hinvalid _,
      fun _ hid => ⟨fun _ => hinvalid _, fun _ _ => ?_⟩⟩⟩
    obtain ⟨rfl, -⟩ := hid
    cases hex : s.transactionStatuses[next.txnId]? with
    | none => simp
    | some existing =>
      have hsame := h next rfl existing hex
      dsimp only
      split
      · simp
      split
      · rename_i hne
        exact failsWith_error.mpr (hsame.resolve_left hne)
      split <;> exact failsWith_error.mpr (hinvalid _)

theorem failsWith_validateCommitStatusTransition {commitTs : Timestamp}
    {keys : KeySet} {status : Option TxnStatusRecord}
    (h : ∀ next ∈ status, ∀ existing ∈ s.transactionStatuses[next.txnId]?,
      sameStatusIdentity existing next = true ∨ P (identityChanged next.txnId)) :
    FailsWith P (s.validateCommitStatusTransition txnId startTs commitTs keys status) := by
  unfold validateCommitStatusTransition
  cases status with
  | none => simp [hinvalid]
  | some next =>
    simp only [failsWith_iff, eq_ok]
    refine ⟨failsWith_validateStatusAuthority hinvalid, fun _ _ => ⟨fun _ => hinvalid _,
      fun _ hid => ⟨fun _ => hinvalid _, fun _ _ => ?_⟩⟩⟩
    obtain ⟨rfl, -⟩ := hid
    cases hex : s.transactionStatuses[next.txnId]? with
    | none => exact failsWith_error.mpr (hinvalid _)
    | some existing =>
      have hsame := h next rfl existing hex
      dsimp only
      split
      · rename_i hne
        exact failsWith_error.mpr (hsame.resolve_left hne)
      split
      · simp
      split
      · simp
      split <;> exact failsWith_error.mpr (hinvalid _)

theorem failsWith_validateAbortStatusTransition
    (h : ∀ existing ∈ s.transactionStatuses[status.txnId]?,
      sameStatusIdentity existing status = true ∨ P (identityChanged status.txnId)) :
    FailsWith P (s.validateAbortStatusTransition status) := by
  simp only [validateAbortStatusTransition, failsWith_iff, eq_ok]
  refine ⟨fun _ => hinvalid _, fun existing hex => ⟨fun hne => (h existing hex).resolve_left hne,
    fun _ _ => ?_⟩⟩
  cases existing.status with
  | pending => simp
  | committed => exact failsWith_error.mpr (hinvalid _)
  | aborted =>
    simp only [failsWith_ite]
    exact ⟨fun _ => failsWith_pure, fun _ => failsWith_error.mpr (hinvalid _)⟩

end Checks

theorem mutation_of_collectMutations {duplicate : String} {writes : List WriteEntry}
    {ms : Mutations} (h : s.collectMutations duplicate writes = .ok ms) {e : Bytes × Mutation}
    (he : e ∈ ms.toList) :
    ∃ write ∈ writes, write.key = e.1 ∧ mutationFromCommand write.op write.row = .ok e.2 := by
  obtain ⟨ds, hds, -, -, rfl⟩ := (collect_eq_ok contains_insert_entry).mp h
  rw [ExtTreeMap.mem_toList_iff_getElem?_eq_some] at he
  rcases OrderedMap.mem_of_getElem?_foldl_insert he with hmem | hempty
  · obtain ⟨write, hwrite, hentry⟩ := exists_of_mem_mapM hds hmem
    obtain ⟨-, hm, hkey⟩ := collectEntry_eq_ok.mp hentry
    exact ⟨write, hwrite, hkey, hm⟩
  · simp at hempty

theorem failsWith_answer_onStorage_bind {α β : Type} {method : MvccM α} {f : α → TabletM β}
    (hmethod : FailsWith (fun e => P (mapDatabaseError e)) (answer method s.tablet.storage))
    (hf : ∀ a s', FailsWith P (answer (f a) s')) :
    FailsWith P (answer (onStorage method >>= f) s) := by
  rw [answer] at hmethod
  cases hrun : method.run s.tablet.storage with
  | ok a storage =>
    have honce : (onStorage method).run s = .ok a (s.setStorage storage) := by
      rw [EStateM.run, onStorage, hrun]
    rw [answer_bind_of_ok honce]
    exact hf a _
  | error e storage =>
    have honce : (onStorage method).run s =
        .error (mapDatabaseError e) (s.setStorage storage) := by
      rw [EStateM.run, onStorage, hrun]
    rw [answer_bind_of_error honce]
    rw [hrun] at hmethod
    exact failsWith_error.mpr (hmethod e rfl)

/-- Why the storage and the recorded statuses do not fail a command in another way: any failure of
theirs will do, or the command agrees with them. -/
def Tolerates (P : TabletCommandApplyError → Prop) (s : TabletStateMachine)
    (command : TabletCommand) : Prop :=
  ((∀ e, P (mapDatabaseError e)) ∧ ∀ txnId, P (identityChanged txnId)) ∨
    s.tablet.storage.Inv ∧ s.Agrees command

section Tolerates

variable (hinvalid : ∀ reason, P (.invalidCommand reason))
  (hrow : ∀ e : Error, e.IsRefusal → P (mapDatabaseError e)) (h : Tolerates P s command)
include hrow h

theorem Tolerates.storage {α : Type} {method : MvccM α} {f : α → TabletM TabletCommandApplyResult}
    (hmethod : s.tablet.storage.Inv → s.Agrees command →
      FailsWith Error.IsRefusal (answer method s.tablet.storage))
    (hf : ∀ a s', FailsWith P (answer (f a) s')) :
    FailsWith P (answer (onStorage method >>= f) s) := by
  refine failsWith_answer_onStorage_bind (fun e he => ?_) hf
  rcases h with ⟨hdatabase, _⟩ | ⟨hinv, hagrees⟩
  · exact hdatabase e
  · exact hrow e (hmethod hinv hagrees e he)

theorem Tolerates.keys {keys : List Bytes} {set : KeySet}
    (hset : s.validateOwnedKeys keys = .ok set)
    {call : Cell.Call} (hcalls : ∀ k ∈ keys, (k, call) ∈ command.calls) {method : MvccM Unit}
    (hmethod : (∀ k, (s.tablet.storage.cell k).Inv) → (∀ k ∈ set.toList, CanonicalKey k) →
    (∀ k ∈ set.toList, ¬(s.tablet.storage.cell k).Clash call) →
      FailsWith Error.IsRefusal (answer method s.tablet.storage))
    {f : Unit → TabletM TabletCommandApplyResult} (hf : ∀ a s', FailsWith P (answer (f a) s')) :
    FailsWith P (answer (onStorage method >>= f) s) := by
  refine h.storage hrow (fun hinv hagrees => hmethod hinv.cell ?_ ?_) hf <;> intro k hk <;>
    have hmem := (mem_of_validateOwnedKeys hset).mp (ExtTreeSet.mem_toList.mp hk)
  · obtain ⟨-, howns, -⟩ := validateOwnedKeys_eq_ok.mp hset
    obtain ⟨rowKey, hdecode, -⟩ := howns k hmem
    exact ⟨rowKey, hdecode⟩
  · exact hagrees.rows (k, call) (hcalls k hmem)

include hinvalid

/-- A command fails as invalid, as the storage does, or for the identity of a status. -/
theorem failsWith_dispatchCommand : FailsWith P (answer (dispatchCommand command) s) := by
  have hstatus : ∀ next ∈ command.publishedStatus, ∀ existing ∈ s.transactionStatuses[next.txnId]?,
      sameStatusIdentity existing next = true ∨ P (identityChanged next.txnId) :=
    fun next hnext existing hex => h.elim (fun h => .inr (h.2 _)) fun h =>
      .inl (h.2.status next hnext existing hex)
  have hconflict : ∀ reason, P (.writeConflict reason) := fun reason =>
    hrow (.writeConflict reason) trivial
  cases command with
  | noop | catalog => exact failsWith_ok
  | singleShardCommit command =>
    simp only [dispatchCommand, applySingleShardCommit, failsWith_iff]
    refine ⟨fun _ => hinvalid _, fun _ _ => ⟨failsWith_collectMutations hinvalid hrow, fun ms hms =>
      h.storage hrow (fun hinv hagrees => InMemoryMvcc.refuses_commitBatch hinv.cell ?_ ?_)
        fun _ _ => failsWith_ok⟩⟩
    · intro e he
      obtain ⟨write, hwrite, hkey, hm⟩ := mutation_of_collectMutations hms he
      refine hagrees.rows (e.1, _) (List.mem_filterMap.mpr ⟨write, hwrite, ?_⟩)
      simp [hm, hkey, Except.toOption]
    · intro hpartly
      refine hagrees.whole command rfl ?_
      obtain ⟨⟨k, hk, hsome⟩, k', hk', hnone⟩ := hpartly
      have hmem : ∀ {k}, k ∈ ms.toList.map Prod.fst → k ∈ command.writes.map (·.key) := by
        intro k hk
        obtain ⟨e, he, rfl⟩ := List.mem_map.mp hk
        obtain ⟨write, hwrite, hkey, -⟩ := mutation_of_collectMutations hms he
        exact List.mem_map.mpr ⟨write, hwrite, hkey⟩
      exact ⟨⟨k, hmem hk, hsome⟩, k', hmem hk', hnone⟩
  | prewrite =>
    simp only [dispatchCommand, applyPrewrite, failsWith_iff]
    refine ⟨failsWith_collectMutations hinvalid hrow, fun ms hms =>
      ⟨failsWith_validatePrewriteStatusTransition hinvalid hstatus, fun _ _ =>
        h.storage hrow (fun hinv hagrees => InMemoryMvcc.refuses_prewriteBatch hinv.cell ?_)
          fun _ _ => failsWith_ok⟩⟩
    intro e he
    obtain ⟨write, hwrite, hkey, hm⟩ := mutation_of_collectMutations hms he
    refine hagrees.rows (e.1, _) (List.mem_filterMap.mpr ⟨write, hwrite, ?_⟩)
    simp [hm, hkey, Except.toOption]
  | commit =>
    simp only [dispatchCommand, applyCommit, failsWith_iff]
    exact ⟨failsWith_validateOwnedKeys hinvalid, fun set hset =>
      ⟨failsWith_validateCommitStatusTransition hinvalid hstatus, fun _ _ =>
        h.keys hrow hset (fun k hk => List.mem_map_of_mem hk)
          InMemoryMvcc.refuses_commitIntentsBatch fun _ _ => failsWith_ok⟩⟩
  | rollback =>
    simp only [dispatchCommand, applyRollback, failsWith_iff]
    exact ⟨failsWith_validateOwnedKeys hinvalid, fun set hset =>
      h.keys hrow hset (fun k hk => List.mem_map_of_mem hk)
        InMemoryMvcc.refuses_rollbackIntentsBatch fun _ _ => failsWith_ok⟩
  | resolveIntent =>
    simp only [dispatchCommand, applyResolveIntent, failsWith_iff]
    refine ⟨failsWith_validateOwnedKeys hinvalid, fun set hset => ?_⟩
    split
    · next hcommitted =>
      exact h.keys hrow hset (fun k hk => by
        simpa only [TabletCommand.calls, hcommitted] using List.mem_map_of_mem hk)
        InMemoryMvcc.refuses_commitIntentsBatch fun _ _ => failsWith_ok
    · next haborted =>
      exact h.keys hrow hset (fun k hk => by
        simpa only [TabletCommand.calls, haborted] using List.mem_map_of_mem hk)
        InMemoryMvcc.refuses_rollbackIntentsBatch fun _ _ => failsWith_ok
    all_goals exact failsWith_error.mpr (hinvalid _)
  | publishAbortedTransactionStatus =>
    simp only [dispatchCommand, applyPublishAbortedTransactionStatus, failsWith_iff]
    exact ⟨failsWith_validateStatusAuthority hinvalid, fun _ _ =>
      ⟨failsWith_validateAbortStatusTransition hinvalid (hstatus _ rfl), fun _ _ => failsWith_ok⟩⟩
  | heartbeatTransactionStatus =>
    simp only [dispatchCommand, applyHeartbeatTransactionStatus, failsWith_iff]
    exact ⟨fun _ _ => hinvalid _, fun _ _ => ⟨fun _ => hconflict _, fun _ _ =>
      ⟨fun _ => hconflict _, fun _ _ => failsWith_ok⟩⟩⟩
  | expirePendingTransactionStatus =>
    simp only [dispatchCommand, applyExpirePendingTransactionStatus, failsWith_iff]
    exact ⟨fun _ _ => hinvalid _, fun _ _ => ⟨fun _ => hconflict _, fun _ _ =>
      ⟨fun _ => hconflict _, fun _ _ => failsWith_ok⟩⟩⟩

end Tolerates

theorem Agrees.rejects (h : s.tablet.storage.Inv) (hagrees : s.Agrees command) :
    FailsWith IsRejection (answer (dispatchCommand command) s) :=
  failsWith_dispatchCommand (fun _ => rfl) (fun _ => isRejection_mapDatabaseError)
    (.inr ⟨h, hagrees⟩)

/-! ## Rejections of a delivery -/

theorem failsWith_executeAndRetain
    {retain : TabletStateMachine → CachedTabletCommandOutcome → TabletStateMachine}
    (h : FailsWith P (answer (dispatchCommand command) s)) :
    FailsWith P (answer (executeAndRetain retain command) s) := by
  simp only [answer, EStateM.run, executeAndRetain] at h ⊢
  cases hrun : dispatchCommand command s with
  | ok => exact failsWith_ok
  | error e =>
    rw [hrun] at h
    have he : P e := h e rfl
    dsimp only
    cases cachedRejectionFromError e with
    | some | none => exact failsWith_error.mpr he

/-- The error is a deterministic rejection of a delivery that has reached its tablet. -/
def IsDeliveryRejection (e : TabletCommandApplyError) : Prop :=
  isDeterministicRejection e = true ∧ isRoutingRejection e = false

theorem rejects_replayOutcome {outcome : CachedTabletCommandOutcome} :
    FailsWith IsDeliveryRejection (answer (replayOutcome outcome) s) := by
  cases outcome with
  | applied => exact failsWith_ok
  | rejected rejection =>
    refine failsWith_error.mpr ?_
    unfold errorFromCachedRejection
    cases rejection.kind <;> exact ⟨rfl, rfl⟩

theorem rejects_checkSequence {clientId : ClientId} {sequence : Nat}
    {existing : Option ClientDeduplicationState} :
    FailsWith IsDeliveryRejection (checkSequence clientId sequence existing) := by
  cases existing with
  | none => exact failsWith_rejectIf.mpr fun _ => ⟨rfl, rfl⟩
  | some =>
    simp only [checkSequence, failsWith_iff]
    exact ⟨fun _ => ⟨rfl, rfl⟩, fun _ _ => ⟨fun _ => ⟨rfl, rfl⟩, fun _ _ _ => ⟨rfl, rfl⟩⟩⟩

/-- A validated envelope fails as its delivery is rejected or as its command fails. -/
theorem failsWith_apply
    (hvalid : s.validateProposal envelope = .ok ()) (hdelivery : ∀ e, IsDeliveryRejection e → P e)
    (hdispatch : ∀ s₁, SameData s s₁ → FailsWith P (answer (dispatchCommand envelope.command) s₁)) :
    FailsWith P (answer (apply envelope) s) := by
  simp only [apply, failsWith_iff]
  refine ⟨failsWith_of_ok hvalid, fun _ _ => ?_⟩
  cases envelope.logicalCommandId with
  | some id =>
    simp only [applyLogical]
    obtain ⟨ack, horizon, -, -, -, hrun⟩ | ⟨-, s₁, hrun, hs₁⟩ :=
      applyRetryHorizon_cases s id.sessionKey envelope.acknowledgedThrough
    · rw [answer_bind_of_error hrun]
      exact failsWith_error.mpr (hdelivery _ ⟨rfl, rfl⟩)
    · rw [answer_bind_of_ok hrun]
      simp only [failsWith_iff]
      refine ⟨?_, fun _ _ => ?_⟩
      · unfold checkExpired
        cases s₁.logicalClientRetryHorizons[id.sessionKey]? with
        | none => exact failsWith_ok
        | some => exact failsWith_rejectIf.mpr fun _ => hdelivery _ ⟨rfl, rfl⟩
      · cases s₁.logicalCommandDeduplication[id]? with
        | some => exact fun e he => hdelivery e (rejects_replayOutcome e he)
        | none => exact failsWith_executeAndRetain (hdispatch s₁ hs₁.sameData)
  | none =>
    simp only [applyLegacy, failsWith_iff]
    split
    · exact fun e he => hdelivery e (rejects_replayOutcome e he)
    · rw [failsWith_answer_lift_bind]
      exact ⟨fun e he => hdelivery e (rejects_checkSequence e he),
        fun _ _ => failsWith_executeAndRetain (hdispatch s (.refl s))⟩

theorem Agrees.apply (h : s.tablet.storage.Inv) (hvalid : s.validateProposal envelope = .ok ())
    (hagrees : s.Agrees envelope.command) : FailsWith IsRejection (answer (apply envelope) s) := by
  refine failsWith_apply hvalid (fun e he => he.1) fun s₁ hsame => ?_
  refine (hagrees.sameData hsame).rejects ?_
  rw [hsame.tablet]
  exact h

/-! ## The target of a tablet -/

theorem SameTarget.trans {s'' : TabletStateMachine} (h : SameTarget s s')
    (h' : SameTarget s' s'') : SameTarget s s'' where
  tabletId := h'.tabletId.trans h.tabletId
  tableId := h'.tableId.trans h.tableId
  epoch := h'.epoch.trans h.epoch
  raftGroupId := h'.raftGroupId.trans h.raftGroupId

theorem SameTarget.validateProposal (h : SameTarget s s') :
    s'.validateProposal envelope = s.validateProposal envelope := by
  have hkey : s'.validateOwnedKey = s.validateOwnedKey := by
    funext key
    simp only [validateOwnedKey, h.tabletId, h.tableId]
  have hstatus : s'.validateStatusAuthority = s.validateStatusAuthority := by
    funext status
    simp only [validateStatusAuthority, hkey, h.tabletId]
  have htarget : s'.validateTarget envelope.command = s.validateTarget envelope.command := by
    have hoptional : s'.validateOptionalAuthority = s.validateOptionalAuthority := by
      funext status
      cases status with
      | none => rfl
      | some status => exact congrFun hstatus status
    cases envelope.command <;>
      simp only [validateTarget, validateOwnedKeySlice, hkey, hstatus, hoptional]
  simp only [TabletStateMachine.validateProposal, h.tabletId, h.epoch, h.raftGroupId, htarget]

/-- No delivery changes the target. -/
theorem sameTarget_of_step (h : tabletLog.step s envelope s') : SameTarget s s' := by
  have hacknowledged : ∀ {session : SessionKey} {acknowledged : Option Nat}
      {s₁ : TabletStateMachine}, Acknowledged s session acknowledged s₁ → SameTarget s s₁ := by
    intro session acknowledged s₁ hack
    cases hack <;> exact ⟨rfl, rfl, rfl, rfl⟩
  obtain ⟨a, -, happlied⟩ := Applied.of_step h
  cases happlied with
  | refused | regressed => exact .refl s
  | expired _ _ _ hack | replayed _ _ _ hack => exact hacknowledged hack
  | executed _ _ _ hack _ _ hx =>
    refine (hacknowledged hack).trans ?_
    cases hx with
    | applied hd => exact hd.sameTables.toSameTarget.trans ⟨rfl, rfl, rfl, rfl⟩
    | rejected => exact ⟨rfl, rfl, rfl, rfl⟩
    | failed => exact .refl _
  | legacyReplayed | legacyRefused => exact .refl s
  | legacyExecuted _ _ _ hx =>
    cases hx with
    | applied hd => exact hd.sameTables.toSameTarget.trans ⟨rfl, rfl, rfl, rfl⟩
    | rejected => exact ⟨rfl, rfl, rfl, rfl⟩
    | failed => exact .refl _

theorem sameTarget_of_steps {log : List TabletCommandEnvelope} (h : tabletLog.Steps s log s')
    (hr : tabletLog.Reachable s) : SameTarget s s' :=
  h.relates SameTarget.refl (fun h h' => h.trans h') (fun _ h => sameTarget_of_step h) hr

end TabletStateMachine

/-! ## Committed entries -/

/-- The entry was proposed as these envelopes: one alone, or several as a batch. -/
inductive CommandBytes.Carries (command : CommandBytes) : List TabletCommandEnvelope → Prop
  | single {envelope : TabletCommandEnvelope} : command.single = .ok envelope →
      Carries command [envelope]
  | batch {error : TabletCommandEnvelopeError} {envelopes : List TabletCommandEnvelope} :
      command.single = .error error → command.batch = .ok envelopes → Carries command envelopes

/-- The dispositions of an entry, in the order of its commands. -/
def CommittedTabletCommandEntry.dispositions :
    CommittedTabletCommandEntry → List CommittedTabletCommandDisposition
  | .single disposition => [disposition]
  | .batch dispositions => dispositions

/-- The command was applied, or rejected deterministically, under its own identity. -/
def CommittedTabletCommandDisposition.Concludes (position : ProposalPosition)
    (envelope : TabletCommandEnvelope) : CommittedTabletCommandDisposition → Prop
  | .applied command => command.requestId = envelope.requestId ∧ command.position = position
  | .rejected command => command.requestId = envelope.requestId ∧
      command.position = position ∧ isDeterministicRejection command.rejection = true

namespace TabletCommandApplier

open TabletStateMachine

variable {s s' : TabletStateMachine}
variable {envelopes : List TabletCommandEnvelope}

theorem applyEnvelope_run (position : ProposalPosition) {envelope : TabletCommandEnvelope}
    (h : s.tablet.storage.Inv)
    (hvalid : s.validateProposal envelope = .ok ()) (hagrees : s.Agrees envelope.command) :
    ∃ disposition, disposition.Concludes position envelope ∧
      (applyEnvelope position envelope).run s =
        .ok disposition (after (apply envelope) s) := by
  have hrejects := hagrees.apply h hvalid
  simp only [answer] at hrejects
  simp only [EStateM.run, applyEnvelope, after] at hrejects ⊢
  cases hrun : apply envelope s with
  | ok outcome =>
    exact ⟨.applied ⟨envelope.requestId, position, outcome⟩, ⟨rfl, rfl⟩, rfl⟩
  | error rejection =>
    rw [hrun] at hrejects
    have hdeterministic : isDeterministicRejection rejection = true := hrejects rejection rfl
    refine ⟨.rejected ⟨envelope.requestId, position, rejection⟩,
      ⟨rfl, rfl, hdeterministic⟩, ?_⟩
    simp only [hdeterministic, if_true]

theorem applyEnvelopes_run (position : ProposalPosition) (hr : tabletLog.Reachable s)
    (hvalid : ∀ envelope ∈ envelopes, s.validateProposal envelope = .ok ())
    (hagrees : s.AgreesInTurn envelopes) :
    ∃ dispositions s', List.Forall₂ (fun envelope disposition =>
        CommittedTabletCommandDisposition.Concludes position envelope disposition)
        envelopes dispositions ∧
      (envelopes.mapM (applyEnvelope position)).run s = .ok dispositions s' := by
  induction envelopes generalizing s with
  | nil => exact ⟨[], s, .nil, rfl⟩
  | cons envelope rest ih =>
    obtain ⟨hhead, hrest⟩ := hagrees
    have hstep : tabletLog.step s envelope (after (apply envelope) s) := rfl
    obtain ⟨disposition, hconcludes, hrun⟩ := applyEnvelope_run position
      (inv_of_reachable hr).storage (hvalid envelope (by simp)) hhead
    -- The target does not change, so the rest is still valid.
    have hvalid' : ∀ e ∈ rest, (after (apply envelope) s).validateProposal e =
        .ok () := by
      intro e he
      rw [(sameTarget_of_step hstep).validateProposal]
      exact hvalid e (List.mem_cons_of_mem _ he)
    obtain ⟨dispositions, s', hall, hruns⟩ := ih (hr.step hstep) hvalid' hrest
    refine ⟨disposition :: dispositions, s', .cons hconcludes hall, ?_⟩
    rw [List.mapM_cons, bind_run_of_ok hrun, bind_run_of_ok hruns]
    rfl

theorem validateSubcommands_of_valid
    (hvalid : ∀ envelope ∈ envelopes, s.validateProposal envelope = .ok ()) :
    validateSubcommands s envelopes = .ok () := by
  refine forM_eq_ok.mpr fun e he => ?_
  have hmem : e.1 ∈ envelopes := List.fst_mem_of_mem_zipIdx he
  rw [hvalid e.1 hmem]

/-- An entry of validated envelopes never poisons its group, as long as each of its commands
agrees with the state of the tablet: whatever was applied in between, every envelope is
applied or rejected deterministically. -/
theorem committed_entry_concludes {log : List TabletCommandEnvelope}
    {envelopes : List TabletCommandEnvelope} {position : ProposalPosition}
    {command : CommandBytes} (hr : tabletLog.Reachable s) (hlog : tabletLog.Steps s log s')
    (hproposed : ∀ envelope ∈ envelopes, s.validateProposal envelope = .ok ())
    (hcarries : command.Carries envelopes) (hterm : position.term ≠ 0)
    (hindex : position.index ≠ 0) (hagrees : s'.AgreesInTurn envelopes) :
    ∃ entry s'', (applyCommittedEntry position command).run s' = .ok entry s'' ∧
      List.Forall₂ (fun envelope disposition =>
        CommittedTabletCommandDisposition.Concludes position envelope disposition)
        envelopes entry.dispositions := by
  have hr' := hr.steps hlog
  have hvalid : ∀ envelope ∈ envelopes, s'.validateProposal envelope = .ok () := by
    intro envelope hmem
    rw [(sameTarget_of_steps hlog hr).validateProposal]
    exact hproposed envelope hmem
  have hposition : rejectIf (position.term = 0 ∨ position.index = 0)
      (TabletApplyError.invalidRaftPosition position.term position.index) = .ok () :=
    rejectIf_eq_ok.mpr (not_or.mpr ⟨hterm, hindex⟩)
  unfold applyCommittedEntry
  rw [lift_bind_run_of_ok hposition]
  cases hcarries with
  | @single envelope hsingle =>
    obtain ⟨disposition, hconcludes, hrun⟩ := applyEnvelope_run position
      (inv_of_reachable hr').storage (hvalid envelope (by simp)) hagrees.1
    refine ⟨.single disposition, after (apply envelope) s', ?_,
      .cons hconcludes .nil⟩
    rw [hsingle]
    rw [bind_run_of_ok hrun, EStateM.run_pure]
  | batch hsingle hbatch =>
    obtain ⟨dispositions, s'', hall, hruns⟩ := applyEnvelopes_run position hr' hvalid hagrees
    refine ⟨.batch dispositions, s'', ?_, hall⟩
    rw [hsingle, hbatch]
    rw [get_bind_run, lift_bind_run_of_ok (validateSubcommands_of_valid hvalid),
      bind_run_of_ok hruns, EStateM.run_pure]

/-- The commit of another transaction of the same row. -/
def laterCommand (txnId : TxnId) (startTimestamp commitTimestamp : Timestamp) : TabletCommand :=
  .singleShardCommit ⟨txnId, startTimestamp, commitTimestamp,
    [⟨InMemoryMvcc.sampleKey, none, .delete⟩]⟩

/-- The bytes of a single envelope. -/
def singleBytes (envelope : TabletCommandEnvelope) : CommandBytes :=
  ⟨.ok envelope, .error (.decode "")⟩

theorem committed_entry_concludes_sample :
    let first := sampleEnvelope 1 0 sampleCommand
    let later := sampleEnvelope 2 0 (laterCommand 4 4 8)
    let s' := after (apply first) sampleMachine
    s'.AgreesInTurn [later] ∧
      ∃ entry s'', (applyCommittedEntry ⟨1, 2⟩ (singleBytes later)).run s' = .ok entry s'' := by
  intro first later s'
  have hagrees : s'.AgreesInTurn [later] := by
    refine ⟨⟨by decide +kernel, ?_, by decide⟩, trivial⟩
    intro c hc
    cases hc
    decide +kernel
  have hproposed : ∀ envelope ∈ [later], sampleMachine.validateProposal envelope = .ok () := by
    decide +kernel
  have hlog : tabletLog.Steps sampleMachine [first] s' := .single rfl
  have hcarries : (singleBytes later).Carries [later] := .single rfl
  have hterm : (⟨1, 2⟩ : ProposalPosition).term ≠ 0 := by decide
  have hindex : (⟨1, 2⟩ : ProposalPosition).index ≠ 0 := by decide
  obtain ⟨entry, s'', hrun, -⟩ := committed_entry_concludes (.of_init sampleMachine_init) hlog
    hproposed hcarries hterm hindex hagrees
  exact ⟨hagrees, entry, s'', hrun⟩

/-- A validated commit whose timestamp another transaction has used on the row is fatal,
although the store is intact. -/
theorem committed_entry_fatal_sample :
    let first := sampleEnvelope 1 0 sampleCommand
    let later := sampleEnvelope 2 0 (laterCommand 4 4 6)
    let s' := after (apply first) sampleMachine
    tabletLog.Reachable sampleMachine ∧ tabletLog.Steps sampleMachine [first] s' ∧
      sampleMachine.validateProposal later = .ok () ∧
      answer (applyCommittedEntry ⟨1, 2⟩ (singleBytes later)) s' = .error (.fatalApply
        (.corruptState "write timestamp 6 is already occupied by a different write")) :=
  ⟨.of_init sampleMachine_init, .single rfl, by decide +kernel, by decide +kernel⟩

end TabletCommandApplier

end RagnorDb
