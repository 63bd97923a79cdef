import RagnorDb.Storage.MvccSnapshot
import RagnorDb.Tablet.Apply

/-!
# The invariant of the tablet state machine

In every state that a log reaches the store keeps its own invariant and holds only rows of
the tablet's table, every retained outcome and horizon belongs to a valid identity, and
every status record is one that this tablet is the authority for.
-/

namespace RagnorDb

open Std Checked OrderedMap

theorem HeartbeatTransactionStatus.validate_identity {command : HeartbeatTransactionStatus}
    {u : Unit} (h : command.validate = .ok u) :
    command.expectedStatus.status = .pending ∧ command.nextStatus.status = .pending ∧
      sameTransactionStatusIdentity command.expectedStatus command.nextStatus = true := by
  simp only [validate, eq_ok'] at h
  obtain ⟨-, -, -, -, -, ⟨hexpected, hnext, -⟩, hsame, -⟩ := h
  exact ⟨hexpected, hnext, hsame⟩

theorem Tablet.Governs.expired {tablet : Tablet} {record : TxnStatusRecord}
    (h : tablet.Governs record) : tablet.Governs (TabletStateMachine.expiredStatus record) where
  identity :=
    { txnId := h.identity.txnId, start := h.identity.start, primaryKey := h.identity.primaryKey
      participants := h.identity.participants, primary := h.identity.primary
      sorted := h.identity.sorted, distinct := h.identity.distinct
      heartbeat := h.identity.heartbeat, lease := h.identity.lease }
  decision := trivial
  primary := h.primary
  owns := h.owns

namespace TabletStateMachine

variable {s s₁ s' : TabletStateMachine} {envelope : TabletCommandEnvelope} {u : Unit}

theorem validateProposal_eq_ok :
    s.validateProposal envelope = .ok u ↔
      envelope.validate = .ok () ∧ envelope.tabletId = s.tablet.id ∧
        envelope.expectedEpoch = s.epoch ∧ envelope.requestId.raftGroupId = s.raftGroupId ∧
        s.validateTarget envelope.command = .ok () := by
  simp only [validateProposal, eq_ok', exists_unit]

theorem envelope_validate (h : envelope.validate = .ok u) :
    envelope.requestId.sequence ≠ 0 ∧
      (∀ id, envelope.logicalCommandId = some id → id.validate = .ok ()) ∧
      envelope.command.validate = .ok () := by
  simp only [TabletCommandEnvelope.validate, TabletCommandEnvelope.validateMetadata, eq_ok'] at h
  obtain ⟨⟨⟩, ⟨-, -, -, -, hseq, -, hlogical⟩, hcommand⟩ := h
  refine ⟨hseq, fun id hid => ?_, hcommand⟩
  rw [hid] at hlogical
  exact mapError_eq_ok.mp hlogical

/-! ## Effects of a command -/

variable {command : TabletCommand}

/-- A command runs at most one operation of the store, on rows that the tablet owns. -/
theorem Dispatched.storage_cases (h : Dispatched s command s') :
    s'.tablet.storage = s.tablet.storage ∨
      ∃ op : MvccOp, op.exec.run s.tablet.storage = .ok () s'.tablet.storage ∧
        ∀ k call, op.call k = some call → s.tablet.Owns k := by
  have hmutations : ∀ {duplicate : String} {writes : List WriteEntry} {ms : Mutations}
      {f : Mutation → Cell.Call} {k : Bytes} {call : Cell.Call},
      s.collectMutations duplicate writes = .ok ms → ms[k]?.map f = some call →
      s.tablet.Owns k := by
    intro duplicate writes ms f k call hms hcall
    obtain ⟨m, hm, -⟩ := Option.map_eq_some_iff.mp hcall
    obtain ⟨hmem, howns⟩ := mem_of_collectMutations hms
    have hk : k ∈ ms := mem_of_getElem? hm
    obtain ⟨write, hwrite, rfl⟩ := (hmem k).mp hk
    exact howns write hwrite
  have hkeys : ∀ {keys : List Bytes} {set : KeySet} {c call : Cell.Call} {k : Bytes},
      s.validateOwnedKeys keys = .ok set → (if k ∈ set then some c else none) = some call →
      s.tablet.Owns k := by
    intro keys set c call k hset hcall
    obtain ⟨hk, -⟩ := Option.ite_none_right_eq_some.mp hcall
    obtain ⟨-, howns, -⟩ := validateOwnedKeys_eq_ok.mp hset
    exact howns k ((mem_of_validateOwnedKeys hset).mp hk)
  cases h with
  | noop | catalog => exact .inl rfl
  | singleShardCommit hms hrun => exact .inr ⟨_, hrun, fun k call => hmutations hms⟩
  | prewrite hms _ hrun =>
    rw [published_tablet, setStorage_storage]
    exact .inr ⟨_, hrun, fun k call => hmutations hms⟩
  | commit hset _ hrun =>
    rw [published_tablet, setStorage_storage]
    exact .inr ⟨_, hrun, fun k call => hkeys hset⟩
  | rollback hset hrun | resolveCommitted hset _ _ hrun | resolveAborted hset _ hrun =>
    exact .inr ⟨_, hrun, fun k call => hkeys hset⟩
  | publishAborted | heartbeat | expire => exact .inl (by rw [published_tablet])
  | expireAgain => exact .inl rfl

variable {record : TxnStatusRecord}

/-! ## Published records -/

/-- The record that a command publishes in the place of an absent or a pending one. -/
inductive Publishes (statuses : ExtTreeMap TxnId TxnStatusRecord compare) :
    TabletCommand → TxnStatusRecord → Prop
  | pending {command : PrewriteCommand} {next : TxnStatusRecord} :
      command.pendingStatus = some next → next.txnId = command.txnId →
      next.status = .pending → statuses[next.txnId]? = none →
      Publishes statuses (.prewrite command) next
  | committed {command : CommitCommand} {next existing : TxnStatusRecord} :
      command.committedStatus = some next → next.txnId = command.txnId →
      next.startTimestamp = command.startTimestamp →
      next.commitTimestamp = some command.commitTimestamp → next.primaryKey ∈ command.keys →
      statuses[next.txnId]? = some existing → existing.status = .pending →
      Publishes statuses (.commit command) next
  | aborted {command : PublishAbortedTransactionStatus} {existing : TxnStatusRecord} :
      command.statusRecord.status = .aborted →
      statuses[command.statusRecord.txnId]? = some existing → existing.status = .pending →
      Publishes statuses (.publishAbortedTransactionStatus command) command.statusRecord
  | renewed {command : HeartbeatTransactionStatus} :
      command.expectedStatus.status = .pending → command.nextStatus.status = .pending →
      statuses[command.nextStatus.txnId]? = some command.expectedStatus →
      Publishes statuses (.heartbeatTransactionStatus command) command.nextStatus
  | expired {command : ExpirePendingTransactionStatus} :
      command.expectedStatus.status = .pending →
      statuses[command.expectedStatus.txnId]? = some command.expectedStatus →
      Publishes statuses (.expirePendingTransactionStatus command)
        (expiredStatus command.expectedStatus)

theorem pendingStatus_of_validate {command : PrewriteCommand} (h : command.validate = .ok u)
    (hnext : command.pendingStatus = some record) : record.status = .pending := by
  simp only [PrewriteCommand.validate, validateOptional, hnext, eq_ok'] at h
  tauto

theorem abortedStatus_of_validate {command : PublishAbortedTransactionStatus}
    (h : command.validate = .ok u) : command.statusRecord.status = .aborted := by
  simp only [PublishAbortedTransactionStatus.validate, eq_ok] at h
  tauto

theorem expectedStatus_of_validate {command : ExpirePendingTransactionStatus}
    (h : command.validate = .ok u) : command.expectedStatus.status = .pending := by
  simp only [ExpirePendingTransactionStatus.validate, eq_ok'] at h
  tauto

/-- A command publishes at most one record, one that the tablet is the authority for. -/
theorem Dispatched.statuses (hd : Dispatched s command s') (hvalid : command.validate = .ok ()) :
    s'.transactionStatuses = s.transactionStatuses ∨
      ∃ next, Publishes s.transactionStatuses command next ∧
        s'.transactionStatuses = s.transactionStatuses.insert next.txnId next ∧
        (∀ r ∈ s.transactionStatuses[next.txnId]?, sameStatusIdentity r next = true) ∧
        (s.validateTarget command = .ok () → s.tablet.Governs next) := by
  cases hd with
  | noop | catalog | singleShardCommit | rollback | resolveCommitted | resolveAborted
  | expireAgain => exact .inl rfl
  | prewrite _ htransition =>
    rcases validatePrewriteStatusTransition_eq_ok.mp htransition with ⟨-, rfl, -⟩ |
      ⟨next, hnext, hgov, htxn, -, -, -, ⟨hnone, rfl⟩ | ⟨-, rfl⟩⟩
    · exact .inl rfl
    · rw [← htxn] at hnone ⊢
      exact .inr ⟨next, .pending hnext htxn (pendingStatus_of_validate hvalid hnext) hnone, rfl,
        by simp [hnone], fun _ => hgov⟩
    · exact .inl rfl
  | commit hkeys htransition =>
    rcases validateCommitStatusTransition_eq_ok.mp htransition with ⟨-, rfl, -⟩ |
      ⟨next, existing, hnext, hgov, htxn, hstart, hcommit, hpk, hexisting, hsame,
        ⟨hpending, rfl⟩ | ⟨-, -, rfl⟩⟩
    · exact .inl rfl
    · rw [← htxn] at hexisting ⊢
      rw [mem_of_validateOwnedKeys hkeys] at hpk
      exact .inr ⟨next, .committed hnext htxn hstart hcommit hpk hexisting hpending, rfl,
        by simp [hexisting, hsame], fun _ => hgov⟩
    · exact .inl rfl
  | publishAborted hgov htransition =>
    obtain ⟨existing, hexisting, hsame, ⟨hpending, rfl⟩ | ⟨-, -, rfl⟩⟩ :=
      validateAbortStatusTransition_eq_ok.mp htransition
    · exact .inr ⟨_, .aborted (abortedStatus_of_validate hvalid) hexisting hpending, rfl,
        by simp [hexisting, hsame], fun _ => hgov⟩
    · exact .inl rfl
  | heartbeat hval hexpected =>
    obtain ⟨hpending, hnext, hsame⟩ := HeartbeatTransactionStatus.validate_identity hval
    simp only [sameTransactionStatusIdentity, decide_eq_true_eq] at hsame
    rw [hsame.1] at hexpected ⊢
    refine .inr ⟨_, .renewed hpending hnext hexpected, rfl,
      by simp [hexpected, sameStatusIdentity, hsame], fun htarget => ?_⟩
    simp only [validateTarget, eq_ok, validateStatusAuthority_eq_ok, exists_const] at htarget
    exact htarget.2
  | expire hval hexpected =>
    refine .inr ⟨_, .expired (expectedStatus_of_validate hval) hexpected, rfl,
      by simp [expiredStatus, hexpected, sameStatusIdentity], fun htarget => ?_⟩
    rw [validateTarget, validateStatusAuthority_eq_ok] at htarget
    exact htarget.expired

/-! ## The invariant -/

/-- The invariant of the state machine. -/
structure Inv (s : TabletStateMachine) : Prop where
  tabletId : s.tablet.id ≠ 0
  tableId : s.tablet.tableId ≠ 0
  epoch : s.epoch ≠ 0
  group : s.raftGroupId ≠ 0
  storage : s.tablet.storage.Inv
  inTable : s.tablet.storage.InTable s.tablet.tableId
  clients : ∀ {key : ClientDeduplicationKey} {d : ClientDeduplicationState},
    s.clientDeduplication[key]? = some d →
    key.raftGroupId = s.raftGroupId ∧ d.lastSequenceApplied ≠ 0
  logical : ∀ {id : LogicalCommandId} {d : ClientDeduplicationState},
    s.logicalCommandDeduplication[id]? = some d →
    id.validate = .ok () ∧ d.lastSequenceApplied = 1
  horizons : ∀ {session : SessionKey} {horizon : Nat},
    s.logicalClientRetryHorizons[session]? = some horizon →
    session.clientId ≠ 0 ∧ session.sessionEpoch ≠ 0
  statuses : ∀ {txnId : TxnId} {record : TxnStatusRecord},
    s.transactionStatuses[txnId]? = some record →
    record.txnId = txnId ∧ s.tablet.Governs record

theorem inv_of_init (h : tabletLog.init s) : s.Inv := by
  obtain ⟨id, tableId, epoch, group, tablet, htablet, hs⟩ := h
  simp only [Tablet.new, Tablet.withStorage, eq_ok'] at htablet
  simp only [new, eq_ok'] at hs
  obtain ⟨hid, htable, rfl⟩ := htablet
  obtain ⟨hepoch, hgroup, rfl⟩ := hs
  exact
    { tabletId := hid, tableId := htable, epoch := hepoch, group := hgroup
      storage := InMemoryMvcc.inv_new
      inTable := fun k hk => absurd (InMemoryMvcc.cell_new k) hk
      clients := fun h => by simp at h
      logical := fun h => by simp at h
      horizons := fun h => by simp at h
      statuses := fun h => by simp at h }

theorem inTable_of_exec {st st' : InMemoryMvcc} {tableId : TableId} {op : MvccOp}
    (hinv : st.Inv) (h : st.InTable tableId) (hx : op.exec.run st = .ok () st')
    (howns : ∀ k call, op.call k = some call → InTable tableId k) : st'.InTable tableId := by
  intro k hk
  cases hcall : op.call k with
  | some call => exact howns k call hcall
  | none =>
    rw [(MvccOp.answered_of_exec hinv.cell hinv.noEmpty hx).frame hcall] at hk
    exact h k hk

theorem Governs_congr {tablet tablet' : Tablet}
    (hid : tablet'.id = tablet.id) (htable : tablet'.tableId = tablet.tableId)
    (h : tablet.Governs record) : tablet'.Governs record where
  identity := h.identity
  decision := h.decision
  primary := hid ▸ h.primary
  owns := by
    unfold Tablet.Owns
    rw [htable]
    exact h.owns

/-- A valid command that succeeds keeps the invariant. -/
theorem Inv.dispatched (h : s.Inv) (hvalid : command.validate = .ok ())
    (htarget : s.validateTarget command = .ok ()) (hd : Dispatched s command s') : s'.Inv := by
  have hsame := hd.sameTables
  have hstorage : s'.tablet.storage.Inv ∧ s'.tablet.storage.InTable s.tablet.tableId := by
    rcases hd.storage_cases with heq | ⟨op, hx, howns⟩
    · rw [heq]
      exact ⟨h.storage, h.inTable⟩
    · exact ⟨h.storage.answered (MvccOp.answered_of_exec h.storage.cell h.storage.noEmpty hx),
        inTable_of_exec h.storage h.inTable hx howns⟩
  exact
    { tabletId := hsame.tabletId ▸ h.tabletId
      tableId := hsame.tableId ▸ h.tableId
      epoch := hsame.epoch ▸ h.epoch
      group := hsame.raftGroupId ▸ h.group
      storage := hstorage.1
      inTable := hsame.tableId ▸ hstorage.2
      clients := by
        rw [hsame.clients, hsame.raftGroupId]
        exact h.clients
      logical := by
        rw [hsame.logical]
        exact h.logical
      horizons := by
        rw [hsame.horizons]
        exact h.horizons
      statuses := by
        intro txnId record hrecord
        have hgov : record.txnId = txnId ∧ s.tablet.Governs record := by
          rcases hd.statuses hvalid with hsame | ⟨next, -, hinsert, -, hgov⟩
          · exact h.statuses (hsame ▸ hrecord)
          · rw [hinsert] at hrecord
            rcases getElem?_insert_eq_some.mp hrecord with ⟨rfl, rfl⟩ | ⟨-, hold⟩
            · exact ⟨rfl, hgov htarget⟩
            · exact h.statuses hold
        exact ⟨hgov.1, Governs_congr hsame.tabletId hsame.tableId hgov.2⟩ }

theorem Acknowledged.validateTarget {session : SessionKey} {acknowledged : Option Nat}
    (h : Acknowledged s session acknowledged s₁) :
    s₁.validateTarget command = s.validateTarget command := by
  cases h with
  | absent | known => rfl
  | raised => cases command <;> rfl

variable {id : LogicalCommandId}

theorem Inv.acknowledged {acknowledged : Option Nat} (h : s.Inv) (hid : id.validate = .ok ())
    (hack : Acknowledged s id.sessionKey acknowledged s₁) : s₁.Inv := by
  cases hack with
  | absent | known => exact h
  | @raised ack _ =>
    simp only [LogicalCommandId.validate, ClientRequestId.validate, eq_ok'] at hid
    refine { h with logical := ?_, horizons := ?_ }
    · intro id' d hd
      rw [advanceHorizon, ExtTreeMap.getElem?_filter'] at hd
      exact h.logical (Option.filter_eq_some_iff.mp hd).1
    · intro session horizon hh
      rcases getElem?_insert_eq_some.mp hh with ⟨rfl, -⟩ | ⟨-, hh⟩
      · exact ⟨hid.1.1, hid.1.2.1⟩
      · exact h.horizons hh

theorem Inv.retainLogical (h : s.Inv) (hid : id.validate = .ok ())
    (outcome : CachedTabletCommandOutcome) : (s.retainLogical id outcome).Inv := by
  refine { h with logical := ?_ }
  intro id' d hd
  rcases getElem?_insert_eq_some.mp hd with ⟨rfl, rfl⟩ | ⟨-, hd⟩
  · exact ⟨hid, rfl⟩
  · exact h.logical hd

theorem Inv.retainClient {key : ClientDeduplicationKey} {sequence : Nat} (h : s.Inv)
    (hgroup : key.raftGroupId = s.raftGroupId) (hseq : sequence ≠ 0)
    (outcome : CachedTabletCommandOutcome) : (s.retainClient key sequence outcome).Inv := by
  refine { h with clients := ?_ }
  intro key' d hd
  rcases getElem?_insert_eq_some.mp hd with ⟨rfl, rfl⟩ | ⟨-, hd⟩
  · exact ⟨hgroup, hseq⟩
  · exact h.clients hd

/-- Every delivery keeps the invariant. -/
theorem Inv.step (h : s.Inv) (hstep : tabletLog.step s envelope s') : s'.Inv := by
  obtain ⟨a, -, happlied⟩ := Applied.of_step hstep
  cases happlied with
  | refused | regressed => exact h
  | expired hval hid _ hack | replayed hval hid _ hack =>
    obtain ⟨hvalid, -⟩ := validateProposal_eq_ok.mp hval
    exact h.acknowledged ((envelope_validate hvalid).2.1 _ hid) hack
  | executed hval hid _ hack _ _ hx =>
    obtain ⟨hvalid, -, -, -, htarget⟩ := validateProposal_eq_ok.mp hval
    have hvalidId := (envelope_validate hvalid).2.1 _ hid
    have hs₁ := h.acknowledged hvalidId hack
    cases hx with
    | applied hd =>
      rw [← hack.validateTarget] at htarget
      exact (hs₁.dispatched (envelope_validate hvalid).2.2 htarget hd).retainLogical hvalidId _
    | rejected => exact hs₁.retainLogical hvalidId _
    | failed => exact hs₁
  | legacyReplayed | legacyRefused => exact h
  | legacyExecuted hval _ _ hx =>
    obtain ⟨hvalid, -, -, hgroup, htarget⟩ := validateProposal_eq_ok.mp hval
    have hseq := (envelope_validate hvalid).1
    cases hx with
    | applied hd =>
      refine (h.dispatched (envelope_validate hvalid).2.2 htarget hd).retainClient ?_ hseq _
      rw [hd.sameTables.raftGroupId]
      exact hgroup
    | rejected => exact h.retainClient hgroup hseq _
    | failed => exact h

theorem inv_of_reachable (h : tabletLog.Reachable s) : s.Inv :=
  h.invariant inv_of_init fun _ hinv hstep => hinv.step hstep

end TabletStateMachine

end RagnorDb
