import RagnorDb.Storage.MvccFinality
import RagnorDb.Tablet.Invariant

/-!
# What a tablet decides about one transaction

The outcome of a transaction on a key is a committed record or a rollback marker with its
start timestamp; its decision is the status record.  A command adds exactly the outcomes it
asks for, and a status that is no longer pending never changes.
-/

namespace RagnorDb

open Std Checked OrderedMap

/-! ## What an operation asks for -/

namespace MvccOp

variable {k : Bytes} {txn : TxnId} {s t start commit : Timestamp} {keys : KeySet}
  {ms : Mutations} {pk : Bytes} {ttl : Nat}

@[simp] theorem commits_commitIntentsBatch :
    (commitIntentsBatch txn start commit keys).Commits k s t ↔ k ∈ keys ∧ start = s ∧
      commit = t := by
  simp [Commits, call, Cell.Call.startTs, Cell.Call.commitTs?]

@[simp] theorem commits_commitBatch :
    (commitBatch txn start commit ms).Commits k s t ↔ k ∈ ms ∧ start = s ∧ commit = t := by
  simp only [Commits, call, ExtTreeMap.mem_iff_isSome_getElem?]
  cases ms[k]? with
  | none => simp
  | some => simp [Cell.Call.startTs, Cell.Call.commitTs?]

@[simp] theorem not_commits_prewriteBatch :
    ¬ (prewriteBatch txn start ms pk ttl).Commits k s t := by
  simp [Commits, call, Cell.Call.commitTs?]

@[simp] theorem not_commits_rollbackIntentsBatch :
    ¬ (rollbackIntentsBatch txn start keys).Commits k s t := by
  simp [Commits, call, Cell.Call.commitTs?]

@[simp] theorem rollsBack_rollbackIntentsBatch :
    (rollbackIntentsBatch txn start keys).RollsBack k s ↔ k ∈ keys ∧ start = s := by
  simp [RollsBack, call, Cell.Call.startTs, Cell.Call.isRollback]

@[simp] theorem not_rollsBack_commitIntentsBatch :
    ¬ (commitIntentsBatch txn start commit keys).RollsBack k s := by
  simp [RollsBack, call, Cell.Call.isRollback]

@[simp] theorem not_rollsBack_commitBatch : ¬ (commitBatch txn start commit ms).RollsBack k s := by
  simp [RollsBack, call, Cell.Call.isRollback]

@[simp] theorem not_rollsBack_prewriteBatch :
    ¬ (prewriteBatch txn start ms pk ttl).RollsBack k s := by
  simp [RollsBack, call, Cell.Call.isRollback]

end MvccOp

namespace TabletCommand

/-- The command asks to commit the key for the transaction starting at `s`, at `t`. -/
def Commits (k : Bytes) (s t : Timestamp) : TabletCommand → Prop
  | .commit command =>
    k ∈ command.keys ∧ command.startTimestamp = s ∧ command.commitTimestamp = t
  | .singleShardCommit command =>
    (∃ write ∈ command.writes, write.key = k) ∧ command.startTimestamp = s ∧
      command.commitTimestamp = t
  | .resolveIntent command =>
    k ∈ command.keys ∧ command.startTimestamp = s ∧ command.resolvedStatus = .committed ∧
      command.commitTimestamp = some t
  | _ => False

/-- The command asks to roll the key back for the transaction starting at `s`. -/
def RollsBack (k : Bytes) (s : Timestamp) : TabletCommand → Prop
  | .rollback command => k ∈ command.keys ∧ command.startTimestamp = s
  | .resolveIntent command =>
    k ∈ command.keys ∧ command.startTimestamp = s ∧ command.resolvedStatus = .aborted
  | _ => False

end TabletCommand

namespace TabletStateMachine

variable {m m' : TabletStateMachine} {command : TabletCommand} {k : Bytes} {s t : Timestamp}
variable {next : TxnStatusRecord} {u : Unit}

/-- The transaction starting at `s` has committed the key at `t`. -/
def Committed (m : TabletStateMachine) (k : Bytes) (s t : Timestamp) : Prop :=
  (m.tablet.storage.cell k).Committed s t

/-- The transaction starting at `s` has been rolled back on the key. -/
def RolledBack (m : TabletStateMachine) (k : Bytes) (s : Timestamp) : Prop :=
  (m.tablet.storage.cell k).RolledBack s

theorem SameData.committed (h : SameData m m') : m'.Committed k s t ↔ m.Committed k s t := by
  unfold Committed
  rw [h.tablet]

theorem SameData.rolledBack (h : SameData m m') : m'.RolledBack k s ↔ m.RolledBack k s := by
  unfold RolledBack
  rw [h.tablet]

/-! ## Outcomes -/

/-- The outcomes after a command are those before it and those it asks for. -/
theorem Dispatched.outcomes (hd : Dispatched m command m') (h : m.tablet.storage.Inv) :
    (m'.Committed k s t ↔ m.Committed k s t ∨ command.Commits k s t) ∧
      (m'.RolledBack k s ↔ m.RolledBack k s ∨ command.RollsBack k s) := by
  -- An operation of the store has run, and asks for what the command asks for.
  have hop : ∀ {op : MvccOp}, op.exec.run m.tablet.storage = .ok () m'.tablet.storage →
      (op.Commits k s t ↔ command.Commits k s t) → (op.RollsBack k s ↔ command.RollsBack k s) →
      (m'.Committed k s t ↔ m.Committed k s t ∨ command.Commits k s t) ∧
        (m'.RolledBack k s ↔ m.RolledBack k s ∨ command.RollsBack k s) := by
    intro op hx hcommits hrolls
    rw [← hcommits, ← hrolls]
    exact ⟨MvccOp.committed_exec h hx, MvccOp.rolledBack_exec h hx⟩
  cases hd with
  | noop | catalog | expireAgain => simp [TabletCommand.Commits, TabletCommand.RollsBack]
  | singleShardCommit hms hrun =>
    refine hop hrun ?_ (by simp [TabletCommand.RollsBack])
    rw [MvccOp.commits_commitBatch, (mem_of_collectMutations hms).1]
    rfl
  | prewrite hms htransition hrun =>
    refine hop (by simpa using hrun) ?_ ?_
    · simp [TabletCommand.Commits]
    · simp [TabletCommand.RollsBack]
  | commit hkeys htransition hrun =>
    refine hop (by simpa using hrun) ?_ (by simp [TabletCommand.RollsBack])
    rw [MvccOp.commits_commitIntentsBatch, mem_of_validateOwnedKeys hkeys]
    rfl
  | rollback hkeys hrun =>
    refine hop hrun (by simp [TabletCommand.Commits]) ?_
    rw [MvccOp.rollsBack_rollbackIntentsBatch, mem_of_validateOwnedKeys hkeys]
    rfl
  | resolveCommitted hkeys hstatus hcommit hrun =>
    refine hop hrun ?_ (by simp [TabletCommand.RollsBack, hstatus])
    rw [MvccOp.commits_commitIntentsBatch, mem_of_validateOwnedKeys hkeys]
    simp [TabletCommand.Commits, hstatus, hcommit]
  | resolveAborted hkeys hstatus hrun =>
    refine hop hrun (by simp [TabletCommand.Commits, hstatus]) ?_
    rw [MvccOp.rollsBack_rollbackIntentsBatch, mem_of_validateOwnedKeys hkeys]
    simp [TabletCommand.RollsBack, hstatus]
  | publishAborted | heartbeat | expire =>
    simp [TabletCommand.Commits, TabletCommand.RollsBack, Committed, RolledBack]

/-! ## Decisions -/

variable {r : TxnStatusRecord}

theorem Publishes.over {statuses : ExtTreeMap TxnId TxnStatusRecord compare}
    (h : Publishes statuses command next)
    (hr : statuses[next.txnId]? = some r) : r.status = .pending := by
  cases h with
  | pending _ _ _ hnone =>
    rw [hnone] at hr
    cases hr
  | committed _ _ _ _ _ hexisting hpending | aborted _ hexisting hpending
  | renewed hpending _ hexisting | expired hpending hexisting =>
    cases hexisting.symm.trans hr
    exact hpending

theorem Publishes.commit {statuses : ExtTreeMap TxnId TxnStatusRecord compare}
    (h : Publishes statuses command next) (hnext : next.status = .committed) :
    ∃ commit : CommitCommand, command = .commit commit ∧ commit.committedStatus = some next ∧
      next.txnId = commit.txnId ∧ next.commitTimestamp = some commit.commitTimestamp := by
  cases h with
  | committed hstatus htxn _ hcommit => exact ⟨_, rfl, hstatus, htxn, hcommit⟩
  | pending _ _ hpending => simp [hpending] at hnext
  | aborted haborted => simp [haborted] at hnext
  | renewed _ hpending => simp [hpending] at hnext
  | expired => cases hnext

theorem Dispatched.status_of_commit {command : CommitCommand}
    (hd : Dispatched m (.commit command) m') (hr : command.committedStatus = some r) :
    m'.transactionStatuses[command.txnId]? = some r := by
  cases hd with
  | commit _ htransition =>
    rw [hr] at htransition
    rcases validateCommitStatusTransition_eq_ok.mp htransition with ⟨hnone, -⟩ |
      ⟨next, existing, hnext, -, -, -, -, -, hexisting, -, ⟨-, rfl⟩ | ⟨-, rfl, rfl⟩⟩
    · cases hnone
    · cases hnext
      simp [published]
    · cases hnext
      exact hexisting

/-! ## Deliveries -/

/-- What the execution of a command decides. -/
structure Executes (m : TabletStateMachine) (command : TabletCommand) (m' : TabletStateMachine) :
    Prop where
  committed : ∀ {k : Bytes} {s t : Timestamp},
    m'.Committed k s t ↔ m.Committed k s t ∨ command.Commits k s t
  rolledBack : ∀ {k : Bytes} {s : Timestamp},
    m'.RolledBack k s ↔ m.RolledBack k s ∨ command.RollsBack k s
  statuses : m'.transactionStatuses = m.transactionStatuses ∨
    ∃ next, Publishes m.transactionStatuses command next ∧
      m'.transactionStatuses = m.transactionStatuses.insert next.txnId next
  decision : ∀ {commit : CommitCommand} {r : TxnStatusRecord}, command = .commit commit →
    commit.committedStatus = some r → m'.transactionStatuses[commit.txnId]? = some r

theorem Dispatched.executes (hd : Dispatched m command m') (h : m.tablet.storage.Inv)
    (hvalid : command.validate = .ok ()) : Executes m command m' where
  committed := (hd.outcomes h (t := _)).1
  rolledBack := (hd.outcomes h (t := 0)).2
  statuses := (hd.statuses hvalid).imp id fun ⟨next, hpublishes, hinsert, _⟩ =>
    ⟨next, hpublishes, hinsert⟩
  decision hcommand hr := by
    subst hcommand
    exact hd.status_of_commit hr

/-- A delivery leaves the data as it is, or it is the first execution of its command. -/
theorem Applied.executes {envelope : TabletCommandEnvelope}
    {a : Except TabletCommandApplyError TabletCommandApplyOutcome}
    (happlied : Applied m envelope a m') (h : m.tablet.storage.Inv) :
    (SameData m m' ∧ ∀ result, a ≠ .ok ⟨result, false⟩) ∨
      (Executes m envelope.command m' ∧ ∃ result, a = .ok ⟨result, false⟩) := by
  cases happlied.effect with
  | unchanged hsame hfresh => exact .inl ⟨hsame, hfresh⟩
  | @dispatched m₁ m₂ _ hval hm₁ hd hm₂ =>
    obtain ⟨henvelope, -⟩ := validateProposal_eq_ok.mp hval
    have hx := hd.executes (by rw [hm₁.tablet]; exact h) (envelope_validate henvelope).2.2
    refine .inr ⟨?_, _, rfl⟩
    constructor
    case committed =>
      intro k s t
      rw [hm₂.committed, hx.committed, hm₁.committed]
    case rolledBack =>
      intro k s
      rw [hm₂.rolledBack, hx.rolledBack, hm₁.rolledBack]
    case statuses =>
      rw [hm₂.statuses, ← hm₁.statuses]
      exact hx.statuses
    case decision =>
      intro commit r hcommand hr
      rw [hm₂.statuses]
      exact hx.decision hcommand hr

variable {txnId : TxnId} {r : TxnStatusRecord}

theorem Executes.status_final (h : Executes m command m')
    (hr : m.transactionStatuses[txnId]? = some r) (hterminal : r.status ≠ .pending) :
    m'.transactionStatuses[txnId]? = some r := by
  rcases h.statuses with hsame | ⟨next, hpublishes, hinsert⟩
  · rw [hsame]
    exact hr
  · rw [hinsert, getElem?_insert, if_neg, hr]
    rintro rfl
    exact hterminal (hpublishes.over hr)

theorem Executes.status_cases (h : Executes m command m')
    (hr : m'.transactionStatuses[txnId]? = some r) :
    m.transactionStatuses[txnId]? = some r ∨
      r.txnId = txnId ∧ Publishes m.transactionStatuses command r := by
  rcases h.statuses with hsame | ⟨next, hpublishes, hinsert⟩
  · exact .inl (hsame ▸ hr)
  · rw [hinsert] at hr
    rcases getElem?_insert_eq_some.mp hr with ⟨htxn, rfl⟩ | ⟨-, hr⟩
    · exact .inr ⟨htxn, hpublishes⟩
    · exact .inl hr

/-- Outcomes and decisions stay. -/
structure Keeps (m m' : TabletStateMachine) : Prop where
  committed : ∀ {k : Bytes} {s t : Timestamp}, m.Committed k s t → m'.Committed k s t
  rolledBack : ∀ {k : Bytes} {s : Timestamp}, m.RolledBack k s → m'.RolledBack k s
  status : ∀ {txnId : TxnId} {r : TxnStatusRecord}, m.transactionStatuses[txnId]? = some r →
    r.status ≠ .pending → m'.transactionStatuses[txnId]? = some r

theorem Keeps.refl (m : TabletStateMachine) : Keeps m m := ⟨id, id, fun hr _ => hr⟩

theorem SameData.keeps (h : SameData m m') : Keeps m m' where
  committed := h.committed.mpr
  rolledBack := h.rolledBack.mpr
  status hr _ := h.statuses ▸ hr

theorem Executes.keeps (h : Executes m command m') : Keeps m m' where
  committed hc := h.committed.mpr (.inl hc)
  rolledBack hr := h.rolledBack.mpr (.inl hr)
  status := h.status_final

end TabletStateMachine

end RagnorDb
