import RagnorDb.Txn.TwoPhase

/-!
# Two-phase commit is atomic

The primary's tablet decides.  What has been committed is what its status record says, and
what has been rolled back is ruled out there.  The invariant gives every command on its way
a licence: it may commit or roll back another key only after the decision.
-/

namespace RagnorDb

open Std Checked DistributedTransactionCoordinator

namespace TwoPhase

variable {tabletId : TabletId} {m : TabletStateMachine} {queue : List Dispatch} {phase : Phase}

/-! ## Outcomes and the decision -/

section Decision

variable (txn : DistributedTransactionCoordinator) (σ : State)

/-- Some tablet has committed the key for the transaction. -/
def State.Committed (key : Bytes) (commitTimestamp : Timestamp) : Prop :=
  ∃ tabletId, (σ.tablets tabletId).Committed key txn.startTimestamp commitTimestamp

/-- Some tablet has rolled the key back for the transaction. -/
def State.RolledBack (key : Bytes) : Prop :=
  ∃ tabletId, (σ.tablets tabletId).RolledBack key txn.startTimestamp

/-- The authoritative status record of the transaction. -/
def State.status : Option TxnStatusRecord :=
  (σ.tablets txn.primaryTablet).transactionStatuses[txn.transactionId]?

/-- The transaction is committed. -/
def State.Decided (commitTimestamp : Timestamp) : Prop :=
  ∃ record, σ.status txn = some record ∧ record.status = .committed ∧
    record.commitTimestamp = some commitTimestamp

/-- The transaction cannot be committed any more. -/
def State.Dropped : Prop :=
  (∃ record, σ.status txn = some record ∧ record.status = .aborted) ∨
    (σ.tablets txn.primaryTablet).RolledBack txn.primaryKey txn.startTimestamp

/-- The primary's commit, with the commit timestamp of the transaction. -/
def Deciding (commitTimestamp : Timestamp) (d : Dispatch) : Prop :=
  txn.PrimaryCommit commitTimestamp d ∧ σ.commitTimestamp = some commitTimestamp

/-- What a command on its way may do: outcomes other than the primary's own follow the
decision, and only the primary's commit makes one. -/
structure Licensed (d : Dispatch) : Prop where
  commits : ∀ {key commitTimestamp}, d.command.Commits key txn.startTimestamp commitTimestamp →
    σ.Decided txn commitTimestamp ∨ Deciding txn σ commitTimestamp d
  rollsBack : ∀ {key}, d.command.RollsBack key txn.startTimestamp →
    σ.Dropped txn ∨ txn.PrimaryRollback d
  decides : ∀ {command : CommitCommand} {record}, d.command = .commit command →
    command.txnId = txn.transactionId → command.committedStatus = some record →
    Deciding txn σ command.commitTimestamp d

end Decision

variable {txn : DistributedTransactionCoordinator} {dispatcher : Dispatcher} {σ σ' : State}
  {c : Timestamp} {d : Dispatch}

/-- Outcomes, decisions and the commit timestamp stay. -/
structure State.Keeps (σ σ' : State) : Prop where
  tablets : ∀ tabletId, (σ.tablets tabletId).Keeps (σ'.tablets tabletId)
  commitTimestamp : ∀ {c}, σ.commitTimestamp = some c → σ'.commitTimestamp = some c

theorem State.Decided.keeps (h : σ.Decided txn c) (hkeeps : σ.Keeps σ') : σ'.Decided txn c := by
  obtain ⟨record, hrecord, hstatus, hc⟩ := h
  exact ⟨record, (hkeeps.tablets _).status hrecord (by simp [hstatus]), hstatus, hc⟩

theorem State.Dropped.keeps (h : σ.Dropped txn) (hkeeps : σ.Keeps σ') : σ'.Dropped txn := by
  rcases h with ⟨record, hrecord, hstatus⟩ | hrolledBack
  · exact .inl ⟨record, (hkeeps.tablets _).status hrecord (by simp [hstatus]), hstatus⟩
  · exact .inr ((hkeeps.tablets _).rolledBack hrolledBack)

theorem Deciding.keeps (h : Deciding txn σ c d) (hkeeps : σ.Keeps σ') : Deciding txn σ' c d :=
  ⟨h.1, hkeeps.commitTimestamp h.2⟩

theorem Licensed.keeps (h : Licensed txn σ d) (hkeeps : σ.Keeps σ') : Licensed txn σ' d where
  commits hc := (h.commits hc).imp (·.keeps hkeeps) (·.keeps hkeeps)
  rollsBack hr := (h.rollsBack hr).imp_left (·.keeps hkeeps)
  decides hcommand htxn hstatus := (h.decides hcommand htxn hstatus).keeps hkeeps

/-! ## Licences -/

theorem licensed_of_deciding (h : Deciding txn σ c d) : Licensed txn σ d := by
  obtain ⟨⟨-, keys, record, hcommand, -⟩, -⟩ := id h
  constructor
  case commits =>
    intro key commitTimestamp hcommits
    rw [hcommand] at hcommits
    obtain ⟨-, -, rfl⟩ := hcommits
    exact .inr h
  case rollsBack =>
    intro key hrolls
    rw [hcommand] at hrolls
    exact hrolls.elim
  case decides =>
    intro command record' hcommand' htxn hstatus
    rw [hcommand] at hcommand'
    cases hcommand'
    exact h

theorem licensed_of_secondaryCommit (h : txn.SecondaryCommit c d) (hdecided : σ.Decided txn c) :
    Licensed txn σ d := by
  obtain ⟨keys, hcommand⟩ := h
  constructor
  case commits =>
    intro key commitTimestamp hcommits
    rw [hcommand] at hcommits
    obtain ⟨-, -, rfl⟩ := hcommits
    exact .inl hdecided
  case rollsBack =>
    intro key hrolls
    rw [hcommand] at hrolls
    exact hrolls.elim
  case decides =>
    intro command record hcommand' htxn hstatus
    rw [hcommand] at hcommand'
    cases hcommand'
    cases hstatus

theorem licensed_of_rollsBack (hno : ∀ command, d.command ≠ .commit command)
    (hcommits : ∀ key c, ¬ d.command.Commits key txn.startTimestamp c)
    (hrolls : ∀ key, d.command.RollsBack key txn.startTimestamp →
      σ.Dropped txn ∨ txn.PrimaryRollback d) : Licensed txn σ d where
  commits hc := absurd hc (hcommits _ _)
  rollsBack := hrolls _
  decides hcommand := absurd hcommand (hno _)

theorem licensed_of_primaryRollback (h : txn.PrimaryRollback d) : Licensed txn σ d := by
  obtain ⟨-, keys, hcommand, -⟩ := id h
  refine licensed_of_rollsBack (by simp [hcommand]) ?_ fun _ _ => .inr h
  simp [hcommand, TabletCommand.Commits]

theorem licensed_of_secondaryRollback (h : txn.SecondaryRollback d) (hdropped : σ.Dropped txn) :
    Licensed txn σ d := by
  obtain ⟨keys, hcommand⟩ := h
  refine licensed_of_rollsBack (by simp [hcommand]) ?_ fun _ _ => .inl hdropped
  simp [hcommand, TabletCommand.Commits]

theorem licensed_of_statusAbort (h : txn.StatusAbort d) : Licensed txn σ d := by
  obtain ⟨record, hcommand, -⟩ := h
  refine licensed_of_rollsBack (by simp [hcommand]) ?_ ?_
  · simp [hcommand, TabletCommand.Commits]
  · simp [hcommand, TabletCommand.RollsBack]

theorem licensed_prewrite {command : PrewriteCommand} :
    Licensed txn σ ⟨tabletId, .prewrite command⟩ := by
  refine licensed_of_rollsBack (by simp) ?_ ?_
  · simp [TabletCommand.Commits]
  · simp [TabletCommand.RollsBack]

theorem licensed_resolve {key : Bytes} {lock : LockRecord}
    {status : TxnStatusRecord} {plan : ResolveIntentPlan} (hstatus : σ.status txn = some status)
    (hplan : planIntentResolution key lock status = .ok (.resolve plan)) :
    Licensed txn σ ⟨tabletId, .resolveIntent plan.command⟩ := by
  obtain ⟨-, hcommand⟩ := planIntentResolution_eq_resolve hplan
  rw [hcommand]
  constructor
  case commits =>
    rintro key' commitTimestamp ⟨-, -, hcommitted, hc⟩
    exact .inl ⟨status, hstatus, hcommitted, hc⟩
  case rollsBack =>
    rintro key' ⟨-, -, haborted⟩
    exact .inl (.inl ⟨status, hstatus, haborted⟩)
  case decides =>
    intro command record hcommand'
    cases hcommand'

theorem licensed_foreign (h : Foreign txn d.command) : Licensed txn σ d := by
  obtain ⟨tabletId, command⟩ := d
  cases command with
  | commit =>
    constructor
    case commits => exact fun hc => absurd hc.2.1 h.2
    case rollsBack => exact fun hr => hr.elim
    case decides =>
      intro command' record hcommand htxn
      cases hcommand
      exact absurd htxn h.1
  | singleShardCommit =>
    refine licensed_of_rollsBack (by simp) ?_ (by simp [TabletCommand.RollsBack])
    exact fun key c hc => h.2 hc.2.1
  | resolveIntent =>
    refine licensed_of_rollsBack (by simp) ?_ ?_
    · exact fun key c hc => h.2 hc.2.1
    · exact fun key hr => absurd hr.2.1 h.2
  | rollback =>
    refine licensed_of_rollsBack (by simp) (by simp [TabletCommand.Commits]) ?_
    exact fun key hr => absurd hr.2 h.2
  | _ =>
    refine licensed_of_rollsBack ?_ ?_ ?_ <;>
      simp [TabletCommand.Commits, TabletCommand.RollsBack]

/-! ## The invariant -/

/-- The commands before the ones that are left have been applied. -/
def Done (σ : State) (dispatches queue : List Dispatch) : Prop :=
  ∃ done, dispatches = done ++ queue ∧ ∀ d ∈ done, d ∈ σ.applied

/-- What the phase says about the commands of its plan. -/
def InPhase (txn : DistributedTransactionCoordinator) (dispatcher : Dispatcher) (σ : State) :
    Phase → Prop
  | .idle | .prewriting _ => σ.commitTimestamp = none
  | .committing c _ queue => σ.commitTimestamp = some c ∧ ∃ plan,
      txn.planCommitAtTimestamp c = .ok plan ∧ Done σ (plan.dispatches dispatcher) queue
  | .rollingBack queue => ∃ plan,
      txn.planRollback = .ok plan ∧ Done σ (plan.dispatches dispatcher) queue

/-- The decision rules every outcome. -/
structure Inv (txn : DistributedTransactionCoordinator) (dispatcher : Dispatcher) (σ : State) :
    Prop where
  tablets : ∀ tabletId, (σ.tablets tabletId).Inv
  committed : ∀ {tabletId key c}, (σ.tablets tabletId).Committed key txn.startTimestamp c →
    σ.Decided txn c
  rolledBack : ∀ {tabletId key}, (σ.tablets tabletId).RolledBack key txn.startTimestamp →
    σ.Dropped txn
  decided : ∀ {c}, σ.Decided txn c →
    (σ.tablets txn.primaryTablet).Committed txn.primaryKey txn.startTimestamp c ∧
      σ.commitTimestamp = some c
  sent : ∀ d ∈ σ.sent, Licensed txn σ d
  primaryCommit : ∀ d ∈ σ.applied, ∀ {c}, txn.PrimaryCommit c d → σ.Decided txn c
  primaryRollback : ∀ d ∈ σ.applied, txn.PrimaryRollback d → σ.Dropped txn
  phase : InPhase txn dispatcher σ σ.phase

theorem cell_of_init (h : TabletStateMachine.tabletLog.init m)
    (key : Bytes) : m.tablet.storage.cell key = .empty := by
  obtain ⟨id, tableId, epoch, group, tablet, htablet, hm⟩ := h
  simp only [Tablet.new, Tablet.withStorage, eq_ok'] at htablet
  simp only [TabletStateMachine.new, eq_ok'] at hm
  obtain ⟨-, -, rfl⟩ := htablet
  obtain ⟨-, -, rfl⟩ := hm
  exact InMemoryMvcc.cell_new key

theorem statuses_of_init (h : TabletStateMachine.tabletLog.init m) : m.transactionStatuses = ∅ := by
  obtain ⟨id, tableId, epoch, group, tablet, -, hm⟩ := h
  simp only [TabletStateMachine.new, eq_ok'] at hm
  obtain ⟨-, -, rfl⟩ := hm
  rfl

theorem inv_of_init (h : (system txn dispatcher).init σ) : Inv txn dispatcher σ := by
  obtain ⟨htablets, hrun, happlied⟩ := h
  constructor
  case tablets => exact fun tabletId => TabletStateMachine.inv_of_init (htablets tabletId)
  case committed =>
    rintro tabletId key c ⟨w, hw, -⟩
    rw [cell_of_init (htablets tabletId)] at hw
    cases hw
  case rolledBack =>
    rintro tabletId key ⟨w, hw, -⟩
    rw [cell_of_init (htablets tabletId)] at hw
    cases hw
  case decided =>
    rintro c ⟨record, hrecord, -⟩
    rw [State.status, statuses_of_init (htablets _)] at hrecord
    simp at hrecord
  case sent => simp [hrun, Run.new]
  case primaryCommit => simp [happlied]
  case primaryRollback => simp [happlied]
  case phase => simp [hrun, Run.new, InPhase]

/-! ### The coordinator -/

theorem Done.next {first : Dispatch} {rest : List Dispatch}
    (h : Done σ (first :: rest) (d :: queue)) : d = first ∨ first ∈ σ.applied ∧ d ∈ rest := by
  obtain ⟨done, hsplit, hdone⟩ := h
  cases done with
  | nil => exact .inl (List.cons.inj hsplit).1.symm
  | cons =>
    obtain ⟨rfl, rfl⟩ := List.cons.inj hsplit
    exact .inr ⟨hdone _ List.mem_cons_self, by simp⟩

theorem Done.start (dispatches : List Dispatch) : Done σ dispatches dispatches :=
  ⟨[], rfl, by simp⟩

theorem Done.pop {dispatches : List Dispatch} (h : Done σ dispatches (d :: queue))
    (hd : d ∈ σ.applied) : Done σ dispatches queue := by
  obtain ⟨done, hsplit, hdone⟩ := h
  refine ⟨done ++ [d], by simp [hsplit], ?_⟩
  simpa [or_imp, forall_and] using ⟨hdone, hd⟩

theorem Inv.inPhase (h : Inv txn dispatcher σ) (hphase : σ.phase = phase) :
    InPhase txn dispatcher σ phase :=
  hphase ▸ h.phase

theorem InPhase.mono (h : InPhase txn dispatcher σ phase)
    (hcommit : σ'.commitTimestamp = σ.commitTimestamp)
    (happlied : ∀ d ∈ σ.applied, d ∈ σ'.applied) : InPhase txn dispatcher σ' phase := by
  have hdone : ∀ {dispatches queue}, Done σ dispatches queue → Done σ' dispatches queue := by
    rintro dispatches queue ⟨done, hsplit, hdone⟩
    exact ⟨done, hsplit, fun d hd => happlied d (hdone d hd)⟩
  cases phase with
  | idle | prewriting => exact hcommit.trans h
  | committing =>
    obtain ⟨hchosen, plan, hplan, hq⟩ := h
    exact ⟨hcommit.trans hchosen, plan, hplan, hdone hq⟩
  | rollingBack =>
    obtain ⟨plan, hplan, hq⟩ := h
    exact ⟨plan, hplan, hdone hq⟩

section

variable (h : Inv txn dispatcher σ)
include h

theorem Inv.licensed_commit {primaryApplied : Bool}
    (hphase : σ.phase = .committing c primaryApplied (d :: queue)) : Licensed txn σ d := by
  obtain ⟨hchosen, plan, hplan, hdone⟩ := h.inPhase hphase
  obtain ⟨first, rest, hdispatches, hfirst, hrest⟩ :=
    (planCommit_eq_ok hplan).1.dispatches dispatcher
  rw [hdispatches] at hdone
  rcases hdone.next with rfl | ⟨happlied, hd⟩
  · exact licensed_of_deciding ⟨hfirst, hchosen⟩
  · rcases hrest d hd with hprimary | hsecondary
    · exact licensed_of_deciding ⟨hprimary, hchosen⟩
    · exact licensed_of_secondaryCommit hsecondary (h.primaryCommit first happlied hfirst)

theorem Inv.licensed_rollback (hprimary : dispatcher = .gateway → txn.PrimaryIsFirst)
    (hphase : σ.phase = .rollingBack (d :: queue)) : Licensed txn σ d := by
  obtain ⟨plan, hplan, hdone⟩ := h.inPhase hphase
  obtain ⟨first, rest, hdispatches, hfirst, hrest⟩ :=
    (planRollback_eq_ok hplan).1.dispatches hprimary
  rw [hdispatches] at hdone
  rcases hdone.next with rfl | ⟨happlied, hd⟩
  · exact licensed_of_primaryRollback hfirst
  · rcases hrest d hd with hprimary | hsecondary | habort
    · exact licensed_of_primaryRollback hprimary
    · exact licensed_of_secondaryRollback hsecondary (h.primaryRollback first happlied hfirst)
    · exact licensed_of_statusAbort habort

theorem Inv.coordinate {run : Run}
    (hcommit : ∀ {c}, σ.commitTimestamp = some c → run.commitTimestamp = some c)
    (hsent : ∀ d ∈ run.sent, d ∈ σ.sent ∨ Licensed txn σ d)
    (hphase : InPhase txn dispatcher { σ with toRun := run } run.phase) :
    Inv txn dispatcher { σ with toRun := run } := by
  have hkeeps : σ.Keeps { σ with toRun := run } := ⟨fun _ => .refl _, hcommit⟩
  exact
    { h with
      decided := fun hc => ⟨(h.decided hc).1, hcommit (h.decided hc).2⟩
      sent := fun d hd => ((hsent d hd).elim (h.sent d) id).keeps hkeeps
      phase := hphase }

theorem Inv.send (hd : Licensed txn σ d) : Inv txn dispatcher { σ with sent := d :: σ.sent } := by
  refine h.coordinate id ?_ ?_
  · simpa using ⟨.inr hd, fun e he => .inl he⟩
  · exact h.phase.mono rfl fun e he => he

theorem Inv.enter (hphase : InPhase txn dispatcher σ phase) :
    Inv txn dispatcher { σ with phase } := by
  exact h.coordinate id (fun d hd => .inl hd) (hphase.mono rfl fun e he => he)

end

/-! ### The tablets -/

/-- A delivery leaves all data as it is, or executes its command on its tablet. -/
theorem State.deliver_cases (σ : State) (h : ∀ tabletId, (σ.tablets tabletId).Inv)
    (envelope : TabletCommandEnvelope) :
    (∀ tabletId, TabletStateMachine.SameData (σ.tablets tabletId)
        ((σ.deliver envelope).tablets tabletId)) ∧ (σ.deliver envelope).applied = σ.applied ∨
      (TabletStateMachine.Executes (σ.tablets envelope.tabletId) envelope.command
          ((σ.deliver envelope).tablets envelope.tabletId) ∧
        ∀ tabletId, tabletId ≠ envelope.tabletId →
          (σ.deliver envelope).tablets tabletId = σ.tablets tabletId) ∧
      (σ.deliver envelope).applied = ⟨envelope.tabletId, envelope.command⟩ :: σ.applied := by
  have happlied := TabletStateMachine.applied (σ.tablets envelope.tabletId) envelope
  rcases happlied.executes (h _).storage with ⟨hsame, hfresh⟩ | ⟨hexecutes, result, hanswer⟩
  · refine .inl ⟨?_, ?_⟩
    · intro tabletId
      by_cases htablet : tabletId = envelope.tabletId
      · subst htablet
        simpa [State.deliver] using hsame
      · simpa [State.deliver, htablet] using .refl _
    · -- `hfresh` rules out the branch of a first execution.
      simp [State.deliver]
  · refine .inr ⟨⟨?_, ?_⟩, ?_⟩
    · simpa [State.deliver] using hexecutes
    · intro tabletId htablet
      simp [State.deliver, htablet]
    · simp [State.deliver, hanswer]

section

variable (h : Inv txn dispatcher σ)
include h

/-- What the execution of a command with a licence decides. -/
theorem Inv.execute (hd : Licensed txn σ d) (hinv : ∀ tabletId, (σ'.tablets tabletId).Inv)
    (hexecutes : TabletStateMachine.Executes (σ.tablets d.tabletId) d.command
      (σ'.tablets d.tabletId))
    (hother : ∀ tabletId, tabletId ≠ d.tabletId → σ'.tablets tabletId = σ.tablets tabletId)
    (hrun : σ'.toRun = σ.toRun) (happlied : σ'.applied = d :: σ.applied) :
    Inv txn dispatcher σ' := by
  have hkeeps : σ.Keeps σ' := by
    refine ⟨?_, by simp [hrun]⟩
    intro tabletId
    by_cases htablet : tabletId = d.tabletId
    · subst htablet
      exact hexecutes.keeps
    · rw [hother tabletId htablet]
      exact .refl _
  have hcommit : ∀ {c}, txn.PrimaryCommit c d → σ'.Decided txn c := by
    rintro c ⟨htablet, keys, record, hcommand, -, hrecord⟩
    rw [htablet] at hexecutes
    exact ⟨record, hexecutes.decision hcommand rfl, hrecord.status, hrecord.commitTimestamp⟩
  have hrollback : txn.PrimaryRollback d → σ'.Dropped txn := by
    rintro ⟨htablet, keys, hcommand, hmem⟩
    rw [htablet] at hexecutes
    refine .inr (hexecutes.rolledBack.mpr (.inr ?_))
    rw [hcommand]
    exact ⟨hmem, rfl⟩
  constructor
  case tablets => exact hinv
  case committed =>
    intro tabletId key c hc
    by_cases htablet : tabletId = d.tabletId
    · subst htablet
      rcases hexecutes.committed.mp hc with hold | hnew
      · exact (h.committed hold).keeps hkeeps
      · exact (hd.commits hnew).elim (·.keeps hkeeps) (hcommit ·.1)
    · rw [hother _ htablet] at hc
      exact (h.committed hc).keeps hkeeps
  case rolledBack =>
    intro tabletId key hr
    by_cases htablet : tabletId = d.tabletId
    · subst htablet
      rcases hexecutes.rolledBack.mp hr with hold | hnew
      · exact (h.rolledBack hold).keeps hkeeps
      · exact (hd.rollsBack hnew).elim (·.keeps hkeeps) hrollback
    · rw [hother _ htablet] at hr
      exact (h.rolledBack hr).keeps hkeeps
  case decided =>
    rintro c ⟨record, hrecord, hstatus, hc⟩
    by_cases htablet : txn.primaryTablet = d.tabletId
    · rw [State.status, htablet] at hrecord
      rcases hexecutes.status_cases hrecord with hold | ⟨htxn, hpublishes⟩
      · rw [← htablet] at hold
        exact (h.decided ⟨record, hold, hstatus, hc⟩).imp (hkeeps.tablets _).committed
          hkeeps.commitTimestamp
      · -- The record is new, so the command is the primary's commit.
        obtain ⟨⟨_, _, commitTimestamp, _, _⟩, hcommand, hsome, htxn', hc'⟩ :=
          hpublishes.commit hstatus
        obtain ⟨⟨-, keys, _, hcommand', hmem, -⟩, hchosen⟩ :=
          hd.decides hcommand (htxn'.symm.trans htxn) hsome
        rw [hcommand] at hcommand'
        cases hcommand'
        cases hc'.symm.trans hc
        refine ⟨?_, hkeeps.commitTimestamp hchosen⟩
        rw [htablet, hexecutes.committed, hcommand]
        exact .inr ⟨hmem, rfl, rfl⟩
    · rw [State.status, hother _ htablet] at hrecord
      exact (h.decided ⟨record, hrecord, hstatus, hc⟩).imp (hkeeps.tablets _).committed
        hkeeps.commitTimestamp
  case sent =>
    rw [hrun]
    exact fun e he => (h.sent e he).keeps hkeeps
  case primaryCommit =>
    intro e he c hc
    rw [happlied] at he
    rcases List.mem_cons.mp he with rfl | he
    · exact hcommit hc
    · exact (h.primaryCommit e he hc).keeps hkeeps
  case primaryRollback =>
    intro e he hr
    rw [happlied] at he
    rcases List.mem_cons.mp he with rfl | he
    · exact hrollback hr
    · exact (h.primaryRollback e he hr).keeps hkeeps
  case phase =>
    rw [hrun]
    exact h.phase.mono (by rw [hrun]) fun e he => happlied ▸ List.mem_cons_of_mem d he

/-- A delivery that leaves all data as it is. -/
theorem Inv.sameData (hinv : ∀ tabletId, (σ'.tablets tabletId).Inv)
    (hsame : ∀ tabletId, TabletStateMachine.SameData (σ.tablets tabletId) (σ'.tablets tabletId))
    (hrun : σ'.toRun = σ.toRun) (happlied : σ'.applied = σ.applied) : Inv txn dispatcher σ' := by
  have hkeeps : σ.Keeps σ' := ⟨fun tabletId => (hsame tabletId).keeps, by simp [hrun]⟩
  have hstatus : σ'.status txn = σ.status txn := by
    rw [State.status, (hsame _).statuses]
    rfl
  constructor
  case tablets => exact hinv
  case committed => exact fun hc => (h.committed ((hsame _).committed.mp hc)).keeps hkeeps
  case rolledBack => exact fun hr => (h.rolledBack ((hsame _).rolledBack.mp hr)).keeps hkeeps
  case decided =>
    rintro c ⟨record, hrecord, hc⟩
    exact (h.decided ⟨record, hstatus ▸ hrecord, hc⟩).imp (hkeeps.tablets _).committed
      hkeeps.commitTimestamp
  case sent =>
    rw [hrun]
    exact fun e he => (h.sent e he).keeps hkeeps
  case primaryCommit =>
    exact fun e he c hc => (h.primaryCommit e (happlied ▸ he) hc).keeps hkeeps
  case primaryRollback =>
    exact fun e he hr => (h.primaryRollback e (happlied ▸ he) hr).keeps hkeeps
  case phase =>
    rw [hrun]
    exact h.phase.mono (by rw [hrun]) fun e he => happlied ▸ he

theorem Inv.deliver {envelope : TabletCommandEnvelope}
    (hd : Licensed txn σ ⟨envelope.tabletId, envelope.command⟩) :
    Inv txn dispatcher (σ.deliver envelope) := by
  have hinv : ∀ tabletId, ((σ.deliver envelope).tablets tabletId).Inv := by
    intro tabletId
    by_cases htablet : tabletId = envelope.tabletId
    · subst htablet
      simpa [State.deliver] using (h.tablets _).step rfl
    · simpa [State.deliver, htablet] using h.tablets tabletId
  rcases σ.deliver_cases h.tablets envelope with ⟨hsame, happlied⟩ |
    ⟨⟨hexecutes, hother⟩, happlied⟩
  · exact h.sameData hinv hsame rfl happlied
  · exact h.execute hd hinv hexecutes hother rfl happlied

theorem Inv.step (hprimary : dispatcher = .gateway → txn.PrimaryIsFirst)
    (hstep : Step txn dispatcher σ σ') : Inv txn dispatcher σ' := by
  cases hstep with
  | beginPrewrite hphase | prewriteApplied hphase =>
    have hnone : σ.commitTimestamp = none := h.inPhase hphase
    exact h.enter hnone
  | sendPrewrite => exact h.send licensed_prewrite
  | beginCommit hphase hplan =>
    have hnone : σ.commitTimestamp = none := h.inPhase hphase
    exact h.coordinate (by simp [hnone]) (fun d hd => .inl hd) ⟨rfl, _, hplan, .start _⟩
  | rollback hplan => exact h.enter ⟨_, hplan, .start _⟩
  | sendCommit hphase => exact h.send (h.licensed_commit hphase)
  | commitSucceeded hphase happlied =>
    obtain ⟨hchosen, plan, hplan, hdone⟩ := h.inPhase hphase
    exact h.enter ⟨hchosen, plan, hplan, hdone.pop happlied⟩
  | sendRollback hphase => exact h.send (h.licensed_rollback hprimary hphase)
  | rollbackSucceeded hphase happlied =>
    obtain ⟨plan, hplan, hdone⟩ := h.inPhase hphase
    exact h.enter ⟨plan, hplan, hdone.pop happlied⟩
  | restartCommit hphase hplan =>
    obtain ⟨hchosen, -⟩ := h.inPhase hphase
    exact h.enter ⟨hchosen, _, hplan, .start _⟩
  | resolve hstatus hplan => exact h.send (licensed_resolve hstatus hplan)
  | deliver henvelope =>
    exact h.deliver (henvelope.elim (h.sent _) fun hforeign => licensed_foreign hforeign)

end

theorem inv_of_reachable (hprimary : dispatcher = .gateway → txn.PrimaryIsFirst)
    (h : (system txn dispatcher).Reachable σ) : Inv txn dispatcher σ :=
  h.invariant inv_of_init fun _ hinv hstep => hinv.step hprimary (step_of_next hstep)

theorem Inv.not_dropped (h : Inv txn dispatcher σ) (hc : σ.Decided txn c) : ¬ σ.Dropped txn := by
  rintro (⟨record, hrecord, habort⟩ | hrolledBack)
  · obtain ⟨record', hrecord', hcommitted, -⟩ := hc
    cases hrecord'.symm.trans hrecord
    simp [habort] at hcommitted
  · exact ((h.tablets _).storage.cell _).not_rolledBack (h.decided hc).1 hrolledBack

/-- Two-phase commit is atomic.  In every reachable state, if a key of the transaction has
been committed then none has been rolled back, all are committed at the same timestamp, and
the committed status record carries it. -/
theorem atomic_of_reachable (txn : DistributedTransactionCoordinator) (dispatcher : Dispatcher)
    (hprimary : dispatcher = .gateway → txn.PrimaryIsFirst) {σ : State}
    (h : (system txn dispatcher).Reachable σ) {key : Bytes} {c : Timestamp}
    (hc : σ.Committed txn key c) :
    (∀ key', ¬ σ.RolledBack txn key') ∧ (∀ key' c', σ.Committed txn key' c' → c' = c) ∧
      ∃ record, σ.status txn = some record ∧ record.status = .committed ∧
        record.commitTimestamp = some c := by
  have hinv := inv_of_reachable hprimary h
  obtain ⟨_, hc⟩ := hc
  have hdecided := hinv.committed hc
  refine ⟨?_, ?_, hdecided⟩
  · rintro key' ⟨_, hr⟩
    exact hinv.not_dropped hdecided (hinv.rolledBack hr)
  · rintro key' c' ⟨_, hc'⟩
    have hchosen := (hinv.decided (hinv.committed hc')).2
    rw [(hinv.decided hdecided).2] at hchosen
    exact (Option.some.inj hchosen).symm

/-! A transaction of the SQL gateway that deletes one key of each of two tablets. -/

def sampleKey : Bytes := [1, 0, 0, 0, 0, 0, 0, 0, 1, 0x30, 1]

def sampleRoute (key : Bytes) : ParticipantRoute :=
  if key = sampleKey then ⟨2, 1, 1, 1⟩ else ⟨1, 1, 1, 1⟩

def sampleTxn : DistributedTransactionCoordinator :=
  (prepareDistributedTransaction 5 5
    ((∅ : Mutations).insert InMemoryMvcc.sampleKey .delete |>.insert sampleKey .delete)
    fun key => .ok (sampleRoute key)).toOption.get (by decide +kernel)

def sampleTablets (tabletId : TabletId) : TabletStateMachine :=
  if tabletId = 2 then { TabletStateMachine.sampleMachine with tablet := ⟨2, 1, .new⟩ }
  else TabletStateMachine.sampleMachine

theorem sampleTablets_init (tabletId : TabletId) :
    TabletStateMachine.tabletLog.init (sampleTablets tabletId) := by
  unfold sampleTablets
  split
  · exact ⟨2, 1, 1, 1, _, rfl, rfl⟩
  · exact TabletStateMachine.sampleMachine_init

def sampleDelivery (sequence : Nat) (d : Dispatch) : TabletCommandEnvelope :=
  ⟨2, ⟨7, sequence, 1⟩, d.tabletId, 1, none, none, d.command⟩

/-- Both keys are prewritten and the primary's commit is applied, but the coordinator does
not hear of it and rolls back.  A reader resolves the other key. -/
def sampleActions : List Action :=
  let primary := InMemoryMvcc.sampleKey
  let prewrite : PrewriteCommand :=
    ⟨5, 5, [⟨primary, none, .delete⟩], primary, 100,
      some (sampleTxn.statusRecord .pending none [1, 2])⟩
  let prewrite' : PrewriteCommand := ⟨5, 5, [⟨sampleKey, none, .delete⟩], primary, 100, none⟩
  let committed := sampleTxn.statusRecord .committed (some 6) [1, 2]
  [.beginPrewrite 100, .sendPrewrite 1 prewrite none, .sendPrewrite 2 prewrite' none,
    .deliver (sampleDelivery 1 ⟨1, .prewrite prewrite⟩),
    .deliver (sampleDelivery 1 ⟨2, .prewrite prewrite'⟩),
    .prewriteApplied 1 prewrite none, .prewriteApplied 2 prewrite' none, .beginCommit 6, .send,
    .deliver (sampleDelivery 2 ⟨1, .commit ⟨5, 5, 6, [primary], some committed⟩⟩),
    .beginRollback, .send, .deliver (sampleDelivery 3 ⟨1, .rollback ⟨5, 5, [primary]⟩⟩),
    .resolve 2 sampleKey ⟨5, primary, 5, 100, .delete⟩,
    .deliver (sampleDelivery 2
      ⟨2, .resolveIntent ⟨5, 5, [sampleKey], .committed, some 6⟩⟩)]

/-- The state that the actions lead to is committed on the second tablet. -/
theorem atomic_of_reachable_resolved :
    ∃ σ, (system sampleTxn .gateway).Reachable σ ∧ σ.Committed sampleTxn sampleKey 6 ∧
      (∀ key, ¬ σ.RolledBack sampleTxn key) ∧
      (∀ key c, σ.Committed sampleTxn key c → c = 6) ∧
      ∃ record, σ.status sampleTxn = some record ∧ record.status = .committed ∧
        record.commitTimestamp = some 6 := by
  have hrun : (sampleActions.foldlM (next sampleTxn .gateway) ⟨.new, sampleTablets, []⟩).map
      (fun σ => (σ.tablets 2).tablet.storage.writes.lookup sampleKey 6) =
      some (some ⟨5, 6, .delete⟩) := by
    decide +kernel
  obtain ⟨σ, hreachable, hwrite⟩ := Lts.Reachable.of_run (L := system sampleTxn .gateway) hrun
    ⟨sampleTablets_init, rfl, rfl⟩ id
  have hcommitted : σ.Committed sampleTxn sampleKey 6 :=
    ⟨2, _, hwrite, by decide +kernel, by decide⟩
  have hprimary : sampleTxn.PrimaryIsFirst := by
    unfold PrimaryIsFirst
    decide +kernel
  exact ⟨σ, hreachable, hcommitted,
    atomic_of_reachable sampleTxn .gateway (fun _ => hprimary) hreachable hcommitted⟩

end TwoPhase

end RagnorDb
