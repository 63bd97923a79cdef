import RagnorDb.Tablet.Outcome

/-!
# The decision of a transaction

The status record of a transaction is published pending and leaves that state once.  A
commit publishes the committed record together with the outcome of the primary key.  An
aborted record says that the primary key was not committed: a commit of the primary key
has to carry the committed record, but a single-shard commit and the resolution of an
intent do not look at the record.
-/

namespace RagnorDb

open Std Checked OrderedMap InMemoryMvcc

variable {u : Unit}

/-! ## Records -/

/-- A value that is set does not go back. -/
def OptionLe (before after : Option Nat) : Prop :=
  ∀ n, before = some n → ∃ n', after = some n' ∧ n ≤ n'

theorem OptionLe.trans {a b c : Option Nat} (hab : OptionLe a b) (hbc : OptionLe b c) :
    OptionLe a c := by
  intro n hn
  obtain ⟨n', hn', hle⟩ := hab n hn
  obtain ⟨n'', hn'', hle'⟩ := hbc n' hn'
  exact ⟨n'', hn'', by omega⟩

namespace TxnStatusRecord

/-- A pending record may give way to one of the same transaction, and a pending one keeps
its lease. -/
structure Advances (before after : TxnStatusRecord) : Prop where
  pending : before.status = .pending
  txnId : after.txnId = before.txnId
  startTimestamp : after.startTimestamp = before.startTimestamp
  primaryKey : after.primaryKey = before.primaryKey
  participants : after.participantTabletIds = before.participantTabletIds
  lease : after.status = .pending → OptionLe before.leaseDeadlineMs after.leaseDeadlineMs
  heartbeat : after.status = .pending →
    OptionLe before.lastHeartbeatTimestamp after.lastHeartbeatTimestamp

variable {r r' r'' : TxnStatusRecord}

theorem Advances.trans (h : r.Advances r') (h' : r'.Advances r'') : r.Advances r'' where
  pending := h.pending
  txnId := h'.txnId.trans h.txnId
  startTimestamp := h'.startTimestamp.trans h.startTimestamp
  primaryKey := h'.primaryKey.trans h.primaryKey
  participants := h'.participants.trans h.participants
  lease hpending := (h.lease h'.pending).trans (h'.lease hpending)
  heartbeat hpending := (h.heartbeat h'.pending).trans (h'.heartbeat hpending)

theorem Advances.of_decision (hpending : r.status = .pending)
    (hsame : TabletStateMachine.sameStatusIdentity r r' = true) (hdecided : r'.status ≠ .pending) :
    r.Advances r' := by
  obtain ⟨htxn, hstart, hpk, hparts⟩ := TabletStateMachine.sameStatusIdentity_eq_true.mp hsame
  exact ⟨hpending, htxn.symm, hstart.symm, hpk.symm, hparts.symm, fun h => absurd h hdecided,
    fun h => absurd h hdecided⟩

theorem advances_expired (hpending : r.status = .pending) :
    r.Advances (TabletStateMachine.expiredStatus r) where
  pending := hpending
  txnId := rfl
  startTimestamp := rfl
  primaryKey := rfl
  participants := rfl
  lease h := by cases h
  heartbeat h := by cases h

end TxnStatusRecord

/-- A heartbeat extends the lease and advances the heartbeat. -/
theorem HeartbeatTransactionStatus.advances {command : HeartbeatTransactionStatus}
    (h : command.validate = .ok u) : command.expectedStatus.Advances command.nextStatus := by
  obtain ⟨hpending, -, hsame⟩ := validate_identity h
  simp only [sameTransactionStatusIdentity, decide_eq_true_eq] at hsame
  obtain ⟨htxn, hstart, hpk, hparts⟩ := hsame
  simp only [validate, eq_ok'] at h
  obtain ⟨-, -, -, -, -, -, -, deadline, hdeadline, -, deadline', hdeadline', hle, heartbeat',
    hheartbeat', hlt⟩ := h
  constructor
  case pending => exact hpending
  case txnId => exact htxn.symm
  case startTimestamp => exact hstart.symm
  case primaryKey => exact hpk.symm
  case participants => exact hparts.symm
  case lease =>
    intro _ n hn
    cases hdeadline.symm.trans hn
    exact ⟨deadline', hdeadline', Nat.not_lt.mp hle⟩
  case heartbeat =>
    intro _ n hn
    rw [hn, Option.getD_some] at hlt
    exact ⟨heartbeat', hheartbeat', Nat.le_of_not_le hlt⟩

theorem committedStatus_of_validate {command : CommitCommand} {next : TxnStatusRecord}
    (h : command.validate = .ok u) (hnext : command.committedStatus = some next) :
    next.status = .committed := by
  simp only [CommitCommand.validate, validateOptional, hnext, eq_ok'] at h
  tauto

namespace TabletStateMachine

variable {m m' : TabletStateMachine} {command : TabletCommand} {k : Bytes} {s t : Timestamp}
  {txnId : TxnId} {r r' : TxnStatusRecord} {envelope : TabletCommandEnvelope}

/-! ## One command -/

/-- A record after a command was there before, advances one that was there, or is the
pending record of a prewrite. -/
theorem Dispatched.record_cases (hd : Dispatched m command m')
    (hvalid : command.validate = .ok ()) (hr' : m'.transactionStatuses[txnId]? = some r') :
    m.transactionStatuses[txnId]? = some r' ∨
      (∃ r, m.transactionStatuses[txnId]? = some r ∧ r.Advances r') ∨
      m.transactionStatuses[txnId]? = none ∧ ∃ prewrite : PrewriteCommand,
        command = .prewrite prewrite ∧ prewrite.txnId = txnId ∧
          prewrite.pendingStatus = some r' := by
  rcases hd.statuses hvalid with hsame | ⟨next, hpublishes, hinsert, hidentity, -⟩
  · exact .inl (hsame ▸ hr')
  rw [hinsert] at hr'
  rcases getElem?_insert_eq_some.mp hr' with ⟨rfl, rfl⟩ | ⟨-, hold⟩
  · right
    cases hpublishes with
    | pending hnext htxn _ hnone => exact .inr ⟨hnone, _, rfl, htxn.symm, hnext⟩
    | committed hnext _ _ _ _ hexisting hpending =>
      have hdecided := committedStatus_of_validate hvalid hnext
      exact .inl ⟨_, hexisting, .of_decision hpending (hidentity _ hexisting) (by simp [hdecided])⟩
    | aborted haborted hexisting hpending =>
      exact .inl ⟨_, hexisting, .of_decision hpending (hidentity _ hexisting) (by simp [haborted])⟩
    | renewed _ _ hexpected =>
      exact .inl ⟨_, hexpected, HeartbeatTransactionStatus.advances hvalid⟩
    | expired hpending hexpected =>
      exact .inl ⟨_, hexpected, TxnStatusRecord.advances_expired hpending⟩
  · exact .inl hold

theorem Dispatched.claimedBy (hd : Dispatched m command m') (h : m.tablet.storage.Inv)
    (hc : (m.tablet.storage.cell k).ClaimedBy txnId s) :
    (m'.tablet.storage.cell k).ClaimedBy txnId s := by
  rcases hd.storage_cases with hsame | ⟨op, hx, -⟩
  · rw [hsame]
    exact hc
  · have ha := MvccOp.answered_of_exec h.cell h.noEmpty hx
    cases hcall : op.call k with
    | none =>
      rw [ha.frame hcall]
      exact hc
    | some => exact (h.cell k).claimedBy_answers (ha.answers hcall).2 hc

end TabletStateMachine

/-- The transaction whose intents or writes a command commits. -/
def TabletCommand.committer : TabletCommand → Option TxnId
  | .commit command | .singleShardCommit command | .resolveIntent command => some command.txnId
  | _ => none

namespace TabletStateMachine

variable {m m' : TabletStateMachine} {command : TabletCommand} {k : Bytes} {s t : Timestamp}
  {txnId : TxnId} {r r' : TxnStatusRecord} {envelope : TabletCommandEnvelope}

/-- The first commit of a claimed row is one of the transaction that has claimed it. -/
theorem Dispatched.committer_of_claimedBy (hd : Dispatched m command m') (h : m.tablet.storage.Inv)
    (hc : (m.tablet.storage.cell k).ClaimedBy txnId s) (hno : ∀ t, ¬ m.Committed k s t)
    (ht : m'.Committed k s t) : command.Commits k s t ∧ command.committer = some txnId := by
  have hcommits : command.Commits k s t :=
    ((hd.outcomes h).1.mp ht).resolve_left (hno t)
  refine ⟨hcommits, ?_⟩
  have howner : ∀ {op : MvccOp} {call : Cell.Call} {storage : InMemoryMvcc},
      op.exec.run m.tablet.storage = .ok () storage → op.call k = some call →
      call.startTs = s → call.commitTs? = some t → some call.txnId = some txnId := by
    intro op call storage hx hcall hs ht
    have ha := MvccOp.answered_of_exec h.cell h.noEmpty hx
    rw [(h.cell k).txnId_of_claimedBy (ha.answers hcall).2 hc hno hs ht]
  cases hd with
  | singleShardCommit hms hrun =>
    obtain ⟨hwrite, hs, ht⟩ := hcommits
    have hk := ((mem_of_collectMutations hms).1 k).mpr hwrite
    obtain ⟨mutation, hm⟩ := exists_of_mem hk
    exact howner hrun (congrArg (Option.map _) hm) hs (congrArg some ht)
  | commit hkeys _ hrun =>
    obtain ⟨hk, hs, ht⟩ := hcommits
    exact howner hrun (if_pos ((mem_of_validateOwnedKeys hkeys).mpr hk)) hs (congrArg some ht)
  | resolveCommitted hkeys _ hcommit hrun =>
    obtain ⟨hk, hs, -, ht⟩ := hcommits
    exact howner hrun (if_pos ((mem_of_validateOwnedKeys hkeys).mpr hk)) hs
      (hcommit.symm.trans ht)
  | resolveAborted _ hstatus => simp [TabletCommand.Commits, hstatus] at hcommits
  | noop | catalog | prewrite | rollback | publishAborted | heartbeat | expire | expireAgain =>
    cases hcommits

/-- The prewrite that publishes a record claims the primary key for the transaction. -/
theorem Dispatched.prewrite_claims {command : PrewriteCommand}
    (hd : Dispatched m (.prewrite command) m') (h : m.tablet.storage.Inv)
    (hr : command.pendingStatus = some r) :
    (m'.tablet.storage.cell r.primaryKey).ClaimedBy command.txnId r.startTimestamp ∧
      ∀ t, ¬ m'.Committed r.primaryKey r.startTimestamp t := by
  cases hd with
  | prewrite hms htransition hrun =>
    rw [hr] at htransition
    rcases validatePrewriteStatusTransition_eq_ok.mp htransition with ⟨hnone, -⟩ |
      ⟨next, hnext, -, -, hstart, -, hmem, -⟩
    · cases hnone
    · cases hnext
      obtain ⟨mutation, hm⟩ := exists_of_mem hmem
      have ha := MvccOp.answered_of_exec h.cell h.noEmpty hrun
      have hclaims := (h.cell r.primaryKey).prewrite_claims
        (ha.answers (congrArg (Option.map _) hm)).2
      rw [hstart]
      simpa only [Committed, published_tablet, setStorage_storage, prewriteLock]
        using hclaims

/-! ## One delivery -/

theorem dispatched_of_step (hstep : tabletLog.step m envelope m') :
    SameData m m' ∨ ∃ m₁ m₂, SameData m m₁ ∧ Dispatched m₁ envelope.command m₂ ∧
      SameData m₂ m' ∧ envelope.command.validate = .ok () := by
  obtain ⟨a, -, happlied⟩ := Applied.of_step hstep
  cases happlied.effect with
  | unchanged hsame => exact .inl hsame
  | @dispatched m₁ m₂ _ hval hm₁ hd hm₂ =>
    obtain ⟨henvelope, -⟩ := validateProposal_eq_ok.mp hval
    exact .inr ⟨m₁, m₂, hm₁, hd, hm₂, (envelope_validate henvelope).2.2⟩

/-- Every record stays in place or gives way to one that it may give way to. -/
def RecordsAdvance (m m' : TabletStateMachine) : Prop :=
  ∀ (txnId : TxnId) (r : TxnStatusRecord), m.transactionStatuses[txnId]? = some r →
    ∃ r', m'.transactionStatuses[txnId]? = some r' ∧ (r' = r ∨ r.Advances r')

theorem RecordsAdvance.refl (m : TabletStateMachine) : RecordsAdvance m m :=
  fun _ r hr => ⟨r, hr, .inl rfl⟩

theorem RecordsAdvance.trans {m'' : TabletStateMachine} (h : RecordsAdvance m m')
    (h' : RecordsAdvance m' m'') : RecordsAdvance m m'' := by
  intro txnId r hr
  obtain ⟨r', hr', hadvances⟩ := h txnId r hr
  obtain ⟨r'', hr'', hadvances'⟩ := h' txnId r' hr'
  refine ⟨r'', hr'', ?_⟩
  rcases hadvances' with rfl | hadvances'
  · exact hadvances
  · rcases hadvances with rfl | hadvances
    · exact .inr hadvances'
    · exact .inr (hadvances.trans hadvances')

theorem recordsAdvance_of_step (hstep : tabletLog.step m envelope m') : RecordsAdvance m m' := by
  intro txnId r hr
  rcases dispatched_of_step hstep with hsame | ⟨m₁, m₂, hm₁, hd, hm₂, hvalid⟩
  · exact ⟨r, hsame.statuses ▸ hr, .inl rfl⟩
  · rw [hm₂.statuses]
    rw [← hm₁.statuses] at hr
    have hmem : (m₂.transactionStatuses[txnId]?).isSome = true := by
      rcases hd.statuses hvalid with hsame | ⟨next, -, hinsert, -⟩
      · simp [hsame, hr]
      · rw [hinsert, getElem?_insert]
        split
        · rfl
        · simp [hr]
    obtain ⟨r', hr'⟩ := Option.isSome_iff_exists.mp hmem
    refine ⟨r', hr', ?_⟩
    rcases hd.record_cases hvalid hr' with hold | ⟨r₀, hr₀, hadvances⟩ | ⟨hnone, -⟩
    · exact .inl (Option.some.inj (hold.symm.trans hr))
    · cases hr₀.symm.trans hr
      exact .inr hadvances
    · rw [hnone] at hr
      cases hr

theorem committed_of_step (h : m.Inv) (hstep : tabletLog.step m envelope m')
    (hr' : m'.transactionStatuses[txnId]? = some r') (hdecided : r'.status = .committed)
    (hnew : m.transactionStatuses[txnId]? ≠ some r') :
    ∃ c, r'.commitTimestamp = some c ∧ m'.Committed r'.primaryKey r'.startTimestamp c := by
  obtain ⟨a, -, happlied⟩ := Applied.of_step hstep
  rcases happlied.executes h.storage with ⟨hsame, -⟩ | ⟨hx, -⟩
  · exact absurd (hsame.statuses ▸ hr') hnew
  · generalize envelope.command = command at hx
    obtain ⟨-, hpublishes⟩ := (hx.status_cases hr').resolve_left hnew
    cases hpublishes with
    | committed _ _ hstart hcommit hpk =>
      exact ⟨_, hcommit, hx.committed.mpr (.inr ⟨hpk, hstart.symm, rfl⟩)⟩
    | pending _ _ hpending | renewed _ hpending => simp [hpending] at hdecided
    | aborted haborted => simp [haborted] at hdecided
    | expired => cases hdecided

/-! ## The primary key of an undecided transaction -/

/-- The stored record of the transaction is committed, where the keys name its primary key. -/
def PrimaryDecided (m : TabletStateMachine) (txnId : TxnId) (startTs : Timestamp)
    (keys : List Bytes) : Prop :=
  ∀ r ∈ m.transactionStatuses[txnId]?, r.startTimestamp = startTs → r.primaryKey ∈ keys →
    r.status = .committed

/-- A command that commits rows without looking at the status records finds the record of a
primary key committed. -/
def RespectsDecision (m : TabletStateMachine) : TabletCommand → Prop
  | .singleShardCommit command =>
    m.PrimaryDecided command.txnId command.startTimestamp (command.writes.map (·.key))
  | .resolveIntent command =>
    command.resolvedStatus = .committed →
      m.PrimaryDecided command.txnId command.startTimestamp command.keys
  | _ => True

/-- The logs whose commands respect the decisions. -/
def decidedLog : Lts TabletStateMachine TabletCommandEnvelope :=
  tabletLog.restrict fun m envelope => m.RespectsDecision envelope.command

/-- The primary key of a transaction that is not committed is claimed by it, and holds no
committed record of it. -/
def PrimaryOpen (m : TabletStateMachine) : Prop :=
  ∀ txnId r, m.transactionStatuses[txnId]? = some r → r.status ≠ .committed →
    (m.tablet.storage.cell r.primaryKey).ClaimedBy txnId r.startTimestamp ∧
      ∀ t, ¬ m.Committed r.primaryKey r.startTimestamp t

theorem SameData.primaryOpen (h : SameData m m') (hopen : m.PrimaryOpen) : m'.PrimaryOpen := by
  intro txnId r hr hne
  rw [h.statuses] at hr
  obtain ⟨hclaimed, hno⟩ := hopen _ _ hr hne
  exact ⟨h.tablet ▸ hclaimed, fun t ht => hno t (h.committed.mp ht)⟩

section

variable (hd : Dispatched m command m') (h : m.tablet.storage.Inv)
  (hvalid : command.validate = .ok ())
include hd h hvalid

/-- A record that stays uncommitted keeps its primary key uncommitted. -/
theorem Dispatched.not_committed (hopen : m.PrimaryOpen) (hcond : m.RespectsDecision command)
    (hr : m.transactionStatuses[txnId]? = some r) (hne : r.status ≠ .committed)
    (hr' : m'.transactionStatuses[txnId]? = some r') (hne' : r'.status ≠ .committed) :
    ¬ m'.Committed r.primaryKey r.startTimestamp t := by
  intro ht
  obtain ⟨hclaimed, hno⟩ := hopen _ _ hr hne
  obtain ⟨hcommits, hcommitter⟩ := hd.committer_of_claimedBy h hclaimed hno ht
  cases command with
  | singleShardCommit =>
    cases hcommitter
    obtain ⟨hwrite, hs, -⟩ := hcommits
    exact hne (hcond r hr hs.symm (List.mem_map.mpr hwrite))
  | resolveIntent =>
    cases hcommitter
    obtain ⟨hk, hs, hstatus, -⟩ := hcommits
    exact hne (hcond hstatus r hr hs.symm hk)
  | commit command =>
    cases hcommitter
    cases hstatus : command.committedStatus with
    | some =>
      -- The commit has published the committed record.
      cases (hd.status_of_commit hstatus).symm.trans hr'
      exact hne' (committedStatus_of_validate hvalid hstatus)
    | none =>
      cases hd with
      | commit hkeys htransition =>
        rw [hstatus] at htransition
        rcases validateCommitStatusTransition_eq_ok.mp htransition with
          ⟨-, -, habsent⟩ | ⟨next, -, hnext, -⟩
        · exact habsent r hr ((mem_of_validateOwnedKeys hkeys).mpr hcommits.1)
        · cases hnext
  | _ => cases hcommits

theorem Dispatched.primaryOpen (hcond : m.RespectsDecision command) (hopen : m.PrimaryOpen) :
    m'.PrimaryOpen := by
  intro txnId r' hr' hne'
  rcases hd.record_cases hvalid hr' with hr | ⟨r, hr, hadvances⟩ | ⟨-, prewrite, rfl, rfl, hr⟩
  · have hclaimed := (hopen _ _ hr hne').1
    exact ⟨hd.claimedBy h hclaimed,
      fun t => hd.not_committed h hvalid hopen hcond hr hne' hr' hne'⟩
  · have hne : r.status ≠ .committed := by simp [hadvances.pending]
    have hclaimed := (hopen _ _ hr hne).1
    rw [hadvances.primaryKey, hadvances.startTimestamp]
    exact ⟨hd.claimedBy h hclaimed,
      fun t => hd.not_committed h hvalid hopen hcond hr hne hr' hne'⟩
  · exact hd.prewrite_claims h hr

end

theorem SameData.respectsDecision (h : SameData m m') (hcond : m.RespectsDecision command) :
    m'.RespectsDecision command := by
  unfold RespectsDecision PrimaryDecided at *
  rw [h.statuses]
  exact hcond

theorem primaryOpen_of_reachable (h : decidedLog.Reachable m) : m.Inv ∧ m.PrimaryOpen := by
  refine h.invariant (P := fun m => m.Inv ∧ m.PrimaryOpen) ?_ ?_
  · intro m hinit
    refine ⟨inv_of_init hinit, ?_⟩
    intro txnId r hr
    obtain ⟨id, tableId, epoch, group, tablet, -, hnew⟩ := hinit
    simp only [new, eq_ok'] at hnew
    obtain ⟨-, -, rfl⟩ := hnew
    simp at hr
  · rintro m envelope m' - ⟨hinv, hopen⟩ ⟨hcond, hstep⟩
    refine ⟨hinv.step hstep, ?_⟩
    rcases dispatched_of_step hstep with hsame | ⟨m₁, m₂, hm₁, hd, hm₂, hvalid⟩
    · exact hsame.primaryOpen hopen
    · have hstorage : m₁.tablet.storage.Inv := by
        rw [hm₁.tablet]
        exact hinv.storage
      exact hm₂.primaryOpen
        (hd.primaryOpen hstorage hvalid (hm₁.respectsDecision hcond) (hm₁.primaryOpen hopen))

/-! ## Every log -/

/-- The status record of a transaction is a one-way decision.  Along every log a record that
is published stays, and only a pending one gives way, to a record of the same transaction
and without loss of its lease; a committed record is published only together with the
outcome of the primary key.  Where the commands respect the decisions, the primary key of
an aborted transaction has no committed record of it. -/
theorem status_decides_once {log : List TabletCommandEnvelope} (hm : tabletLog.Reachable m)
    (h : tabletLog.Steps m log m') :
    RecordsAdvance m m' ∧
    (∀ envelope m'' (txnId : TxnId) (r : TxnStatusRecord), tabletLog.step m' envelope m'' →
      m''.transactionStatuses[txnId]? = some r → r.status = .committed →
      m'.transactionStatuses[txnId]? ≠ some r →
      ∃ c, r.commitTimestamp = some c ∧ m''.Committed r.primaryKey r.startTimestamp c) ∧
    (decidedLog.Reachable m' → ∀ (txnId : TxnId) (r : TxnStatusRecord),
      m'.transactionStatuses[txnId]? = some r → r.status = .aborted →
      ∀ t, ¬ m'.Committed r.primaryKey r.startTimestamp t) := by
  refine ⟨?_, ?_, ?_⟩
  · exact h.relates .refl .trans (fun _ hstep => recordsAdvance_of_step hstep) hm
  · intro envelope m'' txnId r hstep hr hdecided hnew
    exact committed_of_step (inv_of_reachable (hm.steps h)) hstep hr hdecided hnew
  · intro hdecided txnId r hr haborted
    exact ((primaryOpen_of_reachable hdecided).2 txnId r hr (by simp [haborted])).2

/-- The record of a transaction that starts at 5 and writes one key. -/
def sampleStatus (status : TxnStatus) : TxnStatusRecord :=
  ⟨5, 5, none, status, sampleKey, [1], none, none⟩

def samplePrewrite : TabletCommand :=
  .prewrite ⟨5, 5, [⟨sampleKey, none, .delete⟩], sampleKey, 1000,
    some (sampleStatus .pending)⟩

def sampleAbort : TabletCommand :=
  .publishAbortedTransactionStatus ⟨sampleStatus .aborted⟩

def sampleResolve : TabletCommand :=
  .resolveIntent ⟨5, 5, [sampleKey], .committed, some 6⟩

/-- A prewritten transaction is aborted and then rolled back. -/
theorem status_decides_once_sample :
    let m := after (apply (sampleEnvelope 1 0 samplePrewrite)) sampleMachine
    let m₁ := after (apply (sampleEnvelope 2 0 sampleAbort)) m
    let rollback := sampleEnvelope 3 0 (.rollback ⟨5, 5, [sampleKey]⟩)
    let m₂ := after (apply rollback) m₁
    m.transactionStatuses[(5 : TxnId)]? = some (sampleStatus .pending) ∧
      m₂.transactionStatuses[(5 : TxnId)]? = some (sampleStatus .aborted) ∧
      (sampleStatus .pending).Advances (sampleStatus .aborted) ∧
      ∀ t, ¬ m₂.Committed sampleKey 5 t := by
  intro m m₁ rollback m₂
  have hm : decidedLog.Reachable m :=
    ⟨_, [sampleEnvelope 1 0 samplePrewrite], sampleMachine_init, .single ⟨trivial, rfl⟩⟩
  have hsteps : decidedLog.Steps m [sampleEnvelope 2 0 sampleAbort, rollback] m₂ :=
    .cons ⟨trivial, rfl⟩ (.single ⟨trivial, rfl⟩)
  have hpending : m.transactionStatuses[(5 : TxnId)]? = some (sampleStatus .pending) := by
    decide +kernel
  have haborted : m₂.transactionStatuses[(5 : TxnId)]? = some (sampleStatus .aborted) := by
    decide +kernel
  have hreachable : tabletLog.Reachable m :=
    ⟨_, _, sampleMachine_init, .single rfl⟩
  obtain ⟨hadvances, -, huncommitted⟩ := status_decides_once hreachable hsteps.of_restrict
  obtain ⟨r', hr', hadvances⟩ := hadvances _ _ hpending
  cases haborted.symm.trans hr'
  refine ⟨hpending, haborted, hadvances.resolve_left (by decide), ?_⟩
  exact huncommitted (hm.steps hsteps) _ _ haborted rfl

/-- The resolution of the intent on the primary key commits an aborted transaction. -/
theorem aborted_primary_committed :
    let m := after (apply (sampleEnvelope 1 0 samplePrewrite)) sampleMachine
    let m₁ := after (apply (sampleEnvelope 2 0 sampleAbort)) m
    let m₂ := after (apply (sampleEnvelope 3 0 sampleResolve)) m₁
    tabletLog.Reachable m₂ ∧
      m₂.transactionStatuses[(5 : TxnId)]? = some (sampleStatus .aborted) ∧
      m₂.Committed sampleKey 5 6 := by
  intro m m₁ m₂
  refine ⟨⟨_, _, sampleMachine_init, .cons rfl (.cons rfl (.single rfl))⟩, by decide +kernel, ?_⟩
  have hwrite : m₂.tablet.storage.writes.lookup sampleKey 6 =
      some ⟨5, 6, .delete⟩ := by
    decide +kernel
  exact ⟨_, hwrite, rfl, by decide⟩

end TabletStateMachine

end RagnorDb
