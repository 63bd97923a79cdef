import RagnorDb.Storage.MvccInvariant
import RagnorDb.Tablet.Dispatch

/-!
# What applying an envelope does

`Applied` says once, case by case, what the delivery of an envelope answers and which
state it leaves.  The log of a tablet is the transition system whose actions are the
deliveries, in any order and any number of times.
-/

namespace RagnorDb

open Std Checked

namespace TabletStateMachine

variable {s s₁ s' : TabletStateMachine}
variable {id : LogicalCommandId} {u : Unit} {envelope : TabletCommandEnvelope}
  {a : Except TabletCommandApplyError TabletCommandApplyOutcome}

/-! ## Retry horizons -/

/-- The session's horizon has passed the request. -/
def Expired (s : TabletStateMachine) (id : LogicalCommandId) : Prop :=
  ∃ horizon, s.logicalClientRetryHorizons[id.sessionKey]? = some horizon ∧
    id.clientRequestId.requestSequence ≤ horizon

/-- The acknowledgement is below the session's horizon. -/
def Regresses (s : TabletStateMachine) (session : SessionKey) (acknowledged : Option Nat) : Prop :=
  ∃ ack horizon, acknowledged = some ack ∧
    s.logicalClientRetryHorizons[session]? = some horizon ∧ ack < horizon

/-- The state after an acknowledgement that does not regress. -/
inductive Acknowledged (s : TabletStateMachine) (session : SessionKey) :
    Option Nat → TabletStateMachine → Prop
  | absent : Acknowledged s session none s
  | known {ack : Nat} : s.logicalClientRetryHorizons[session]? = some ack →
      Acknowledged s session (some ack) s
  | raised {ack : Nat} :
      (∀ horizon, s.logicalClientRetryHorizons[session]? = some horizon → horizon < ack) →
      Acknowledged s session (some ack) (s.advanceHorizon session ack)

/-- The same MVCC store and transaction statuses. -/
structure SameData (s s' : TabletStateMachine) : Prop where
  tablet : s'.tablet = s.tablet
  statuses : s'.transactionStatuses = s.transactionStatuses

theorem SameData.refl (s : TabletStateMachine) : SameData s s := ⟨rfl, rfl⟩

theorem Acknowledged.sameData {session : SessionKey} {acknowledged : Option Nat}
    (h : Acknowledged s session acknowledged s₁) : SameData s s₁ := by
  cases h <;> exact ⟨rfl, rfl⟩

theorem applyRetryHorizon_cases (s : TabletStateMachine) (session : SessionKey)
    (acknowledged : Option Nat) :
    (∃ ack horizon, acknowledged = some ack ∧
        s.logicalClientRetryHorizons[session]? = some horizon ∧ ack < horizon ∧
        (applyRetryHorizon session acknowledged).run s =
          .error (.acknowledgementRegression session.clientId session.sessionEpoch horizon ack) s) ∨
      (¬ s.Regresses session acknowledged ∧
        ∃ s₁, (applyRetryHorizon session acknowledged).run s = .ok () s₁ ∧
          Acknowledged s session acknowledged s₁) := by
  cases acknowledged with
  | none => exact .inr ⟨by simp [Regresses], s, rfl, .absent⟩
  | some ack =>
    rw [applyRetryHorizon, get_bind_run]
    cases hh : s.logicalClientRetryHorizons[session]? with
    | none =>
      refine .inr ⟨by simp [Regresses, hh], _, rfl, .raised ?_⟩
      simp [hh]
    | some horizon =>
      by_cases hlt : ack < horizon
      · refine .inl ⟨ack, horizon, rfl, rfl, hlt, ?_⟩
        simp only [if_pos hlt]
        rfl
      · have hreg : ¬ s.Regresses session (some ack) := by
          simp only [Regresses, hh, eq_some]
          rintro ⟨_, _, rfl, rfl, hlt'⟩
          exact hlt hlt'
        by_cases heq : horizon = ack
        · refine .inr ⟨hreg, s, ?_, .known (by rw [hh, heq])⟩
          simp only [if_neg hlt, if_pos heq]
          rfl
        · refine .inr ⟨hreg, s.advanceHorizon session ack, ?_, .raised ?_⟩
          · simp only [if_neg hlt, if_neg heq]
            rfl
          · rintro horizon' hh'
            rw [hh] at hh'
            cases hh'
            omega

/-! ## Deliveries -/

/-- The answer to a repeated command. -/
def replayAnswer : CachedTabletCommandOutcome →
    Except TabletCommandApplyError TabletCommandApplyOutcome
  | .applied result => .ok ⟨result, true⟩
  | .rejected rejection => .error (errorFromCachedRejection rejection)

/-- The execution of a command for the first time. -/
inductive Executed (s : TabletStateMachine)
    (retain : TabletStateMachine → CachedTabletCommandOutcome → TabletStateMachine)
    (command : TabletCommand) :
    Except TabletCommandApplyError TabletCommandApplyOutcome → TabletStateMachine → Prop
  | applied {s' : TabletStateMachine} : Dispatched s command s' →
      Executed s retain command (.ok ⟨command.result, false⟩) (retain s' (.applied command.result))
  | rejected {e : TabletCommandApplyError} {rejection : CachedTabletCommandRejection} :
      cachedRejectionFromError e = some rejection →
      Executed s retain command (.error e) (retain s (.rejected rejection))
  | failed {e : TabletCommandApplyError} : cachedRejectionFromError e = none →
      Executed s retain command (.error e) s

theorem executed (s : TabletStateMachine)
    (retain : TabletStateMachine → CachedTabletCommandOutcome → TabletStateMachine)
    (command : TabletCommand) :
    Executed s retain command (answer (executeAndRetain retain command) s)
      (after (executeAndRetain retain command) s) := by
  unfold answer after
  simp only [EStateM.run, executeAndRetain]
  cases hrun : dispatchCommand command s with
  | ok =>
    obtain ⟨hd, rfl⟩ := Dispatched.of_run hrun
    exact .applied hd
  | error e =>
    cases atomic_dispatchCommand command _ _ _ hrun
    dsimp only
    cases hc : cachedRejectionFromError e with
    | some => exact .rejected hc
    | none => exact .failed hc

/-- What the delivery of an envelope answers, and the state after it. -/
inductive Applied (s : TabletStateMachine) (envelope : TabletCommandEnvelope) :
    Except TabletCommandApplyError TabletCommandApplyOutcome → TabletStateMachine → Prop
  | refused {e : TabletCommandApplyError} : s.validateProposal envelope = .error e →
      Applied s envelope (.error e) s
  | regressed {id : LogicalCommandId} {ack horizon : Nat} : s.validateProposal envelope = .ok () →
      envelope.logicalCommandId = some id → envelope.acknowledgedThrough = some ack →
      s.logicalClientRetryHorizons[id.sessionKey]? = some horizon → ack < horizon →
      Applied s envelope (.error (.acknowledgementRegression id.sessionKey.clientId
        id.sessionKey.sessionEpoch horizon ack)) s
  | expired {id : LogicalCommandId} {s₁ : TabletStateMachine} {horizon : Nat} :
      s.validateProposal envelope = .ok () →
      envelope.logicalCommandId = some id →
      ¬ s.Regresses id.sessionKey envelope.acknowledgedThrough →
      Acknowledged s id.sessionKey envelope.acknowledgedThrough s₁ →
      s₁.logicalClientRetryHorizons[id.sessionKey]? = some horizon →
      id.clientRequestId.requestSequence ≤ horizon →
      Applied s envelope (.error (.requestIdExpired id.clientRequestId.clientId
        id.clientRequestId.sessionEpoch id.clientRequestId.requestSequence horizon)) s₁
  | replayed {id : LogicalCommandId} {s₁ : TabletStateMachine} {d : ClientDeduplicationState} :
      s.validateProposal envelope = .ok () →
      envelope.logicalCommandId = some id →
      ¬ s.Regresses id.sessionKey envelope.acknowledgedThrough →
      Acknowledged s id.sessionKey envelope.acknowledgedThrough s₁ → ¬ s₁.Expired id →
      s₁.logicalCommandDeduplication[id]? = some d →
      Applied s envelope (replayAnswer d.cachedOutcome) s₁
  | executed {id : LogicalCommandId} {s₁ s' : TabletStateMachine}
      {answer : Except TabletCommandApplyError TabletCommandApplyOutcome} :
      s.validateProposal envelope = .ok () →
      envelope.logicalCommandId = some id →
      ¬ s.Regresses id.sessionKey envelope.acknowledgedThrough →
      Acknowledged s id.sessionKey envelope.acknowledgedThrough s₁ → ¬ s₁.Expired id →
      s₁.logicalCommandDeduplication[id]? = none →
      Executed s₁ (retainLogical id) envelope.command answer s' →
      Applied s envelope answer s'
  | legacyReplayed {d : ClientDeduplicationState} : s.validateProposal envelope = .ok () →
      envelope.logicalCommandId = none →
      s.clientDeduplication[envelope.requestId.deduplicationKey]? = some d →
      d.lastSequenceApplied = envelope.requestId.sequence →
      Applied s envelope (replayAnswer d.cachedOutcome) s
  | legacyRefused {e : TabletCommandApplyError} : s.validateProposal envelope = .ok () →
      envelope.logicalCommandId = none →
      checkSequence envelope.requestId.clientId envelope.requestId.sequence
        s.clientDeduplication[envelope.requestId.deduplicationKey]? = .error e →
      Applied s envelope (.error e) s
  | legacyExecuted {s' : TabletStateMachine}
      {answer : Except TabletCommandApplyError TabletCommandApplyOutcome} :
      s.validateProposal envelope = .ok () →
      envelope.logicalCommandId = none →
      (∀ d, s.clientDeduplication[envelope.requestId.deduplicationKey]? = some d →
        d.lastSequenceApplied < envelope.requestId.sequence) →
      Executed s (retainClient envelope.requestId.deduplicationKey envelope.requestId.sequence)
        envelope.command answer s' →
      Applied s envelope answer s'

theorem checkExpired_eq_ok :
    checkExpired id s = .ok u ↔ ¬ s.Expired id := by
  unfold checkExpired Expired
  cases s.logicalClientRetryHorizons[id.sessionKey]? with
  | none | some => simp

theorem checkExpired_eq_error {horizon : Nat}
    (hh : s.logicalClientRetryHorizons[id.sessionKey]? = some horizon)
    (hle : id.clientRequestId.requestSequence ≤ horizon) :
    checkExpired id s = .error (.requestIdExpired id.clientRequestId.clientId
      id.clientRequestId.sessionEpoch id.clientRequestId.requestSequence horizon) := by
  simp only [checkExpired, hh, rejectIf, if_pos hle]

theorem replayOutcome_run (outcome : CachedTabletCommandOutcome) :
    answer (replayOutcome outcome) s = replayAnswer outcome ∧
      after (replayOutcome outcome) s = s := by
  cases outcome with
  | applied | rejected => exact ⟨rfl, rfl⟩

theorem lt_of_checkSequence {clientId : ClientId} {sequence : Nat}
    {existing : Option ClientDeduplicationState}
    (h : checkSequence clientId sequence existing = .ok u) {d : ClientDeduplicationState}
    (hd : existing = some d) : d.lastSequenceApplied < sequence := by
  cases hd
  simp only [checkSequence, eq_ok', checkedAdd, eq_some] at h
  omega

theorem applied (s : TabletStateMachine) (envelope : TabletCommandEnvelope) :
    Applied s envelope (answer (apply envelope) s) (after (apply envelope) s) := by
  unfold answer after
  rw [apply, get_bind_run]
  cases hval : s.validateProposal envelope with
  | error =>
    exact .refused hval
  | ok u =>
    rw [lift_bind_run_of_ok rfl]
    cases hid : envelope.logicalCommandId with
    | some id =>
      simp only [applyLogical]
      obtain ⟨ack, horizon, hack, hh, hlt, hrun⟩ | ⟨hreg, s₁, hrun, hs₁⟩ :=
        applyRetryHorizon_cases s id.sessionKey envelope.acknowledgedThrough
      · rw [bind_run_of_error hrun]
        exact .regressed hval hid hack hh hlt
      · rw [bind_run_of_ok hrun, get_bind_run]
        by_cases hexp : s₁.Expired id
        · obtain ⟨horizon, hh, hle⟩ := hexp
          rw [lift_bind_run_of_error (checkExpired_eq_error hh hle)]
          exact .expired hval hid hreg hs₁ hh hle
        · rw [lift_bind_run_of_ok (checkExpired_eq_ok (u := ()).mpr hexp)]
          cases hd : s₁.logicalCommandDeduplication[id]? with
          | some d =>
            change Applied s envelope (answer (replayOutcome d.cachedOutcome) s₁)
              (after (replayOutcome d.cachedOutcome) s₁)
            rw [(replayOutcome_run _).1, (replayOutcome_run _).2]
            exact .replayed hval hid hreg hs₁ hexp hd
          | none =>
            exact .executed hval hid hreg hs₁ hexp hd (executed s₁ _ _)
    | none =>
      simp only [applyLegacy, run_eq_ok]
      cases hd : s.clientDeduplication[envelope.requestId.deduplicationKey]?.filter
          (·.lastSequenceApplied = envelope.requestId.sequence) with
      | some d =>
        obtain ⟨hd, hseq⟩ := Option.filter_eq_some_iff.mp hd
        change Applied s envelope (answer (replayOutcome d.cachedOutcome) s)
          (after (replayOutcome d.cachedOutcome) s)
        rw [(replayOutcome_run _).1, (replayOutcome_run _).2]
        exact .legacyReplayed hval hid hd (of_decide_eq_true hseq)
      | none =>
        cases hcheck : checkSequence envelope.requestId.clientId envelope.requestId.sequence
            s.clientDeduplication[envelope.requestId.deduplicationKey]? with
        | error e =>
          exact .legacyRefused hval hid hcheck
        | ok u =>
          exact .legacyExecuted hval hid (fun d => lt_of_checkSequence hcheck)
            (executed s _ _)

/-- What a delivery does to the data: nothing, or the command is executed for the first
time. -/
inductive Effect (s : TabletStateMachine) (envelope : TabletCommandEnvelope) :
    Except TabletCommandApplyError TabletCommandApplyOutcome → TabletStateMachine → Prop
  | unchanged {a : Except TabletCommandApplyError TabletCommandApplyOutcome}
      {s' : TabletStateMachine} : SameData s s' → (∀ result, a ≠ .ok ⟨result, false⟩) →
      Effect s envelope a s'
  | dispatched {m m' s' : TabletStateMachine} : s.validateProposal envelope = .ok () →
      SameData s m → Dispatched m envelope.command m' → SameData m' s' →
      Effect s envelope (.ok ⟨envelope.command.result, false⟩) s'

theorem Executed.effect
    {retain : TabletStateMachine → CachedTabletCommandOutcome → TabletStateMachine}
    (h : Executed s₁ retain envelope.command a s') (hval : s.validateProposal envelope = .ok ())
    (hs₁ : SameData s s₁) (hretain : ∀ t outcome, SameData t (retain t outcome)) :
    Effect s envelope a s' := by
  cases h with
  | applied hd => exact .dispatched hval hs₁ hd (hretain _ _)
  | @rejected e rejection =>
    have hr := hretain s₁ (.rejected rejection)
    exact .unchanged ⟨hr.tablet.trans hs₁.tablet, hr.statuses.trans hs₁.statuses⟩ (by simp)
  | failed => exact .unchanged hs₁ (by simp)

theorem Applied.effect (h : Applied s envelope a s') : Effect s envelope a s' := by
  have hreplay : ∀ outcome result, replayAnswer outcome ≠ .ok ⟨result, false⟩ := by
    intro outcome result
    cases outcome <;> simp [replayAnswer]
  cases h with
  | refused | regressed | legacyRefused => exact .unchanged (.refl _) (by simp)
  | expired _ _ _ hack => exact .unchanged hack.sameData (by simp)
  | replayed _ _ _ hack => exact .unchanged hack.sameData (hreplay _)
  | executed hval _ _ hack _ _ hx => exact hx.effect hval hack.sameData fun _ _ => ⟨rfl, rfl⟩
  | legacyReplayed => exact .unchanged (.refl _) (hreplay _)
  | legacyExecuted hval _ _ hx => exact hx.effect hval (.refl _) fun _ _ => ⟨rfl, rfl⟩

/-! ## Logs -/

/-- The state machine of a new tablet under any log of envelopes. -/
def tabletLog : Lts TabletStateMachine TabletCommandEnvelope where
  init s := ∃ id tableId epoch group tablet, Tablet.new id tableId = .ok tablet ∧
    new tablet epoch group = .ok s
  step s envelope s' := after (apply envelope) s = s'

theorem Applied.of_step (h : tabletLog.step s envelope s') :
    ∃ a, answer (apply envelope) s = a ∧ Applied s envelope a s' :=
  ⟨_, rfl, h ▸ applied s envelope⟩

/-! A small tablet and deliveries of one client session to it. -/

/-- A new tablet of the table that `sampleKey` belongs to. -/
def sampleMachine : TabletStateMachine where
  tablet := ⟨1, 1, .new⟩
  epoch := 1
  raftGroupId := 1
  clientDeduplication := ∅
  logicalCommandDeduplication := ∅
  logicalClientRetryHorizons := ∅
  transactionStatuses := ∅

theorem sampleMachine_init : tabletLog.init sampleMachine :=
  ⟨1, 1, 1, 1, _, rfl, rfl⟩

def sampleCommand : TabletCommand :=
  .singleShardCommit ⟨5, 5, 6, [⟨InMemoryMvcc.sampleKey, none, .delete⟩]⟩

/-- A delivery of the request `sequence` of one session. -/
def sampleEnvelope (sequence acknowledged : Nat) (command : TabletCommand) :
    TabletCommandEnvelope where
  formatVersion := 2
  requestId := ⟨7, sequence, 1⟩
  tabletId := 1
  expectedEpoch := 1
  logicalCommandId := some ⟨⟨7, 1, sequence⟩, 1, .singleShardCommit⟩
  acknowledgedThrough := some acknowledged
  command

end TabletStateMachine

end RagnorDb
