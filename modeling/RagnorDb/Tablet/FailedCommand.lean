import RagnorDb.Tablet.CommittedEntry

/-!
# Failed commands

A command that fails leaves the rows and the transaction statuses of the tablet as they were.  It
may have moved the retry horizon of its own session, with the outcomes that the horizon covers, and
its rejection may have been retained.  An envelope that is malformed or sent to another tablet
changes nothing at all.
-/

namespace RagnorDb

open Std Checked

/-- The error says that the envelope is malformed or meant for another tablet, epoch or group. -/
def TabletCommandApplyError.isEnvelopeError : TabletCommandApplyError → Bool
  | .invalidEnvelope _ | .tabletIdMismatch _ _ | .tabletEpochMismatch _ _
  | .raftGroupMismatch _ _ => true
  | _ => false

/-- The error is one that the execution of a command can end with. -/
def TabletCommandApplyError.IsExecutionError (e : TabletCommandApplyError) : Prop :=
  e.isEnvelopeError = false

namespace TabletStateMachine

variable {s s₁ s' : TabletStateMachine}

theorem isExecutionError_mapDatabaseError (e : Error) : (mapDatabaseError e).IsExecutionError := by
  cases e <;> rfl

/-- What a delivery that fails may change: the retry horizon of one session, and deduplication
entries. -/
structure OnlyRetryState (s s' : TabletStateMachine) (session : Option SessionKey) : Prop where
  tablet : s'.tablet = s.tablet
  statuses : s'.transactionStatuses = s.transactionStatuses
  epoch : s'.epoch = s.epoch
  raftGroupId : s'.raftGroupId = s.raftGroupId
  horizons : ∀ other, session ≠ some other →
    s'.logicalClientRetryHorizons[other]? = s.logicalClientRetryHorizons[other]?

theorem OnlyRetryState.refl (s : TabletStateMachine) (session : Option SessionKey) :
    OnlyRetryState s s session :=
  ⟨rfl, rfl, rfl, rfl, fun _ _ => rfl⟩

theorem Acknowledged.onlyRetryState {session : SessionKey} {acknowledged : Option Nat}
    (h : Acknowledged s session acknowledged s₁) : OnlyRetryState s s₁ (some session) := by
  cases h with
  | absent | known => exact .refl s _
  | raised =>
    refine ⟨rfl, rfl, rfl, rfl, fun other hother => ?_⟩
    have hne : session ≠ other := fun heq => hother (congrArg some heq)
    simp [advanceHorizon, OrderedMap.getElem?_insert, hne]

theorem Executed.onlyRetryState {command : TabletCommand} {e : TabletCommandApplyError}
    {session : Option SessionKey}
    {retain : TabletStateMachine → CachedTabletCommandOutcome → TabletStateMachine}
    (h : Executed s₁ retain command (.error e) s') (hs₁ : OnlyRetryState s s₁ session)
    (hretain : ∀ outcome, OnlyRetryState s (retain s₁ outcome) session) :
    OnlyRetryState s s' session := by
  cases h with
  | rejected => exact hretain _
  | failed => exact hs₁

/-- A command that fails leaves the rows and the statuses of the tablet as they were, and moves no
retry horizon but that of its own session.  An envelope that is refused before its command is
looked up, as one that is malformed or meant for another tablet is, changes nothing at all. -/
theorem failed_command_keeps_data {envelope : TabletCommandEnvelope} {e : TabletCommandApplyError}
    (h : (apply envelope).run s = .error e s') :
    OnlyRetryState s s' (envelope.logicalCommandId.map LogicalCommandId.sessionKey) ∧
      (∀ e', s.validateProposal envelope = .error e' → s' = s) ∧
      (e.isEnvelopeError = true → s' = s) := by
  have happlied := applied s envelope
  have hanswer : answer (apply envelope) s = .error e := by rw [answer, h]
  have hafter : after (apply envelope) s = s' := by rw [after, h]
  have hrefused : ∀ e', s.validateProposal envelope = .error e' → s' = s := by
    intro e' he'
    rw [← hafter, after, apply, get_bind_run, lift_bind_run_of_error he']
  rw [hanswer, hafter] at happlied
  refine ⟨?_, hrefused, ?_⟩
  · generalize herror : Except.error e = result at happlied
    cases happlied with
    | refused | regressed => exact .refl s _
    | expired _ hid _ hack | replayed _ hid _ hack =>
      rw [hid]
      exact hack.onlyRetryState
    | executed _ hid _ hack _ _ hx =>
      subst herror
      rw [hid]
      have hs₁ := hack.onlyRetryState
      exact hx.onlyRetryState hs₁ fun _ =>
        ⟨hs₁.tablet, hs₁.statuses, hs₁.epoch, hs₁.raftGroupId, hs₁.horizons⟩
    | legacyReplayed | legacyRefused => exact .refl s _
    | legacyExecuted _ _ _ hx =>
      subst herror
      exact hx.onlyRetryState (.refl s _) fun _ => ⟨rfl, rfl, rfl, rfl, fun _ _ => rfl⟩
  · intro henvelope
    cases hval : s.validateProposal envelope with
    | error e' => exact hrefused e' hval
    | ok =>
      have hexecution : FailsWith TabletCommandApplyError.IsExecutionError
          (answer (apply envelope) s) := by
        refine failsWith_apply hval (fun e he => ?_) fun _ _ =>
          failsWith_dispatchCommand (fun _ => rfl) (fun e _ => isExecutionError_mapDatabaseError e)
            (.inl ⟨isExecutionError_mapDatabaseError, fun _ => rfl⟩)
        obtain ⟨hdeterministic, hrouting⟩ := he
        cases e with
        | raftGroupMismatch | tabletIdMismatch | tabletEpochMismatch => cases hrouting
        | invalidEnvelope => cases hdeterministic
        | _ => rfl
      have hnot := hexecution e hanswer
      rw [TabletCommandApplyError.IsExecutionError, henvelope] at hnot
      cases hnot

/-- A commit that is rejected for a later one of the row, and acknowledges that one. -/
theorem failed_command_keeps_data_sample :
    let s := after (apply (sampleEnvelope 1 0 sampleCommand)) sampleMachine
    let later := sampleEnvelope 2 1 (TabletCommandApplier.laterCommand 4 4 8)
    ∃ e s', (apply later).run s = .error e s' ∧ s' ≠ s ∧
      s'.tablet = s.tablet ∧ s'.transactionStatuses = s.transactionStatuses := by
  intro s later
  have hfails : (answer (apply later) s).isOk = false := by decide +kernel
  have hmoves : after (apply later) s ≠ s := by decide +kernel
  rw [answer] at hfails
  rw [after] at hmoves
  cases hrun : (apply later).run s with
  | ok =>
    rw [hrun] at hfails
    cases hfails
  | error e s' =>
    rw [hrun] at hmoves
    obtain ⟨hkeeps, -⟩ := failed_command_keeps_data hrun
    exact ⟨e, s', rfl, hmoves, hkeeps.tablet, hkeeps.statuses⟩

end TabletStateMachine

end RagnorDb
