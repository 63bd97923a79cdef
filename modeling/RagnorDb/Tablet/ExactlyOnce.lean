import RagnorDb.Tablet.Apply

/-!
# Exactly-once application

Once a delivery of an identity has changed the MVCC store or the transaction statuses, its
outcome is retained or its session's retry horizon has passed it, in every later state.
The former answers a later delivery from the cache, the latter refuses it.
-/

namespace RagnorDb

open Std Checked OrderedMap

/-- The identity that a delivery is deduplicated by: the logical command, or the client
and its sequence number. -/
def TabletCommandEnvelope.identity (self : TabletCommandEnvelope) :
    LogicalCommandId ⊕ ClientDeduplicationKey × Nat :=
  match self.logicalCommandId with
  | some id => .inl id
  | none => .inr (self.requestId.deduplicationKey, self.requestId.sequence)

namespace TabletStateMachine

variable {s s₁ s₂ s' : TabletStateMachine} {envelope first later : TabletCommandEnvelope}
  {id : LogicalCommandId}
variable {d : ClientDeduplicationState} {command : TabletCommand} {key : ClientDeduplicationKey}
  {sequence : Nat} {identity : LogicalCommandId ⊕ ClientDeduplicationKey × Nat}
  {log : List TabletCommandEnvelope}

/-! ## Acknowledgements -/

section Acknowledgement

variable {session : SessionKey} {acknowledged : Option Nat}

section

variable (h : Acknowledged s session acknowledged s₁)
include h

theorem Acknowledged.clients : s₁.clientDeduplication = s.clientDeduplication := by
  cases h <;> rfl

/-- A horizon passes a request when it is known to have passed it or the acknowledgement
covers it. -/
theorem Acknowledged.expired_iff : s₁.Expired id ↔
      s.Expired id ∨ id.sessionKey = session ∧
        ∃ ack, acknowledged = some ack ∧ id.clientRequestId.requestSequence ≤ ack := by
  cases h with
  | absent => simp
  | known hack =>
    refine ⟨.inl, ?_⟩
    rintro (hexp | ⟨rfl, ack, ⟨⟩, hle⟩)
    · exact hexp
    · exact ⟨_, hack, hle⟩
  | @raised ack hlt =>
    simp only [Expired, advanceHorizon, getElem?_insert, eq_some, exists_eq_left']
    by_cases hsession : session = id.sessionKey
    · subst hsession
      simp only [if_pos, eq_some, exists_eq_left', true_and]
      refine ⟨.inr, ?_⟩
      rintro (⟨horizon, hh, hle⟩ | hle)
      · exact Nat.le_trans hle (Nat.le_of_lt (hlt horizon hh))
      · exact hle
    · simp [hsession, eq_comm (a := id.sessionKey)]

theorem Acknowledged.retained (hd : s.logicalCommandDeduplication[id]? = some d) :
    s₁.logicalCommandDeduplication[id]? = some d ∨ s₁.Expired id := by
  cases h with
  | absent | known => exact .inl hd
  | @raised ack hlt =>
    by_cases hkeep : id.sessionKey ≠ session ∨ id.clientRequestId.requestSequence > ack
    · left
      rw [advanceHorizon, ExtTreeMap.getElem?_filter', hd, Option.filter_some,
        if_pos (decide_eq_true hkeep)]
    · right
      rw [(Acknowledged.raised hlt).expired_iff]
      simp only [eq_ok, Nat.not_lt] at hkeep
      exact .inr ⟨hkeep.1, ack, rfl, hkeep.2⟩

end

end Acknowledgement

/-! ## Settled identities -/

/-- The outcome is retained, or the horizon has passed the request. -/
def Retained (s : TabletStateMachine) (id : LogicalCommandId) (d : ClientDeduplicationState) :
    Prop :=
  s.logicalCommandDeduplication[id]? = some d ∨ s.Expired id

theorem Retained.acknowledged {session : SessionKey} {acknowledged : Option Nat}
    (h : s.Retained id d) (hack : Acknowledged s session acknowledged s₁) : s₁.Retained id d := by
  rcases h with hd | hexp
  · exact hack.retained hd
  · exact .inr (hack.expired_iff.mpr (.inl hexp))

theorem Retained.dispatched
    (h : s.Retained id d) (hd : Dispatched s command s') : s'.Retained id d := by
  unfold Retained Expired
  rw [hd.sameTables.logical, hd.sameTables.horizons]
  exact h

/-- The outcome of an execution is retained under an identity that had none. -/
theorem Retained.executed_logical {id' : LogicalCommandId}
    {answer : Except TabletCommandApplyError TabletCommandApplyOutcome} (h : s.Retained id d)
    (hnone : s.logicalCommandDeduplication[id']? = none)
    (hx : Executed s (retainLogical id') command answer s') : s'.Retained id d := by
  have hinsert : ∀ {t : TabletStateMachine} {outcome}, t.Retained id d →
      t.logicalCommandDeduplication[id']? = none → (retainLogical id' t outcome).Retained id d := by
    intro t outcome ht htnone
    rcases ht with hd | hexp
    · left
      rw [retainLogical, getElem?_insert, if_neg, hd]
      rintro rfl
      rw [hd] at htnone
      cases htnone
    · exact .inr hexp
  cases hx with
  | applied hd =>
    refine hinsert (h.dispatched hd) ?_
    rw [hd.sameTables.logical, hnone]
  | rejected => exact hinsert h hnone
  | failed => exact h

theorem Retained.executed_legacy
    {answer : Except TabletCommandApplyError TabletCommandApplyOutcome} (h : s.Retained id d)
    (hx : Executed s (retainClient key sequence) command answer s') : s'.Retained id d := by
  cases hx with
  | applied hd =>
    have hs' := h.dispatched hd
    exact hs'
  | rejected | failed => exact h

theorem Retained.step (h : s.Retained id d)
    (hstep : tabletLog.step s envelope s') : s'.Retained id d := by
  obtain ⟨a, -, happlied⟩ := Applied.of_step hstep
  cases happlied with
  | refused | regressed => exact h
  | expired _ _ _ hack | replayed _ _ _ hack => exact h.acknowledged hack
  | executed _ _ _ hack _ hnone hx => exact (h.acknowledged hack).executed_logical hnone hx
  | legacyReplayed | legacyRefused => exact h
  | legacyExecuted _ _ _ hx => exact h.executed_legacy hx

/-- No delivery of the identity can execute a command any more. -/
def Settled (s : TabletStateMachine) : LogicalCommandId ⊕ ClientDeduplicationKey × Nat → Prop
  | .inl id => ∃ d, s.Retained id d
  | .inr (key, sequence) => ∃ d, s.clientDeduplication[key]? = some d ∧
      sequence ≤ d.lastSequenceApplied

/-- The sequence that a client has reached only grows. -/
theorem clients_of_executed {key' : ClientDeduplicationKey} {sequence' : Nat}
    {answer : Except TabletCommandApplyError TabletCommandApplyOutcome}
    (h : ∃ d, s.clientDeduplication[key]? = some d ∧ sequence ≤ d.lastSequenceApplied)
    (hnew : ∀ d, s.clientDeduplication[key']? = some d → d.lastSequenceApplied < sequence')
    (hx : Executed s (retainClient key' sequence') command answer s') :
    ∃ d, s'.clientDeduplication[key]? = some d ∧ sequence ≤ d.lastSequenceApplied := by
  obtain ⟨d, hd, hle⟩ := h
  have hinsert : ∀ {t : TabletStateMachine} {outcome}, t.clientDeduplication[key]? = some d →
      ∃ d, (retainClient key' sequence' t outcome).clientDeduplication[key]? = some d ∧
        sequence ≤ d.lastSequenceApplied := by
    intro t outcome ht
    rw [retainClient, getElem?_insert]
    by_cases hkey : key' = key
    · subst hkey
      exact ⟨_, if_pos rfl, Nat.le_trans hle (Nat.le_of_lt (hnew d hd))⟩
    · exact ⟨d, by rw [if_neg hkey, ht], hle⟩
  cases hx with
  | applied hdispatched => exact hinsert (by rw [hdispatched.sameTables.clients, hd])
  | rejected => exact hinsert hd
  | failed => exact ⟨d, hd, hle⟩

theorem clients_of_executed_logical
    {answer : Except TabletCommandApplyError TabletCommandApplyOutcome}
    (hx : Executed s (retainLogical id) command answer s') :
    s'.clientDeduplication = s.clientDeduplication := by
  cases hx with
  | applied hd => exact hd.sameTables.clients
  | rejected | failed => rfl

theorem Settled.step
    (h : s.Settled identity) (hstep : tabletLog.step s envelope s') : s'.Settled identity := by
  match identity, h with
  | .inl id, ⟨d, hd⟩ => exact ⟨d, hd.step hstep⟩
  | .inr (key, sequence), h =>
    unfold Settled at h ⊢
    obtain ⟨a, -, happlied⟩ := Applied.of_step hstep
    cases happlied with
    | refused | regressed => exact h
    | expired _ _ _ hack | replayed _ _ _ hack => exact hack.clients ▸ h
    | executed _ _ _ hack _ _ hx =>
      rw [clients_of_executed_logical hx, hack.clients]
      exact h
    | legacyReplayed | legacyRefused => exact h
    | legacyExecuted _ _ hnew hx => exact clients_of_executed h hnew hx

/-- The delivery of a settled identity changes neither store nor statuses. -/
theorem Settled.sameData (h : s.Settled envelope.identity)
    (hstep : tabletLog.step s envelope s') : SameData s s' := by
  obtain ⟨a, -, happlied⟩ := Applied.of_step hstep
  unfold TabletCommandEnvelope.identity at h
  cases happlied with
  | refused | regressed => exact .refl s
  | expired _ _ _ hack | replayed _ _ _ hack => exact hack.sameData
  | executed _ hid _ hack hexp hnone =>
    -- a retained outcome would have answered, a passed horizon would have refused
    rw [hid] at h
    obtain ⟨d, hd⟩ := h
    rcases hd.acknowledged hack with hd | hexp'
    · rw [hd] at hnone
      cases hnone
    · exact absurd hexp' hexp
  | legacyReplayed | legacyRefused => exact .refl s
  | legacyExecuted _ hid hnew =>
    rw [hid] at h
    obtain ⟨d, hd, hle⟩ := h
    exact absurd (hnew d hd) (by omega)

/-- A delivery that changes the store or the statuses settles its identity. -/
theorem settled_of_not_sameData (hstep : tabletLog.step s envelope s')
    (h : ¬ SameData s s') : s'.Settled envelope.identity := by
  obtain ⟨a, -, happlied⟩ := Applied.of_step hstep
  unfold TabletCommandEnvelope.identity
  cases happlied with
  | refused | regressed => exact absurd (.refl s) h
  | expired _ _ _ hack | replayed _ _ _ hack => exact absurd hack.sameData h
  | executed _ hid _ hack _ _ hx =>
    rw [hid]
    cases hx with
    | applied | rejected =>
      exact ⟨_, .inl ((getElem?_insert _ _ _ _).trans (if_pos rfl))⟩
    | failed => exact absurd hack.sameData h
  | legacyReplayed | legacyRefused => exact absurd (.refl s) h
  | legacyExecuted _ hid _ hx =>
    rw [hid]
    cases hx with
    | applied | rejected =>
      exact ⟨_, (getElem?_insert _ _ _ _).trans (if_pos rfl), Nat.le_refl _⟩
    | failed => exact absurd (.refl s) h

/-! ## Answers -/

/-- The answer is the outcome of the command: a result, or a rejection of the command. -/
def Conclusive : Except TabletCommandApplyError TabletCommandApplyOutcome → Prop
  | .ok _ => True
  | .error e => (cachedRejectionFromError e).isSome

/-- An answer without the mark that tells a cached result from a new one. -/
def outcome (answer : Except TabletCommandApplyError TabletCommandApplyOutcome) :
    Except TabletCommandApplyError TabletCommandApplyResult :=
  answer.map (·.result)

theorem errorFromCachedRejection_of_cached {e : TabletCommandApplyError}
    {rejection : CachedTabletCommandRejection} (h : cachedRejectionFromError e = some rejection) :
    errorFromCachedRejection rejection = e := by
  cases e <;> cases h <;> rfl

/-- A valid delivery with a conclusive answer leaves that outcome retained. -/
theorem retained_of_conclusive (hid : envelope.logicalCommandId = some id)
    (hval : s.validateProposal envelope = .ok ())
    (hanswer : Conclusive (answer (apply envelope) s)) (hstep : tabletLog.step s envelope s') :
    ∃ d, s'.logicalCommandDeduplication[id]? = some d ∧
      outcome (replayAnswer d.cachedOutcome) = outcome (answer (apply envelope) s) := by
  obtain ⟨a, ha, happlied⟩ := Applied.of_step hstep
  rw [ha] at hanswer ⊢
  cases happlied with
  | refused he =>
    rw [hval] at he
    cases he
  | regressed | expired => cases hanswer
  | replayed _ hid' _ _ _ hd =>
    cases hid.symm.trans hid'
    exact ⟨_, hd, rfl⟩
  | executed _ hid' _ _ _ _ hx =>
    cases hid.symm.trans hid'
    cases hx with
    | applied => exact ⟨_, (getElem?_insert _ _ _ _).trans (if_pos rfl), rfl⟩
    | rejected hc =>
      refine ⟨_, (getElem?_insert _ _ _ _).trans (if_pos rfl), ?_⟩
      rw [replayAnswer, errorFromCachedRejection_of_cached hc]
    | failed hc =>
      rw [Conclusive, hc] at hanswer
      cases hanswer
  | legacyReplayed _ hid' | legacyRefused _ hid' | legacyExecuted _ hid' =>
    cases hid.symm.trans hid'

/-- The horizon has passed the request once the delivery's own acknowledgement counts. -/
def ExpiredFor (s : TabletStateMachine) (envelope : TabletCommandEnvelope)
    (id : LogicalCommandId) : Prop :=
  s.Expired id ∨ ∃ ack, envelope.acknowledgedThrough = some ack ∧
    id.clientRequestId.requestSequence ≤ ack

theorem Acknowledged.expiredFor_iff
    (h : Acknowledged s id.sessionKey envelope.acknowledgedThrough s₁) :
    s₁.Expired id ↔ s.ExpiredFor envelope id := by
  rw [h.expired_iff, ExpiredFor]
  simp

/-- The deliveries that deduplication decides on: valid for this tablet, and not lowering
the session's acknowledged floor. -/
structure Considered (s : TabletStateMachine) (envelope : TabletCommandEnvelope)
    (id : LogicalCommandId) : Prop where
  logical : envelope.logicalCommandId = some id
  valid : s.validateProposal envelope = .ok ()
  floor : ¬ s.Regresses id.sessionKey envelope.acknowledgedThrough

theorem Considered.answer_of_retained (h : s.Considered envelope id)
    (hexp : ¬ s.ExpiredFor envelope id) (hd : s.Retained id d) :
    answer (apply envelope) s = replayAnswer d.cachedOutcome := by
  have happlied := applied s envelope
  generalize answer (apply envelope) s = a at happlied ⊢
  generalize after (apply envelope) s = s' at happlied
  cases happlied with
  | refused he => cases he.symm.trans h.valid
  | regressed _ hid hack hh hlt =>
    cases h.logical.symm.trans hid
    exact absurd ⟨_, _, hack, hh, hlt⟩ h.floor
  | expired _ hid _ hack hh hle =>
    cases h.logical.symm.trans hid
    exact absurd (hack.expiredFor_iff.mp ⟨_, hh, hle⟩) hexp
  | replayed _ hid _ hack hexp' hd' =>
    cases h.logical.symm.trans hid
    rcases hd.acknowledged hack with hd | hexpired
    · cases hd.symm.trans hd'
      rfl
    · exact absurd hexpired hexp'
  | executed _ hid _ hack hexp' hnone =>
    cases h.logical.symm.trans hid
    rcases hd.acknowledged hack with hd | hexpired
    · cases hd.symm.trans hnone
    · exact absurd hexpired hexp'
  | legacyReplayed _ hid | legacyRefused _ hid | legacyExecuted _ hid =>
    cases h.logical.symm.trans hid

theorem Considered.answer_of_expired (h : s.Considered envelope id)
    (hexp : s.ExpiredFor envelope id) :
    (∃ horizon, answer (apply envelope) s = .error (.requestIdExpired
      id.clientRequestId.clientId id.clientRequestId.sessionEpoch
      id.clientRequestId.requestSequence horizon)) ∧
      SameData s (after (apply envelope) s) := by
  have happlied := applied s envelope
  generalize answer (apply envelope) s = a at happlied ⊢
  generalize after (apply envelope) s = s' at happlied ⊢
  cases happlied with
  | refused he => cases he.symm.trans h.valid
  | regressed _ hid hack hh hlt =>
    cases h.logical.symm.trans hid
    exact absurd ⟨_, _, hack, hh, hlt⟩ h.floor
  | expired _ hid _ hack =>
    cases h.logical.symm.trans hid
    exact ⟨⟨_, rfl⟩, hack.sameData⟩
  | replayed _ hid _ hack hexp' | executed _ hid _ hack hexp' =>
    cases h.logical.symm.trans hid
    exact absurd (hack.expiredFor_iff.mpr hexp) hexp'
  | legacyReplayed _ hid | legacyRefused _ hid | legacyExecuted _ hid =>
    cases h.logical.symm.trans hid

theorem Settled.steps (h : s.Settled identity)
    (hlog : tabletLog.Steps s log s') : s'.Settled identity :=
  hlog.preserves (P := fun s => s.Settled identity) Settled.step h

theorem Retained.steps (h : s.Retained id d) (hlog : tabletLog.Steps s log s') : s'.Retained id d :=
  hlog.preserves (P := fun s => s.Retained id d) Retained.step h

/-- Exactly-once application.  Two deliveries of one identity do not both change the store
or the statuses.  For a logical identity, a later delivery that deduplication decides on
gets the outcome of the first while the identity is above the session's retry horizon and
`RequestIdExpired` from then on, and changes neither store nor statuses. -/
theorem exactly_once {log : List TabletCommandEnvelope} (hfirst : tabletLog.step s first s₁)
    (hlog : tabletLog.Steps s₁ log s₂) (hsame : first.identity = later.identity) :
    (¬ SameData s s₁ → SameData s₂ (after (apply later) s₂)) ∧
      ∀ id, later.logicalCommandId = some id →
        (s₂.Expired id → SameData s₂ (after (apply later) s₂)) ∧
        (s₂.Considered later id → s₂.ExpiredFor later id →
          (∃ horizon, answer (apply later) s₂ = .error (.requestIdExpired
            id.clientRequestId.clientId id.clientRequestId.sessionEpoch
            id.clientRequestId.requestSequence horizon)) ∧
          SameData s₂ (after (apply later) s₂)) ∧
        (s₂.Considered later id → ¬ s₂.ExpiredFor later id →
          s.validateProposal first = .ok () → Conclusive (answer (apply first) s) →
          outcome (answer (apply later) s₂) = outcome (answer (apply first) s) ∧
          SameData s₂ (after (apply later) s₂)) := by
  refine ⟨fun hchanged => ?_, fun id hid => ⟨fun hexp => ?_, fun hcon hexp => ?_,
    fun hcon hexp hval hconclusive => ?_⟩⟩
  · have hsettled := (settled_of_not_sameData hfirst hchanged).steps hlog
    rw [hsame] at hsettled
    exact hsettled.sameData rfl
  · have hsettled : s₂.Settled later.identity := by
      rw [TabletCommandEnvelope.identity, hid]
      exact ⟨⟨0, .applied .noop⟩, .inr hexp⟩
    exact hsettled.sameData rfl
  · exact hcon.answer_of_expired hexp
  · have hid₁ : first.logicalCommandId = some id := by
      unfold TabletCommandEnvelope.identity at hsame
      rw [hid] at hsame
      cases hlogical : first.logicalCommandId with
      | none =>
        rw [hlogical] at hsame
        cases hsame
      | some =>
        rw [hlogical] at hsame
        cases hsame
        rfl
    obtain ⟨d, hd, houtcome⟩ := retained_of_conclusive hid₁ hval hconclusive hfirst
    have hretained : s₂.Retained id d := Retained.steps (.inl hd) hlog
    have hsettled : s₂.Settled later.identity := by
      rw [TabletCommandEnvelope.identity, hid]
      exact ⟨d, hretained⟩
    rw [hcon.answer_of_retained hexp hretained]
    exact ⟨houtcome, hsettled.sameData rfl⟩

theorem exactly_once_sample :
    let first := sampleEnvelope 5 2 sampleCommand
    let s₁ := after (apply first) sampleMachine
    let s₂ := after (apply (sampleEnvelope 6 3 .noop)) s₁
    let later := sampleEnvelope 5 3 sampleCommand
    ¬ SameData sampleMachine s₁ ∧ SameData s₂ (after (apply later) s₂) ∧
      outcome (answer (apply later) s₂) = .ok .singleShardCommit := by
  intro first s₁ s₂ later
  have hfirst : tabletLog.step sampleMachine first s₁ := rfl
  have hlog : tabletLog.Steps s₁ [sampleEnvelope 6 3 .noop] s₂ := .single rfl
  have hsame : first.identity = later.identity := rfl
  obtain ⟨honce, hreplay⟩ := exactly_once hfirst hlog hsame
  have hchanged : ¬ SameData sampleMachine s₁ := by
    intro h
    have hwrites : s₁.tablet.storage.writes ≠ ∅ := by decide +kernel
    exact hwrites (by rw [h.tablet]; rfl)
  have hhorizon : s₂.logicalClientRetryHorizons[(⟨7, 1⟩ : SessionKey)]? = some 3 := by
    decide +kernel
  have hconsidered : s₂.Considered later ⟨⟨7, 1, 5⟩, 1, .singleShardCommit⟩ := by
    refine ⟨rfl, by decide +kernel, ?_⟩
    rintro ⟨ack, horizon, hack, hh, hlt⟩
    cases hack
    cases hhorizon.symm.trans hh
    omega
  have hlive : ¬ s₂.ExpiredFor later ⟨⟨7, 1, 5⟩, 1, .singleShardCommit⟩ := by
    rintro (⟨horizon, hh, hle⟩ | ⟨ack, hack, hle⟩)
    · cases hhorizon.symm.trans hh
      exact absurd hle (by decide)
    · cases hack
      exact absurd hle (by decide)
  have hanswer : answer (apply first) sampleMachine = .ok ⟨.singleShardCommit, false⟩ := by
    decide +kernel
  refine ⟨hchanged, honce hchanged, ?_⟩
  rw [((hreplay _ rfl).2.2 hconsidered hlive (by decide +kernel) (by rw [hanswer]; trivial)).1,
    hanswer]
  rfl

/-- A retry that still carries its old acknowledged floor is answered by the floor check,
not from the cache, although its identity is above the session's retry horizon. -/
theorem retry_below_floor_sample :
    let first := sampleEnvelope 5 2 sampleCommand
    let s₁ := after (apply first) sampleMachine
    let s₂ := after (apply (sampleEnvelope 6 3 .noop)) s₁
    tabletLog.init sampleMachine ∧
      answer (apply first) sampleMachine = .ok ⟨.singleShardCommit, false⟩ ∧
      s₂.logicalClientRetryHorizons[(⟨7, 1⟩ : SessionKey)]? = some 3 ∧
      answer (apply first) s₂ = .error (.acknowledgementRegression 7 1 3 2) :=
  ⟨sampleMachine_init, by decide +kernel, by decide +kernel, by decide +kernel⟩

end TabletStateMachine

end RagnorDb
