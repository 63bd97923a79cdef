import RagnorDb.MultiRaft.Recovery

/-!
# What every recovered replica satisfies

Facts about any record stream that the scan accepts, whatever wrote it: the recovered commit
index lies inside the recovered log, the recovered term covers the log and its base, and no
durable vote of the recovered term is lost.
-/

namespace RagnorDb

open Std Checked OrderedMap

/-- A later hard state does not go back, and keeps the vote of its term. -/
structure HardState.Succeeds (previous received : HardState) : Prop where
  term_le : previous.currentTerm ≤ received.currentTerm
  vote : received.currentTerm = previous.currentTerm →
    ∀ voter, previous.votedFor = some voter → received.votedFor = some voter

namespace HardState.Succeeds

variable {a b c : HardState}

theorem refl (a : HardState) : a.Succeeds a := ⟨Nat.le_refl _, fun _ _ h => h⟩

theorem trans (hab : a.Succeeds b) (hbc : b.Succeeds c) : a.Succeeds c := by
  refine ⟨Nat.le_trans hab.term_le hbc.term_le, ?_⟩
  intro hterm voter hvoter
  have hab' := hab.term_le
  have hbc' := hbc.term_le
  exact hbc.vote (by omega) voter (hab.vote (by omega) voter hvoter)

theorem of_lt (h : a.currentTerm < b.currentTerm) : a.Succeeds b :=
  ⟨Nat.le_of_lt h, fun heq => absurd heq (Nat.ne_of_gt h)⟩

end HardState.Succeeds

theorem vote_of_validateVoteSuccessor {term : Nat} {previous received : Option ReplicaId}
    (h : validateVoteSuccessor term previous received = .ok ()) {voter : ReplicaId}
    (hvoter : previous = some voter) : received = some voter := by
  subst hvoter
  cases received with
  | none => cases h
  | some =>
    simp only [validateVoteSuccessor, eq_ok, ne_eq] at h
    rw [h]

theorem validateHardStateSuccessor_some {previous received : HardState}
    (h : validateHardStateSuccessor (some previous) received = .ok ()) :
    previous.Succeeds received ∧ previous.commit ≤ received.commit := by
  simp only [validateHardStateSuccessor, eq_ok, Nat.not_lt] at h
  obtain ⟨_, _, _, hterm, _, hcommit, hvote⟩ := h
  refine ⟨⟨hterm, ?_⟩, hcommit⟩
  intro heq voter hvoter
  rw [if_pos heq] at hvote
  exact vote_of_validateVoteSuccessor hvote hvoter

theorem succeeds_hardStateOnSnapshot (snapshot : RaftSnapshotPointerRecord) (state : HardState) :
    state.Succeeds (hardStateOnSnapshot snapshot (some state)) := by
  unfold hardStateOnSnapshot
  dsimp only
  split
  · exact ⟨Nat.le_refl _, fun _ _ h => h⟩
  · exact .of_lt (by dsimp only; omega)

namespace RecoveredRaftReplica

variable {core : RaftCore} {replica replica' : RecoveredRaftReplica} {lsn : Lsn}
  {record : RaftWalRecord}
variable {hardState : RaftHardStateRecord} {durable : HardState}

/-- The commit index of a replica's state lies inside its log. -/
structure Sound (replica : RecoveredRaftReplica) : Prop where
  commitInLog : replica.logView.CommitInLog
  commit_le : ∀ state, replica.hardState = some state →
    state.commit ≤ replica.logView.committedIndex

theorem sound_new (identity : RaftReplicaIdentity) : (new identity).Sound :=
  ⟨RaftReplicaLogView.commitInLog_new identity, fun _ h => nomatch h⟩

theorem observe_logEntry_eq_ok {entry : RaftLogEntryRecord}
    (h : replica.observe core lsn (.logEntry entry) = .ok replica') :
    ∃ logView, replica.logView.replay entry lsn = .ok logView ∧
      replica' = { replica with logView } := by
  simp only [observe, observeLogEntry, eq_ok] at h
  obtain ⟨_, _, _, _, logView, hview, rfl⟩ := h
  exact ⟨logView, hview, rfl⟩

theorem observe_hardState_eq_ok
    (h : replica.observe core lsn (.hardState hardState) = .ok replica') :
    validateHardStateSuccessor replica.hardState hardState.hardState = .ok () ∧
      hardState.hardState.commit ≤ replica.logView.lastIndex.getD 0 ∧
      replica' = { replica with
        logView := { replica.logView with committedIndex := hardState.hardState.commit }
        hardState := some hardState.hardState
        hardStateLsn := some lsn } := by
  simp only [observe, observeHardState, eq_ok, RaftReplicaLogView.advanceCommit, gt_iff_lt,
    Nat.not_lt] at h
  obtain ⟨_, _, _, hvalid, _, hcommit, _, ⟨_, _, rfl⟩, rfl⟩ := h
  exact ⟨hvalid, hcommit, rfl⟩

theorem observe_snapshotPointer_eq_ok {snapshot : RaftSnapshotPointerRecord}
    (h : replica.observe core lsn (.snapshotPointer snapshot) = .ok replica') :
    ∃ logView, replica.logView.installSnapshot snapshot.lastIncludedIndex snapshot.lastIncludedTerm
        lsn = .ok logView ∧
      replica' = { replica with
        logView
        progress := ⟨snapshot.lastIncludedIndex, snapshot.lastIncludedTerm, snapshot.appliedIndex⟩
        hardState := some (hardStateOnSnapshot snapshot replica.hardState)
        confState := some snapshot.confState
        snapshot := some snapshot
        snapshotPointerLsn := some lsn } := by
  simp only [observe, observeSnapshotPointer, eq_ok] at h
  obtain ⟨_, _, _, _, logView, hview, rfl⟩ := h
  exact ⟨logView, hview, rfl⟩

theorem Sound.observe (h : replica.Sound)
    (hobserve : replica.observe core lsn record = .ok replica') : replica'.Sound := by
  cases record with
  | logEntry =>
    obtain ⟨logView, hview, rfl⟩ := observe_logEntry_eq_ok hobserve
    have hcommitted : logView.committedIndex = replica.logView.committedIndex := by
      obtain ⟨_, _, _, outcome, _, rfl⟩ := RaftReplicaLogView.replay_eq_ok.mp hview
      cases outcome <;> rfl
    exact ⟨h.commitInLog.replay hview, fun state hstate => hcommitted ▸ h.commit_le state hstate⟩
  | hardState =>
    obtain ⟨_, hcommit, rfl⟩ := observe_hardState_eq_ok hobserve
    refine ⟨hcommit, ?_⟩
    intro state hstate
    cases hstate
    exact Nat.le_refl _
  | snapshotPointer snapshot =>
    obtain ⟨logView, hview, rfl⟩ := observe_snapshotPointer_eq_ok hobserve
    refine ⟨h.commitInLog.installSnapshot snapshot.lastIncludedIndex_le hview, ?_⟩
    obtain ⟨_, _, rfl⟩ := RaftReplicaLogView.installSnapshot_eq_ok.mp hview
    intro state hstate
    cases hstate
    -- the base raises the hard state's commit exactly as it raises the view's
    cases hprevious : replica.hardState with
    | none => exact Nat.le_max_right _ _
    | some previous =>
      have hle := h.commit_le previous hprevious
      simp only [hardStateOnSnapshot]
      split
      · exact Nat.max_le.mpr ⟨Nat.le_trans hle (Nat.le_max_left _ _), Nat.le_max_right _ _⟩
      · exact Nat.le_max_right _ _

/-- The replica's hard state succeeds a hard state that was durable before. -/
def Remembers (replica : RecoveredRaftReplica) (durable : HardState) : Prop :=
  ∃ state, replica.hardState = some state ∧ durable.Succeeds state

theorem Remembers.observe (h : replica.Remembers durable)
    (hobserve : replica.observe core lsn record = .ok replica') : replica'.Remembers durable := by
  obtain ⟨state, hstate, hsucceeds⟩ := h
  cases record with
  | logEntry =>
    obtain ⟨logView, _, rfl⟩ := observe_logEntry_eq_ok hobserve
    exact ⟨state, hstate, hsucceeds⟩
  | hardState =>
    obtain ⟨hvalid, _, rfl⟩ := observe_hardState_eq_ok hobserve
    rw [hstate] at hvalid
    exact ⟨_, rfl, hsucceeds.trans (validateHardStateSuccessor_some hvalid).1⟩
  | snapshotPointer snapshot =>
    obtain ⟨logView, _, rfl⟩ := observe_snapshotPointer_eq_ok hobserve
    refine ⟨_, rfl, hsucceeds.trans ?_⟩
    rw [hstate]
    exact succeeds_hardStateOnSnapshot snapshot state

theorem remembers_observed
    (hobserve : replica.observe core lsn (.hardState hardState) = .ok replica') :
    replica'.Remembers hardState.hardState := by
  obtain ⟨_, _, rfl⟩ := observe_hardState_eq_ok hobserve
  exact ⟨_, rfl, .refl _⟩

/-! ## Normalisation -/

variable (replica : RecoveredRaftReplica)

theorem normalizeHardStateTerm_eq : replica.normalizeHardStateTerm =
    { replica with hardState := replica.normalizeHardStateTerm.hardState } := by
  unfold normalizeHardStateTerm
  dsimp only
  split
  · rfl
  · split
    · split <;> rfl
    · rfl

@[simp] theorem normalizeHardStateTerm_logView :
    replica.normalizeHardStateTerm.logView = replica.logView := by
  rw [normalizeHardStateTerm_eq]

@[simp] theorem normalizeHardStateTerm_confState :
    replica.normalizeHardStateTerm.confState = replica.confState := by
  rw [normalizeHardStateTerm_eq]

variable {replica}

theorem normalizeHardStateTerm_of_covered
    (h : replica.maximumObservedTerm ≤ (replica.hardState.map HardState.currentTerm).getD 0) :
    replica.normalizeHardStateTerm = replica := by
  unfold normalizeHardStateTerm
  dsimp only
  split
  · rfl
  · rename_i hne
    cases hstate : replica.hardState with
    | none =>
      rw [hstate] at h
      exact absurd (Nat.le_zero.mp h) hne
    | some =>
      rw [hstate] at h
      exact if_neg (Nat.not_lt.mpr h)

theorem maximumObservedTerm_le_normalized (replica : RecoveredRaftReplica) :
    replica.maximumObservedTerm ≤
      (replica.normalizeHardStateTerm.hardState.map HardState.currentTerm).getD 0 := by
  unfold normalizeHardStateTerm
  dsimp only
  split
  case isTrue h => rw [h]; exact Nat.zero_le _
  case isFalse =>
    split
    case h_1 state hstate =>
      split
      case isTrue => exact Nat.le_refl _
      case isFalse hle =>
        rw [hstate]
        exact Nat.not_lt.mp hle
    case h_2 => exact Nat.le_refl _

theorem Remembers.normalize (h : replica.Remembers durable) :
    replica.normalizeHardStateTerm.Remembers durable := by
  obtain ⟨state, hstate, hsucceeds⟩ := h
  unfold normalizeHardStateTerm
  dsimp only
  split
  · exact ⟨state, hstate, hsucceeds⟩
  · rw [hstate]
    dsimp only
    split
    case isTrue hlt => exact ⟨_, rfl, hsucceeds.trans (.of_lt hlt)⟩
    case isFalse => exact ⟨state, hstate, hsucceeds⟩

theorem Sound.normalize (h : replica.Sound) : replica.normalizeHardStateTerm.Sound := by
  refine ⟨by rw [normalizeHardStateTerm_logView]; exact h.commitInLog, ?_⟩
  unfold normalizeHardStateTerm
  dsimp only
  split
  · exact h.commit_le
  · split
    case h_1 state hstate =>
      split
      · intro state' hstate'
        cases hstate'
        exact h.commit_le state hstate
      · exact h.commit_le
    case h_2 =>
      intro state' hstate'
      cases hstate'
      exact Nat.le_refl _

/-- What a replica that recovery hands to the Raft core satisfies. -/
structure Safe (replica : RecoveredRaftReplica) : Prop where
  /-- The term covers every retained entry ... -/
  entryTerm : ∀ (i : Nat) entry, replica.logView.entries[i]? = some entry →
    entry.record.term ≤ (replica.hardState.map HardState.currentTerm).getD 0
  /-- ... and the snapshot. -/
  snapshotTerm : ∀ boundary, replica.logView.snapshotBoundary = some boundary →
    boundary.2 ≤ (replica.hardState.map HardState.currentTerm).getD 0
  /-- The commit index lies inside the log. -/
  commit : ∀ state, replica.hardState = some state →
    state.commit ≤ replica.logView.lastIndex.getD 0

theorem Sound.safe_normalize (h : replica.Sound) : replica.normalizeHardStateTerm.Safe := by
  have hterm := replica.maximumObservedTerm_le_normalized
  rw [maximumObservedTerm, Nat.max_le] at hterm
  refine ⟨?_, ?_, ?_⟩
  · intro i entry hentry
    rw [normalizeHardStateTerm_logView] at hentry
    exact supBy_le.mp hterm.2 i entry hentry
  · intro boundary hboundary
    rw [normalizeHardStateTerm_logView] at hboundary
    rw [hboundary] at hterm
    exact hterm.1
  · intro state hstate
    exact Nat.le_trans (h.normalize.commit_le state hstate) h.normalize.commitInLog

end RecoveredRaftReplica

namespace RecoveredRaftStorage

open RecoveredRaftReplica

variable {core : RaftCore} {st st' : RecoveredRaftStorage} {record : WalRecord}
variable {lsn : Lsn} {records : List WalRecord}
  {initialConfigurations : ExtTreeMap RaftReplicaIdentity ConfState}

theorem observeRecord_other (h : st.observeRecord core ⟨lsn, none⟩ = .ok st') :
    st'.replica = st.replica := by
  simp only [observeRecord, route, eq_ok, Except.ok.injEq] at h
  obtain ⟨_, _, rfl⟩ := h
  rfl

theorem observeRecord_raft {raft : RaftWalRecord}
    (h : st.observeRecord core ⟨lsn, some raft⟩ = .ok st') :
    (st.replica raft.identity).observe core lsn raft = .ok (st'.replica raft.identity) ∧
      ∀ identity, identity ≠ raft.identity → st'.replica identity = st.replica identity := by
  simp only [observeRecord, route, eq_ok] at h
  obtain ⟨_, _, replica', hobserve, rfl⟩ := h
  constructor
  · simp only [replica, ExtTreeMap.getElem?_insert_self, Option.getD_some]
    exact hobserve
  · intro identity hne
    simp [replica, getElem?_insert, if_neg (Ne.symm hne)]

/-- What the records scanned so far leave behind. -/
structure Recalls (records : List WalRecord) (st : RecoveredRaftStorage) : Prop where
  sound : ∀ identity, (st.replica identity).Sound
  hardStates : ∀ lsn hardState, ⟨lsn, some (.hardState hardState)⟩ ∈ records →
    (st.replica hardState.identity).Remembers hardState.hardState

theorem Recalls.observe (h : Recalls records st)
    (hobserve : st.observeRecord core record = .ok st') :
    Recalls (records ++ [record]) st' := by
  obtain ⟨lsn, raft⟩ := record
  cases raft with
  | none =>
    have hsame := observeRecord_other hobserve
    refine ⟨by rw [hsame]; exact h.sound, ?_⟩
    intro lsn' hardState hmem
    rw [hsame]
    rcases List.mem_append.mp hmem with hmem | hmem
    · exact h.hardStates lsn' hardState hmem
    · simp at hmem
  | some raft =>
    obtain ⟨hreplica, hothers⟩ := observeRecord_raft hobserve
    constructor
    · intro identity
      by_cases hid : identity = raft.identity
      · rw [hid]
        exact (h.sound raft.identity).observe hreplica
      · rw [hothers identity hid]
        exact h.sound identity
    · intro lsn' hardState hmem
      rcases List.mem_append.mp hmem with hmem | hmem
      · have hold := h.hardStates lsn' hardState hmem
        by_cases hid : hardState.identity = raft.identity
        · rw [hid] at hold ⊢
          exact hold.observe hreplica
        · rw [hothers _ hid]
          exact hold
      · simp only [List.mem_singleton, WalRecord.mk.injEq, eq_some] at hmem
        obtain ⟨rfl, rfl⟩ := hmem
        exact remembers_observed hreplica

theorem recalls_of_scan (h : scan core records = .ok st) : Recalls records st :=
  foldlM_ok (fun hdone hstep => hdone.observe hstep)
    ⟨fun identity => by simpa [replica, empty] using sound_new identity,
      fun _ _ hmem => nomatch hmem⟩ h

theorem exists_scan_of_prefix {pre : List WalRecord} (hpre : pre <+: records)
    (h : scan core records = .ok st) : ∃ earlier, scan core pre = .ok earlier := by
  obtain ⟨rest, rfl⟩ := hpre
  rw [scan, List.foldlM_append, bind_eq_ok] at h
  obtain ⟨earlier, hearlier, _⟩ := h
  exact ⟨earlier, hearlier⟩

/-! ## The end of the scan -/

/-- The configuration changes among the recovered entries up to the recovered commit index, in log
order. -/
def committedChanges (replica : RecoveredRaftReplica) : List ConfChange :=
  let commit := (replica.normalizeHardStateTerm.hardState.map HardState.commit).getD 0
  let records := replica.logView.entries.toList.map fun entry => entry.2.record
  (records.takeWhile fun record => record.index ≤ commit).filterMap fun record =>
    match record.payload with
    | .normal _ => none
    | .configuration change => some change

/-- The changes apply to a membership, one after the other.  Without a membership none does. -/
def ChangesApply (core : RaftCore) : Option ConfState → List ConfChange → Prop
  | _, [] => True
  | none, _ :: _ => False
  | some current, change :: changes =>
    ∃ next, core.applyConfChange current change = .ok next ∧ ChangesApply core (some next) changes

/-- The committed configuration changes of every replica apply to its snapshot's or its bootstrap
membership. -/
def Configured (core : RaftCore) (initialConfigurations : ExtTreeMap RaftReplicaIdentity ConfState)
    (st : RecoveredRaftStorage) : Prop :=
  ∀ (identity : RaftReplicaIdentity) (replica : RecoveredRaftReplica),
    st.replicas[identity]? = some replica →
      ChangesApply core (replica.confState.or initialConfigurations[identity]?)
        (committedChanges replica)

theorem exists_applyCommitted (identity : RaftReplicaIdentity) (records : List RaftLogEntryRecord)
    (confState : Option ConfState) :
    (∃ last, records.foldlM (applyCommitted core identity) confState = .ok last) ↔
      ChangesApply core confState (records.filterMap fun record =>
        match record.payload with
        | .normal _ => none
        | .configuration change => some change) := by
  induction records generalizing confState with
  | nil => simp [ChangesApply, pure, Except.pure]
  | cons record records ih =>
    cases hpayload : record.payload with
    | normal => simp [applyCommitted, hpayload, ih]
    | configuration change =>
      cases confState with
      | none => simp [applyCommitted, hpayload, ChangesApply, okOr]
      | some current =>
        cases hchange : core.applyConfChange current change <;>
          simp [applyCommitted, hpayload, ChangesApply, okOr, hchange, Except.mapError, ih]

/-- The term of a replica is normalised in any case; its membership is what can fail. -/
theorem exists_finishConfiguration {initial : Option ConfState} {replica : RecoveredRaftReplica} :
    (∃ finished, replica.finishConfiguration core initial = .ok finished) ↔
      ChangesApply core (replica.confState.or initial) (committedChanges replica) := by
  rw [committedChanges, ← exists_applyCommitted replica.logView.identity]
  simp [finishConfiguration]

theorem finishConfiguration_eq_ok {initial : Option ConfState}
    {replica finished : RecoveredRaftReplica}
    (h : replica.finishConfiguration core initial = .ok finished) :
    ∃ confState, finished = { replica.normalizeHardStateTerm with confState } := by
  simp only [finishConfiguration, eq_ok] at h
  obtain ⟨confState, _, rfl⟩ := h
  exact ⟨confState, rfl⟩

/-- Finishing normalises each replica, and derives its membership. -/
theorem replica_of_finishConfigurations
    (h : st.finishConfigurations core initialConfigurations = .ok st')
    (identity : RaftReplicaIdentity) : ∃ confState, st'.replica identity =
        { (st.replica identity).normalizeHardStateTerm with confState } := by
  simp only [finishConfigurations, eq_ok] at h
  obtain ⟨replicas, hreplicas, rfl⟩ := h
  unfold replica
  cases hst : st.replicas[identity]? with
  | none =>
    have hnone : replicas[identity]? = none := by
      rw [Option.eq_none_iff_forall_not_mem]
      intro finished hfinished
      obtain ⟨found, hfound, _⟩ := (getElem?_of_mapValuesM hreplicas).mp hfinished
      rw [hst] at hfound
      cases hfound
    rw [hnone]
    exact ⟨none, rfl⟩
  | some =>
    obtain ⟨finished, hfinish, hfinished⟩ := exists_of_mapValuesM hreplicas hst
    rw [hfinished]
    exact finishConfiguration_eq_ok hfinish

theorem exists_finishConfigurations :
    (∃ finished, st.finishConfigurations core initialConfigurations = .ok finished) ↔
      Configured core initialConfigurations st := by
  constructor
  · intro ⟨finished, h⟩ identity replica hreplica
    simp only [finishConfigurations, eq_ok] at h
    obtain ⟨replicas, hreplicas, _⟩ := h
    obtain ⟨finished, hfinish, _⟩ := exists_of_mapValuesM hreplicas hreplica
    exact exists_finishConfiguration.mp ⟨finished, hfinish⟩
  · intro h
    obtain ⟨replicas, hreplicas⟩ := exists_mapValuesM fun identity replica hreplica =>
      exists_finishConfiguration.mpr (h identity replica hreplica)
    exact ⟨{ st with replicas }, by simp only [finishConfigurations, hreplicas]; rfl⟩

theorem recover_of_scan (h : scan core records = .ok st) :
    recoverRaftStorageWithConfigurations core initialConfigurations records =
      st.finishConfigurations core initialConfigurations := by
  rw [recoverRaftStorageWithConfigurations, h, ok_bind]

end RecoveredRaftStorage

end RagnorDb
