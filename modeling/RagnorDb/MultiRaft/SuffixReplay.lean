import RagnorDb.MultiRaft.RecoverySafety

/-!
# Replay of a suffix of the records

What recovery makes of the records of a replica when the older ones are gone.  Where the log
that the missing records had built ends below what the first remaining record keeps, the
suffix replays, it trails the full replay in its commit frontier and hard state only, and the
next hard state record makes the two equal.
-/

namespace RagnorDb

open Std Checked RaftReplicaLogView RecoveredRaftReplica

variable {g f : Option HardState}

namespace RaftReplicaLogView

variable {f f' g : RaftReplicaLogView} {record : RaftLogEntryRecord} {lsn : Lsn}
variable {index term : Nat}

/-- The same view, with a commit frontier that may lag. -/
structure Lags (g f : RaftReplicaLogView) : Prop where
  committed : g.committedIndex ≤ f.committedIndex
  same : g = { f with committedIndex := g.committedIndex }

theorem Lags.lastIndex (h : g.Lags f) : g.lastIndex = f.lastIndex := by
  rw [h.same]
  rfl

/-- A lower frontier forbids less. -/
theorem Lags.classify (h : g.Lags f) {outcome : RaftLogReplayOutcome}
    (hclass : f.classify record = .ok outcome) : g.classify record = .ok outcome := by
  obtain ⟨hle, hsame⟩ := h
  rw [hsame]
  simp only [RaftReplicaLogView.classify, eq_ok] at hclass ⊢
  obtain ⟨_, hindex, hclass⟩ := hclass
  refine ⟨(), hindex, ?_⟩
  cases hentry : f.entries[record.index]? with
  | none =>
    rw [hentry] at hclass
    exact hclass
  | some =>
    rw [hentry] at hclass
    simp only [classifyExisting] at hclass ⊢
    split at hclass
    case isTrue hterm =>
      rw [if_pos hterm]
      exact hclass
    case isFalse hterm =>
      rw [if_neg hterm]
      simp only [eq_ok, Nat.not_le] at hclass ⊢
      obtain ⟨_, hcommitted, _, hpredecessor, houtcome⟩ := hclass
      exact ⟨(), by omega, (), hpredecessor, houtcome⟩

theorem Lags.place (h : g.Lags f) (outcome : RaftLogReplayOutcome) :
    (g.place record lsn outcome).Lags (f.place record lsn outcome) := by
  obtain ⟨hle, hsame⟩ := h
  rw [hsame]
  cases outcome <;> exact ⟨hle, rfl⟩

theorem Lags.replay (h : g.Lags f) (hreplay : f.replay record lsn = .ok f') :
    ∃ g', g.replay record lsn = .ok g' ∧ g'.Lags f' ∧
      g'.committedIndex = g.committedIndex := by
  obtain ⟨hvalid, hidentity, hlsn, outcome, hclass, rfl⟩ := replay_eq_ok.mp hreplay
  refine ⟨g.place record lsn outcome, replay_eq_ok.mpr ⟨hvalid, ?_, ?_, outcome,
    h.classify hclass, rfl⟩, h.place outcome, ?_⟩
  · rw [h.same]
    exact hidentity
  · rw [h.same]
    exact hlsn
  · cases outcome <;> rfl

theorem Lags.installSnapshot (h : g.Lags f) (hinstall : f.installSnapshot index term lsn = .ok f') :
    ∃ g', g.installSnapshot index term lsn = .ok g' ∧ g'.Lags f' := by
  obtain ⟨hcheck, hlsn, rfl⟩ := installSnapshot_eq_ok.mp hinstall
  obtain ⟨hle, hsame⟩ := h
  refine ⟨g.rebase index term lsn, installSnapshot_eq_ok.mpr ⟨?_, ?_, rfl⟩, ?_⟩
  · rw [hsame]
    exact hcheck
  · rw [hsame]
    exact hlsn
  · rw [hsame]
    exact ⟨Nat.max_le.mpr ⟨Nat.le_trans hle (Nat.le_max_left _ _), Nat.le_max_right _ _⟩, rfl⟩

theorem lags_rebase_new (h : f.lastIndex.getD 0 < saturatingAdd index 1) :
    ((new f.identity).rebase index term lsn).Lags (f.rebase index term lsn) := by
  have hentries : (f.rebase index term lsn).entries = ∅ := by
    rw [ExtTreeMap.eq_empty_iff_forall_not_mem]
    intro i hi
    obtain ⟨habove, hmem⟩ := mem_rebase.mp hi
    have := le_lastIndex hmem
    omega
  have hnew : ((new f.identity).rebase index term lsn).entries = ∅ := by
    rw [ExtTreeMap.eq_empty_iff_forall_not_mem]
    intro i hi
    exact ExtTreeMap.not_mem_empty (mem_rebase.mp hi).2
  refine ⟨Nat.max_le.mpr ⟨Nat.zero_le _, Nat.le_max_right _ _⟩, ?_⟩
  simp only [rebase, new] at hentries hnew ⊢
  rw [hentries, hnew]

theorem checkSnapshot_new {identity : RaftReplicaIdentity}
    (h : f.checkSnapshot index term = .ok ()) :
    (new identity).checkSnapshot index term = .ok () := by
  simp only [checkSnapshot, eq_ok] at h
  obtain ⟨_, ⟨hindex, hterm⟩, _⟩ := h
  simp [checkSnapshot, new, hindex, hterm, rejectIf]

end RaftReplicaLogView

/-! ## Hard states -/

/-- A hard state that a snapshot base implied, or none, below the one that the full records
show. -/
def HardState.Under (g f : Option HardState) : Prop :=
  ∀ low, g = some low → low.votedFor = none ∧
    ∃ high, f = some high ∧ low.currentTerm ≤ high.currentTerm ∧ low.commit ≤ high.commit

theorem HardState.under_none (f : Option HardState) : Under none f := fun _ h => nomatch h

theorem HardState.Under.validate (h : Under g f) {received : HardState}
    (hvalid : validateHardStateSuccessor f received = .ok ()) :
    validateHardStateSuccessor g received = .ok () := by
  cases g with
  | none =>
    cases f with
    | none => exact hvalid
    | some =>
      simp only [validateHardStateSuccessor, eq_ok] at hvalid ⊢
      obtain ⟨_, hzero, _⟩ := hvalid
      exact ⟨(), hzero, trivial⟩
  | some low =>
    obtain ⟨hvote, high, rfl, hterm, hcommit⟩ := h low rfl
    simp only [validateHardStateSuccessor, eq_ok, Nat.not_lt] at hvalid ⊢
    obtain ⟨_, hzero, _, hterm', _, hcommit', _⟩ := hvalid
    refine ⟨(), hzero, (), by omega, (), by omega, ?_⟩
    split
    · rw [hvote]
      rfl
    · rfl

theorem HardState.Under.onSnapshot (h : Under g f) (snapshot : RaftSnapshotPointerRecord) :
    Under (some (hardStateOnSnapshot snapshot g)) (some (hardStateOnSnapshot snapshot f)) := by
  intro low hlow
  have hbase : snapshot.lastIncludedTerm ≤ (hardStateOnSnapshot snapshot f).currentTerm ∧
      snapshot.lastIncludedIndex ≤ (hardStateOnSnapshot snapshot f).commit := by
    cases f with
    | none => exact ⟨Nat.le_refl _, Nat.le_refl _⟩
    | some =>
      simp only [hardStateOnSnapshot]
      split
      case isTrue hterm => exact ⟨hterm, Nat.le_max_right _ _⟩
      case isFalse => exact ⟨Nat.le_refl _, Nat.le_refl _⟩
  cases hlow
  cases g with
  | none => exact ⟨rfl, _, rfl, hbase⟩
  | some low =>
    obtain ⟨hvote, high, rfl, hterm, hcommit⟩ := h low rfl
    by_cases hlow : low.currentTerm ≥ snapshot.lastIncludedTerm
    · have hhigh : high.currentTerm ≥ snapshot.lastIncludedTerm := Nat.le_trans hlow hterm
      simp only [hardStateOnSnapshot, if_pos hlow, if_pos hhigh]
      refine ⟨hvote, _, rfl, hterm, ?_⟩
      exact Nat.max_le.mpr ⟨Nat.le_trans hcommit (Nat.le_max_left _ _), Nat.le_max_right _ _⟩
    · rw [show hardStateOnSnapshot snapshot (some low) =
        ⟨snapshot.lastIncludedTerm, none, snapshot.lastIncludedIndex⟩ from if_neg hlow]
      exact ⟨rfl, _, rfl, hbase⟩

/-! ## Replicas -/

namespace RecoveredRaftReplica

variable {core : RaftCore} {f f' g : RecoveredRaftReplica} {lsn : Lsn} {record : RaftWalRecord}
variable {records : List (Lsn × RaftWalRecord)} {identity : RaftReplicaIdentity}

/-- The replica that the suffix shows, against the one that all records show. -/
structure Trails (g f : RecoveredRaftReplica) : Prop where
  logView : g.logView.Lags f.logView
  hardState : HardState.Under g.hardState f.hardState
  uncommitted : g.hardState = none → g.logView.committedIndex = 0
  confState : g.confState = f.confState
  progress : g.progress = f.progress
  snapshot : g.snapshot = f.snapshot
  snapshotPointerLsn : g.snapshotPointerLsn = f.snapshotPointerLsn

theorem Trails.observe_hardState (h : g.Trails f) {hardState : RaftHardStateRecord}
    (hobserve : f.observe core lsn (.hardState hardState) = .ok f') :
    g.observe core lsn (.hardState hardState) = .ok f' := by
  simp only [observe, observeHardState, eq_ok,
    advanceCommit, Nat.not_lt] at hobserve ⊢
  obtain ⟨_, hvalid, _, hsuccessor, _, hcommit, _, ⟨_, hadvance, rfl⟩, rfl⟩ := hobserve
  have hview : ({ g.logView with committedIndex := hardState.hardState.commit } :
      RaftReplicaLogView) = { f.logView with committedIndex := hardState.hardState.commit } := by
    rw [h.logView.same]
  refine ⟨(), hvalid, (), h.hardState.validate hsuccessor, (), ?_, _,
    ⟨(), Nat.le_trans h.logView.committed hadvance, rfl⟩, ?_⟩
  · rw [h.logView.lastIndex]
    exact hcommit
  · rw [hview, h.confState, h.progress, h.snapshot, h.snapshotPointerLsn]

/-- What the full replay takes, the suffix takes. -/
theorem Trails.observe (h : g.Trails f) (hobserve : f.observe core lsn record = .ok f') :
    ∃ g', g.observe core lsn record = .ok g' ∧ (g' = f' ∨ g'.Trails f') := by
  cases record with
  | logEntry =>
    simp only [observe, observeLogEntry, eq_ok] at hobserve ⊢
    obtain ⟨_, hvalid, _, htruncated, view, hview, rfl⟩ := hobserve
    obtain ⟨view', hview', hlags, hcommitted⟩ := h.logView.replay hview
    refine ⟨_, ⟨(), hvalid, (), by rw [h.progress]; exact htruncated, view', hview', rfl⟩,
      .inr { h with logView := hlags, uncommitted := ?_ }⟩
    intro hnone
    exact hcommitted.trans (h.uncommitted hnone)
  | hardState => exact ⟨f', h.observe_hardState hobserve, .inl rfl⟩
  | snapshotPointer snapshot =>
    simp only [observe, observeSnapshotPointer, eq_ok] at hobserve ⊢
    obtain ⟨_, hvalid, _, hsuccessor, view, hview, rfl⟩ := hobserve
    obtain ⟨view', hview', hlags⟩ := h.logView.installSnapshot hview
    refine ⟨_, ⟨(), hvalid, (), by rw [h.snapshot]; exact hsuccessor, view', hview', rfl⟩,
      .inr ⟨hlags, h.hardState.onSnapshot snapshot, by simp, rfl, rfl, rfl, rfl⟩⟩

/-! ## The records of one replica -/

/-- Observe the records of one replica, each at its position. -/
def replayAll (core : RaftCore) (replica : RecoveredRaftReplica)
    (records : List (Lsn × RaftWalRecord)) : Except RaftStorageRecoveryError RecoveredRaftReplica :=
  records.foldlM (fun replica record => replica.observe core record.1 record.2) replica

theorem replayAll_cons_eq_ok {record : Lsn × RaftWalRecord} :
    f.replayAll core (record :: records) = .ok f' ↔
      ∃ middle, f.observe core record.1 record.2 = .ok middle ∧
        middle.replayAll core records = .ok f' := by
  simp [replayAll]

/-- Some record is a hard state. -/
def HasHardState (records : List (Lsn × RaftWalRecord)) : Prop :=
  ∃ lsn hardState, (lsn, RaftWalRecord.hardState hardState) ∈ records

theorem Trails.replayAll (h : g.Trails f) (hreplay : f.replayAll core records = .ok f') :
    ∃ g', g.replayAll core records = .ok g' ∧ (g' = f' ∨ g'.Trails f') ∧
      (HasHardState records → g' = f') := by
  induction records generalizing f g with
  | nil =>
    cases hreplay
    exact ⟨g, rfl, .inr h, by rintro ⟨_, _, hmem⟩; cases hmem⟩
  | cons record records ih =>
    obtain ⟨middle, hmiddle, hrest⟩ := replayAll_cons_eq_ok.mp hreplay
    obtain ⟨middle', hmiddle', heq | htrails⟩ := h.observe hmiddle
    · subst heq
      exact ⟨f', replayAll_cons_eq_ok.mpr ⟨middle', hmiddle', hrest⟩, .inl rfl, fun _ => rfl⟩
    · obtain ⟨g', hg', hend, hsame⟩ := ih htrails hrest
      refine ⟨g', replayAll_cons_eq_ok.mpr ⟨middle', hmiddle', hg'⟩, hend, ?_⟩
      rintro ⟨lsn, hardState, hmem⟩
      rcases List.mem_cons.mp hmem with hhead | htail
      · subst hhead
        -- the two agree from this record on
        rw [h.observe_hardState hmiddle] at hmiddle'
        cases hmiddle'
        rw [hg'] at hrest
        cases hrest
        rfl
      · exact hsame ⟨lsn, hardState, htail⟩

/-! ## The first remaining record -/

/-- A replica whose log has neither an entry nor a base is new, up to its hard state. -/
structure Based (replica : RecoveredRaftReplica) (identity : RaftReplicaIdentity) : Prop where
  owner : replica.logView.identity = identity
  sound : replica.Sound
  fresh : replica.logView.lastIndex.getD 0 = 0 → replica = { new identity with
    hardState := replica.hardState
    hardStateLsn := replica.hardStateLsn }

theorem based_new (identity : RaftReplicaIdentity) : (new identity).Based identity :=
  ⟨rfl, sound_new identity, fun _ => rfl⟩

theorem observe_identity (hobserve : f.observe core lsn record = .ok f') :
    f'.logView.identity = f.logView.identity := by
  cases record with
  | logEntry =>
    obtain ⟨view, hview, rfl⟩ := observe_logEntry_eq_ok hobserve
    obtain ⟨_, _, _, outcome, _, rfl⟩ := replay_eq_ok.mp hview
    cases outcome <;> rfl
  | hardState =>
    obtain ⟨_, _, rfl⟩ := observe_hardState_eq_ok hobserve
    rfl
  | snapshotPointer =>
    obtain ⟨view, hview, rfl⟩ := observe_snapshotPointer_eq_ok hobserve
    obtain ⟨_, _, rfl⟩ := installSnapshot_eq_ok.mp hview
    rfl

theorem Based.observe (h : f.Based identity)
    (hobserve : f.observe core lsn record = .ok f') : f'.Based identity := by
  refine ⟨(observe_identity hobserve).trans h.owner, h.sound.observe hobserve, ?_⟩
  intro hempty
  cases record with
  | logEntry entry =>
    obtain ⟨view, hview, rfl⟩ := observe_logEntry_eq_ok hobserve
    obtain ⟨hvalid, _, _, outcome, _, rfl⟩ := replay_eq_ok.mp hview
    -- the entry itself is in the log
    have hle : entry.index ≤ (f.logView.place entry lsn outcome).lastIndex.getD 0 :=
      le_lastIndex mem_place
    have hindex : entry.index ≠ 0 := by
      simp only [RaftLogEntryRecord.validate, eq_ok] at hvalid
      obtain ⟨_, _, _, _, _, hindex, _⟩ := hvalid
      exact hindex
    exact absurd (Nat.le_zero.mp (hempty ▸ hle)) hindex
  | hardState =>
    obtain ⟨_, hcommit, rfl⟩ := observe_hardState_eq_ok hobserve
    have hlast : f.logView.lastIndex.getD 0 = 0 := hempty
    have hfresh := h.fresh hlast
    rw [hlast, Nat.le_zero] at hcommit
    rw [hfresh, hcommit]
    rfl
  | snapshotPointer snapshot =>
    obtain ⟨view, hview, rfl⟩ := observe_snapshotPointer_eq_ok hobserve
    obtain ⟨hcheck, _, rfl⟩ := installSnapshot_eq_ok.mp hview
    have hle : snapshot.lastIncludedIndex ≤ (f.logView.rebase snapshot.lastIncludedIndex
        snapshot.lastIncludedTerm lsn).lastIndex.getD 0 :=
      le_lastIndex_rebase snapshot.lastIncludedIndex_le
    simp only [checkSnapshot, eq_ok] at hcheck
    obtain ⟨_, ⟨hindex, _⟩, _⟩ := hcheck
    exact absurd (Nat.le_zero.mp (hempty ▸ hle)) hindex

/-- The first index that a record keeps when it is the first to be replayed: a snapshot
pointer keeps what lies above its base. -/
def keptFrom : RaftWalRecord → Nat
  | .snapshotPointer snapshot => saturatingAdd snapshot.lastIncludedIndex 1
  | .logEntry _ | .hardState _ => 1

theorem keptFrom_pos (record : RaftWalRecord) : 0 < keptFrom record := by
  cases record with
  | snapshotPointer => exact Nat.lt_min.mpr ⟨Nat.succ_pos _, by decide⟩
  | logEntry | hardState => exact Nat.one_pos

theorem trails_of_snapshotPointer (h : f.Based identity) {snapshot : RaftSnapshotPointerRecord}
    (hlast : f.logView.lastIndex.getD 0 < saturatingAdd snapshot.lastIncludedIndex 1)
    (hobserve : f.observe core lsn (.snapshotPointer snapshot) = .ok f') :
    ∃ g', (new identity).observe core lsn (.snapshotPointer snapshot) = .ok g' ∧ g'.Trails f' := by
  simp only [observe, observeSnapshotPointer, eq_ok] at hobserve ⊢
  obtain ⟨_, hvalid, _, _, view, hview, rfl⟩ := hobserve
  obtain ⟨hcheck, _, rfl⟩ := installSnapshot_eq_ok.mp hview
  refine ⟨_, ⟨(), hvalid, (), rfl, _, installSnapshot_eq_ok.mpr
    ⟨checkSnapshot_new hcheck, rfl, rfl⟩, rfl⟩, ?_⟩
  refine ⟨?_, (HardState.under_none _).onSnapshot snapshot, by simp, rfl, rfl, rfl, rfl⟩
  have hlags : ((RaftReplicaLogView.new f.logView.identity).rebase snapshot.lastIncludedIndex
      snapshot.lastIncludedTerm lsn).Lags (f.logView.rebase snapshot.lastIncludedIndex
        snapshot.lastIncludedTerm lsn) := lags_rebase_new hlast
  rw [h.owner] at hlags
  exact hlags

theorem trails_of_fresh (h : f.Based identity)
    (hlast : f.logView.lastIndex.getD 0 = 0) : (new identity).Trails f := by
  have hfresh := h.fresh hlast
  have hview : f.logView = .new identity := by rw [hfresh]; rfl
  refine ⟨⟨Nat.zero_le _, ?_⟩, HardState.under_none _, fun _ => rfl, ?_, ?_, ?_, ?_⟩
  · rw [hview]
    rfl
  all_goals rw [hfresh]

theorem Based.replay_suffix (h : f.Based identity) {first : Lsn × RaftWalRecord}
    {rest : List (Lsn × RaftWalRecord)} (hkept : f.logView.lastIndex.getD 0 < keptFrom first.2)
    (hreplay : f.replayAll core (first :: rest) = .ok f') :
    ∃ g', (new identity).replayAll core (first :: rest) = .ok g' ∧ (g' = f' ∨ g'.Trails f') ∧
      (HasHardState (first :: rest) → g' = f') := by
  obtain ⟨lsn, record⟩ := first
  cases record with
  | snapshotPointer =>
    obtain ⟨middle, hmiddle, hrest⟩ := replayAll_cons_eq_ok.mp hreplay
    obtain ⟨middle', hmiddle', htrails⟩ := trails_of_snapshotPointer h hkept hmiddle
    obtain ⟨g', hg', hend, hsame⟩ := htrails.replayAll hrest
    refine ⟨g', replayAll_cons_eq_ok.mpr ⟨middle', hmiddle', hg'⟩, hend, ?_⟩
    intro ⟨lsn', hardState, hmem⟩
    rcases List.mem_cons.mp hmem with hhead | htail
    · cases hhead
    · exact hsame ⟨lsn', hardState, htail⟩
  | logEntry | hardState => exact (trails_of_fresh h (Nat.lt_one_iff.mp hkept)).replayAll hreplay

theorem replayAll_append_eq_ok {earlier later : List (Lsn × RaftWalRecord)} :
    f.replayAll core (earlier ++ later) = .ok f' ↔
      ∃ middle, f.replayAll core earlier = .ok middle ∧ middle.replayAll core later = .ok f' := by
  simp [replayAll]

theorem Based.replayAll
    (h : f.Based identity) (hreplay : f.replayAll core records = .ok f') : f'.Based identity :=
  foldlM_ok (P := fun _ replica => replica.Based identity) (fun hs hstep => hs.observe hstep) h
    hreplay

/-! ## Membership -/

theorem takeWhile_prefix_of_imp {α : Type} {p q : α → Bool} (h : ∀ a, p a = true → q a = true)
    (l : List α) : l.takeWhile p <+: l.takeWhile q := by
  induction l with
  | nil => exact List.prefix_refl _
  | cons a l ih =>
    by_cases hp : p a = true
    · rw [List.takeWhile_cons_of_pos hp, List.takeWhile_cons_of_pos (h a hp)]
      exact List.cons_prefix_cons.mpr ⟨rfl, ih⟩
    · rw [List.takeWhile_cons_of_neg hp]
      exact List.nil_prefix

theorem commit_normalizeHardStateTerm (replica : RecoveredRaftReplica) :
    (replica.normalizeHardStateTerm.hardState.map HardState.commit).getD 0 =
        (replica.hardState.map HardState.commit).getD 0 ∨
      replica.hardState = none ∧
        (replica.normalizeHardStateTerm.hardState.map HardState.commit).getD 0 =
          replica.logView.committedIndex := by
  unfold normalizeHardStateTerm
  dsimp only
  split
  case isTrue => exact .inl rfl
  case isFalse =>
    cases hstate : replica.hardState with
    | none => exact .inr ⟨rfl, rfl⟩
    | some =>
      dsimp only
      split
      · exact .inl rfl
      · rw [hstate]
        exact .inl rfl

theorem Trails.commit_le (h : g.Trails f) :
    (g.normalizeHardStateTerm.hardState.map HardState.commit).getD 0 ≤
      (f.normalizeHardStateTerm.hardState.map HardState.commit).getD 0 := by
  rcases commit_normalizeHardStateTerm g with hg | ⟨hnone, hg⟩
  · rw [hg]
    cases hlow : g.hardState with
    | none => exact Nat.zero_le _
    | some low =>
      obtain ⟨-, high, hhigh, -, hcommit⟩ := h.hardState low hlow
      rcases commit_normalizeHardStateTerm f with hf | ⟨hnone, -⟩
      · rw [hf, hhigh]
        exact hcommit
      · rw [hnone] at hhigh
        cases hhigh
  · rw [hg, h.uncommitted hnone]
    exact Nat.zero_le _

theorem Trails.exists_finishConfiguration (h : g.Trails f) {initial : Option ConfState}
    {finished : RecoveredRaftReplica}
    (hfinish : f.finishConfiguration core initial = .ok finished) :
    ∃ finished', g.finishConfiguration core initial = .ok finished' := by
  have hpre := takeWhile_prefix_of_imp
    (p := fun record : RaftLogEntryRecord =>
      decide (record.index ≤ (g.normalizeHardStateTerm.hardState.map HardState.commit).getD 0))
    (q := fun record =>
      decide (record.index ≤ (f.normalizeHardStateTerm.hardState.map HardState.commit).getD 0))
    (fun record hle => decide_eq_true (Nat.le_trans (of_decide_eq_true hle) h.commit_le))
    (f.logView.entries.toList.map fun entry => entry.2.record)
  obtain ⟨later, hlater⟩ := hpre
  have hentries : g.logView.entries = f.logView.entries := by rw [h.logView.same]
  have hidentity : g.logView.identity = f.logView.identity := by rw [h.logView.same]
  simp only [finishConfiguration, eq_ok, normalizeHardStateTerm_logView,
    normalizeHardStateTerm_confState, hentries, hidentity, h.confState] at hfinish ⊢
  obtain ⟨confState, hfold, -⟩ := hfinish
  rw [← hlater, List.foldlM_append, bind_eq_ok] at hfold
  obtain ⟨middle, hmiddle, -⟩ := hfold
  exact ⟨_, middle, hmiddle, rfl⟩

end RecoveredRaftReplica

/-! ## The scan, replica by replica -/

namespace RecoveredRaftStorage

variable {core : RaftCore} {st st' : RecoveredRaftStorage} {identity : RaftReplicaIdentity}
  {records : List WalRecord}

/-- The records of one replica, with their positions. -/
def recordsOf (identity : RaftReplicaIdentity) (records : List WalRecord) :
    List (Lsn × RaftWalRecord) :=
  records.filterMap fun record => do
    let raft ← record.raft
    if raft.identity = identity then some (record.lsn, raft) else none

theorem recordsOf_append (earlier later : List WalRecord) :
    recordsOf identity (earlier ++ later) = recordsOf identity earlier ++
      recordsOf identity later :=
  List.filterMap_append

theorem recordsOf_cons_other (lsn : Lsn) :
    recordsOf identity (⟨lsn, none⟩ :: records) = recordsOf identity records := rfl

theorem recordsOf_cons_raft (lsn : Lsn) (raft : RaftWalRecord) :
    recordsOf identity (⟨lsn, some raft⟩ :: records) =
      if raft.identity = identity then (lsn, raft) :: recordsOf identity records
      else recordsOf identity records := by
  unfold recordsOf
  by_cases h : raft.identity = identity <;> simp [h]

theorem mem_recordsOf {lsn : Lsn} {raft : RaftWalRecord} :
    (lsn, raft) ∈ recordsOf identity records ↔
      ⟨lsn, some raft⟩ ∈ records ∧ raft.identity = identity := by
  simp only [recordsOf, List.mem_filterMap, Option.bind_eq_bind, eq_some, Prod.mk.injEq]
  constructor
  · rintro ⟨⟨_, _⟩, hmem, _, rfl, hid, rfl, rfl⟩
    exact ⟨hmem, hid⟩
  · rintro ⟨hmem, hid⟩
    exact ⟨_, hmem, raft, rfl, hid, rfl, rfl⟩

/-- A scan replays the records of each replica. -/
theorem replayAll_of_scan (h : records.foldlM (observeRecord core) st = .ok st')
    (identity : RaftReplicaIdentity) :
    (st.replica identity).replayAll core (recordsOf identity records) =
      .ok (st'.replica identity) := by
  induction records generalizing st with
  | nil =>
    cases h
    rfl
  | cons record records ih =>
    rw [List.foldlM_cons, bind_eq_ok] at h
    obtain ⟨middle, hmiddle, hrest⟩ := h
    obtain ⟨lsn, raft⟩ := record
    cases raft with
    | none =>
      rw [recordsOf_cons_other, ← observeRecord_other hmiddle]
      exact ih hrest
    | some raft =>
      obtain ⟨hself, hothers⟩ := observeRecord_raft hmiddle
      rw [recordsOf_cons_raft]
      by_cases hid : raft.identity = identity
      · subst hid
        rw [if_pos rfl]
        exact replayAll_cons_eq_ok.mpr ⟨_, hself, ih hrest⟩
      · rw [if_neg hid, ← hothers identity (Ne.symm hid)]
        exact ih hrest

theorem replay_new_of_scan (h : scan core records = .ok st) (identity : RaftReplicaIdentity) :
    (RecoveredRaftReplica.new identity).replayAll core (recordsOf identity records) =
      .ok (st.replica identity) := by
  simpa [replica, empty] using replayAll_of_scan h identity

/-- The positions of scanned records rise. -/
theorem pairwise_of_scan (h : records.foldlM (observeRecord core) st = .ok st') :
    (∀ record ∈ records, st.checkLsn record.lsn = .ok ()) ∧
      records.Pairwise fun a b => a.lsn < b.lsn := by
  induction records generalizing st with
  | nil => exact ⟨by simp, .nil⟩
  | cons record records ih =>
    rw [List.foldlM_cons, bind_eq_ok] at h
    obtain ⟨middle, hmiddle, hrest⟩ := h
    obtain ⟨hafter, hpairwise⟩ := ih hrest
    have hlsn : st.checkLsn record.lsn = .ok () ∧ middle.lastScannedLsn = some record.lsn := by
      obtain ⟨lsn, raft⟩ := record
      simp only [observeRecord, eq_ok] at hmiddle
      obtain ⟨⟨⟩, hcheck, hroute⟩ := hmiddle
      refine ⟨hcheck, ?_⟩
      cases raft with
      | none =>
        cases hroute
        rfl
      | some =>
        simp only [route, eq_ok] at hroute
        obtain ⟨_, _, rfl⟩ := hroute
        rfl
    have hlt : ∀ later ∈ records, record.lsn < later.lsn := by
      intro later hlater
      have hcheck := hafter later hlater
      rw [checkLsn, hlsn.2] at hcheck
      exact Nat.not_le.mp (rejectIf_eq_ok.mp hcheck)
    refine ⟨?_, List.pairwise_cons.mpr ⟨hlt, hpairwise⟩⟩
    intro later hmem
    rcases List.mem_cons.mp hmem with rfl | hlater
    · exact hlsn.1
    · -- what lies above the head lies above what was scanned before it
      have hhead := hlsn.1
      unfold checkLsn at hhead ⊢
      split at hhead
      case h_1 previous hprevious =>
        exact rejectIf_eq_ok.mpr (Nat.not_le.mpr
          (Nat.lt_trans (Nat.not_le.mp (rejectIf_eq_ok.mp hhead)) (hlt later hlater)))
      case h_2 => rfl

/-- Records at rising positions are scanned if those of each replica replay. -/
theorem exists_scan (hlsn : ∀ record ∈ records, st.checkLsn record.lsn = .ok ())
    (hpairwise : records.Pairwise fun a b => a.lsn < b.lsn) (hreplay : ∀ identity, ∃ replica,
      (st.replica identity).replayAll core (recordsOf identity records) = .ok replica) :
    ∃ st', records.foldlM (observeRecord core) st = .ok st' := by
  induction records generalizing st with
  | nil => exact ⟨st, rfl⟩
  | cons record records ih =>
    obtain ⟨hlt, hpairwise⟩ := List.pairwise_cons.mp hpairwise
    have hhead : ∃ middle, st.observeRecord core record = .ok middle ∧
        middle.lastScannedLsn = some record.lsn := by
      obtain ⟨lsn, raft⟩ := record
      simp only [observeRecord, hlsn _ List.mem_cons_self, ok_bind]
      cases raft with
      | none => exact ⟨_, rfl, rfl⟩
      | some raft =>
        obtain ⟨replica, hreplica⟩ := hreplay raft.identity
        rw [recordsOf_cons_raft, if_pos rfl] at hreplica
        obtain ⟨next, hnext, _⟩ := replayAll_cons_eq_ok.mp hreplica
        refine ⟨⟨st.replicas.insert raft.identity next, st.scannedRecords + 1, some lsn⟩,
          ?_, rfl⟩
        change (do let replica ← (st.replica raft.identity).observe core lsn raft; _) = _
        rw [hnext]
        rfl
    obtain ⟨middle, hmiddle, hlast⟩ := hhead
    have hrest : ∃ st', records.foldlM (observeRecord core) middle = .ok st' := by
      refine ih ?_ hpairwise ?_
      · intro later hlater
        rw [checkLsn, hlast]
        exact rejectIf_eq_ok.mpr (Nat.not_le.mpr (hlt later hlater))
      · intro identity
        obtain ⟨replica, hreplica⟩ := hreplay identity
        obtain ⟨lsn, raft⟩ := record
        cases raft with
        | none =>
          rw [observeRecord_other hmiddle]
          exact ⟨replica, hreplica⟩
        | some raft =>
          obtain ⟨hself, hothers⟩ := observeRecord_raft hmiddle
          rw [recordsOf_cons_raft] at hreplica
          by_cases hid : raft.identity = identity
          · subst hid
            rw [if_pos rfl] at hreplica
            obtain ⟨next, hnext, hreplica⟩ :=
              replayAll_cons_eq_ok.mp hreplica
            cases hself.symm.trans hnext
            exact ⟨replica, hreplica⟩
          · rw [if_neg hid] at hreplica
            rw [hothers identity (Ne.symm hid)]
            exact ⟨replica, hreplica⟩
    obtain ⟨st', hst'⟩ := hrest
    exact ⟨st', by rw [List.foldlM_cons, hmiddle, ok_bind, hst']⟩

end RecoveredRaftStorage

end RagnorDb
