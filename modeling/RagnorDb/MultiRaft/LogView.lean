import RagnorDb.MultiRaft.Record

/-!
# The log view of one replica

`RaftReplicaLogView` of `storage/view.rs`: the logical Raft log that the records of one
replica lifetime stand for.  Records enter in increasing WAL order; an entry with a different
term replaces its index and everything after it.  `classify` holds the checks of a log entry
that do not look at WAL positions.
-/

namespace RagnorDb

open Std Checked OrderedMap

/-- A position in the shared WAL. -/
abbrev Lsn := Nat

/-- One logical Raft entry and the WAL location that supplied it. -/
structure RecoveredRaftLogEntry where
  record : RaftLogEntryRecord
  lsn : Lsn
  deriving DecidableEq

inductive RaftLogReplayOutcome where
  | appended
  | idempotentReplay
  | replacedSuffix (removedEntries : Nat)
  deriving DecidableEq

inductive RaftLogViewError where
  | invalidRecord (error : RaftLogEntryCodecError)
  | identityMismatch (expected received : RaftReplicaIdentity)
  | nonIncreasingLsn (previous received : Lsn)
  | nonContiguousAppend (expectedIndex receivedIndex : Nat)
  | missingLogPrefix (expectedFirstIndex receivedFirstIndex : Nat)
  | logIndexExhausted (lastIndex : Nat)
  | conflictingPayload (index term : Nat)
  | entryAtOrBelowSnapshot (index snapshotIndex : Nat)
  | committedPrefixOverwrite (index committedIndex : Nat)
  | commitRegression (previous received : Nat)
  | invalidSnapshotBoundary (index term : Nat)
  | snapshotRegression (current received : Nat)
  | snapshotBoundaryTermMismatch (index expectedTerm receivedTerm : Nat)
  | logTermRegression (previousIndex previousTerm receivedIndex receivedTerm : Nat)
  | snapshotBoundaryTermChanged (index previousTerm receivedTerm : Nat)
  | snapshotTermRegression (previousIndex previousTerm receivedIndex receivedTerm : Nat)
  deriving DecidableEq

/-- The log state of exactly one replica lifetime. -/
structure RaftReplicaLogView where
  identity : RaftReplicaIdentity
  entries : ExtTreeMap Nat RecoveredRaftLogEntry
  lastReplayedLsn : Option Lsn
  snapshotIndex : Nat
  snapshotTerm : Nat
  committedIndex : Nat

namespace RaftReplicaLogView

variable {i index term : Nat} {view' : RaftReplicaLogView} {outcome : RaftLogReplayOutcome}

def new (identity : RaftReplicaIdentity) : RaftReplicaLogView := ⟨identity, ∅, none, 0, 0, 0⟩

variable (self : RaftReplicaLogView)

def lastIndex : Option Nat :=
  (lastKey? self.entries).or (if self.snapshotIndex ≠ 0 then some self.snapshotIndex else none)

def snapshotBoundary : Option (Nat × Nat) :=
  if self.snapshotIndex = 0 then none else some (self.snapshotIndex, self.snapshotTerm)

/-- The WAL location of the entry with the smallest retained index. -/
def firstRetainedLsn : Option Lsn :=
  ( firstEntry? self.entries).map fun entry => entry.2.lsn

/-- The largest term of a retained entry. -/
def maximumLogTerm : Nat :=
  supBy (fun entry => entry.record.term) self.entries

def advanceCommit (commit : Nat) : Except RaftLogViewError RaftReplicaLogView := do
  rejectIf (commit < self.committedIndex) (.commitRegression self.committedIndex commit)
  return { self with committedIndex := commit }

/-- A record lies above the last one that the view took. -/
def checkLsn (lsn : Lsn) : Except RaftLogViewError Unit :=
  match self.lastReplayedLsn with
  | some previous => rejectIf (lsn ≤ previous) (.nonIncreasingLsn previous lsn)
  | none => .ok ()

/-- The checks of a snapshot base that do not look at WAL positions. -/
def checkSnapshot (index term : Nat) : Except RaftLogViewError Unit := do
  rejectIf (index = 0 ∨ term = 0) (.invalidSnapshotBoundary index term)
  rejectIf (index < self.snapshotIndex) (.snapshotRegression self.snapshotIndex index)
  rejectIf (index = self.snapshotIndex ∧ term ≠ self.snapshotTerm)
    (.snapshotBoundaryTermChanged index self.snapshotTerm term)
  rejectIf (index > self.snapshotIndex ∧ self.snapshotTerm ≠ 0 ∧ term < self.snapshotTerm)
    (.snapshotTermRegression self.snapshotIndex self.snapshotTerm index term)
  match self.entries[index]? with
  | some entry =>
    rejectIf (entry.record.term ≠ term)
      (.snapshotBoundaryTermMismatch index entry.record.term term)
  | none => .ok ()

/-- The view on a new snapshot base. -/
def rebase (index term : Nat) (lsn : Lsn) : RaftReplicaLogView :=
  { self with
    entries := self.entries.filter fun i _ => saturatingAdd index 1 ≤ i
    snapshotIndex := index
    snapshotTerm := term
    committedIndex := max self.committedIndex index
    lastReplayedLsn := some lsn }

/-- Install a durable snapshot base before its retained suffix. -/
def installSnapshot (index term : Nat) (lsn : Lsn) :
    Except RaftLogViewError RaftReplicaLogView := do
  self.checkSnapshot index term
  self.checkLsn lsn
  return self.rebase index term lsn

/-- The term right before an index, where the view knows it. -/
def predecessorTerm (index : Nat) : Option Nat :=
  (self.entries[index - 1]?.map fun entry => entry.record.term).or
    (if index = self.snapshotIndex + 1 then some self.snapshotTerm else none)

variable (record : RaftLogEntryRecord)

def checkPredecessor :
    Except RaftLogViewError Unit :=
  match self.predecessorTerm record.index with
  | some previousTerm => rejectIf (record.term < previousTerm)
      (.logTermRegression (record.index - 1) previousTerm record.index record.term)
  | none => .ok ()

/-- A new entry directly follows the last index. -/
def checkContiguous :
    Except RaftLogViewError Unit :=
  match self.lastIndex with
  | some lastIndex => do
    let expectedIndex ← okOr (checkedAdd lastIndex 1) (.logIndexExhausted lastIndex)
    rejectIf (record.index ≠ expectedIndex) (.nonContiguousAppend expectedIndex record.index)
  | none => .ok ()

/-- An entry with no entry at its index extends the log by one. -/
def classifyAppend :
    Except RaftLogViewError RaftLogReplayOutcome := do
  rejectIf (self.entries.isEmpty ∧ self.snapshotIndex = 0 ∧ record.index ≠ 1)
    (.missingLogPrefix 1 record.index)
  self.checkContiguous record
  self.checkPredecessor record
  return .appended

/-- An entry at an index that the view already has. -/
def classifyExisting
    (existing : RaftLogEntryRecord) : Except RaftLogViewError RaftLogReplayOutcome :=
  if record.term = existing.term then do
    rejectIf (record.payload ≠ existing.payload) (.conflictingPayload record.index record.term)
    return .idempotentReplay
  else do
    rejectIf (record.index ≤ self.committedIndex)
      (.committedPrefixOverwrite record.index self.committedIndex)
    self.checkPredecessor record
    return .replacedSuffix (self.entries.filter fun i _ => record.index ≤ i).size

/-- What a log entry does to the view. -/
def classify :
    Except RaftLogViewError RaftLogReplayOutcome := do
  rejectIf (record.index ≤ self.snapshotIndex)
    (.entryAtOrBelowSnapshot record.index self.snapshotIndex)
  match self.entries[record.index]? with
  | some existing => self.classifyExisting record existing.record
  | none => self.classifyAppend record

/-- The view with an admitted entry. -/
def place (lsn : Lsn) : RaftLogReplayOutcome → RaftReplicaLogView
  | .replacedSuffix _ => { self with
      entries := (self.entries.filter fun i _ => i < record.index).insert record.index ⟨record, lsn⟩
      lastReplayedLsn := some lsn }
  | _ => { self with
      entries := self.entries.insert record.index ⟨record, lsn⟩
      lastReplayedLsn := some lsn }

/-- Apply one decoded WAL record.  Every check precedes the change. -/
def replay (lsn : Lsn) : Except RaftLogViewError RaftReplicaLogView := do
  record.validate.mapError .invalidRecord
  rejectIf (record.identity ≠ self.identity) (.identityMismatch self.identity record.identity)
  self.checkLsn lsn
  let outcome ← self.classify record
  return self.place record lsn outcome

/-! ## The last index -/

variable {view : RaftReplicaLogView} {record : RaftLogEntryRecord} {lsn : Lsn}

theorem le_lastIndex (h : i ∈ view.entries) : i ≤ view.lastIndex.getD 0 := by
  cases hmax : view.entries.maxKey? with
  | none =>
    rw [ExtTreeMap.maxKey?_eq_none_iff.mp hmax] at h
    exact absurd h ExtTreeMap.not_mem_empty
  | some =>
    have hle := (ExtTreeMap.maxKey?_eq_some_iff_mem_and_forall.mp hmax).2 i h
    rw [lastIndex, lastKey?_eq_maxKey?, hmax]
    exact Nat.isLE_compare.mp hle

theorem lastIndex_cases (view : RaftReplicaLogView) :
    view.lastIndex.getD 0 ∈ view.entries ∨
      view.entries = ∅ ∧ view.lastIndex.getD 0 = view.snapshotIndex := by
  cases hmax : view.entries.maxKey? with
  | none =>
    refine .inr ⟨ExtTreeMap.maxKey?_eq_none_iff.mp hmax, ?_⟩
    rw [lastIndex, lastKey?_eq_maxKey?, hmax, Option.none_or]
    split
    · rfl
    · rename_i h
      exact (not_not.mp h).symm
  | some =>
    refine .inl ?_
    rw [lastIndex, lastKey?_eq_maxKey?, hmax]
    exact (ExtTreeMap.maxKey?_eq_some_iff_mem_and_forall.mp hmax).1

/-- The commit frontier lies inside the log. -/
def CommitInLog (view : RaftReplicaLogView) : Prop :=
  view.committedIndex ≤ view.lastIndex.getD 0

theorem commitInLog_new (identity : RaftReplicaIdentity) : (new identity).CommitInLog :=
  Nat.zero_le _

theorem replay_eq_ok :
    view.replay record lsn = .ok view' ↔ record.validate = .ok () ∧
      record.identity = view.identity ∧ view.checkLsn lsn = .ok () ∧
        ∃ outcome, view.classify record = .ok outcome ∧ view' = view.place record lsn outcome := by
  simp only [replay, eq_ok, ne_eq]
  constructor
  · rintro ⟨⟨⟩, hvalid, _, hidentity, ⟨⟩, hlsn, outcome, hclass, rfl⟩
    exact ⟨hvalid, hidentity, hlsn, outcome, hclass, rfl⟩
  · rintro ⟨hvalid, hidentity, hlsn, outcome, hclass, rfl⟩
    exact ⟨⟨⟩, hvalid, ⟨⟩, hidentity, ⟨⟩, hlsn, outcome, hclass, rfl⟩

/-- The three ways in which an entry can enter the view. -/
inductive Enters (view : RaftReplicaLogView) (record : RaftLogEntryRecord) :
    RaftLogReplayOutcome → Prop
  | again {existing : RecoveredRaftLogEntry} : view.entries[record.index]? = some existing →
      record.term = existing.record.term → record.payload = existing.record.payload →
      Enters view record .idempotentReplay
  | replaces {existing : RecoveredRaftLogEntry} {n : Nat} :
      view.entries[record.index]? = some existing → record.term ≠ existing.record.term →
      view.committedIndex < record.index → Enters view record (.replacedSuffix n)
  | appends : view.entries[record.index]? = none → record.index = view.lastIndex.getD 0 + 1 →
      Enters view record .appended

theorem index_of_classifyAppend (h : view.classifyAppend record = .ok outcome) :
    outcome = .appended ∧ record.index = view.lastIndex.getD 0 + 1 ∧ record.index ≤ u64Max := by
  simp only [classifyAppend, eq_ok] at h
  obtain ⟨_, hfirst, _, hcontiguous, _, _, rfl⟩ := h
  refine ⟨rfl, ?_⟩
  unfold checkContiguous at hcontiguous
  split at hcontiguous
  case h_1 last hlast =>
    simp only [eq_ok, ne_eq, checkedAdd, eq_some] at hcontiguous
    obtain ⟨expected, ⟨hle, rfl⟩, hindex⟩ := hcontiguous
    rw [hindex, hlast]
    exact ⟨rfl, hle⟩
  case h_2 hlast =>
    -- neither an entry nor a snapshot: the log starts at index one
    rw [hlast]
    simp only [lastIndex, lastKey?_eq_maxKey?, Option.or_eq_none_iff,
      ExtTreeMap.maxKey?_eq_none_iff, ite_eq_right_iff,
      reduceCtorEq, imp_false, ne_eq, not_not] at hlast
    simp only [hlast.1, hlast.2, ExtTreeMap.isEmpty_empty, true_and, not_not] at hfirst
    rw [hfirst]
    decide

theorem enters_of_classify (h : view.classify record = .ok outcome) :
    view.snapshotIndex < record.index ∧ view.Enters record outcome := by
  simp only [classify, eq_ok, Nat.not_le] at h
  obtain ⟨_, hindex, h⟩ := h
  refine ⟨hindex, ?_⟩
  split at h
  case h_1 existing hexisting =>
    unfold classifyExisting at h
    split at h
    case isTrue hterm =>
      simp only [eq_ok, ne_eq] at h
      obtain ⟨_, hpayload, rfl⟩ := h
      exact .again hexisting hterm hpayload
    case isFalse hterm =>
      simp only [eq_ok, Nat.not_le] at h
      obtain ⟨_, hcommitted, _, _, rfl⟩ := h
      exact .replaces hexisting hterm hcommitted
  case h_2 hnone =>
    obtain ⟨rfl, hlast, -⟩ := index_of_classifyAppend h
    exact .appends hnone hlast

theorem mem_place :
    record.index ∈ (view.place record lsn outcome).entries := by
  cases outcome <;> simp [place]

theorem CommitInLog.replay (h : view.CommitInLog)
    (hreplay : view.replay record lsn = .ok view') : view'.CommitInLog := by
  obtain ⟨_, _, _, outcome, hclass, rfl⟩ := replay_eq_ok.mp hreplay
  have hlast : record.index ≤ (view.place record lsn outcome).lastIndex.getD 0 :=
    le_lastIndex mem_place
  cases (enters_of_classify hclass).2 with
  | again hexisting _ _ =>
    -- the last entry is still there
    rcases view.lastIndex_cases with hmem | ⟨hempty, _⟩
    · exact Nat.le_trans h (le_lastIndex (by simp [place, hmem]))
    · rw [hempty] at hexisting
      simp at hexisting
  | replaces _ _ hcommitted => exact Nat.le_trans (Nat.le_of_lt hcommitted) hlast
  | appends => exact Nat.le_trans (Nat.le_trans h (by omega)) hlast

theorem installSnapshot_eq_ok :
    view.installSnapshot index term lsn = .ok view' ↔ view.checkSnapshot index term = .ok () ∧
      view.checkLsn lsn = .ok () ∧ view' = view.rebase index term lsn := by
  simp only [installSnapshot, eq_ok]
  constructor
  · rintro ⟨⟨⟩, hcheck, ⟨⟩, hlsn, rfl⟩
    exact ⟨hcheck, hlsn, rfl⟩
  · rintro ⟨hcheck, hlsn, rfl⟩
    exact ⟨⟨⟩, hcheck, ⟨⟩, hlsn, rfl⟩

theorem snapshotIndex_le_of_checkSnapshot
    (h : view.checkSnapshot index term = .ok ()) : view.snapshotIndex ≤ index := by
  simp only [checkSnapshot, eq_ok, Nat.not_lt] at h
  obtain ⟨_, _, _, hle, _⟩ := h
  exact hle

theorem mem_rebase : i ∈ (view.rebase index term lsn).entries ↔
    saturatingAdd index 1 ≤ i ∧ i ∈ view.entries := by
  simp [rebase, mem_filter_keys]

theorem le_lastIndex_rebase (hindex : index ≤ u64Max) :
    index ≤ (view.rebase index term lsn).lastIndex.getD 0 := by
  rcases (view.rebase index term lsn).lastIndex_cases with hkept | ⟨_, hlast⟩
  · refine Nat.le_trans ?_ (mem_rebase.mp hkept).1
    unfold saturatingAdd
    omega
  · rw [hlast]
    exact Nat.le_refl _

theorem CommitInLog.installSnapshot (h : view.CommitInLog) (hindex : index ≤ u64Max)
    (hinstall : view.installSnapshot index term lsn = .ok view') : view'.CommitInLog := by
  obtain ⟨hcheck, _, rfl⟩ := installSnapshot_eq_ok.mp hinstall
  have hbase : index ≤ (view.rebase index term lsn).lastIndex.getD 0 := le_lastIndex_rebase hindex
  refine Nat.max_le.mpr ⟨Nat.le_trans h ?_, hbase⟩
  rcases view.lastIndex_cases with hkept | ⟨_, hlast⟩
  · by_cases habove : saturatingAdd index 1 ≤ view.lastIndex.getD 0
    · exact le_lastIndex (mem_rebase.mpr ⟨habove, hkept⟩)
    · unfold saturatingAdd at habove
      omega
  · rw [hlast]
    exact Nat.le_trans (snapshotIndex_le_of_checkSnapshot hcheck) hbase

/-! ## Views that differ in WAL positions only -/

/-- The two views hold the same records over the same base. -/
structure SameLog (a b : RaftReplicaLogView) : Prop where
  identity : a.identity = b.identity
  records : ∀ i : Nat, a.entries[i]?.map (fun entry => entry.record) =
    b.entries[i]?.map fun entry => entry.record
  snapshotIndex : a.snapshotIndex = b.snapshotIndex
  snapshotTerm : a.snapshotTerm = b.snapshotTerm
  committedIndex : a.committedIndex = b.committedIndex

namespace SameLog

variable {a b : RaftReplicaLogView}
variable {i index term : Nat} {lsn' : Lsn} {a' : RaftReplicaLogView}

theorem refl (a : RaftReplicaLogView) : SameLog a a := ⟨rfl, fun _ => rfl, rfl, rfl, rfl⟩

section

variable (h : SameLog a b)
include h

theorem symm : SameLog b a :=
  ⟨h.identity.symm, fun i => (h.records i).symm, h.snapshotIndex.symm, h.snapshotTerm.symm,
    h.committedIndex.symm⟩

theorem mem : i ∈ a.entries ↔ i ∈ b.entries := by
  rw [ExtTreeMap.mem_iff_isSome_getElem?, ExtTreeMap.mem_iff_isSome_getElem?,
    ← Option.isSome_map (f := fun entry => entry.record), h.records i, Option.isSome_map]

theorem getElem? {entry : RecoveredRaftLogEntry} (hentry : a.entries[i]? = some entry) :
    ∃ entry', b.entries[i]? = some entry' ∧ entry'.record = entry.record := by
  have hrecords := h.records i
  rw [hentry] at hrecords
  exact Option.map_eq_some_iff.mp hrecords.symm

theorem getElem?_none (hnone : a.entries[i]? = none) : b.entries[i]? = none := by
  have hrecords := h.records i
  rw [hnone] at hrecords
  exact Option.map_eq_none_iff.mp hrecords.symm

theorem maxKey? : a.entries.maxKey? = b.entries.maxKey? := by
  ext m
  simp only [ExtTreeMap.maxKey?_eq_some_iff_mem_and_forall, h.mem]

theorem lastIndex : a.lastIndex = b.lastIndex := by
  simp only [RaftReplicaLogView.lastIndex, lastKey?_eq_maxKey?, h.maxKey?,
    h.snapshotIndex]

theorem checkPredecessor (record : RaftLogEntryRecord) :
    a.checkPredecessor record = b.checkPredecessor record := by
  have hterm : ∀ i : Nat, a.entries[i]?.map (fun entry => entry.record.term) =
      b.entries[i]?.map fun entry => entry.record.term := by
    intro i
    have := congrArg (Option.map RaftLogEntryRecord.term) (h.records i)
    simpa only [Option.map_map, Function.comp_def] using this
  simp only [RaftReplicaLogView.checkPredecessor, predecessorTerm, hterm, h.snapshotIndex,
    h.snapshotTerm]

theorem isEmpty : a.entries.isEmpty = b.entries.isEmpty := by
  rw [Bool.eq_iff_iff, ExtTreeMap.isEmpty_iff, ExtTreeMap.isEmpty_iff,
    ← ExtTreeMap.maxKey?_eq_none_iff, ← ExtTreeMap.maxKey?_eq_none_iff, h.maxKey?]

theorem checkSnapshot : a.checkSnapshot index term = b.checkSnapshot index term := by
  unfold RaftReplicaLogView.checkSnapshot
  rw [h.snapshotIndex, h.snapshotTerm]
  cases hentry : a.entries[index]? with
  | none => rw [h.getElem?_none hentry]
  | some =>
    obtain ⟨entry', hentry', hrecord⟩ := h.getElem? hentry
    simp only [hentry', hrecord]

theorem classify (record : RaftLogEntryRecord) : a.classify record = b.classify record := by
  unfold RaftReplicaLogView.classify
  rw [h.snapshotIndex]
  cases hentry : a.entries[record.index]? with
  | none =>
    rw [h.getElem?_none hentry]
    simp only [classifyAppend, checkContiguous, h.isEmpty, h.snapshotIndex, h.lastIndex,
      h.checkPredecessor]
  | some =>
    obtain ⟨entry', hentry', hrecord⟩ := h.getElem? hentry
    have hsize : (a.entries.filter fun i _ => record.index ≤ i).size =
        (b.entries.filter fun i _ => record.index ≤ i).size := by
      apply size_congr
      intro i
      rw [mem_filter_keys, mem_filter_keys, h.mem]
    simp only [hentry', hrecord, classifyExisting, h.committedIndex, h.checkPredecessor, hsize]

theorem place (record : RaftLogEntryRecord) (lsn lsn' : Lsn) (outcome : RaftLogReplayOutcome) :
    SameLog (a.place record lsn outcome) (b.place record lsn' outcome) := by
  cases outcome
  case replacedSuffix n =>
    refine { h with records := ?_ }
    intro i
    simp only [RaftReplicaLogView.place, getElem?_insert, getElem?_filter]
    have := h.records i
    split
    · rfl
    · split <;> simp [this]
  case appended | idempotentReplay =>
    refine { h with records := ?_ }
    intro i
    simp only [RaftReplicaLogView.place, getElem?_insert]
    have := h.records i
    split <;> simp [this]

theorem rebase (index term : Nat) (lsn lsn' : Lsn) :
    SameLog (a.rebase index term lsn) (b.rebase index term lsn') where
  identity := h.identity
  records i := by
    simp only [RaftReplicaLogView.rebase, getElem?_filter]
    have := h.records i
    split <;> simp [this]
  snapshotIndex := rfl
  snapshotTerm := rfl
  committedIndex := by simp only [RaftReplicaLogView.rebase, h.committedIndex]

theorem replay (hreplay : a.replay record lsn = .ok a')
    (hlsn : b.checkLsn lsn' = .ok ()) : ∃ b', b.replay record lsn' = .ok b' ∧ SameLog a' b' := by
  obtain ⟨hvalid, hidentity, _, outcome, hclass, rfl⟩ := replay_eq_ok.mp hreplay
  rw [h.identity] at hidentity
  rw [h.classify] at hclass
  exact ⟨_, replay_eq_ok.mpr ⟨hvalid, hidentity, hlsn, outcome, hclass, rfl⟩, h.place _ _ _ _⟩

theorem installSnapshot (hinstall : a.installSnapshot index term lsn = .ok a')
    (hlsn : b.checkLsn lsn' = .ok ()) :
    ∃ b', b.installSnapshot index term lsn' = .ok b' ∧ SameLog a' b' := by
  obtain ⟨hcheck, _, rfl⟩ := installSnapshot_eq_ok.mp hinstall
  rw [h.checkSnapshot] at hcheck
  exact ⟨_, installSnapshot_eq_ok.mpr ⟨hcheck, hlsn, rfl⟩, h.rebase _ _ _ _⟩

end

end SameLog

end RaftReplicaLogView

end RagnorDb
