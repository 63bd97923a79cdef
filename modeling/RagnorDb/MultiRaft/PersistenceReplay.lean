import RagnorDb.MultiRaft.Persistence
import RagnorDb.MultiRaft.RecoverySafety

/-!
# A persisted batch replays to the state it was published as

The live storage publishes a whole prepared batch, recovery observes its records one at a
time.  From the state that the storage held before the batch, observing the records leads to
the state that it holds afterwards; and a batch that was prepared never fails once its records
are durable, since its checks depend on the preview only through the records, not through the
made-up WAL positions.
-/

namespace RagnorDb

open Std Checked OrderedMap RaftReplicaLogView RecoveredRaftReplica

variable {lsn : Lsn}

/-! ## Extents -/

/-- Extents in WAL order, from a position on. -/
def ExtentsFrom (lsn : Lsn) : List RecordExtent → Prop
  | [] => True
  | extent :: rest => lsn ≤ extent.startLsn ∧ extent.startLsn < extent.endLsn ∧
      ExtentsFrom extent.endLsn rest

instance decidableExtentsFrom : (lsn : Lsn) → (extents : List RecordExtent) →
    Decidable (ExtentsFrom lsn extents)
  | _, [] => .isTrue trivial
  | _, extent :: rest =>
    have := decidableExtentsFrom extent.endLsn rest
    inferInstanceAs (Decidable (_ ∧ _ ∧ _))

/-- The position after the extents. -/
def endOf (lsn : Lsn) (extents : List RecordExtent) : Lsn :=
  (extents.getLast?.map RecordExtent.endLsn).getD lsn

theorem endOf_cons (lsn : Lsn) (extent : RecordExtent) (rest : List RecordExtent) :
    endOf lsn (extent :: rest) = endOf extent.endLsn rest := by
  cases h : rest.getLast? <;> simp [endOf, List.getLast?_cons, h]

theorem extentsFrom_append {xs ys : List RecordExtent} :
    ExtentsFrom lsn (xs ++ ys) ↔ ExtentsFrom lsn xs ∧ ExtentsFrom (endOf lsn xs) ys := by
  induction xs generalizing lsn with
  | nil => simp [ExtentsFrom, endOf]
  | cons x xs ih => simp [ExtentsFrom, ih, endOf_cons, and_assoc]

theorem endOf_append (lsn : Lsn) (xs ys : List RecordExtent) :
    endOf lsn (xs ++ ys) = endOf (endOf lsn xs) ys := by
  induction xs generalizing lsn with
  | nil => rfl
  | cons x xs ih => rw [List.cons_append, endOf_cons, endOf_cons, ih]

theorem le_endOf {extents : List RecordExtent} (h : ExtentsFrom lsn extents) :
    lsn ≤ endOf lsn extents := by
  induction extents generalizing lsn with
  | nil => exact Nat.le_refl _
  | cons extent extents ih =>
    obtain ⟨hle, hlt, hrest⟩ := h
    rw [endOf_cons]
    exact Nat.le_trans (Nat.le_trans hle (Nat.le_of_lt hlt)) (ih hrest)

/-! ## Log views -/

namespace RaftReplicaLogView

variable {view : RaftReplicaLogView}
variable {lsn lsn' : Lsn} {a b : RaftReplicaLogView}

/-- The view has taken no record at or above a position. -/
def Before (view : RaftReplicaLogView) (lsn : Lsn) : Prop :=
  ∀ previous, view.lastReplayedLsn = some previous → previous < lsn

theorem Before.mono (h : view.Before lsn) (hle : lsn ≤ lsn') : view.Before lsn' :=
  fun previous hprevious => Nat.lt_of_lt_of_le (h previous hprevious) hle

theorem Before.checkLsn (h : view.Before lsn) (hle : lsn ≤ lsn') : view.checkLsn lsn' = .ok () := by
  unfold RaftReplicaLogView.checkLsn
  split
  case h_1 previous hprevious =>
    have hlt := h previous hprevious
    exact rejectIf_eq_ok.mpr (Nat.not_le.mpr (Nat.lt_of_lt_of_le hlt hle))
  case h_2 => rfl

/-- The two views stand on the same snapshot and commit frontier. -/
structure SameBase (a b : RaftReplicaLogView) : Prop where
  identity : a.identity = b.identity
  snapshotIndex : a.snapshotIndex = b.snapshotIndex
  snapshotTerm : a.snapshotTerm = b.snapshotTerm
  committedIndex : a.committedIndex = b.committedIndex

theorem SameBase.trans {c : RaftReplicaLogView} (h : SameBase a b) (h' : SameBase b c) :
    SameBase a c :=
  ⟨h.identity.trans h'.identity, h.snapshotIndex.trans h'.snapshotIndex,
    h.snapshotTerm.trans h'.snapshotTerm, h.committedIndex.trans h'.committedIndex⟩

theorem term_le_maximumLogTerm {i : Nat} {entry : RecoveredRaftLogEntry}
    (h : view.entries[i]? = some entry) : entry.record.term ≤ view.maximumLogTerm := by
  have hle : view.maximumLogTerm ≤ view.maximumLogTerm := Nat.le_refl _
  exact supBy_le.mp hle i entry h

theorem SameLog.maximumLogTerm (h : SameLog a b) : a.maximumLogTerm = b.maximumLogTerm := by
  have hle : ∀ {a b : RaftReplicaLogView}, SameLog a b → a.maximumLogTerm ≤ b.maximumLogTerm := by
    intro a b h
    refine supBy_le.mpr ?_
    intro i entry hentry
    obtain ⟨entry', hentry', hrecord⟩ := h.getElem? hentry
    rw [← hrecord]
    exact term_le_maximumLogTerm hentry'
  exact Nat.le_antisymm (hle h) (hle h.symm)

/-- A view takes the records in turn, at some WAL positions. -/
inductive Takes : RaftReplicaLogView → List RaftLogEntryRecord → RaftReplicaLogView → Prop
  | nil (view : RaftReplicaLogView) : Takes view [] view
  | cons {view view' view'' : RaftReplicaLogView} {record : RaftLogEntryRecord}
      {records : List RaftLogEntryRecord} {lsn : Lsn} : view.replay record lsn = .ok view' →
      Takes view' records view'' → Takes view (record :: records) view''

end RaftReplicaLogView

/-! ## Observing a list of records -/

/-- The records of one replica enter its state in turn. -/
def RecoveredRaftReplica.observeAll (core : RaftCore) (self : RecoveredRaftReplica)
    (records : List (RaftWalRecord × RecordExtent)) :
    Except RaftStorageRecoveryError RecoveredRaftReplica :=
  records.foldlM (fun self record => self.observe core record.2.startLsn record.1) self

namespace RaftWalStorage

variable {core : RaftCore} {storage : RaftWalStorage}
variable {preview preview' : Preview} {extents : List RecordExtent} {lsn : Lsn}
  {received : HardState} {snapshot : RaftSnapshotPointerRecord} {first last : RecordExtent}
  {batch : RaftPersistenceBatch} {prepared : PreparedBatch} {view : RaftReplicaLogView}
  {hardState : Option HardState} {replica : RecoveredRaftReplica}

/-- The replica state that recovery would hand to this storage. -/
def asRecovered (self : RaftWalStorage) : RecoveredRaftReplica where
  logView := self.logView
  confState := self.confState
  hardState := self.hardState
  hardStateLsn := self.hardStateLsn
  progress := match self.snapshot with
    | some snapshot =>
      ⟨snapshot.lastIncludedIndex, snapshot.lastIncludedTerm, snapshot.appliedIndex⟩
    | none => ⟨0, 0, 0⟩
  snapshot := self.snapshot
  snapshotPointerLsn := self.snapshotPointerLsn

/-- What holds of a storage between two batches. -/
structure Live (storage : RaftWalStorage) : Prop where
  running : storage.recoveryRequired = false
  identity : storage.logView.identity = storage.identity
  commitInLog : storage.logView.CommitInLog
  committed : storage.logView.committedIndex = (storage.hardState.map HardState.commit).getD 0
  snapshot : storage.logView.snapshotIndex =
    (storage.snapshot.map RaftSnapshotPointerRecord.lastIncludedIndex).getD 0
  terms : storage.asRecovered.maximumObservedTerm ≤
    (storage.hardState.map HardState.currentTerm).getD 0

theorem live_new (identity : RaftReplicaIdentity) : (new identity).Live where
  running := rfl
  identity := rfl
  commitInLog := commitInLog_new identity
  committed := rfl
  snapshot := rfl
  terms := Nat.max_le.mpr ⟨Nat.le_refl _, supBy_le.mpr fun i entry hentry => by
    simp [asRecovered, new, RaftReplicaLogView.new] at hentry⟩

theorem Live.sound (h : storage.Live) : storage.asRecovered.Sound := by
  refine ⟨h.commitInLog, ?_⟩
  intro state hstate
  have hcommitted := h.committed
  rw [show storage.hardState = some state from hstate] at hcommitted
  exact Nat.le_of_eq hcommitted.symm

/-! ## The entries of a batch -/

theorem takes_of_previewEntries {entries : List LogEntry} {acc acc' : List RaftLogEntryRecord}
    (h : entries.foldlM storage.previewEntry (preview, acc) = .ok (preview', acc')) :
    ∃ records, acc' = acc ++ records ∧ preview.view.Takes records preview'.view ∧
      ∀ record ∈ records, record.identity = storage.identity := by
  induction entries generalizing preview acc with
  | nil =>
    cases h
    exact ⟨[], by simp, .nil _, by simp⟩
  | cons entry entries ih =>
    simp only [List.foldlM_cons, eq_ok, previewEntry] at h
    obtain ⟨_, ⟨lsn, _, record, hrecord, view, hview, rfl⟩, hrest⟩ := h
    obtain ⟨records, hacc, htakes, hidentity⟩ := ih hrest
    refine ⟨record :: records, by rw [hacc]; simp, .cons hview htakes, ?_⟩
    have howner := (RaftLogEntryRecord.fromCore_eq_ok hrecord).1
    exact List.forall_mem_cons.mpr ⟨by rw [howner], hidentity⟩

/-- What the entries of a batch do, once durable: the published view agrees with the preview,
and observing the records leads to it. -/
theorem durableEntries_of_takes (core : RaftCore) {a a' b : RaftReplicaLogView}
    {records : List RaftLogEntryRecord} (hsame : a.SameLog b) (htakes : a.Takes records a')
    (hlength : extents.length = records.length) (hextents : ExtentsFrom lsn extents)
    (hbefore : b.Before lsn) :
    ∃ b', durableEntries b (records.zip extents) = .ok b' ∧ a'.SameLog b' ∧
      b'.Before (endOf lsn extents) ∧ b'.SameBase b ∧
      ∀ replica : RecoveredRaftReplica, replica.logView = b →
        replica.progress.truncatedThroughIndex = b.snapshotIndex →
        replica.observeAll core ((records.map RaftWalRecord.logEntry).zip extents) =
          .ok { replica with logView := b' } := by
  induction htakes generalizing b extents lsn with
  | nil =>
    obtain rfl := List.length_eq_zero_iff.mp hlength
    refine ⟨b, rfl, hsame, hbefore, ⟨rfl, rfl, rfl, rfl⟩, ?_⟩
    rintro replica rfl _
    rfl
  | @cons view view' view'' record records lsn₀ hreplay _ ih =>
    obtain _ | ⟨extent, extents⟩ := extents
    · simp at hlength
    obtain ⟨hle, hlt, hrest⟩ := hextents
    obtain ⟨b₁, hb₁, hsame₁⟩ := hsame.replay hreplay (hbefore.checkLsn hle)
    obtain ⟨hvalid, _, _, outcome, hclass, hplace⟩ := replay_eq_ok.mp hb₁
    have hindex := (enters_of_classify hclass).1
    have hbase : b₁.SameBase b := by
      rw [hplace]
      cases outcome <;> exact ⟨rfl, rfl, rfl, rfl⟩
    have hlast : b₁.lastReplayedLsn = some extent.startLsn := by
      rw [hplace]
      cases outcome <;> rfl
    have hbefore₁ : b₁.Before extent.endLsn := by
      intro previous hprevious
      rw [hlast] at hprevious
      cases hprevious
      exact hlt
    obtain ⟨b', hdurable, hsame', hbefore', hbase', hobserve⟩ :=
      ih hsame₁ (Nat.succ.inj hlength) hrest hbefore₁
    refine ⟨b', ?_, hsame', by rw [endOf_cons]; exact hbefore', hbase'.trans hbase, ?_⟩
    · simp only [durableEntries, List.zip_cons_cons, List.foldlM_cons, hb₁, Except.mapError,
        ok_bind]
      exact hdurable
    · rintro replica rfl htruncated
      have hstep : replica.observe core extent.startLsn (.logEntry record) =
          .ok { replica with logView := b₁ } := by
        simp only [observe, observeLogEntry, hvalid, hb₁,
          Except.mapError, ok_bind, rejectIf, htruncated, if_neg (Nat.not_le.mpr hindex)]
        rfl
      simp only [observeAll, List.map_cons, List.zip_cons_cons,
        List.foldlM_cons, hstep, ok_bind]
      exact hobserve { replica with logView := b₁ } rfl (by rw [htruncated, hbase.snapshotIndex])

/-! ## The hard state of a batch -/

theorem validateHardStateSuccessor_some_iff {previous : HardState} :
    validateHardStateSuccessor (some previous) received = .ok () ↔ received.currentTerm ≠ 0 ∧
      previous.currentTerm ≤ received.currentTerm ∧ previous.commit ≤ received.commit ∧
      (received.currentTerm = previous.currentTerm →
        validateVoteSuccessor received.currentTerm previous.votedFor received.votedFor =
          .ok ()) := by
  simp only [validateHardStateSuccessor, eq_ok, Nat.not_lt]
  constructor
  · rintro ⟨_, hzero, _, hterm, _, hcommit, hvote⟩
    refine ⟨hzero, hterm, hcommit, ?_⟩
    intro heq
    rwa [if_pos heq] at hvote
  · rintro ⟨hzero, hterm, hcommit, hvote⟩
    refine ⟨⟨⟩, hzero, ⟨⟩, hterm, ⟨⟩, hcommit, ?_⟩
    split
    case isTrue heq => exact hvote heq
    case isFalse => rfl

theorem validateHardStateSuccessor_onSnapshot {previous : Option HardState}
    (h : validateHardStateSuccessor previous received = .ok ())
    (hcovers : checkCovers received (some snapshot) = .ok ()) :
    validateHardStateSuccessor (some (hardStateOnSnapshot snapshot previous)) received =
      .ok () := by
  simp only [checkCovers, eq_ok, Nat.not_lt] at hcovers
  obtain ⟨_, hterm, hcommit⟩ := hcovers
  rw [validateHardStateSuccessor_some_iff]
  cases previous with
  | none =>
    simp only [validateHardStateSuccessor, eq_ok] at h
    obtain ⟨_, hzero, _⟩ := h
    exact ⟨hzero, hterm, hcommit, fun _ => rfl⟩
  | some =>
    obtain ⟨hzero, hterm', hcommit', hvote⟩ := validateHardStateSuccessor_some_iff.mp h
    unfold hardStateOnSnapshot
    dsimp only
    split
    · exact ⟨hzero, hterm', Nat.max_le.mpr ⟨hcommit', hcommit⟩, hvote⟩
    · exact ⟨hzero, hterm, hcommit, fun _ => rfl⟩

theorem commit_le_of_successor (h : storage.Live)
    (hvalid : validateHardStateSuccessor storage.hardState received = .ok ()) :
    storage.logView.committedIndex ≤ received.commit ∧
      (storage.hardState.map HardState.currentTerm).getD 0 ≤ received.currentTerm := by
  rw [h.committed]
  cases hstate : storage.hardState with
  | none => exact ⟨Nat.zero_le _, Nat.zero_le _⟩
  | some =>
    rw [hstate] at hvalid
    obtain ⟨_, hterm, hcommit, _⟩ := validateHardStateSuccessor_some_iff.mp hvalid
    exact ⟨hcommit, hterm⟩

/-- The storage after the hard state of a batch became durable. -/
def withHardState (storage : RaftWalStorage) (received : HardState) (lsn : Lsn) : RaftWalStorage :=
  { storage with
    logView := { storage.logView with committedIndex := received.commit }
    hardState := some received
    hardStateLsn := some lsn }

/-- Publishing a hard state is observing its record. -/
theorem publishHardState_of_check (core : RaftCore) (storage : RaftWalStorage)
    {record : RaftHardStateRecord} (lsn : Lsn)
    (hrecord : RaftHardStateRecord.fromCore storage.identity received = .ok record)
    (hvalid : validateHardStateSuccessor storage.hardState received = .ok ())
    (hcommit : received.commit ≤ storage.logView.lastIndex.getD 0)
    (hcommitted : storage.logView.committedIndex ≤ received.commit) :
    storage.publishHardState lsn (some received) = .ok (storage.withHardState received lsn) ∧
      record.identity = storage.identity ∧
      storage.asRecovered.observe core lsn (.hardState record) =
        .ok (storage.withHardState received lsn).asRecovered := by
  simp only [RaftHardStateRecord.fromCore, eq_ok] at hrecord
  obtain ⟨⟨⟩, hrecordValid, rfl⟩ := hrecord
  have hadvance : storage.logView.advanceCommit received.commit =
      .ok { storage.logView with committedIndex := received.commit } := by
    simp only [advanceCommit, rejectIf, if_neg (Nat.not_lt.mpr hcommitted), ok_bind]
    rfl
  refine ⟨by simp only [publishHardState, hadvance, Except.mapError, ok_bind]; rfl, rfl, ?_⟩
  simp only [observe, observeHardState, asRecovered,
    hrecordValid, hvalid, hadvance, Except.mapError, ok_bind, rejectIf, gt_iff_lt,
    if_neg (Nat.not_lt.mpr hcommit)]
  rfl

/-! ## The snapshot of a batch -/

/-- The storage after the snapshot of a batch became durable. -/
def withSnapshot (storage : RaftWalStorage) (logView : RaftReplicaLogView) (lsn : Lsn)
    (snapshot : Option RaftSnapshotPointerRecord) : RaftWalStorage :=
  ({ storage with logView } : RaftWalStorage).publishSnapshot lsn snapshot

/-- What the snapshot of a batch, if it has one, leaves once durable. -/
structure AfterSnapshot (core : RaftCore) (storage : RaftWalStorage)
    (snapshot : Option RaftSnapshotPointerRecord) (preview view : RaftReplicaLogView)
    (extents : List RecordExtent) (first : RecordExtent) (lsn : Lsn) : Prop where
  durable : storage.durableSnapshot first.startLsn snapshot = .ok view
  same : preview.SameLog view
  before : view.Before (endOf lsn extents)
  identity : view.identity = storage.identity
  owner : ∀ pointer ∈ snapshot, pointer.identity = storage.identity
  observed : storage.asRecovered.observeAll core
    ((snapshot.toList.map RaftWalRecord.snapshotPointer).zip extents) =
      .ok (storage.withSnapshot view first.startLsn snapshot).asRecovered
  /-- The view stands on the storage's snapshot. -/
  snapshotIndex : view.snapshotIndex = ((storage.withSnapshot view first.startLsn
    snapshot).snapshot.map RaftSnapshotPointerRecord.lastIncludedIndex).getD 0
  /-- A hard state that succeeds the old one and covers the snapshot succeeds the new one. -/
  succeeds : ∀ received, validateHardStateSuccessor storage.hardState received = .ok () →
    checkCovers received snapshot = .ok () →
      validateHardStateSuccessor (storage.withSnapshot view first.startLsn snapshot).hardState
        received = .ok () ∧ view.committedIndex ≤ received.commit ∧
        (view.snapshotBoundary.map Prod.snd).getD 0 ≤ received.currentTerm

section

variable (h : storage.Live) (hsame : preview.view.SameLog storage.logView)
include h hsame

theorem afterSnapshot_none (hpreview : storage.previewSnapshot core preview none = .ok preview')
    (hbefore : storage.logView.Before lsn) (hextents : extents.length = 0) :
    AfterSnapshot core storage none preview'.view storage.logView extents first lsn := by
  cases hpreview
  obtain rfl := List.length_eq_zero_iff.mp hextents
  refine ⟨rfl, hsame, hbefore, h.identity, by simp, rfl, h.snapshot, ?_⟩
  intro received hvalid _
  obtain ⟨hcommitted, hterm⟩ := commit_le_of_successor h hvalid
  exact ⟨hvalid, hcommitted, Nat.le_trans (Nat.max_le.mp h.terms).1 hterm⟩

theorem afterSnapshot_some {extent : RecordExtent}
    (hpreview : storage.previewSnapshot core preview (some snapshot) = .ok preview')
    (hbefore : storage.logView.Before lsn) (hextents : ExtentsFrom lsn [extent]) :
    AfterSnapshot core storage (some snapshot) preview'.view
      (storage.logView.rebase snapshot.lastIncludedIndex snapshot.lastIncludedTerm extent.startLsn)
      [extent] extent lsn := by
  simp only [previewSnapshot, eq_ok, ne_eq] at hpreview
  obtain ⟨⟨⟩, hvalid, _, hidentity, ⟨⟩, hsuccessor, lsn', _, view', hview', rfl⟩ := hpreview
  obtain ⟨hle, hlt, _⟩ := hextents
  obtain ⟨view, hview, hsame'⟩ := hsame.installSnapshot hview' (hbefore.checkLsn hle)
  obtain ⟨_, _, rfl⟩ := installSnapshot_eq_ok.mp hview
  constructor
  case durable => simp [durableSnapshot, hview]
  case same => exact hsame'
  case before =>
    intro previous hprevious
    cases hprevious
    exact hlt
  case identity => exact h.identity
  case owner =>
    intro pointer hpointer
    cases hpointer
    exact hidentity
  case observed =>
    have hstep : storage.asRecovered.observe core extent.startLsn (.snapshotPointer snapshot) =
        .ok (storage.withSnapshot (storage.logView.rebase snapshot.lastIncludedIndex
          snapshot.lastIncludedTerm extent.startLsn) extent.startLsn
            (some snapshot)).asRecovered := by
      simp only [observe, observeSnapshotPointer,
        asRecovered, hvalid, hsuccessor, hview, Except.mapError, ok_bind]
      rfl
    simp only [observeAll, Option.toList_some, List.map_cons, List.map_nil,
      List.zip_cons_cons, List.zip_nil_right, List.foldlM_cons, List.foldlM_nil, hstep, ok_bind]
    rfl
  case snapshotIndex => rfl
  case succeeds =>
    intro received hreceived hcovers
    refine ⟨validateHardStateSuccessor_onSnapshot hreceived hcovers, ?_, ?_⟩
    · simp only [checkCovers, eq_ok, Nat.not_lt] at hcovers
      obtain ⟨_, _, hcommit⟩ := hcovers
      exact Nat.max_le.mpr ⟨(commit_le_of_successor h hreceived).1, hcommit⟩
    · simp only [checkCovers, eq_ok, Nat.not_lt] at hcovers
      obtain ⟨_, hterm, _⟩ := hcovers
      unfold snapshotBoundary
      split
      · exact Nat.zero_le _
      · exact hterm

theorem exists_afterSnapshot {snapshot : Option RaftSnapshotPointerRecord}
    (hpreview : storage.previewSnapshot core preview snapshot = .ok preview')
    (hbefore : storage.logView.Before lsn) (hlength : extents.length = snapshot.toList.length)
    (hextents : ExtentsFrom lsn extents) (hfirst : ∀ extent ∈ extents, extent = first) :
    ∃ view, AfterSnapshot core storage snapshot preview'.view view extents first lsn := by
  cases snapshot with
  | none => exact ⟨_, afterSnapshot_none h hsame hpreview hbefore hlength⟩
  | some =>
    obtain ⟨extent, rfl⟩ := List.length_eq_one_iff.mp hlength
    obtain rfl := hfirst extent List.mem_cons_self
    exact ⟨_, afterSnapshot_some h hsame hpreview hbefore hextents⟩

end

theorem truncatedThroughIndex_asRecovered (storage : RaftWalStorage) :
    storage.asRecovered.progress.truncatedThroughIndex =
      (storage.snapshot.map RaftSnapshotPointerRecord.lastIncludedIndex).getD 0 := by
  unfold asRecovered
  cases storage.snapshot <;> rfl

theorem withSnapshot_eq (view : RaftReplicaLogView) (lsn : Lsn)
    (snapshot : Option RaftSnapshotPointerRecord) : storage.withSnapshot view lsn snapshot =
      { storage.publishSnapshot lsn snapshot with logView := view } := by
  cases snapshot <;> rfl

/-! ## The whole batch -/

/-- The parts of a prepared batch. -/
structure Prepared (core : RaftCore) (storage : RaftWalStorage) (batch : RaftPersistenceBatch)
    (prepared : PreparedBatch) (preview preview' : Preview)
    (hardStateRecords : List RaftWalRecord) : Prop where
  pointerNeedsState : batch.snapshot.isSome → batch.hardState.isSome
  snapshot : storage.previewSnapshot core ⟨storage.logView, storage.logView.lastReplayedLsn.getD 0⟩
    batch.snapshot = .ok preview
  entries : preview.view.Takes prepared.entryRecords preview'.view
  owner : ∀ record ∈ prepared.entryRecords, record.identity = storage.identity
  hardState : storage.checkHardState preview'.view batch.snapshot batch.hardState =
    .ok hardStateRecords
  terms : storage.checkTerms preview'.view batch.hardState = .ok ()
  records : prepared.records = batch.snapshot.toList.map .snapshotPointer ++
    (prepared.entryRecords.map .logEntry ++ hardStateRecords)
  pointer : prepared.snapshot = batch.snapshot
  state : prepared.hardState = batch.hardState

theorem prepared_of_prepareBatch (h : storage.prepareBatch core batch = .ok prepared) :
    ∃ preview preview' hardStateRecords,
      Prepared core storage batch prepared preview preview' hardStateRecords := by
  simp only [prepareBatch, eq_ok] at h
  obtain ⟨_, hneeds, preview, hsnapshot, ⟨preview', entryRecords⟩, hentries, hardStateRecords,
    hstate, ⟨⟩, hterms, rfl⟩ := h
  obtain ⟨records, hrecords, htakes, howner⟩ := takes_of_previewEntries hentries
  subst hrecords
  refine ⟨preview, preview', hardStateRecords, ?_, hsnapshot, htakes, howner, hstate, hterms, ?_,
    rfl, rfl⟩
  · intro hsome
    simpa [hsome, Option.isSome_iff_ne_none] using hneeds
  · rw [List.append_assoc]

section

variable {hardStateRecords : List RaftWalRecord}
  (h : Prepared core storage batch prepared preview preview' hardStateRecords)
include h

theorem Prepared.snapshot_eq_none (hstate : batch.hardState = none) : batch.snapshot = none := by
  have hneeds := h.pointerNeedsState
  rw [hstate] at hneeds
  simpa [Option.isSome_iff_ne_none] using hneeds

theorem Prepared.owner_records
    (hpointer : ∀ pointer ∈ batch.snapshot, pointer.identity = storage.identity)
    (hhard : ∀ raft ∈ hardStateRecords, raft.identity = storage.identity) :
    ∀ raft ∈ prepared.records, raft.identity = storage.identity := by
  rw [h.records]
  intro raft hraft
  rcases List.mem_append.mp hraft with hraft | hraft
  · obtain ⟨pointer, hmem, rfl⟩ := List.mem_map.mp hraft
    exact hpointer pointer (Option.mem_toList.mp hmem)
  · rcases List.mem_append.mp hraft with hraft | hraft
    · obtain ⟨entry, hmem, rfl⟩ := List.mem_map.mp hraft
      exact h.owner entry hmem
    · exact hhard raft hraft

end

theorem length_of_checkHardState {snapshot : Option RaftSnapshotPointerRecord}
    {records : List RaftWalRecord}
    (h : storage.checkHardState view snapshot hardState = .ok records) :
    records.length = hardState.toList.length := by
  cases hardState with
  | none =>
    cases h
    rfl
  | some =>
    simp only [checkHardState, eq_ok] at h
    obtain ⟨_, _, _, _, _, _, _, _, rfl⟩ := h
    rfl

theorem covered_of_checkTerms {preview : RaftReplicaLogView}
    (h : storage.checkTerms preview hardState = .ok ()) (hsame : preview.SameLog view) {term : Nat}
    (hterm : ((hardState.map HardState.currentTerm).or
      (storage.hardState.map HardState.currentTerm)).getD 0 = term)
    (hsnapshot : (view.snapshotBoundary.map Prod.snd).getD 0 ≤ term) :
    max ((view.snapshotBoundary.map Prod.snd).getD 0) view.maximumLogTerm ≤ term := by
  have hboundary : preview.snapshotBoundary = view.snapshotBoundary := by
    simp only [snapshotBoundary, hsame.snapshotIndex, hsame.snapshotTerm]
  simp only [checkTerms, eq_ok, Nat.not_lt, hterm, hboundary, hsame.maximumLogTerm] at h
  omega

/-- What a durable batch leaves: the published storage, and the same state by recovery. -/
structure Published (core : RaftCore) (storage : RaftWalStorage) (prepared : PreparedBatch)
    (extents : List RecordExtent) (first last : RecordExtent) (lsn : Lsn)
    (storage' : RaftWalStorage) : Prop where
  publish : storage.publishBatch prepared extents first last = .ok storage'
  live : storage'.Live
  identity : storage'.identity = storage.identity
  before : storage'.logView.Before (endOf lsn extents)
  observed : storage.asRecovered.observeAll core (prepared.records.zip extents) =
    .ok storage'.asRecovered
  owner : ∀ record ∈ prepared.records, record.identity = storage.identity

theorem Sound.observeAll {replica' : RecoveredRaftReplica} (h : replica.Sound)
    {records : List (RaftWalRecord × RecordExtent)}
    (hobserve : replica.observeAll core records = .ok replica') : replica'.Sound :=
  foldlM_ok (P := fun _ replica => replica.Sound) (fun hs hstep => hs.observe hstep) h hobserve

/-- A batch without a hard state has entries only. -/
theorem published_of_entries (h : storage.Live)
    (hprepared : Prepared core storage batch prepared preview preview' [])
    (hstate : batch.hardState = none) (hlength : extents.length = prepared.records.length)
    (hextents : ExtentsFrom lsn extents) (hbefore : storage.logView.Before lsn) :
    ∃ storage', Published core storage prepared extents first last lsn storage' := by
  have hsnapshot := hprepared.snapshot_eq_none hstate
  have hpreview := hprepared.snapshot
  rw [hsnapshot] at hpreview
  cases hpreview
  have hrecords := hprepared.records
  rw [hsnapshot, Option.toList_none, List.map_nil, List.nil_append, List.append_nil] at hrecords
  rw [hrecords, List.length_map] at hlength
  obtain ⟨view, hdurable, hsame, hbefore', hbase, hobserve⟩ :=
    durableEntries_of_takes core (.refl storage.logView) hprepared.entries hlength
      hextents hbefore
  have hobserved := hobserve storage.asRecovered rfl
    (by rw [truncatedThroughIndex_asRecovered]; exact h.snapshot.symm)
  refine ⟨{ storage with logView := view, durableEndLsn := some last.endLsn }, ?_⟩
  constructor
  case publish =>
    simp only [publishBatch, hprepared.pointer, hprepared.state, hsnapshot, hstate, durableSnapshot,
      Option.toList_none, List.length_nil, List.drop_zero, hdurable, ok_bind, publishSnapshot,
      publishHardState]
    rfl
  case identity => rfl
  case before => exact hbefore'
  case observed =>
    rw [hrecords]
    exact hobserved
  case owner => exact hprepared.owner_records (by simp [hsnapshot]) (by simp)
  case live =>
    have hterms := hprepared.terms
    rw [hstate] at hterms
    exact {
      running := h.running
      identity := by rw [hbase.identity]; exact h.identity
      commitInLog := (Sound.observeAll h.sound hobserved).commitInLog
      committed := by rw [hbase.committedIndex]; exact h.committed
      snapshot := by rw [hbase.snapshotIndex]; exact h.snapshot
      terms := covered_of_checkTerms hterms hsame rfl (by
        rw [snapshotBoundary, hbase.snapshotIndex, hbase.snapshotTerm]
        exact (Nat.max_le.mp h.terms).1) }

theorem observeAll_append {replica₁ replica₂ replica₃ : RecoveredRaftReplica}
    {as bs cs : List (RaftWalRecord × RecordExtent)}
    (ha : replica.observeAll core as = .ok replica₁)
    (hb : replica₁.observeAll core bs = .ok replica₂)
    (hc : replica₂.observeAll core cs = .ok replica₃) :
    replica.observeAll core (as ++ (bs ++ cs)) = .ok replica₃ := by
  unfold observeAll at *
  rw [List.foldlM_append, ha, ok_bind, List.foldlM_append, hb, ok_bind, hc]

/-- A batch with a hard state: the snapshot if there is one, the entries, the hard state. -/
theorem published_of_hardState (h : storage.Live) {hardStateRecords : List RaftWalRecord}
    (hprepared : Prepared core storage batch prepared preview preview' hardStateRecords)
    (hstate : batch.hardState = some received) {xs ys : List RecordExtent}
    (hxs : xs.length = batch.snapshot.toList.length)
    (hys : ys.length = prepared.entryRecords.length) (hfirst : ∀ extent ∈ xs, extent = first)
    (hextents : ExtentsFrom lsn (xs ++ (ys ++ [last]))) (hbefore : storage.logView.Before lsn) :
    ∃ storage', Published core storage prepared (xs ++ (ys ++ [last])) first last lsn storage' := by
  obtain ⟨hxsFrom, hrest⟩ := extentsFrom_append.mp hextents
  obtain ⟨hysFrom, hlastFrom⟩ := extentsFrom_append.mp hrest
  obtain ⟨view, hafter⟩ := exists_afterSnapshot h (.refl storage.logView) hprepared.snapshot hbefore
    hxs hxsFrom hfirst
  obtain ⟨view', hdurable, hsame, hbefore', hbase, hobserve⟩ :=
    durableEntries_of_takes core hafter.same hprepared.entries hys hysFrom hafter.before
  -- the checks of the hard state, at the view after the entries
  have hcheck := hprepared.hardState
  rw [hstate] at hcheck
  simp only [checkHardState, eq_ok, gt_iff_lt, Nat.not_lt] at hcheck
  obtain ⟨⟨⟩, hvalid, ⟨⟩, hcovers, _, hcommit, record, hrecord, rfl⟩ := hcheck
  obtain ⟨hsucceeds, hcommitted, hterm⟩ := hafter.succeeds received hvalid hcovers
  have hsnapshotIndex := hafter.snapshotIndex
  have hobservedSnapshot := hafter.observed
  rw [withSnapshot_eq] at hsucceeds hsnapshotIndex hobservedSnapshot
  have hidentity : (storage.publishSnapshot first.startLsn batch.snapshot).identity =
      storage.identity := by
    cases batch.snapshot <;> rfl
  have hrunning : (storage.publishSnapshot first.startLsn batch.snapshot).recoveryRequired =
      storage.recoveryRequired := by
    cases batch.snapshot <;> rfl
  have hpublishSnapshot : storage.withSnapshot view' first.startLsn batch.snapshot = _ :=
    withSnapshot_eq ..
  generalize storage.publishSnapshot first.startLsn batch.snapshot = base at *
  rw [hsame.lastIndex] at hcommit
  rw [← hbase.committedIndex] at hcommitted
  rw [← hidentity] at hrecord
  obtain ⟨hpublish, howner, hobserveState⟩ := publishHardState_of_check core
    { base with logView := view' } last.startLsn hrecord hsucceeds hcommit hcommitted
  have hobservedEntries := hobserve ({ base with logView := view } : RaftWalStorage).asRecovered rfl
    (by rw [truncatedThroughIndex_asRecovered]; exact hsnapshotIndex.symm)
  have hobserved : storage.asRecovered.observeAll core
      (prepared.records.zip (xs ++ (ys ++ [last]))) = .ok
        (({ base with logView := view' } : RaftWalStorage).withHardState received
          last.startLsn).asRecovered := by
    rw [hprepared.records, List.zip_append (by simp [hxs]), List.zip_append (by simp [hys])]
    refine observeAll_append hobservedSnapshot hobservedEntries ?_
    exact (congrArg (· >>= pure) hobserveState).trans rfl
  refine ⟨{ ({ base with logView := view' } : RaftWalStorage).withHardState received
    last.startLsn with durableEndLsn := some last.endLsn }, ?_⟩
  constructor
  case publish =>
    have hdrop : (xs ++ (ys ++ [last])).drop batch.snapshot.toList.length = ys ++ [last] := by
      rw [← hxs, List.drop_left]
    have hzip : prepared.entryRecords.zip (ys ++ [last]) = prepared.entryRecords.zip ys := by
      calc prepared.entryRecords.zip (ys ++ [last])
          = (prepared.entryRecords ++ []).zip (ys ++ [last]) := by rw [List.append_nil]
        _ = prepared.entryRecords.zip ys := by rw [List.zip_append hys.symm]; simp
    simp only [publishBatch, hprepared.pointer, hprepared.state, hstate, hafter.durable,
      hdrop, hzip, hdurable, ok_bind]
    rw [withSnapshot] at hpublishSnapshot
    rw [hpublishSnapshot, hpublish]
    rfl
  case identity => exact hidentity
  case before =>
    intro previous hprevious
    have hlt := hbefore' previous hprevious
    obtain ⟨hle, hlast, _⟩ := hlastFrom
    rw [endOf_append, endOf_append]
    exact Nat.lt_trans (Nat.lt_of_lt_of_le hlt hle) hlast
  case observed => exact hobserved
  case owner =>
    refine hprepared.owner_records hafter.owner ?_
    intro raft hraft
    obtain rfl := List.mem_singleton.mp hraft
    exact howner.trans hidentity
  case live =>
    have hterms := hprepared.terms
    rw [hstate] at hterms
    have hsnapshotTerm : (view'.snapshotBoundary.map Prod.snd).getD 0 ≤ received.currentTerm := by
      rw [snapshotBoundary, hbase.snapshotIndex, hbase.snapshotTerm]
      exact hterm
    exact {
      running := hrunning.trans h.running
      identity := (hbase.identity.trans hafter.identity).trans hidentity.symm
      commitInLog := (Sound.observeAll h.sound hobserved).commitInLog
      committed := rfl
      snapshot := hbase.snapshotIndex.trans hsnapshotIndex
      terms := covered_of_checkTerms hterms hsame rfl hsnapshotTerm }

/-- A prepared batch whose records became durable is published, and recovery observes the
same state. -/
theorem published_of_prepareBatch (h : storage.Live)
    (hprepare : storage.prepareBatch core batch = .ok prepared)
    (hlength : extents.length = prepared.records.length) (hextents : ExtentsFrom lsn extents)
    (hbefore : storage.logView.Before lsn) (hfirst : extents.head? = some first)
    (hlast : extents.getLast? = some last) :
    ∃ storage', Published core storage prepared extents first last lsn storage' := by
  obtain ⟨preview, preview', hardStateRecords, hprepared⟩ := prepared_of_prepareBatch hprepare
  have hcount := length_of_checkHardState hprepared.hardState
  cases hstate : batch.hardState with
  | none =>
    rw [hstate] at hcount
    obtain rfl := List.length_eq_zero_iff.mp hcount
    exact published_of_entries h hprepared hstate hlength hextents hbefore
  | some =>
    rw [hstate] at hcount
    rw [hprepared.records] at hlength
    simp only [List.length_append, List.length_map, hcount, Option.toList_some, List.length_cons,
      List.length_nil] at hlength
    -- split the extents as the records are
    obtain ⟨init, rfl⟩ := List.getLast?_eq_some_iff.mp hlast
    rw [List.length_append, List.length_singleton] at hlength
    have hsplit : init = init.take batch.snapshot.toList.length ++
        init.drop batch.snapshot.toList.length := (List.take_append_drop _ _).symm
    have hfirst' : ∀ extent ∈ init.take batch.snapshot.toList.length, extent = first := by
      cases hsnapshot : batch.snapshot with
      | none => simp
      | some =>
        cases init with
        | nil =>
          rw [hsnapshot] at hlength
          simp at hlength
        | cons =>
          cases hfirst
          simp
    rw [hsplit, List.append_assoc] at hextents ⊢
    exact published_of_hardState h hprepared hstate (by rw [List.length_take]; omega)
      (by rw [List.length_drop]; omega) hfirst' hextents hbefore

end RaftWalStorage

end RagnorDb
