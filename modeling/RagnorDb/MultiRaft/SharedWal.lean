import RagnorDb.Lib.Lts
import RagnorDb.MultiRaft.PersistenceReplay

/-!
# Replicas on one shared WAL

Any number of replica lifetimes persist batches on one WAL, between records of other
subsystems.  The WAL is outside the repository; it answers an append with extents in order,
above everything that it returned before.
-/

namespace RagnorDb

open Std Checked RecoveredRaftStorage RaftWalStorage

/-- The durable records of the shared WAL, and the position after them. -/
structure SharedWal where
  records : List WalRecord
  endLsn : Lsn
  deriving DecidableEq

namespace SharedWal

/-- The records as they are read back. -/
def placed (records : List RaftWalRecord) (extents : List RecordExtent) : List WalRecord :=
  (records.zip extents).map fun record => ⟨record.2.startLsn, some record.1⟩

def append (self : SharedWal) (records : List RaftWalRecord) (extents : List RecordExtent) :
    SharedWal :=
  ⟨self.records ++ placed records extents, endOf self.endLsn extents⟩

/-- A record of another subsystem. -/
def appendOther (self : SharedWal) (extent : RecordExtent) : SharedWal :=
  ⟨self.records ++ [⟨extent.startLsn, none⟩], extent.endLsn⟩

end SharedWal

/-- The shared WAL and the storages of the replica lifetimes on it. -/
structure RaftNode where
  wal : SharedWal
  storages : RaftReplicaIdentity → RaftWalStorage

namespace RaftNode

inductive Action where
  | persist (identity : RaftReplicaIdentity) (batch : RaftPersistenceBatch)
      (extents : List RecordExtent)
  | appendOther (extent : RecordExtent)

variable (core : RaftCore)

/-- One successful call.  The extents are the WAL's answer to the records of the batch. -/
def next (self : RaftNode) : Action → Option RaftNode
  | .persist identity batch extents =>
    match (self.storages identity).prepareBatch core batch with
    | .error _ => none
    | .ok prepared =>
      if extents.length = prepared.records.length ∧ ExtentsFrom self.wal.endLsn extents then
        match (persist core batch
          fun _ => .ok ⟨extents, endOf self.wal.endLsn extents⟩).run (self.storages identity) with
        | .error _ _ => none
        | .ok _ storage => some {
            wal := self.wal.append prepared.records extents
            storages := Function.update self.storages identity storage }
      else none
  | .appendOther extent =>
    if ExtentsFrom self.wal.endLsn [extent] then
      some { self with wal := self.wal.appendOther extent }
    else none

/-- An empty WAL, and a fresh storage for each replica lifetime. -/
def start : RaftNode := ⟨⟨[], 0⟩, .new⟩

def system : Lts RaftNode Action := .ofNext (· = start) (next core)

end RaftNode

/-! ## The scan follows the storages -/

namespace RecoveredRaftStorage

variable {core : RaftCore} {scanned : RecoveredRaftStorage} {lsn : Lsn}

/-- The scan has read nothing at or above a position. -/
def Before (scanned : RecoveredRaftStorage) (lsn : Lsn) : Prop :=
  ∀ last, scanned.lastScannedLsn = some last → last < lsn

theorem Before.checkLsn {lsn' : Lsn} (h : scanned.Before lsn) (hle : lsn ≤ lsn') :
    scanned.checkLsn lsn' = .ok () := by
  unfold RecoveredRaftStorage.checkLsn
  split
  case h_1 last hlast =>
    exact rejectIf_eq_ok.mpr (Nat.not_le.mpr (Nat.lt_of_lt_of_le (h last hlast) hle))
  case h_2 => rfl

/-- Scanning the records of one replica, at rising positions. -/
theorem scan_placed {identity : RaftReplicaIdentity} {replica : RecoveredRaftReplica}
    {records : List RaftWalRecord} {extents : List RecordExtent}
    (hobserve : (scanned.replica identity).observeAll core (records.zip extents) = .ok replica)
    (howner : ∀ record ∈ records, record.identity = identity)
    (hlength : extents.length = records.length) (hextents : ExtentsFrom lsn extents)
    (hbefore : scanned.Before lsn) :
    ∃ scanned', (SharedWal.placed records extents).foldlM (observeRecord core) scanned =
      .ok scanned' ∧ scanned'.replica identity = replica ∧
      (∀ other, other ≠ identity → scanned'.replica other = scanned.replica other) ∧
      scanned'.Before (endOf lsn extents) := by
  induction records generalizing scanned extents lsn with
  | nil =>
    obtain rfl := List.length_eq_zero_iff.mp hlength
    cases hobserve
    exact ⟨scanned, rfl, rfl, fun _ _ => rfl, hbefore⟩
  | cons record records ih =>
    obtain _ | ⟨extent, extents⟩ := extents
    · simp at hlength
    obtain ⟨hle, hlt, hrest⟩ := hextents
    obtain ⟨rfl, howner'⟩ := List.forall_mem_cons.mp howner
    simp only [RecoveredRaftReplica.observeAll, List.zip_cons_cons, List.foldlM_cons,
      eq_ok] at hobserve
    obtain ⟨replica₁, hstep, hobserve⟩ := hobserve
    let scanned₁ : RecoveredRaftStorage :=
      ⟨scanned.replicas.insert record.identity replica₁, scanned.scannedRecords + 1,
        some extent.startLsn⟩
    have hrecord : scanned.observeRecord core ⟨extent.startLsn, some record⟩ = .ok scanned₁ := by
      simp only [observeRecord, hbefore.checkLsn hle, ok_bind, route]
      change (do let replica ← (scanned.replica record.identity).observe core _ record; _) = _
      rw [hstep]
      rfl
    have hobserve₁ : (scanned₁.replica record.identity).observeAll core (records.zip extents) =
        .ok replica := by
      rw [show scanned₁.replica record.identity = replica₁ by
        simp [scanned₁, RecoveredRaftStorage.replica]]
      exact hobserve
    have hbefore₁ : scanned₁.Before extent.endLsn := by
      intro last hlast
      cases hlast
      exact hlt
    obtain ⟨scanned', hscan, hself, hothers, hbefore'⟩ :=
      ih hobserve₁ howner' (Nat.succ.inj hlength) hrest hbefore₁
    refine ⟨scanned', ?_, hself, ?_, by rw [endOf_cons]; exact hbefore'⟩
    · simp only [SharedWal.placed, List.zip_cons_cons, List.map_cons, List.foldlM_cons, hrecord,
        ok_bind]
      exact hscan
    · intro other hne
      rw [hothers other hne]
      simp [scanned₁, RecoveredRaftStorage.replica, OrderedMap.getElem?_insert,
        if_neg (Ne.symm hne)]

end RecoveredRaftStorage

namespace RaftNode

variable {core : RaftCore} {s t : RaftNode}
variable {storage : RaftWalStorage} {batch : RaftPersistenceBatch} {prepared : PreparedBatch}
  {extents : List RecordExtent} {persisted : RaftPersistedBatch} {scanned : RecoveredRaftStorage}
  {configurations : ExtTreeMap RaftReplicaIdentity ConfState}

/-- Recovery of the WAL rebuilds what the storages hold. -/
structure Follows (core : RaftCore) (s : RaftNode) (scanned : RecoveredRaftStorage) : Prop where
  scan : scan core s.wal.records = .ok scanned
  before : scanned.Before s.wal.endLsn
  replica : ∀ identity, scanned.replica identity = (s.storages identity).asRecovered
  live : ∀ identity, (s.storages identity).Live
  identity : ∀ identity, (s.storages identity).identity = identity
  storageBefore : ∀ identity, (s.storages identity).logView.Before s.wal.endLsn

theorem follows_start : Follows core start .empty where
  scan := rfl
  before := by simp [Before, empty]
  replica identity := by simp [replica, empty]; rfl
  live identity := live_new identity
  identity _ := rfl
  storageBefore _ := by
    simp [start, RaftWalStorage.new, RaftReplicaLogView.new, RaftReplicaLogView.Before]

/-- What a successful call with records publishes. -/
theorem publishBatch_of_persist {storage' : RaftWalStorage} {lsn : Lsn}
    (hprepare : storage.prepareBatch core batch = .ok prepared)
    (h : (persist core batch fun _ => .ok ⟨extents, endOf lsn extents⟩).run storage =
      .ok persisted storage') :
    prepared.records = [] ∧ storage' = storage ∨
      ∃ first last, extents.head? = some first ∧ extents.getLast? = some last ∧
        storage.publishBatch prepared extents first last = .ok storage' := by
  simp only [persist, run_eq_ok, hprepare, Except.ok.injEq, exists_eq_left'] at h
  obtain ⟨_, _, h⟩ := h
  by_cases hnil : prepared.records = []
  · rw [appendPreparedBatch, if_pos hnil, pure_bind,
      commitPreparedBatch_of_nil hnil] at h
    cases h
    exact .inl ⟨hnil, rfl⟩
  · rw [appendPreparedBatch, if_neg hnil] at h
    obtain ⟨-, first, last, hfirst, hlast, -, hpublish, -⟩ :=
      (commitPreparedBatch_run_eq_ok hnil).mp h
    exact .inr ⟨first, last, hfirst, hlast, hpublish⟩

/-- What an accepted batch leaves, whether it has records or not. -/
theorem Follows.persist_spec (h : Follows core s scanned) {identity : RaftReplicaIdentity}
    (hstep : next core s (.persist identity batch extents) = some t) :
    ∃ prepared storage, (s.storages identity).prepareBatch core batch = .ok prepared ∧
      t = ⟨s.wal.append prepared.records extents, Function.update s.storages identity storage⟩ ∧
      extents.length = prepared.records.length ∧ ExtentsFrom s.wal.endLsn extents ∧
      (∀ record ∈ prepared.records, record.identity = identity) ∧
      (s.storages identity).asRecovered.observeAll core (prepared.records.zip extents) =
        .ok storage.asRecovered ∧
      storage.Live ∧ storage.identity = identity ∧
      storage.logView.Before (endOf s.wal.endLsn extents) := by
  simp only [next] at hstep
  split at hstep
  case h_1 => cases hstep
  case h_2 prepared hprepare =>
    split at hstep
    case isFalse => cases hstep
    case isTrue hguard =>
      split at hstep
      case h_1 => cases hstep
      case h_2 persisted storage hpersist =>
        cases hstep
        refine ⟨prepared, storage, hprepare, rfl, hguard.1, hguard.2, ?_⟩
        rcases publishBatch_of_persist hprepare hpersist with
          ⟨hnil, rfl⟩ | ⟨first, last, hfirst, hlast, hpublish⟩
        · rw [hnil] at hguard ⊢
          obtain rfl := List.length_eq_zero_iff.mp hguard.1
          exact ⟨by simp, rfl, h.live identity, h.identity identity, h.storageBefore identity⟩
        · obtain ⟨storage', hpublished⟩ := published_of_prepareBatch
            (h.live identity) hprepare hguard.1 hguard.2 (h.storageBefore identity) hfirst hlast
          cases hpublish.symm.trans hpublished.publish
          have hid := h.identity identity
          exact ⟨fun record hrecord => (hpublished.owner record hrecord).trans hid,
            hpublished.observed, hpublished.live, hpublished.identity.trans hid, hpublished.before⟩

/-- A persisted batch, seen from the scan. -/
theorem Follows.persist (h : Follows core s scanned) {identity : RaftReplicaIdentity}
    (hstep : next core s (.persist identity batch extents) = some t) :
    ∃ scanned', Follows core t scanned' := by
  obtain ⟨prepared, storage, -, rfl, hlength, hextents, howner, hobserved, hlive, hidentity,
    hlast⟩ := h.persist_spec hstep
  rw [← h.replica] at hobserved
  obtain ⟨scanned', hscan, hself, hothers, hbefore⟩ :=
    scan_placed hobserved howner hlength hextents h.before
  have hstorage : ∀ other, Function.update s.storages identity storage other =
      if other = identity then storage else s.storages other := by
    intro other
    rw [Function.update_apply]
  refine ⟨scanned', ?_, hbefore, ?_, ?_, ?_, ?_⟩
  · simp only [RecoveredRaftStorage.scan, SharedWal.append, List.foldlM_append]
    rw [show List.foldlM _ _ s.wal.records = Except.ok scanned from h.scan, ok_bind, hscan]
  · intro other
    simp only [hstorage]
    split
    case isTrue hid => rw [hid, hself]
    case isFalse hid => rw [hothers other hid, h.replica]
  · intro other
    simp only [hstorage]
    split
    · exact hlive
    · exact h.live other
  · intro other
    simp only [hstorage]
    split
    case isTrue hid => rw [hid, hidentity]
    case isFalse => exact h.identity other
  · intro other
    simp only [hstorage]
    split
    · exact hlast
    · exact (h.storageBefore other).mono (le_endOf hextents)

theorem Follows.appendOther (h : Follows core s scanned) {extent : RecordExtent}
    (hextent : ExtentsFrom s.wal.endLsn [extent]) :
    ∃ scanned', Follows core { s with wal := s.wal.appendOther extent } scanned' := by
  obtain ⟨hle, hlt, _⟩ := hextent
  refine ⟨{ scanned with
    scannedRecords := scanned.scannedRecords + 1
    lastScannedLsn := some extent.startLsn },
    { h with scan := ?_, before := ?_, storageBefore := ?_ }⟩
  · simp only [RecoveredRaftStorage.scan, SharedWal.appendOther, List.foldlM_append]
    rw [show List.foldlM _ _ s.wal.records = Except.ok scanned from h.scan, ok_bind]
    simp only [List.foldlM_cons, List.foldlM_nil, observeRecord,
      h.before.checkLsn hle, ok_bind, route]
    rfl
  · intro last hlast
    cases hlast
    exact hlt
  · intro identity
    exact (h.storageBefore identity).mono (Nat.le_trans hle (Nat.le_of_lt hlt))

theorem Follows.step (h : Follows core s scanned) {a : Action}
    (hstep : next core s a = some t) : ∃ scanned', Follows core t scanned' := by
  cases a with
  | persist => exact h.persist hstep
  | appendOther =>
    simp only [next, eq_some] at hstep
    obtain ⟨hextent, rfl⟩ := hstep
    exact h.appendOther hextent

theorem exists_follows (h : (system core).Reachable s) : ∃ scanned, Follows core s scanned :=
  h.invariant (P := fun s => ∃ scanned, Follows core s scanned)
    (fun hinit => ⟨_, hinit ▸ follows_start⟩)
    (fun _ hs hstep => hs.elim fun _ hfollows => hfollows.step hstep)

theorem recovered_of_scan {records : List WalRecord} {recovered : RecoveredRaftStorage}
    (hscan : scan core records = .ok scanned)
    (hrecover : recoverRaftStorageWithConfigurations core configurations records = .ok recovered)
    (identity : RaftReplicaIdentity) :
    (recovered.replica identity).Safe ∧
      ∀ lsn hardState, ⟨lsn, some (.hardState hardState)⟩ ∈ records →
        hardState.identity = identity →
          (recovered.replica identity).Remembers hardState.hardState := by
  have hrecalls := recalls_of_scan hscan
  rw [recover_of_scan hscan] at hrecover
  obtain ⟨confState, hreplica⟩ :=
    replica_of_finishConfigurations hrecover identity
  rw [hreplica]
  constructor
  · have hsafe := (hrecalls.sound identity).safe_normalize
    exact ⟨hsafe.entryTerm, hsafe.snapshotTerm, hsafe.commit⟩
  · intro lsn hardState hmem hidentity
    subst hidentity
    exact (hrecalls.hardStates lsn hardState hmem).normalize

theorem Follows.recovered {recovered : RecoveredRaftStorage} (h : Follows core s scanned)
    (hrecover : recoverRaftStorageWithConfigurations core configurations s.wal.records =
      .ok recovered) (identity : RaftReplicaIdentity) :
    (recovered.replica identity).logView = (s.storages identity).logView ∧
      (recovered.replica identity).snapshot = (s.storages identity).snapshot ∧
      (recovered.replica identity).hardState = (s.storages identity).hardState := by
  rw [recover_of_scan h.scan] at hrecover
  obtain ⟨confState, hreplica⟩ :=
    replica_of_finishConfigurations hrecover identity
  have hcovered := RecoveredRaftReplica.normalizeHardStateTerm_of_covered (h.live identity).terms
  rw [hreplica, h.replica, hcovered]
  exact ⟨rfl, rfl, rfl⟩

/-- Any prefix of what the replicas of a node have persisted is scanned, and recovery answers
exactly if the committed configuration entries apply to the membership that they start from.
Its answer covers the terms of the log, keeps every durable vote and commits inside the log;
for the whole WAL it is what the live storages hold. -/
theorem recovery_agrees (h : (system core).Reachable s) {records : List WalRecord}
    (hpre : records <+: s.wal.records) :
    ∃ scanned, scan core records = .ok scanned ∧
      ∀ configurations,
        ((∃ recovered, recoverRaftStorageWithConfigurations core configurations records =
            .ok recovered) ↔ scanned.Configured core configurations) ∧
        ∀ recovered, recoverRaftStorageWithConfigurations core configurations records =
            .ok recovered → ∀ identity, (recovered.replica identity).Safe ∧
          (∀ lsn hardState, ⟨lsn, some (.hardState hardState)⟩ ∈ records →
            hardState.identity = identity →
              (recovered.replica identity).Remembers hardState.hardState) ∧
          (records = s.wal.records →
            (recovered.replica identity).logView = (s.storages identity).logView ∧
            (recovered.replica identity).snapshot = (s.storages identity).snapshot ∧
            (recovered.replica identity).hardState = (s.storages identity).hardState) := by
  obtain ⟨whole, hfollows⟩ := exists_follows h
  obtain ⟨scanned, hscan⟩ := exists_scan_of_prefix hpre hfollows.scan
  refine ⟨scanned, hscan, fun configurations => ⟨?_, ?_⟩⟩
  · rw [recover_of_scan hscan]
    exact exists_finishConfigurations
  · intro recovered hrecover identity
    obtain ⟨hsafe, hremembers⟩ := recovered_of_scan hscan hrecover identity
    refine ⟨hsafe, hremembers, ?_⟩
    intro hwhole
    subst hwhole
    exact hfollows.recovered hrecover identity

/-! ## Two replicas on one WAL -/

/-- A Raft core that admits every change and leaves the membership as it is. -/
def sampleCore : RaftCore := ⟨fun _ => .ok (), fun state _ => .ok state⟩

/-- The second batch of the first replica replaces its entry 2 by one of a higher term. -/
def sampleActions : List Action :=
  [.persist ⟨1, 1⟩ ⟨none, [⟨1, 1, .normal [7]⟩, ⟨2, 1, .normal [8]⟩], some ⟨1, some 1, 1⟩⟩
      [⟨0, 10⟩, ⟨10, 20⟩, ⟨20, 30⟩],
    .persist ⟨2, 1⟩ ⟨none, [⟨1, 1, .normal [9]⟩], some ⟨1, none, 0⟩⟩ [⟨30, 40⟩, ⟨40, 50⟩],
    .appendOther ⟨50, 60⟩,
    .persist ⟨1, 1⟩ ⟨none, [⟨2, 2, .normal [6]⟩], some ⟨2, some 2, 2⟩⟩ [⟨60, 70⟩, ⟨70, 80⟩]]

def sampleRecords : List WalRecord :=
  [⟨0, some (.logEntry ⟨1, ⟨1, 1⟩, 1, 1, .normal [7]⟩)⟩,
    ⟨10, some (.logEntry ⟨1, ⟨1, 1⟩, 2, 1, .normal [8]⟩)⟩,
    ⟨20, some (.hardState ⟨1, ⟨1, 1⟩, ⟨1, some 1, 1⟩⟩)⟩,
    ⟨30, some (.logEntry ⟨1, ⟨2, 1⟩, 1, 1, .normal [9]⟩)⟩,
    ⟨40, some (.hardState ⟨1, ⟨2, 1⟩, ⟨1, none, 0⟩⟩)⟩,
    ⟨50, none⟩,
    ⟨60, some (.logEntry ⟨1, ⟨1, 1⟩, 2, 2, .normal [6]⟩)⟩,
    ⟨70, some (.hardState ⟨1, ⟨1, 1⟩, ⟨2, some 2, 2⟩⟩)⟩]

/-- A crash before the last record loses the hard state of term 2 and keeps its entry. -/
theorem recovery_agrees_inside_batch :
    ∃ s recovered, (system sampleCore).Reachable s ∧ s.wal.records = sampleRecords ∧
      recoverRaftStorageWithConfigurations sampleCore ∅ sampleRecords.dropLast = .ok recovered ∧
      (recovered.replica ⟨1, 1⟩).hardState = some ⟨2, none, 1⟩ ∧
      (recovered.replica ⟨1, 1⟩).Safe ∧
      (recovered.replica ⟨1, 1⟩).Remembers ⟨1, some 1, 1⟩ := by
  have hrun : (sampleActions.foldlM (next sampleCore) start).map (fun s => s.wal.records) =
      some sampleRecords := by decide +kernel
  have hcut : (recoverRaftStorageWithConfigurations sampleCore ∅
      sampleRecords.dropLast).toOption.map
      (fun recovered => (recovered.replica ⟨1, 1⟩).hardState) = some (some ⟨2, none, 1⟩) := by
    decide +kernel
  obtain ⟨s, hreachable, hrecords⟩ := Lts.Reachable.of_run (L := system sampleCore) hrun rfl id
  obtain ⟨recovered, hrecovered, hhard⟩ := Option.map_eq_some_iff.mp hcut
  have hrecover := toOption_eq_some.mp hrecovered
  have hpre : sampleRecords.dropLast <+: s.wal.records := by
    rw [hrecords]
    exact List.dropLast_prefix sampleRecords
  obtain ⟨scanned, _, hagrees⟩ := recovery_agrees hreachable hpre
  obtain ⟨hsafe, hremembers, _⟩ := (hagrees ∅).2 recovered hrecover ⟨1, 1⟩
  exact ⟨s, recovered, hreachable, hrecords, hrecover, hhard, hsafe,
    hremembers 20 ⟨1, ⟨1, 1⟩, ⟨1, some 1, 1⟩⟩ (by decide) rfl⟩

/-- A committed membership change of a group without a bootstrap configuration. -/
def unconfiguredActions : List Action :=
  [.persist ⟨1, 1⟩ ⟨none, [⟨1, 1, .configuration ⟨1, .addLearner 2⟩⟩], some ⟨1, some 1, 1⟩⟩
    [⟨0, 10⟩, ⟨10, 20⟩]]

theorem recovery_refuses_unconfigured :
    ∃ s, (system sampleCore).Reachable s ∧
      recoverRaftStorageWithConfigurations sampleCore ∅ s.wal.records =
        .error (.missingInitialConfiguration ⟨1, 1⟩ 1) := by
  have hrun : (unconfiguredActions.foldlM (next sampleCore) start).map (fun s => s.wal.records) =
      some [⟨0, some (.logEntry ⟨1, ⟨1, 1⟩, 1, 1, .configuration ⟨1, .addLearner 2⟩⟩)⟩,
        ⟨10, some (.hardState ⟨1, ⟨1, 1⟩, ⟨1, some 1, 1⟩⟩)⟩] := by decide +kernel
  obtain ⟨s, hreachable, hrecords⟩ := Lts.Reachable.of_run (L := system sampleCore) hrun rfl id
  refine ⟨s, hreachable, ?_⟩
  rw [hrecords, ← errorOf_eq_some]
  decide +kernel

/-! ## A durable batch is published -/

/-- On any replica of a node, `persist` does not fail once the WAL has appended its records.  It
publishes what recovery makes of them, and the durable end is the end of the last one. -/
theorem durable_batch_published (h : (system core).Reachable s) {identity : RaftReplicaIdentity}
    (hprepare : (s.storages identity).prepareBatch core batch = .ok prepared)
    (hlength : extents.length = prepared.records.length)
    (hextents : ExtentsFrom s.wal.endLsn extents) :
    ∃ persisted storage, (persist core batch
        fun _ => .ok ⟨extents, endOf s.wal.endLsn extents⟩).run (s.storages identity) =
          .ok persisted storage ∧
      (s.storages identity).asRecovered.observeAll core (prepared.records.zip extents) =
        .ok storage.asRecovered ∧
      storage.recoveryRequired = false ∧ persisted.recordCount = prepared.records.length ∧
      (prepared.records ≠ [] → storage.durableEndLsn = some (endOf s.wal.endLsn extents)) := by
  obtain ⟨_, hfollows⟩ := exists_follows h
  have hlive := hfollows.live identity
  have hrunning := hlive.running
  simp only [persist, run_eq_ok, hprepare, hrunning, Except.ok.injEq,
    exists_eq_left', Bool.false_eq_true, rejectIf_eq_ok, not_false_eq_true, exists_const, true_and]
  by_cases hrecords : prepared.records = []
  · rw [appendPreparedBatch, if_pos hrecords, pure_bind,
      commitPreparedBatch_of_nil hrecords]
    exact ⟨_, _, rfl, by rw [hrecords]; rfl, hrunning, by rw [hrecords]; rfl,
      fun hne => absurd hrecords hne⟩
  · have hne : extents ≠ [] := by
      rintro rfl
      exact hrecords (List.length_eq_zero_iff.mp hlength.symm)
    have hfirst := List.head?_eq_some_head hne
    have hlast := List.getLast?_eq_some_getLast hne
    have hend : endOf s.wal.endLsn extents = (extents.getLast hne).endLsn := by
      rw [endOf, hlast]
      rfl
    obtain ⟨storage, hpublished⟩ := published_of_prepareBatch hlive hprepare hlength
      hextents (hfollows.storageBefore identity) hfirst hlast
    rw [appendPreparedBatch, if_neg hrecords]
    refine ⟨_, storage, (commitPreparedBatch_run_eq_ok hrecords).mpr
      ⟨hlength, _, _, hfirst, hlast, hend, hpublished.publish, rfl⟩, hpublished.observed,
      hpublished.live.running, rfl, fun _ => ?_⟩
    rw [hend]
    exact durableEndLsn_of_publishBatch hpublished.publish

/-- The first replica goes on after the sample actions. -/
def sampleBatch : RaftPersistenceBatch :=
  ⟨none, [⟨3, 3, .normal [5]⟩, ⟨4, 3, .normal [4]⟩], some ⟨3, none, 3⟩⟩

def sampleExtents : List RecordExtent := [⟨80, 90⟩, ⟨90, 100⟩, ⟨100, 110⟩]

theorem durable_batch_published_sample :
    ∃ s persisted storage, (system sampleCore).Reachable s ∧ s.wal = ⟨sampleRecords, 80⟩ ∧
      (persist sampleCore sampleBatch fun _ => .ok ⟨sampleExtents, 110⟩).run
        (s.storages ⟨1, 1⟩) = .ok persisted storage ∧
      storage.logView.lastIndex = some 4 ∧ storage.hardState = some ⟨3, none, 3⟩ ∧
      storage.durableEndLsn = some 110 := by
  have hrun : (sampleActions.foldlM (next sampleCore) start).map (fun s => (s.wal,
      ((s.storages ⟨1, 1⟩).prepareBatch sampleCore sampleBatch).toOption.bind fun prepared =>
        ((s.storages ⟨1, 1⟩).asRecovered.observeAll sampleCore
          (prepared.records.zip sampleExtents)).toOption.map fun replica =>
            (prepared.records.length, replica.logView.lastIndex, replica.hardState))) =
      some (⟨sampleRecords, 80⟩, some (3, some 4, some ⟨3, none, 3⟩)) := by
    decide +kernel
  obtain ⟨s, hreachable, hseen⟩ := Lts.Reachable.of_run (L := system sampleCore) hrun rfl id
  simp only [eq_some, toOption_eq_some, Prod.mk.injEq] at hseen
  obtain ⟨hwal, prepared, hprepare, replica, hreplica, hlength, hindex, hstate⟩ := hseen
  have hextents : ExtentsFrom s.wal.endLsn sampleExtents := by
    rw [hwal]
    decide
  obtain ⟨persisted, storage, hpersist, hobserved, -, -, hend⟩ :=
    durable_batch_published hreachable hprepare (by rw [hlength]; rfl) hextents
  cases hreplica.symm.trans hobserved
  have hrecords : prepared.records ≠ [] := by
    intro hnil
    rw [hnil] at hlength
    cases hlength
  exact ⟨s, persisted, storage, hreachable, hwal, hpersist, hindex, hstate, hend hrecords⟩

end RaftNode

end RagnorDb
