import RagnorDb.MultiRaft.SharedWal
import RagnorDb.MultiRaft.SuffixReplay

/-!
# Pruning of the shared WAL

Each replica lifetime publishes the oldest record that it needs, and the WAL removes whole
segments below the slowest of these floors.  The floor of a replica is the oldest of its
snapshot pointer, its hard state and its retained entries; replay, however, can only start
at a record that covers everything before it.
-/

namespace RagnorDb

open Std Checked OrderedMap RaftReplicaLogView RecoveredRaftReplica RecoveredRaftStorage

/-! ## Recovery of a suffix -/

namespace RecoveredRaftStorage

variable {core : RaftCore} {whole suffix : RecoveredRaftStorage}
  {identity : RaftReplicaIdentity} {earlier later : List WalRecord}
variable {configurations : ExtTreeMap RaftReplicaIdentity ConfState}

/-- The log that the missing records of a replica had built ends below what its first
remaining record keeps. -/
def CoversMissing (core : RaftCore) (identity : RaftReplicaIdentity)
    (earlier later : List WalRecord) : Prop :=
  match recordsOf identity later with
  | [] => True
  | first :: _ =>
    match (RecoveredRaftReplica.new identity).replayAll core (recordsOf identity earlier) with
    | .error _ => True
    | .ok replica => replica.logView.lastIndex.getD 0 < keptFrom first.2

instance : Decidable (CoversMissing core identity earlier later) := by
  unfold CoversMissing
  split
  · infer_instance
  · split <;> infer_instance

/-- Every replica that still owns a record can start at its first one. -/
def Replayable (core : RaftCore) (earlier later : List WalRecord) : Prop :=
  ∀ raft ∈ later.filterMap (·.raft), CoversMissing core raft.identity earlier later

instance : Decidable (Replayable core earlier later) := by
  unfold Replayable
  infer_instance

/-- What the remaining records show of a replica, against what all records show. -/
inductive Shows (later : List WalRecord) (identity : RaftReplicaIdentity)
    (whole suffix : RecoveredRaftReplica) : Prop
  | absent : recordsOf identity later = [] → suffix = .new identity →
      Shows later identity whole suffix
  | same : suffix = whole → Shows later identity whole suffix
  | trails : suffix.Trails whole → Shows later identity whole suffix

/-- The records of a replica below the cut are all there, or its hard state is above it. -/
def Kept (identity : RaftReplicaIdentity) (earlier later : List WalRecord) : Prop :=
  recordsOf identity earlier = [] ∨ HasHardState (recordsOf identity later)

theorem Replayable.covers (h : Replayable core earlier later) {first : Lsn × RaftWalRecord}
    {rest : List (Lsn × RaftWalRecord)} (hrecords : recordsOf identity later = first :: rest) :
    CoversMissing core identity earlier later := by
  have hmem : (first.1, first.2) ∈ recordsOf identity later := by
    rw [hrecords]
    exact List.mem_cons_self
  obtain ⟨hrecord, rfl⟩ := mem_recordsOf.mp hmem
  exact h first.2 (List.mem_filterMap.mpr ⟨_, hrecord, rfl⟩)

section

variable (h : scan core (earlier ++ later) = .ok whole) (hkept : Replayable core earlier later)
include h hkept

/-- The records of one replica that remain replay. -/
theorem replay_later (identity : RaftReplicaIdentity) :
    ∃ suffix, (RecoveredRaftReplica.new identity).replayAll core (recordsOf identity later) =
        .ok suffix ∧ Shows later identity (whole.replica identity) suffix ∧
      (Kept identity earlier later → suffix = whole.replica identity) := by
  have hreplay := replay_new_of_scan h identity
  rw [recordsOf_append] at hreplay
  obtain ⟨middle, hearlier, hlater⟩ := replayAll_append_eq_ok.mp hreplay
  cases hrecords : recordsOf identity later with
  | nil =>
    refine ⟨.new identity, rfl, .absent hrecords rfl, ?_⟩
    rintro (hnone | ⟨_, _, hmem⟩)
    · rw [hnone] at hearlier
      rw [hrecords] at hlater
      cases hearlier
      exact Except.ok.inj hlater
    · rw [hrecords] at hmem
      cases hmem
  | cons first =>
    rw [hrecords] at hlater
    have hcovers := hkept.covers hrecords
    simp only [CoversMissing, hrecords, hearlier] at hcovers
    have hbased := (based_new identity).replayAll hearlier
    obtain ⟨suffix, hsuffix, hend, hsame⟩ := hbased.replay_suffix hcovers hlater
    refine ⟨suffix, hsuffix, hend.elim .same .trails, ?_⟩
    rintro (hnone | hstate)
    · -- nothing of this replica is missing
      rw [hnone] at hearlier
      cases hearlier
      cases hsuffix.symm.trans hlater
      rfl
    · rw [hrecords] at hstate
      exact hsame hstate

/-- The remaining records are scanned, and show a replica whose hard state remains as all
records do. -/
theorem scan_suffix : ∃ suffix, scan core later = .ok suffix ∧
      (∀ identity, Shows later identity (whole.replica identity) (suffix.replica identity)) ∧
      ∀ identity, Kept identity earlier later →
        suffix.replica identity = whole.replica identity := by
  have hpairwise := (pairwise_of_scan h).2
  have hscan : ∃ suffix, scan core later = .ok suffix := by
    refine exists_scan (fun _ _ => rfl) (List.pairwise_append.mp hpairwise).2.1 ?_
    intro identity
    obtain ⟨suffix, hsuffix, -⟩ := replay_later h hkept identity
    exact ⟨suffix, by simpa [replica, empty] using hsuffix⟩
  obtain ⟨suffix, hsuffix⟩ := hscan
  have hreplica : ∀ identity,
      Shows later identity (whole.replica identity) (suffix.replica identity) ∧
      (Kept identity earlier later → suffix.replica identity = whole.replica identity) := by
    intro identity
    obtain ⟨replica, hreplay, hshows, hsame⟩ := replay_later h hkept identity
    cases hreplay.symm.trans (replay_new_of_scan hsuffix identity)
    exact ⟨hshows, hsame⟩
  exact ⟨suffix, hsuffix, fun identity => (hreplica identity).1,
    fun identity => (hreplica identity).2⟩

end

theorem changesApply_new (confState : Option ConfState) :
    ChangesApply core confState (committedChanges (.new identity)) := by
  have hentries : (RecoveredRaftReplica.new identity).logView.entries.toList = [] := by
    simp [RecoveredRaftReplica.new, RaftReplicaLogView.new]
  simp only [committedChanges, hentries, List.map_nil, List.takeWhile_nil, List.filterMap_nil,
    ChangesApply]

theorem Configured.of_shows (h : Configured core configurations whole)
    (hshows : ∀ identity, Shows later identity (whole.replica identity) (suffix.replica identity)) :
    Configured core configurations suffix := by
  intro identity found hfound
  have hsuffix : suffix.replica identity = found := by simp [replica, hfound]
  have hwhole : ChangesApply core ((whole.replica identity).confState.or configurations[identity]?)
      (committedChanges (whole.replica identity)) := by
    unfold replica
    cases hreplica : whole.replicas[identity]? with
    | none => exact changesApply_new _
    | some replica => exact h identity replica hreplica
  rw [← hsuffix]
  cases hshows identity with
  | absent _ hnew =>
    rw [hnew]
    exact changesApply_new _
  | same heq =>
    rw [heq]
    exact hwhole
  | trails htrails =>
    obtain ⟨finished, hfinished⟩ := exists_finishConfiguration.mpr hwhole
    exact exists_finishConfiguration.mp (htrails.exists_finishConfiguration hfinished)

/-- Recovery of the remaining records answers where recovery of all records does, with the
same log, snapshot and hard state for a replica whose hard state remains. -/
theorem recover_suffix {recovered : RecoveredRaftStorage} (hkept : Replayable core earlier later)
    (hrecover : recoverRaftStorageWithConfigurations core configurations (earlier ++ later) =
      .ok recovered) :
    ∃ recovered', recoverRaftStorageWithConfigurations core configurations later = .ok recovered' ∧
      ∀ identity, Kept identity earlier later →
        (recovered'.replica identity).logView = (recovered.replica identity).logView ∧
        (recovered'.replica identity).snapshot = (recovered.replica identity).snapshot ∧
        (recovered'.replica identity).hardState = (recovered.replica identity).hardState := by
  have hwhole := hrecover
  rw [recoverRaftStorageWithConfigurations, bind_eq_ok] at hwhole
  obtain ⟨whole, hscan, hfinish⟩ := hwhole
  obtain ⟨suffix, hsuffix, hshows, hsame⟩ := scan_suffix hscan hkept
  have hconfigured := exists_finishConfigurations.mp ⟨recovered, hfinish⟩
  obtain ⟨recovered', hfinish'⟩ :=
    exists_finishConfigurations.mpr (Configured.of_shows hconfigured hshows)
  refine ⟨recovered', by rw [recover_of_scan hsuffix, hfinish'], ?_⟩
  intro identity hidentity
  obtain ⟨confState, hreplica⟩ := replica_of_finishConfigurations hfinish identity
  obtain ⟨confState', hreplica'⟩ := replica_of_finishConfigurations hfinish' identity
  rw [hreplica, hreplica', hsame identity hidentity]
  exact ⟨rfl, rfl, rfl⟩

end RecoveredRaftStorage

/-! ## The registry -/

/-- The retention state of `NodeRaftWalState`. -/
structure RetentionRegistry where
  databaseRetentionFloor : Option Lsn
  retentionFloors : ExtTreeMap RaftReplicaIdentity (Option Lsn)
  retentionRegistrySealed : Bool
  lastPrunedFloor : Lsn

namespace RetentionRegistry

def new : RetentionRegistry := ⟨none, ∅, false, 0⟩

variable (self : RetentionRegistry)

/-- Register a replica lifetime before the first retention pass. -/
def groupWriterFor (identity : RaftReplicaIdentity) : Except String RetentionRegistry := do
  rejectIf self.retentionRegistrySealed
    "cannot register a Raft group after retention registry sealing"
  return { self with retentionFloors := self.retentionFloors.insertIfNew identity none }

/-- Register a replica lifetime that is created while the node is live. -/
def groupWriterForActive (identity : RaftReplicaIdentity) : Except String RetentionRegistry := do
  rejectIf (¬ self.retentionRegistrySealed)
    "active replica registration requires the retention registry to be sealed"
  rejectIf (self.retentionFloors.contains identity)
    (s!"Raft replica lifetime RaftReplicaIdentity \x7b raft_group_id: " ++
      s!"RaftGroupId({identity.raftGroupId}), replica_id: ReplicaId({identity.replicaId}) \x7d " ++
      "is already registered")
  return { self with retentionFloors := self.retentionFloors.insert identity none }

def sealRetentionRegistry : RetentionRegistry :=
  { self with retentionRegistrySealed := true }

/-- The oldest floor, once every registered lifetime has published one. -/
def slowestFloor : Option Lsn := do
  let floors ← (self.retentionFloors.toList.map Prod.snd).mapM id
  (floors ++ self.databaseRetentionFloor.toList).min?

/-- The registry after a pass, and the floor that the WAL is asked to prune to. -/
def pruneToSlowestFloor : RetentionRegistry × Option Lsn :=
  match self.slowestFloor with
  | none => (self, none)
  | some floor =>
    if floor ≤ self.lastPrunedFloor then (self, none)
    else ({ self with lastPrunedFloor := floor }, some floor)

/-- Publish the floor of one lifetime. -/
def pruneBefore (owner : RaftReplicaIdentity) (floor : Lsn) :
    Except String (RetentionRegistry × Option Lsn) := do
  rejectIf (¬ self.retentionRegistrySealed) "retention registry must be sealed before pruning"
  let registeredFloor ← okOr self.retentionFloors[owner]?
    "group writer is not registered for retention pruning"
  rejectIf (registeredFloor.any fun previous => floor < previous)
    "Raft retention floor cannot move backwards"
  return ({ self with retentionFloors := self.retentionFloors.insert owner (some floor) } :
    RetentionRegistry).pruneToSlowestFloor

/-- Remove a lifetime from the registry for good. -/
def releaseRetention (owner : RaftReplicaIdentity) :
    Except String (RetentionRegistry × Option Lsn) := do
  rejectIf (¬ self.retentionRegistrySealed) "retention registry must be sealed before release"
  rejectIf (¬ self.retentionFloors.contains owner)
    "group writer is not registered for retention release"
  return ({ self with retentionFloors := self.retentionFloors.erase owner } :
    RetentionRegistry).pruneToSlowestFloor

/-- Publish the replay floor of the database checkpoint. -/
def advanceDatabaseRetention (floor : Lsn) : Except String (RetentionRegistry × Option Lsn) := do
  rejectIf (¬ self.retentionRegistrySealed) "retention registry must be sealed before pruning"
  rejectIf (self.databaseRetentionFloor.any fun previous => floor < previous)
    "database retention floor cannot move backwards"
  return ({ self with databaseRetentionFloor := some floor } :
    RetentionRegistry).pruneToSlowestFloor

end RetentionRegistry

/-! ## A node that prunes -/

/-- A node with every record that it ever wrote, and how many of the oldest are gone. -/
structure RetainedNode where
  node : RaftNode
  registry : RetentionRegistry
  pruned : Nat

namespace RetainedNode

/-- The records that are gone. -/
def removed (self : RetainedNode) : List WalRecord :=
  self.node.wal.records.take self.pruned

/-- The records that recovery finds. -/
def remaining (self : RetainedNode) : List WalRecord :=
  self.node.wal.records.drop self.pruned

/-- The WAL removes whole segments below the floor that it is asked for, if any. -/
def Prunes (self : RetainedNode) (cut : Nat) : Option Lsn → Prop
  | none => cut = self.pruned
  | some floor => self.pruned ≤ cut ∧ cut ≤ self.node.wal.records.length ∧
      ∀ record ∈ self.node.wal.records.take cut, record.lsn < floor

instance (self : RetainedNode) (cut : Nat) (floor : Option Lsn) :
    Decidable (self.Prunes cut floor) := by
  unfold Prunes
  split <;> infer_instance

/-- Calls of one node; `cut` is the number of records that the WAL has removed after a
retention pass. -/
inductive Action where
  | groupWriterFor (identity : RaftReplicaIdentity)
  | groupWriterForActive (identity : RaftReplicaIdentity)
  | sealRetentionRegistry
  | append (action : RaftNode.Action)
  | releaseReplicaRetention (identity : RaftReplicaIdentity) (cut : Nat)
  | retire (identity : RaftReplicaIdentity) (cut : Nat)
  | advanceDatabaseRetention (floor : Lsn) (cut : Nat)

/-- The node after a retention pass. -/
def afterPass (self : RetainedNode) (cut : Nat)
    (pass : Except String (RetentionRegistry × Option Lsn)) : Option RetainedNode :=
  match pass with
  | .error _ => none
  | .ok (registry, floor) =>
    if self.Prunes cut floor then some { self with registry, pruned := cut } else none

/-- A removed replica first gives up its whole prefix, then its registration. -/
def retirePass (self : RetainedNode) (identity : RaftReplicaIdentity) :
    Except String (RetentionRegistry × Option Lsn) := do
  let first ← self.registry.pruneBefore identity self.node.wal.endLsn
  let second ← first.1.releaseRetention identity
  return (second.1, second.2.or first.2)

/-- A record is appended for a registered lifetime. -/
def mayAppend (self : RetainedNode) : RaftNode.Action → Bool
  | .persist identity _ _ => self.registry.retentionFloors.contains identity
  | .appendOther _ => true

variable (core : RaftCore)

/-- One successful call. -/
def next (self : RetainedNode) : Action → Option RetainedNode
  | .groupWriterFor identity =>
    (self.registry.groupWriterFor identity).toOption.map fun registry => { self with registry }
  | .groupWriterForActive identity =>
    -- a lifetime that is created while the node is live is new to the WAL
    if recordsOf identity self.node.wal.records = [] then
      (self.registry.groupWriterForActive identity).toOption.map fun registry =>
        { self with registry }
    else none
  | .sealRetentionRegistry =>
    some { self with registry := self.registry.sealRetentionRegistry }
  | .append action =>
    if self.mayAppend action then
      (self.node.next core action).map fun node => { self with node }
    else none
  | .releaseReplicaRetention identity cut =>
    self.afterPass cut (self.registry.pruneBefore identity
      ((self.node.storages identity).minimumRecoveryLsn.getD 0))
  | .retire identity cut => self.afterPass cut (self.retirePass identity)
  | .advanceDatabaseRetention floor cut =>
    self.afterPass cut (self.registry.advanceDatabaseRetention floor)

def start : RetainedNode := ⟨.start, .new, 0⟩

def system : Lts RetainedNode Action := .ofNext (· = start) (next core)

/-- Every replica that owns a remaining record can start at its first one. -/
def KeepsReplayable (self : RetainedNode) : Action → Prop
  | .releaseReplicaRetention _ cut | .retire _ cut | .advanceDatabaseRetention _ cut =>
    Replayable core (self.node.wal.records.take cut)
      (self.node.wal.records.drop cut)
  | _ => True

end RetainedNode

/-! ## A retention pass -/

namespace RetentionRegistry

variable {self registry : RetentionRegistry} {floor : Option Lsn}
variable {owner : RaftReplicaIdentity} {value : Lsn}

/-- No lifetime of the registry has a floor below the one that the WAL is asked for. -/
def Bounds (registry : RetentionRegistry) (floor : Option Lsn) : Prop :=
  ∀ f, floor = some f → ∀ (identity : RaftReplicaIdentity) (published : Option Lsn),
    registry.retentionFloors[identity]? = some published → ∃ g, published = some g ∧ f ≤ g

theorem exists_of_mapM_id {floors : List (Option Lsn)} {values : List Lsn}
    (h : floors.mapM id = some values) {published : Option Lsn} (hmem : published ∈ floors) :
    ∃ g ∈ values, published = some g := by
  induction floors generalizing values with
  | nil => cases hmem
  | cons head floors ih =>
    simp only [List.mapM_cons, id_eq, Option.bind_eq_bind, eq_some, Option.pure_def] at h
    obtain ⟨g, hhead, rest, hrest, rfl⟩ := h
    rcases List.mem_cons.mp hmem with rfl | htail
    · exact ⟨g, List.mem_cons_self, hhead⟩
    · obtain ⟨g', hg', heq⟩ := ih hrest htail
      exact ⟨g', List.mem_cons_of_mem _ hg', heq⟩

theorem bounds_slowestFloor (self : RetentionRegistry) : self.Bounds self.slowestFloor := by
  intro f hf identity published hpublished
  simp only [slowestFloor, Option.bind_eq_bind, eq_some] at hf
  obtain ⟨values, hvalues, hmin⟩ := hf
  have hmem : published ∈ self.retentionFloors.toList.map Prod.snd :=
    List.mem_map.mpr ⟨(identity, published),
      ExtTreeMap.mem_toList_iff_getElem?_eq_some.mpr hpublished, rfl⟩
  obtain ⟨g, hg, heq⟩ := exists_of_mapM_id hvalues hmem
  exact ⟨g, heq, (List.min?_eq_some_iff.mp hmin).2 g (List.mem_append_left _ hg)⟩

/-- What a pass leaves of a registry, and the floor that it asks for. -/
structure Pruned (base registry : RetentionRegistry) (floor : Option Lsn) : Prop where
  floors : registry.retentionFloors = base.retentionFloors
  database : registry.databaseRetentionFloor = base.databaseRetentionFloor
  sealed : registry.retentionRegistrySealed = base.retentionRegistrySealed
  bounds : registry.Bounds floor
  bounded : ∀ f d, floor = some f → base.databaseRetentionFloor = some d → f ≤ d

theorem pruned_of_pruneToSlowestFloor (h : self.pruneToSlowestFloor = (registry, floor)) :
    Pruned self registry floor := by
  have hbounds := bounds_slowestFloor self
  unfold pruneToSlowestFloor at h
  cases hslowest : self.slowestFloor with
  | none =>
    rw [hslowest] at h
    cases h
    exact ⟨rfl, rfl, rfl, by simp [Bounds], by simp⟩
  | some =>
    rw [hslowest] at h hbounds
    dsimp only at h
    split at h
    · cases h
      exact ⟨rfl, rfl, rfl, by simp [Bounds], by simp⟩
    · cases h
      refine ⟨rfl, rfl, rfl, hbounds, ?_⟩
      rintro f d ⟨⟩ hdatabase
      simp only [slowestFloor, Option.bind_eq_bind, eq_some] at hslowest
      obtain ⟨values, -, hmin⟩ := hslowest
      exact (List.min?_eq_some_iff.mp hmin).2 d (by simp [hdatabase])

theorem pruneBefore_spec (h : self.pruneBefore owner value = .ok (registry, floor)) :
    (∃ published, self.retentionFloors[owner]? = some published ∧
      ∀ previous, published = some previous → previous ≤ value) ∧
      self.retentionRegistrySealed = true ∧
      Pruned { self with retentionFloors := self.retentionFloors.insert owner (some value) }
        registry floor := by
  simp only [pruneBefore, eq_ok] at h
  obtain ⟨_, hsealed, published, hpublished, _, hbackwards, hprune⟩ := h
  refine ⟨⟨published, hpublished, ?_⟩, hsealed, pruned_of_pruneToSlowestFloor hprune⟩
  rintro previous rfl
  simpa using hbackwards

theorem releaseRetention_spec (h : self.releaseRetention owner = .ok (registry, floor)) :
    self.retentionRegistrySealed = true ∧
      Pruned { self with retentionFloors := self.retentionFloors.erase owner } registry floor := by
  simp only [releaseRetention, eq_ok] at h
  obtain ⟨_, hsealed, _, _, hprune⟩ := h
  exact ⟨hsealed, pruned_of_pruneToSlowestFloor hprune⟩

theorem advanceDatabaseRetention_spec
    (h : self.advanceDatabaseRetention value = .ok (registry, floor)) :
    (∀ previous, self.databaseRetentionFloor = some previous → previous ≤ value) ∧
      self.retentionRegistrySealed = true ∧
      Pruned { self with databaseRetentionFloor := some value } registry floor := by
  simp only [advanceDatabaseRetention, eq_ok] at h
  obtain ⟨_, hsealed, _, hbackwards, hprune⟩ := h
  refine ⟨?_, hsealed, pruned_of_pruneToSlowestFloor hprune⟩
  intro previous hprevious
  simpa [hprevious] using hbackwards

end RetentionRegistry

namespace RetainedNode

variable {core : RaftCore} {s t : RetainedNode} {identity : RaftReplicaIdentity}
variable {registry : RetentionRegistry} {floor : Option Lsn}
  {records : List (Lsn × RaftWalRecord)} {extents : List RecordExtent}
  {scanned : RecoveredRaftStorage} {action : RaftNode.Action} {added : List WalRecord} {cut : Nat}

theorem retirePass_spec (h : s.retirePass identity = .ok (registry, floor)) :
    (∀ (other : RaftReplicaIdentity) (published : Option Lsn),
      registry.retentionFloors[other]? = some published →
      s.registry.retentionFloors[other]? = some published) ∧
      registry.retentionRegistrySealed = true ∧ registry.Bounds floor := by
  simp only [retirePass, eq_ok, Prod.mk.injEq] at h
  obtain ⟨⟨first, floor₁⟩, hfirst, ⟨second, floor₂⟩, hsecond, rfl, rfl⟩ := h
  obtain ⟨-, -, hpass⟩ := RetentionRegistry.pruneBefore_spec hfirst
  obtain ⟨hsealed, hsecond⟩ := RetentionRegistry.releaseRetention_spec hsecond
  have hsub : ∀ (other : RaftReplicaIdentity) (published : Option Lsn),
      second.retentionFloors[other]? = some published →
      other ≠ identity ∧ first.retentionFloors[other]? = some published := by
    intro other published hpublished
    rw [hsecond.floors, getElem?_erase] at hpublished
    split at hpublished
    · cases hpublished
    · next hne => exact ⟨fun heq => hne heq.symm, hpublished⟩
  constructor
  · intro other published hpublished
    obtain ⟨hne, hfirst⟩ := hsub other published hpublished
    rw [hpass.floors, getElem?_insert, if_neg (Ne.symm hne)] at hfirst
    exact hfirst
  refine ⟨hsecond.sealed.trans hsealed, ?_⟩
  · intro f hf other published hpublished
    rcases Option.or_eq_some_iff.mp hf with hf | ⟨-, hf⟩
    · exact hsecond.bounds f hf other published hpublished
    · exact hpass.bounds f hf other published (hsub other published hpublished).2

/-! ## Hard states in the WAL -/

/-- A replica that owns a record owns a hard state. -/
def Stated (records : List WalRecord) : Prop :=
  ∀ identity, recordsOf identity records = [] ∨
    HasHardState (recordsOf identity records)

/-- Entries alone leave the hard state as it is, and show a term. -/
theorem replayAll_entries {f f' : RecoveredRaftReplica} (h : f.replayAll core records = .ok f')
    (hentries : ∀ record ∈ records, ∃ entry, record.2 = .logEntry entry) :
    f'.hardState = f.hardState ∧ (records ≠ [] → f'.logView.maximumLogTerm ≠ 0) := by
  induction records generalizing f with
  | nil =>
    cases h
    exact ⟨rfl, fun hne => absurd rfl hne⟩
  | cons record records ih =>
    obtain ⟨middle, hmiddle, hrest⟩ := replayAll_cons_eq_ok.mp h
    obtain ⟨entry, hentry⟩ := hentries record List.mem_cons_self
    rw [hentry] at hmiddle
    obtain ⟨view, hview, rfl⟩ := observe_logEntry_eq_ok hmiddle
    obtain ⟨hstate, hterm⟩ := ih hrest fun later hlater =>
      hentries later (List.mem_cons_of_mem _ hlater)
    refine ⟨hstate, fun _ => ?_⟩
    cases hrecords : records with
    | cons => exact hterm (by simp [hrecords])
    | nil =>
      rw [hrecords] at hrest
      cases hrest
      obtain ⟨hvalid, _, _, outcome, _, rfl⟩ := replay_eq_ok.mp hview
      have hplaced : (f.logView.place entry record.1 outcome).entries[entry.index]? =
          some ⟨entry, record.1⟩ := by
        cases outcome <;> simp [place]
      have hle := term_le_maximumLogTerm hplaced
      simp only [RaftLogEntryRecord.validate, eq_ok] at hvalid
      obtain ⟨_, _, _, _, _, _, _, hne, _⟩ := hvalid
      exact fun hzero => hne (Nat.le_zero.mp (hzero ▸ hle))

/-- A batch has a hard state record, or entries only. -/
theorem shape_of_prepareBatch {storage : RaftWalStorage} {batch : RaftPersistenceBatch}
    {prepared : PreparedBatch} (h : storage.prepareBatch core batch = .ok prepared) :
    (∃ record, .hardState record ∈ prepared.records) ∨
      ∀ record ∈ prepared.records, ∃ entry, record = .logEntry entry := by
  obtain ⟨preview, preview', hardStateRecords, hprepared⟩ :=
    RaftWalStorage.prepared_of_prepareBatch h
  have hstate := hprepared.hardState
  rw [hprepared.records]
  cases hbatch : batch.hardState with
  | some =>
    rw [hbatch] at hstate
    simp only [RaftWalStorage.checkHardState, eq_ok] at hstate
    obtain ⟨_, _, _, _, _, _, record, _, rfl⟩ := hstate
    exact .inl ⟨record, by simp⟩
  | none =>
    rw [hbatch] at hstate
    cases hstate
    rw [hprepared.snapshot_eq_none hbatch]
    refine .inr ?_
    intro record hrecord
    simp only [Option.toList_none, List.map_nil, List.append_nil, List.nil_append,
      List.mem_map] at hrecord
    obtain ⟨entry, -, rfl⟩ := hrecord
    exact ⟨entry, rfl⟩

theorem recordsOf_placed {records : List RaftWalRecord}
    (howner : ∀ record ∈ records, record.identity = identity) :
    recordsOf identity (SharedWal.placed records extents) =
      (records.zip extents).map fun record => (record.2.startLsn, record.1) := by
  induction records generalizing extents with
  | nil => rfl
  | cons record records ih =>
    obtain ⟨hrecord, hrest⟩ := List.forall_mem_cons.mp howner
    cases extents with
    | nil => rfl
    | cons =>
      rw [List.zip_cons_cons, List.map_cons, ← ih hrest]
      exact (recordsOf_cons_raft _ _).trans (if_pos hrecord)

theorem recordsOf_placed_of_ne {other : RaftReplicaIdentity} {records : List RaftWalRecord}
    (howner : ∀ record ∈ records, record.identity = identity)
    (hne : other ≠ identity) : recordsOf other (SharedWal.placed records extents) = [] := by
  rw [List.eq_nil_iff_forall_not_mem]
  intro record hrecord
  obtain ⟨hmem, hid⟩ := mem_recordsOf.mp hrecord
  simp only [SharedWal.placed, List.mem_map, WalRecord.mk.injEq, eq_some] at hmem
  obtain ⟨pair, hpair, -, heq⟩ := hmem
  have := howner pair.1 (List.of_mem_zip hpair).1
  rw [heq] at this
  exact hne (hid.symm.trans this)

/-- What a call of the node appends: records of another subsystem, or a batch of one replica. -/
inductive Appends : RaftNode.Action → List WalRecord → Prop
  | other {extent : RecordExtent} : Appends (.appendOther extent) [⟨extent.startLsn, none⟩]
  | batch {identity : RaftReplicaIdentity} {batch : RaftPersistenceBatch}
      {extents : List RecordExtent} {prepared : PreparedBatch} :
      extents.length = prepared.records.length →
      (∀ record ∈ prepared.records, record.identity = identity) →
      ((∃ record, .hardState record ∈ prepared.records) ∨
        ∀ record ∈ prepared.records, ∃ entry, record = .logEntry entry) →
      Appends (.persist identity batch extents) (SharedWal.placed prepared.records extents)

theorem appends_of_next {s t : RaftNode}
    (h : s.Follows core scanned) (hstep : s.next core action = some t) :
    ∃ added, t.wal.records = s.wal.records ++ added ∧ Appends action added := by
  cases action with
  | appendOther =>
    simp only [RaftNode.next, eq_some] at hstep
    obtain ⟨-, rfl⟩ := hstep
    exact ⟨_, rfl, .other⟩
  | persist =>
    obtain ⟨prepared, storage, hprepare, rfl, hlength, -, howner, -⟩ := h.persist_spec hstep
    exact ⟨_, rfl, .batch hlength howner (shape_of_prepareBatch hprepare)⟩

theorem hasHardState_append_left {earlier later : List (Lsn × RaftWalRecord)}
    (h : HasHardState earlier) : HasHardState (earlier ++ later) := by
  obtain ⟨lsn, hardState, hmem⟩ := h
  exact ⟨lsn, hardState, List.mem_append_left _ hmem⟩

/-- The first batch of a replica carries its hard state: entries alone show a term that no
hard state covers. -/
theorem Stated.append {s t : RaftNode} (h : Stated s.wal.records)
    (hfollows : t.Follows core scanned) (hrecords : t.wal.records = s.wal.records ++ added)
    (happends : Appends action added) : Stated t.wal.records := by
  intro other
  rw [hrecords, recordsOf_append]
  cases happends with
  | other =>
    rw [recordsOf_cons_other, show recordsOf other [] = [] from rfl, List.append_nil]
    exact h other
  | @batch identity batch extents prepared hlength howner hshape =>
    by_cases hid : other = identity
    case neg =>
      rw [recordsOf_placed_of_ne howner hid, List.append_nil]
      exact h other
    case pos =>
      subst hid
      have hplaced : recordsOf other (SharedWal.placed prepared.records extents) = _ :=
        recordsOf_placed howner
      rcases hshape with ⟨record, hrecord⟩ | hentries
      · -- the hard state of the batch
        rw [← List.map_fst_zip (Nat.le_of_eq hlength.symm), List.mem_map] at hrecord
        obtain ⟨pair, hpair, hfst⟩ := hrecord
        right
        refine ⟨pair.2.startLsn, record, List.mem_append_right _ ?_⟩
        rw [hplaced, ← hfst]
        exact List.mem_map.mpr ⟨pair, hpair, rfl⟩
      · rcases h other with hnone | hstate
        · rw [hnone, List.nil_append]
          by_cases hempty : recordsOf other (SharedWal.placed prepared.records extents) = []
          · exact .inl hempty
          · -- no hard state covers the terms of these entries
            exfalso
            have hreplay := replay_new_of_scan hfollows.scan other
            rw [hrecords, recordsOf_append, hnone, List.nil_append, hfollows.replica] at hreplay
            obtain ⟨hstate, hterm⟩ := replayAll_entries hreplay (by
              intro record hmem
              rw [hplaced] at hmem
              obtain ⟨pair, hpair, rfl⟩ := List.mem_map.mp hmem
              exact hentries pair.1 (List.of_mem_zip hpair).1)
            have hterms := (hfollows.live other).terms
            rw [show (t.storages other).hardState = none from hstate] at hterms
            have hle : (t.storages other).logView.maximumLogTerm ≤ 0 :=
              Nat.le_trans (Nat.le_max_right _ _) hterms
            exact hterm hempty (Nat.le_zero.mp hle)
        · exact .inr (hasHardState_append_left hstate)

/-- A replica knows the position of a hard state record, if it has one. -/
structure KnowsHardState (records : List (Lsn × RaftWalRecord)) (replica : RecoveredRaftReplica) :
    Prop where
  position : ∀ lsn, replica.hardStateLsn = some lsn →
    ∃ record, (lsn, .hardState record) ∈ records
  known : HasHardState records → replica.hardStateLsn ≠ none

theorem KnowsHardState.skip
    {replica replica' : RecoveredRaftReplica} (h : KnowsHardState records replica)
    {record : Lsn × RaftWalRecord} (hlsn : replica'.hardStateLsn = replica.hardStateLsn)
    (hkind : ∀ hardState, record.2 ≠ .hardState hardState) :
    KnowsHardState (records ++ [record]) replica' := by
  constructor
  · intro lsn hposition
    obtain ⟨hardState, hmem⟩ := h.position lsn (hlsn.symm.trans hposition)
    exact ⟨hardState, List.mem_append_left _ hmem⟩
  · intro ⟨lsn, hardState, hmem⟩
    rw [hlsn]
    rcases List.mem_append.mp hmem with hmem | hmem
    · exact h.known ⟨lsn, hardState, hmem⟩
    · cases List.mem_singleton.mp hmem
      exact absurd rfl (hkind hardState)

theorem knowsHardState_of_scan {records : List WalRecord}
    (h : scan core records = .ok scanned) (identity : RaftReplicaIdentity) :
    KnowsHardState (recordsOf identity records) (scanned.replica identity) := by
  have hstart : KnowsHardState [] (.new identity) := by
    constructor
    · simp [RecoveredRaftReplica.new]
    · intro ⟨lsn, hardState, hmem⟩
      cases hmem
  refine foldlM_ok (P := KnowsHardState) ?_ hstart (replay_new_of_scan h identity)
  intro seen record replica replica' hseen hobserve
  obtain ⟨position, raft⟩ := record
  cases raft with
  | logEntry =>
    obtain ⟨view, -, rfl⟩ := observe_logEntry_eq_ok hobserve
    exact hseen.skip rfl (by simp)
  | snapshotPointer =>
    obtain ⟨view, -, rfl⟩ := observe_snapshotPointer_eq_ok hobserve
    exact hseen.skip rfl (by simp)
  | hardState hardState =>
    obtain ⟨-, -, rfl⟩ := observe_hardState_eq_ok hobserve
    refine ⟨?_, by simp⟩
    intro lsn hlsn
    cases hlsn
    exact ⟨hardState, List.mem_append_right _ (List.mem_singleton_self _)⟩

/-- A floor that a replica may publish: it has a hard state at or above it. -/
def Supports (records : List WalRecord) (identity : RaftReplicaIdentity) (floor : Lsn) : Prop :=
  floor = 0 ∨ ∃ lsn record, (lsn, .hardState record) ∈ recordsOf identity records ∧ floor ≤ lsn

/-- The oldest record that a replica reports as needed is not above its hard state. -/
theorem supports_minimumRecoveryLsn {s : RaftNode}
    (h : s.Follows core scanned) (hstated : Stated s.wal.records) :
    Supports s.wal.records identity ((s.storages identity).minimumRecoveryLsn.getD 0) := by
  have hknows := knowsHardState_of_scan h.scan identity
  rw [h.replica] at hknows
  cases hstate : (s.storages identity).hardStateLsn with
  | some lsn =>
    obtain ⟨record, hmem⟩ := hknows.position lsn hstate
    refine .inr ⟨lsn, record, hmem, ?_⟩
    cases hmin : (s.storages identity).minimumRecoveryLsn with
    | none => exact Nat.zero_le _
    | some =>
      refine (List.min?_eq_some_iff.mp hmin).2 lsn (List.mem_filterMap.mpr ⟨some lsn, ?_, rfl⟩)
      simp [hstate]
  | none =>
    -- without a hard state there is no record at all
    have hnone : recordsOf identity s.wal.records = [] :=
      (hstated identity).resolve_right fun hhas => hknows.known hhas hstate
    have hreplay := replay_new_of_scan h.scan identity
    rw [hnone, h.replica] at hreplay
    have hnew : (s.storages identity).asRecovered = .new identity := (Except.ok.inj hreplay).symm
    have hpointer : (s.storages identity).snapshotPointerLsn = none :=
      congrArg snapshotPointerLsn hnew
    have hview : (s.storages identity).logView = .new identity :=
      congrArg logView hnew
    left
    rw [RaftWalStorage.minimumRecoveryLsn, hpointer, hstate, hview]
    rfl

/-! ## The invariant -/

structure Inv (core : RaftCore) (s : RetainedNode) : Prop where
  node : (RaftNode.system core).Reachable s.node
  stated : Stated s.node.wal.records
  pruned : s.pruned ≤ s.node.wal.records.length
  unsealed : s.registry.retentionRegistrySealed = false → s.pruned = 0
  replayable : Replayable core s.removed s.remaining
  floors : ∀ (identity : RaftReplicaIdentity) (floor : Lsn),
    s.registry.retentionFloors[identity]? = some (some floor) →
    Supports s.node.wal.records identity floor
  kept : ∀ identity ∈ s.registry.retentionFloors, Kept identity s.removed s.remaining

theorem replayable_nil (later : List WalRecord) : Replayable core [] later := by
  intro raft _
  unfold CoversMissing
  split
  · trivial
  case h_2 first rest _ =>
    have hlast : (RaftReplicaLogView.new raft.identity).lastIndex.getD 0 = 0 := by
      have hnew := lastIndex_cases (.new raft.identity)
      simpa [RaftReplicaLogView.new] using hnew
    change (RaftReplicaLogView.new raft.identity).lastIndex.getD 0 < _
    exact keptFrom_pos first.2

theorem inv_start : Inv core start where
  node := .of_init rfl
  stated _ := .inl rfl
  pruned := Nat.le_refl _
  unsealed _ := rfl
  replayable := replayable_nil _
  floors identity floor h := by simp [start, RetentionRegistry.new] at h
  kept identity h := by simp [start, RetentionRegistry.new] at h

/-- A registered lifetime starts where it did before the records that are added. -/
theorem replayable_append {earlier later : List WalRecord} (h : Replayable core earlier later)
    (hkept : ∀ raft ∈ added.filterMap (·.raft), Kept raft.identity earlier later) :
    Replayable core earlier (later ++ added) := by
  intro raft hraft
  cases hlater : recordsOf raft.identity later with
  | cons first =>
    have hcovers := h.covers hlater
    simp only [CoversMissing, recordsOf_append, hlater, List.cons_append] at hcovers ⊢
    exact hcovers
  | nil =>
    rw [List.filterMap_append, List.mem_append] at hraft
    rcases hraft with hraft | hraft
    · -- it owns a remaining record
      obtain ⟨⟨lsn, owned⟩, hrecord, rfl⟩ := List.mem_filterMap.mp hraft
      have hmem : (lsn, raft) ∈ recordsOf raft.identity later := mem_recordsOf.mpr ⟨hrecord, rfl⟩
      rw [hlater] at hmem
      cases hmem
    · rcases hkept raft hraft with hnone | ⟨_, _, hmem⟩
      · have hraft' : raft ∈ (later ++ added).filterMap (·.raft) := by
          rw [List.filterMap_append]
          exact List.mem_append_right _ hraft
        have hfresh : CoversMissing core raft.identity [] (later ++ added) :=
          replayable_nil _ raft hraft'
        simp only [CoversMissing, hnone] at hfresh ⊢
        exact hfresh
      · rw [hlater] at hmem
        cases hmem

theorem Appends.registered (h : Appends action added) (hmay : s.mayAppend action = true)
    {raft : RaftWalRecord} (hraft : raft ∈ added.filterMap (·.raft)) :
    raft.identity ∈ s.registry.retentionFloors := by
  cases h with
  | other => simp at hraft
  | batch _ howner =>
    obtain ⟨record, hrecord, hsome⟩ := List.mem_filterMap.mp hraft
    simp only [SharedWal.placed, List.mem_map] at hrecord
    obtain ⟨pair, hpair, rfl⟩ := hrecord
    cases hsome
    rw [howner pair.1 (List.of_mem_zip hpair).1]
    exact ExtTreeMap.contains_iff_mem.mp hmay

theorem Inv.append (h : Inv core s) {node : RaftNode} (hmay : s.mayAppend action = true)
    (hstep : s.node.next core action = some node) : Inv core { s with node } := by
  obtain ⟨scanned, hfollows⟩ := RaftNode.exists_follows h.node
  have hreachable : (RaftNode.system core).Reachable node := h.node.step hstep
  obtain ⟨scanned', hfollows'⟩ := RaftNode.exists_follows hreachable
  obtain ⟨added, hrecords, happends⟩ := appends_of_next hfollows hstep
  have hremoved : ({ s with node } : RetainedNode).removed = s.removed := by
    simp only [removed, hrecords]
    exact List.take_append_of_le_length h.pruned
  have hremaining : ({ s with node } : RetainedNode).remaining = s.remaining ++ added := by
    simp only [remaining, hrecords]
    exact List.drop_append_of_le_length h.pruned
  constructor
  case node => exact hreachable
  case stated => exact h.stated.append hfollows' hrecords happends
  case pruned =>
    simp only [hrecords, List.length_append]
    exact Nat.le_trans h.pruned (Nat.le_add_right _ _)
  case unsealed => exact h.unsealed
  case replayable =>
    rw [hremoved, hremaining]
    exact replayable_append h.replayable fun raft hraft => h.kept _ (happends.registered hmay hraft)
  case floors =>
    intro identity floor hfloor
    rcases h.floors identity floor hfloor with hzero | ⟨lsn, record, hmem, hle⟩
    · exact .inl hzero
    · refine .inr ⟨lsn, record, ?_, hle⟩
      rw [hrecords, recordsOf_append]
      exact List.mem_append_left _ hmem
  case kept =>
    intro identity hidentity
    rw [hremoved, hremaining]
    refine (h.kept identity hidentity).imp id ?_
    intro hhas
    rw [recordsOf_append]
    exact hasHardState_append_left hhas

theorem Inv.registered (h : Inv core s) {published : Option Lsn}
    (hpublished : s.registry.retentionFloors[identity]? = some published) :
    identity ∈ s.registry.retentionFloors ∧
      ∀ floor, published = some floor → Supports s.node.wal.records identity floor :=
  ⟨mem_of_getElem? hpublished, fun floor hfloor => h.floors identity floor (hfloor ▸ hpublished)⟩

/-- A retention pass that asks for no floor above those that are published. -/
theorem Inv.pass (h : Inv core s) (hprunes : s.Prunes cut floor)
    (hsealed : registry.retentionRegistrySealed = true) (hbounds : registry.Bounds floor)
    (hreplayable : Replayable core (s.node.wal.records.take cut) (s.node.wal.records.drop cut))
    (hregistered : ∀ (identity : RaftReplicaIdentity) published,
      registry.retentionFloors[identity]? = some published →
      identity ∈ s.registry.retentionFloors ∧
        ∀ floor, published = some floor → Supports s.node.wal.records identity floor) :
    Inv core { s with registry, pruned := cut } := by
  refine { h with
    unsealed := ?unsealed, replayable := hreplayable, floors := ?floors, pruned := ?pruned
    kept := ?kept }
  case unsealed =>
    intro hunsealed
    rw [hsealed] at hunsealed
    cases hunsealed
  case floors => exact fun identity floor hfloor => (hregistered identity _ hfloor).2 floor rfl
  case pruned =>
    cases floor with
    | none =>
      rw [show cut = s.pruned from hprunes]
      exact h.pruned
    | some => exact hprunes.2.1
  case kept =>
    intro identity hidentity
    obtain ⟨published, hpublished⟩ := exists_of_mem hidentity
    obtain ⟨hold, hfloors⟩ := hregistered identity published hpublished
    cases floor with
    | none =>
      rw [show cut = s.pruned from hprunes]
      exact h.kept identity hold
    | some floor =>
      obtain ⟨-, -, hbelow⟩ := hprunes
      obtain ⟨g, rfl, hle⟩ := hbounds floor rfl identity published hpublished
      rcases hfloors g rfl with rfl | ⟨lsn, record, hmem, hg⟩
      · -- a floor of zero keeps everything
        left
        rw [List.eq_nil_iff_forall_not_mem]
        intro ⟨lsn, raft⟩ hmem
        have hlt := hbelow _ (mem_recordsOf.mp hmem).1
        exact absurd (Nat.lt_of_lt_of_le hlt hle) (Nat.not_lt_zero _)
      · right
        refine ⟨lsn, record, ?_⟩
        rw [← List.take_append_drop cut s.node.wal.records, recordsOf_append,
          List.mem_append] at hmem
        refine hmem.resolve_left ?_
        intro hremoved
        have hlt := hbelow _ (mem_recordsOf.mp hremoved).1
        exact absurd (Nat.lt_of_lt_of_le hlt (Nat.le_trans hle hg)) (Nat.lt_irrefl _)

theorem afterPass_eq_some {pass : Except String (RetentionRegistry × Option Lsn)}
    (h : s.afterPass cut pass = some t) :
    ∃ registry floor, pass = .ok (registry, floor) ∧ s.Prunes cut floor ∧
      t = { s with registry, pruned := cut } := by
  unfold afterPass at h
  split at h
  case h_1 => cases h
  case h_2 registry floor =>
    simp only [eq_some] at h
    exact ⟨registry, floor, rfl, h.1, h.2.symm⟩

/-- Another lifetime enters the registry without a floor. -/
theorem Inv.register (h : Inv core s)
    (hsealed : registry.retentionRegistrySealed = s.registry.retentionRegistrySealed ∨
      registry.retentionRegistrySealed = true)
    (hregistry : ∀ (other : RaftReplicaIdentity) (published : Option Lsn),
      registry.retentionFloors[other]? = some published →
      s.registry.retentionFloors[other]? = some published ∨
        published = none ∧ Kept other s.removed s.remaining) : Inv core { s with registry } := by
  refine { h with unsealed := ?_, floors := ?_, kept := ?_ }
  · intro hunsealed
    rcases hsealed with hsame | hsealed
    · exact h.unsealed (hsame.symm.trans hunsealed)
    · rw [hsealed] at hunsealed
      cases hunsealed
  · intro other floor hfloor
    rcases hregistry other _ hfloor with hold | ⟨hnone, -⟩
    · exact h.floors other floor hold
    · cases hnone
  · intro other hother
    obtain ⟨published, hpublished⟩ := exists_of_mem hother
    rcases hregistry other published hpublished with hold | ⟨-, hkept⟩
    · exact h.kept other (mem_of_getElem? hold)
    · exact hkept

theorem Inv.step (h : Inv core s) {action : Action} (hcond : s.KeepsReplayable core action)
    (hstep : s.next core action = some t) : Inv core t := by
  cases action with
  | groupWriterFor =>
    simp only [next, eq_some, toOption_eq_some, RetentionRegistry.groupWriterFor, eq_ok] at hstep
    obtain ⟨registry, ⟨_, hunsealed, rfl⟩, rfl⟩ := hstep
    refine h.register (.inl rfl) ?_
    intro other published hpublished
    rw [ExtTreeMap.getElem?_insertIfNew] at hpublished
    split at hpublished
    · -- nothing is pruned before the registry is sealed
      have hzero := h.unsealed (Bool.not_eq_true _ ▸ hunsealed)
      refine .inr ⟨(Option.some.inj hpublished).symm, .inl ?_⟩
      rw [removed, hzero]
      rfl
    · exact .inl hpublished
  | groupWriterForActive =>
    simp only [next, eq_some, toOption_eq_some, RetentionRegistry.groupWriterForActive,
      eq_ok] at hstep
    obtain ⟨hnew, registry, ⟨_, _, _, _, rfl⟩, rfl⟩ := hstep
    refine h.register (.inl rfl) ?_
    intro other published hpublished
    rcases getElem?_insert_eq_some.mp hpublished with ⟨rfl, rfl⟩ | ⟨-, hpublished⟩
    · refine .inr ⟨rfl, .inl ?_⟩
      rw [← List.take_append_drop s.pruned s.node.wal.records, recordsOf_append] at hnew
      exact (List.append_eq_nil_iff.mp hnew).1
    · exact .inl hpublished
  | sealRetentionRegistry =>
    cases hstep
    exact h.register (.inr rfl) fun other published hpublished => .inl hpublished
  | append =>
    simp only [next, eq_some] at hstep
    obtain ⟨hmay, node, hnode, rfl⟩ := hstep
    exact h.append hmay hnode
  | releaseReplicaRetention =>
    obtain ⟨registry, floor, hpass, hprunes, rfl⟩ := afterPass_eq_some hstep
    obtain ⟨⟨previous, howner, -⟩, hsealed, hpruned⟩ := RetentionRegistry.pruneBefore_spec hpass
    obtain ⟨scanned, hfollows⟩ := RaftNode.exists_follows h.node
    refine h.pass hprunes (hpruned.sealed.trans hsealed) hpruned.bounds hcond ?_
    intro other published hpublished
    rw [hpruned.floors] at hpublished
    rcases getElem?_insert_eq_some.mp hpublished with ⟨rfl, rfl⟩ | ⟨-, hold⟩
    · refine ⟨mem_of_getElem? howner, ?_⟩
      rintro floor ⟨⟩
      exact supports_minimumRecoveryLsn hfollows h.stated
    · exact h.registered hold
  | retire =>
    obtain ⟨registry, floor, hpass, hprunes, rfl⟩ := afterPass_eq_some hstep
    obtain ⟨hsub, hsealed, hbounds⟩ := retirePass_spec hpass
    exact h.pass hprunes hsealed hbounds hcond fun other published hpublished =>
      h.registered (hsub other published hpublished)
  | advanceDatabaseRetention floor =>
    obtain ⟨registry, slowest, hpass, hprunes, rfl⟩ := afterPass_eq_some hstep
    obtain ⟨-, hsealed, hpruned⟩ := RetentionRegistry.advanceDatabaseRetention_spec hpass
    refine h.pass hprunes (hpruned.sealed.trans hsealed) hpruned.bounds hcond ?_
    intro other published hpublished
    rw [hpruned.floors] at hpublished
    exact h.registered hpublished

section

variable (h : ((system core).restrict (KeepsReplayable core)).Reachable s)
include h

theorem inv_of_reachable : Inv core s := by
  refine h.invariant (P := Inv core) ?_ ?_
  · intro s hinit
    exact hinit ▸ inv_start
  · intro s action t _ hs hstep
    exact hs.step hstep.1 hstep.2

/-- Pruning keeps every registered replica: where each pass leaves every remaining replica a
first record that covers what it has lost, recovery of the remaining records answers
whenever recovery of all records does, and gives each registered replica the same log, the
same snapshot and the same hard state. -/
theorem pruning_keeps_replicas : ∃ whole suffix, scan core s.node.wal.records = .ok whole ∧
      scan core s.remaining = .ok suffix ∧
      (∀ identity ∈ s.registry.retentionFloors, suffix.replica identity = whole.replica identity) ∧
      ∀ configurations recovered,
        recoverRaftStorageWithConfigurations core configurations s.node.wal.records =
          .ok recovered →
        ∃ recovered', recoverRaftStorageWithConfigurations core configurations s.remaining =
            .ok recovered' ∧
          ∀ identity ∈ s.registry.retentionFloors,
            (recovered'.replica identity).logView = (recovered.replica identity).logView ∧
            (recovered'.replica identity).snapshot = (recovered.replica identity).snapshot ∧
            (recovered'.replica identity).hardState = (recovered.replica identity).hardState := by
  have hinv := inv_of_reachable h
  obtain ⟨whole, hfollows⟩ := RaftNode.exists_follows hinv.node
  have hsplit : s.removed ++ s.remaining = s.node.wal.records :=
    List.take_append_drop s.pruned s.node.wal.records
  have hscan : scan core (s.removed ++ s.remaining) = .ok whole := by
    rw [hsplit]
    exact hfollows.scan
  obtain ⟨suffix, hsuffix, -, hsame⟩ := scan_suffix hscan hinv.replayable
  refine ⟨whole, suffix, hfollows.scan, hsuffix, ?_, ?_⟩
  · intro identity hidentity
    exact hsame identity (hinv.kept identity hidentity)
  · intro configurations recovered hrecover
    rw [← hsplit] at hrecover
    obtain ⟨recovered', hrecover', hagrees⟩ := recover_suffix hinv.replayable hrecover
    exact ⟨recovered', hrecover', fun identity hidentity =>
      hagrees identity (hinv.kept identity hidentity)⟩

end

/-! ## Replicas with a local snapshot -/

open RaftNode (sampleCore)

instance (s : RetainedNode) (action : Action) : Decidable (s.KeepsReplayable core action) := by
  unfold KeepsReplayable
  split <;> infer_instance

/-- A step that leaves the replicas replayable. -/
def nextKept (core : RaftCore) (s : RetainedNode) (action : Action) : Option RetainedNode :=
  if s.KeepsReplayable core action then s.next core action else none

/-- A snapshot of the replica up to an index. -/
def samplePointer (index : Fin 3) : RaftSnapshotPointerRecord where
  formatVersion := 1
  identity := ⟨1, 1⟩
  snapshotId := 1
  lastIncludedIndex := index
  lastIncludedTerm := 1
  appliedIndex := index
  confState := ⟨1, [1], [], []⟩
  lastRemovedReplica := none
  sizeBytes := 1
  checksum := []
  fileName := "a"
  lastIncludedIndex_le := Nat.le_trans (Nat.le_of_lt index.isLt) (by decide)

/-- The batches of two entries and of a snapshot. -/
def sampleEntries : RaftPersistenceBatch :=
  ⟨none, [⟨1, 1, .normal [7]⟩, ⟨2, 1, .normal [8]⟩], some ⟨1, some 1, 2⟩⟩

def sampleSnapshot (index : Fin 3) : RaftPersistenceBatch :=
  ⟨some (samplePointer index), [], some ⟨1, some 1, 2⟩⟩

/-- The first replica has a snapshot of its whole log, and the second one has none. -/
def slowerActions : List Action :=
  [.groupWriterFor ⟨1, 1⟩, .groupWriterFor ⟨2, 1⟩, .sealRetentionRegistry,
    .append (.persist ⟨1, 1⟩ sampleEntries [⟨0, 10⟩, ⟨10, 20⟩, ⟨20, 30⟩]),
    .append (.persist ⟨2, 1⟩ ⟨none, [⟨1, 1, .normal [9]⟩], some ⟨1, none, 0⟩⟩
      [⟨30, 40⟩, ⟨40, 50⟩]),
    .append (.persist ⟨1, 1⟩ (sampleSnapshot 2) [⟨50, 60⟩, ⟨60, 70⟩]),
    .releaseReplicaRetention ⟨1, 1⟩ 0, .releaseReplicaRetention ⟨2, 1⟩ 3]

/-- The pass stops at the slower replica, and neither needs what precedes. -/
theorem pruning_keeps_replicas_sample :
    ∃ s suffix, ((system sampleCore).restrict
      (KeepsReplayable sampleCore)).Reachable s ∧
      s.registry.retentionFloors.toList = [(⟨1, 1⟩, some 50), (⟨2, 1⟩, some 30)] ∧
      s.remaining.map (·.lsn) = [30, 40, 50, 60] ∧
      scan sampleCore s.remaining = .ok suffix ∧
      (suffix.replica ⟨1, 1⟩).hardState = some ⟨1, some 1, 2⟩ ∧
      (suffix.replica ⟨2, 1⟩).hardState = some ⟨1, none, 0⟩ := by
  have hrun : (slowerActions.foldlM (nextKept sampleCore) start).map (fun s =>
      (s.registry.retentionFloors.toList, s.remaining.map (·.lsn),
        (scan sampleCore s.node.wal.records).toOption.map fun whole =>
          [(whole.replica ⟨1, 1⟩).hardState, (whole.replica ⟨2, 1⟩).hardState])) =
      some ([(⟨1, 1⟩, some 50), (⟨2, 1⟩, some 30)], [30, 40, 50, 60],
        some [some ⟨1, some 1, 2⟩, some ⟨1, none, 0⟩]) := by decide +kernel
  obtain ⟨s, hreachable, hstate⟩ := Lts.Reachable.of_run
    (L := (system sampleCore).restrict _) hrun rfl fun h =>
      Option.ite_none_right_eq_some.mp h
  simp only [Prod.mk.injEq, eq_some, toOption_eq_some, List.cons.injEq] at hstate
  obtain ⟨hfloors, hremaining, whole', hwhole', hfirst, hsecond, -⟩ := hstate
  obtain ⟨whole, suffix, hwhole, hsuffix, hsame, -⟩ := pruning_keeps_replicas hreachable
  cases hwhole.symm.trans hwhole'
  have hmem : ∀ e ∈ s.registry.retentionFloors.toList, e.1 ∈ s.registry.retentionFloors :=
    fun e he => mem_of_getElem? (ExtTreeMap.mem_toList_iff_getElem?_eq_some.mp he)
  rw [hfloors] at hmem
  refine ⟨s, suffix, hreachable, hfloors, hremaining, hsuffix, ?_, ?_⟩
  · rw [hsame _ (hmem (⟨1, 1⟩, some 50) (by simp))]
    exact hfirst
  · rw [hsame _ (hmem (⟨2, 1⟩, some 30) (by simp))]
    exact hsecond

/-- Two entries, a snapshot of the first, and a retention pass. -/
def sampleActions : List Action :=
  [.groupWriterFor ⟨1, 1⟩, .sealRetentionRegistry,
    .append (.persist ⟨1, 1⟩ sampleEntries [⟨0, 10⟩, ⟨10, 20⟩, ⟨20, 30⟩]),
    .append (.persist ⟨1, 1⟩ (sampleSnapshot 1) [⟨30, 40⟩, ⟨40, 50⟩]),
    .releaseReplicaRetention ⟨1, 1⟩ 1]

/-- A snapshot that keeps entry 2: the floor is the position of that entry, and nothing that
remains before the snapshot pointer can start its log. -/
theorem pruning_loses_replica :
    ∃ s, (system sampleCore).Reachable s ∧
      ⟨1, 1⟩ ∈ s.registry.retentionFloors ∧
      (s.node.storages ⟨1, 1⟩).minimumRecoveryLsn = some 10 ∧
      s.remaining.map (·.lsn) = [10, 20, 30, 40] ∧
      (∃ recovered, recoverRaftStorageWithConfigurations sampleCore ∅
        s.node.wal.records = .ok recovered) ∧
      recoverRaftStorageWithConfigurations sampleCore ∅ s.remaining =
        .error (.invalidLogTransition 10 (.missingLogPrefix 1 2)) := by
  have hrun : (sampleActions.foldlM (next sampleCore) start).map (fun s =>
      (s.registry.retentionFloors.contains ⟨1, 1⟩, (s.node.storages ⟨1, 1⟩).minimumRecoveryLsn,
        s.remaining.map (·.lsn),
        (recoverRaftStorageWithConfigurations sampleCore ∅ s.node.wal.records).isOk,
        errorOf (recoverRaftStorageWithConfigurations sampleCore ∅ s.remaining))) =
      some (true, some 10, [10, 20, 30, 40], true,
        some (.invalidLogTransition 10 (.missingLogPrefix 1 2))) := by decide +kernel
  obtain ⟨s, hreachable, hstate⟩ := Lts.Reachable.of_run (L := system _) hrun rfl id
  simp only [Prod.mk.injEq, errorOf_eq_some] at hstate
  obtain ⟨hregistered, hminimum, hremaining, hwhole, herror⟩ := hstate
  exact ⟨s, hreachable, ExtTreeMap.contains_iff_mem.mp hregistered, hminimum,
    hremaining, isOk_iff.mp hwhole, herror⟩

end RetainedNode

end RagnorDb
