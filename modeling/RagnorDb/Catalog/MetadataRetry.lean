import RagnorDb.Catalog.MetadataStep

/-!
# Retries of metadata commands

A metadata command that carries a logical identity leaves its outcome in the state, and every later
command of that identity is answered from there. The retained outcome keeps the fields of every
accepted command, but of the rejections only a regressed timestamp reservation: any other is
retained as its text and comes back as an invalid command. `RetainsOutcome` says of a command and
the state it is applied to whether its retries get its own outcome back.
-/

namespace RagnorDb

open Std Checked OrderedMap
open MetadataRejection

namespace MetadataState

variable {s : MetadataState}
variable {command : MetadataCommand} {accepted : Accepted} {identity : LogicalCommandId}
  {outcome : MetadataCachedOutcome}

/-! ## When an outcome is retained as it is -/

/-- A registered node takes the lifecycle: it has it already, or may advance to it and is no
longer expected to hold a replica when it leaves. -/
def TakesLifecycle (s : MetadataState) (existing : NodeDescriptor) (nodeId : NodeId)
    (lifecycle : NodeLifecycle) : Prop :=
  existing.lifecycle = lifecycle ∨
    existing.lifecycle.canAdvance lifecycle ∧
      (lifecycle = .decommissioned ∨ lifecycle = .tombstoned → s.expectedReplica nodeId = none)

/-- What a valid command must find in the state to be accepted, initialisation of the cluster
apart. -/
def Suits (s : MetadataState) : MetadataCommand → Prop
  | .clusterInitialized clusterId => ∀ existing ∈ s.clusterId, existing = clusterId
  | .registerClient clientId requested =>
    ∀ session ∈ s.clientSessions[clientId]?, requested = session.sessionEpoch ∨
      session.sessionEpoch < u64Max ∧ (requested = 0 ∨ requested = session.sessionEpoch + 1)
  | .renewClient clientId sessionEpoch acknowledgedThrough =>
    ∃ session ∈ s.clientSessions[clientId]?, session.sessionEpoch = sessionEpoch ∧
      (acknowledgedThrough = session.acknowledgedThrough ∨
        session.acknowledgedThrough < acknowledgedThrough ∧ acknowledgedThrough < u64Max)
  | .reserveTimestamps reservedUntil => s.timestampReservedUntil < reservedUntil
  | .registerGcProtection protection _ =>
    s.gcSafePoint ≤ protection.protectedTimestamp ∧
      s.gcProtections[(protection.ownerId, protection.protectionId)]? = none
  | .updateGcProtection protection nowMs =>
    s.gcSafePoint ≤ protection.protectedTimestamp ∧
      ∃ existing ∈ s.gcProtections[(protection.ownerId, protection.protectionId)]?,
        nowMs < existing.leaseDeadlineMs ∧
          existing.leaseDeadlineMs ≤ protection.leaseDeadlineMs
  | .renewGcProtection ownerId protectionId leaseDeadlineMs nowMs =>
    ∃ existing ∈ s.gcProtections[(ownerId, protectionId)]?,
      nowMs < existing.leaseDeadlineMs ∧ existing.leaseDeadlineMs ≤ leaseDeadlineMs
  | .releaseGcProtection _ _ => True
  | .advanceGcSafePoint candidate _ => s.gcSafePoint ≤ candidate
  | .registerNode node =>
    match s.nodes[node.nodeId]? with
    | some existing =>
      existing = node ∨ sameNodeDirectory existing node ∧
        s.TakesLifecycle existing node.nodeId node.lifecycle
    | none => s.endpointConflict node = none ∧ node.lifecycle = .active
  | .setNodeLifecycle nodeId lifecycle =>
    ∃ existing ∈ s.nodes[nodeId]?, s.TakesLifecycle existing nodeId lifecycle
  | .createTable table =>
    ∃ schema, TableSchema.fromDefinition table = .ok schema ∧
      match s.tables[schema.id]? with
      | some existing => existing = schema
      | none => schema.name ∉ s.tableIdsByName
  | .createTablet tablet =>
    match s.tablets[tablet.tabletId]? with
    | some existing => existing = tablet
    | none =>
      tablet.raftGroupId ∉ s.tabletIdsByRaftGroup ∧
        ∃ table ∈ s.tables[tablet.tableId]?, s.checkPartition tablet table = .ok ()
  | .createTableTopology request =>
    let tableId := s.allocator.maxTableId + 1
    let tabletId := s.allocator.maxTabletId + 1
    let raftGroupId := s.allocator.maxRaftGroupId + 1
    request.tableName ∉ s.tableIdsByName ∧
      (∃ selected policy, selectInitialPlacement s.nodes = some (selected, policy) ∧
        selected ≠ [] ∧ (topologyPlacement tabletId selected policy).validate = .ok ()) ∧
      tableId ≤ u64Max ∧ tabletId ≤ u64Max ∧ raftGroupId ≤ u64Max ∧
      (TableSchema.fromDefinition
        { tableId, name := request.tableName, columns := request.columns,
          primaryKeyColumnIds := request.primaryKeyColumnIds, schemaVersion := 1,
          tabletCount := initialTabletCount }).isOk ∧
      ({ tabletId, tableId, raftGroupId, tabletEpoch := 1,
         partition := .range [] [] } : TabletDescriptor).validate = .ok () ∧
      tableId ∉ s.tables ∧ tabletId ∉ s.tablets ∧ raftGroupId ∉ s.tabletIdsByRaftGroup
  | .setDesiredReplicaPlacement placement =>
    ∃ tablet ∈ s.tablets[placement.tabletId]?,
      let existing := s.desiredPlacements[placement.tabletId]?
      let policy := placement.placementPolicy
      existing = some placement ∨
        (∀ replica ∈ placement.replicas, s.checkReplica tablet existing policy replica = .ok ()) ∧
        (∀ nodeId ∈ policy.preferredLeaderNodes, s.checkPreferredLeader nodeId = .ok ()) ∧
        s.checkDomain placement "regions" policy.minDistinctRegions (·.region) = .ok () ∧
        s.checkDomain placement "zones" policy.minDistinctZones (·.zone) = .ok () ∧
        s.checkDomain placement "racks" policy.minDistinctRacks (·.rack) = .ok () ∧
        checkEpoch existing placement = .ok ()
  | .recordReplicaRetirement retirement =>
    ∃ tabletId ∈ s.tabletIdsByRaftGroup[retirement.raftGroupId]?,
      desires s.desiredPlacements[tabletId]? retirement.replicaId = false ∧
        match s.retiredReplicas[(retirement.raftGroupId, retirement.replicaId)]? with
        | some existing => existing = retirement
        | none => ∃ placement ∈ s.desiredPlacements[tabletId]?,
            placement.configurationEpoch = retirement.desiredConfigurationEpoch
  | .updateTableSchema expectedSchemaVersion table =>
    ∃ updated, TableSchema.fromDefinition table = .ok updated ∧
      ∃ existing ∈ s.tables[updated.id]?, existing = updated ∨
        checkSchemaUpdate expectedSchemaVersion existing updated = .ok ()

section Handlers

variable {clientId : ClientId} {table : TableDefinition}

theorem requireInitialized_eq_ok {u : Unit} : s.requireInitialized = .ok u ↔ s.clusterId ≠ none :=
  rejectIf_eq_ok

theorem isOk_requireInitialized_bind {α : Type} {f : Unit → Except MetadataRejection α} :
    (s.requireInitialized >>= f).isOk ↔ s.clusterId ≠ none ∧ (f ()).isOk := by
  simp [requireInitialized_eq_ok]

theorem isOk_applyClusterInitialized {clusterId : String} :
    (s.applyClusterInitialized clusterId).isOk ↔ s.Suits (.clusterInitialized clusterId) := by
  cases hcluster : s.clusterId with
  | none | some => simp [applyClusterInitialized, Suits, hcluster]

theorem isOk_applyRegisterClient {requested : Nat} :
    (s.applyRegisterClient clientId requested).isOk ↔
      s.clusterId ≠ none ∧ s.Suits (.registerClient clientId requested) := by
  rw [applyRegisterClient, isOk_requireInitialized_bind]
  refine and_congr_right fun _ => ?_
  cases hsession : s.clientSessions[clientId]? with
  | none => simp [Suits, hsession]
  | some =>
    simp [Suits, hsession, checkedAdd_eq_some]
    omega

theorem isOk_applyRenewClient {sessionEpoch acknowledgedThrough : Nat} :
    (s.applyRenewClient clientId sessionEpoch acknowledgedThrough).isOk ↔
      s.clusterId ≠ none ∧ s.Suits (.renewClient clientId sessionEpoch acknowledgedThrough) := by
  rw [applyRenewClient, isOk_requireInitialized_bind]
  refine and_congr_right fun _ => ?_
  cases hsession : s.clientSessions[clientId]? with
  | none => simp [Suits, hsession, okOr]
  | some =>
    simp only [Suits, hsession, isOk_bind, eq_ok, eq_some, exists_eq_left', exists_unit, isOk_ite,
      isOk_pure, implies_true, true_and, and_true, checkedAdd_eq_some, exists_eq_right',
      Option.mem_def]
    omega

theorem isOk_applyRegisterGcProtection {protection : MetadataGcProtection} (nowMs : Nat) :
    (s.applyRegisterGcProtection protection).isOk ↔
      s.clusterId ≠ none ∧ s.Suits (.registerGcProtection protection nowMs) := by
  rw [applyRegisterGcProtection, isOk_requireInitialized_bind]
  refine and_congr_right fun _ => ?_
  cases hexisting : s.gcProtections[(protection.ownerId, protection.protectionId)]? with
  | none | some => simp [Suits, hexisting]

theorem isOk_applyRenewGcProtection {ownerId protectionId leaseDeadlineMs nowMs : Nat} :
    (s.applyRenewGcProtection ownerId protectionId leaseDeadlineMs nowMs).isOk ↔
      s.clusterId ≠ none ∧
        s.Suits (.renewGcProtection ownerId protectionId leaseDeadlineMs nowMs) := by
  rw [applyRenewGcProtection, isOk_requireInitialized_bind]
  refine and_congr_right fun _ => ?_
  cases hexisting : s.gcProtections[(ownerId, protectionId)]? with
  | none => simp [Suits, hexisting, okOr]
  | some =>
    simp [Suits, hexisting, okOr]
    omega

theorem isOk_applySetNodeLifecycle {nodeId : NodeId} {lifecycle : NodeLifecycle} :
    (s.applySetNodeLifecycle nodeId lifecycle).isOk ↔
      s.clusterId ≠ none ∧ s.Suits (.setNodeLifecycle nodeId lifecycle) := by
  rw [applySetNodeLifecycle, isOk_requireInitialized_bind]
  refine and_congr_right fun _ => ?_
  cases hexisting : s.nodes[nodeId]? with
  | none => simp [Suits, hexisting, okOr]
  | some =>
    simp only [Suits, TakesLifecycle, hexisting, okOr, ok_bind, isOk_ite, isOk_pure, implies_true,
      true_and, isOk_bind, eq_ok, exists_unit, Option.mem_def, eq_some, exists_eq_left']
    refine Iff.trans (imp_congr_right fun _ => and_congr_right fun _ => ?_)
      or_iff_not_imp_left.symm
    -- A node that does not leave needs no check of its replicas.
    by_cases hleaves : lifecycle = .decommissioned ∨ lifecycle = .tombstoned
    · cases hexpected : s.expectedReplica nodeId with
      | none | some => simp [hleaves]
    · simp [hleaves]

theorem isOk_applyRegisterNode {node : NodeDescriptor} :
    (s.applyRegisterNode node).isOk ↔ s.clusterId ≠ none ∧ s.Suits (.registerNode node) := by
  rw [applyRegisterNode, isOk_requireInitialized_bind]
  refine and_congr_right fun hinit => ?_
  cases hexisting : s.nodes[node.nodeId]? with
  | none =>
    cases hconflict : s.endpointConflict node with
    | none | some => simp [Suits, hexisting, hconflict]
  | some existing =>
    have hlifecycle : (s.applySetNodeLifecycle node.nodeId node.lifecycle).isOk ↔
        s.TakesLifecycle existing node.nodeId node.lifecycle := by
      rw [isOk_applySetNodeLifecycle]
      simp [Suits, hexisting, hinit]
    by_cases hsame : existing = node
    · simp [Suits, hexisting, hsame]
    · by_cases hdirectory : sameNodeDirectory existing node
      · simp [Suits, hexisting, hsame, hdirectory, hlifecycle]
      · simp [Suits, hexisting, hsame, hdirectory]

theorem isOk_applyCreateTable :
    (s.applyCreateTable table).isOk ↔ s.clusterId ≠ none ∧ s.Suits (.createTable table) := by
  rw [applyCreateTable, isOk_requireInitialized_bind]
  refine and_congr_right fun hinit => ?_
  simp only [isOk_bind, eq_ok, Suits]
  refine exists_congr fun schema => and_congr_right fun _ => ?_
  cases hexisting : s.tables[schema.id]? with
  | none | some => simp

theorem isOk_applyCreateTablet {tablet : TabletDescriptor} :
    (s.applyCreateTablet tablet).isOk ↔ s.clusterId ≠ none ∧ s.Suits (.createTablet tablet) := by
  rw [applyCreateTablet, isOk_requireInitialized_bind]
  refine and_congr_right fun hinit => ?_
  cases hexisting : s.tablets[tablet.tabletId]? with
  | none | some => simp [Suits, hexisting]

theorem isOk_applyCreateTableTopology {request : CreateTableRequest} :
    (s.applyCreateTableTopology request).isOk ↔
      s.clusterId ≠ none ∧ s.Suits (.createTableTopology request) := by
  rw [applyCreateTableTopology, isOk_requireInitialized_bind]
  refine and_congr_right fun hinit => ?_
  simp [Suits, checkedAdd_eq_some, isOk_iff, topologyPlacement]
  intro _
  constructor
  · rintro ⟨selected, policy, hselect, hne, htable, htablet, hgroup, hschema, hdescriptor, hplaced,
      hfree⟩
    exact ⟨⟨selected, policy, hselect, hne, hplaced⟩, htable, htablet, hgroup, hschema, hdescriptor,
      hfree⟩
  · rintro ⟨⟨selected, policy, hselect, hne, hplaced⟩, htable, htablet, hgroup, hschema,
      hdescriptor, hfree⟩
    exact ⟨selected, policy, hselect, hne, htable, htablet, hgroup, hschema, hdescriptor, hplaced,
      hfree⟩

theorem isOk_applyDesiredPlacement {placement : DesiredReplicaPlacement} :
    (s.applyDesiredPlacement placement).isOk ↔
      s.clusterId ≠ none ∧ s.Suits (.setDesiredReplicaPlacement placement) := by
  rw [applyDesiredPlacement, isOk_requireInitialized_bind]
  refine and_congr_right fun hinit => ?_
  simp only [Suits, isOk_bind, eq_ok, isOk_ite, isOk_pure, implies_true, true_and, exists_unit,
    forM_eq_ok, and_true, or_iff_not_imp_left, Option.mem_def]

theorem isOk_applyReplicaRetirement {retirement : RetiredReplicaLifetime} :
    (s.applyReplicaRetirement retirement).isOk ↔
      s.clusterId ≠ none ∧ s.Suits (.recordReplicaRetirement retirement) := by
  rw [applyReplicaRetirement, isOk_requireInitialized_bind]
  refine and_congr_right fun hinit => ?_
  cases hexisting : s.retiredReplicas[(retirement.raftGroupId, retirement.replicaId)]? with
  | none | some => simp [Suits, hexisting]

theorem isOk_applySchemaUpdate {expectedSchemaVersion : Nat} :
    (s.applySchemaUpdate expectedSchemaVersion table).isOk ↔
      s.clusterId ≠ none ∧ s.Suits (.updateTableSchema expectedSchemaVersion table) := by
  rw [applySchemaUpdate, isOk_requireInitialized_bind]
  refine and_congr_right fun hinit => ?_
  simp [Suits, or_iff_not_imp_left]

/-- A handler accepts exactly the commands that suit the state. -/
theorem isOk_handle (command : MetadataCommand) :
    (s.handle command).isOk ↔
      ((∃ clusterId, command = .clusterInitialized clusterId) ∨ s.clusterId ≠ none) ∧
        s.Suits command := by
  cases command with
  | clusterInitialized => simp [handle, isOk_applyClusterInitialized]
  | registerClient => simp [handle, isOk_applyRegisterClient]
  | renewClient => simp [handle, isOk_applyRenewClient]
  | reserveTimestamps =>
    simp [handle, applyReserveTimestamps, requireInitialized_eq_ok, Suits]
  | registerGcProtection protection nowMs =>
    simp [handle, isOk_applyRegisterGcProtection nowMs]
  | updateGcProtection =>
    simp [handle, applyUpdateGcProtection, requireInitialized_eq_ok, Suits]
  | renewGcProtection =>
    simp [handle, isOk_applyRenewGcProtection]
  | releaseGcProtection =>
    simp [handle, applyReleaseGcProtection, requireInitialized_eq_ok, Suits]
  | advanceGcSafePoint =>
    simp [handle, applyAdvanceGcSafePoint, requireInitialized_eq_ok, Suits]
  | registerNode => simp [handle, isOk_applyRegisterNode]
  | setNodeLifecycle => simp [handle, isOk_applySetNodeLifecycle]
  | createTable => simp [handle, isOk_applyCreateTable]
  | createTablet => simp [handle, isOk_applyCreateTablet]
  | createTableTopology => simp [handle, isOk_applyCreateTableTopology]
  | setDesiredReplicaPlacement => simp [handle, isOk_applyDesiredPlacement]
  | recordReplicaRetirement => simp [handle, isOk_applyReplicaRetirement]
  | updateTableSchema => simp [handle, isOk_applySchemaUpdate]

end Handlers

/-! ## Outcomes -/

theorem Change.ne_rejected (h : s.Change command accepted) (rejection : MetadataRejection) :
    accepted.1 ≠ .rejected rejection := by
  cases h with
  | releaseProtection houtcome | advanceSafePoint _ houtcome =>
    rcases houtcome with rfl | rfl <;> simp
  | _ => simp [registerSession]

theorem ne_rejected_of_handle
    (h : s.handle command = .ok accepted) (rejection : MetadataRejection) :
    accepted.1 ≠ .rejected rejection := by
  rcases change_of_handle h with ⟨-, hchange⟩ | ⟨clusterId, -, -, rfl⟩
  · exact hchange.ne_rejected rejection
  · simp

theorem display_invalidCommand_ne (reason : String) : (invalidCommand reason).display ≠ reason := by
  intro heq
  have hlength := congrArg String.length heq
  have hdisplay : (invalidCommand reason).display = "metadata command is invalid: " ++ reason := rfl
  rw [hdisplay, String.length_append] at hlength
  have hword : "metadata command is invalid: ".length = 29 := by decide
  omega

theorem fromCached_toCached_iff (outcome : MetadataApplyOutcome) :
    metadataOutcomeFromCached (metadataOutcomeToCached outcome) = outcome ↔
      ∀ rejection, outcome = .rejected rejection →
        ∃ current received, rejection = timestampReservationRegressed current received := by
  cases outcome with
  | rejected rejection =>
    cases rejection with
    | invalidCommand reason =>
      simpa [metadataOutcomeToCached, metadataOutcomeFromCached] using
        display_invalidCommand_ne reason
    | _ => simp [metadataOutcomeToCached, metadataOutcomeFromCached]
  | _ => simp [metadataOutcomeToCached, metadataOutcomeFromCached]

theorem Moves.requestDeduplication {s' : MetadataState}
    (h : s.Moves command s') : s'.requestDeduplication = s.requestDeduplication := by
  cases h with
  | stays | initializes => rfl
  | changes _ _ hchange => exact hchange.requestDeduplication

theorem retained_applyEntry (h : s.requestDeduplication[identity]? = some outcome)
    (entry : LogEntry) : (s.applyEntry entry).2.requestDeduplication[identity]? = some outcome := by
  obtain ⟨other, command⟩ := entry
  have happly : (s.apply command).2.requestDeduplication = s.requestDeduplication :=
    (s.moves_apply command).requestDeduplication
  cases other with
  | none => rw [applyEntry, happly, h]
  | some other =>
    simp only [applyEntry, applyWithLogicalCommandId]
    cases hother : s.requestDeduplication[other]? with
    | some => exact h
    | none =>
      have hne : other ≠ identity := by
        rintro rfl
        rw [h] at hother
        cases hother
      simpa [happly, ExtTreeMap.getElem?_insert, hne] using h

theorem retained_afterLog (h : s.requestDeduplication[identity]? = some outcome)
    (log : List LogEntry) : (s.afterLog log).requestDeduplication[identity]? = some outcome := by
  induction log generalizing s with
  | nil => exact h
  | cons entry log ih => exact ih (retained_applyEntry h entry)

/-! ## Retries -/

/-- Whether the retries of a command get its own outcome back: its identity is retained already, or
the cluster is initialised and the command is accepted or reserves timestamps. -/
def RetainsOutcome (s : MetadataState) (identity : LogicalCommandId) (command : MetadataCommand) :
    Prop :=
  identity ∈ s.requestDeduplication ∨
    command.validate = .ok () ∧
      ((∃ clusterId, command = .clusterInitialized clusterId) ∨ s.clusterId ≠ none) ∧
      (s.Suits command ∨ ∃ reservedUntil, command = .reserveTimestamps reservedUntil)

/-- The rejections of a handler that keep their fields are those of reservations. -/
theorem regressed_iff_of_handle {rejection : MetadataRejection}
    (h : s.handle command = .error rejection) :
    (∃ current received, rejection = timestampReservationRegressed current received) ↔
      ((∃ clusterId, command = .clusterInitialized clusterId) ∨ s.clusterId ≠ none) ∧
        ∃ reservedUntil, command = .reserveTimestamps reservedUntil := by
  constructor
  · rintro ⟨current, received, rfl⟩
    have hreserves : ∃ reservedUntil, command = .reserveTimestamps reservedUntil := by
      by_contra hnone
      have hnever : FailsWith (RegressesOnly fun _ _ => False) (s.handle command) :=
        failsWith_handle fun reservedUntil hcommand _ => hnone ⟨reservedUntil, hcommand⟩
      exact hnever _ h current received rfl
    obtain ⟨reservedUntil, rfl⟩ := hreserves
    refine ⟨.inr fun hcluster => ?_, reservedUntil, rfl⟩
    simp [handle, applyReserveTimestamps, requireInitialized, hcluster, rejectIf] at h
  · rintro ⟨hinit, reservedUntil, rfl⟩
    have hcluster : s.clusterId ≠ none := by simpa using hinit
    simp only [handle, applyReserveTimestamps, requireInitialized, rejectIf, hcluster, ↓reduceIte,
      ok_bind] at h
    split at h
    · cases h
      exact ⟨_, _, rfl⟩
    · cases h

theorem kept_apply_iff (hfresh : identity ∉ s.requestDeduplication) :
    metadataOutcomeFromCached (metadataOutcomeToCached (s.apply command).1) =
      (s.apply command).1 ↔ s.RetainsOutcome identity command := by
  rw [fromCached_toCached_iff]
  have hok := isOk_handle (s := s) command
  rcases s.apply_eq command with ⟨error, hvalid, happly⟩ |
    ⟨hvalid, ⟨rejection, hhandle, happly⟩ | ⟨accepted, hhandle, happly⟩⟩
  · simp [happly, RetainsOutcome, hfresh, hvalid]
  · have hregressed := regressed_iff_of_handle hhandle
    simp only [hhandle, isOk_error, Bool.false_eq_true, false_iff, not_and] at hok
    simp only [happly, MetadataApplyOutcome.rejected.injEq, forall_eq', hregressed, RetainsOutcome,
      hfresh, hvalid, true_and, false_or]
    refine and_congr_right fun hinit => ?_
    simp [hok hinit]
  · simp only [hhandle, isOk_ok, true_iff] at hok
    have hne := ne_rejected_of_handle hhandle
    simp [happly, RetainsOutcome, hfresh, hvalid, hok.2, hne]
    exact hok.1

theorem applyWithLogicalCommandId_of_retained (h : s.requestDeduplication[identity]? = some outcome)
    (command : MetadataCommand) :
    s.applyWithLogicalCommandId identity command = (metadataOutcomeFromCached outcome, s) := by
  rw [applyWithLogicalCommandId, h]

theorem retained_applyWithLogicalCommandId (s : MetadataState) (identity : LogicalCommandId)
    (command : MetadataCommand) :
    ∃ outcome, (s.applyWithLogicalCommandId identity command).2.requestDeduplication[identity]? =
        some outcome ∧
      (metadataOutcomeFromCached outcome = (s.applyWithLogicalCommandId identity command).1 ↔
        s.RetainsOutcome identity command) := by
  cases hretained : s.requestDeduplication[identity]? with
  | some outcome =>
    have hmem : identity ∈ s.requestDeduplication := mem_of_getElem? hretained
    rw [applyWithLogicalCommandId_of_retained hretained]
    exact ⟨outcome, hretained, by simp [RetainsOutcome, hmem]⟩
  | none =>
    have hfresh := not_mem_of_getElem?_eq_none hretained
    refine ⟨metadataOutcomeToCached (s.apply command).1, ?_, ?_⟩
    · simp [applyWithLogicalCommandId, hretained]
    · simpa [applyWithLogicalCommandId, hretained] using kept_apply_iff hfresh

/-- Retries are transparent to a command exactly when `RetainsOutcome` holds of it: whatever is
committed in between and whatever the retry asks, it gets the first outcome and changes nothing. A
retry changes nothing in any case, and neither does a rejected command without an identity. -/
theorem retry_transparent_iff (s : MetadataState) (identity : LogicalCommandId)
    (command : MetadataCommand) :
    ((∀ later retry,
        ((s.applyWithLogicalCommandId identity command).2.afterLog later).applyWithLogicalCommandId
            identity retry = ((s.applyWithLogicalCommandId identity command).1,
            (s.applyWithLogicalCommandId identity command).2.afterLog later)) ↔
      s.RetainsOutcome identity command) ∧
    (∀ later retry,
      (((s.applyWithLogicalCommandId identity command).2.afterLog later).applyWithLogicalCommandId
          identity retry).2 = (s.applyWithLogicalCommandId identity command).2.afterLog later) ∧
    ∀ rejection, (s.apply command).1 = .rejected rejection → (s.apply command).2 = s := by
  obtain ⟨outcome, hretained, hkept⟩ := s.retained_applyWithLogicalCommandId identity command
  have hretry (later : List LogEntry) (retry : MetadataCommand) :=
    applyWithLogicalCommandId_of_retained (retained_afterLog hretained later) retry
  refine ⟨?_, fun later retry => ?_, fun rejection hrejected => ?_⟩
  · rw [← hkept]
    constructor
    · intro h
      have hfirst := h [] command
      rw [hretry] at hfirst
      exact congrArg Prod.fst hfirst
    · intro h later retry
      rw [hretry, h]
  · rw [hretry]
  · rcases s.apply_eq command with ⟨error, -, happly⟩ |
      ⟨-, ⟨rejection', -, happly⟩ | ⟨accepted, hhandle, happly⟩⟩
    · rw [happly]
    · rw [happly]
    · exact absurd (happly ▸ hrejected) (ne_rejected_of_handle hhandle rejection)

def otherSampleId : LogicalCommandId :=
  ⟨⟨1, 1, 2⟩, 1, .catalog⟩

/-- A second table of the same name is rejected with the name; its retry gets an invalid command. -/
theorem retry_loses_rejection :
    let s := new.afterLog sampleLog
    let first := s.applyWithLogicalCommandId otherSampleId
      (.createTableTopology (sampleRequest "a"))
    let retry :=
      first.2.applyWithLogicalCommandId otherSampleId (.createTableTopology (sampleRequest "a"))
    first.1 = .rejected (tableNameConflict "a") ∧
      retry.1 = .rejected (invalidCommand (tableNameConflict "a").display) := by
  decide +kernel

end MetadataState

end RagnorDb
