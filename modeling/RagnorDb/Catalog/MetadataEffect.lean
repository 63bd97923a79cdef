import RagnorDb.Catalog.Metadata
import RagnorDb.Lib.Lts

/-!
# What an accepted metadata command does

One constructor for each change that a command can make, with what its handler has checked.
Everything that is proved about logs of commands goes through this relation, so that no other
proof looks into the handlers.
-/

namespace RagnorDb

open Std Checked OrderedMap MetadataRejection

namespace MetadataState

variable {s : MetadataState}
variable {candidates : List NodeDescriptor} {selected nodeIds : List NodeId}

/-- The tablet of a new table. -/
def topologyTablet (schema : TableSchema) (tabletId : TabletId) (raftGroupId : RaftGroupId) :
    TabletDescriptor :=
  { tabletId, tableId := schema.id, raftGroupId, tabletEpoch := 1, partition := .range [] [] }

/-- The placement of a new table. -/
def topologyPlacement (tabletId : TabletId) (selected : List NodeId) (policy : PlacementPolicy) :
    DesiredReplicaPlacement :=
  { tabletId, configurationEpoch := 1, replicas := initialReplicas selected,
    placementPolicy := policy }

variable (s : MetadataState)

/-- The state with a new table and its topology. -/
def putTopology (schema : TableSchema) (tabletId : TabletId) (raftGroupId : RaftGroupId)
    (selected : List NodeId) (policy : PlacementPolicy) : MetadataState :=
  { s with
    tables := s.tables.insert schema.id schema
    tableIdsByName := s.tableIdsByName.insert schema.name schema.id
    tabletIdsByRaftGroup := s.tabletIdsByRaftGroup.insert raftGroupId tabletId
    tablets := s.tablets.insert tabletId (topologyTablet schema tabletId raftGroupId)
    desiredPlacements :=
      s.desiredPlacements.insert tabletId (topologyPlacement tabletId selected policy)
    allocator :=
      { maxTableId := schema.id
        maxTabletId := tabletId
        maxRaftGroupId := raftGroupId
        maxReplicaId := ((initialReplicas selected).map (·.replicaId)).max?.getD
          s.allocator.maxReplicaId } }

/-- The protections that a clock does not expire. -/
def retainedProtections (nowMs : Nat) : ExtTreeMap (Nat × Nat) MetadataGcProtection comparePair :=
  s.gcProtections.filter fun _ protection => nowMs < protection.leaseDeadlineMs

/-- The safe point that the retained protections allow. -/
def allowedSafePoint (candidate : Timestamp) (nowMs : Nat) : Timestamp :=
  ((values (s.retainedProtections nowMs)).map (·.protectedTimestamp)).min?.elim candidate
    (min candidate)

/-- The change of an accepted command in an initialised cluster. -/
inductive Change (s : MetadataState) : MetadataCommand → Accepted → Prop
  | unchanged {command : MetadataCommand} : Change s command (.alreadyApplied, s)
  | timestamps {reservedUntil : Timestamp} : s.timestampReservedUntil < reservedUntil →
      Change s (.reserveTimestamps reservedUntil)
        (.timestampsReserved (s.timestampReservedUntil + 1) reservedUntil,
          { s with timestampReservedUntil := reservedUntil })
  | registerProtection {protection : MetadataGcProtection} {nowMs : Nat} :
      s.gcSafePoint ≤ protection.protectedTimestamp →
      s.gcProtections[(protection.ownerId, protection.protectionId)]? = none →
      Change s (.registerGcProtection protection nowMs) (.applied, s.putGcProtection protection)
  | updateProtection {protection existing : MetadataGcProtection} {nowMs : Nat} :
      s.gcSafePoint ≤ protection.protectedTimestamp →
      s.gcProtections[(protection.ownerId, protection.protectionId)]? = some existing →
      nowMs < existing.leaseDeadlineMs → existing.leaseDeadlineMs ≤ protection.leaseDeadlineMs →
      Change s (.updateGcProtection protection nowMs) (.applied, s.putGcProtection protection)
  | renewProtection {ownerId protectionId leaseDeadlineMs nowMs : Nat}
      {existing : MetadataGcProtection} :
      s.gcProtections[(ownerId, protectionId)]? = some existing →
      nowMs < existing.leaseDeadlineMs → existing.leaseDeadlineMs ≤ leaseDeadlineMs →
      Change s (.renewGcProtection ownerId protectionId leaseDeadlineMs nowMs) (.applied,
        { s with
          gcProtections := s.gcProtections.insert (ownerId, protectionId)
            { existing with leaseDeadlineMs } })
  | releaseProtection {ownerId protectionId : Nat} {outcome : MetadataApplyOutcome} :
      outcome = .applied ∨ outcome = .alreadyApplied →
      Change s (.releaseGcProtection ownerId protectionId) (outcome,
        { s with gcProtections := s.gcProtections.erase (ownerId, protectionId) })
  | advanceSafePoint {candidate : Timestamp} {nowMs : Nat} {outcome : MetadataApplyOutcome} :
      s.gcSafePoint ≤ candidate → outcome = .applied ∨ outcome = .alreadyApplied →
      Change s (.advanceGcSafePoint candidate nowMs) (outcome,
        { s with
          gcProtections := s.retainedProtections nowMs
          gcSafePoint := s.allowedSafePoint candidate nowMs })
  | registerClient {clientId : ClientId} {requested sessionEpoch : Nat} : sessionEpoch ≠ 0 →
      Change s (.registerClient clientId requested) (s.registerSession clientId sessionEpoch)
  | renewClient {clientId : ClientId} {sessionEpoch acknowledgedThrough : Nat}
      {session : MetadataClientSession} : s.clientSessions[clientId]? = some session →
      Change s (.renewClient clientId sessionEpoch acknowledgedThrough) (.clientRenewed,
        { s with
          clientSessions := s.clientSessions.insert clientId
            { session with
              acknowledgedThrough, firstRetainedSequence := acknowledgedThrough + 1 } })
  | registerNode {node : NodeDescriptor} : s.nodes[node.nodeId]? = none →
      s.endpointConflict node = none →
      Change s (.registerNode node) (.applied, s.putNode node)
  | setLifecycle {command : MetadataCommand} {nodeId : NodeId} {existing : NodeDescriptor}
      {lifecycle : NodeLifecycle} : s.nodes[nodeId]? = some existing →
      Change s command
        (.applied, { s with nodes := s.nodes.insert nodeId { existing with lifecycle } })
  | createTable {table : TableDefinition} {schema : TableSchema} :
      TableSchema.fromDefinition table = .ok schema → s.tables[schema.id]? = none →
      s.tableIdsByName[schema.name]? = none →
      Change s (.createTable table) (.applied, s.putTable schema)
  | updateSchema {expectedSchemaVersion : Nat} {table : TableDefinition}
      {existing updated : TableSchema} : TableSchema.fromDefinition table = .ok updated →
      s.tables[updated.id]? = some existing → updated.name = existing.name →
      updated.tabletCount = existing.tabletCount →
      Change s (.updateTableSchema expectedSchemaVersion table) (.applied,
        { s with
          tables := s.tables.insert updated.id updated
          tableIdsByName := s.tableIdsByName.insert updated.name updated.id })
  | createTablet {tablet : TabletDescriptor} {table : TableSchema} :
      s.tablets[tablet.tabletId]? = none → s.tabletIdsByRaftGroup[tablet.raftGroupId]? = none →
      s.tables[tablet.tableId]? = some table → s.checkPartition tablet table = .ok () →
      Change s (.createTablet tablet) (.applied, s.putTablet tablet)
  | createTopology {request : CreateTableRequest} {schema : TableSchema} {tabletId : TabletId}
      {raftGroupId : RaftGroupId} {selected : List NodeId} {policy : PlacementPolicy} :
      selectInitialPlacement s.nodes = some (selected, policy) → selected ≠ [] →
      schema.id = s.allocator.maxTableId + 1 → tabletId = s.allocator.maxTabletId + 1 →
      raftGroupId = s.allocator.maxRaftGroupId + 1 → validateTableSchema schema = .ok () →
      (topologyTablet schema tabletId raftGroupId).validate = .ok () →
      (topologyPlacement tabletId selected policy).validate = .ok () →
      s.tables[schema.id]? = none → s.tableIdsByName[schema.name]? = none →
      s.tablets[tabletId]? = none → s.tabletIdsByRaftGroup[raftGroupId]? = none →
      Change s (.createTableTopology request)
        (.tableCreated ⟨schema.id, tabletId, raftGroupId⟩,
          s.putTopology schema tabletId raftGroupId selected policy)
  | place {placement : DesiredReplicaPlacement} {tablet : TabletDescriptor} :
      s.tablets[placement.tabletId]? = some tablet →
      (∀ replica ∈ placement.replicas, replica.nodeId ∈ s.nodes ∧
        (tablet.raftGroupId, replica.replicaId) ∉ s.retiredReplicas) →
      checkEpoch s.desiredPlacements[placement.tabletId]? placement = .ok () →
      Change s (.setDesiredReplicaPlacement placement) (.applied,
        { s with
          allocator :=
            { s.allocator with
              maxReplicaId := max s.allocator.maxReplicaId
                ((placement.replicas.map (·.replicaId)).max?.getD 0) }
          desiredPlacements := s.desiredPlacements.insert placement.tabletId placement })
  | retire {retirement : RetiredReplicaLifetime} {tabletId : TabletId} :
      s.tabletIdsByRaftGroup[retirement.raftGroupId]? = some tabletId →
      desires s.desiredPlacements[tabletId]? retirement.replicaId = false →
      Change s (.recordReplicaRetirement retirement) (.applied,
        { s with
          retiredReplicas := s.retiredReplicas.insert
            (retirement.raftGroupId, retirement.replicaId) retirement })

/-! ## Initial placements -/

theorem mem_of_bestCandidate {selected : List NodeDescriptor} {best : NodeDescriptor}
    (h : bestCandidate selected candidates = some best) : best ∈ candidates := by
  induction candidates generalizing best with
  | nil => cases h
  | cons node candidates ih =>
    unfold bestCandidate at h
    cases hrest : bestCandidate selected candidates with
    | none =>
      rw [hrest] at h
      cases h
      exact List.mem_cons_self
    | some =>
      rw [hrest] at h
      dsimp only at h
      split at h
      · cases h
        exact List.mem_cons_self
      · cases h
        exact List.mem_cons_of_mem _ (ih hrest)

/-- The selection adds as many nodes as it is asked for, each of them a candidate. -/
theorem selectNodes_eq_some {nodes : NodeMap} {count : Nat}
    {result : List NodeId} (h : selectNodes nodes count candidates selected = some result) :
    result.length = selected.length + count ∧
      ∀ id ∈ result, id ∈ selected ∨ ∃ node ∈ candidates, node.nodeId = id := by
  induction count generalizing candidates selected with
  | zero =>
    cases h
    exact ⟨rfl, fun id hid => .inl hid⟩
  | succ count ih =>
    simp only [selectNodes, Option.bind_eq_bind, eq_some] at h
    obtain ⟨best, hbest, hrest⟩ := h
    obtain ⟨hlength, hmem⟩ := ih hrest
    refine ⟨by simp [hlength]; omega, ?_⟩
    intro id hid
    rcases hmem id hid with hselected | ⟨node, hnode, hkey⟩
    · rcases List.mem_append.mp hselected with hold | hnew
      · exact .inl hold
      · exact .inr ⟨best, mem_of_bestCandidate hbest, (List.mem_singleton.mp hnew).symm⟩
    · exact .inr ⟨node, List.mem_of_mem_erase hnode, hkey⟩

/-- The number of replicas of an initial placement. -/
def initialReplicaCount : Nat :=
  min (activeNodes s.nodes).length initialReplicationFactor

variable {s}

theorem selectInitialPlacement_eq_some {policy : PlacementPolicy}
    (h : selectInitialPlacement s.nodes = some (selected, policy)) :
    selected.length = s.initialReplicaCount ∧
      ∀ id ∈ selected, ∃ node ∈ activeNodes s.nodes, node.nodeId = id := by
  simp only [selectInitialPlacement] at h
  split at h
  · cases h
  · simp only [Option.bind_eq_bind, eq_some, Option.pure_def, Prod.mk.injEq] at h
    obtain ⟨result, hresult, rfl, -⟩ := h
    obtain ⟨hlength, hmem⟩ := selectNodes_eq_some hresult
    refine ⟨by simpa [initialReplicaCount] using hlength, ?_⟩
    intro id hid
    exact (hmem id hid).resolve_left (List.not_mem_nil)

theorem length_mem_initialReplicas (h : nodeIds ≠ []) :
    nodeIds.length ∈ (initialReplicas nodeIds).map (·.replicaId) := by
  have hpos : 0 < nodeIds.length := List.length_pos_iff.mpr h
  have hlast : nodeIds.length - 1 < nodeIds.length := by omega
  refine List.mem_map.mpr ⟨⟨nodeIds.length - 1 + 1, nodeIds[nodeIds.length - 1], .voter⟩, ?_, ?_⟩
  · exact List.mem_mapIdx.mpr ⟨nodeIds.length - 1, hlast, rfl⟩
  · exact Nat.sub_add_cancel hpos

theorem mem_of_mem_initialReplicas {replica : DesiredReplica}
    (h : replica ∈ initialReplicas nodeIds) : replica.nodeId ∈ nodeIds := by
  simp only [initialReplicas, List.mem_mapIdx] at h
  obtain ⟨index, hindex, rfl⟩ := h
  exact List.getElem_mem hindex

/-! ## Handlers -/

section Handlers

/-- The cluster is initialised, and the command makes this change. -/
abbrev Changes (s : MetadataState) (command : MetadataCommand) (accepted : Accepted) : Prop :=
  s.clusterId ≠ none ∧ s.Change command accepted

variable {accepted : Accepted}
variable {protection : MetadataGcProtection}
  {nowMs ownerId protectionId expectedSchemaVersion : Nat} {clientId : ClientId}
  {table : TableDefinition} {tablet : TabletDescriptor}

theorem change_of_applyReserveTimestamps {reservedUntil : Timestamp}
    (h : s.applyReserveTimestamps reservedUntil = .ok accepted) :
    s.Changes (.reserveTimestamps reservedUntil) accepted := by
  simp only [applyReserveTimestamps, requireInitialized, eq_ok', Nat.not_le] at h
  obtain ⟨hinit, hlt, rfl⟩ := h
  exact ⟨hinit, .timestamps hlt⟩

theorem change_of_applyRegisterGcProtection
    (h : s.applyRegisterGcProtection protection = .ok accepted) :
    s.Changes (.registerGcProtection protection nowMs) accepted := by
  simp only [applyRegisterGcProtection, requireInitialized, eq_ok', Nat.not_lt] at h
  obtain ⟨hinit, hle, h⟩ := h
  cases hexisting : s.gcProtections[(protection.ownerId, protection.protectionId)]? with
  | some => simp [hexisting] at h
  | none =>
    rw [hexisting] at h
    cases h
    exact ⟨hinit, .registerProtection hle hexisting⟩

theorem change_of_applyUpdateGcProtection
    (h : s.applyUpdateGcProtection protection nowMs = .ok accepted) :
    s.Changes (.updateGcProtection protection nowMs) accepted := by
  simp only [applyUpdateGcProtection, requireInitialized, eq_ok', Nat.not_lt, Nat.not_le] at h
  obtain ⟨hinit, hle, existing, hexisting, hlive, hdeadline, h⟩ := h
  split at h
  · cases h
    exact ⟨hinit, .unchanged⟩
  · cases h
    exact ⟨hinit, .updateProtection hle hexisting hlive hdeadline⟩

theorem change_of_applyRenewGcProtection {leaseDeadlineMs : Nat}
    (h : s.applyRenewGcProtection ownerId protectionId leaseDeadlineMs nowMs = .ok accepted) :
    s.Changes (.renewGcProtection ownerId protectionId leaseDeadlineMs nowMs) accepted := by
  simp only [applyRenewGcProtection, requireInitialized, eq_ok', Nat.not_le] at h
  obtain ⟨hinit, existing, hexisting, hlive, h⟩ := h
  split at h
  · cases h
    exact ⟨hinit, .unchanged⟩
  · simp only [eq_ok', Nat.not_lt] at h
    obtain ⟨hle, rfl⟩ := h
    exact ⟨hinit, .renewProtection hexisting hlive hle⟩

theorem change_of_applyReleaseGcProtection
    (h : s.applyReleaseGcProtection ownerId protectionId = .ok accepted) :
    s.Changes (.releaseGcProtection ownerId protectionId) accepted := by
  simp only [applyReleaseGcProtection, requireInitialized, eq_ok'] at h
  obtain ⟨hinit, rfl⟩ := h
  refine ⟨hinit, .releaseProtection ?_⟩
  split
  · exact .inl rfl
  · exact .inr rfl

theorem change_of_applyAdvanceGcSafePoint {candidate : Timestamp}
    (h : s.applyAdvanceGcSafePoint candidate nowMs = .ok accepted) :
    s.Changes (.advanceGcSafePoint candidate nowMs) accepted := by
  simp only [applyAdvanceGcSafePoint, requireInitialized, eq_ok', Nat.not_lt] at h
  obtain ⟨hinit, hle, rfl⟩ := h
  refine ⟨hinit, .advanceSafePoint hle ?_⟩
  split
  · exact .inr rfl
  · exact .inl rfl

theorem change_of_applyRegisterClient {requested : Nat}
    (h : s.applyRegisterClient clientId requested = .ok accepted) :
    s.Changes (.registerClient clientId requested) accepted := by
  simp only [applyRegisterClient, requireInitialized, eq_ok'] at h
  obtain ⟨hinit, h⟩ := h
  cases hexisting : s.clientSessions[clientId]? with
  | none =>
    rw [hexisting] at h
    cases h
    exact ⟨hinit, .registerClient (by omega)⟩
  | some =>
    rw [hexisting] at h
    dsimp only at h
    split at h
    · cases h
      exact ⟨hinit, .unchanged⟩
    · simp only [eq_ok'] at h
      obtain ⟨-, epoch, hepoch, -, rfl⟩ := h
      have := eq_of_checkedAdd hepoch
      exact ⟨hinit, .registerClient (by omega)⟩

theorem change_of_applyRenewClient {sessionEpoch acknowledgedThrough : Nat}
    (h : s.applyRenewClient clientId sessionEpoch acknowledgedThrough = .ok accepted) :
    s.Changes (.renewClient clientId sessionEpoch acknowledgedThrough) accepted := by
  simp only [applyRenewClient, requireInitialized, eq_ok'] at h
  obtain ⟨hinit, session, hsession, -, -, h⟩ := h
  split at h
  · cases h
    exact ⟨hinit, .unchanged⟩
  · simp only [eq_ok] at h
    obtain ⟨firstRetainedSequence, hfirst, rfl⟩ := h
    cases eq_of_checkedAdd hfirst
    exact ⟨hinit, .renewClient hsession⟩

theorem change_of_applySetNodeLifecycle {command : MetadataCommand} {nodeId : NodeId}
    {lifecycle : NodeLifecycle} (h : s.applySetNodeLifecycle nodeId lifecycle = .ok accepted) :
    s.Changes command accepted := by
  simp only [applySetNodeLifecycle, requireInitialized, eq_ok'] at h
  obtain ⟨hinit, existing, hexisting, h⟩ := h
  split at h
  · cases h
    exact ⟨hinit, .unchanged⟩
  · simp only [eq_ok'] at h
    obtain ⟨-, h⟩ := h
    split at h
    · cases h
    · cases h
      exact ⟨hinit, .setLifecycle hexisting⟩

theorem change_of_applyRegisterNode {node : NodeDescriptor}
    (h : s.applyRegisterNode node = .ok accepted) :
    s.Changes (.registerNode node) accepted := by
  simp only [applyRegisterNode, requireInitialized, eq_ok'] at h
  obtain ⟨hinit, h⟩ := h
  cases hexisting : s.nodes[node.nodeId]? with
  | some =>
    rw [hexisting] at h
    dsimp only at h
    split at h
    · cases h
      exact ⟨hinit, .unchanged⟩
    · split at h
      · exact change_of_applySetNodeLifecycle h
      · cases h
  | none =>
    rw [hexisting] at h
    cases hconflict : s.endpointConflict node with
    | some => simp [hconflict] at h
    | none =>
      simp only [hconflict, eq_ok'] at h
      obtain ⟨-, rfl⟩ := h
      exact ⟨hinit, .registerNode hexisting hconflict⟩

theorem change_of_applyCreateTable (h : s.applyCreateTable table = .ok accepted) :
    s.Changes (.createTable table) accepted := by
  simp only [applyCreateTable, requireInitialized, eq_ok'] at h
  obtain ⟨hinit, schema, hschema, h⟩ := h
  cases hexisting : s.tables[schema.id]? with
  | some =>
    rw [hexisting] at h
    dsimp only at h
    split at h
    · cases h
      exact ⟨hinit, .unchanged⟩
    · cases h
  | none =>
    simp only [hexisting, eq_ok'] at h
    obtain ⟨hname, rfl⟩ := h
    exact ⟨hinit, .createTable hschema hexisting (ExtTreeMap.getElem?_eq_none hname)⟩

theorem checkSchemaUpdate_eq_ok {existing updated : TableSchema}
    (h : checkSchemaUpdate expectedSchemaVersion existing updated = .ok ()) :
    updated.name = existing.name ∧ updated.tabletCount = existing.tabletCount := by
  simp only [checkSchemaUpdate, eq_ok'] at h
  obtain ⟨-, _, -, -, hname, hcount, -⟩ := h
  exact ⟨hname, hcount⟩

theorem change_of_applySchemaUpdate
    (h : s.applySchemaUpdate expectedSchemaVersion table = .ok accepted) :
    s.Changes (.updateTableSchema expectedSchemaVersion table) accepted := by
  simp only [applySchemaUpdate, requireInitialized, eq_ok'] at h
  obtain ⟨hinit, updated, hupdated, existing, hexisting, h⟩ := h
  split at h
  · cases h
    exact ⟨hinit, .unchanged⟩
  · simp only [eq_ok] at h
    obtain ⟨⟨⟩, hcheck, rfl⟩ := h
    obtain ⟨hname, hcount⟩ := checkSchemaUpdate_eq_ok hcheck
    exact ⟨hinit, .updateSchema hupdated hexisting hname hcount⟩

theorem change_of_applyCreateTablet (h : s.applyCreateTablet tablet = .ok accepted) :
    s.Changes (.createTablet tablet) accepted := by
  simp only [applyCreateTablet, requireInitialized, eq_ok'] at h
  obtain ⟨hinit, h⟩ := h
  cases hexisting : s.tablets[tablet.tabletId]? with
  | some =>
    rw [hexisting] at h
    dsimp only at h
    split at h
    · cases h
      exact ⟨hinit, .unchanged⟩
    · cases h
  | none =>
    simp only [hexisting, eq_ok'] at h
    obtain ⟨hgroup, table, htable, ⟨⟩, hcheck, rfl⟩ := h
    exact ⟨hinit, .createTablet hexisting (ExtTreeMap.getElem?_eq_none hgroup) htable hcheck⟩

theorem change_of_applyCreateTableTopology {request : CreateTableRequest}
    (h : s.applyCreateTableTopology request = .ok accepted) :
    s.Changes (.createTableTopology request) accepted := by
  simp only [applyCreateTableTopology, requireInitialized, eq_ok', Prod.exists,
    TableSchema.fromDefinition_eq_ok] at h
  obtain ⟨hinit, hname, selected, policy, hselect, hne, tableId, htableId, tabletId, htabletId,
    raftGroupId, hgroupId, schema, ⟨hdefinition, hschema⟩, ⟨⟩, htablet, ⟨⟩, hplacement,
    ⟨hfreeTable, hfreeTablet, hfreeGroup⟩, rfl⟩ := h
  cases show schema.id = tableId from congrArg (·.tableId) hdefinition
  rw [← show schema.name = request.tableName from congrArg (·.name) hdefinition] at hname
  exact ⟨hinit, .createTopology hselect hne (eq_of_checkedAdd htableId)
    (eq_of_checkedAdd htabletId) (eq_of_checkedAdd hgroupId) hschema htablet hplacement
    (ExtTreeMap.getElem?_eq_none hfreeTable) (ExtTreeMap.getElem?_eq_none hname)
    (ExtTreeMap.getElem?_eq_none hfreeTablet) (ExtTreeMap.getElem?_eq_none hfreeGroup)⟩

theorem checkReplica_eq_ok {existing : Option DesiredReplicaPlacement} {policy : PlacementPolicy}
    {replica : DesiredReplica} (h : s.checkReplica tablet existing policy replica = .ok ()) :
    replica.nodeId ∈ s.nodes ∧ (tablet.raftGroupId, replica.replicaId) ∉ s.retiredReplicas := by
  simp only [checkReplica, eq_ok'] at h
  obtain ⟨node, hnode, -, ⟨⟩, -, hretired⟩ := h
  exact ⟨mem_of_getElem? hnode, hretired⟩

theorem change_of_applyDesiredPlacement {placement : DesiredReplicaPlacement}
    (h : s.applyDesiredPlacement placement = .ok accepted) :
    s.Changes (.setDesiredReplicaPlacement placement) accepted := by
  simp only [applyDesiredPlacement, requireInitialized, eq_ok'] at h
  obtain ⟨hinit, tablet, htablet, h⟩ := h
  split at h
  · cases h
    exact ⟨hinit, .unchanged⟩
  · simp only [eq_ok', forM_eq_ok] at h
    obtain ⟨hreplicas, -, ⟨⟩, -, ⟨⟩, -, ⟨⟩, -, ⟨⟩, hepoch, rfl⟩ := h
    exact ⟨hinit, .place htablet
      (fun replica hmem => checkReplica_eq_ok (hreplicas replica hmem)) hepoch⟩

theorem change_of_applyReplicaRetirement {retirement : RetiredReplicaLifetime}
    (h : s.applyReplicaRetirement retirement = .ok accepted) :
    s.Changes (.recordReplicaRetirement retirement) accepted := by
  simp only [applyReplicaRetirement, requireInitialized, eq_ok', Bool.not_eq_true] at h
  obtain ⟨hinit, tabletId, hgroup, hdesired, h⟩ := h
  cases hexisting : s.retiredReplicas[(retirement.raftGroupId, retirement.replicaId)]? with
  | some =>
    rw [hexisting] at h
    dsimp only at h
    split at h
    · cases h
      exact ⟨hinit, .unchanged⟩
    · cases h
  | none =>
    simp only [hexisting, eq_ok'] at h
    obtain ⟨placement, -, -, rfl⟩ := h
    exact ⟨hinit, .retire hgroup hdesired⟩

end Handlers

/-- An accepted command initialises the cluster, or makes a change in an initialised one. -/
theorem change_of_handle {command : MetadataCommand} {accepted : Accepted}
    (h : s.handle command = .ok accepted) :
    s.Changes command accepted ∨
      ∃ clusterId, command = .clusterInitialized clusterId ∧ s.clusterId = none ∧
        accepted = (.applied, { s with clusterId := some clusterId }) := by
  cases command with
  | clusterInitialized clusterId =>
    simp only [handle, applyClusterInitialized] at h
    cases hcluster : s.clusterId with
    | none =>
      rw [hcluster] at h
      cases h
      exact .inr ⟨clusterId, rfl, rfl, rfl⟩
    | some =>
      rw [hcluster] at h
      dsimp only at h
      split at h
      · cases h
        exact .inl ⟨by simp [hcluster], .unchanged⟩
      · cases h
  | registerClient => exact .inl (change_of_applyRegisterClient h)
  | renewClient => exact .inl (change_of_applyRenewClient h)
  | reserveTimestamps => exact .inl (change_of_applyReserveTimestamps h)
  | registerGcProtection => exact .inl (change_of_applyRegisterGcProtection h)
  | updateGcProtection => exact .inl (change_of_applyUpdateGcProtection h)
  | renewGcProtection => exact .inl (change_of_applyRenewGcProtection h)
  | releaseGcProtection => exact .inl (change_of_applyReleaseGcProtection h)
  | advanceGcSafePoint => exact .inl (change_of_applyAdvanceGcSafePoint h)
  | registerNode => exact .inl (change_of_applyRegisterNode h)
  | setNodeLifecycle => exact .inl (change_of_applySetNodeLifecycle h)
  | createTable => exact .inl (change_of_applyCreateTable h)
  | createTablet => exact .inl (change_of_applyCreateTablet h)
  | createTableTopology => exact .inl (change_of_applyCreateTableTopology h)
  | setDesiredReplicaPlacement => exact .inl (change_of_applyDesiredPlacement h)
  | recordReplicaRetirement => exact .inl (change_of_applyReplicaRetirement h)
  | updateTableSchema => exact .inl (change_of_applySchemaUpdate h)

/-! ## Log entries -/

/-- A log entry: a command, with its durable identity if the request carries one. -/
abbrev LogEntry := Option LogicalCommandId × MetadataCommand

/-- Apply one committed log entry. -/
def applyEntry (s : MetadataState) (entry : LogEntry) : Accepted :=
  match entry.1 with
  | none => s.apply entry.2
  | some logicalCommandId => s.applyWithLogicalCommandId logicalCommandId entry.2

/-- Every log of committed entries, applied to a new state. -/
def metadataLog : Lts MetadataState LogEntry where
  init s := s = new
  step s entry s' := (s.applyEntry entry).2 = s'

/-- The state after a log. -/
def afterLog (s : MetadataState) (log : List LogEntry) : MetadataState :=
  log.foldl (fun s entry => (s.applyEntry entry).2) s

theorem steps_afterLog (s : MetadataState) (log : List LogEntry) :
    metadataLog.Steps s log (s.afterLog log) := by
  induction log generalizing s with
  | nil => exact .nil s
  | cons entry log ih => exact .cons rfl (ih _)

/-- Whether every entry of a log meets a condition on the state before it. -/
def LogMeets (C : MetadataState → LogEntry → Prop) : MetadataState → List LogEntry → Prop
  | _, [] => True
  | s, entry :: log => C s entry ∧ LogMeets C (s.applyEntry entry).2 log

instance (C : MetadataState → LogEntry → Prop) [∀ s entry, Decidable (C s entry)] :
    ∀ (s : MetadataState) (log : List LogEntry), Decidable (LogMeets C s log)
  | _, [] => inferInstanceAs (Decidable True)
  | s, entry :: log =>
    have := instDecidableLogMeets C (s.applyEntry entry).2 log
    inferInstanceAs (Decidable (_ ∧ _))

theorem steps_of_logMeets {C : MetadataState → LogEntry → Prop} {log : List LogEntry}
    (h : LogMeets C s log) : (metadataLog.restrict C).Steps s log (s.afterLog log) := by
  induction log generalizing s with
  | nil => exact .nil s
  | cons entry log ih => exact .cons ⟨h.1, rfl⟩ (ih h.2)

/-- Where a command leads, whether it is accepted or not. -/
inductive Moves (s : MetadataState) (command : MetadataCommand) : MetadataState → Prop
  | stays : Moves s command s
  | initializes {clusterId : String} : command = .clusterInitialized clusterId →
      command.validate = .ok () → s.clusterId = none →
      Moves s command { s with clusterId := some clusterId }
  | changes {accepted : Accepted} : s.clusterId ≠ none → command.validate = .ok () →
      s.Change command accepted → Moves s command accepted.2

theorem apply_eq (s : MetadataState) (command : MetadataCommand) :
    (∃ error, command.validate = .error error ∧
        s.apply command = (.rejected (invalidCommand error.display), s)) ∨
      command.validate = .ok () ∧
        ((∃ rejection, s.handle command = .error rejection ∧
          s.apply command = (.rejected rejection, s)) ∨
        ∃ accepted, s.handle command = .ok accepted ∧ s.apply command = accepted) := by
  cases hvalid : command.validate with
  | error => simp [apply, tryApply, hvalid, Except.mapError]
  | ok u =>
    cases u
    cases hhandle : s.handle command with
    | error | ok => simp [apply, tryApply, hvalid, hhandle, Except.mapError]

theorem moves_apply (s : MetadataState) (command : MetadataCommand) :
    s.Moves command (s.apply command).2 := by
  rcases s.apply_eq command with ⟨error, -, happly⟩ |
    ⟨hvalid, ⟨rejection, -, happly⟩ | ⟨accepted, hhandle, happly⟩⟩
  · rw [happly]
    exact .stays
  · rw [happly]
    exact .stays
  · rw [happly]
    rcases change_of_handle hhandle with ⟨hinit, hchange⟩ | ⟨clusterId, hcommand, hnone, rfl⟩
    · exact .changes hinit hvalid hchange
    · exact .initializes hcommand hvalid hnone

theorem moves_of_step {s' : MetadataState} {entry : LogEntry} (h : metadataLog.step s entry s') :
    ∃ t requests, s.Moves entry.2 t ∧ s' = { t with requestDeduplication := requests } := by
  obtain ⟨identity, command⟩ := entry
  subst h
  cases identity with
  | none => exact ⟨_, _, s.moves_apply command, rfl⟩
  | some logicalCommandId =>
    simp only [applyEntry, applyWithLogicalCommandId]
    cases s.requestDeduplication[logicalCommandId]? with
    | some => exact ⟨s, s.requestDeduplication, .stays, rfl⟩
    | none => exact ⟨_, _, s.moves_apply command, rfl⟩

/-! ## Samples -/

def sampleNode : NodeDescriptor :=
  ⟨1, "127.0.0.1:1", "127.0.0.1:2", "127.0.0.1:3", "127.0.0.1:4", none, none, none, "ssd", .active⟩

def sampleRequest (name : String) : CreateTableRequest :=
  ⟨name, [⟨1, "id", .int, false⟩], [1]⟩

def sampleId : LogicalCommandId :=
  ⟨⟨1, 1, 1⟩, 1, .catalog⟩

/-- One node, and a table on it. -/
def sampleLog : List LogEntry :=
  [(none, .clusterInitialized "c"), (none, .registerNode sampleNode),
    (some sampleId, .createTableTopology (sampleRequest "a"))]

end MetadataState

end RagnorDb
