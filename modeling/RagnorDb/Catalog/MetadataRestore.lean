import RagnorDb.Catalog.MetadataStep

/-!
# Metadata snapshots are transparent

A state that meets the invariant has a valid snapshot, and restoring it passes every guard
of the commands it replays: each loop of the restoration rebuilds one map from its entries
in key order.
-/

namespace RagnorDb

open Std Checked OrderedMap

namespace MetadataState

variable {s : MetadataState}
variable {t : MetadataState} {node : NodeDescriptor} {table : TableSchema}
  {tablet : TabletDescriptor} {log : List LogEntry}

/-! ## The snapshot is valid -/

theorem validateTable_toDefinition {schema : TableSchema}
    (h : validateTableSchema schema = .ok ()) : validateTable schema.toDefinition = .ok () := by
  simp only [validateTableSchema, validateTableDefinition, eq_ok'] at h
  obtain ⟨hid, hversion, hcount, hname, -⟩ := h
  simp only [validateTable, eq_ok']
  exact ⟨hid, hname, hversion, hcount⟩

theorem checkHighWater_eq_ok {kind : String} {highWater initial : Nat} {visible : List Nat}
    (hinitial : initial ≤ highWater) (hvisible : ∀ id ∈ visible, id ≤ highWater) :
    MetadataSnapshot.checkHighWater kind highWater visible initial = .ok () := by
  simp only [MetadataSnapshot.checkHighWater, eq_ok, Nat.not_lt]
  cases hmax : visible.max? with
  | none => exact hinitial
  | some highest =>
    rw [List.max?_eq_some_iff] at hmax
    exact hvisible highest hmax.1

theorem Inv.checkCluster (h : s.Inv) : s.toSnapshot.checkCluster = .ok () := by
  cases hcluster : s.clusterId with
  | some clusterId =>
    simp only [MetadataSnapshot.checkCluster, toSnapshot, hcluster]
    exact h.cluster clusterId hcluster
  | none =>
    rw [h.uninitialized hcluster]
    rfl

theorem Inv.checkValues (h : s.Inv) : s.toSnapshot.checkValues = .ok () := by
  simp only [MetadataSnapshot.checkValues, toSnapshot, eq_ok, forM_eq_ok, exists_const]
  refine ⟨h.directory.valid.forall_mem_values fun _ _ hv => hv, ?_,
    h.topology.valid.forall_mem_values fun _ _ hv => hv,
    h.placements.valid.forall_mem_values fun _ _ hv => hv,
    h.retirements.valid.forall_mem_values fun _ _ hv => hv, ?_,
    h.sessions.valid.forall_mem_values fun _ _ hv => hv,
    h.protections.valid.forall_mem_values fun _ _ hv => hv⟩
  · intro definition hmem
    obtain ⟨schema, hschema, rfl⟩ := List.mem_map.mp hmem
    exact h.schemas.valid.forall_mem_values (fun _ _ hv => validateTable_toDefinition hv) _ hschema
  · intro request hmem
    obtain ⟨entry, hentry, rfl⟩ := List.mem_map.mp hmem
    rw [ExtTreeMap.mem_toList_iff_getElem?_eq_some] at hentry
    obtain ⟨hclient, hsequence⟩ := h.requests.identity hentry
    simp [MetadataRequestDeduplication.validate, requestIdForLogicalId, hclient, hsequence,
      (h.requests.outcome hentry).valid, rejectIf]

theorem Inv.checkAllocator (h : s.Inv) : s.toSnapshot.checkAllocator = .ok () := by
  have hfloors := MetadataAllocatorState.validate_eq_ok.mp h.floors
  have hgroups : ∀ id ∈ (values s.tablets).map (·.raftGroupId) ++
      (values s.retiredReplicas).map (·.raftGroupId), id ≤ s.allocator.maxRaftGroupId := by
    intro id hid
    rcases List.mem_append.mp hid with hid | hid
    · obtain ⟨tablet, htablet, rfl⟩ := List.mem_map.mp hid
      exact h.topology.bound.forall_mem_values (fun _ _ hb => hb.2) tablet htablet
    · obtain ⟨retirement, hretired, rfl⟩ := List.mem_map.mp hid
      obtain ⟨key, hkey⟩ := mem_values.mp hretired
      obtain ⟨tabletId, hgroup, -⟩ := h.retirements.group hkey
      obtain ⟨tablet, htablet, hlabel⟩ := (h.topology.groups _ _).mp hgroup
      rw [← Option.some.inj hlabel]
      exact (h.topology.bound htablet).2
  have hreplicas : ∀ id ∈ s.toSnapshot.visibleReplicaIds, id ≤ s.allocator.maxReplicaId := by
    intro id hid
    rcases List.mem_append.mp hid with hid | hid
    · obtain ⟨placement, hplacement, hid⟩ := List.mem_flatMap.mp hid
      obtain ⟨replica, hreplica, rfl⟩ := List.mem_map.mp hid
      exact h.placements.bound.forall_mem_values (fun _ _ hb => hb) placement hplacement replica
        hreplica
    · obtain ⟨retirement, hretired, rfl⟩ := List.mem_map.mp hid
      exact h.retirements.bound.forall_mem_values (fun _ _ hb => hb) retirement hretired
  simp only [MetadataSnapshot.checkAllocator, eq_ok]
  refine ⟨(), h.floors, (), checkHighWater_eq_ok hfloors.1 ?_, (),
    checkHighWater_eq_ok hfloors.2.1 ?_, (), checkHighWater_eq_ok hfloors.2.2 hgroups,
    checkHighWater_eq_ok (Nat.zero_le _) hreplicas⟩
  · intro id hid
    obtain ⟨definition, hdefinition, rfl⟩ := List.mem_map.mp hid
    obtain ⟨schema, hschema, rfl⟩ := List.mem_map.mp hdefinition
    obtain ⟨key, hkey⟩ := mem_values.mp hschema
    show schema.id ≤ _
    rw [h.schemas.keyed hkey]
    exact h.schemas.bound hkey
  · intro id hid
    obtain ⟨tablet, htablet, rfl⟩ := List.mem_map.mp hid
    obtain ⟨key, hkey⟩ := mem_values.mp htablet
    rw [h.topology.keyed hkey]
    exact (h.topology.bound hkey).1

theorem Inv.checkOrder (h : s.Inv) : s.toSnapshot.checkOrder = .ok () := by
  have htables : strictlyAscending compare (·.tableId) s.toSnapshot.tables := by
    simp only [toSnapshot, values, List.map_map]
    exact strictlyAscending_map_toList h.schemas.keyed
  simp only [MetadataSnapshot.checkOrder, eq_ok']
  exact ⟨strictlyAscending_map_toList h.directory.keyed, htables,
    strictlyAscending_map_toList h.topology.keyed, strictlyAscending_map_toList h.placements.keyed,
    strictlyAscending_map_toList h.retirements.keyed,
    strictlyAscending_map_toList fun _ _ _ => rfl, strictlyAscending_map_toList h.sessions.keyed,
    strictlyAscending_map_toList h.protections.keyed⟩

theorem Inv.validate_toSnapshot (h : s.Inv) : s.toSnapshot.validate = .ok () := by
  simp [MetadataSnapshot.validate, h.checkCluster, h.checkValues, h.checkAllocator, h.checkOrder]

/-! ## The restoration succeeds -/

theorem applySnapshotCommand_of_handle {t' : MetadataState} {command : MetadataCommand}
    (hvalid : command.validate = .ok ()) (h : t.handle command = .ok (.applied, t')) :
    t.applySnapshotCommand command = .ok t' := by
  simp [applySnapshotCommand, apply, tryApply, hvalid, Except.mapError, h]

theorem applySnapshotCommand_setNodeLifecycle (hinit : t.clusterId ≠ none)
    (htablets : t.tablets = ∅) (hid : node.nodeId ≠ 0)
    {lifecycle lifecycle' : NodeLifecycle} (hadvance : lifecycle.canAdvance lifecycle') :
    (t.putNode { node with lifecycle }).applySnapshotCommand
        (.setNodeLifecycle node.nodeId lifecycle') =
      .ok (t.putNode { node with lifecycle := lifecycle' }) := by
  have hne : lifecycle ≠ lifecycle' := by
    rintro rfl
    cases lifecycle <;> cases hadvance
  have hexpected : (t.putNode { node with lifecycle }).expectedReplica node.nodeId = none := by
    simp [expectedReplica, putNode, htablets, values]
  refine applySnapshotCommand_of_handle (by simp [MetadataCommand.validate, hid]) ?_
  simp [putNode] at hexpected
  simp [handle, applySetNodeLifecycle, requireInitialized, rejectIf, okOr, putNode,
    hinit, hne, hadvance, hexpected, insert_insert]

theorem applySnapshotNode_eq_ok (hinit : t.clusterId ≠ none) (htablets : t.tablets = ∅)
    (hvalid : node.validate = .ok ()) (hnew : t.nodes[node.nodeId]? = none)
    (hendpoints : Each (fun _ existing => ∀ endpoint ∈ node.endpoints,
      endpoint ∉ existing.endpoints) t.nodes) :
    t.applySnapshotNode node = .ok (t.putNode node) := by
  have hid : node.nodeId ≠ 0 := by
    simp only [NodeDescriptor.validate, eq_ok'] at hvalid
    exact hvalid.1
  have hregister : t.applySnapshotCommand (.registerNode { node with lifecycle := .active }) =
      .ok (t.putNode { node with lifecycle := .active }) := by
    have hconflict : t.endpointConflict { node with lifecycle := .active } = none :=
      endpointConflict_eq_none.mpr hendpoints
    refine applySnapshotCommand_of_handle hvalid ?_
    simp [handle, applyRegisterNode, requireInitialized, rejectIf, hinit, hnew,
      hconflict, putNode]
  have hadvance {lifecycle lifecycle' : NodeLifecycle} (h : lifecycle.canAdvance lifecycle') :=
    applySnapshotCommand_setNodeLifecycle hinit htablets hid h
  have hdraining := hadvance (show NodeLifecycle.active.canAdvance .draining from rfl)
  have hdecommissioning :=
    hadvance (show NodeLifecycle.draining.canAdvance .decommissioning from rfl)
  have hdecommissioned :=
    hadvance (show NodeLifecycle.decommissioning.canAdvance .decommissioned from rfl)
  have htombstoned := hadvance (show NodeLifecycle.decommissioned.canAdvance .tombstoned from rfl)
  have hnode : ∀ lifecycle, node.lifecycle = lifecycle →
      t.putNode { node with lifecycle } = t.putNode node := by
    rintro _ rfl
    rfl
  rw [applySnapshotNode, hregister, ok_bind]
  -- The node passes through every lifecycle up to its own.
  cases hlifecycle : node.lifecycle <;> rw [← hnode _ hlifecycle] <;>
    simp [NodeLifecycle.rank, List.filter, hdraining, hdecommissioning, hdecommissioned,
      htombstoned]

theorem applySnapshotCommand_createTable (t : MetadataState) (hinit : t.clusterId ≠ none)
    (hvalid : validateTableSchema table = .ok ())
    (hnew : t.tables[table.id]? = none) (hname : t.tableIdsByName[table.name]? = none) :
    t.applySnapshotCommand (.createTable table.toDefinition) = .ok (t.putTable table) := by
  have hdefinition : TableSchema.fromDefinition table.toDefinition = .ok table :=
    TableSchema.fromDefinition_eq_ok.mpr ⟨rfl, hvalid⟩
  refine applySnapshotCommand_of_handle (validateTable_toDefinition hvalid) ?_
  simp [handle, applyCreateTable, requireInitialized, rejectIf, hinit, hdefinition,
    Except.mapError, hnew, not_mem_of_getElem?_eq_none hname]

theorem applySnapshotCommand_createTablet (t : MetadataState) (hinit : t.clusterId ≠ none)
    (hvalid : tablet.validate = .ok ()) (hnew : t.tablets[tablet.tabletId]? = none)
    (hgroup : t.tabletIdsByRaftGroup[tablet.raftGroupId]? = none)
    (htable : t.tables[tablet.tableId]? = some table)
    (hfits : FitsTable t.tablets t.tabletIdsByPartition tablet table) :
    t.applySnapshotCommand (.createTablet tablet) = .ok (t.putTablet tablet) := by
  have hcheck := checkPartition_eq_ok.mpr hfits
  refine applySnapshotCommand_of_handle hvalid ?_
  simp only [handle, applyCreateTablet, requireInitialized, rejectIf, okOr, hinit,
    hnew, htable, not_mem_of_getElem?_eq_none hgroup, hcheck, if_false, ok_bind]
  rfl

/-! Each loop of the restoration, on the state that the loops before it have built. -/

theorem Inv.restoreNodes (h : s.Inv) (hinit : t.clusterId ≠ none) (hnodes : t.nodes = ∅)
    (htablets : t.tablets = ∅) :
    (values s.nodes).foldlM applySnapshotNode t = .ok { t with nodes := s.nodes } := by
  obtain ⟨t', ht', rfl⟩ := exists_foldlM_values (f := applySnapshotNode) (s := t) (m := s.nodes)
    (R := fun part t' => t' = { t with nodes := part }) (by rw [← hnodes]) (by
      rintro part _ id node hsub hid hnew rfl
      have hkey : node.nodeId = id := h.directory.keyed hid
      subst hkey
      refine ⟨_, applySnapshotNode_eq_ok (t := { t with nodes := part }) hinit htablets
        (h.directory.valid hid) hnew ?_, rfl⟩
      intro id' existing hid'
      refine h.directory.endpoints hid (hsub _ _ hid') ?_
      rintro rfl
      cases hnew.symm.trans hid')
  exact ht'

theorem Inv.restoreTables (h : s.Inv) (hinit : t.clusterId ≠ none)
    (htables : t.tables = ∅) (hnames : t.tableIdsByName = ∅) :
    ∃ allocator, ((values s.tables).map (·.toDefinition)).foldlM (fun (t : MetadataState) table =>
        t.applySnapshotCommand (.createTable table)) t =
      .ok { t with tables := s.tables, tableIdsByName := s.tableIdsByName, allocator } := by
  rw [List.foldlM_map]
  obtain ⟨t', ht', names, allocator, rfl, hindex⟩ := exists_foldlM_values (s := t) (m := s.tables)
    (f := fun (t : MetadataState) (table : TableSchema) =>
      t.applySnapshotCommand (.createTable table.toDefinition))
    (R := fun part t' => ∃ names allocator,
      t' = { t with tables := part, tableIdsByName := names, allocator } ∧
        Indexes (fun table : TableSchema => some table.name) names part)
    ⟨∅, t.allocator, by rw [← htables, ← hnames], .empty⟩ (by
      rintro part _ id table hsub hid hnew ⟨names, allocator, rfl, hindex⟩
      have hkey : table.id = id := h.schemas.keyed hid
      subst hkey
      have hname := h.schemas.names.getElem?_eq_none hindex hsub hid rfl hnew
      exact ⟨_, applySnapshotCommand_createTable
        { t with tables := part, tableIdsByName := names, allocator } hinit (h.schemas.valid hid)
        hnew hname, _, _, rfl, hindex.insert hnew rfl hname⟩)
  refine ⟨allocator, ?_⟩
  rw [ht', hindex.unique h.schemas.names]

/-- A tablet of the state fits its table beside any of the other tablets. -/
theorem Inv.fitsTable (h : s.Inv) {part : TabletMap}
    {buckets : BucketMap} (hsub : Sub part s.tablets)
    (hbuckets : Indexes TabletDescriptor.bucketKey buckets part)
    (hid : s.tablets[tablet.tabletId]? = some tablet) (hnew : part[tablet.tabletId]? = none) :
    ∃ table, s.tables[tablet.tableId]? = some table ∧ FitsTable part buckets tablet table := by
  obtain ⟨table, htable, hhash, hcount⟩ := h.topology.table hid
  refine ⟨table, htable, ?_, ?_⟩
  · intro bucket bucketCount hpartition
    have hkey : tablet.bucketKey = some (tablet.tableId, bucket) := by
      simp [TabletDescriptor.bucketKey, hpartition]
    refine ⟨hhash bucket bucketCount hpartition, ?_, ?_⟩
    · rw [ExtTreeMap.mem_iff_isSome_getElem?,
        h.topology.buckets.getElem?_eq_none hbuckets hsub hid hkey hnew]
      exact Bool.false_ne_true
    · -- The tablet itself is counted in the state but not in the part.
      have hpart := (hsub.insert hid).countP_le (·.tableId = tablet.tableId)
      have hone := tabletCountOf_insert hnew tablet.tableId
      have htotal := hcount ⟨tablet, mem_values.mpr ⟨_, hid⟩, rfl, by simp [hkey]⟩
      rw [if_pos rfl] at hone
      unfold tabletCountOf at hone htotal ⊢
      omega
  · intro startKey endKey hpartition id existing hid' htable'
    refine h.topology.ranges hid (hsub _ _ hid') ?_ htable' startKey endKey hpartition
    rintro rfl
    cases hnew.symm.trans hid'

theorem Inv.restoreTablets (h : s.Inv) (hinit : t.clusterId ≠ none)
    (htables : t.tables = s.tables) (htablets : t.tablets = ∅)
    (hgroups : t.tabletIdsByRaftGroup = ∅)
    (hbuckets : t.tabletIdsByPartition = ∅) :
    ∃ allocator, (values s.tablets).foldlM (fun (t : MetadataState) tablet =>
        t.applySnapshotCommand (.createTablet tablet)) t =
      .ok { t with
        tablets := s.tablets
        tabletIdsByRaftGroup := s.tabletIdsByRaftGroup
        tabletIdsByPartition := s.tabletIdsByPartition
        allocator } := by
  obtain ⟨t', ht', groups, buckets, allocator, rfl, hgroup, hbucket⟩ :=
    exists_foldlM_values (s := t) (m := s.tablets)
      (f := fun (t : MetadataState) tablet => t.applySnapshotCommand (.createTablet tablet))
      (R := fun part t' => ∃ groups buckets allocator,
        t' = { t with
          tablets := part
          tabletIdsByRaftGroup := groups
          tabletIdsByPartition := buckets
          allocator } ∧
        Indexes (fun tablet : TabletDescriptor => some tablet.raftGroupId) groups part ∧
        Indexes TabletDescriptor.bucketKey buckets part)
      ⟨∅, ∅, t.allocator, by rw [← htablets, ← hgroups, ← hbuckets], .empty, .empty⟩ (by
        rintro part _ id tablet hsub hid hnew ⟨groups, buckets, allocator, rfl, hgroup, hbucket⟩
        have hkey : tablet.tabletId = id := h.topology.keyed hid
        subst hkey
        have hgroupNone := h.topology.groups.getElem?_eq_none hgroup hsub hid rfl hnew
        obtain ⟨table, htable, hfits⟩ := h.fitsTable hsub hbucket hid hnew
        rw [← htables] at htable
        exact ⟨_, applySnapshotCommand_createTablet
          { t with
            tablets := part
            tabletIdsByRaftGroup := groups
            tabletIdsByPartition := buckets
            allocator } hinit (h.topology.valid hid) hnew hgroupNone htable hfits,
          _, _, _, rfl, hgroup.insert hnew rfl hgroupNone, hfits.putBucket hbucket hnew⟩)
  refine ⟨allocator, ?_⟩
  rw [ht', hgroup.unique h.topology.groups, hbucket.unique h.topology.buckets]

theorem applySnapshotPlacement_eq_ok (t : MetadataState) {placement : DesiredReplicaPlacement}
    (htablet : placement.tabletId ∈ t.tablets)
    (hnodes : ∀ replica ∈ placement.replicas, replica.nodeId ∈ t.nodes)
    (hretired : t.retiredReplicas = ∅) :
    ∃ allocator, t.applySnapshotPlacement placement = .ok { t with
      desiredPlacements := t.desiredPlacements.insert placement.tabletId placement
      allocator } := by
  obtain ⟨tablet, htablet⟩ := exists_of_mem htablet
  have hreplicas : placement.replicas.forM (t.checkSnapshotReplica tablet) = .ok () := by
    refine forM_eq_ok.mpr fun replica hmem => ?_
    simp [checkSnapshotReplica, rejectIf, hnodes replica hmem, hretired]
  simp only [applySnapshotPlacement, htablet, okOr, ok_bind, hreplicas]
  exact ⟨_, rfl⟩

theorem Inv.restorePlacements (h : s.Inv) (hnodes : t.nodes = s.nodes)
    (htablets : t.tablets = s.tablets) (hdesired : t.desiredPlacements = ∅)
    (hretired : t.retiredReplicas = ∅) :
    ∃ allocator, (values s.desiredPlacements).foldlM applySnapshotPlacement t =
      .ok { t with desiredPlacements := s.desiredPlacements, allocator } := by
  obtain ⟨t', ht', allocator, rfl⟩ := exists_foldlM_values (s := t) (m := s.desiredPlacements)
    (f := applySnapshotPlacement)
    (R := fun part t' => ∃ allocator, t' = { t with desiredPlacements := part, allocator })
    ⟨t.allocator, by rw [← hdesired]⟩ (by
      rintro part _ id placement hsub hid hnew ⟨allocator, rfl⟩
      have hkey : placement.tabletId = id := h.placements.keyed hid
      subst hkey
      obtain ⟨allocator', hstep⟩ := applySnapshotPlacement_eq_ok
        { t with desiredPlacements := part, allocator }
        (show placement.tabletId ∈ t.tablets from htablets ▸ h.placements.tablet hid)
        (show ∀ replica ∈ placement.replicas, replica.nodeId ∈ t.nodes from
          hnodes ▸ h.placements.node hid) hretired
      exact ⟨_, hstep, allocator', rfl⟩)
  exact ⟨allocator, ht'⟩

theorem applySnapshotRetirement_eq_ok (t : MetadataState) {retirement : RetiredReplicaLifetime}
    {tabletId : TabletId} (hgroup : t.tabletIdsByRaftGroup[retirement.raftGroupId]? = some tabletId)
    (hfree : desires t.desiredPlacements[tabletId]? retirement.replicaId = false) :
    ∃ allocator, t.applySnapshotRetirement retirement = .ok { t with
      retiredReplicas := t.retiredReplicas.insert
        (retirement.raftGroupId, retirement.replicaId) retirement
      allocator } := by
  simp only [applySnapshotRetirement, hgroup, okOr, ok_bind, hfree, rejectIf, Bool.false_eq_true,
    if_false]
  exact ⟨_, rfl⟩

theorem Inv.restoreRetirements (h : s.Inv)
    (hgroups : t.tabletIdsByRaftGroup = s.tabletIdsByRaftGroup)
    (hdesired : t.desiredPlacements = s.desiredPlacements) (hretired : t.retiredReplicas = ∅) :
    ∃ allocator, (values s.retiredReplicas).foldlM applySnapshotRetirement t =
      .ok { t with retiredReplicas := s.retiredReplicas, allocator } := by
  obtain ⟨t', ht', allocator, rfl⟩ := exists_foldlM_values (s := t) (m := s.retiredReplicas)
    (f := applySnapshotRetirement)
    (R := fun part t' => ∃ allocator, t' = { t with retiredReplicas := part, allocator })
    ⟨t.allocator, by rw [← hretired]⟩ (by
      rintro part _ key retirement hsub hid hnew ⟨allocator, rfl⟩
      have hkey := h.retirements.keyed hid
      subst hkey
      obtain ⟨tabletId, hgroup, hfree⟩ := h.retirements.group hid
      rw [← hgroups] at hgroup
      rw [← hdesired] at hfree
      obtain ⟨allocator', hstep⟩ := applySnapshotRetirement_eq_ok
        { t with retiredReplicas := part, allocator } hgroup hfree
      exact ⟨_, hstep, allocator', rfl⟩)
  exact ⟨allocator, ht'⟩

theorem checkCachedOutcome_eq_ok {outcome : MetadataCachedOutcome}
    (h : Retainable t.tables t.tablets outcome) : t.checkCachedOutcome outcome = .ok () := by
  cases outcome with
  | tableCreated =>
    obtain ⟨htable, tablet, htablet, htableId, hgroup⟩ := h.created rfl
    obtain ⟨table, htable⟩ := exists_of_mem htable
    simp only [checkCachedOutcome, eq_ok]
    exact ⟨table, htable, tablet, htablet, by simp [htableId, hgroup]⟩
  | _ => rfl

theorem Inv.restoreRequests (h : s.Inv) (htables : t.tables = s.tables)
    (htablets : t.tablets = s.tablets) (hrequests : t.requestDeduplication = ∅) :
    s.toSnapshot.requestDeduplication.foldlM applySnapshotRequest t =
      .ok { t with requestDeduplication := s.requestDeduplication } := by
  simp only [toSnapshot, List.foldlM_map]
  obtain ⟨t', ht', rfl⟩ := exists_foldlM_toList (s := t) (m := s.requestDeduplication)
    (f := fun (t : MetadataState) (e : LogicalCommandId × MetadataCachedOutcome) =>
      t.applySnapshotRequest ⟨requestIdForLogicalId e.1, e.1, e.2⟩)
    (R := fun part t' => t' = { t with requestDeduplication := part }) (by rw [← hrequests]) (by
      rintro part _ id outcome hsub hid hnew rfl
      have hretained := h.requests.outcome hid
      rw [← htables, ← htablets] at hretained
      have hcheck : checkCachedOutcome { t with requestDeduplication := part } outcome = .ok () :=
        checkCachedOutcome_eq_ok hretained
      refine ⟨_, ?_, rfl⟩
      simp only [applySnapshotRequest, hcheck, ok_bind]
      rfl)
  exact ht'

theorem Inv.restoreSessions (h : s.Inv) (hsessions : t.clientSessions = ∅) :
    (values s.clientSessions).foldlM applySnapshotSession t =
      .ok { t with clientSessions := s.clientSessions } := by
  obtain ⟨t', ht', rfl⟩ := exists_foldlM_values (s := t) (m := s.clientSessions)
    (f := applySnapshotSession)
    (R := fun part t' => t' = { t with clientSessions := part }) (by rw [← hsessions]) (by
      rintro part _ id session hsub hid hnew rfl
      have hkey : session.clientId = id := h.sessions.keyed hid
      subst hkey
      refine ⟨_, ?_, rfl⟩
      simp [applySnapshotSession, rejectIf, not_mem_of_getElem?_eq_none hnew])
  exact ht'

/-- Restoring a snapshot gives the state it was taken of. -/
theorem Inv.fromSnapshot_toSnapshot (h : s.Inv) : fromSnapshot s.toSnapshot = .ok s := by
  cases hcluster : s.clusterId with
  | none =>
    rw [h.uninitialized hcluster]
    rfl
  | some clusterId =>
    have hinit : some clusterId ≠ none := nofun
    have hprotections : (values s.gcProtections).foldl (fun protections protection =>
        protections.insert (protection.ownerId, protection.protectionId) protection) ∅ =
        s.gcProtections := foldl_insert_values h.protections.keyed
    simp only [fromSnapshot, h.validate_toSnapshot, Except.mapError, ok_bind,
      show s.toSnapshot.clusterId = some clusterId from hcluster, eq_ok]
    refine ⟨_, applySnapshotCommand_of_handle (h.cluster clusterId hcluster) rfl, _,
      h.restoreNodes hinit (by rfl) (by rfl), _,
      (h.restoreTables hinit (by rfl) (by rfl)).choose_spec, _,
      (h.restoreTablets hinit (by rfl) (by rfl) (by rfl) (by rfl)).choose_spec, _,
      (h.restorePlacements (by rfl) (by rfl) (by rfl) (by rfl)).choose_spec, _,
      (h.restoreRetirements (by rfl) (by rfl) (by rfl)).choose_spec, ?_⟩
    -- The marks replace the allocator that the loops have left.
    simp only [installMarks, toSnapshot, hprotections, ← hcluster]
    exact ⟨_, h.restoreRequests (t := { s with requestDeduplication := ∅, clientSessions := ∅ })
      rfl rfl rfl, h.restoreSessions rfl⟩

/-! ## Logs -/

/-- The outcomes of the entries of a log, and the state after it. -/
def applyAll : List LogEntry → MetadataState → List MetadataApplyOutcome × MetadataState
  | [], s => ([], s)
  | entry :: log, s =>
    let rest := applyAll log (s.applyEntry entry).2
    ((s.applyEntry entry).1 :: rest.1, rest.2)

theorem applyAll_append (p q : List LogEntry) (s : MetadataState) :
    applyAll (p ++ q) s =
      ((applyAll p s).1 ++ (applyAll q (applyAll p s).2).1, (applyAll q (applyAll p s).2).2) := by
  induction p generalizing s with
  | nil => rfl
  | cons entry p ih => simp [applyAll, ih]

theorem eq_applyAll_of_steps {C : MetadataState → LogEntry → Prop} {s' : MetadataState}
    (h : (metadataLog.restrict C).Steps s log s') : s' = (applyAll log s).2 := by
  induction h with
  | nil => rfl
  | cons hstep _ ih =>
    obtain ⟨-, rfl⟩ := hstep
    exact ih

theorem inv_of_steps (h : (metadataLog.restrict KeepsRestorable).Steps new log s) : s.Inv :=
  h.preserves (fun hinv ⟨hkeeps, hstep⟩ => hstep ▸ hinv.applyEntry hkeeps) inv_new

/-- Snapshots are transparent after every log whose entries keep them restorable: the snapshot
is valid, restoring it gives the state itself, and replaying `q` on what was restored answers
and ends as replaying `p` and then `q` from the beginning. -/
theorem metadata_snapshot_transparent {p : List LogEntry}
    (h : (metadataLog.restrict KeepsRestorable).Steps new p s) (q : List LogEntry) :
    s.toSnapshot.validate = .ok () ∧
      ∃ restored, fromSnapshot s.toSnapshot = .ok restored ∧ restored = s ∧
        (applyAll p new).1 ++ (applyAll q restored).1 = (applyAll (p ++ q) new).1 ∧
        (applyAll q restored).2 = (applyAll (p ++ q) new).2 := by
  have hinv := inv_of_steps h
  refine ⟨hinv.validate_toSnapshot, s, hinv.fromSnapshot_toSnapshot, rfl, ?_⟩
  rw [eq_applyAll_of_steps h, applyAll_append]
  exact ⟨rfl, rfl⟩

/-- The request is answered from the restored cache. -/
theorem metadata_snapshot_transparent_sample :
    ∃ s, (metadataLog.restrict KeepsRestorable).Steps new sampleLog s ∧
      ∃ restored, fromSnapshot s.toSnapshot = .ok restored ∧
        (applyAll [(some sampleId, .createTableTopology (sampleRequest "a"))] restored).1 =
          [.tableCreated ⟨2, 2, 3⟩] := by
  have hsteps : (metadataLog.restrict KeepsRestorable).Steps new sampleLog
      (applyAll sampleLog new).2 := by
    refine .cons ⟨by decide +kernel, rfl⟩ (.cons ⟨by decide +kernel, rfl⟩
      (.cons ⟨by decide +kernel, rfl⟩ (.nil _)))
  obtain ⟨-, restored, hrestored, -, hanswers, -⟩ := metadata_snapshot_transparent hsteps
    [(some sampleId, .createTableTopology (sampleRequest "a"))]
  refine ⟨_, hsteps, restored, hrestored, ?_⟩
  have hfirst : (applyAll sampleLog new).1 = [.applied, .applied, .tableCreated ⟨2, 2, 3⟩] := by
    decide +kernel
  have hall : (applyAll (sampleLog ++ [(some sampleId,
      .createTableTopology (sampleRequest "a"))]) new).1 =
      [.applied, .applied, .tableCreated ⟨2, 2, 3⟩, .tableCreated ⟨2, 2, 3⟩] := by
    decide +kernel
  rw [hfirst, hall] at hanswers
  simpa using hanswers

/-- Four logs whose snapshots cannot be restored, one for each part of the condition: an
outcome is retained before the cluster exists; a second table lowers the mark of the replicas
below one that is placed; a replica above the mark is retired; a range is added to a table that
has all its hash tablets. -/
theorem metadata_snapshot_not_restorable :
    let moved : DesiredReplicaPlacement := ⟨2, 2, [⟨2, 1, .voter⟩], ⟨1, 0, 0, 0, none, []⟩⟩
    let table : TableDefinition := ⟨5, "t", [⟨1, "id", .int, false⟩], [1], 1, 1⟩
    [[(some sampleId, .reserveTimestamps 5)],
      sampleLog ++ [(none, .setDesiredReplicaPlacement moved),
        (none, .createTableTopology (sampleRequest "b"))],
      sampleLog ++ [(none, .recordReplicaRetirement ⟨3, 9, 1, 1, 1, 1⟩)],
      [(none, .clusterInitialized "c"), (none, .createTable table),
        (none, .createTablet ⟨9, 5, 9, 1, .hash 0 1⟩),
        (none, .createTablet ⟨8, 5, 8, 1, .range [] []⟩)]].map
      (fun log => (fromSnapshot (applyAll log new).2.toSnapshot).map fun _ => ()) =
    ["invalid metadata snapshot: uninitialized metadata snapshot contains replicated state",
      "invalid metadata snapshot: metadata replica allocator high-water 1 is below visible ID 2",
      "invalid metadata snapshot: metadata replica allocator high-water 1 is below visible ID 9",
      "metadata snapshot violates state-machine invariant: table 5 already has all 1 " ++
        "configured tablets"].map (.error <| .corruptData ·) := by
  decide +kernel

end MetadataState

end RagnorDb
