import RagnorDb.Catalog.MetadataSnapshot

/-!
# What a metadata state keeps

The invariant is a conjunction of relations between the maps of the state, one for each
group of maps that commands change together.  Each relation has a lemma for each change.
-/

namespace RagnorDb

open Std Checked OrderedMap

section Maps

variable {nodes nodes' : NodeMap} {tables tables' : TableMap}
  {names : ExtTreeMap String TableId compare}
  {tablets tablets' : TabletMap} {groups : GroupMap} {buckets : BucketMap} {desired : PlacementMap}
  {retired : RetiredMap} {maxTableId maxTabletId maxRaftGroupId maxReplicaId : Nat}
variable {table : TableSchema} {tablet : TabletDescriptor}

/-! ## Nodes -/

/-- Nodes are valid and share no endpoint. -/
structure Directory (nodes : NodeMap) : Prop where
  keyed : Each (fun id node => node.nodeId = id) nodes
  valid : Each (fun _ node => node.validate = .ok ()) nodes
  endpoints : Each (fun id node => Each (fun id' node' => id ≠ id' →
    ∀ endpoint ∈ node.endpoints, endpoint ∉ node'.endpoints) nodes) nodes

theorem Directory.empty : Directory ∅ :=
  ⟨.empty, .empty, .empty⟩

theorem Directory.insert (h : Directory nodes) (node : NodeDescriptor)
    (hvalid : node.validate = .ok ()) (hendpoints : Each (fun id existing => node.nodeId ≠ id →
      ∀ endpoint ∈ node.endpoints, endpoint ∉ existing.endpoints) nodes) :
    Directory (nodes.insert node.nodeId node) where
  keyed := h.keyed.insert rfl
  valid := h.valid.insert hvalid
  endpoints := by
    refine Each.insert ?_ (hendpoints.insert fun hne => absurd rfl hne)
    intro id existing hid
    refine (h.endpoints hid).insert ?_
    intro hne endpoint hmem hmem'
    exact hendpoints hid (Ne.symm hne) endpoint hmem' hmem

theorem Directory.setLifecycle (h : Directory nodes) {id : NodeId} {node : NodeDescriptor}
    (hid : nodes[id]? = some node) (lifecycle : NodeLifecycle) :
    Directory (nodes.insert id { node with lifecycle }) := by
  have hkey : node.nodeId = id := h.keyed hid
  have hvalid : node.validate = .ok () := h.valid hid
  have hendpoints := h.endpoints hid
  subst hkey
  exact h.insert { node with lifecycle } hvalid hendpoints

/-! ## Tables -/

/-- Tables have valid schemas and distinct names, which the index holds. -/
structure Schemas (tables : TableMap)
    (names : ExtTreeMap String TableId compare) (maxTableId : Nat) : Prop where
  keyed : Each (fun id table => table.id = id) tables
  valid : Each (fun _ table => validateTableSchema table = .ok ()) tables
  names : Indexes (fun table : TableSchema => some table.name) names tables
  bound : Each (fun id _ => id ≤ maxTableId) tables

theorem Schemas.empty (maxTableId : Nat) : Schemas ∅ ∅ maxTableId :=
  ⟨.empty, .empty, .empty, .empty⟩

section

variable (h : Schemas tables names maxTableId) (hvalid : validateTableSchema table = .ok ())
include h hvalid

theorem Schemas.insert (hid : tables[table.id]? = none) (hname : names[table.name]? = none)
    {maxTableId' : Nat} (hmax : max maxTableId table.id ≤ maxTableId') :
    Schemas (tables.insert table.id table) (names.insert table.name table.id) maxTableId' where
  keyed := h.keyed.insert rfl
  valid := h.valid.insert hvalid
  names := h.names.insert hid rfl hname
  bound := by
    refine Each.insert ?_ (by omega)
    exact h.bound.imp fun id _ _ hle => by omega

theorem Schemas.replace {existing : TableSchema} (hid : tables[table.id]? = some existing)
    (hname : table.name = existing.name) :
    Schemas (tables.insert table.id table) (names.insert table.name table.id) maxTableId where
  keyed := h.keyed.insert rfl
  valid := h.valid.insert hvalid
  names := h.names.replace hid (congrArg some hname.symm) rfl
  bound := h.bound.insert (h.bound hid)

end

/-! ## Tablets -/

/-- The key of a tablet in the index of hash partitions. -/
def TabletDescriptor.bucketKey (self : TabletDescriptor) : Option (TableId × Nat) :=
  match self.partition with
  | .hash bucket _ => some (self.tableId, bucket)
  | .range _ _ => none

/-- The number of tablets of a table. -/
def tabletCountOf (tablets : TabletMap) (tableId : TableId) : Nat :=
  (values tablets).countP (·.tableId = tableId)

/-- Whether a table has a hash-partitioned tablet. -/
def HasHash (tablets : TabletMap) (tableId : TableId) : Prop :=
  ∃ tablet ∈ values tablets, tablet.tableId = tableId ∧ tablet.bucketKey ≠ none

instance (tablets : TabletMap) (tableId : TableId) :
    Decidable (HasHash tablets tableId) :=
  inferInstanceAs (Decidable (∃ tablet ∈ values tablets, _))

/-- Tablets are valid and lie in a table, their Raft groups and hash buckets are distinct and
indexed, their ranges do not overlap, and a table with hash tablets has at most as many as it
is configured for. -/
structure Topology (tables : TableMap) (tablets : TabletMap) (groups : GroupMap)
    (buckets : BucketMap) (maxTabletId maxRaftGroupId : Nat) : Prop where
  keyed : Each (fun id tablet => tablet.tabletId = id) tablets
  valid : Each (fun _ tablet => tablet.validate = .ok ()) tablets
  table : Each (fun _ tablet => ∃ table, tables[tablet.tableId]? = some table ∧
    (∀ bucket bucketCount, tablet.partition = .hash bucket bucketCount →
      bucketCount = table.tabletCount) ∧
    (HasHash tablets tablet.tableId →
      tabletCountOf tablets tablet.tableId ≤ table.tabletCount)) tablets
  groups : Indexes (fun tablet : TabletDescriptor => some tablet.raftGroupId) groups tablets
  buckets : Indexes TabletDescriptor.bucketKey buckets tablets
  ranges : Each (fun id tablet => Each (fun id' tablet' => id ≠ id' →
    tablet'.tableId = tablet.tableId →
    ∀ startKey endKey, tablet.partition = .range startKey endKey →
    tablet'.partition.overlapsRange startKey endKey = false) tablets) tablets
  bound : Each (fun id tablet => id ≤ maxTabletId ∧ tablet.raftGroupId ≤ maxRaftGroupId) tablets

theorem Topology.empty (tables : TableMap)
    (maxTabletId maxRaftGroupId : Nat) : Topology tables ∅ ∅ ∅ maxTabletId maxRaftGroupId :=
  ⟨.empty, .empty, .empty, .empty, .empty, .empty, .empty⟩

theorem Topology.tables_mono (h : Topology tables tablets groups buckets maxTabletId maxRaftGroupId)
    (htables : Each (fun id table => ∃ table' : TableSchema, tables'[id]? = some table' ∧
      table'.tabletCount = table.tabletCount) tables) :
    Topology tables' tablets groups buckets maxTabletId maxRaftGroupId :=
  { h with
    table := by
      intro id tablet hid
      obtain ⟨table, htable, hhash, hcount⟩ := h.table hid
      obtain ⟨table', htable', heq⟩ := htables htable
      exact ⟨table', htable', heq ▸ hhash, heq ▸ hcount⟩ }

/-- What the partition checks establish of a new tablet. -/
structure FitsTable (tablets : TabletMap) (buckets : BucketMap) (tablet : TabletDescriptor)
    (table : TableSchema) : Prop where
  hash {bucket bucketCount : Nat} : tablet.partition = .hash bucket bucketCount →
    bucketCount = table.tabletCount ∧ (tablet.tableId, bucket) ∉ buckets ∧
      tabletCountOf tablets tablet.tableId < table.tabletCount
  range {startKey endKey : Bytes} : tablet.partition = .range startKey endKey →
    Each (fun _ existing => existing.tableId = tablet.tableId →
      existing.partition.overlapsRange startKey endKey = false) tablets

theorem HasHash.of_insert {tableId : TableId}
    (h : HasHash (tablets.insert tablet.tabletId tablet) tableId) :
    HasHash tablets tableId ∨ tablet.tableId = tableId ∧ tablet.bucketKey ≠ none := by
  obtain ⟨found, hmem, htable, hhash⟩ := h
  obtain ⟨id, hid⟩ := mem_values.mp hmem
  rcases getElem?_insert_eq_some.mp hid with ⟨rfl, rfl⟩ | ⟨_, hid⟩
  · exact .inr ⟨htable, hhash⟩
  · exact .inl ⟨found, mem_values.mpr ⟨id, hid⟩, htable, hhash⟩

theorem tabletCountOf_insert (hid : tablets[tablet.tabletId]? = none) (tableId : TableId) :
    tabletCountOf (tablets.insert tablet.tabletId tablet) tableId =
      tabletCountOf tablets tableId + if tablet.tableId = tableId then 1 else 0 := by
  rw [tabletCountOf, countP_values_insert hid]
  simp [tabletCountOf]

theorem Topology.insert (h : Topology tables tablets groups buckets maxTabletId maxRaftGroupId)
    (hvalid : tablet.validate = .ok ()) (hid : tablets[tablet.tabletId]? = none)
    (hgroup : groups[tablet.raftGroupId]? = none) (htable : tables[tablet.tableId]? = some table)
    (hfits : FitsTable tablets buckets tablet table) (hroom : HasHash tablets tablet.tableId →
      tabletCountOf tablets tablet.tableId < table.tabletCount) {maxTabletId' maxRaftGroupId' : Nat}
    (hmaxTablet : max maxTabletId tablet.tabletId ≤ maxTabletId')
    (hmaxGroup : max maxRaftGroupId tablet.raftGroupId ≤ maxRaftGroupId')
    {buckets' : BucketMap} (hbuckets : Indexes TabletDescriptor.bucketKey buckets'
      (tablets.insert tablet.tabletId tablet)) :
    Topology tables (tablets.insert tablet.tabletId tablet)
      (groups.insert tablet.raftGroupId tablet.tabletId) buckets' maxTabletId' maxRaftGroupId' where
  keyed := h.keyed.insert rfl
  valid := h.valid.insert hvalid
  table := by
    -- The bound on the count, for the table of the new tablet and for any other one.
    have hcount : ∀ tableId table', tables[tableId]? = some table' →
        (HasHash tablets tableId → tabletCountOf tablets tableId ≤ table'.tabletCount) →
        HasHash (tablets.insert tablet.tabletId tablet) tableId →
        tabletCountOf (tablets.insert tablet.tabletId tablet) tableId ≤ table'.tabletCount := by
      intro tableId table' htable' hold hhash
      rw [tabletCountOf_insert hid]
      by_cases hsame : tablet.tableId = tableId
      · subst hsame
        rw [if_pos rfl]
        cases htable.symm.trans htable'
        rcases HasHash.of_insert hhash with hhash | ⟨_, hnew⟩
        · exact hroom hhash
        · cases hpartition : tablet.partition with
          | hash => exact (hfits.hash hpartition).2.2
          | range => simp [TabletDescriptor.bucketKey, hpartition] at hnew
      · rw [if_neg hsame, Nat.add_zero]
        rcases HasHash.of_insert hhash with hhash | ⟨heq, _⟩
        · exact hold hhash
        · exact absurd heq hsame
    refine Each.insert ?_ ?_
    · intro id found hid'
      obtain ⟨table', htable', hhash, hold⟩ := h.table hid'
      exact ⟨table', htable', hhash, hcount _ table' htable' hold⟩
    · exact ⟨table, htable, fun bucket bucketCount hpartition => (hfits.hash hpartition).1,
        hcount _ table htable fun hhash => Nat.le_of_lt (hroom hhash)⟩
  groups := h.groups.insert hid rfl hgroup
  buckets := hbuckets
  ranges := by
    refine Each.insert ?_ (Each.insert ?_ fun hne => absurd rfl hne)
    · intro id found hid'
      refine (h.ranges hid').insert ?_
      intro _ hsame startKey endKey hrange
      cases hpartition : tablet.partition with
      | hash => rfl
      | range =>
        have hnew := hfits.range hpartition hid' hsame.symm
        rw [hrange] at hnew
        simpa only [PartitionSpec.overlapsRange, rangesOverlap, or_comm] using hnew
    · intro id found hid' _ hsame startKey endKey hrange
      exact hfits.range hrange hid' hsame
  bound := by
    refine Each.insert ?_ ⟨by omega,
      Nat.le_trans (by omega) hmaxGroup⟩
    intro id found hid'
    obtain ⟨htablet, hgroup'⟩ := h.bound hid'
    exact ⟨by omega,
      Nat.le_trans hgroup' (by omega)⟩

theorem FitsTable.putBucket (hfits : FitsTable tablets buckets tablet table)
    (h : Indexes TabletDescriptor.bucketKey buckets tablets)
    (hid : tablets[tablet.tabletId]? = none) :
    Indexes TabletDescriptor.bucketKey
      (match tablet.partition with
        | .hash bucket _ => buckets.insert (tablet.tableId, bucket) tablet.tabletId
        | .range _ _ => buckets)
      (tablets.insert tablet.tabletId tablet) := by
  cases hpartition : tablet.partition with
  | hash =>
    refine h.insert hid (by simp [TabletDescriptor.bucketKey, hpartition]) ?_
    exact ExtTreeMap.getElem?_eq_none (hfits.hash hpartition).2.1
  | range =>
    exact h.insert_unlabelled hid (by simp [TabletDescriptor.bucketKey, hpartition])

/-! ## Placements -/

/-- Every placed replica is at most a mark. -/
abbrev PlacedBelow (mark : Nat) (desired : PlacementMap) : Prop :=
  Each (fun _ placement => ∀ replica ∈ placement.replicas, replica.replicaId ≤ mark) desired

/-- Placements are valid, belong to a tablet and use registered nodes. -/
structure Placements (nodes : NodeMap) (tablets : TabletMap)
    (desired : PlacementMap) (maxReplicaId : Nat) : Prop where
  keyed : Each (fun id placement => placement.tabletId = id) desired
  valid : Each (fun _ placement => placement.validate = .ok ()) desired
  tablet : Each (fun id _ => id ∈ tablets) desired
  node : Each (fun _ placement => ∀ replica ∈ placement.replicas, replica.nodeId ∈ nodes) desired
  bound : PlacedBelow maxReplicaId desired

theorem Placements.empty (nodes : NodeMap) (tablets : TabletMap) (maxReplicaId : Nat) :
    Placements nodes tablets ∅ maxReplicaId :=
  ⟨.empty, .empty, .empty, .empty, .empty⟩

theorem Placements.mono (h : Placements nodes tablets desired maxReplicaId)
    (hnodes : ∀ id ∈ nodes, id ∈ nodes') (htablets : ∀ id ∈ tablets, id ∈ tablets') :
    Placements nodes' tablets' desired maxReplicaId :=
  { h with
    tablet := h.tablet.imp fun id _ _ hid => htablets id hid
    node := h.node.imp fun _ _ _ hnode replica hmem => hnodes _ (hnode replica hmem) }

/-! ## Retired replicas -/

open MetadataState (desires)

/-- Every retired replica is at most a mark. -/
abbrev RetiredBelow (mark : Nat)
    (retired : RetiredMap) : Prop :=
  Each (fun _ retirement => retirement.replicaId ≤ mark) retired

/-- A retired replica belongs to a known Raft group whose tablet does not desire it. -/
structure Retirements (groups : GroupMap) (desired : PlacementMap) (retired : RetiredMap)
    (maxReplicaId : Nat) : Prop where
  keyed : Each (fun key retirement => (retirement.raftGroupId, retirement.replicaId) = key) retired
  valid : Each (fun _ retirement => retirement.validate = .ok ()) retired
  group : Each (fun _ retirement => ∃ tabletId, groups[retirement.raftGroupId]? = some tabletId ∧
    desires desired[tabletId]? retirement.replicaId = false) retired
  bound : RetiredBelow maxReplicaId retired

theorem Retirements.empty (groups : GroupMap) (desired : PlacementMap) (maxReplicaId : Nat) :
    Retirements groups desired ∅ maxReplicaId :=
  ⟨.empty, .empty, .empty, .empty⟩

theorem Retirements.addGroup (h : Retirements groups desired retired maxReplicaId)
    {group : RaftGroupId} (hgroup : groups[group]? = none) (tabletId : TabletId) :
    Retirements (groups.insert group tabletId) desired retired maxReplicaId :=
  { h with
    group := h.group.imp fun key retirement _ hold => by
      obtain ⟨tabletId', htablet, hdesired⟩ := hold
      refine ⟨tabletId', ?_, hdesired⟩
      rw [getElem?_insert, if_neg, htablet]
      rintro rfl
      cases hgroup.symm.trans htablet }

/-- A placement may be set that uses no retired replica of its Raft group. -/
theorem Retirements.place (h : Retirements groups desired retired maxReplicaId)
    (placement : DesiredReplicaPlacement) (group : RaftGroupId)
    (hgroup : ∀ group', groups[group']? = some placement.tabletId → group' = group)
    (hfree : ∀ replica ∈ placement.replicas, (group, replica.replicaId) ∉ retired)
    {maxReplicaId' : Nat}
    (hbound : RetiredBelow maxReplicaId' retired) :
    Retirements groups (desired.insert placement.tabletId placement) retired maxReplicaId' where
  keyed := h.keyed
  valid := h.valid
  group := by
    intro key retirement hkey
    obtain ⟨tabletId, htablet, hdesired⟩ := h.group hkey
    refine ⟨tabletId, htablet, ?_⟩
    rw [getElem?_insert]
    split
    · next heq =>
        subst heq
        cases hgroup _ htablet
        have hretired : (retirement.raftGroupId, retirement.replicaId) ∈ retired := by
          rw [h.keyed hkey]
          exact mem_of_getElem? hkey
        simp only [desires, Option.any_some, List.any_eq_false, decide_eq_true_eq]
        intro replica hmem hid
        rw [← hid] at hretired
        exact hfree replica hmem hretired
    · exact hdesired
  bound := hbound

/-! ## GC protections, client sessions and retained outcomes -/

/-- Protections are valid for the safe point. -/
structure Protections (gcSafePoint : Timestamp)
    (protections : ExtTreeMap (Nat × Nat) MetadataGcProtection comparePair) : Prop where
  keyed : Each (fun key protection => (protection.ownerId, protection.protectionId) = key)
    protections
  valid : Each (fun _ protection => protection.validate gcSafePoint = .ok ()) protections

structure Sessions (sessions : ExtTreeMap ClientId MetadataClientSession compare) : Prop where
  keyed : Each (fun id session => session.clientId = id) sessions
  valid : Each (fun _ session => session.validate = .ok ()) sessions

/-- The table and the tablet of a CREATE TABLE result. -/
def Created (tables : TableMap) (tablets : TabletMap) (created : MetadataTableCreated) : Prop :=
  created.tableId ∈ tables ∧ ∃ tablet : TabletDescriptor,
    tablets[created.tabletId]? = some tablet ∧ tablet.tableId = created.tableId ∧
      tablet.raftGroupId = created.raftGroupId

theorem Created.mono {created : MetadataTableCreated} (h : Created tables tablets created)
    (htables : ∀ id ∈ tables, id ∈ tables') (htablets : Sub tablets tablets') :
    Created tables' tablets' created := by
  obtain ⟨htable, tablet, htablet, hrest⟩ := h
  exact ⟨htables _ htable, tablet, htablets _ _ htablet, hrest⟩

/-- An outcome that may be retained. -/
structure Retainable (tables : TableMap) (tablets : TabletMap) (outcome : MetadataCachedOutcome) :
    Prop where
  valid : outcome.validate = .ok ()
  created {created : MetadataTableCreated} : outcome = .tableCreated created →
    Created tables tablets created

/-- Retained outcomes are valid and stand under valid identities. -/
structure Requests (tables : TableMap) (tablets : TabletMap)
    (requests : ExtTreeMap LogicalCommandId MetadataCachedOutcome compare) : Prop where
  identity : Each (fun id _ => id.clientRequestId.clientId ≠ 0 ∧
    id.clientRequestId.requestSequence ≠ 0) requests
  outcome : Each (fun _ outcome => Retainable tables tablets outcome) requests

theorem Requests.mono {requests : ExtTreeMap LogicalCommandId MetadataCachedOutcome compare}
    (h : Requests tables tablets requests) (htables : ∀ id ∈ tables, id ∈ tables')
    (htablets : Sub tablets tablets') : Requests tables' tablets' requests where
  identity := h.identity
  outcome := h.outcome.imp fun _ _ _ hold =>
    ⟨hold.valid, fun heq => (hold.created heq).mono htables htablets⟩

end Maps

theorem MetadataAllocatorState.validate_eq_ok {allocator : MetadataAllocatorState} :
    allocator.validate = .ok () ↔ initialMetadataTableHighWater ≤ allocator.maxTableId ∧
      initialMetadataTabletHighWater ≤ allocator.maxTabletId ∧
      initialMetadataRaftGroupHighWater ≤ allocator.maxRaftGroupId := by
  simp [MetadataAllocatorState.validate]

/-! ## The invariant -/

namespace MetadataState

/-- What holds of every state that a log reaches whose steps keep snapshots restorable. -/
structure Inv (s : MetadataState) : Prop where
  cluster : ∀ clusterId, s.clusterId = some clusterId → validateClusterId clusterId = .ok ()
  uninitialized : s.clusterId = none → s = new
  floors : s.allocator.validate = .ok ()
  directory : Directory s.nodes
  schemas : Schemas s.tables s.tableIdsByName s.allocator.maxTableId
  topology : Topology s.tables s.tablets s.tabletIdsByRaftGroup s.tabletIdsByPartition
    s.allocator.maxTabletId s.allocator.maxRaftGroupId
  placements : Placements s.nodes s.tablets s.desiredPlacements s.allocator.maxReplicaId
  retirements : Retirements s.tabletIdsByRaftGroup s.desiredPlacements s.retiredReplicas
    s.allocator.maxReplicaId
  protections : Protections s.gcSafePoint s.gcProtections
  sessions : Sessions s.clientSessions
  requests : Requests s.tables s.tablets s.requestDeduplication

theorem inv_new : new.Inv where
  cluster clusterId h := by cases h
  uninitialized _ := rfl
  floors := rfl
  directory := .empty
  schemas := .empty _
  topology := .empty _ _ _
  placements := .empty _ _ _
  retirements := .empty _ _ _
  protections := ⟨.empty, .empty⟩
  sessions := ⟨.empty, .empty⟩
  requests := ⟨.empty, .empty⟩

end MetadataState

end RagnorDb
