import RagnorDb.Catalog.MetadataLifetimes

/-!
# The routing topology

What a router relies on: tables by name, tablets by Raft group, placements on registered nodes,
and tablets that share out the keys of a table.  The handler of CREATE TABLET compares hash
tablets with hash tablets and ranges with ranges only, so a log may mix the two kinds in one
table; everything else holds for every log.
-/

namespace RagnorDb

open Std Checked OrderedMap

variable {key : Bytes}

/-- Whether a tablet owns a hash bucket. -/
def PartitionSpec.isHash : PartitionSpec → Bool
  | .hash _ _ => true
  | .range _ _ => false

/-- The keys of an ordered half-open range; an empty start or end is an unbounded side. -/
def PartitionSpec.CoversKey (key : Bytes) : PartitionSpec → Prop
  | .range startKey endKey => startKey ≤ key ∧ (endKey = [] ∨ key < endKey)
  | .hash _ _ => False

theorem not_mem_both_of_le {leftEnd rightStart : Bytes} (hne : leftEnd ≠ [])
    (hle : leftEnd ≤ rightStart) (hleft : leftEnd = [] ∨ key < leftEnd) : ¬ rightStart ≤ key := by
  intro hright
  rcases hleft with hempty | hlt
  · exact hne hempty
  · exact List.le_trans hle hright hlt

theorem not_coversKey_of_not_overlapsRange {startKey endKey : Bytes} {partition : PartitionSpec}
    (h : partition.overlapsRange startKey endKey = false)
    (hkey : (PartitionSpec.range startKey endKey).CoversKey key) : ¬ partition.CoversKey key := by
  intro hother
  cases partition with
  | hash => exact hother
  | range =>
    simp only [PartitionSpec.overlapsRange, rangesOverlap, decide_not, Bool.not_eq_false',
      decide_eq_true_eq] at h
    rcases h with ⟨hne, -, hle⟩ | ⟨hne, -, hle⟩
    · exact not_mem_both_of_le hne hle hkey.2 hother.1
    · exact not_mem_both_of_le hne hle hother.2 hkey.1

namespace MetadataState

variable {s t : MetadataState} {command : MetadataCommand} {accepted : Accepted} {entry : LogEntry}
variable {tablet : TabletDescriptor}

/-- A new tablet is partitioned as the tablets that its table already has. -/
def KeepsKind (s : MetadataState) (entry : LogEntry) : Prop :=
  match entry.2 with
  | .createTablet tablet => ∀ sibling ∈ values s.tablets, sibling.tableId = tablet.tableId →
      sibling.partition.isHash = tablet.partition.isHash
  | _ => True

instance (s : MetadataState) (entry : LogEntry) : Decidable (s.KeepsKind entry) := by
  unfold KeepsKind
  induction entry.2 using MetadataCommand.casesOn <;> infer_instance

/-- What a router relies on. -/
structure Routable (s : MetadataState) : Prop where
  names : ∀ (name : String) (id : TableId), s.tableIdsByName[name]? = some id ↔
    ∃ table, s.tables[id]? = some table ∧ table.name = name
  groups : ∀ (group : RaftGroupId) (id : TabletId), s.tabletIdsByRaftGroup[group]? = some id ↔
    ∃ tablet, s.tablets[id]? = some tablet ∧ tablet.raftGroupId = group
  table : ∀ (id : TabletId) (tablet : TabletDescriptor), s.tablets[id]? = some tablet →
    tablet.tableId ∈ s.tables
  placement : ∀ (id : TabletId) (placement : DesiredReplicaPlacement),
    s.desiredPlacements[id]? = some placement →
    id ∈ s.tablets ∧ ∀ replica ∈ placement.replicas, replica.nodeId ∈ s.nodes
  kind : ∀ (id id' : TabletId) (tablet tablet' : TabletDescriptor), s.tablets[id]? = some tablet →
    s.tablets[id']? = some tablet' → tablet.tableId = tablet'.tableId →
    tablet.partition.isHash = tablet'.partition.isHash
  bucketCount : ∀ (id : TabletId) (tablet : TabletDescriptor) (bucket bucketCount : Nat),
    s.tablets[id]? = some tablet → tablet.partition = .hash bucket bucketCount →
    bucket < bucketCount ∧
      ∃ table, s.tables[tablet.tableId]? = some table ∧ bucketCount = table.tabletCount
  buckets : ∀ (id id' : TabletId) (tablet tablet' : TabletDescriptor)
    (bucket bucketCount bucketCount' : Nat), s.tablets[id]? = some tablet →
    s.tablets[id']? = some tablet' → tablet.tableId = tablet'.tableId →
    tablet.partition = .hash bucket bucketCount → tablet'.partition = .hash bucket bucketCount' →
    id = id'
  ranges : ∀ (id id' : TabletId) (tablet tablet' : TabletDescriptor) (key : Bytes),
    s.tablets[id]? = some tablet → s.tablets[id']? = some tablet' → id ≠ id' →
    tablet.tableId = tablet'.tableId → tablet.partition.CoversKey key →
    ¬ tablet'.partition.CoversKey key

theorem bucket_lt_of_validate (h : tablet.validate = .ok ()) {bucket bucketCount : Nat}
    (hpartition : tablet.partition = .hash bucket bucketCount) : bucket < bucketCount := by
  simp only [TabletDescriptor.validate, PartitionSpec.validate, hpartition, eq_ok', Nat.not_le] at h
  obtain ⟨-, -, -, -, -, -, hlt⟩ := h
  exact hlt

/-- The tablets of a table are of one kind. -/
def Unmixed (tablets : TabletMap) : Prop :=
  Each (fun _ tablet => Each (fun _ tablet' => tablet.tableId = tablet'.tableId →
    tablet.partition.isHash = tablet'.partition.isHash) tablets) tablets

theorem Unmixed.insert {tablets : TabletMap} (h : Unmixed tablets) (tablet : TabletDescriptor)
    (hkind : Each (fun _ sibling => sibling.tableId = tablet.tableId →
      sibling.partition.isHash = tablet.partition.isHash) tablets) :
    Unmixed (tablets.insert tablet.tabletId tablet) := by
  refine Each.insert ?_ (Each.insert ?_ fun _ => rfl)
  · intro id found hid
    exact (h hid).insert (hkind hid)
  · intro id found hid heq
    exact (hkind hid heq.symm).symm

/-- The invariant behind `Routable`. -/
structure Topological (s : MetadataState) : Prop where
  directory : Directory s.nodes
  schemas : Schemas s.tables s.tableIdsByName s.allocator.maxTableId
  routed : s.Routed
  unmixed : Unmixed s.tablets
  placements : ∃ bound, Placements s.nodes s.tablets s.desiredPlacements bound

theorem topological_new : new.Topological :=
  ⟨.empty, .empty _, .empty _ _ _, .empty, 0, .empty _ _ _⟩

theorem fitsCount_of_kind (hkind : ∀ sibling ∈ values s.tablets, sibling.tableId = tablet.tableId →
      sibling.partition.isHash = tablet.partition.isHash) : s.FitsCount tablet := by
  intro hrange hhash
  obtain ⟨sibling, hmem, htable, hbucket⟩ := hhash
  have hsame := hkind sibling hmem htable
  cases hpartition : tablet.partition with
  | hash => simp [TabletDescriptor.bucketKey, hpartition] at hrange
  | range =>
    cases hsibling : sibling.partition with
    | hash => simp [hsibling, hpartition, PartitionSpec.isHash] at hsame
    | range => simp [TabletDescriptor.bucketKey, hsibling] at hbucket

theorem Change.topological (h : s.Change command accepted) (hvalid : command.validate = .ok ())
    (hkind : ∀ tablet, command = .createTablet tablet → ∀ sibling ∈ values s.tablets,
      sibling.tableId = tablet.tableId → sibling.partition.isHash = tablet.partition.isHash)
    (hold : s.Topological) : accepted.2.Topological := by
  refine ⟨h.directory hvalid hold.directory, h.schemas hold.schemas,
    h.routed hvalid (fun tablet heq => fitsCount_of_kind (hkind tablet heq)) hold.routed, ?_, ?_⟩
  · cases h with
    | createTablet =>
      refine hold.unmixed.insert _ ?_
      intro id sibling hid
      exact hkind _ rfl sibling (mem_values.mpr ⟨id, hid⟩)
    | @createTopology _ schema tabletId raftGroupId _ _ _ _ _ _ _ _ _ _ htable =>
      -- the new table has no other tablet
      refine hold.unmixed.insert (topologyTablet schema tabletId raftGroupId) ?_
      intro id sibling hid heq
      exact absurd heq (tableId_ne hold.routed htable hid)
    | _ => exact hold.unmixed
  · obtain ⟨bound, hplacements⟩ := hold.placements
    obtain ⟨bound', hbound'⟩ := exists_bound
      (fun placement : DesiredReplicaPlacement =>
        (placement.replicas.map (·.replicaId)).max?.getD 0) accepted.2.desiredPlacements
    refine ⟨bound', h.placements hvalid hold.directory hplacements ?_⟩
    exact hbound'.imp fun _ placement _ hle replica hmem =>
      Nat.le_trans (List.le_max?_getD_of_mem (List.mem_map_of_mem hmem)) hle

theorem topological_of_reachable (h : (metadataLog.restrict KeepsKind).Reachable s) :
    s.Topological := by
  refine h.invariant ?_ ?_
  · intro s hs
    cases hs
    exact topological_new
  · intro s entry t _ hold hstep
    obtain ⟨hkeeps, hstep⟩ := hstep
    obtain ⟨moved, requests, hmoves, rfl⟩ := moves_of_step hstep
    have hmoved : moved.Topological := by
      cases hmoves with
      | stays => exact hold
      | initializes => exact { hold with }
      | changes _ hvalid hchange =>
        refine hchange.topological hvalid ?_ hold
        intro tablet heq
        simpa only [KeepsKind, heq] using hkeeps
    exact { hmoved with }

/-- In every state that a log without mixed tables reaches, the topology is routable. -/
theorem topology_stays_routable (h : (metadataLog.restrict KeepsKind).Reachable s) :
    s.Routable := by
  have hinv := topological_of_reachable h
  obtain ⟨bound, hplacements⟩ := hinv.placements
  constructor
  · intro name id
    simpa only [Option.some.injEq] using hinv.schemas.names name id
  · intro group id
    simpa only [Option.some.injEq] using hinv.routed.groups group id
  · intro id tablet hid
    obtain ⟨table, htable, -⟩ := hinv.routed.table hid
    exact mem_of_getElem? htable
  · intro id placement hid
    exact ⟨hplacements.tablet hid, hplacements.node hid⟩
  · intro id id' tablet tablet' hid hid' htable
    exact hinv.unmixed hid hid' htable
  · intro id tablet bucket bucketCount hid hpartition
    obtain ⟨table, htable, hcount, -⟩ := hinv.routed.table hid
    exact ⟨bucket_lt_of_validate (hinv.routed.valid hid) hpartition, table, htable,
      hcount bucket bucketCount hpartition⟩
  · intro id id' tablet tablet' bucket bucketCount bucketCount' hid hid' htable hpartition
      hpartition'
    refine hinv.routed.buckets.eq_of_label hid hid' (i := (tablet.tableId, bucket)) ?_ ?_
    · simp only [TabletDescriptor.bucketKey, hpartition]
    · simp only [TabletDescriptor.bucketKey, hpartition', htable]
  · intro id id' tablet tablet' key hid hid' hne htable hkey
    cases hpartition : tablet.partition with
    | hash =>
      rw [hpartition] at hkey
      exact hkey.elim
    | range startKey endKey =>
      rw [hpartition] at hkey
      exact not_coversKey_of_not_overlapsRange
        (hinv.routed.ranges hid hid' hne htable.symm startKey endKey hpartition) hkey

/-- A table of two hash tablets. -/
def hashLog : List LogEntry :=
  [(none, .clusterInitialized "c"),
    (none, .createTable ⟨5, "t", [⟨1, "id", .int, false⟩], [1], 1, 2⟩),
    (none, .createTablet ⟨9, 5, 9, 1, .hash 0 2⟩)]

theorem topology_stays_routable_sample :
    ∃ s, (metadataLog.restrict KeepsKind).Reachable s ∧ s.tablets.keys = [9, 10] ∧ s.Routable := by
  have hreachable : (metadataLog.restrict KeepsKind).Reachable
      (new.afterLog (hashLog ++ [(none, .createTablet ⟨10, 5, 10, 1, .hash 1 2⟩)])) :=
    ⟨_, _, rfl, steps_of_logMeets (by decide +kernel)⟩
  exact ⟨_, hreachable, by decide +kernel, topology_stays_routable hreachable⟩

/-- A range is added to a table that has a hash tablet. -/
theorem topology_mixes_partitions :
    ∃ s, metadataLog.Reachable s ∧
      s.tablets[9]? = some ⟨9, 5, 9, 1, .hash 0 2⟩ ∧
      s.tablets[10]? = some ⟨10, 5, 10, 1, .range [] []⟩ :=
  ⟨_, ⟨_, hashLog ++ [(none, .createTablet ⟨10, 5, 10, 1, .range [] []⟩)], rfl, steps_afterLog _ _⟩,
    by decide +kernel, by decide +kernel⟩

end MetadataState

end RagnorDb
