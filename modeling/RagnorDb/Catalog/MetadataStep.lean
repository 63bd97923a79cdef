import RagnorDb.Catalog.MetadataEffect
import RagnorDb.Catalog.MetadataInvariant

/-!
# One metadata command

Every accepted command keeps each part of the invariant, some of them under conditions on the
state before it that the handlers do not check themselves; every rejection has a text that may
be retained.
-/

namespace RagnorDb

open Std Checked OrderedMap MetadataRejection

namespace MetadataState

variable {s : MetadataState} {command : MetadataCommand} {accepted : Accepted}
  {outcome : MetadataApplyOutcome}
variable {id maxReplicaId maxReplicaId' : Nat} {tablet : TabletDescriptor} {table : TableSchema}
  {tables : TableMap} {tablets : TabletMap} {selected : List NodeId}
  {policy : PlacementPolicy} {protection : MetadataGcProtection} {gcSafePoint : Timestamp}

/-! ## The parts of the state that a change touches -/

section

variable (h : s.Change command accepted)
include h

theorem Change.clusterId : accepted.2.clusterId = s.clusterId := by
  cases h <;> rfl

theorem Change.requestDeduplication : accepted.2.requestDeduplication = s.requestDeduplication := by
  cases h <;> rfl

theorem Change.mem_tables : ∀ id ∈ s.tables, id ∈ accepted.2.tables := by
  cases h with
  | createTable | updateSchema | createTopology => exact mem_insert_of_mem _ _
  | _ => exact fun _ hid => hid

theorem Change.sub_tablets : Sub s.tablets accepted.2.tablets := by
  cases h with
  | createTablet hnew | createTopology _ _ _ _ _ _ _ _ _ _ hnew => exact .insert_new hnew _
  | _ => exact fun _ _ hid => hid

theorem Change.sub_groups : Sub s.tabletIdsByRaftGroup accepted.2.tabletIdsByRaftGroup := by
  cases h with
  | createTablet _ hnew | createTopology _ _ _ _ _ _ _ _ _ _ _ hnew => exact .insert_new hnew _
  | _ => exact fun _ _ hid => hid

end

theorem le_of_eq_succ {mark : Nat} (h : id = mark + 1) : mark ≤ id := by
  omega

theorem Change.marks (h : s.Change command accepted) :
    s.allocator.maxTableId ≤ accepted.2.allocator.maxTableId ∧
      s.allocator.maxTabletId ≤ accepted.2.allocator.maxTabletId ∧
      s.allocator.maxRaftGroupId ≤ accepted.2.allocator.maxRaftGroupId := by
  cases h with
  | createTable => exact ⟨Nat.le_max_left _ _, Nat.le_refl _, Nat.le_refl _⟩
  | createTablet => exact ⟨Nat.le_refl _, Nat.le_max_left _ _, Nat.le_max_left _ _⟩
  | createTopology _ _ htable htablet hgroup =>
    exact ⟨le_of_eq_succ htable, le_of_eq_succ htablet, le_of_eq_succ hgroup⟩
  | _ => exact ⟨Nat.le_refl _, Nat.le_refl _, Nat.le_refl _⟩

/-! ## Nodes, tables and tablets -/

theorem endpointConflict_eq_none {node : NodeDescriptor} : s.endpointConflict node = none ↔
    Each (fun _ existing => ∀ endpoint ∈ node.endpoints, endpoint ∉ existing.endpoints)
      s.nodes := by
  simp only [endpointConflict, List.findSome?_eq_none_iff, Option.map_eq_none_iff,
    List.find?_eq_none, decide_eq_true_eq, mem_values, forall_exists_index]
  exact ⟨fun h id existing hid => h existing id hid, fun h existing id hid => h hid⟩

theorem Change.directory (h : s.Change command accepted) (hvalid : command.validate = .ok ())
    (hold : Directory s.nodes) : Directory accepted.2.nodes := by
  cases h with
  | @registerNode node hnew hconflict =>
    have hfree := endpointConflict_eq_none.mp hconflict
    refine hold.insert node hvalid ?_
    exact hfree.imp fun _ _ _ hdisjoint _ => hdisjoint
  | setLifecycle hexisting => exact hold.setLifecycle hexisting _
  | _ => exact hold

theorem Change.schemas (h : s.Change command accepted)
    (hold : Schemas s.tables s.tableIdsByName s.allocator.maxTableId) :
    Schemas accepted.2.tables accepted.2.tableIdsByName accepted.2.allocator.maxTableId := by
  cases h with
  | createTable hschema htable hname =>
    exact hold.insert (TableSchema.fromDefinition_eq_ok.mp hschema).2 htable hname (Nat.le_refl _)
  | updateSchema hupdated hexisting hname =>
    exact hold.replace (TableSchema.fromDefinition_eq_ok.mp hupdated).2 hexisting hname
  | createTopology _ _ hid _ _ hschema _ _ htable hname =>
    exact hold.insert hschema htable hname (Nat.max_le.mpr ⟨le_of_eq_succ hid, Nat.le_refl _⟩)
  | _ => exact hold

theorem checkPartition_eq_ok :
    s.checkPartition tablet table = .ok () ↔
      FitsTable s.tablets s.tabletIdsByPartition tablet table := by
  unfold checkPartition
  cases hpartition : tablet.partition with
  | hash =>
    simp only [eq_ok', Nat.not_le, ← List.countP_eq_length_filter]
    constructor
    · rintro ⟨hcount, hbucket, hroom⟩
      constructor
      · intro bucket' bucketCount' heq
        cases hpartition.symm.trans heq
        exact ⟨hcount, hbucket, hroom⟩
      · intro startKey endKey heq
        cases hpartition.symm.trans heq
    · intro hfits
      exact hfits.hash hpartition
  | range =>
    simp only [eq_ok, Bool.not_eq_true, List.any_eq_false, List.mem_filter, decide_eq_true_eq,
      and_imp]
    constructor
    · intro hfree
      constructor
      · intro bucket bucketCount heq
        cases hpartition.symm.trans heq
      · intro startKey' endKey' heq id existing hid htable
        cases hpartition.symm.trans heq
        exact hfree existing (mem_values.mpr ⟨id, hid⟩) htable
    · intro hfits existing hmem htable
      obtain ⟨id, hid⟩ := mem_values.mp hmem
      exact hfits.range hpartition hid htable

theorem tableId_ne {groups : GroupMap} {buckets : BucketMap} {maxTabletId maxRaftGroupId : Nat}
    (h : Topology tables tablets groups buckets maxTabletId maxRaftGroupId) {tableId : TableId}
    (htable : tables[tableId]? = none) :
    Each (fun _ tablet => tablet.tableId ≠ tableId) tablets := by
  intro id tablet hid heq
  obtain ⟨table, hfound, -⟩ := h.table hid
  rw [heq, htable] at hfound
  cases hfound

/-- The tablets of a state, against the tables and indexes of the same state. -/
abbrev Routed (s : MetadataState) : Prop :=
  Topology s.tables s.tablets s.tabletIdsByRaftGroup s.tabletIdsByPartition
    s.allocator.maxTabletId s.allocator.maxRaftGroupId

/-- A range tablet in a table with hash tablets leaves the count of the table. -/
def FitsCount (s : MetadataState) (tablet : TabletDescriptor) : Prop :=
  tablet.bucketKey = none → HasHash s.tablets tablet.tableId →
    ∀ table ∈ s.tables[tablet.tableId]?,
      tabletCountOf s.tablets tablet.tableId < table.tabletCount

instance (s : MetadataState) (tablet : TabletDescriptor) : Decidable (s.FitsCount tablet) := by
  unfold FitsCount
  infer_instance

theorem Routed.putTablet (hold : s.Routed)
    (hvalid : tablet.validate = .ok ()) (hnew : s.tablets[tablet.tabletId]? = none)
    (hgroup : s.tabletIdsByRaftGroup[tablet.raftGroupId]? = none)
    (htable : s.tables[tablet.tableId]? = some table)
    (hcheck : s.checkPartition tablet table = .ok ()) (hroom : s.FitsCount tablet) :
    (s.putTablet tablet).Routed := by
  have hfits := checkPartition_eq_ok.mp hcheck
  refine hold.insert hvalid hnew hgroup htable hfits ?_ (Nat.le_refl _) (Nat.le_refl _)
    (hfits.putBucket hold.buckets hnew)
  intro hhash
  -- A hash tablet checks for room itself.
  cases hpartition : tablet.partition with
  | hash => exact (hfits.hash hpartition).2.2
  | range =>
    exact hroom (by simp [TabletDescriptor.bucketKey, hpartition]) hhash table htable

theorem Routed.putTopology (hold : s.Routed) {schema : TableSchema} {tabletId : TabletId}
    {raftGroupId : RaftGroupId} (htabletId : tabletId = s.allocator.maxTabletId + 1)
    (hgroupId : raftGroupId = s.allocator.maxRaftGroupId + 1)
    (hvalid : (topologyTablet schema tabletId raftGroupId).validate = .ok ())
    (htable : s.tables[schema.id]? = none) (hnew : s.tablets[tabletId]? = none)
    (hgroup : s.tabletIdsByRaftGroup[raftGroupId]? = none) (selected : List NodeId)
    (policy : PlacementPolicy) :
    (s.putTopology schema tabletId raftGroupId selected policy).Routed := by
  have hother := tableId_ne hold htable
  have htables := hold.tables_mono fun id table hid =>
    ⟨table, Sub.insert_new htable schema id table hid, rfl⟩
  refine htables.insert hvalid hnew hgroup ExtTreeMap.getElem?_insert_self
    ⟨nofun, fun _ id existing hid heq => absurd heq (hother hid)⟩ ?_
    (Nat.max_le.mpr ⟨le_of_eq_succ htabletId, Nat.le_refl _⟩)
    (Nat.max_le.mpr ⟨le_of_eq_succ hgroupId, Nat.le_refl _⟩)
    (hold.buckets.insert_unlabelled hnew rfl)
  rintro ⟨tablet, hmem, heq, _⟩
  obtain ⟨id, hid⟩ := mem_values.mp hmem
  exact absurd heq (hother hid)

theorem Change.groups (h : s.Change command accepted)
    (hold : Indexes (fun tablet : TabletDescriptor => some tablet.raftGroupId)
      s.tabletIdsByRaftGroup s.tablets) :
    Indexes (fun tablet : TabletDescriptor => some tablet.raftGroupId)
      accepted.2.tabletIdsByRaftGroup accepted.2.tablets := by
  cases h with
  | createTablet hnew hgroup | createTopology _ _ _ _ _ _ _ _ _ _ hnew hgroup =>
    exact hold.insert hnew rfl hgroup
  | _ => exact hold

theorem Change.routed (h : s.Change command accepted) (hvalid : command.validate = .ok ())
    (hroom : ∀ tablet, command = .createTablet tablet → s.FitsCount tablet) (hold : s.Routed) :
    accepted.2.Routed := by
  cases h with
  | createTable _ htable _ =>
    exact hold.tables_mono fun id table hid => ⟨table, Sub.insert_new htable _ id table hid, rfl⟩
  | @updateSchema _ _ existing updated _ hexisting _ hcount =>
    refine hold.tables_mono ?_
    intro id table hid
    by_cases hsame : updated.id = id
    · subst hsame
      cases hexisting.symm.trans hid
      exact ⟨updated, ExtTreeMap.getElem?_insert_self, hcount⟩
    · exact ⟨table, getElem?_insert_eq_some.mpr (.inr ⟨hsame, hid⟩), rfl⟩
  | createTablet hnew hgroup htable hcheck =>
    exact hold.putTablet hvalid hnew hgroup htable hcheck (hroom _ rfl)
  | createTopology _ _ _ htabletId hgroupId _ htablet _ htable _ hnew hgroup =>
    exact hold.putTopology htabletId hgroupId htablet htable hnew hgroup _ _
  | _ => exact hold

/-! ## Placements and retired replicas -/

theorem mem_nodes_of_selected (h : Directory s.nodes)
    (hselect : selectInitialPlacement s.nodes = some (selected, policy))
    {id : NodeId} (hid : id ∈ selected) : id ∈ s.nodes := by
  obtain ⟨node, hnode, rfl⟩ := (selectInitialPlacement_eq_some hselect).2 id hid
  obtain ⟨key, hkey⟩ := mem_values.mp (List.mem_filter.mp hnode).1
  rw [h.keyed hkey]
  exact mem_of_getElem? hkey

section

variable (h : s.Change command accepted) (hvalid : command.validate = .ok ())
include h hvalid

/-- The placements after a change, with any bound that they have. -/
theorem Change.placements (hdirectory : Directory s.nodes)
    (hold : Placements s.nodes s.tablets s.desiredPlacements maxReplicaId)
    (hbound : PlacedBelow maxReplicaId' accepted.2.desiredPlacements) :
    Placements accepted.2.nodes accepted.2.tablets accepted.2.desiredPlacements
      maxReplicaId' := by
  cases h with
  | registerNode | setLifecycle =>
    exact { hold.mono (mem_insert_of_mem _ _) (fun _ hid => hid) with bound := hbound }
  | createTablet =>
    exact { hold.mono (fun _ hid => hid) (mem_insert_of_mem _ _) with bound := hbound }
  | @place placement tablet htablet hreplicas _ =>
    exact
      { keyed := hold.keyed.insert rfl
        valid := hold.valid.insert hvalid
        tablet := hold.tablet.insert (mem_of_getElem? htablet)
        node := hold.node.insert fun replica hmem => (hreplicas replica hmem).1
        bound := hbound }
  | createTopology hselect _ _ _ _ _ _ hplacement =>
    exact
      { keyed := hold.keyed.insert rfl
        valid := hold.valid.insert hplacement
        tablet := Each.insert (hold.tablet.imp fun id _ _ hid => mem_insert_of_mem _ _ id hid)
          ExtTreeMap.mem_insert_self
        node := hold.node.insert fun replica hmem =>
          mem_nodes_of_selected hdirectory hselect (mem_of_mem_initialReplicas hmem)
        bound := hbound }
  | _ => exact { hold with bound := hbound }

/-- The retirements after a change, with any bound that they have. -/
theorem Change.retirements
    (hgroups : Indexes (fun tablet : TabletDescriptor => some tablet.raftGroupId)
      s.tabletIdsByRaftGroup s.tablets)
    (hold : Retirements s.tabletIdsByRaftGroup s.desiredPlacements s.retiredReplicas maxReplicaId)
    (hbound : RetiredBelow maxReplicaId' accepted.2.retiredReplicas) :
    Retirements accepted.2.tabletIdsByRaftGroup accepted.2.desiredPlacements
      accepted.2.retiredReplicas maxReplicaId' := by
  cases h with
  | createTablet _ hgroup => exact { hold.addGroup hgroup _ with bound := hbound }
  | @place placement tablet htablet hreplicas _ =>
    refine hold.place placement tablet.raftGroupId ?_
      (fun replica hmem => (hreplicas replica hmem).2) hbound
    intro group hgroup
    obtain ⟨found, hfound, hlabel⟩ := (hgroups group _).mp hgroup
    cases htablet.symm.trans hfound
    exact (Option.some.inj hlabel).symm
  | @createTopology _ schema tabletId raftGroupId selected policy _ _ _ _ _ _ _ _ _ _ hnew hgroup =>
    refine (hold.addGroup hgroup tabletId).place (topologyPlacement tabletId selected policy)
      raftGroupId ?_ ?_ hbound
    · intro group hfound
      rcases getElem?_insert_eq_some.mp hfound with ⟨heq, -⟩ | ⟨-, hother⟩
      · exact heq.symm
      · obtain ⟨tablet, hid, -⟩ := (hgroups group _).mp hother
        cases hnew.symm.trans hid
    · -- No replica of an unknown Raft group is retired.
      intro replica _ hmem
      obtain ⟨retirement, hretired⟩ := exists_of_mem hmem
      obtain ⟨tabletId', hfound, -⟩ := hold.group hretired
      have hkey := (Prod.mk.inj (hold.keyed hretired)).1
      rw [hkey] at hfound
      cases hgroup.symm.trans hfound
  | retire hgroup hdesired =>
    exact
      { keyed := hold.keyed.insert rfl
        valid := hold.valid.insert hvalid
        group := hold.group.insert ⟨_, hgroup, hdesired⟩
        bound := hbound }
  | _ => exact { hold with bound := hbound }

end

/-! ## Protections, sessions and retained outcomes -/

theorem validate_of_validateRequest {nowMs : Nat} (h : protection.validateRequest nowMs = .ok ())
    (hle : gcSafePoint ≤ protection.protectedTimestamp) :
    protection.validate gcSafePoint = .ok () := by
  simp only [MetadataGcProtection.validateRequest, validateGcProtectionIdentity,
    validateLiveGcLease, eq_ok'] at h
  simp only [MetadataGcProtection.validate, validateGcProtectionIdentity, eq_ok', Nat.not_lt]
  exact ⟨h.1, h.2.1, h.2.2.1, hle⟩

theorem validate_renewed (h : protection.validate gcSafePoint = .ok ()) {leaseDeadlineMs : Nat}
    (hle : protection.leaseDeadlineMs ≤ leaseDeadlineMs) :
    MetadataGcProtection.validate { protection with leaseDeadlineMs } gcSafePoint = .ok () := by
  simp only [MetadataGcProtection.validate, validateGcProtectionIdentity, eq_ok'] at h ⊢
  refine ⟨h.1, h.2.1, ?_, h.2.2.2⟩
  intro hzero
  rw [hzero] at hle
  exact h.2.2.1 (Nat.le_zero.mp hle)

theorem allowedSafePoint_le (s : MetadataState) (candidate : Timestamp) (nowMs : Nat) :
    Each (fun _ protection => s.allowedSafePoint candidate nowMs ≤ protection.protectedTimestamp)
      (s.retainedProtections nowMs) := by
  intro key protection hkey
  have hmem : protection.protectedTimestamp ∈
      (values (s.retainedProtections nowMs)).map (·.protectedTimestamp) :=
    List.mem_map_of_mem (mem_values.mpr ⟨key, hkey⟩)
  unfold allowedSafePoint
  cases hfloor : ((values (s.retainedProtections nowMs)).map (·.protectedTimestamp)).min? with
  | none =>
    rw [List.min?_eq_none_iff] at hfloor
    rw [hfloor] at hmem
    cases hmem
  | some =>
    rw [List.min?_eq_some_iff] at hfloor
    exact Nat.le_trans (Nat.min_le_right _ _) (hfloor.2 _ hmem)

theorem Change.protections (h : s.Change command accepted) (hvalid : command.validate = .ok ())
    (hold : Protections s.gcSafePoint s.gcProtections) :
    Protections accepted.2.gcSafePoint accepted.2.gcProtections := by
  cases h with
  | registerProtection hle | updateProtection hle =>
    exact ⟨hold.keyed.insert rfl, hold.valid.insert (validate_of_validateRequest hvalid hle)⟩
  | renewProtection hexisting _ hle =>
    have hkey := hold.keyed hexisting
    exact ⟨hold.keyed.insert hkey,
      hold.valid.insert (validate_renewed (hold.valid hexisting) hle)⟩
  | releaseProtection =>
    exact ⟨hold.keyed.of_sub (.erase _ _), hold.valid.of_sub (.erase _ _)⟩
  | @advanceSafePoint candidate nowMs _ _ _ =>
    have hsub : Sub (s.retainedProtections nowMs) s.gcProtections := .filter _ _
    refine ⟨hold.keyed.of_sub hsub, ?_⟩
    intro key protection hkey
    have hsame := hold.valid (hsub key protection hkey)
    have hle := s.allowedSafePoint_le candidate nowMs hkey
    simp only [MetadataGcProtection.validate, validateGcProtectionIdentity, eq_ok',
      Nat.not_lt] at hsame ⊢
    exact ⟨hsame.1, hsame.2.1, hsame.2.2.1, hle⟩
  | _ => exact hold

theorem Change.sessions (h : s.Change command accepted) (hvalid : command.validate = .ok ())
    (hold : Sessions s.clientSessions) : Sessions accepted.2.clientSessions := by
  cases h with
  | registerClient hepoch =>
    have hclient : validateClientId _ = .ok () := hvalid
    exact ⟨hold.keyed.insert rfl, hold.valid.insert
      (by simp [MetadataClientSession.validate, hclient, hepoch, rejectIf])⟩
  | renewClient hsession =>
    have hkey := hold.keyed hsession
    refine ⟨hold.keyed.insert hkey, hold.valid.insert ?_⟩
    have hsame := hold.valid hsession
    simp only [MetadataClientSession.validate, validateClientId, eq_ok'] at hsame ⊢
    exact ⟨hsame.1, hsame.2.1, by omega, by omega⟩
  | _ => exact hold

theorem retainable_of_validate (hvalid : (metadataOutcomeToCached outcome).validate = .ok ())
    (hcreated : ∀ created, outcome ≠ .tableCreated created := by rintro _ ⟨⟩) :
    Retainable tables tablets (metadataOutcomeToCached outcome) := by
  refine ⟨hvalid, ?_⟩
  intro created heq
  cases outcome with
  | tableCreated created' => exact absurd rfl (hcreated created')
  | rejected rejection => cases rejection <;> cases heq
  | _ => cases heq

theorem validate_created {allocator : MetadataAllocatorState}
    (h : allocator.validate = .ok ()) : (metadataOutcomeToCached (.tableCreated
      ⟨allocator.maxTableId + 1, allocator.maxTabletId + 1,
        allocator.maxRaftGroupId + 1⟩)).validate = .ok () := by
  obtain ⟨htable, htablet, hgroup⟩ := MetadataAllocatorState.validate_eq_ok.mp h
  simp only [metadataOutcomeToCached, MetadataCachedOutcome.validate, eq_ok', Nat.not_le]
  have htwo : 2 < allocator.maxRaftGroupId + 1 := Nat.lt_succ_of_le hgroup
  have hone : 1 < allocator.maxRaftGroupId + 1 := by omega
  exact ⟨by omega, by omega, Nat.succ_ne_zero _,
    Nat.ne_of_gt hone, Nat.ne_of_gt htwo⟩

theorem Change.retainable (h : s.Change command accepted) (hvalid : command.validate = .ok ())
    (hfloors : s.allocator.validate = .ok ()) :
    Retainable accepted.2.tables accepted.2.tablets (metadataOutcomeToCached accepted.1) := by
  cases h with
  | timestamps hlt =>
    refine retainable_of_validate ?_
    simp only [metadataOutcomeToCached, MetadataCachedOutcome.validate, eq_ok, Nat.not_lt]
    exact ⟨Nat.succ_ne_zero _, hlt⟩
  | releaseProtection houtcome | advanceSafePoint _ houtcome =>
    rcases houtcome with rfl | rfl <;> exact retainable_of_validate rfl
  | registerClient hepoch =>
    refine retainable_of_validate ?_
    have hclient : validateClientId _ = .ok () := hvalid
    simp [registerSession, metadataOutcomeToCached, MetadataCachedOutcome.validate, hclient,
      hepoch, rejectIf]
  | createTopology _ _ htableId htabletId hgroupId =>
    constructor
    · rw [htableId, htabletId, hgroupId]
      exact validate_created hfloors
    · intro created heq
      cases heq
      exact ⟨ExtTreeMap.mem_insert_self, _, ExtTreeMap.getElem?_insert_self, rfl,
        rfl⟩
  | _ => exact retainable_of_validate rfl

/-! ## Rejections -/

theorem isBlank_display (rejection : MetadataRejection) : isBlank rejection.display = false := by
  -- Every text starts with a word.
  cases rejection <;> repeat first | decide +kernel | refine isBlank_append_left ?_

/-- A rejection of a reservation names timestamps that meet `P`. -/
@[simp] def RegressesOnly (P : Timestamp → Timestamp → Prop) (rejection : MetadataRejection) :
    Prop :=
  ∀ current received, rejection = timestampReservationRegressed current received →
    P current received

/-- A rejection of a reservation names two timestamps. -/
def Named : MetadataRejection → Prop :=
  RegressesOnly fun current received => current ≠ 0 ∧ received ≠ 0

theorem Named.validate {rejection : MetadataRejection} (h : Named rejection) :
    (metadataOutcomeToCached (.rejected rejection)).validate = .ok () := by
  by_cases hregressed : ∃ current received,
      rejection = timestampReservationRegressed current received
  · obtain ⟨current, received, rfl⟩ := hregressed
    simp only [metadataOutcomeToCached, MetadataCachedOutcome.validate, eq_ok]
    exact h current received rfl
  · have hcached : metadataOutcomeToCached (.rejected rejection) = .rejected rejection.display := by
      cases rejection with
      | timestampReservationRegressed current received =>
        exact absurd ⟨current, received, rfl⟩ hregressed
      | _ => rfl
    rw [hcached]
    simp [MetadataCachedOutcome.validate, isBlank_display]

section Regressed

variable {P : Timestamp → Timestamp → Prop}

@[simp] theorem failsWith_requireInitialized :
    FailsWith (RegressesOnly P) s.requireInitialized := by
  simp [requireInitialized]

theorem failsWith_applySetNodeLifecycle {nodeId : NodeId} {lifecycle : NodeLifecycle} :
    FailsWith (RegressesOnly P) (s.applySetNodeLifecycle nodeId lifecycle) := by
  simp only [applySetNodeLifecycle, failsWith_iff, failsWith_ite]
  refine ⟨failsWith_requireInitialized, fun _ _ => ⟨by simp, fun existing _ =>
    ⟨fun _ => by simp, fun _ => ⟨by simp, fun _ _ => ?_⟩⟩⟩⟩
  split <;> simp

theorem failsWith_applyRegisterNode {node : NodeDescriptor} :
    FailsWith (RegressesOnly P) (s.applyRegisterNode node) := by
  simp only [applyRegisterNode, failsWith_iff]
  refine ⟨failsWith_requireInitialized, fun _ _ => ?_⟩
  split
  · simp [failsWith_applySetNodeLifecycle]
  · split
    · next conflict hconflict =>
        -- An endpoint conflict is never the rejection of a reservation.
        obtain ⟨existing, -, hfound⟩ := List.exists_of_findSome?_eq_some hconflict
        obtain ⟨endpoint, -, rfl⟩ := Option.map_eq_some_iff.mp hfound
        simp
    · simp

theorem failsWith_applyCreateTablet :
    FailsWith (RegressesOnly P) (s.applyCreateTablet tablet) := by
  have hpartition : ∀ table, FailsWith (RegressesOnly P) (s.checkPartition tablet table) := by
    intro table
    unfold checkPartition
    split <;> simp
  simp only [applyCreateTablet, failsWith_iff]
  refine ⟨failsWith_requireInitialized, fun _ _ => ?_⟩
  split
  · simp
  · simp [hpartition]

theorem failsWith_applyReplicaRetirement {retirement : RetiredReplicaLifetime} :
    FailsWith (RegressesOnly P) (s.applyReplicaRetirement retirement) := by
  simp only [applyReplicaRetirement, failsWith_iff]
  refine ⟨failsWith_requireInitialized, fun _ _ => ⟨by simp, fun _ _ =>
    ⟨by simp, fun _ _ => ?_⟩⟩⟩
  split <;> simp

variable {existing : Option DesiredReplicaPlacement}

theorem failsWith_checkReplica {replica : DesiredReplica} :
    FailsWith (RegressesOnly P) (s.checkReplica tablet existing policy replica) := by
  have hclass : ∀ node, FailsWith (RegressesOnly P)
      (checkStorageClass policy replica.nodeId node) := by
    intro node
    unfold checkStorageClass
    split <;> simp
  simp [checkReplica, hclass]

variable {placement : DesiredReplicaPlacement}

theorem failsWith_checkEpoch :
    FailsWith (RegressesOnly P) (checkEpoch existing placement) := by
  have hsuccessor : ∀ old replica, FailsWith (RegressesOnly P) (checkSuccessor old replica) := by
    intro old replica
    unfold checkSuccessor
    split <;> simp
  unfold checkEpoch
  split
  · simp
  · simp [failsWith_forM, hsuccessor, -List.forM_eq_forM]

theorem failsWith_applyDesiredPlacement :
    FailsWith (RegressesOnly P) (s.applyDesiredPlacement placement) := by
  have hleader : ∀ nodeId, FailsWith (RegressesOnly P) (s.checkPreferredLeader nodeId) := by
    simp [checkPreferredLeader]
  simp [applyDesiredPlacement, hleader, checkDomain, failsWith_forM,
    failsWith_checkReplica, failsWith_checkEpoch, -List.forM_eq_forM]

theorem failsWith_applySchemaUpdate {expectedSchemaVersion : Nat} {table : TableDefinition} :
    FailsWith (RegressesOnly P) (s.applySchemaUpdate expectedSchemaVersion table) := by
  have hcount : ∀ existing updated, FailsWith (RegressesOnly P)
      (checkColumnCount existing updated) := by
    intro existing updated
    unfold checkColumnCount
    split <;> simp
  simp [applySchemaUpdate, checkSchemaUpdate, checkExistingColumns, checkAddedColumn, hcount,
    failsWith_forM, -List.forM_eq_forM]

/-- Only a reservation up to a reserved timestamp is rejected as regressed. -/
theorem failsWith_handle (h : ∀ reservedUntil, command = .reserveTimestamps reservedUntil →
      reservedUntil ≤ s.timestampReservedUntil → P s.timestampReservedUntil reservedUntil) :
    FailsWith (RegressesOnly P) (s.handle command) := by
  cases command with
  | clusterInitialized =>
    simp only [handle, applyClusterInitialized]
    split <;> simp
  | registerClient =>
    simp only [handle, applyRegisterClient, failsWith_iff]
    refine ⟨failsWith_requireInitialized, fun _ _ => ?_⟩
    split <;> simp
  | renewClient =>
    simp [handle, applyRenewClient]
  | reserveTimestamps reservedUntil =>
    simp only [handle, applyReserveTimestamps, failsWith_iff, failsWith_pure,
      implies_true, and_true]
    refine ⟨failsWith_requireInitialized, fun _ _ hle => ?_⟩
    intro current received heq
    cases heq
    exact h reservedUntil rfl hle
  | registerGcProtection =>
    simp only [handle, applyRegisterGcProtection, failsWith_iff]
    refine ⟨failsWith_requireInitialized, fun _ _ => ⟨by simp, fun _ _ => ?_⟩⟩
    split <;> simp
  | updateGcProtection =>
    simp [handle, applyUpdateGcProtection]
  | renewGcProtection =>
    simp [handle, applyRenewGcProtection]
  | releaseGcProtection =>
    simp [handle, applyReleaseGcProtection]
  | advanceGcSafePoint =>
    simp [handle, applyAdvanceGcSafePoint]
  | registerNode => exact failsWith_applyRegisterNode
  | setNodeLifecycle => exact failsWith_applySetNodeLifecycle
  | createTable =>
    simp only [handle, applyCreateTable, failsWith_iff]
    refine ⟨failsWith_requireInitialized, fun _ _ => ⟨by simp, fun _ _ => ?_⟩⟩
    split <;> simp
  | createTablet => exact failsWith_applyCreateTablet
  | createTableTopology =>
    simp [handle, applyCreateTableTopology]
  | setDesiredReplicaPlacement => exact failsWith_applyDesiredPlacement
  | recordReplicaRetirement => exact failsWith_applyReplicaRetirement
  | updateTableSchema => exact failsWith_applySchemaUpdate

end Regressed

theorem named_of_handle (hvalid : command.validate = .ok ()) :
    FailsWith Named (s.handle command) := by
  refine failsWith_handle ?_
  rintro reservedUntil rfl hle
  simp only [MetadataCommand.validate, eq_ok] at hvalid
  refine ⟨fun hzero => hvalid ?_, hvalid⟩
  rw [hzero] at hle
  exact Nat.le_zero.mp hle

/-! ## The step -/

/-- Whether a command initialises the cluster. -/
def initializes : MetadataCommand → Bool
  | .clusterInitialized clusterId => !isBlank clusterId
  | _ => false

/-- What the handlers leave unchecked before they publish. -/
def PublishesSafely (s : MetadataState) : MetadataCommand → Prop
  -- The mark of the replicas is set to the number placed, and may not fall below a replica.
  | .createTableTopology _ =>
    ∀ id ∈ s.toSnapshot.visibleReplicaIds, id ≤ s.initialReplicaCount
  -- The mark of the replicas is not raised to a retired one.
  | .recordReplicaRetirement retirement => retirement.replicaId ≤ s.allocator.maxReplicaId
  -- The count of the tablets is not checked for a range.
  | .createTablet tablet => s.FitsCount tablet
  | _ => True

theorem le_topology_mark (hselect : selectInitialPlacement s.nodes = some (selected, policy))
    (hne : selected ≠ []) (hid : id ≤ s.initialReplicaCount) (d : Nat) :
    id ≤ ((initialReplicas selected).map (·.replicaId)).max?.getD d := by
  rw [← (selectInitialPlacement_eq_some hselect).1] at hid
  exact Nat.le_trans hid (List.le_max?_getD_of_mem (length_mem_initialReplicas hne))

section

variable (h : s.Change command accepted)
include h

/-- A placement that a change publishes is below the mark it leaves. -/
theorem Change.placed_le_of_kept
    (hkept : PlacedBelow accepted.2.allocator.maxReplicaId s.desiredPlacements) :
    PlacedBelow accepted.2.allocator.maxReplicaId accepted.2.desiredPlacements := by
  cases h with
  | place =>
    refine hkept.insert ?_
    intro replica hmem
    exact Nat.le_trans (List.le_max?_getD_of_mem (List.mem_map_of_mem hmem)) (Nat.le_max_right _ _)
  | createTopology =>
    refine hkept.insert ?_
    intro replica hmem
    exact List.le_max?_getD_of_mem (List.mem_map_of_mem hmem)
  | _ => exact hkept

variable (hsafe : s.PublishesSafely command)
include hsafe

theorem Change.placed_le
    (hold : PlacedBelow s.allocator.maxReplicaId s.desiredPlacements) :
    PlacedBelow accepted.2.allocator.maxReplicaId accepted.2.desiredPlacements := by
  refine h.placed_le_of_kept ?_
  cases h with
  | place =>
    exact hold.imp fun _ _ _ hle replica hmem =>
      Nat.le_trans (hle replica hmem) (Nat.le_max_left _ _)
  | createTopology hselect hne =>
    intro id placement hid replica hmem
    refine le_topology_mark hselect hne ?_ _
    refine hsafe _ (List.mem_append_left _ (List.mem_flatMap.mpr ⟨placement, ?_, ?_⟩))
    · exact mem_values.mpr ⟨id, hid⟩
    · exact List.mem_map_of_mem hmem
  | _ => exact hold

theorem Change.retired_le
    (hold : RetiredBelow s.allocator.maxReplicaId s.retiredReplicas) :
    RetiredBelow accepted.2.allocator.maxReplicaId accepted.2.retiredReplicas := by
  cases h with
  | place => exact hold.imp fun _ _ _ hle => Nat.le_trans hle (Nat.le_max_left _ _)
  | retire => exact hold.insert hsafe
  | createTopology hselect hne =>
    intro key retirement hkey
    refine le_topology_mark hselect hne ?_ _
    exact hsafe _ (List.mem_append_right _ (List.mem_map_of_mem (mem_values.mpr ⟨key, hkey⟩)))
  | _ => exact hold

end

/-- What an accepted command leaves behind. -/
structure Sound (accepted : Accepted) : Prop where
  inv : accepted.2.Inv
  initialized : accepted.2.clusterId ≠ none
  retainable : Retainable accepted.2.tables accepted.2.tablets (metadataOutcomeToCached accepted.1)

theorem Inv.change (h : s.Inv) (hinit : s.clusterId ≠ none) (hvalid : command.validate = .ok ())
    (hsafe : s.PublishesSafely command) (hchange : s.Change command accepted) : Sound accepted := by
  have hinit' : accepted.2.clusterId ≠ none := by
    rw [hchange.clusterId]
    exact hinit
  have hroom : ∀ tablet, command = .createTablet tablet → s.FitsCount tablet := by
    rintro tablet rfl
    exact hsafe
  obtain ⟨htable, htablet, hgroup⟩ := hchange.marks
  have hfloors := MetadataAllocatorState.validate_eq_ok.mp h.floors
  refine ⟨⟨?_, fun hnone => absurd hnone hinit', ?_, hchange.directory hvalid h.directory,
    hchange.schemas h.schemas, hchange.routed hvalid hroom h.topology,
    hchange.placements hvalid h.directory h.placements
      (hchange.placed_le hsafe h.placements.bound),
    hchange.retirements hvalid h.topology.groups h.retirements
      (hchange.retired_le hsafe h.retirements.bound),
    hchange.protections hvalid h.protections, hchange.sessions hvalid h.sessions, ?_⟩, hinit',
    hchange.retainable hvalid h.floors⟩
  · rw [hchange.clusterId]
    exact h.cluster
  · exact MetadataAllocatorState.validate_eq_ok.mpr ⟨by omega,
      Nat.le_trans hfloors.2.1 htablet, by omega⟩
  · rw [hchange.requestDeduplication]
    exact h.requests.mono hchange.mem_tables hchange.sub_tablets

/-- The condition on a log entry and the state before it under which snapshots stay
restorable. -/
def KeepsRestorable (s : MetadataState) (entry : LogEntry) : Prop :=
  s.PublishesSafely entry.2 ∧ ∀ logicalCommandId ∈ entry.1,
    -- The identity is well formed, and its outcome is not retained before the cluster exists.
    logicalCommandId.clientRequestId.clientId ≠ 0 ∧
      logicalCommandId.clientRequestId.requestSequence ≠ 0 ∧
      (s.clusterId = none → initializes entry.2)

instance (s : MetadataState) (command : MetadataCommand) :
    Decidable (s.PublishesSafely command) := by
  cases command <;> unfold PublishesSafely <;> infer_instance

instance (s : MetadataState) (entry : LogEntry) : Decidable (s.KeepsRestorable entry) := by
  unfold KeepsRestorable
  infer_instance

theorem Inv.handle (h : s.Inv) (hvalid : command.validate = .ok ())
    (hsafe : s.PublishesSafely command) (happly : s.handle command = .ok accepted) :
    Sound accepted := by
  rcases change_of_handle happly with ⟨hinit, hchange⟩ | ⟨clusterId, rfl, -, rfl⟩
  · exact h.change hinit hvalid hsafe hchange
  · refine ⟨{ h with cluster := ?_, uninitialized := nofun }, nofun, retainable_of_validate rfl⟩
    intro clusterId' heq
    cases heq
    exact hvalid

theorem Inv.apply (h : s.Inv) (hsafe : s.PublishesSafely command) :
    Sound (s.apply command) ∨
      ∃ rejection, s.apply command = (.rejected rejection, s) ∧ Named rejection := by
  rcases s.apply_eq command with ⟨error, -, happly⟩ |
    ⟨hvalid, ⟨rejection, hhandle, happly⟩ | ⟨accepted, hhandle, happly⟩⟩
  · exact .inr ⟨_, happly, by simp [Named]⟩
  · exact .inr ⟨rejection, happly, named_of_handle hvalid rejection hhandle⟩
  · rw [happly]
    exact .inl (h.handle hvalid hsafe hhandle)

theorem clusterId_of_initializes (hnone : s.clusterId = none)
    (h : initializes command) : (s.apply command).2.clusterId ≠ none := by
  cases command with
  | clusterInitialized clusterId =>
    have hblank : isBlank clusterId = false := by simpa [initializes] using h
    simp [apply, tryApply, MetadataCommand.validate, validateClusterId, rejectIf,
      hblank, Except.mapError, handle, applyClusterInitialized, hnone]
  | _ => cases h

theorem Inv.retain (h : s.Inv) (hinit : s.clusterId ≠ none) {logicalCommandId : LogicalCommandId}
    (hclient : logicalCommandId.clientRequestId.clientId ≠ 0)
    (hsequence : logicalCommandId.clientRequestId.requestSequence ≠ 0)
    {cached : MetadataCachedOutcome} (hcached : Retainable s.tables s.tablets cached) :
    Inv { s with
      requestDeduplication := s.requestDeduplication.insert logicalCommandId cached } :=
  { h with
    uninitialized := fun hnone => absurd hnone hinit
    requests := ⟨h.requests.identity.insert ⟨hclient, hsequence⟩,
      h.requests.outcome.insert hcached⟩ }

/-- The step lemma: an entry that meets the condition keeps the invariant. -/
theorem Inv.applyEntry (h : s.Inv) {entry : LogEntry} (hkeeps : s.KeepsRestorable entry) :
    (s.applyEntry entry).2.Inv := by
  obtain ⟨identity, command⟩ := entry
  obtain ⟨hsafe, hidentity⟩ := hkeeps
  have happly := h.apply hsafe
  cases identity with
  | none =>
    rcases happly with hsound | ⟨rejection, hrejected, -⟩
    · exact hsound.inv
    · simp only [MetadataState.applyEntry, hrejected]
      exact h
  | some logicalCommandId =>
    obtain ⟨hclient, hsequence, hinit⟩ := hidentity logicalCommandId rfl
    simp only [MetadataState.applyEntry, applyWithLogicalCommandId]
    cases hretained : s.requestDeduplication[logicalCommandId]? with
    | some => exact h
    | none =>
      rcases happly with hsound | ⟨rejection, hrejected, hnamed⟩
      · exact hsound.inv.retain hsound.initialized hclient hsequence hsound.retainable
      · have hcluster : s.clusterId ≠ none := by
          intro hnone
          have hnew := clusterId_of_initializes hnone (hinit hnone)
          rw [hrejected] at hnew
          exact hnew hnone
        simp only [hrejected]
        exact h.retain hcluster hclient hsequence (retainable_of_validate hnamed.validate)

end MetadataState

end RagnorDb
