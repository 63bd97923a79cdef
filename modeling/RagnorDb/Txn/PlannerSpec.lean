import Mathlib.Data.List.Perm.Basic
import RagnorDb.Txn.Planner

/-!
# What a plan contains

Every key of the write set is in the batch of the tablet that its route hint names, and in
no other.  Each batch has one route, which is that of all its keys, so the batches of a plan
have distinct tablets and hold every written key once.  A decision plan has the primary key,
with the status record, in its primary batch, and no other batch names the primary key.
-/

namespace RagnorDb

open Std Checked OrderedMap

theorem LogicalMutationId.fromKey_eq_ok {key : Bytes} {id : LogicalMutationId} :
    fromKey key = .ok id ↔ (∃ rowKey, decodeRowKey key = .ok rowKey) ∧ key = id := by
  simp [fromKey]

namespace DistributedTransactionCoordinator

variable {txn : DistributedTransactionCoordinator} {name : String}
  {phase : ParticipantCommandPhase} {key : Bytes}

theorem participantRoute_eq_some {route : ParticipantRoute}
    (h : txn.participantRoute key = some route) : txn.participantRoutes[key]? = some route := by
  unfold participantRoute at h
  cases hid : LogicalMutationId.fromKey key with
  | error =>
    rw [hid] at h
    cases h
  | ok =>
    rw [hid] at h
    obtain ⟨-, rfl⟩ := LogicalMutationId.fromKey_eq_ok.mp hid
    exact h

theorem mem_of_participantRoute {route : ParticipantRoute}
    (h : txn.participantRoute key = some route) : key ∈ txn.writeSet :=
  txn.routes_written (participantRoute_eq_some h)

/-! ## Groups -/

section Groups

variable {α : Type} {item : Bytes → Mutation → Except Error α} {groups : Groups α}
  {place : α → Bytes} {tabletId : TabletId} {batch : BatchBuilder α} {route : ParticipantRoute}
  {plan : ParticipantCommandPlan} {groups' : Groups α} {a : α}

theorem Groups.add_eq_ok (h : groups.add name route a plan = .ok groups') :
    (groups[route.tabletId]? = none ∧
        groups' = groups.insert route.tabletId ⟨route, [a], [plan]⟩) ∨
      ∃ batch, groups[route.tabletId]? = some batch ∧ batch.route = route ∧
        groups' = groups.insert route.tabletId
          ⟨route, batch.items ++ [a], batch.participantPlans ++ [plan]⟩ := by
  unfold Groups.add at h
  cases hb : groups[route.tabletId]? with
  | none =>
    simp only [hb, eq_ok] at h
    exact .inl ⟨rfl, h.symm⟩
  | some batch =>
    simp only [hb, eq_ok'] at h
    obtain ⟨hroute, rfl⟩ := h
    exact .inr ⟨batch, rfl, hroute, by rw [hroute]⟩

/-- The entry is routed to the tablet. -/
def RoutedTo (txn : DistributedTransactionCoordinator) (tabletId : TabletId) (key : Bytes) : Bool :=
  (txn.participantRoute key).any (·.tabletId = tabletId)

/-- A batch has the items of the entries routed to its tablet. -/
structure Grouped (txn : DistributedTransactionCoordinator)
    (item : Bytes → Mutation → Except Error α) (entries : List (Bytes × Mutation))
    (groups : Groups α) : Prop where
  covered : ∀ entry ∈ entries, ∃ route, txn.participantRoute entry.1 = some route ∧
    route.tabletId ∈ groups
  tablet : ∀ {tabletId : TabletId} {batch : BatchBuilder α},
    groups[tabletId]? = some batch → batch.route.tabletId = tabletId
  items : ∀ {tabletId : TabletId} {batch : BatchBuilder α}, groups[tabletId]? = some batch →
    List.Forall₂ (fun entry a => item entry.1 entry.2 = .ok a)
      (entries.filter fun entry => txn.RoutedTo tabletId entry.1) batch.items

variable {entries : List (Bytes × Mutation)} {entry : Bytes × Mutation}

theorem Grouped.not_routedTo (h : txn.Grouped item entries groups) (hentry : entry ∈ entries)
    (hnone : groups[tabletId]? = none) : ¬ txn.RoutedTo tabletId entry.1 := by
  intro hto
  obtain ⟨route, hroute, hmem⟩ := h.covered entry hentry
  simp only [RoutedTo, hroute, Option.any_some, decide_eq_true_eq] at hto
  rw [hto, ExtTreeMap.mem_iff_isSome_getElem?, hnone] at hmem
  cases hmem

/-- A batch is not empty, and its route is that of every entry routed to its tablet. -/
structure Routed (txn : DistributedTransactionCoordinator)
    (item : Bytes → Mutation → Except Error α) (entries : List (Bytes × Mutation))
    (groups : Groups α) : Prop extends txn.Grouped item entries groups where
  inhabited : ∀ {tabletId : TabletId} {batch : BatchBuilder α},
    groups[tabletId]? = some batch → batch.items ≠ []
  route : ∀ {tabletId : TabletId} {batch : BatchBuilder α}, groups[tabletId]? = some batch →
    ∀ entry ∈ entries, txn.RoutedTo tabletId entry.1 → txn.participantRoute entry.1 = batch.route

theorem Routed.add
    (h : txn.Routed item entries groups) (hroute : txn.participantRoute entry.1 = some route)
    (ha : item entry.1 entry.2 = .ok a) (hadd : groups.add name route a plan = .ok groups') :
    txn.Routed item (entries ++ [entry]) groups' := by
  have hrouted : ∀ tabletId, txn.RoutedTo tabletId entry.1 =
      decide (route.tabletId = tabletId) := by
    intro tabletId
    simp [RoutedTo, hroute]
  -- The batch of the entry's tablet after the round, and what it holds.
  obtain ⟨batch', rfl, rfl, hne, hitems, hsame⟩ : ∃ batch',
      groups' = groups.insert route.tabletId batch' ∧ batch'.route = route ∧ batch'.items ≠ [] ∧
        List.Forall₂ (fun entry a => item entry.1 entry.2 = .ok a)
          ((entries ++ [entry]).filter fun entry => txn.RoutedTo route.tabletId entry.1)
          batch'.items ∧
        ∀ e ∈ entries, txn.RoutedTo route.tabletId e.1 → txn.participantRoute e.1 = route := by
    rcases Groups.add_eq_ok hadd with ⟨hnone, rfl⟩ | ⟨batch, hbatch, rfl, rfl⟩
    · refine ⟨_, rfl, rfl, by simp, ?_, fun e he hto => absurd hto (h.not_routedTo he hnone)⟩
      have hempty : entries.filter (fun entry => txn.RoutedTo route.tabletId entry.1) = [] := by
        rw [List.filter_eq_nil_iff]
        exact fun e he => h.not_routedTo he hnone
      simp [hempty, hrouted, ha]
    · refine ⟨_, rfl, rfl, by simp, ?_, h.route hbatch⟩
      rw [List.filter_append]
      exact List.rel_append (h.items hbatch) (by simp [hrouted, ha])
  refine ⟨⟨?covered, ?tablet, ?items⟩, ?inhabited, ?route⟩
  case covered =>
    intro e he
    rcases List.mem_append.mp he with he | he
    · obtain ⟨route', hroute', hmem⟩ := h.covered e he
      exact ⟨route', hroute', ExtTreeMap.mem_insert.mpr (.inr hmem)⟩
    · cases List.mem_singleton.mp he
      exact ⟨_, hroute, ExtTreeMap.mem_insert_self⟩
  case tablet =>
    intro tabletId batch hbatch
    rcases getElem?_insert_eq_some.mp hbatch with ⟨rfl, rfl⟩ | ⟨-, hbatch⟩
    · rfl
    · exact h.tablet hbatch
  case items =>
    intro tabletId batch hbatch
    rcases getElem?_insert_eq_some.mp hbatch with ⟨rfl, rfl⟩ | ⟨hother, hbatch⟩
    · exact hitems
    · rw [List.filter_append]
      simpa [hrouted, hother] using h.items hbatch
  case inhabited =>
    intro tabletId batch hbatch
    rcases getElem?_insert_eq_some.mp hbatch with ⟨rfl, rfl⟩ | ⟨-, hbatch⟩
    · exact hne
    · exact h.inhabited hbatch
  case route =>
    intro tabletId batch hbatch e he hto
    rcases getElem?_insert_eq_some.mp hbatch with ⟨rfl, rfl⟩ | ⟨hother, hbatch⟩ <;>
      rcases List.mem_append.mp he with he | he
    · exact hsame e he hto
    · cases List.mem_singleton.mp he
      exact hroute
    · exact h.route hbatch e he hto
    · cases List.mem_singleton.mp he
      simp [hrouted, hother] at hto

theorem routed_of_groupBatches (h : txn.groupBatches name phase item = .ok groups) :
    txn.Routed item txn.writeSet.toList groups := by
  refine foldlM_ok (P := txn.Routed item) ?_ ?_ h
  · intro entries entry groups groups' hrouted hround
    simp only [eq_ok] at hround
    obtain ⟨route, hroute, plan, -, a, ha, hadd⟩ := hround
    exact hrouted.add hroute ha hadd
  · exact ⟨⟨by simp, fun hb => by simp at hb, fun hb => by simp at hb⟩, fun hb => by simp at hb,
      fun hb => by simp at hb⟩

/-! ## Keys of a batch -/

/-- The tablet that the primary key is routed to. -/
def primaryTablet (txn : DistributedTransactionCoordinator) : TabletId :=
  ((txn.participantRoute txn.primaryKey).map (·.tabletId)).getD 0

/-- The keys of the write set that are routed to the tablet, in key order. -/
def keysAt (txn : DistributedTransactionCoordinator) (tabletId : TabletId) : List Bytes :=
  (txn.writeSet.toList.filter fun entry => txn.RoutedTo tabletId entry.1).map Prod.fst

theorem mem_keysAt {key : Bytes} :
    key ∈ txn.keysAt tabletId ↔ key ∈ txn.writeSet ∧ txn.RoutedTo tabletId key = true := by
  simp only [keysAt, List.mem_map, List.mem_filter, Prod.exists, exists_and_right,
    exists_eq_right, ExtTreeMap.mem_toList_iff_getElem?_eq_some]
  rw [ExtTreeMap.mem_iff_isSome_getElem?, Option.isSome_iff_exists]

theorem nodup_keysAt (tabletId : TabletId) : (txn.keysAt tabletId).Nodup :=
  (nodup_keys txn.writeSet).sublist (List.filter_sublist.map _)

theorem primaryKey_mem_keysAt (h : txn.participantRoute txn.primaryKey = some route) :
    txn.primaryKey ∈ txn.keysAt tabletId ↔ tabletId = txn.primaryTablet := by
  rw [mem_keysAt, primaryTablet]
  simp [RoutedTo, h, mem_of_participantRoute h, eq_comm]

theorem Grouped.items_map (h : txn.Grouped item txn.writeSet.toList groups)
    (hplace : ∀ {key mutation a}, item key mutation = .ok a → place a = key)
    (hbatch : groups[tabletId]? = some batch) : batch.items.map place = txn.keysAt tabletId := by
  rw [keysAt, ← List.forall₂_eq_eq_eq, List.forall₂_map_left_iff, List.forall₂_map_right_iff]
  exact (h.items hbatch).flip.imp fun a entry ha => hplace ha

theorem Grouped.keysAt_eq_nil (h : txn.Grouped item txn.writeSet.toList groups)
    (hnone : groups[tabletId]? = none) : txn.keysAt tabletId = [] := by
  rw [keysAt, List.map_eq_nil_iff, List.filter_eq_nil_iff]
  exact fun entry hentry => h.not_routedTo hentry hnone

/-- The route and the keys of a tablet's batch. -/
def groupAt (txn : DistributedTransactionCoordinator) (tabletId : TabletId) :
    Option (ParticipantRoute × List Bytes) :=
  (txn.keysAt tabletId).head?.bind fun key =>
    (txn.participantRoute key).map fun route => (route, txn.keysAt tabletId)

/-- The batches, each as its route and its keys, in tablet order. -/
def groupsBy (place : α → Bytes) (groups : Groups α) : List (ParticipantRoute × List Bytes) :=
  groups.toList.map fun entry => (entry.2.route, entry.2.items.map place)

/-- Distinct tablets, each with the keys routed to it, and every written key once. -/
structure Partitions (txn : DistributedTransactionCoordinator)
    (groups : List (ParticipantRoute × List Bytes)) : Prop where
  tablets : (groups.map (·.1.tabletId)).Nodup
  mem : ∀ group, group ∈ groups ↔ txn.groupAt group.1.tabletId = some group
  routes : ∀ group ∈ groups, ∀ key ∈ group.2, txn.participantRoute key = some group.1
  keys : (groups.flatMap Prod.snd).Perm txn.writeSet.keys

theorem Partitions.perm {groups groups' : List (ParticipantRoute × List Bytes)}
    (h : txn.Partitions groups) (h' : txn.Partitions groups') : groups.Perm groups' := by
  rw [List.perm_ext_iff_of_nodup h.tablets.of_map h'.tablets.of_map]
  exact fun group => (h.mem group).trans (h'.mem group).symm

variable {group : ParticipantRoute × List Bytes}

theorem Partitions.keys_eq {groups : List (ParticipantRoute × List Bytes)}
    (h : txn.Partitions groups) (hgroup : group ∈ groups) :
    group.2 = txn.keysAt group.1.tabletId := by
  have hat := (h.mem group).mp hgroup
  simp only [groupAt, eq_some] at hat
  obtain ⟨_, -, _, -, heq⟩ := hat
  exact (congrArg Prod.snd heq).symm

theorem Partitions.of_perm {groups groups' : List (ParticipantRoute × List Bytes)}
    (h : txn.Partitions groups) (hperm : groups.Perm groups') : txn.Partitions groups' where
  tablets := (hperm.map _).nodup_iff.mp h.tablets
  mem group := hperm.mem_iff.symm.trans (h.mem group)
  routes group hgroup := h.routes group (hperm.mem_iff.mpr hgroup)
  keys := (hperm.flatMap_right _).symm.trans h.keys

/-- The status tablet, and after it in ascending order the other tablets that have keys. -/
def Participants (txn : DistributedTransactionCoordinator) (ids : List TabletId) : Prop :=
  ∃ route others, txn.statusRoute = some route ∧ ids = route.tabletId :: others ∧
    others.Pairwise (· < ·) ∧ txn.keysAt route.tabletId ≠ [] ∧
    ∀ tabletId, tabletId ∈ others ↔ tabletId ≠ route.tabletId ∧ txn.keysAt tabletId ≠ []

variable (h : txn.Routed item txn.writeSet.toList groups)
include h

theorem Routed.route_of_mem {key : Bytes} (hbatch : groups[tabletId]? = some batch)
    (hkey : key ∈ txn.keysAt tabletId) : txn.participantRoute key = batch.route := by
  obtain ⟨⟨key, mutation⟩, hentry, rfl⟩ := List.mem_map.mp hkey
  obtain ⟨hmem, hto⟩ := List.mem_filter.mp hentry
  exact h.route hbatch _ hmem hto

variable (hplace : ∀ {key mutation a}, item key mutation = .ok a → place a = key)
include hplace

theorem Routed.groupAt (tabletId : TabletId) :
    groups[tabletId]?.map (fun batch => (batch.route, batch.items.map place)) =
      txn.groupAt tabletId := by
  unfold DistributedTransactionCoordinator.groupAt
  cases hbatch : groups[tabletId]? with
  | none =>
    rw [h.keysAt_eq_nil hbatch]
    rfl
  | some batch =>
    have hitems := h.items_map hplace hbatch
    cases hkeys : txn.keysAt tabletId with
    | nil =>
      rw [hkeys, List.map_eq_nil_iff] at hitems
      exact absurd hitems (h.inhabited hbatch)
    | cons key =>
      have hroute : txn.participantRoute key = batch.route :=
        h.route_of_mem hbatch (by simp [hkeys])
      rw [Option.map_some, hitems, hkeys, List.head?_cons, Option.bind_some, hroute]
      rfl

theorem Routed.mem_groupsBy :
    group ∈ groupsBy place groups ↔ txn.groupAt group.1.tabletId = some group := by
  rw [← h.groupAt hplace, Option.map_eq_some_iff, groupsBy, List.mem_map]
  constructor
  · rintro ⟨⟨tabletId, batch⟩, hentry, rfl⟩
    have hbatch := ExtTreeMap.mem_toList_iff_getElem?_eq_some.mp hentry
    exact ⟨batch, by rwa [h.tablet hbatch], rfl⟩
  · rintro ⟨batch, hbatch, rfl⟩
    exact ⟨_, ExtTreeMap.mem_toList_iff_getElem?_eq_some.mpr hbatch, rfl⟩

theorem Routed.partitions : txn.Partitions (groupsBy place groups) := by
  have hbatch : ∀ entry ∈ groups.toList, groups[entry.1]? = some entry.2 := fun entry hentry =>
    ExtTreeMap.mem_toList_iff_getElem?_eq_some.mp hentry
  have hroutes : ∀ group ∈ groupsBy place groups, ∀ key ∈ group.2,
      txn.participantRoute key = some group.1 := by
    intro group hgroup key hkey
    obtain ⟨entry, hentry, rfl⟩ := List.mem_map.mp hgroup
    rw [h.items_map hplace (hbatch entry hentry)] at hkey
    exact h.route_of_mem (hbatch entry hentry) hkey
  have hnodup : (groupsBy place groups).map (·.1.tabletId) |>.Nodup := by
    have htablets : (groupsBy place groups).map (·.1.tabletId) = groups.toList.map Prod.fst := by
      rw [groupsBy, List.map_map]
      exact List.map_congr_left fun entry hentry => h.tablet (hbatch entry hentry)
    rw [htablets]
    exact nodup_keys groups
  refine ⟨hnodup, fun group => h.mem_groupsBy hplace, hroutes, ?_⟩
  rw [List.perm_ext_iff_of_nodup]
  · intro key
    rw [ExtTreeMap.mem_keys]
    constructor
    · intro hkey
      obtain ⟨group, hgroup, hkey⟩ := List.mem_flatMap.mp hkey
      exact mem_of_participantRoute (hroutes group hgroup key hkey)
    · intro hkey
      obtain ⟨mutation, hmutation⟩ := exists_of_mem hkey
      obtain ⟨route, hroute, hmem⟩ := h.covered (key, mutation)
        (ExtTreeMap.mem_toList_iff_getElem?_eq_some.mpr hmutation)
      obtain ⟨batch, hb⟩ := exists_of_mem hmem
      refine List.mem_flatMap.mpr ⟨_, List.mem_map.mpr ⟨(route.tabletId, batch),
        ExtTreeMap.mem_toList_iff_getElem?_eq_some.mpr hb, rfl⟩, ?_⟩
      show key ∈ batch.items.map place
      rw [h.items_map hplace hb, mem_keysAt]
      exact ⟨hkey, by simp [RoutedTo, hroute]⟩
  · rw [List.nodup_flatMap]
    constructor
    · intro group hgroup
      obtain ⟨entry, hentry, rfl⟩ := List.mem_map.mp hgroup
      show (entry.2.items.map place).Nodup
      rw [h.items_map hplace (hbatch entry hentry)]
      exact nodup_keysAt _
    · -- Two batches of different tablets cannot share a key, which has one route.
      rw [List.Nodup, List.pairwise_map] at hnodup
      refine hnodup.imp_of_mem fun {group group'} hgroup hgroup' hne key hkey hkey' => hne ?_
      have hsame := (hroutes group hgroup key hkey).symm.trans (hroutes group' hgroup' key hkey')
      rw [Option.some.inj hsame]
  · rw [← ExtTreeMap.map_fst_toList_eq_keys]
    exact nodup_keys txn.writeSet

theorem Routed.mem_keys : tabletId ∈ groups.keys ↔ txn.keysAt tabletId ≠ [] := by
  rw [ExtTreeMap.mem_keys, ExtTreeMap.mem_iff_isSome_getElem?]
  cases hbatch : groups[tabletId]? with
  | none => simp [h.keysAt_eq_nil hbatch]
  | some => simp [← h.items_map hplace hbatch, h.inhabited hbatch]

theorem Routed.participants {ids : List TabletId}
    (hids : txn.orderedParticipantTabletIds groups.keys = .ok ids) : txn.Participants ids := by
  simp only [orderedParticipantTabletIds, eq_ok', List.contains_iff_mem] at hids
  obtain ⟨route, hroute, -, -, hmem, rfl⟩ := hids
  refine ⟨route, _, hroute, rfl, ?_, (h.mem_keys hplace).mp hmem, fun tabletId => ?_⟩
  · exact (groups.ordered_keys.imp fun h => Nat.compare_eq_lt.mp h).filter _
  · rw [List.mem_filter, h.mem_keys hplace, decide_eq_true_eq, and_comm]

end Groups

/-! ## Decision plans -/

section Batches

variable {Command : Type} {batches : List (BatchPlan Command)} {keys : Command → List Bytes}

/-- The batches of a plan, each as its route and its keys. -/
def grouping (keys : Command → List Bytes) (batches : List (BatchPlan Command)) :
    List (ParticipantRoute × List Bytes) :=
  batches.map fun batch => (batch.route, keys batch.command)

theorem tablets_grouping :
    (grouping keys batches).map (·.1.tabletId) = batches.map (·.route.tabletId) := by
  rw [grouping, List.map_map]
  rfl

theorem grouping_of_mapM {α : Type} {groups : Groups α} {place : α → Bytes}
    {build : BatchBuilder α → Except Error (BatchPlan Command)}
    (hbuild : ∀ {batch planned}, build batch = .ok planned →
      planned.route = batch.route ∧ keys planned.command = batch.items.map place)
    (h : groups.toList.mapM (fun entry => build entry.2) = .ok batches) :
    grouping keys batches = groupsBy place groups := by
  rw [grouping, groupsBy, ← List.forall₂_eq_eq_eq, List.forall₂_map_left_iff,
    List.forall₂_map_right_iff]
  refine (mapM_eq_ok.mp h).flip.imp fun planned entry hok => ?_
  obtain ⟨hroute, hkeys⟩ := hbuild hok
  rw [hroute, hkeys]

theorem perm_swapRemove {α : Type} (l : List α) (i : Fin l.length) :
    ((swapRemove l i).1 :: (swapRemove l i).2).Perm l := by
  have hne : l ≠ [] := List.ne_nil_of_length_pos i.pos
  have hset : (l.set i (l.getLast hne)).dropLast ++ [l.getLast hne] = l.set i (l.getLast hne) := by
    apply List.dropLast_append_getLast?
    rw [Option.mem_def, List.getLast?_eq_getElem?, List.getElem?_set, List.length_set]
    split
    · simp
    · rw [← List.getLast?_eq_getElem?, List.getLast?_eq_getLast_of_ne_nil hne]
  have hothers : (swapRemove l i).2.Perm (l.eraseIdx i) := by
    rw [← List.perm_cons (l.getLast hne)]
    calc l.getLast hne :: (swapRemove l i).2
        |>.Perm ((swapRemove l i).2 ++ [l.getLast hne]) := (List.perm_append_singleton _ _).symm
      _ = l.set i (l.getLast hne) := hset
      _ |>.Perm (l.getLast hne :: l.eraseIdx i) := List.set_perm_cons_eraseIdx i.2 _
  exact (hothers.cons _).trans (List.getElem_cons_eraseIdx_perm i.2)

theorem perm_of_splitPrimary {primaryRoute : ParticipantRoute}
    {plan : BatchPlan Command × List (BatchPlan Command)}
    (h : splitPrimary name primaryRoute batches = .ok plan) :
    plan.1.route.tabletId = primaryRoute.tabletId ∧ (plan.1 :: plan.2).Perm batches := by
  simp only [splitPrimary, eq_ok] at h
  obtain ⟨index, hindex, rfl⟩ := h
  refine ⟨?_, ((List.perm_insertionSort _ _).cons _).trans (perm_swapRemove batches index)⟩
  exact of_decide_eq_true (List.findFinIdx?_eq_some_iff.mp hindex).1

/-- The view of the participants that a decision plan is built from. -/
structure Prepared (txn : DistributedTransactionCoordinator) (prepared : PreparedPlan) : Prop where
  primaryRoute : txn.participantRoute txn.primaryKey = some prepared.primaryRoute
  statusRoute : prepared.statusRoute = prepared.primaryRoute
  batches : txn.Grouped (fun key _ => .ok key) txn.writeSet.toList prepared.batches

variable {prepared : PreparedPlan}

theorem preparePlan_eq_ok {empty : String} (h : txn.preparePlan name phase empty = .ok prepared) :
    txn.Prepared prepared ∧ txn.statusRoute = some prepared.statusRoute ∧
      txn.Participants prepared.participantTabletIds ∧
      txn.Routed (fun key _ => .ok key) txn.writeSet.toList prepared.batches := by
  simp only [preparePlan, eq_ok'] at h
  obtain ⟨-, _, hstatus, route, hprimary, hsame, batches, hbatches, ids, hids, rfl⟩ := h
  have hrouted := routed_of_groupBatches hbatches
  exact ⟨⟨hprimary, hsame, hrouted.toGrouped⟩, hstatus,
    hrouted.participants (fun hok => (Except.ok.inj hok).symm) hids, hrouted⟩

/-- What holds of the batches of a decision: the primary's is the one with the primary key. -/
theorem Prepared.split {secondary : List (BatchPlan Command)}
    {primary : BatchPlan Command} {build : BatchBuilder Bytes → Except Error (BatchPlan Command)}
    (h : txn.Prepared prepared) (keys : Command → List Bytes)
    (hrouted : txn.Routed (fun key _ => .ok key) txn.writeSet.toList prepared.batches)
    (hbuild : ∀ {batch planned}, build batch = .ok planned → planned.route = batch.route ∧
      keys planned.command = batch.items)
    (hbatches : prepared.batches.toList.mapM (fun entry => build entry.2) = .ok batches)
    (hsplit : splitPrimary name prepared.primaryRoute batches = .ok (primary, secondary)) :
    txn.Partitions (grouping keys (primary :: secondary)) ∧
      primary.route.tabletId = txn.primaryTablet ∧
      (∀ planned ∈ secondary, txn.primaryKey ∉ txn.keysAt planned.route.tabletId) ∧
      ∀ planned ∈ primary :: secondary,
        ∃ batch, build batch = .ok planned ∧ batch.items = txn.keysAt planned.route.tabletId := by
  have hgrouping : grouping keys batches = groupsBy id prepared.batches :=
    grouping_of_mapM (fun hok => ⟨(hbuild hok).1, by rw [(hbuild hok).2, List.map_id]⟩) hbatches
  have hpartitions : txn.Partitions (grouping keys batches) := by
    rw [hgrouping]
    exact hrouted.partitions fun hok => (Except.ok.inj hok).symm
  have hnodup := hpartitions.tablets
  rw [tablets_grouping] at hnodup
  obtain ⟨htablet, hperm⟩ := perm_of_splitPrimary hsplit
  have hsplits := hpartitions.of_perm (hperm.symm.map _)
  have hprimary : primary.route.tabletId = txn.primaryTablet := by
    rw [htablet, primaryTablet, h.primaryRoute]
    rfl
  refine ⟨hsplits, hprimary, ?_, ?_⟩
  · intro planned hplanned
    rw [primaryKey_mem_keysAt h.primaryRoute, ← hprimary]
    rw [← (hperm.map _).nodup_iff, List.map_cons, List.nodup_cons] at hnodup
    exact fun heq => hnodup.1 (List.mem_map.mpr ⟨planned, hplanned, heq⟩)
  · intro planned hplanned
    obtain ⟨entry, -, hok⟩ := exists_of_mem_mapM hbatches (hperm.mem_iff.mp hplanned)
    refine ⟨entry.2, hok, ?_⟩
    rw [← (hbuild hok).2]
    exact hsplits.keys_eq (List.mem_map.mpr ⟨planned, hplanned, rfl⟩)

end Batches

/-- The record of the transaction with the status and commit timestamp. -/
structure Records (txn : DistributedTransactionCoordinator) (status : TxnStatus)
    (commitTimestamp : Option Timestamp) (record : TxnStatusRecord) : Prop where
  txnId : record.txnId = txn.transactionId
  start : record.startTimestamp = txn.startTimestamp
  primaryKey : record.primaryKey = txn.primaryKey
  status : record.status = status
  commitTimestamp : record.commitTimestamp = commitTimestamp

theorem records_statusRecord (status : TxnStatus) (commitTimestamp : Option Timestamp)
    (ids : List TabletId) :
    txn.Records status commitTimestamp (txn.statusRecord status commitTimestamp ids) :=
  ⟨rfl, rfl, rfl, rfl, rfl⟩

/-- What a commit plan contains. -/
structure PlannedCommit (txn : DistributedTransactionCoordinator) (commitTimestamp : Timestamp)
    (plan : CommitPhasePlan) : Prop where
  after : txn.startTimestamp < commitTimestamp
  record : txn.Records .committed (some commitTimestamp) plan.statusRecord
  primary_mem : txn.primaryKey ∈ txn.keysAt txn.primaryTablet
  primary_tablet : plan.primary.route.tabletId = txn.primaryTablet
  primary : plan.primary.command = ⟨txn.transactionId, txn.startTimestamp, commitTimestamp,
    txn.keysAt txn.primaryTablet, some plan.statusRecord⟩
  secondary : ∀ batch ∈ plan.secondary, txn.primaryKey ∉ txn.keysAt batch.route.tabletId ∧
    batch.command = ⟨txn.transactionId, txn.startTimestamp, commitTimestamp,
      txn.keysAt batch.route.tabletId, none⟩

variable {commitTimestamp : Timestamp} {batch : BatchBuilder Bytes}

theorem commitBatch_eq_ok {record : TxnStatusRecord} {planned : BatchPlan CommitCommand}
    (h : txn.commitBatch commitTimestamp record batch = .ok planned) :
    planned.route = batch.route ∧
      planned.command = ⟨txn.transactionId, txn.startTimestamp, commitTimestamp, batch.items,
        if txn.primaryKey ∈ batch.items then some record else none⟩ := by
  simp only [commitBatch, eq_ok] at h
  obtain ⟨⟨⟩, -, rfl⟩ := h
  simp

/-- The routes agree, the record is valid and names the participants, and the batches partition
the write set. -/
structure Decides (txn : DistributedTransactionCoordinator) (record : TxnStatusRecord)
    (groups : List (ParticipantRoute × List Bytes)) : Prop where
  route : ∃ route, txn.participantRoute txn.primaryKey = some route ∧ txn.statusRoute = some route
  participants : txn.Participants record.participantTabletIds
  valid : record.validate = .ok ()
  partitions : txn.Partitions groups

theorem planCommit_eq_ok {plan : CommitPhasePlan}
    (h : txn.planCommitAtTimestamp commitTimestamp = .ok plan) :
    txn.PlannedCommit commitTimestamp plan ∧
      txn.Decides plan.statusRecord
        (grouping CommitCommand.keys (plan.primary :: plan.secondary)) := by
  simp only [planCommitAtTimestamp, prepareCommitPlan, buildCommitPlan, eq_ok', Nat.not_le] at h
  obtain ⟨prepared, hprepare, ⟨-, hafter⟩, ⟨⟩, hvalid, batches, hbatches, ⟨primary, secondary⟩,
    hsplit, rfl⟩ := h
  obtain ⟨hprepared, hstatus, hids, hrouted⟩ := preparePlan_eq_ok hprepare
  obtain ⟨hpartitions, htablet, hnot, hbuilt⟩ := hprepared.split CommitCommand.keys hrouted
    (fun hok => ⟨(commitBatch_eq_ok hok).1, by rw [(commitBatch_eq_ok hok).2]⟩) hbatches hsplit
  have hmem := (primaryKey_mem_keysAt hprepared.primaryRoute).mpr rfl
  refine ⟨⟨hafter, records_statusRecord _ _ _, hmem, htablet, ?_, ?_⟩, ⟨_, hprepared.primaryRoute,
    hprepared.statusRoute ▸ hstatus⟩, hids, hvalid, hpartitions⟩
  · obtain ⟨batch, hok, hitems⟩ := hbuilt primary List.mem_cons_self
    rw [(commitBatch_eq_ok hok).2, hitems, htablet, if_pos hmem]
  · intro planned hplanned
    obtain ⟨batch, hok, hitems⟩ := hbuilt planned (List.mem_cons_of_mem _ hplanned)
    rw [(commitBatch_eq_ok hok).2, hitems, if_neg (hnot planned hplanned)]
    exact ⟨hnot planned hplanned, rfl⟩

/-- What a rollback plan contains. -/
structure PlannedRollback (txn : DistributedTransactionCoordinator)
    (plan : RollbackPhasePlan) : Prop where
  record : txn.Records .aborted none plan.statusRecord
  primary_mem : txn.primaryKey ∈ txn.keysAt txn.primaryTablet
  primary_tablet : plan.primary.route.tabletId = txn.primaryTablet
  primary : plan.primary.command =
    ⟨txn.transactionId, txn.startTimestamp, txn.keysAt txn.primaryTablet⟩
  secondary : ∀ batch ∈ plan.secondary, txn.primaryKey ∉ txn.keysAt batch.route.tabletId ∧
    batch.command = ⟨txn.transactionId, txn.startTimestamp, txn.keysAt batch.route.tabletId⟩

theorem rollbackBatch_eq_ok {planned : BatchPlan RollbackCommand}
    (h : txn.rollbackBatch batch = .ok planned) :
    planned.route = batch.route ∧
      planned.command = ⟨txn.transactionId, txn.startTimestamp, batch.items⟩ := by
  simp only [rollbackBatch, eq_ok] at h
  obtain ⟨⟨⟩, -, rfl⟩ := h
  exact ⟨rfl, rfl⟩

theorem planRollback_eq_ok {plan : RollbackPhasePlan} (h : txn.planRollback = .ok plan) :
    txn.PlannedRollback plan ∧
      txn.Decides plan.statusRecord
        (grouping RollbackCommand.keys (plan.primary :: plan.secondary)) := by
  simp only [planRollback, eq_ok] at h
  obtain ⟨prepared, hprepare, ⟨⟩, hvalid, batches, hbatches, ⟨primary, secondary⟩, hsplit, rfl⟩ := h
  obtain ⟨hprepared, hstatus, hids, hrouted⟩ := preparePlan_eq_ok hprepare
  obtain ⟨hpartitions, htablet, hnot, hbuilt⟩ := hprepared.split RollbackCommand.keys hrouted
    (fun hok => ⟨(rollbackBatch_eq_ok hok).1, by rw [(rollbackBatch_eq_ok hok).2]⟩) hbatches hsplit
  have hmem := (primaryKey_mem_keysAt hprepared.primaryRoute).mpr rfl
  refine ⟨⟨records_statusRecord _ _ _, hmem, htablet, ?_, ?_⟩, ⟨_, hprepared.primaryRoute,
    hprepared.statusRoute ▸ hstatus⟩, hids, hvalid, hpartitions⟩
  · obtain ⟨batch, hok, hitems⟩ := hbuilt primary List.mem_cons_self
    rw [(rollbackBatch_eq_ok hok).2, hitems, htablet]
  · intro planned hplanned
    obtain ⟨batch, hok, hitems⟩ := hbuilt planned (List.mem_cons_of_mem _ hplanned)
    rw [(rollbackBatch_eq_ok hok).2, hitems]
    exact ⟨hnot planned hplanned, rfl⟩

end DistributedTransactionCoordinator

end RagnorDb
