import Mathlib.Data.List.Pairwise
import RagnorDb.Catalog.MetadataMarks

/-!
# Replica lifetimes

A replica identity stands for one lifetime of one replica of a Raft group.  A handler compares
a new placement with the current one and with the retired replicas only, so an identity that
was dropped and not yet retired may come back.  Where each new identity is taken above the
mark of the allocator, lifetimes are never reused.
-/

namespace RagnorDb

open Std Checked OrderedMap

theorem ascending_of_validateReplicas {replicas : List DesiredReplica} {nodes : List NodeId}
    {previous : Option ReplicaId} {voterCount count : Nat}
    (h : validateReplicas nodes previous voterCount replicas = .ok count) :
    (∀ last, previous = some last → ∀ replica ∈ replicas, last < replica.replicaId) ∧
      replicas.Pairwise fun a b => a.replicaId < b.replicaId := by
  induction replicas generalizing nodes previous voterCount with
  | nil => exact ⟨fun _ _ _ hmem => absurd hmem List.not_mem_nil, .nil⟩
  | cons replica replicas ih =>
    simp only [validateReplicas, eq_ok'] at h
    obtain ⟨-, -, hcanonical, -, hrest⟩ := h
    obtain ⟨hfirst, hpairwise⟩ := ih hrest
    refine ⟨?_, List.pairwise_cons.mpr ⟨hfirst _ rfl, hpairwise⟩⟩
    intro last hlast other hmem
    have hlt : last < replica.replicaId := by
      simpa only [hlast, Option.any_some, decide_eq_true_eq, Nat.not_le] using hcanonical
    rcases List.mem_cons.mp hmem with heq | hmem
    · rw [heq]
      exact hlt
    · exact Nat.lt_trans hlt (hfirst _ rfl other hmem)

theorem DesiredReplicaPlacement.eq_of_replicaId {placement : DesiredReplicaPlacement}
    (h : placement.validate = .ok ()) {a b : DesiredReplica} (ha : a ∈ placement.replicas)
    (hb : b ∈ placement.replicas) (heq : a.replicaId = b.replicaId) : a = b := by
  simp only [DesiredReplicaPlacement.validate, eq_ok] at h
  obtain ⟨_, _, _, _, _, _, _, _, count, hcount, _⟩ := h
  let Same (a b : DesiredReplica) : Prop := a.replicaId = b.replicaId → a = b
  have hsymm : Std.Symm Same := ⟨fun _ _ h heq => (h heq.symm).symm⟩
  have hsame : placement.replicas.Pairwise Same :=
    (ascending_of_validateReplicas hcount).2.imp fun hlt heq => absurd heq (Nat.ne_of_lt hlt)
  exact hsame.forall_of_forall (fun _ _ _ => rfl) ha hb heq

namespace MetadataState

variable {s t u : MetadataState} {command : MetadataCommand} {accepted : Accepted}
  {entry : LogEntry}
variable {placement : DesiredReplicaPlacement}

/-- The desired placement of a Raft group has the replica on the node. -/
def Hosts (s : MetadataState) (group : RaftGroupId) (replicaId : ReplicaId) (nodeId : NodeId) :
    Prop :=
  ∃ tabletId placement, s.tabletIdsByRaftGroup[group]? = some tabletId ∧
    s.desiredPlacements[tabletId]? = some placement ∧
    ∃ replica ∈ placement.replicas, replica.replicaId = replicaId ∧ replica.nodeId = nodeId

/-- A placement that replaces another takes its new replicas above the mark, and CREATE TABLE
does not lower the mark. -/
def FreshReplicas (s : MetadataState) (entry : LogEntry) : Prop :=
  match entry.2 with
  | .setDesiredReplicaPlacement placement =>
    ∀ existing ∈ s.desiredPlacements[placement.tabletId]?, ∀ replica ∈ placement.replicas,
      replica.replicaId ∈ existing.replicas.map (·.replicaId) ∨
        s.allocator.maxReplicaId < replica.replicaId
  | .createTableTopology _ => s.allocator.maxReplicaId ≤ s.initialReplicaCount
  | _ => True

instance (s : MetadataState) (entry : LogEntry) : Decidable (s.FreshReplicas entry) := by
  unfold FreshReplicas
  induction entry.2 using MetadataCommand.casesOn <;> infer_instance

/-! ## What every log keeps -/

/-- Raft groups are indexed, placements are valid and belong to tablets, and no retired replica
is desired. -/
structure Lifetimes (s : MetadataState) : Prop where
  groups : Indexes (fun tablet : TabletDescriptor => some tablet.raftGroupId)
    s.tabletIdsByRaftGroup s.tablets
  valid : Each (fun _ placement => placement.validate = .ok ()) s.desiredPlacements
  tablet : Each (fun id _ => id ∈ s.tablets) s.desiredPlacements
  retirements : ∃ bound, Retirements s.tabletIdsByRaftGroup s.desiredPlacements s.retiredReplicas
    bound

theorem lifetimes_new : new.Lifetimes :=
  ⟨.empty, .empty, .empty, 0, .empty _ _ _⟩

theorem exists_bound {κ β : Type} {cmp : κ → κ → Ordering} [TransCmp cmp] [LawfulEqCmp cmp]
    (f : β → Nat) (m : ExtTreeMap κ β cmp) : ∃ bound, Each (fun _ v => f v ≤ bound) m := by
  refine ⟨((values m).map f).max?.getD 0, ?_⟩
  intro k v hk
  exact List.le_max?_getD_of_mem (List.mem_map_of_mem (mem_values.mpr ⟨k, hk⟩))

theorem Change.lifetimes (h : s.Change command accepted) (hvalid : command.validate = .ok ())
    (hold : s.Lifetimes) : accepted.2.Lifetimes := by
  refine ⟨h.groups hold.groups, ?_, ?_, ?_⟩
  · cases h with
    | place => exact hold.valid.insert hvalid
    | createTopology _ _ _ _ _ _ _ hplacement => exact hold.valid.insert hplacement
    | _ => exact hold.valid
  · have hkept : Each (fun id _ => id ∈ accepted.2.tablets) s.desiredPlacements :=
      hold.tablet.imp fun id _ _ hid => by
        obtain ⟨tablet, htablet⟩ := exists_of_mem hid
        exact mem_of_getElem? (h.sub_tablets id tablet htablet)
    cases h with
    | place htablet => exact hkept.insert (mem_of_getElem? htablet)
    | createTopology => exact hkept.insert ExtTreeMap.mem_insert_self
    | _ => exact hkept
  · obtain ⟨bound, hretirements⟩ := hold.retirements
    obtain ⟨bound', hbound'⟩ := exists_bound (·.replicaId) accepted.2.retiredReplicas
    exact ⟨bound', h.retirements hvalid hold.groups hretirements hbound'⟩

/-! ## Two states of a log -/

/-- How the placement of a tablet may go on: a replica keeps its node, and a replica that was
not there lies above the mark. -/
structure Succeeds (mark : Nat) (placement later : DesiredReplicaPlacement) : Prop where
  host : ∀ a ∈ placement.replicas, ∀ b ∈ later.replicas, a.replicaId = b.replicaId →
    a.nodeId = b.nodeId
  fresh : ∀ b ∈ later.replicas, (∃ a ∈ placement.replicas, a.replicaId = b.replicaId) ∨
    mark < b.replicaId

theorem Succeeds.refl (hvalid : placement.validate = .ok ())
    (mark : Nat) : Succeeds mark placement placement where
  host a ha b hb heq := by rw [placement.eq_of_replicaId hvalid ha hb heq]
  fresh b hb := .inl ⟨b, hb, rfl⟩

theorem Succeeds.trans {mark mark' : Nat} {a b c : DesiredReplicaPlacement}
    (hab : Succeeds mark a b) (hbc : Succeeds mark' b c) (hmark : mark ≤ mark')
    (hbound : ∀ replica ∈ a.replicas, replica.replicaId ≤ mark) : Succeeds mark a c where
  host x hx z hz heq := by
    rcases hbc.fresh z hz with ⟨y, hy, hid⟩ | hfresh
    · rw [hab.host x hx y hy (heq.trans hid.symm), hbc.host y hy z hz hid]
    · -- an identity above the later mark was not there before
      have hle := Nat.le_trans (hbound x hx) hmark
      rw [heq] at hle
      exact absurd hfresh (by omega)
  fresh z hz := by
    rcases hbc.fresh z hz with ⟨y, hy, hid⟩ | hfresh
    · rw [← hid]
      exact hab.fresh y hy
    · exact .inr (by omega)

/-- A later state: the mark has not fallen, Raft groups keep their tablets, retired replicas
stay retired, and placements are succeeded. -/
structure Later (s t : MetadataState) : Prop where
  mark : s.allocator.maxReplicaId ≤ t.allocator.maxReplicaId
  groups : Sub s.tabletIdsByRaftGroup t.tabletIdsByRaftGroup
  retired : ∀ key ∈ s.retiredReplicas, key ∈ t.retiredReplicas
  placement : ∀ (tabletId : TabletId) (placement : DesiredReplicaPlacement),
    s.desiredPlacements[tabletId]? = some placement →
    ∃ later, t.desiredPlacements[tabletId]? = some later ∧
      Succeeds s.allocator.maxReplicaId placement later

theorem Later.refl (h : s.Lifetimes) : s.Later s where
  mark := Nat.le_refl _
  groups _ _ hgroup := hgroup
  retired _ hkey := hkey
  placement _ placement hplacement := ⟨placement, hplacement, .refl (h.valid hplacement) _⟩

theorem Later.trans (hst : s.Later t) (htu : t.Later u)
    (hbound : PlacedBelow s.allocator.maxReplicaId s.desiredPlacements) : s.Later u where
  mark := Nat.le_trans hst.mark htu.mark
  groups group tabletId hgroup := htu.groups _ _ (hst.groups group tabletId hgroup)
  retired key hkey := htu.retired key (hst.retired key hkey)
  placement tabletId placement hplacement := by
    obtain ⟨middle, hmiddle, hsucceeds⟩ := hst.placement tabletId placement hplacement
    obtain ⟨last, hlast, hsucceeds'⟩ := htu.placement tabletId middle hmiddle
    exact ⟨last, hlast, hsucceeds.trans hsucceeds' hst.mark (hbound hplacement)⟩

/-- A placement that passes the checks leaves a replica that stays on its node. -/
theorem nodeId_of_checkEpoch {existing : DesiredReplicaPlacement}
    (hvalid : existing.validate = .ok ()) (h : checkEpoch (some existing) placement = .ok ())
    {a b : DesiredReplica} (ha : a ∈ existing.replicas) (hb : b ∈ placement.replicas)
    (heq : a.replicaId = b.replicaId) : a.nodeId = b.nodeId := by
  simp only [checkEpoch, eq_ok, forM_eq_ok] at h
  obtain ⟨_, _, _, _, hsuccessors⟩ := h
  have hsuccessor := hsuccessors b hb
  unfold checkSuccessor at hsuccessor
  cases hfound : existing.replicas.reverse.find? (·.replicaId = b.replicaId) with
  | none =>
    rw [List.find?_eq_none] at hfound
    exact absurd (decide_eq_true heq) (hfound a (List.mem_reverse.mpr ha))
  | some old =>
    simp only [hfound, eq_ok', ne_eq] at hsuccessor
    have hold := List.mem_reverse.mp (List.mem_of_find?_eq_some hfound)
    have hid : old.replicaId = b.replicaId := by simpa using List.find?_some hfound
    rw [existing.eq_of_replicaId hvalid ha hold (heq.trans hid.symm)]
    exact hsuccessor.1

theorem Change.later (h : s.Change command accepted) (hold : s.Lifetimes)
    (hmark : s.allocator.maxReplicaId ≤ accepted.2.allocator.maxReplicaId)
    (hfresh : ∀ placement, command = .setDesiredReplicaPlacement placement →
      ∀ existing ∈ s.desiredPlacements[placement.tabletId]?, ∀ replica ∈ placement.replicas,
        replica.replicaId ∈ existing.replicas.map (·.replicaId) ∨
          s.allocator.maxReplicaId < replica.replicaId) : s.Later accepted.2 := by
  refine ⟨hmark, h.sub_groups, ?_, ?_⟩
  · cases h with
    | retire => exact mem_insert_of_mem _ _
    | _ => exact fun _ hkey => hkey
  · have hsame := (Later.refl hold).placement
    cases h with
    | @place placement tablet htablet _ hepoch =>
      intro tabletId old hplacement
      by_cases htarget : placement.tabletId = tabletId
      · subst htarget
        rw [hplacement] at hepoch
        refine ⟨placement, ExtTreeMap.getElem?_insert_self, ?_, ?_⟩
        · intro a ha b hb heq
          exact nodeId_of_checkEpoch (hold.valid hplacement) hepoch ha hb heq
        · intro b hb
          rcases hfresh placement rfl old hplacement b hb with hmem | hlt
          · obtain ⟨a, ha, hid⟩ := List.mem_map.mp hmem
            exact .inl ⟨a, ha, hid⟩
          · exact .inr hlt
      · obtain ⟨later, hlater, hsucceeds⟩ := hsame tabletId old hplacement
        exact ⟨later, getElem?_insert_eq_some.mpr (.inr ⟨htarget, hlater⟩), hsucceeds⟩
    | createTopology _ _ _ _ _ _ _ _ _ _ hnew =>
      intro tabletId old hplacement
      obtain ⟨later, hlater, hsucceeds⟩ := hsame tabletId old hplacement
      refine ⟨later, getElem?_insert_eq_some.mpr (.inr ⟨?_, hlater⟩), hsucceeds⟩
      rintro rfl
      -- a placement belongs to a tablet, and this one is new
      exact not_mem_of_getElem?_eq_none hnew (hold.tablet hplacement)
    | _ => exact hsame

/-! ## Logs -/

/-- What holds of every state that a log of fresh replicas reaches. -/
structure Alive (s : MetadataState) : Prop where
  lifetimes : s.Lifetimes
  bound : PlacedBelow s.allocator.maxReplicaId s.desiredPlacements

theorem Moves.alive (h : s.Moves entry.2 t) (hfresh : s.FreshReplicas entry) (hold : s.Alive) :
    t.Alive ∧ s.Later t := by
  cases h with
  | stays => exact ⟨hold, .refl hold.lifetimes⟩
  | initializes => exact ⟨⟨{ hold.lifetimes with }, hold.bound⟩, { Later.refl hold.lifetimes with }⟩
  | changes _ hvalid hchange =>
    have hmark := hchange.replica_mark fun request heq => by
      simpa only [FreshReplicas, heq] using hfresh
    have hlater := hchange.later hold.lifetimes hmark fun placement heq => by
      simpa only [FreshReplicas, heq] using hfresh
    have hbound := hchange.placed_le_of_kept <| hold.bound.imp fun _ _ _ hle replica hmem =>
      Nat.le_trans (hle replica hmem) hmark
    exact ⟨⟨hchange.lifetimes hvalid hold.lifetimes, hbound⟩, hlater⟩

theorem alive_of_step (hstep : (metadataLog.restrict FreshReplicas).step s entry t)
    (hold : s.Alive) : t.Alive ∧ s.Later t := by
  obtain ⟨hfresh, hstep⟩ := hstep
  obtain ⟨moved, requests, hmoves, rfl⟩ := moves_of_step hstep
  obtain ⟨halive, hlater⟩ := hmoves.alive hfresh hold
  exact ⟨⟨{ halive.lifetimes with }, halive.bound⟩, { hlater with }⟩

theorem alive_of_reachable (h : (metadataLog.restrict FreshReplicas).Reachable s) : s.Alive := by
  refine h.invariant ?_ fun _ hold hstep => (alive_of_step hstep hold).1
  intro s hs
  cases hs
  exact ⟨lifetimes_new, .empty⟩

theorem later_of_steps {log : List LogEntry} (hs : (metadataLog.restrict FreshReplicas).Reachable s)
    (h : (metadataLog.restrict FreshReplicas).Steps s log t) : s.Later t := by
  induction h with
  | nil => exact .refl (alive_of_reachable hs).lifetimes
  | cons hstep _ ih =>
    have halive := alive_of_reachable hs
    exact (alive_of_step hstep halive).2.trans (ih (hs.step hstep)) halive.bound

theorem Lifetimes.not_hosts (h : s.Lifetimes) {group : RaftGroupId} {replicaId : ReplicaId}
    (hretired : (group, replicaId) ∈ s.retiredReplicas) (nodeId : NodeId) :
    ¬ s.Hosts group replicaId nodeId := by
  rintro ⟨tabletId, placement, hgroup, hplacement, replica, hmem, hid, -⟩
  obtain ⟨bound, hretirements⟩ := h.retirements
  obtain ⟨retirement, hretirement⟩ := exists_of_mem hretired
  obtain ⟨tabletId', hgroup', hdesires⟩ := hretirements.group hretirement
  have hkey := Prod.mk.inj (hretirements.keyed hretirement)
  rw [hkey.1, hgroup] at hgroup'
  cases hgroup'
  rw [hkey.2, hplacement, desires, Option.any_some, List.any_eq_false] at hdesires
  exact hdesires replica hmem (decide_eq_true hid)

/-- Along a log whose new replicas are fresh, a replica identity of a Raft group stays on its
node, does not come back once it has left the desired placement, and does not come back once
it is retired. -/
theorem replica_lifetimes_never_reused {log log' : List LogEntry}
    (hs : (metadataLog.restrict FreshReplicas).Reachable s)
    (hst : (metadataLog.restrict FreshReplicas).Steps s log t)
    (htu : (metadataLog.restrict FreshReplicas).Steps t log' u) (group : RaftGroupId)
    (replicaId : ReplicaId) :
    (∀ node node', s.Hosts group replicaId node → t.Hosts group replicaId node' → node' = node) ∧
      (∀ node, s.Hosts group replicaId node → (∀ node', ¬ t.Hosts group replicaId node') →
        ∀ node', ¬ u.Hosts group replicaId node') ∧
      ((group, replicaId) ∈ s.retiredReplicas → ∀ node, ¬ t.Hosts group replicaId node) := by
  have halive := alive_of_reachable hs
  have hlater := later_of_steps hs hst
  have hlater' := later_of_steps (hs.steps hst) htu
  refine ⟨?_, ?_, ?_⟩
  · rintro node node' ⟨tabletId, p, hgroup, hp, a, ha, haId, rfl⟩
      ⟨tabletId', q, hgroup', hq, b, hb, hbId, rfl⟩
    rw [hlater.groups _ _ hgroup] at hgroup'
    cases hgroup'
    obtain ⟨later, hlaterPlacement, hsucceeds⟩ := hlater.placement _ p hp
    rw [hlaterPlacement] at hq
    cases hq
    exact (hsucceeds.host a ha b hb (haId.trans hbId.symm)).symm
  · rintro node ⟨tabletId, p, hgroup, hp, a, ha, rfl, rfl⟩ hremoved node'
      ⟨tabletId', w, hgroup', hw, c, hc, hcId, rfl⟩
    have hgroupT := hlater.groups _ _ hgroup
    rw [hlater'.groups _ _ hgroupT] at hgroup'
    cases hgroup'
    obtain ⟨q, hq, -⟩ := hlater.placement _ p hp
    obtain ⟨later, hlaterPlacement, hsucceeds⟩ := hlater'.placement _ q hq
    rw [hlaterPlacement] at hw
    cases hw
    rcases hsucceeds.fresh c hc with ⟨b, hb, hbId⟩ | hfresh
    · exact hremoved b.nodeId ⟨_, q, hgroupT, hq, b, hb, hbId.trans hcId, rfl⟩
    · -- the identity lies below the mark from the first placement on
      have hle := Nat.le_trans (halive.bound hp a ha) hlater.mark
      rw [hcId] at hfresh
      exact absurd hfresh (by omega)
  · intro hretired
    exact (alive_of_reachable (hs.steps hst)).lifetimes.not_hosts (hlater.retired _ hretired)

/-- A second node, on which the replica of the sample table is placed again. -/
def sampleNode2 : NodeDescriptor :=
  ⟨2, "127.0.0.1:5", "127.0.0.1:6", "127.0.0.1:7", "127.0.0.1:8", none, none, none, "ssd", .active⟩

/-- Replica 1 comes back on node 2. -/
def returnedPlacement : DesiredReplicaPlacement :=
  ⟨2, 3, [⟨1, 2, .voter⟩], ⟨1, 0, 0, 0, none, []⟩⟩

theorem replica_lifetimes_never_reused_sample :
    ∃ s t, (metadataLog.restrict FreshReplicas).Reachable s ∧
      (metadataLog.restrict FreshReplicas).Steps s
        [(none, .setDesiredReplicaPlacement movedPlacement)] t ∧
      s.Hosts 3 1 1 ∧ t.Hosts 3 2 1 ∧ ∀ node, t.Hosts 3 1 node → node = 1 := by
  have hreachable : (metadataLog.restrict FreshReplicas).Reachable (new.afterLog sampleLog) :=
    ⟨_, _, rfl, steps_of_logMeets (by decide +kernel)⟩
  have hsteps : (metadataLog.restrict FreshReplicas).Steps (new.afterLog sampleLog)
      [(none, .setDesiredReplicaPlacement movedPlacement)] _ :=
        steps_of_logMeets (by decide +kernel)
  have hhosts : (new.afterLog sampleLog).Hosts 3 1 1 :=
    ⟨2, topologyPlacement 2 [1] ⟨1, 0, 0, 0, none, []⟩, by decide +kernel, by decide +kernel,
      ⟨1, 1, .voter⟩, by decide, rfl, rfl⟩
  refine ⟨_, _, hreachable, hsteps, hhosts, ?_, ?_⟩
  · exact ⟨2, movedPlacement, by decide +kernel, by decide +kernel, ⟨2, 1, .voter⟩, by decide, rfl,
      rfl⟩
  · intro node hnode
    exact (replica_lifetimes_never_reused hreachable hsteps (.nil _) 3 1).1 1 node hhosts hnode

/-- Replica 1 of the sample table leaves the desired placement and comes back on another
node. -/
theorem replica_lifetime_reused :
    ∃ s t u, metadataLog.Reachable s ∧
      metadataLog.Steps s [(none, .setDesiredReplicaPlacement movedPlacement)] t ∧
      metadataLog.Steps t [(none, .setDesiredReplicaPlacement returnedPlacement)] u ∧
      s.Hosts 3 1 1 ∧ t.desiredPlacements[2]? = some movedPlacement ∧ u.Hosts 3 1 2 := by
  refine ⟨_, _, _, ⟨_, sampleLog ++ [(none, .registerNode sampleNode2)], rfl, steps_afterLog _ _⟩,
    steps_afterLog _ _, steps_afterLog _ _, ?_, by decide +kernel, ?_⟩
  · exact ⟨2, topologyPlacement 2 [1] ⟨1, 0, 0, 0, none, []⟩, by decide +kernel, by decide +kernel,
      ⟨1, 1, .voter⟩, by decide, rfl, rfl⟩
  · exact ⟨2, returnedPlacement, by decide +kernel, by decide +kernel,
      ⟨1, 2, .voter⟩, by decide, rfl, rfl⟩

end MetadataState

end RagnorDb
