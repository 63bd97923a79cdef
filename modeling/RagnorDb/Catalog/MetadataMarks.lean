import RagnorDb.Catalog.MetadataStep

/-!
# The identity marks of the metadata allocator

A mark is at least every identity of its kind that a log has published so far.  For replicas
this needs two things that the handlers do not check: CREATE TABLE assigns the mark of the
replicas instead of raising it, and a retirement does not raise it at all.
-/

namespace RagnorDb

open Std Checked OrderedMap

variable {a b : MetadataAllocatorState}

/-- No mark of the first exceeds that of the second. -/
structure MetadataAllocatorState.Le (a b : MetadataAllocatorState) : Prop where
  maxTableId : a.maxTableId ≤ b.maxTableId
  maxTabletId : a.maxTabletId ≤ b.maxTabletId
  maxRaftGroupId : a.maxRaftGroupId ≤ b.maxRaftGroupId
  maxReplicaId : a.maxReplicaId ≤ b.maxReplicaId

theorem MetadataAllocatorState.Le.refl (a : MetadataAllocatorState) : a.Le a :=
  ⟨Nat.le_refl _, Nat.le_refl _, Nat.le_refl _, Nat.le_refl _⟩

theorem MetadataAllocatorState.Le.trans {c : MetadataAllocatorState} (h : a.Le b)
    (h' : b.Le c) : a.Le c where
  maxTableId := Nat.le_trans h.maxTableId h'.maxTableId
  maxTabletId := Nat.le_trans h.maxTabletId h'.maxTabletId
  maxRaftGroupId := Nat.le_trans h.maxRaftGroupId h'.maxRaftGroupId
  maxReplicaId := Nat.le_trans h.maxReplicaId h'.maxReplicaId

/-- The marks bound every identity in the tables, tablets, desired placements and retirement
records of a state. -/
structure MetadataAllocatorState.Covers (marks : MetadataAllocatorState) (s : MetadataState) :
    Prop where
  tables : Each (fun id table => table.id = id ∧ id ≤ marks.maxTableId) s.tables
  tablets : Each (fun id tablet => (tablet.tabletId = id ∧ id ≤ marks.maxTabletId) ∧
    tablet.tableId ≤ marks.maxTableId ∧ tablet.raftGroupId ≤ marks.maxRaftGroupId) s.tablets
  placements : Each (fun id placement => placement.tabletId = id ∧ id ≤ marks.maxTabletId)
    s.desiredPlacements
  replicas : PlacedBelow marks.maxReplicaId s.desiredPlacements
  groups : Each (fun group _ => group ≤ marks.maxRaftGroupId) s.tabletIdsByRaftGroup
  retirements : Each (fun _ retirement => retirement.raftGroupId ≤ marks.maxRaftGroupId ∧
    retirement.replicaId ≤ marks.maxReplicaId) s.retiredReplicas

theorem MetadataAllocatorState.Covers.mono {s : MetadataState}
    (h : a.Covers s) (hle : a.Le b) : b.Covers s where
  tables := h.tables.imp fun _ _ _ hid => ⟨hid.1, Nat.le_trans hid.2 hle.maxTableId⟩
  tablets := h.tablets.imp fun _ _ _ hid => ⟨⟨hid.1.1, Nat.le_trans hid.1.2 hle.maxTabletId⟩,
    Nat.le_trans hid.2.1 hle.maxTableId, Nat.le_trans hid.2.2 hle.maxRaftGroupId⟩
  placements := h.placements.imp fun _ _ _ hid => ⟨hid.1, Nat.le_trans hid.2 hle.maxTabletId⟩
  replicas := h.replicas.imp fun _ _ _ hid replica hmem =>
    Nat.le_trans (hid replica hmem) hle.maxReplicaId
  groups := h.groups.imp fun _ _ _ hid => Nat.le_trans hid hle.maxRaftGroupId
  retirements := h.retirements.imp fun _ _ _ hid => ⟨Nat.le_trans hid.1 hle.maxRaftGroupId,
    Nat.le_trans hid.2 hle.maxReplicaId⟩

namespace MetadataState

variable {s t : MetadataState} {command : MetadataCommand} {accepted : Accepted} {entry : LogEntry}
variable {id : ReplicaId}

theorem covers_new : new.allocator.Covers new :=
  ⟨.empty, .empty, .empty, .empty, .empty, .empty⟩

/-- CREATE TABLE does not lower the mark of the replicas, and a retirement names a replica
that the mark covers. -/
def KeepsMarks (s : MetadataState) (entry : LogEntry) : Prop :=
  match entry.2 with
  | .createTableTopology _ => s.allocator.maxReplicaId ≤ s.initialReplicaCount
  | .recordReplicaRetirement retirement => retirement.replicaId ≤ s.allocator.maxReplicaId
  | _ => True

instance (s : MetadataState) (entry : LogEntry) : Decidable (s.KeepsMarks entry) := by
  unfold KeepsMarks
  induction entry.2 using MetadataCommand.casesOn <;> infer_instance

section

variable (h : s.Change command accepted)
include h

theorem Change.replica_mark
    (hcount : ∀ request, command = .createTableTopology request →
      s.allocator.maxReplicaId ≤ s.initialReplicaCount) :
    s.allocator.maxReplicaId ≤ accepted.2.allocator.maxReplicaId := by
  cases h with
  | place => exact Nat.le_max_left _ _
  | createTopology hselect hne => exact le_topology_mark hselect hne (hcount _ rfl) _
  | _ => exact Nat.le_refl _

/-- The step lemma: the marks do not fall, and cover what the change publishes. -/
theorem Change.covers (hmark : s.allocator.maxReplicaId ≤ accepted.2.allocator.maxReplicaId)
    (hretired : ∀ retirement,
      command = .recordReplicaRetirement retirement →
        retirement.replicaId ≤ s.allocator.maxReplicaId)
    (hold : s.allocator.Covers s) : accepted.2.allocator.Covers accepted.2 := by
  obtain ⟨htable, htablet, hgroup⟩ := h.marks
  have hcovers : accepted.2.allocator.Covers s := hold.mono ⟨htable, htablet, hgroup, hmark⟩
  have hplaced := h.placed_le_of_kept hcovers.replicas
  cases h with
  | createTable =>
    exact { hcovers with tables := hcovers.tables.insert ⟨rfl, Nat.le_max_right _ _⟩ }
  | updateSchema _ hexisting =>
    exact { hcovers with tables := hcovers.tables.insert ⟨rfl, (hold.tables hexisting).2⟩ }
  | createTablet _ _ hexisting _ =>
    exact
      { hcovers with
        tablets := hcovers.tablets.insert
          ⟨⟨rfl, Nat.le_max_right _ _⟩, (hold.tables hexisting).2, Nat.le_max_right _ _⟩
        groups := hcovers.groups.insert (Nat.le_max_right _ _) }
  | createTopology =>
    exact
      { hcovers with
        tables := hcovers.tables.insert ⟨rfl, Nat.le_refl _⟩
        tablets := hcovers.tablets.insert
          ⟨⟨rfl, Nat.le_refl _⟩, Nat.le_refl _, Nat.le_refl _⟩
        placements := hcovers.placements.insert ⟨rfl, Nat.le_refl _⟩
        replicas := hplaced
        groups := hcovers.groups.insert (Nat.le_refl _) }
  | place hexisting =>
    exact
      { hcovers with
        placements := hcovers.placements.insert ⟨rfl, (hold.tablets hexisting).1.2⟩
        replicas := hplaced }
  | retire hknown =>
    exact
      { hcovers with
        retirements := hcovers.retirements.insert ⟨hold.groups hknown, hretired _ rfl⟩ }
  | _ => exact { hcovers with }

end

theorem Moves.covers (h : s.Moves entry.2 t) (hkeeps : s.KeepsMarks entry)
    (hold : s.allocator.Covers s) : s.allocator.Le t.allocator ∧ t.allocator.Covers t := by
  cases h with
  | stays => exact ⟨.refl _, hold⟩
  | initializes => exact ⟨.refl _, { hold with }⟩
  | changes _ _ hchange =>
    have hmark := hchange.replica_mark fun request heq => by
      simpa only [KeepsMarks, heq] using hkeeps
    have hcovers := hchange.covers hmark (fun retirement heq => by
      simpa only [KeepsMarks, heq] using hkeeps) hold
    obtain ⟨htable, htablet, hgroup⟩ := hchange.marks
    exact ⟨⟨htable, htablet, hgroup, hmark⟩, hcovers⟩

theorem covers_of_step (hstep : (metadataLog.restrict KeepsMarks).step s entry t)
    (hold : s.allocator.Covers s) : s.allocator.Le t.allocator ∧ t.allocator.Covers t := by
  obtain ⟨hkeeps, hstep⟩ := hstep
  obtain ⟨moved, requests, hmoves, rfl⟩ := moves_of_step hstep
  obtain ⟨hle, hcovers⟩ := hmoves.covers hkeeps hold
  exact ⟨hle, { hcovers with }⟩

theorem covers_of_reachable (h : (metadataLog.restrict KeepsMarks).Reachable s) :
    s.allocator.Covers s := by
  refine h.invariant ?_ fun _ hold hstep => (covers_of_step hstep hold).2
  rintro s rfl
  exact covers_new

/-- A state shows a replica identity in a desired placement or in a retirement record. -/
def ShowsReplica (s : MetadataState) (id : ReplicaId) : Prop :=
  (∃ tabletId placement, s.desiredPlacements[(tabletId : TabletId)]? = some placement ∧
    ∃ replica ∈ placement.replicas, replica.replicaId = id) ∨
  ∃ key retirement, s.retiredReplicas[(key : RaftGroupId × ReplicaId)]? = some retirement ∧
    retirement.replicaId = id

theorem le_of_showsReplica {marks : MetadataAllocatorState} (h : marks.Covers s)
    (hshows : s.ShowsReplica id) : id ≤ marks.maxReplicaId := by
  rcases hshows with ⟨_, placement, hplacement, replica, hmem, rfl⟩ | ⟨_, retirement, hkey, rfl⟩
  · exact h.replicas hplacement replica hmem
  · exact (h.retirements hkey).2

theorem eq_of_nextReplicaId (h : s.nextReplicaId = some id) :
    id = s.allocator.maxReplicaId + 1 := by
  simp only [nextReplicaId, Option.filter_eq_some_iff] at h
  exact eq_of_checkedAdd h.1

/-- Along a log that keeps them, the marks do not fall and bound every identity of every state
passed; so the next replica identity was in none of these states. -/
theorem allocator_marks_never_regress {log : List LogEntry}
    (hs : (metadataLog.restrict KeepsMarks).Reachable s)
    (h : (metadataLog.restrict KeepsMarks).Steps s log t) :
    s.allocator.Le t.allocator ∧ t.allocator.Covers s ∧
      ∀ id, t.nextReplicaId = some id → ¬ s.ShowsReplica id := by
  have hle : s.allocator.Le t.allocator :=
    h.relates (R := fun s t => s.allocator.Le t.allocator) (fun _ => .refl _)
      (fun hab hbc => hab.trans hbc)
      (fun hr hstep => (covers_of_step hstep (covers_of_reachable hr)).1) hs
  have hcovers := (covers_of_reachable hs).mono hle
  refine ⟨hle, hcovers, ?_⟩
  intro id hnext hshows
  have hbound := le_of_showsReplica hcovers hshows
  rw [eq_of_nextReplicaId hnext] at hbound
  exact Nat.not_succ_le_self _ hbound

/-- The replica of the sample table is replaced by replica 2. -/
def movedPlacement : DesiredReplicaPlacement :=
  ⟨2, 2, [⟨2, 1, .voter⟩], ⟨1, 0, 0, 0, none, []⟩⟩

theorem allocator_marks_never_regress_sample :
    ∃ s t, (metadataLog.restrict KeepsMarks).Reachable s ∧
      (metadataLog.restrict KeepsMarks).Steps s
        [(none, .setDesiredReplicaPlacement movedPlacement)] t ∧
      t.nextReplicaId = some 3 ∧ t.allocator.Covers s := by
  have hreachable : (metadataLog.restrict KeepsMarks).Reachable (new.afterLog sampleLog) :=
    ⟨_, _, rfl, steps_of_logMeets (by decide +kernel)⟩
  have hsteps : (metadataLog.restrict KeepsMarks).Steps (new.afterLog sampleLog)
      [(none, .setDesiredReplicaPlacement movedPlacement)] _ :=
        steps_of_logMeets (by decide +kernel)
  exact ⟨_, _, hreachable, hsteps, by decide +kernel,
    (allocator_marks_never_regress hreachable hsteps).2.1⟩

/-- A second table lowers the mark below replica 2, which is handed out again. -/
theorem allocator_marks_regress :
    ∃ s t, metadataLog.Reachable s ∧
      metadataLog.Steps s [(none, .createTableTopology (sampleRequest "b"))] t ∧
      s.allocator.maxReplicaId = 2 ∧ t.allocator.maxReplicaId = 1 ∧ s.ShowsReplica 2 ∧
      t.nextReplicaId = some 2 := by
  refine ⟨_, _, ⟨_, sampleLog ++ [(none, .setDesiredReplicaPlacement movedPlacement)], rfl,
    steps_afterLog _ _⟩, steps_afterLog _ _, by decide +kernel, by decide +kernel,
    .inl ⟨2, movedPlacement, by decide +kernel, _, List.mem_singleton_self _, rfl⟩,
    by decide +kernel⟩

end MetadataState

end RagnorDb
