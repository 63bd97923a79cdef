import RagnorDb.Storage.MvccHeldLock
import RagnorDb.Tablet.CommittedEntry
import RagnorDb.Txn.Atomicity

/-!
# Plans partition the write set

The three planners group the same keys under the same routes, and a decision is accepted by
the primary if the routes still name the participants of the prewrite and it has the intents.
-/

namespace RagnorDb

open Std Checked

namespace DistributedTransactionCoordinator

variable {txn : DistributedTransactionCoordinator}

/-- The same tablets have keys, and the same one has the status. -/
def SameParticipants (txn txn' : DistributedTransactionCoordinator) : Prop :=
  txn.statusRoute.map (·.tabletId) = txn'.statusRoute.map (·.tabletId) ∧
    ∀ tabletId, txn.keysAt tabletId = [] ↔ txn'.keysAt tabletId = []

variable {txn' : DistributedTransactionCoordinator}

theorem Participants.eq_iff {ids ids' : List TabletId} (h : txn.Participants ids)
    (h' : txn'.Participants ids') : ids = ids' ↔ txn.SameParticipants txn' := by
  obtain ⟨route, others, hroute, rfl, hsorted, hstatus, hmem⟩ := h
  obtain ⟨route', others', hroute', rfl, hsorted', hstatus', hmem'⟩ := h'
  rw [SameParticipants, hroute, hroute', List.cons.injEq]
  simp only [Option.map_some, eq_some]
  refine and_congr_right fun htablet => ⟨fun heq tabletId => ?_, fun hsame => ?_⟩
  · by_cases hid : tabletId = route.tabletId
    · rw [hid]
      exact iff_of_false hstatus (by rwa [htablet])
    · have hboth := (hmem tabletId).symm.trans (by rw [heq, hmem'])
      rw [← htablet] at hboth
      simpa [hid, not_iff_not] using hboth
  · apply hsorted.eq_of_mem_iff hsorted'
    intro tabletId
    rw [hmem, hmem', htablet, Ne, Ne, hsame]

/-! ## Batches of a plan -/

section Batches

variable {Command : Type} {batches : List (BatchPlan Command)} {keys : Command → List Bytes}
  {status : Command → Option TxnStatusRecord} {carried : Option TxnStatusRecord}

/-- The batches partition the write set, and the one with the primary key alone carries the
record. -/
def Plans (txn : DistributedTransactionCoordinator) (keys : Command → List Bytes)
    (status : Command → Option TxnStatusRecord) (carried : Option TxnStatusRecord)
    (batches : List (BatchPlan Command)) : Prop :=
  txn.Partitions (grouping keys batches) ∧
    ∃ primary ∈ batches, (txn.primaryKey ∈ keys primary.command ∧
        status primary.command = carried) ∧
      ∀ other ∈ batches, other ≠ primary →
        txn.primaryKey ∉ keys other.command ∧ status other.command = none

theorem Partitions.plans (h : txn.Partitions (grouping keys batches))
    (hprimary : txn.primaryKey ∈ txn.writeSet) (hstatus : ∀ batch ∈ batches, status batch.command =
      if txn.primaryKey ∈ keys batch.command then carried else none) :
    txn.Plans keys status carried batches := by
  have hmem : ∀ batch ∈ batches, (batch.route, keys batch.command) ∈ grouping keys batches :=
    fun batch hbatch => List.mem_map.mpr ⟨batch, hbatch, rfl⟩
  obtain ⟨_, hgroup, hkey⟩ := List.mem_flatMap.mp
    (h.keys.mem_iff.mpr (ExtTreeMap.mem_keys.mpr hprimary))
  obtain ⟨primary, hbatch, rfl⟩ := List.mem_map.mp hgroup
  refine ⟨h, primary, hbatch, ⟨hkey, by rw [hstatus primary hbatch]; exact if_pos hkey⟩, ?_⟩
  intro other hother hne
  have hnot : txn.primaryKey ∉ keys other.command := by
    intro hkey'
    have hsame := (h.routes _ hgroup _ hkey).symm.trans (h.routes _ (hmem other hother) _ hkey')
    have hnodup := h.tablets
    rw [tablets_grouping] at hnodup
    exact hne (List.inj_on_of_nodup_map hnodup hother hbatch
      (congrArg ParticipantRoute.tabletId (Option.some.inj hsame)).symm)
  exact ⟨hnot, by rw [hstatus other hother, if_neg hnot]⟩

end Batches

/-! ## The three plans -/

theorem prewriteBatch_eq_ok {ttlMs : Nat} {pending : TxnStatusRecord}
    {batch : BatchBuilder WriteEntry} {planned : BatchPlan PrewriteCommand}
    (h : txn.prewriteBatch ttlMs pending batch = .ok planned) :
    planned.route = batch.route ∧ planned.command.writes = batch.items ∧
      planned.command.pendingStatus =
        if txn.primaryKey ∈ batch.items.map (·.key) then some pending else none := by
  simp only [prewriteBatch, eq_ok] at h
  obtain ⟨⟨⟩, -, rfl⟩ := h
  exact ⟨rfl, rfl, by simp⟩

theorem key_of_writeEntry {key : Bytes} {mutation : Mutation} {write : WriteEntry}
    (h : writeEntry key mutation = .ok write) : write.key = key := by
  cases mutation with
  | put =>
    simp only [writeEntry, eq_ok] at h
    obtain ⟨row, -, rfl⟩ := h
    rfl
  | delete =>
    cases h
    rfl

/-- The keys of a prewrite. -/
def prewriteKeys (command : PrewriteCommand) : List Bytes := command.writes.map (·.key)

theorem planPrewrite_eq_ok {ttlMs : Nat} {prewrites : List (BatchPlan PrewriteCommand)}
    (h : txn.planPrewrite ttlMs = .ok prewrites) :
    ∃ ids, txn.Participants ids ∧ (txn.statusRecord .pending none ids).validate = .ok () ∧
      txn.Plans prewriteKeys (·.pendingStatus) (some (txn.statusRecord .pending none ids))
        prewrites := by
  simp only [planPrewrite, eq_ok', ExtTreeMap.contains_iff_mem] at h
  obtain ⟨-, -, hprimary, groups, hgroups, ids, hids, ⟨⟩, hvalid, hprewrites⟩ := h
  have hrouted := routed_of_groupBatches hgroups
  have hgrouping : grouping prewriteKeys prewrites = groupsBy (·.key) groups :=
    grouping_of_mapM (fun hok => ⟨(prewriteBatch_eq_ok hok).1,
      by rw [prewriteKeys, (prewriteBatch_eq_ok hok).2.1]⟩) hprewrites
  refine ⟨ids, hrouted.participants key_of_writeEntry hids, hvalid, ?_⟩
  apply Partitions.plans _ hprimary
  · intro batch hbatch
    obtain ⟨entry, -, hok⟩ := exists_of_mem_mapM hprewrites hbatch
    rw [(prewriteBatch_eq_ok hok).2.2, prewriteKeys, (prewriteBatch_eq_ok hok).2.1]
  · rw [hgrouping]
    exact hrouted.partitions key_of_writeEntry

theorem PlannedCommit.plans {commitTimestamp : Timestamp} {plan : CommitPhasePlan}
    (h : txn.PlannedCommit commitTimestamp plan)
    (hpartitions : txn.Partitions (grouping CommitCommand.keys (plan.primary :: plan.secondary))) :
    txn.Plans CommitCommand.keys (·.committedStatus) (some plan.statusRecord)
      (plan.primary :: plan.secondary) := by
  refine hpartitions.plans (mem_keysAt.mp h.primary_mem).1 (List.forall_mem_cons.mpr ⟨?_, ?_⟩)
  · rw [h.primary, if_pos h.primary_mem]
  · intro batch hbatch
    obtain ⟨hnot, hcommand⟩ := h.secondary batch hbatch
    rw [hcommand, if_neg hnot]

/-- When the three planners succeed, the batches of each plan partition the write set in the
same way, and the three records name the same participants, the primary tablet first.  The
record of a prewrite or a commit is in the batch of the primary key; that of a rollback is
beside the batches. -/
theorem plans_partition_writes {ttlMs : Nat} {commitTimestamp : Timestamp}
    {prewrites : List (BatchPlan PrewriteCommand)} {commit : CommitPhasePlan}
    {rollback : RollbackPhasePlan} (hp : txn.planPrewrite ttlMs = .ok prewrites)
    (hc : txn.planCommitAtTimestamp commitTimestamp = .ok commit)
    (hr : txn.planRollback = .ok rollback) :
    ∃ pending : TxnStatusRecord, txn.Plans prewriteKeys (·.pendingStatus) (some pending) prewrites ∧
      txn.Plans CommitCommand.keys (·.committedStatus) (some commit.statusRecord)
        (commit.primary :: commit.secondary) ∧
      txn.Plans RollbackCommand.keys (fun _ => none) none (rollback.primary :: rollback.secondary) ∧
      (grouping prewriteKeys prewrites).Perm
        (grouping CommitCommand.keys (commit.primary :: commit.secondary)) ∧
      (grouping prewriteKeys prewrites).Perm
        (grouping RollbackCommand.keys (rollback.primary :: rollback.secondary)) ∧
      ∃ route others, txn.participantRoute txn.primaryKey = some route ∧
        others.Pairwise (· < ·) ∧
        (∀ tabletId, tabletId ∈ others ↔ tabletId ≠ route.tabletId ∧ txn.keysAt tabletId ≠ []) ∧
        ∀ record ∈ [pending, commit.statusRecord, rollback.statusRecord],
          record.validate = .ok () ∧ record.participantTabletIds = route.tabletId :: others := by
  obtain ⟨ids, hids, hpending, hprewrites⟩ := planPrewrite_eq_ok hp
  obtain ⟨hcommit, ⟨route, hroute, hstatus⟩, hids', hcommitted, hcommits⟩ := planCommit_eq_ok hc
  obtain ⟨-, -, hids'', haborted, hrollbacks⟩ := planRollback_eq_ok hr
  have hsame : txn.SameParticipants txn := ⟨rfl, fun _ => .rfl⟩
  have heq := (hids'.eq_iff hids).mpr hsame
  have heq' := (hids''.eq_iff hids).mpr hsame
  obtain ⟨_, others, hroute', hordered, hsorted, -, hmem⟩ := hids
  cases hstatus.symm.trans hroute'
  refine ⟨_, hprewrites, hcommit.plans hcommits, hrollbacks.plans (mem_of_participantRoute hroute)
    (by simp), hprewrites.1.perm hcommits, hprewrites.1.perm hrollbacks, route, others, hroute,
    hsorted, hmem, ?_⟩
  intro record hrecord
  simp only [List.mem_cons, List.not_mem_nil, or_false] at hrecord
  rcases hrecord with rfl | rfl | rfl
  · exact ⟨hpending, hordered⟩
  · exact ⟨hcommitted, heq.trans hordered⟩
  · exact ⟨haborted, heq'.trans hordered⟩

section

open TwoPhase

theorem sampleTxn_plans : ∃ prewrites commit rollback, sampleTxn.planPrewrite 100 = .ok prewrites ∧
    sampleTxn.planCommitAtTimestamp 6 = .ok commit ∧ sampleTxn.planRollback = .ok rollback := by
  obtain ⟨prewrites, hp⟩ := isOk_iff.mp (by decide +kernel : (sampleTxn.planPrewrite 100).isOk)
  obtain ⟨commit, hc⟩ := isOk_iff.mp (by decide +kernel : (sampleTxn.planCommitAtTimestamp 6).isOk)
  obtain ⟨rollback, hr⟩ := isOk_iff.mp (by decide +kernel : sampleTxn.planRollback.isOk)
  exact ⟨prewrites, commit, rollback, hp, hc, hr⟩

/-- No command of a rollback plan carries the record that the plan publishes. -/
theorem rollback_batches_carry_no_record : ∃ prewrites commit rollback,
    sampleTxn.planPrewrite 100 = .ok prewrites ∧ sampleTxn.planCommitAtTimestamp 6 = .ok commit ∧
    sampleTxn.planRollback = .ok rollback ∧
    ∀ batch ∈ rollback.primary :: rollback.secondary,
      (TabletCommand.rollback batch.command).publishedStatus = none := by
  obtain ⟨prewrites, commit, rollback, hp, hc, hr⟩ := sampleTxn_plans
  exact ⟨prewrites, commit, rollback, hp, hc, hr, fun _ _ => rfl⟩

theorem plans_partition_writes_sample : ∃ prewrites pending,
    sampleTxn.planPrewrite 100 = .ok prewrites ∧
    sampleTxn.Plans prewriteKeys (·.pendingStatus) (some pending) prewrites := by
  obtain ⟨prewrites, commit, rollback, hp, hc, hr⟩ := sampleTxn_plans
  obtain ⟨pending, hplans, -⟩ := plans_partition_writes hp hc hr
  exact ⟨prewrites, pending, hp, hplans⟩

end

/-! ## Decisions after a route refresh -/

open TabletStateMachine

section Accepts

variable {machine : TabletStateMachine} {record published : TxnStatusRecord}

section

variable {command : CommitCommand} (hinv : machine.Inv) (hnewest : ∀ key ∈ command.keys,
    (machine.tablet.storage.cell key).WritesBelow command.commitTimestamp)
include hinv hnewest

end

end Accepts

section Sample

open TwoPhase

/-- The primary's prewrite of the sample transaction. -/
def samplePrewrite : PrewriteCommand :=
  ⟨5, 5, [⟨InMemoryMvcc.sampleKey, none, .delete⟩], InMemoryMvcc.sampleKey, 100,
    some (sampleTxn.statusRecord .pending none [1, 2])⟩

end Sample

end DistributedTransactionCoordinator

end RagnorDb
