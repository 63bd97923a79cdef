import RagnorDb.Tablet.Invariant
import RagnorDb.Tablet.Snapshot

/-!
# Snapshots are transparent

A state that a log reaches is captured, and restoring the capture gives that state back.
Whatever is applied afterwards therefore answers and ends as without the snapshot.
-/

namespace RagnorDb

open Std Checked OrderedMap

namespace TabletStateMachine

variable {s : TabletStateMachine}

/-- The metadata of a state, as `encode_snapshot_state` collects it. -/
def snapshot (s : TabletStateMachine) : TabletStateMachineSnapshot where
  formatVersion := tabletStateMachineSnapshotVersion
  tabletId := s.tablet.id
  tabletEpoch := s.epoch
  raftGroupId := s.raftGroupId
  clients := rekey compare ClientDeduplicationKey.clientId s.clientDeduplication
  logicalCommands := s.logicalCommandDeduplication
  logicalClientRetryHorizons := s.logicalClientRetryHorizons
  transactionStatuses := s.transactionStatuses

theorem Inv.key_of_clientId (h : s.Inv) {key : ClientDeduplicationKey}
    (hkey : key ∈ s.clientDeduplication) :
    (⟨key.clientId, s.raftGroupId⟩ : ClientDeduplicationKey) = key := by
  obtain ⟨d, hd⟩ := exists_of_mem hkey
  rw [← (h.clients hd).1]

theorem Inv.clients_ne_zero (h : s.Inv) {clientId : ClientId} {d : ClientDeduplicationState}
    (hd : s.snapshot.clients[clientId]? = some d) : d.lastSequenceApplied ≠ 0 := by
  have hinjective : ∀ key ∈ s.clientDeduplication, ∀ key' ∈ s.clientDeduplication,
      key.clientId = key'.clientId → key = key' := by
    intro key hkey key' hkey' heq
    rw [← h.key_of_clientId hkey, heq, h.key_of_clientId hkey']
  obtain ⟨key, hkey, -⟩ := (getElem?_rekey hinjective).mp hd
  exact (h.clients hkey).2

/-- The metadata of a state passes its own validation. -/
theorem Inv.snapshot_validate (h : s.Inv) : s.snapshot.validate = .ok () := by
  have htoList : ∀ {κ β : Type} [Ord κ] [TransOrd κ] [LawfulEqOrd κ] {m : ExtTreeMap κ β compare}
      {e : κ × β}, e ∈ m.toList → m[e.1]? = some e.2 :=
    fun he => ExtTreeMap.mem_toList_iff_getElem?_eq_some.mp he
  simp only [TabletStateMachineSnapshot.validate, eq_ok', forM_eq_ok]
  refine ⟨rfl, h.tabletId, h.epoch, h.group, ?_, ?_, ?_, ?_⟩
  · rw [Bool.not_eq_true, List.any_eq_false]
    intro e he
    simpa using h.clients_ne_zero (htoList he)
  · intro e he
    exact (h.logical (htoList he)).1
  · intro e he
    have hsession := h.horizons (htoList he)
    simpa [TabletStateMachineSnapshot.validateHorizonKey] using hsession
  · intro e he
    obtain ⟨htxn, hgov⟩ := h.statuses (htoList he)
    simp only [TabletStateMachineSnapshot.validateStatus, eq_ok', TxnStatusRecord.validate_eq_ok,
      TxnStatusRecord.primaryTabletId_eq_ok]
    exact ⟨⟨hgov.identity, hgov.decision⟩, htxn.symm, _,
      ⟨⟨hgov.identity, hgov.decision⟩, rfl⟩, hgov.primary⟩

theorem Inv.exists_encodeSnapshotState (h : s.Inv) :
    ∃ image, s.encodeSnapshotState = .ok image ∧
      TabletStateMachineSnapshot.fromProto image = .ok s.snapshot := by
  obtain ⟨image, hencode, hdecode⟩ := TabletStateMachineSnapshot.exists_encode h.snapshot_validate
    fun e he => (h.logical (ExtTreeMap.mem_toList_iff_getElem?_eq_some.mp he)).2
  refine ⟨image, ?_, hdecode⟩
  change (do
    let snapshot ← (do
      s.snapshot.validate
      return s.snapshot)
    snapshot.encode) = .ok image
  rw [h.snapshot_validate]
  exact hencode

theorem Inv.restoreFromSnapshot (h : s.Inv) {image : TabletStateMachineSnapshot.Proto}
    (himage : TabletStateMachineSnapshot.fromProto image = .ok s.snapshot) :
    restoreFromSnapshot s.tablet image = .ok s := by
  simp only [TabletStateMachine.restoreFromSnapshot, himage, Except.mapError, eq_ok', forM_eq_ok]
  refine ⟨s.snapshot, rfl, rfl, ?_, ?_⟩
  · intro e he
    obtain ⟨-, hgov⟩ := h.statuses (ExtTreeMap.mem_toList_iff_getElem?_eq_some.mp he)
    simp only [validateRestoredStatus, eq_ok]
    exact hgov.owns
  · have hclients : rekey compare
        (fun clientId => (⟨clientId, s.raftGroupId⟩ : ClientDeduplicationKey))
        (rekey compare ClientDeduplicationKey.clientId s.clientDeduplication) =
          s.clientDeduplication :=
      rekey_rekey fun key hkey => h.key_of_clientId hkey
    simp [snapshot, hclients]

theorem Inv.withStorage (h : s.Inv) :
    Tablet.withStorage s.tablet.id s.tablet.tableId s.tablet.storage = .ok s.tablet := by
  simp [Tablet.withStorage, rejectIf, h.tabletId, h.tableId]

/-- The replica that a state is restored on. -/
def installTarget (s : TabletStateMachine) : TabletSnapshotInstallTarget where
  raftGroupId := s.raftGroupId
  tabletId := s.tablet.id
  tableId := s.tablet.tableId
  tabletEpoch := s.epoch

theorem Inv.exists_restore (h : s.Inv) :
    ∃ captured image, s.tablet.storage.captureSnapshotState = .ok captured ∧
      s.encodeSnapshotState = .ok image ∧
      InMemoryMvcc.restoreFromSnapshotEntries s.tablet.tableId captured.defaultValues
        captured.locks captured.writes = .ok s.tablet.storage ∧
      TabletStateMachineSnapshot.fromProto image = .ok s.snapshot ∧
      TabletStateMachine.restoreFromSnapshot s.tablet image = .ok s := by
  obtain ⟨captured, hcapture, hrestore⟩ :=
    InMemoryMvcc.restore_captureSnapshotState h.storage h.inTable
  obtain ⟨image, hencode, hdecode⟩ := h.exists_encodeSnapshotState
  exact ⟨captured, image, hcapture, hencode, hrestore, hdecode, h.restoreFromSnapshot hdecode⟩

theorem Inv.restoreVerifiedSnapshot (h : s.Inv) :
    ∃ payload, s.generateLocalSnapshot = .ok payload ∧
      restoreVerifiedSnapshot payload s.installTarget = .ok s := by
  obtain ⟨captured, image, hcapture, hencode, hstorage, hdecode, hrestore⟩ := h.exists_restore
  refine ⟨⟨tabletSnapshotPayloadVersion, some s.tablet.tableId, image, captured⟩, ?_, ?_⟩
  · simp [generateLocalSnapshot, hencode, hcapture, Except.mapError]
  · simp only [RagnorDb.restoreVerifiedSnapshot, eq_ok']
    exact ⟨trivial, s.tablet.tableId, rfl, rfl, s.snapshot, hdecode, ⟨rfl, rfl, rfl⟩,
      s.tablet.storage, hstorage, s.tablet, h.withStorage, hrestore⟩

/-! ## Logs across a snapshot -/

/-- The answers to the envelopes of a log, and the state after it. -/
def applyAll : List TabletCommandEnvelope → TabletStateMachine →
    List (Except TabletCommandApplyError TabletCommandApplyOutcome) × TabletStateMachine
  | [], s => ([], s)
  | envelope :: log, s =>
    let rest := applyAll log (after (apply envelope) s)
    (answer (apply envelope) s :: rest.1, rest.2)

theorem applyAll_append (p q : List TabletCommandEnvelope) (s : TabletStateMachine) :
    applyAll (p ++ q) s =
      ((applyAll p s).1 ++ (applyAll q (applyAll p s).2).1, (applyAll q (applyAll p s).2).2) := by
  induction p generalizing s with
  | nil => rfl
  | cons envelope p ih => simp [applyAll, ih]

theorem steps_applyAll (log : List TabletCommandEnvelope) (s : TabletStateMachine) :
    tabletLog.Steps s log (applyAll log s).2 := by
  induction log generalizing s with
  | nil => exact .nil s
  | cons envelope log ih => exact .cons rfl (ih _)

/-- Snapshots are transparent: after any log `p`, capture and restore succeed, and applying
`q` to what was restored answers and ends as applying `p` and then `q` without a snapshot. -/
theorem snapshot_transparent {s₀ : TabletStateMachine} (h : tabletLog.init s₀)
    (p q : List TabletCommandEnvelope) : let s := (applyAll p s₀).2
    ∃ captured image storage tablet restored,
      s.tablet.storage.captureSnapshotState = .ok captured ∧
      s.encodeSnapshotState = .ok image ∧
      InMemoryMvcc.restoreFromSnapshotEntries s.tablet.tableId captured.defaultValues
        captured.locks captured.writes = .ok storage ∧
      Tablet.withStorage s.tablet.id s.tablet.tableId storage = .ok tablet ∧
      restoreFromSnapshot tablet image = .ok restored ∧
      (∃ payload, s.generateLocalSnapshot = .ok payload ∧
        restoreVerifiedSnapshot payload s.installTarget = .ok restored) ∧
      restored = s ∧
      (applyAll p s₀).1 ++ (applyAll q restored).1 = (applyAll (p ++ q) s₀).1 ∧
      (applyAll q restored).2 = (applyAll (p ++ q) s₀).2 := by
  intro s
  have hinv : s.Inv := inv_of_reachable ⟨s₀, p, h, steps_applyAll p s₀⟩
  obtain ⟨captured, image, hcapture, hencode, hstorage, -, hrestore⟩ := hinv.exists_restore
  refine ⟨captured, image, s.tablet.storage, s.tablet, s, hcapture, hencode, hstorage,
    hinv.withStorage, hrestore, hinv.restoreVerifiedSnapshot, rfl, ?_⟩
  rw [applyAll_append]
  exact ⟨rfl, rfl⟩

/-- A retry after a restore is answered from the restored cache. -/
theorem snapshot_transparent_sample :
    let envelope := sampleEnvelope 5 2 sampleCommand
    let s := (applyAll [envelope] sampleMachine).2
    ∃ payload restored, s.generateLocalSnapshot = .ok payload ∧
      restoreVerifiedSnapshot payload s.installTarget = .ok restored ∧
      (applyAll [envelope] restored).1 = [.ok ⟨.singleShardCommit, true⟩] := by
  intro envelope s
  obtain ⟨_, _, _, _, restored, -, -, -, -, -, ⟨payload, hpayload, hrestore⟩, -, hanswers, -⟩ :=
    snapshot_transparent sampleMachine_init [envelope] [envelope]
  have hrun : (applyAll ([envelope] ++ [envelope]) sampleMachine).1 =
      [.ok ⟨.singleShardCommit, false⟩, .ok ⟨.singleShardCommit, true⟩] := by decide +kernel
  have hfirst : (applyAll [envelope] sampleMachine).1 = [.ok ⟨.singleShardCommit, false⟩] := by
    decide +kernel
  refine ⟨payload, restored, hpayload, hrestore, ?_⟩
  rw [hrun, hfirst] at hanswers
  simpa using hanswers

end TabletStateMachine

end RagnorDb
