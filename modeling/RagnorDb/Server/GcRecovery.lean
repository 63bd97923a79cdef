import RagnorDb.Server.GcAdmission

/-!
# Admission after an uncertain registration

A process whose metadata group answers again: each method runs to its end, with its publication
applied and the answer received.  A tracker that knows of its lease also knows since when nobody
needs it, and gives it up.  A registration that failed after it was applied has left a protection
that the tracker does not know of: no pass of the background task gives it up, and every later
registration is refused.
-/

namespace RagnorDb

open Std Checked OrderedMap MetadataState GcProtectionTracker GcProtectionPublication

/-- A method with its publication applied and answered. -/
def GcProcess.complete (m : MetadataState) (ownerId nowMs : Nat) (method : GcMethod) :
    GcPlan → GcProtectionTracker × MetadataState
  | (.ok (some publication), tracker) =>
    let answer := m.apply (publication.command ownerId nowMs)
    (settle tracker { method, publication, nowMs } (publication.result answer.1), answer.2)
  | (_, tracker) => (tracker, m)

namespace GcProtectionConfig

variable (config : GcProtectionConfig) (ownerId : Nat)

/-- `reconcile_gc_protection_once`, at a local instant and a wall-clock time. -/
def reconcilePass (state : GcProtectionTracker × MetadataState) (clock : Nat × Nat) :
    GcProtectionTracker × MetadataState :=
  GcProcess.complete state.2 ownerId clock.2 .reconciliation
    (config.reconcileGcProtectionOnce state.1 clock.1 clock.2)

/-- `register_gc_protection`. -/
def register (txnId : TxnId) (readTs : Timestamp) (nowMs : Nat)
    (state : GcProtectionTracker × MetadataState) : GcProtectionTracker × MetadataState :=
  GcProcess.complete state.2 ownerId nowMs (.registration txnId state.1.idleSince)
    (config.registerGcProtection state.1 txnId readTs nowMs)

/-- The metadata state without the protection of a process. -/
def released (m : MetadataState) : MetadataState :=
  { m with gcProtections := m.gcProtections.erase (ownerId, aggregateGcProtectionId) }

/-- The lease times of a clock reading fit into a `u64`. -/
abbrev Fits (nowMs : Nat) : Prop :=
  nowMs + config.gcProtectionLeaseMs + config.maxClockSkewMs ≤ u64Max

variable {config ownerId} {m : MetadataState} {nowMs : Nat}

theorem leaseTimes_of_fits (h : config.Fits nowMs) (boundaryError : String) :
    config.leaseTimes nowMs boundaryError = .ok (nowMs + config.gcProtectionLeaseMs,
      nowMs + config.gcProtectionLeaseMs / 2 + config.maxClockSkewMs) := by
  simp [leaseTimes, okOr, checkedAdd, pure, Except.pure,
    show nowMs + config.gcProtectionLeaseMs ≤ u64Max by omega,
    show nowMs + config.gcProtectionLeaseMs / 2 ≤ u64Max by omega,
    show nowMs + config.gcProtectionLeaseMs / 2 + config.maxClockSkewMs ≤ u64Max by omega]

variable {txnId : TxnId} {readTs : Timestamp} {clock : Nat × Nat} {healthy : Bool}
  {clocks : List (Nat × Nat)} {lease : PublishedLease} {idle : Nat} {idleSince : Option Nat}

theorem passes_of_unpublished (idleSince : Option Nat) (healthy : Bool) (m : MetadataState)
    (clocks : List (Nat × Nat)) : ∃ idleSince',
    clocks.foldl (config.reconcilePass ownerId) (⟨∅, none, idleSince, healthy⟩, m) =
      (⟨∅, none, idleSince', healthy⟩, m) := by
  induction clocks generalizing idleSince with
  | nil => exact ⟨_, rfl⟩
  | cons clock clocks ih =>
    rw [List.foldl_cons, reconcilePass, reconcileGcProtectionOnce]
    split
    · exact ih idleSince
    · cases idleSince with
      | none | some => exact ih none

section

variable (hinit : m.clusterId ≠ none) (howner : ownerId ≠ 0)
include hinit howner

/-- A process that is idle for its grace gives its protection up. -/
theorem reconcilePass_of_idle (hgrace : idle + config.gcProtectionIdleGrace ≤ clock.1)
    (hfits : config.Fits clock.2) :
    config.reconcilePass ownerId (⟨∅, some lease, some idle, healthy⟩, m) clock =
      (⟨∅, none, none, true⟩, released ownerId m) := by
  have hplan : config.reconcileGcProtectionOnce ⟨∅, some lease, some idle, healthy⟩ clock.1
      clock.2 = (.ok (some .release), ⟨∅, some lease, some idle, healthy⟩) := by
    rw [reconcileGcProtectionOnce, leaseTimes_of_fits hfits]
    dsimp only
    rw [reconcilePlan, show activeFloor _ = none from rfl]
    dsimp only
    rw [if_pos (by omega)]
  have happly : m.apply (.releaseGcProtection ownerId aggregateGcProtectionId) =
      (if (ownerId, aggregateGcProtectionId) ∈ m.gcProtections then .applied else .alreadyApplied,
        released ownerId m) := by
    simp [released, apply, tryApply, MetadataCommand.validate, validateGcProtectionIdentity,
      rejectIf,
      howner, aggregateGcProtectionId, handle, applyReleaseGcProtection, requireInitialized, hinit,
      Except.mapError, pure, Except.pure]
  rw [reconcilePass, hplan, GcProcess.complete, command, happly]
  split <;> rfl

theorem mem_register_iff (hfits : config.Fits nowMs) (hlease : 0 < config.gcProtectionLeaseMs)
    (hread : readTs ≠ 0) (hsafe : m.gcSafePoint ≤ readTs) :
    txnId ∈ (config.register ownerId txnId readTs nowMs
        (⟨∅, none, idleSince, healthy⟩, m)).1.active ↔ storedFor m ownerId = none := by
  have hplan : config.registerGcProtection ⟨∅, none, idleSince, healthy⟩ txnId readTs nowMs =
      (.ok (some (.register readTs (nowMs + config.gcProtectionLeaseMs))),
        ⟨(∅ : ExtTreeMap TxnId Timestamp).insert txnId readTs, none, none, healthy⟩) := by
    rw [registerGcProtection, leaseTimes_of_fits hfits]
    dsimp only
    rfl
  have hvalid : (MetadataCommand.registerGcProtection ⟨ownerId, aggregateGcProtectionId, readTs,
      nowMs + config.gcProtectionLeaseMs⟩ nowMs).validate = .ok () := by
    simp [MetadataCommand.validate, MetadataGcProtection.validateRequest, hread, howner,
      validateGcProtectionIdentity, validateLiveGcLease, aggregateGcProtectionId]
    omega
  simp only [register, hplan, GcProcess.complete, command, apply, tryApply, hvalid, handle,
    applyRegisterGcProtection, requireInitialized, rejectIf, hinit, Nat.not_lt.mpr hsafe, if_false,
    storedFor, Except.mapError, ok_bind]
  cases m.gcProtections[(ownerId, aggregateGcProtectionId)]? with
  | none => simp [GcProcess.settle, registerSettle, result, storePublication, pure, Except.pure]
  | some existing =>
    by_cases hsame : existing.protectedTimestamp = readTs <;>
      simp [hsame, GcProcess.settle, registerSettle, result, withdraw]

theorem admitted_of_unpublished_iff {tracker : GcProtectionTracker} (hactive : tracker.active = ∅)
    (hnone : tracker.published = none) (hlease : 0 < config.gcProtectionLeaseMs)
    (hfits : config.Fits nowMs) (hread : readTs ≠ 0) (hsafe : m.gcSafePoint ≤ readTs) :
    txnId ∈ (config.register ownerId txnId readTs nowMs
        (clocks.foldl (config.reconcilePass ownerId) (tracker, m))).1.active ↔
      storedFor m ownerId = none := by
  obtain ⟨active, published, idleSince, healthy⟩ := tracker
  obtain rfl : active = ∅ := hactive
  obtain rfl : published = none := hnone
  obtain ⟨idleSince', hpasses⟩ := passes_of_unpublished idleSince healthy m clocks
  rw [hpasses, mem_register_iff hinit howner hfits hlease hread hsafe]

end

open GcCluster

variable {s : GcCluster}

/-- From every state that the processes reach: after passes that begin when the idle grace is over,
a process without readers admits one at or above the safe point exactly if its tracker knew of a
lease or metadata stored none. -/
theorem admitted_after_passes_iff (hs : (system config).Reachable s)
    (hinit : s.metadata.clusterId ≠ none) (howner : ownerId ≠ 0)
    (hactive : (s.processes ownerId).tracker.active = ∅)
    (hpasses : ∀ idle ∈ (s.processes ownerId).tracker.idleSince, ∃ clock ∈ clocks.head?,
      idle + config.gcProtectionIdleGrace ≤ clock.1 ∧ config.Fits clock.2)
    (hlease : 0 < config.gcProtectionLeaseMs) (hfits : config.Fits nowMs) (hread : readTs ≠ 0)
    (hsafe : s.metadata.gcSafePoint ≤ readTs) :
    txnId ∈ (config.register ownerId txnId readTs nowMs
        (clocks.foldl (config.reconcilePass ownerId)
          ((s.processes ownerId).tracker, s.metadata))).1.active ↔
      (s.processes ownerId).tracker.published ≠ none ∨ storedFor s.metadata ownerId = none := by
  have hknows := ((inv_of_reachable hs).process ownerId).knowsIdle
  generalize (s.processes ownerId).tracker = tracker at hactive hpasses hknows ⊢
  cases hpublished : tracker.published with
  | none => simpa using
      admitted_of_unpublished_iff hinit howner hactive hpublished hlease hfits hread hsafe
  | some lease =>
    obtain ⟨idle, hsince⟩ := Option.ne_none_iff_exists'.mp (hknows hactive (by simp [hpublished]))
    obtain ⟨clock, hclock, hgrace, hclockFits⟩ := hpasses idle hsince
    obtain ⟨active, published, idleSince, healthy⟩ := tracker
    obtain rfl : active = ∅ := hactive
    obtain rfl : published = _ := hpublished
    obtain rfl : idleSince = _ := hsince
    obtain ⟨later, rfl⟩ := List.head?_eq_some_iff.mp hclock
    rw [List.foldl_cons, reconcilePass_of_idle hinit howner hgrace hclockFits,
      admitted_of_unpublished_iff (m := released ownerId s.metadata) hinit howner rfl rfl hlease
        hfits hread hsafe]
    simp [storedFor, released]

/-- A reader is admitted and leaves at 20; its process admits another one after a pass at 30. -/
theorem admitted_after_passes_sample :
    ∃ s, (system sampleConfig).Reachable s ∧
      (s.processes 1).tracker.published = some ⟨5, 110⟩ ∧
      (2 : TxnId) ∈ (sampleConfig.register 1 2 6 50
        ([(30, 40)].foldl (sampleConfig.reconcilePass 1)
          ((s.processes 1).tracker, s.metadata))).1.active := by
  have hrun : (List.foldlM (next sampleConfig) ⟨.new, fun _ => {}, 0⟩
      [.propose (none, .clusterInitialized "c"), .register 1 1 5 10, .deliver 1, .answer 1,
        .releaseLocal 1 1 20]).map (fun s =>
      ((s.processes 1).tracker.active.isEmpty, (s.processes 1).tracker.published,
        (s.processes 1).tracker.idleSince, s.metadata.clusterId.isSome, s.metadata.gcSafePoint)) =
      some (true, some ⟨5, 110⟩, some 20, true, 0) := by
    decide +kernel
  obtain ⟨s, hs, hstate⟩ := Lts.Reachable.of_run (L := system _) hrun
    ⟨.of_init rfl, fun _ => ⟨rfl, by simp [new]⟩⟩ id
  simp only [Prod.mk.injEq, ExtTreeMap.isEmpty_iff] at hstate
  obtain ⟨hactive, hpublished, hidle, hcluster, hsafe⟩ := hstate
  have hpasses : ∀ idle ∈ (s.processes 1).tracker.idleSince, ∃ clock ∈ [(30, 40)].head?,
      idle + sampleConfig.gcProtectionIdleGrace ≤ clock.1 ∧
        sampleConfig.Fits clock.2 := by
    rw [hidle]
    rintro _ ⟨⟩
    exact ⟨(30, 40), rfl, by decide, by decide⟩
  exact ⟨s, hs, hpublished, (admitted_after_passes_iff hs (Option.isSome_iff_ne_none.mp hcluster)
    (by decide) hactive hpasses (by decide) (by decide) (by decide) (by simp [hsafe])).mpr
      (.inl (by simp [hpublished]))⟩

/-- A first registration times out after it was applied: no pass lets a later reader in. -/
theorem uncertain_registration_blocks_admission :
    ∃ s, (system sampleConfig).Reachable s ∧ (s.processes 1).call.isNone ∧
      (s.processes 1).tracker.active = ∅ ∧ s.metadata.gcSafePoint ≤ 6 ∧
      ∀ (clocks : List (Nat × Nat)) txnId nowMs, sampleConfig.Fits nowMs →
        txnId ∉ (sampleConfig.register 1 txnId 6 nowMs
          (clocks.foldl (sampleConfig.reconcilePass 1)
            ((s.processes 1).tracker, s.metadata))).1.active := by
  have hrun : (List.foldlM (next sampleConfig) ⟨.new, fun _ => {}, 0⟩
      [.propose (none, .clusterInitialized "c"), .register 1 1 5 10, .deliver 1,
        .fail 1 (.proposalUnavailable "timeout")]).map (fun s =>
      ((s.processes 1).call.isNone, (s.processes 1).tracker.active.isEmpty,
        (s.processes 1).tracker.published, s.metadata.clusterId.isSome,
        s.metadata.gcSafePoint, (storedFor s.metadata 1).isSome)) =
      some (true, true, none, true, 0, true) := by
    decide +kernel
  obtain ⟨s, hreachable, hstate⟩ := Lts.Reachable.of_run (L := system _) hrun
    ⟨.of_init rfl, fun _ => ⟨rfl, by simp [new]⟩⟩ id
  simp only [Prod.mk.injEq, ExtTreeMap.isEmpty_iff] at hstate
  obtain ⟨hcall, hactive, hnone, hcluster, hsafe, hstored⟩ := hstate
  refine ⟨s, hreachable, hcall, hactive, by simp [hsafe], fun clocks txnId nowMs hfits => ?_⟩
  rw [admitted_of_unpublished_iff (Option.isSome_iff_ne_none.mp hcluster) (by decide) hactive hnone
    (by decide) hfits (by decide) (by simp [hsafe])]
  exact Option.isSome_iff_ne_none.mp hstored

end GcProtectionConfig

end RagnorDb
