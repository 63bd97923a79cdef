import RagnorDb.MultiRaft.Retention

/-!
# The shared WAL of a node

`NodeRaftWal` and its handles (`storage/persistence.rs`): the retention registry behind one lock,
and the fence that every call meets once an append or a prune is in doubt.  What the WAL and the
durability gate answer comes with the call.
-/

namespace RagnorDb

open Std Checked OrderedMap

structure NodeRaftWal where
  registry : RetentionRegistry
  recoveryRequired : Bool

/-- An error of the WAL.  This code names one of them. -/
inductive WalError where
  | brokenDurabilityContract
  | other (message : String)

inductive BatchAppendFailure where
  | notStaged (error : WalError)
  | outcomeUnknown (error : WalError)

inductive NodeRaftWalError where
  | refused (reason : String)
  | append (failure : BatchAppendFailure)

/-- What a call returns: a handle by its owner, the segments that a prune removed, or the extents
of an append. -/
inductive NodeRaftWalReply where
  | handle (owner : RaftReplicaIdentity)
  | sealed
  | removed (segments : Nat)
  | appended (extents : List RecordExtent)

/-- The durability gate and the WAL during a call.  A node without a gate is healthy. -/
structure NodeRaftWal.Answers where
  gateHealthy : Bool
  append : Except BatchAppendFailure (List RecordExtent)
  requiresRecovery : WalError → Bool
  pruneBefore : Lsn → Except String Nat

/-- What a call returns, the floor it made the WAL prune to, and what it leaves. -/
structure NodeRaftWal.Outcome where
  result : Except NodeRaftWalError NodeRaftWalReply
  prunedTo : Option Lsn
  wal : NodeRaftWal

namespace NodeRaftWal

section

variable (self : NodeRaftWal) (answers : Answers)

def refreshRecoveryFence : NodeRaftWal :=
  { self with recoveryRequired := self.recoveryRequired || !answers.gateHealthy }

def refuse (error : NodeRaftWalError) : Outcome := ⟨.error error, none, self⟩

/-- A change of the registry, and the prune that follows from it. -/
def locked (reply : Nat → NodeRaftWalReply)
    (change : Except String (RetentionRegistry × Option Lsn)) : Outcome :=
  let self := self.refreshRecoveryFence answers
  if self.recoveryRequired then
    self.refuse (.refused "the shared node durability gate requires recovery")
  else
    match change with
    | .error reason => self.refuse (.refused reason)
    | .ok (registry, none) => ⟨.ok (reply 0), none, { self with registry }⟩
    | .ok (registry, some floor) =>
      match answers.pruneBefore floor with
      | .ok removed => ⟨.ok (reply removed), some floor, { self with registry }⟩
      | .error reason =>
        -- the floor stays published, but how far the WAL got is not known
        ⟨.error (.refused reason), some floor, {
          registry := { registry with lastPrunedFloor := self.registry.lastPrunedFloor }
          recoveryRequired := true }⟩

def appendBatchAndSyncLocked : Outcome :=
  let self := self.refreshRecoveryFence answers
  if self.recoveryRequired then
    self.refuse (.append (.notStaged .brokenDurabilityContract))
  else
    match answers.append with
    | .ok extents => ⟨.ok (.appended extents), none, self⟩
    | .error (.outcomeUnknown error) =>
      { self with recoveryRequired := true }.refuse (.append (.outcomeUnknown error))
    | .error (.notStaged error) =>
      { self with recoveryRequired := answers.requiresRecovery error }.refuse
        (.append (.notStaged error))

/-- A call of the node, or of a handle with its owner. -/
inductive Call where
  | groupWriterFor (identity : RaftReplicaIdentity)
  | groupWriterForActive (identity : RaftReplicaIdentity)
  | sealRetentionRegistry
  | advanceDatabaseRetention (floor : Lsn)
  | appendBatchAndSync
  | appendThrough (owner : Option RaftReplicaIdentity)
  | pruneBefore (owner : Option RaftReplicaIdentity) (floor : Lsn)
  | releaseRetention (owner : Option RaftReplicaIdentity)

def call : Call → Outcome
  | .groupWriterFor identity =>
    self.locked answers (fun _ => .handle identity) do
      return (← self.registry.groupWriterFor identity, none)
  | .groupWriterForActive identity =>
    self.locked answers (fun _ => .handle identity) do
      return (← self.registry.groupWriterForActive identity, none)
  | .sealRetentionRegistry =>
    self.locked answers (fun _ => .sealed) (.ok (self.registry.sealRetentionRegistry, none))
  | .advanceDatabaseRetention floor =>
    self.locked answers .removed (self.registry.advanceDatabaseRetention floor)
  | .appendBatchAndSync => self.appendBatchAndSyncLocked answers
  | .appendThrough none => self.refuse (.append (.notStaged .brokenDurabilityContract))
  | .appendThrough (some owner) =>
    if owner ∈ self.registry.retentionFloors then self.appendBatchAndSyncLocked answers
    else self.refuse (.append (.notStaged .brokenDurabilityContract))
  | .pruneBefore none _ =>
    self.refuse (.refused "retention pruning requires an identity-bound group writer")
  | .pruneBefore (some owner) floor =>
    self.locked answers .removed (self.registry.pruneBefore owner floor)
  | .releaseRetention none =>
    self.refuse (.refused "retention release requires an identity-bound group writer")
  | .releaseRetention (some owner) =>
    self.locked answers .removed (self.registry.releaseRetention owner)

end

def after (self : NodeRaftWal) (calls : List (Answers × Call)) : NodeRaftWal :=
  calls.foldl (fun wal next => (wal.call next.1 next.2).wal) self

/-! ## What one call does -/

/-- How the call ends is not known: an append with an unknown outcome, or a failed prune. -/
def Outcome.InDoubt (outcome : Outcome) : Prop :=
  (∃ error, outcome.result = .error (.append (.outcomeUnknown error))) ∨
    outcome.prunedTo ≠ none ∧ ∃ error, outcome.result = .error error

/-- A published floor does not move back. -/
def Rises (published later : Option Lsn) : Prop :=
  ∀ f, published = some f → ∃ g, later = some g ∧ f ≤ g

/-- A call that leaves `registry` and prunes to `floor` prunes above no floor.  A lifetime is
registered without a floor; its floor rises, until a release removes the lifetime. -/
structure Advances (base : RetentionRegistry) (next : Call) (registry : RetentionRegistry)
    (floor : Option Lsn) : Prop where
  sealed : floor ≠ none → base.retentionRegistrySealed = true
  bounds : registry.Bounds floor
  bounded : ∀ f d, floor = some f → registry.databaseRetentionFloor = some d → f ≤ d
  registered : ∀ (identity : RaftReplicaIdentity) published,
    base.retentionFloors[identity]? = none →
      registry.retentionFloors[identity]? = some published → published = none
  floors : ∀ (identity : RaftReplicaIdentity) published,
    base.retentionFloors[identity]? = some published →
      (∃ later, registry.retentionFloors[identity]? = some later ∧ Rises published later) ∨
        next = .releaseRetention (some identity) ∧ registry.retentionFloors[identity]? = none
  database : Rises base.databaseRetentionFloor registry.databaseRetentionFloor

/-- The lifetime that a call releases is gone. -/
def Released (next : Call) (registry : RetentionRegistry) : Prop :=
  ∀ identity, next = .releaseRetention (some identity) →
    registry.retentionFloors[identity]? = none

/-- A fenced node stays fenced and fails every call, and a call in doubt fences it. -/
structure Spec (base : NodeRaftWal) (next : Call) (outcome : Outcome) : Prop where
  advances : Advances base.registry next outcome.wal.registry outcome.prunedTo
  released : ∀ reply, outcome.result = .ok reply → Released next outcome.wal.registry
  fenced : base.recoveryRequired = true →
    outcome.wal.recoveryRequired = true ∧ ∃ error, outcome.result = .error error
  inDoubt : outcome.InDoubt → outcome.wal.recoveryRequired = true

variable {self : NodeRaftWal} {answers : Answers} {next : Call} {registry : RetentionRegistry}
  {floor : Option Lsn}

theorem Rises.refl (published : Option Lsn) : Rises published published :=
  fun f h => ⟨f, h, Nat.le_refl f⟩

theorem Rises.trans {first second third : Option Lsn} (h : Rises first second)
    (h' : Rises second third) : Rises first third := by
  intro f hf
  obtain ⟨g, hg, hle⟩ := h f hf
  obtain ⟨k, hk, hle'⟩ := h' g hg
  exact ⟨k, hk, Nat.le_trans hle hle'⟩

theorem rises_of_le {published : Option Lsn} {value : Lsn}
    (h : ∀ previous, published = some previous → previous ≤ value) :
    Rises published (some value) :=
  fun f hf => ⟨value, rfl, h f hf⟩

/-- A change that does not prune, keeps every entry and registers lifetimes without a floor. -/
theorem advances_of_kept (hfloors : ∀ (identity : RaftReplicaIdentity),
      registry.retentionFloors[identity]? = self.registry.retentionFloors[identity]? ∨
        self.registry.retentionFloors[identity]? = none ∧
          registry.retentionFloors[identity]? = some none)
    (hdatabase : registry.databaseRetentionFloor = self.registry.databaseRetentionFloor) :
    Advances self.registry next registry none where
  sealed h := absurd rfl h
  bounds := by simp [RetentionRegistry.Bounds]
  bounded := by simp
  registered identity published hbase hpublished := by
    rcases hfloors identity with hkept | ⟨_, hnew⟩
    · cases hpublished.symm.trans (hkept.trans hbase)
    · cases hpublished.symm.trans hnew
      rfl
  floors identity published hbase := by
    rcases hfloors identity with hkept | ⟨hnone, _⟩
    · exact .inl ⟨published, hkept.trans hbase, .refl published⟩
    · cases hbase.symm.trans hnone
  database := hdatabase ▸ .refl _

theorem advances_self : Advances self.registry next self.registry none :=
  advances_of_kept (fun _ => .inl rfl) rfl

@[simp] theorem refreshRecoveryFence_registry :
    (self.refreshRecoveryFence answers).registry = self.registry := rfl

theorem refreshRecoveryFence_of_fenced (h : self.recoveryRequired = true) :
    (self.refreshRecoveryFence answers).recoveryRequired = true := by
  simp [refreshRecoveryFence, h]

/-- A call that fails without a doubt keeps the registry; it may only set the fence. -/
theorem spec_refuse {base : NodeRaftWal} {error : NodeRaftWalError}
    (hregistry : self.registry = base.registry)
    (hfenced : base.recoveryRequired = true → self.recoveryRequired = true)
    (hdoubt : ∀ cause, error = .append (.outcomeUnknown cause) → self.recoveryRequired = true) :
    Spec base next (self.refuse error) where
  advances := by
    rw [refuse, hregistry]
    exact advances_self
  released := nofun
  fenced h := ⟨hfenced h, error, rfl⟩
  inDoubt := by
    rintro (⟨cause, h⟩ | ⟨h, _⟩)
    · cases h
      exact hdoubt cause rfl
    · exact absurd rfl h

/-- The rest of a call that holds the lock is about a node that is not fenced. -/
theorem not_fenced (h : ¬ (self.refreshRecoveryFence answers).recoveryRequired = true) :
    ¬ self.recoveryRequired = true :=
  fun hfenced => h (refreshRecoveryFence_of_fenced hfenced)

theorem spec_append (hnext : ∀ identity, next ≠ .releaseRetention (some identity)) :
    Spec self next (self.appendBatchAndSyncLocked answers) := by
  unfold appendBatchAndSyncLocked
  dsimp only
  split
  · exact spec_refuse rfl refreshRecoveryFence_of_fenced (by simp)
  · next hrunning =>
    have hnot := not_fenced hrunning
    split
    · refine ⟨advances_self, fun _ _ identity h => absurd h (hnext identity),
        fun h => absurd h hnot, ?_⟩
      rintro (⟨_, h⟩ | ⟨h, _⟩)
      · cases h
      · exact absurd rfl h
    · exact spec_refuse rfl (fun _ => rfl) fun _ _ => rfl
    · exact spec_refuse rfl (fun h => absurd h hnot) (by simp)

theorem spec_locked {reply : Nat → NodeRaftWalReply}
    {change : Except String (RetentionRegistry × Option Lsn)}
    (h : ∀ registry floor, change = .ok (registry, floor) →
      Advances self.registry next registry floor ∧ Released next registry) :
    Spec self next (self.locked answers reply change) := by
  unfold locked
  dsimp only
  split
  · exact spec_refuse rfl refreshRecoveryFence_of_fenced (by simp)
  · next hrunning =>
    have hnot := not_fenced hrunning
    split
    · exact spec_refuse rfl refreshRecoveryFence_of_fenced (by simp)
    · obtain ⟨hadvances, hreleased⟩ := h _ _ rfl
      refine ⟨hadvances, fun _ _ => hreleased, fun h => absurd h hnot, ?_⟩
      rintro (⟨_, h⟩ | ⟨_, _, h⟩) <;> cases h
    · obtain ⟨hadvances, hreleased⟩ := h _ _ rfl
      split
      · refine ⟨hadvances, fun _ _ => hreleased, fun h => absurd h hnot, ?_⟩
        rintro (⟨_, h⟩ | ⟨_, _, h⟩) <;> cases h
      · -- the floor that was pruned to before is no part of what a call guarantees
        exact ⟨{ hadvances with }, nofun, fun h => absurd h hnot, fun _ => rfl⟩

/-- A call that prunes, over the registry that it has changed. -/
theorem advances_of_pruned {changed : RetentionRegistry}
    (hsealed : self.registry.retentionRegistrySealed = true)
    (hpruned : RetentionRegistry.Pruned changed registry floor)
    (hregistered : ∀ (identity : RaftReplicaIdentity),
      self.registry.retentionFloors[identity]? = none → changed.retentionFloors[identity]? = none)
    (hfloors : ∀ (identity : RaftReplicaIdentity) published,
      self.registry.retentionFloors[identity]? = some published →
        (∃ later, changed.retentionFloors[identity]? = some later ∧ Rises published later) ∨
          next = .releaseRetention (some identity) ∧ changed.retentionFloors[identity]? = none)
    (hdatabase : Rises self.registry.databaseRetentionFloor changed.databaseRetentionFloor) :
    Advances self.registry next registry floor where
  sealed _ := hsealed
  bounds := hpruned.bounds
  bounded := hpruned.database ▸ hpruned.bounded
  registered identity published hbase hpublished := by
    rw [hpruned.floors, hregistered identity hbase] at hpublished
    cases hpublished
  floors := by
    rw [hpruned.floors]
    exact hfloors
  database := by
    rw [hpruned.database]
    exact hdatabase

theorem spec_call (self : NodeRaftWal) (answers : Answers) (next : Call) :
    Spec self next (self.call answers next) := by
  cases next with
  | groupWriterFor identity =>
    unfold call
    refine spec_locked fun registry floor h => ?_
    simp only [RetentionRegistry.groupWriterFor, eq_ok', Prod.mk.injEq] at h
    obtain ⟨_, ⟨-, rfl⟩, rfl, rfl⟩ := h
    refine ⟨advances_of_kept (fun other => ?_) rfl, by simp [Released]⟩
    rw [ExtTreeMap.getElem?_insertIfNew]
    split
    · next hnew =>
      obtain ⟨heq, hnew⟩ := hnew
      cases LawfulEqCmp.eq_of_compare heq
      exact .inr ⟨ExtTreeMap.getElem?_eq_none hnew, rfl⟩
    · exact .inl rfl
  | groupWriterForActive identity =>
    unfold call
    refine spec_locked fun registry floor h => ?_
    simp only [RetentionRegistry.groupWriterForActive, eq_ok', Prod.mk.injEq] at h
    obtain ⟨_, ⟨-, hnew, rfl⟩, rfl, rfl⟩ := h
    refine ⟨advances_of_kept (fun other => ?_) rfl, by simp [Released]⟩
    rw [getElem?_insert]
    split
    · next heq =>
      subst heq
      exact .inr ⟨ExtTreeMap.getElem?_eq_none (by simpa using hnew), rfl⟩
    · exact .inl rfl
  | sealRetentionRegistry =>
    unfold call
    refine spec_locked fun registry floor h => ?_
    cases h
    exact ⟨advances_of_kept (fun _ => .inl rfl) rfl, by simp [Released]⟩
  | advanceDatabaseRetention value =>
    refine spec_locked fun registry floor h => ?_
    obtain ⟨hforward, hsealed, hpruned⟩ := RetentionRegistry.advanceDatabaseRetention_spec h
    refine ⟨advances_of_pruned hsealed hpruned (fun _ hnone => hnone) ?_ (rises_of_le hforward),
      by simp [Released]⟩
    exact fun _ published hbase => .inl ⟨published, hbase, .refl published⟩
  | appendBatchAndSync => exact spec_append (by simp)
  | appendThrough owner =>
    cases owner with
    | none => exact spec_refuse rfl id (by simp)
    | some owner =>
      simp only [call]
      split
      · exact spec_append (by simp)
      · exact spec_refuse rfl id (by simp)
  | pruneBefore owner value =>
    cases owner with
    | none => exact spec_refuse rfl id (by simp)
    | some owner =>
      refine spec_locked fun registry floor h => ?_
      obtain ⟨⟨previous, hprevious, hforward⟩, hsealed, hpruned⟩ :=
        RetentionRegistry.pruneBefore_spec h
      refine ⟨advances_of_pruned hsealed hpruned (fun other hnone => ?_)
        (fun other published hbase => .inl ?_) (.refl _), by simp [Released]⟩
      · rw [getElem?_insert, if_neg, hnone]
        rintro rfl
        cases hprevious.symm.trans hnone
      · rw [getElem?_insert]
        split
        · next heq =>
          subst heq
          cases hprevious.symm.trans hbase
          exact ⟨_, rfl, rises_of_le hforward⟩
        · exact ⟨published, hbase, .refl published⟩
  | releaseRetention owner =>
    cases owner with
    | none => exact spec_refuse rfl id (by simp)
    | some owner =>
      refine spec_locked fun registry floor h => ?_
      obtain ⟨hsealed, hpruned⟩ := RetentionRegistry.releaseRetention_spec h
      refine ⟨advances_of_pruned hsealed hpruned (fun other hnone => ?_)
        (fun other published hbase => ?_) (.refl _), fun identity hnext => ?_⟩
      · rw [getElem?_erase]
        split
        · rfl
        · exact hnone
      · rw [getElem?_erase]
        split
        · next heq => exact .inr ⟨by rw [heq], rfl⟩
        · exact .inl ⟨published, hbase, .refl published⟩
      · cases hnext
        rw [hpruned.floors, getElem?_erase, if_pos rfl]

/-! ## Runs -/

theorem fenced_after (h : self.recoveryRequired = true) (calls : List (Answers × Call)) :
    (self.after calls).recoveryRequired = true := by
  induction calls generalizing self with
  | nil => exact h
  | cons next calls ih => exact ih ((spec_call self next.1 next.2).fenced h).1

/-- The floor of a lifetime rises while no call releases it. -/
theorem rises_after {identity : RaftReplicaIdentity} {published : Option Lsn}
    (h : self.registry.retentionFloors[identity]? = some published)
    (calls : List (Answers × Call))
    (hcalls : ∀ next ∈ calls, next.2 ≠ .releaseRetention (some identity)) :
    ∃ later, (self.after calls).registry.retentionFloors[identity]? = some later ∧
      Rises published later := by
  induction calls generalizing self published with
  | nil => exact ⟨published, h, .refl published⟩
  | cons next calls ih =>
    obtain ⟨hnext, hcalls⟩ := List.forall_mem_cons.mp hcalls
    rcases (spec_call self next.1 next.2).advances.floors identity published h with
      ⟨between, hbetween, hrises⟩ | ⟨hrelease, _⟩
    · obtain ⟨later, hlater, hrises'⟩ := ih hbetween hcalls
      exact ⟨later, hlater, hrises.trans hrises'⟩
    · exact absurd hrelease hnext

/-- Every prune point is at most the floor of every registered lifetime and the database floor, and
comes after sealing.  A successful release removes its lifetime; from registration to release a
published floor never moves back, nor does the database floor.  Once a call is in doubt every later
call fails. -/
theorem retention_floor_safe (self : NodeRaftWal) (answers : Answers) (next : Call) :
    let outcome := self.call answers next
    Advances self.registry next outcome.wal.registry outcome.prunedTo ∧
    (∀ reply, outcome.result = .ok reply → Released next outcome.wal.registry) ∧
    (∀ calls (identity : RaftReplicaIdentity) published,
      self.registry.retentionFloors[identity]? = some published →
      (∀ next ∈ calls, next.2 ≠ .releaseRetention (some identity)) →
      ∃ later, (self.after calls).registry.retentionFloors[identity]? = some later ∧
        Rises published later) ∧
    (outcome.InDoubt → ∀ calls answers' later, ∃ error,
      ((outcome.wal.after calls).call answers' later).result = .error error) := by
  have hcall := spec_call self answers next
  refine ⟨hcall.advances, hcall.released, fun calls identity published h => rises_after h calls,
    fun hdoubt calls answers' later => ?_⟩
  exact ((spec_call _ answers' later).fenced (fenced_after (hcall.inDoubt hdoubt) calls)).2

/-- A lifetime may be registered again once it is released, and then publish a lower floor. -/
theorem released_floor_moves_back :
    let answers : Answers := ⟨true, .ok [], fun _ => false, fun _ => .ok 0⟩
    let first : NodeRaftWal := (NodeRaftWal.mk .new false).after
      [(answers, .groupWriterFor ⟨1, 1⟩), (answers, .sealRetentionRegistry),
        (answers, .pruneBefore (some ⟨1, 1⟩) 100)]
    let second := first.after [(answers, .releaseRetention (some ⟨1, 1⟩)),
      (answers, .groupWriterForActive ⟨1, 1⟩), (answers, .pruneBefore (some ⟨1, 1⟩) 50)]
    first.registry.retentionFloors[(⟨1, 1⟩ : RaftReplicaIdentity)]? = some (some 100) ∧
      second.registry.retentionFloors[(⟨1, 1⟩ : RaftReplicaIdentity)]? = some (some 50) := by
  decide +kernel

end NodeRaftWal

end RagnorDb
