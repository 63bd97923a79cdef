import RagnorDb.Server.GcProtection

/-!
# Admitted readers keep their history

The tracker's cache is never ahead of the metadata state: a lease that it holds for healthy is
stored there for at least as long, unless its deadline has passed, and the stored floor is at
most the start of every reader, admitted or still to come.
-/

namespace RagnorDb

open Std Checked OrderedMap MetadataState

/-! ## What an entry does to one protection -/

namespace MetadataState

variable {s t : MetadataState} {entry : LogEntry} {key : Nat × Nat}

/-- A command that may change what is stored under a key. -/
def Touches (key : Nat × Nat) : MetadataCommand → Prop
  | .registerGcProtection protection _ | .updateGcProtection protection _ =>
    (protection.ownerId, protection.protectionId) = key
  | .renewGcProtection ownerId protectionId _ _ | .releaseGcProtection ownerId protectionId =>
    (ownerId, protectionId) = key
  | .advanceGcSafePoint _ _ => True
  | _ => False

theorem protection_of_not_touches (hstep : metadataLog.step s entry t)
    (htouches : ¬ Touches key entry.2) : t.gcProtections[key]? = s.gcProtections[key]? := by
  obtain ⟨moved, requests, hmoves, rfl⟩ := moves_of_step hstep
  cases hmoves with
  | stays | initializes => rfl
  | changes _ _ hchange =>
    generalize entry.2 = command at htouches hchange
    cases hchange with
    | registerProtection | updateProtection | renewProtection =>
      change (s.gcProtections.insert _ _)[key]? = _
      rw [getElem?_insert]
      exact if_neg htouches
    | releaseProtection =>
      rw [getElem?_erase]
      exact if_neg htouches
    | advanceSafePoint => exact absurd trivial htouches
    | _ => rfl

theorem retainedProtections_cases (s : MetadataState) (nowMs : Nat) (key : Nat × Nat) :
    (s.retainedProtections nowMs)[key]? = s.gcProtections[key]? ∨
      (s.retainedProtections nowMs)[key]? = none ∧
        ∃ protection ∈ s.gcProtections[key]?, protection.leaseDeadlineMs ≤ nowMs := by
  cases hkey : s.gcProtections[key]? with
  | none => simp [retainedProtections, hkey]
  | some protection =>
    by_cases hlive : nowMs < protection.leaseDeadlineMs
    · exact .inl (getElem?_filter_eq_some.mpr ⟨hkey, decide_eq_true hlive⟩)
    · refine .inr ⟨?_, protection, rfl, by omega⟩
      simp [retainedProtections, hkey, Nat.not_lt.mp hlive]

theorem protection_of_sweep {candidate : Timestamp} {nowMs : Nat}
    (hstep : metadataLog.step s (none, .advanceGcSafePoint candidate nowMs) t) :
    t.gcProtections[key]? = s.gcProtections[key]? ∨
      t.gcProtections[key]? = none ∧
        ∃ protection ∈ s.gcProtections[key]?, protection.leaseDeadlineMs ≤ nowMs := by
  obtain ⟨moved, requests, hmoves, rfl⟩ := moves_of_step hstep
  cases hmoves with
  | stays => exact .inl rfl
  | initializes heq => cases heq
  | changes _ _ hchange =>
    cases hchange with
    | unchanged | setLifecycle => exact .inl rfl
    | advanceSafePoint => exact s.retainedProtections_cases nowMs key

end MetadataState

/-! ## What a publication does to the stored protection -/

namespace GcProtectionPublication

variable {publication : GcProtectionPublication} {ownerId nowMs : Nat} {m : MetadataState}
  {accepted : Accepted}

/-- The stored protection of a process. -/
def storedFor (m : MetadataState) (ownerId : Nat) : Option MetadataGcProtection :=
  m.gcProtections[(ownerId, aggregateGcProtectionId)]?

/-- An accepted publication other than a release stores its deadline, which is not before that
of the protection it replaces, and its floor if it has one. -/
structure Stores (publication : GcProtectionPublication) (old : Option MetadataGcProtection)
    (new : MetadataGcProtection) : Prop where
  deadline : publication.deadline? = some new.leaseDeadlineMs
  floor : publication.floor? = some new.protectedTimestamp ∨
    ∃ protection ∈ old, protection.protectedTimestamp = new.protectedTimestamp
  extends_old : ∀ protection ∈ old, protection.leaseDeadlineMs ≤ new.leaseDeadlineMs

theorem stores_of_handle (hne : publication ≠ .release)
    (h : m.handle (publication.command ownerId nowMs) = .ok accepted) :
    ∃ new, storedFor accepted.2 ownerId = some new ∧
      publication.Stores (storedFor m ownerId) new := by
  unfold storedFor
  cases publication with
  | register =>
    simp only [command, handle, applyRegisterGcProtection, eq_ok'] at h
    obtain ⟨_, _, _, h⟩ := h
    cases hold : m.gcProtections[(ownerId, aggregateGcProtectionId)]? with
    | some =>
      rw [hold] at h
      simp only [eq_ok] at h
      obtain ⟨_, _, h⟩ := h
      cases h
    | none =>
      rw [hold] at h
      cases h
      exact ⟨_, ExtTreeMap.getElem?_insert_self, rfl, .inl rfl, by simp⟩
  | update =>
    simp only [command, handle, applyUpdateGcProtection, eq_ok'] at h
    obtain ⟨_, _, _, existing, hold, _, hle, h⟩ := h
    rw [hold]
    split at h
    · rename_i hsame
      cases h
      exact ⟨existing, hold, congrArg some hsame.2, .inl (congrArg some hsame.1), by simp⟩
    · cases h
      exact ⟨_, ExtTreeMap.getElem?_insert_self, rfl, .inl rfl, by
        simpa using hle⟩
  | renew =>
    simp only [command, handle, applyRenewGcProtection, eq_ok'] at h
    obtain ⟨_, _, existing, hold, _, h⟩ := h
    rw [hold]
    split at h
    · rename_i hsame
      cases h
      exact ⟨existing, hold, congrArg some hsame, .inr ⟨existing, rfl, rfl⟩, by simp⟩
    · simp only [eq_ok'] at h
      obtain ⟨hle, h⟩ := h
      cases h
      exact ⟨_, ExtTreeMap.getElem?_insert_self, rfl, .inr ⟨existing, rfl, rfl⟩,
        by simpa using hle⟩
  | release => exact absurd rfl hne

theorem apply_cases (hne : publication ≠ .release) :
    (∃ rejection, m.apply (publication.command ownerId nowMs) = (.rejected rejection, m)) ∨
    ∃ new, storedFor (m.apply (publication.command ownerId nowMs)).2 ownerId = some new ∧
      publication.Stores (storedFor m ownerId) new := by
  unfold apply
  cases htry : m.tryApply (publication.command ownerId nowMs) with
  | error rejection => exact .inl ⟨rejection, rfl⟩
  | ok =>
    simp only [tryApply, eq_ok] at htry
    obtain ⟨_, _, hhandle⟩ := htry
    exact .inr (stores_of_handle hne hhandle)

theorem stored_of_release :
    storedFor (m.apply (command ownerId nowMs .release)).2 ownerId = storedFor m ownerId ∨
      storedFor (m.apply (command ownerId nowMs .release)).2 ownerId = none := by
  unfold apply
  cases htry : m.tryApply (command ownerId nowMs .release) with
  | error => exact .inl rfl
  | ok =>
    simp only [tryApply, command, handle, applyReleaseGcProtection, eq_ok] at htry
    obtain ⟨_, _, _, _, hhandle⟩ := htry
    cases hhandle
    right
    simp [storedFor]

theorem not_touches_command {other : Nat} (hne : other ≠ ownerId) :
    ¬ Touches (other, aggregateGcProtectionId)
      (publication.command ownerId nowMs) := by
  cases publication <;> exact fun heq => hne (Prod.mk.inj heq).1.symm

end GcProtectionPublication

theorem GcCluster.Foreign.not_touches {command : MetadataCommand} (h : GcCluster.Foreign command)
    (ownerId : Nat) : ¬ Touches (ownerId, aggregateGcProtectionId) command := by
  cases command with
  | registerGcProtection | updateGcProtection | renewGcProtection | releaseGcProtection =>
    exact fun heq => h (Prod.mk.inj heq).2
  | advanceGcSafePoint => exact fun _ => h
  | _ => exact id

/-! ## One process -/

/-- A tracker that keeps a lease for nobody knows since when. -/
def GcProtectionTracker.KnowsIdle (tracker : GcProtectionTracker) : Prop :=
  tracker.active = ∅ → tracker.published ≠ none → tracker.idleSince ≠ none

/-- A registration that waits can be taken back, and a pass that waits has a lease. -/
def GcMethod.Ready (tracker : GcProtectionTracker) : GcMethod → Prop
  | .registration txnId idleSince =>
    txnId ∈ tracker.active ∧ (tracker.withdraw txnId idleSince).KnowsIdle
  | .reconciliation => tracker.published ≠ none
  | .renewal _ => True

namespace GcProcess

variable {floor : Timestamp} {outcome : MetadataApplyOutcome}

/-- A floor that no reader of the process is below, now or later. -/
structure Bounds (process : GcProcess) (floor : Timestamp) : Prop where
  active : ∀ (txnId : TxnId) readTs, process.tracker.active[txnId]? = some readTs → floor ≤ readTs
  later : floor ≤ process.lastStart

/-- A lease deadline is backed by a stored protection, or it has passed. -/
def Backed (stored : Option MetadataGcProtection) (timeMs deadlineMs : Nat) : Prop :=
  (∃ protection ∈ stored, deadlineMs ≤ protection.leaseDeadlineMs) ∨ deadlineMs ≤ timeMs

/-- What holds of a publication on its way. -/
structure CallInv (stored : Option MetadataGcProtection) (timeMs : Nat) (process : GcProcess)
    (call : GcCall) : Prop where
  floor : ∀ floor ∈ call.publication.floor?, process.Bounds floor
  release : call.publication = .release →
    call.method = .reconciliation ∧ process.tracker.active = ∅
  renewal : ∀ deadlineMs, call.method = .renewal deadlineMs → call.publication = .renew deadlineMs
  answered : ∀ outcome ∈ call.outcome, resultOf call outcome = .ok () →
    ∀ deadlineMs ∈ call.publication.deadline?, Backed stored timeMs deadlineMs
  ready : call.method.Ready process.tracker

/-- What holds of a process, given what is stored for it. -/
structure Inv (stored : Option MetadataGcProtection) (timeMs : Nat) (process : GcProcess) :
    Prop where
  active_le : ∀ (txnId : TxnId) readTs, process.tracker.active[txnId]? = some readTs →
    readTs ≤ process.lastStart
  stored_floor : ∀ protection ∈ stored, process.Bounds protection.protectedTimestamp
  -- While a release is on its way the protection may be gone, but then nobody reads.
  lease : ∀ lease ∈ process.tracker.published, process.tracker.leaseHealthy = true →
    (∀ call ∈ process.call, call.publication ≠ .release) → Backed stored timeMs lease.deadlineMs
  waiting : ∀ call ∈ process.call, process.CallInv stored timeMs call
  knowsIdle : process.tracker.KnowsIdle

variable {stored stored' : Option MetadataGcProtection} {timeMs timeMs' : Nat}
  {process : GcProcess} {tracker : GcProtectionTracker} {call : GcCall}

theorem Inv.new : Inv none timeMs {} where
  active_le := by simp
  stored_floor := by simp
  lease := by simp
  waiting := by simp
  knowsIdle _ hlease := absurd rfl hlease

/-- What the tracker's methods do to it apart from storing a publication. -/
structure Follows (start : Timestamp) (old new : GcProtectionTracker) : Prop where
  published : new.published = old.published
  leaseHealthy : new.leaseHealthy = true → old.leaseHealthy = true
  active : ∀ (txnId : TxnId) readTs, new.active[txnId]? = some readTs →
    old.active[txnId]? = some readTs ∨ readTs = start

theorem Bounds.follows (h : process.Bounds floor)
    (hfollows : Follows process.lastStart process.tracker tracker) (call : Option GcCall) :
    Bounds { process with tracker, call } floor where
  active := by
    intro txnId readTs hactive
    rcases hfollows.active txnId readTs hactive with hold | hnew
    · exact h.active txnId readTs hold
    · rw [hnew]
      exact h.later
  later := h.later

section

variable (h : process.Inv stored timeMs)
include h

/-- A method ends without storing a publication. -/
theorem Inv.idle (hfollows : Follows process.lastStart process.tracker tracker)
    (hknows : tracker.KnowsIdle)
    (hrelease : ∀ call ∈ process.call, call.publication = .release → tracker.leaseHealthy = false) :
    Inv stored timeMs { process with tracker, call := none } where
  active_le := by
    intro txnId readTs hactive
    rcases hfollows.active txnId readTs hactive with hold | hnew
    · exact h.active_le txnId readTs hold
    · exact Nat.le_of_eq hnew
  stored_floor := fun protection hmem => (h.stored_floor protection hmem).follows hfollows none
  lease := by
    intro lease hlease hhealthy _
    have hlease : lease ∈ process.tracker.published := by
      rw [← hfollows.published]
      exact hlease
    refine h.lease lease hlease (hfollows.leaseHealthy hhealthy) ?_
    intro call hcall heq
    rw [hrelease call hcall heq] at hhealthy
    cases hhealthy
  waiting := by simp
  knowsIdle := hknows

theorem Inv.start (hidle : process.call = none) (hcall : process.CallInv stored timeMs call) :
    Inv stored timeMs { process with call := some call } where
  active_le := h.active_le
  stored_floor := fun protection hmem =>
    ⟨(h.stored_floor protection hmem).active, (h.stored_floor protection hmem).later⟩
  lease := fun lease hlease hhealthy _ => h.lease lease hlease hhealthy (by simp [hidle])
  waiting := by
    intro other hother
    cases hother
    exact ⟨fun floor hmem => ⟨(hcall.floor floor hmem).active, (hcall.floor floor hmem).later⟩,
      hcall.release, hcall.renewal, hcall.answered, hcall.ready⟩
  knowsIdle := h.knowsIdle

/-- A publication that succeeded is stored. -/
theorem Inv.store {publication : GcProtectionPublication}
    (hbacked : ∀ deadlineMs ∈ publication.deadline?, Backed stored timeMs deadlineMs)
    (hlease : process.tracker.active = ∅ →
      (process.tracker.storePublication publication).published ≠ none →
        process.tracker.published ≠ none) :
    Inv stored timeMs
      { process with tracker := process.tracker.storePublication publication, call := none } where
  active_le := by
    cases publication <;> exact h.active_le
  stored_floor := by
    intro protection hmem
    have hfloor := h.stored_floor protection hmem
    cases publication <;> exact ⟨hfloor.active, hfloor.later⟩
  lease := by
    intro lease hlease _ _
    cases publication with
    | register floor deadlineMs | update floor deadlineMs =>
      cases hlease
      exact hbacked deadlineMs rfl
    | renew deadlineMs =>
      obtain ⟨previous, _, rfl⟩ := Option.map_eq_some_iff.mp hlease
      exact hbacked deadlineMs rfl
    | release => cases hlease
  waiting := by simp
  knowsIdle := by
    intro hempty hstored
    cases publication with
    | release => exact absurd rfl hstored
    | _ => exact h.knowsIdle hempty (hlease hempty hstored)

theorem Inv.move (hstored : ∀ protection ∈ stored', process.Bounds protection.protectedTimestamp)
    (hbacked : (∀ call ∈ process.call, call.publication ≠ .release) →
      ∀ deadlineMs, Backed stored timeMs deadlineMs → Backed stored' timeMs' deadlineMs) :
    process.Inv stored' timeMs' where
  active_le := h.active_le
  stored_floor := hstored
  lease := fun lease hlease hhealthy hcall => hbacked hcall _ (h.lease lease hlease hhealthy hcall)
  waiting := by
    intro call hcall
    have hold := h.waiting call hcall
    refine ⟨hold.floor, hold.release, hold.renewal, ?_, hold.ready⟩
    intro outcome houtcome hresult deadlineMs hdeadline
    refine hbacked ?_ deadlineMs (hold.answered outcome houtcome hresult deadlineMs hdeadline)
    intro other hother hrelease
    cases hcall.symm.trans hother
    rw [hrelease] at hdeadline
    cases hdeadline
  knowsIdle := h.knowsIdle

end

theorem Backed.mono {deadlineMs : Nat} (h : Backed stored timeMs deadlineMs)
    (htime : timeMs ≤ timeMs') : Backed stored timeMs' deadlineMs := by
  rcases h with hstored | hpassed
  · exact .inl hstored
  · exact .inr (by omega)

theorem Inv.sweep (h : process.Inv stored timeMs) {nowMs : Nat} (hnow : nowMs ≤ timeMs)
    (hsweep : stored' = stored ∨
      stored' = none ∧ ∃ protection ∈ stored, protection.leaseDeadlineMs ≤ nowMs) :
    process.Inv stored' timeMs := by
  rcases hsweep with rfl | ⟨rfl, protection, hmem, hexpired⟩
  · exact h
  · refine h.move (by simp) ?_
    intro _ deadlineMs hbacked
    rcases hbacked with ⟨other, hother, hle⟩ | hpassed
    · cases hmem.symm.trans hother
      exact .inr (by omega)
    · exact .inr hpassed

/-- The answer to the publication that is on its way. -/
theorem Inv.answer (h : process.Inv stored timeMs) (hcall : process.call = some call)
    (hanswer : resultOf call outcome = .ok () →
      ∀ deadlineMs ∈ call.publication.deadline?, Backed stored timeMs deadlineMs) :
    Inv stored timeMs { process with call := some { call with outcome := some outcome } } where
  active_le := h.active_le
  stored_floor := fun protection hmem =>
    ⟨(h.stored_floor protection hmem).active, (h.stored_floor protection hmem).later⟩
  lease := by
    intro lease hlease hhealthy hne
    refine h.lease lease hlease hhealthy ?_
    intro other hother
    cases hcall.symm.trans hother
    exact hne { call with outcome := some outcome } rfl
  waiting := by
    intro other hother
    cases hother
    have hold := h.waiting call hcall
    refine ⟨fun floor hmem => ⟨(hold.floor floor hmem).active, (hold.floor floor hmem).later⟩,
      hold.release, hold.renewal, ?_, hold.ready⟩
    intro answer hmem hresult
    cases hmem
    exact hanswer hresult
  knowsIdle := h.knowsIdle

theorem resultOf_rejected (hne : call.publication ≠ .release) (rejection : MetadataRejection) :
    resultOf call (.rejected rejection) ≠ .ok () := by
  unfold resultOf
  split
  · simp [GcProtectionPublication.renewalResult]
  · cases rejection <;> simp [GcProtectionPublication.result, hne]

/-- The metadata group applies the publication that is on its way. -/
theorem Inv.deliver {m : MetadataState} {ownerId : Nat}
    (h : process.Inv (GcProtectionPublication.storedFor m ownerId) timeMs)
    (hcall : process.call = some call) :
    Inv (GcProtectionPublication.storedFor
        (m.apply (call.publication.command ownerId call.nowMs)).2 ownerId) timeMs
      { process with
        call := some { call with
          outcome := some (m.apply (call.publication.command ownerId call.nowMs)).1 } } := by
  have hwaiting := h.waiting call hcall
  by_cases hrelease : call.publication = .release
  · refine Inv.answer (h.move ?_ ?_) hcall (by simp [hrelease, GcProtectionPublication.deadline?])
    · intro protection hmem
      rw [hrelease] at hmem
      rcases GcProtectionPublication.stored_of_release with hsame | hnone
      · rw [hsame] at hmem
        exact h.stored_floor protection hmem
      · rw [hnone] at hmem
        cases hmem
    · intro hne
      exact absurd hrelease (hne call hcall)
  · rcases GcProtectionPublication.apply_cases hrelease with ⟨rejection, heq⟩ | ⟨new, hnew, hstores⟩
    · rw [heq]
      exact h.answer hcall fun hok => absurd hok (resultOf_rejected hrelease rejection)
    · rw [hnew]
      refine Inv.answer (h.move ?_ ?_) hcall ?_
      · intro protection hmem
        cases hmem
        rcases hstores.floor with hfloor | ⟨old, hold, hsame⟩
        · exact hwaiting.floor _ hfloor
        · rw [← hsame]
          exact h.stored_floor old hold
      · intro _ deadlineMs hbacked
        rcases hbacked with ⟨old, hold, hle⟩ | hpassed
        · exact .inl ⟨new, rfl, Nat.le_trans hle (hstores.extends_old old hold)⟩
        · exact .inr hpassed
      · intro _ deadlineMs hdeadline
        cases hstores.deadline.symm.trans hdeadline
        exact .inl ⟨new, rfl, Nat.le_refl _⟩

/-! ## The methods of the tracker -/

theorem Follows.refl (start : Timestamp) (tracker : GcProtectionTracker) :
    Follows start tracker tracker :=
  ⟨rfl, id, fun _ _ h => .inl h⟩

theorem follows_setUnhealthy (start : Timestamp) (tracker : GcProtectionTracker) :
    Follows start tracker tracker.setUnhealthy :=
  ⟨rfl, nofun, fun _ _ h => .inl h⟩

theorem follows_setActive (tracker : GcProtectionTracker) (txnId : TxnId) (readTs : Timestamp) :
    Follows readTs tracker (tracker.setActive txnId readTs) := by
  refine ⟨rfl, id, ?_⟩
  intro other otherTs hactive
  rcases getElem?_insert_eq_some.mp hactive with ⟨_, hnew⟩ | ⟨_, hold⟩
  · exact .inr hnew.symm
  · exact .inl hold

theorem follows_withdraw (start : Timestamp) (tracker : GcProtectionTracker) (txnId : TxnId)
    (previousIdleSince : Option Nat) :
    Follows start tracker (tracker.withdraw txnId previousIdleSince) := by
  refine ⟨rfl, id, ?_⟩
  intro other otherTs hactive
  rw [GcProtectionTracker.withdraw, getElem?_erase] at hactive
  split at hactive
  · cases hactive
  · exact .inl hactive

theorem Follows.trans {start : Timestamp} {a b c : GcProtectionTracker} (h : Follows start a b)
    (h' : Follows start b c) : Follows start a c := by
  refine ⟨h'.published.trans h.published, fun hc => h.leaseHealthy (h'.leaseHealthy hc), ?_⟩
  intro txnId readTs hactive
  rcases h'.active txnId readTs hactive with hmiddle | hnew
  · exact h.active txnId readTs hmiddle
  · exact .inr hnew

theorem Inv.bounds_activeFloor (h : process.Inv stored timeMs)
    (hfloor : process.tracker.activeFloor = some floor) : process.Bounds floor := by
  obtain ⟨hmem, hle⟩ := List.min?_eq_some_iff.mp hfloor
  refine ⟨fun txnId readTs hactive => hle readTs (mem_values.mpr ⟨txnId, hactive⟩), ?_⟩
  obtain ⟨txnId, hactive⟩ := mem_values.mp hmem
  exact h.active_le txnId floor hactive

/-- A plan of the tracker: what it does to the tracker and what it publishes. -/
structure Plans (method : GcMethod) (start : Timestamp) (old : GcProtectionTracker)
    (plan : GcPlan) : Prop where
  follows : Follows start old plan.2
  floor : ∀ publication, plan.1 = .ok (some publication) →
    ∀ floor ∈ publication.floor?, plan.2.activeFloor = some floor
  release : plan.1 = .ok (some .release) → method = .reconciliation ∧ plan.2.active = ∅
  knowsIdle : old.KnowsIdle → plan.2.KnowsIdle
  ready : old.KnowsIdle → ∀ publication, plan.1 = .ok (some publication) → method.Ready plan.2

section Plans

variable {method : GcMethod} {start : Timestamp} {old new : GcProtectionTracker}

theorem Plans.refuses (h : Follows start old new) (hknows : old.KnowsIdle → new.KnowsIdle)
    (error : Error) : Plans method start old (.error error, new) :=
  ⟨h, nofun, nofun, hknows, nofun⟩

theorem Plans.nothing (h : Follows start old new) (hknows : old.KnowsIdle → new.KnowsIdle) :
    Plans method start old (.ok none, new) :=
  ⟨h, nofun, nofun, hknows, nofun⟩

theorem Plans.publishes {publication : GcProtectionPublication} (h : Follows start old new)
    (hfloor : ∀ floor ∈ publication.floor?, new.activeFloor = some floor)
    (hrelease : publication = .release → method = .reconciliation ∧ new.active = ∅)
    (hknows : old.KnowsIdle → new.KnowsIdle) (hready : old.KnowsIdle → method.Ready new) :
    Plans method start old (.ok (some publication), new) where
  follows := h
  floor := by
    intro other heq
    cases heq
    exact hfloor
  release := by
    intro heq
    cases heq
    exact hrelease rfl
  knowsIdle := hknows
  ready hold _ _ := hready hold

end Plans

theorem knowsIdle_of_mem {txnId : TxnId} (h : txnId ∈ tracker.active) : tracker.KnowsIdle := by
  intro hempty
  rw [hempty] at h
  exact absurd h ExtTreeMap.not_mem_empty

theorem withdraw_setActive {txnId : TxnId} {readTs : Timestamp} (h : txnId ∉ tracker.active) :
    (tracker.setActive txnId readTs).withdraw txnId tracker.idleSince = tracker := by
  have hactive : (tracker.active.insert txnId readTs).erase txnId = tracker.active := by
    refine ExtTreeMap.ext_getElem? fun other => ?_
    rw [getElem?_erase, getElem?_insert]
    split
    · next heq => rw [← heq, ExtTreeMap.getElem?_eq_none h]
    · rfl
  rw [GcProtectionTracker.withdraw, GcProtectionTracker.setActive, hactive]

theorem activeFloor_setActive (tracker : GcProtectionTracker) (txnId : TxnId) (readTs : Timestamp) :
    (tracker.setActive txnId readTs).activeFloor =
      some ((tracker.setActive txnId readTs).activeFloor.getD readTs) := by
  have hmem : readTs ∈ values (tracker.setActive txnId readTs).active :=
    mem_values.mpr ⟨txnId, ExtTreeMap.getElem?_insert_self⟩
  cases hfloor : (tracker.setActive txnId readTs).activeFloor with
  | none =>
    rw [GcProtectionTracker.activeFloor, List.min?_eq_none_iff] at hfloor
    rw [hfloor] at hmem
    cases hmem
  | some => rfl

theorem plans_registerPlan (tracker : GcProtectionTracker) (txnId : TxnId) (readTs : Timestamp)
    (deadlineMs nowMs renewBeforeMs : Nat) :
    Plans (.registration txnId tracker.idleSince) readTs tracker
      (tracker.registerPlan txnId readTs deadlineMs nowMs renewBeforeMs) := by
  have hactive := follows_setActive tracker txnId readTs
  have hfloor := activeFloor_setActive tracker txnId readTs
  have hmem : txnId ∈ (tracker.setActive txnId readTs).active := ExtTreeMap.mem_insert_self
  have hknows : tracker.KnowsIdle → (tracker.setActive txnId readTs).KnowsIdle :=
    fun _ => knowsIdle_of_mem hmem
  unfold GcProtectionTracker.registerPlan
  split
  · exact .nothing (.refl _ _) id
  · next hfresh =>
    have hready (h : tracker.KnowsIdle) : GcMethod.Ready (tracker.setActive txnId readTs)
        (.registration txnId tracker.idleSince) :=
      ⟨hmem, by rw [withdraw_setActive hfresh]; exact h⟩
    dsimp only
    split
    · exact .publishes hactive (by rintro _ ⟨⟩; exact hfloor) nofun hknows hready
    · split
      · exact .refuses (follows_setUnhealthy _ _) id _
      · split
        · exact .publishes hactive (by rintro _ ⟨⟩; exact hfloor) nofun hknows hready
        · split
          · exact .publishes hactive nofun nofun hknows hready
          · exact .nothing hactive hknows

variable (start : Timestamp)

theorem plans_reconcilePlan (tracker : GcProtectionTracker)
    (now idleGrace nextDeadlineMs renewBeforeMs : Nat) :
    Plans .reconciliation start tracker
      (.ok (tracker.reconcilePlan now idleGrace nextDeadlineMs renewBeforeMs).1,
        (tracker.reconcilePlan now idleGrace nextDeadlineMs renewBeforeMs).2) := by
  obtain ⟨active, published, idleSince, leaseHealthy⟩ := tracker
  have hidle (published : Option PublishedLease) (idleSince : Option Nat) :
      Follows start ⟨active, published, idleSince, leaseHealthy⟩
        ⟨active, published, none, leaseHealthy⟩ :=
    ⟨rfl, id, fun _ _ h => .inl h⟩
  unfold GcProtectionTracker.reconcilePlan
  cases hfloor : GcProtectionTracker.activeFloor ⟨active, published, idleSince, leaseHealthy⟩ with
  | some =>
    have hreading {new : GcProtectionTracker} (hnew : new.active = active) : new.KnowsIdle := by
      intro hempty
      obtain rfl : active = ∅ := hnew.symm.trans hempty
      cases hfloor
    cases published with
    | none => exact .nothing (hidle _ _) fun _ => hreading rfl
    | some =>
      dsimp only [Option.bind]
      split
      · exact .publishes (hidle _ _) (by rintro _ ⟨⟩; exact hfloor) nofun
          (fun _ => hreading rfl) nofun
      · split
        · exact .publishes (hidle _ _) nofun nofun (fun _ => hreading rfl) nofun
        · exact .nothing (hidle _ _) fun _ => hreading rfl
  | none =>
    have hempty : active = ∅ := values_eq_nil.mp (List.min?_eq_none_iff.mp hfloor)
    cases idleSince with
    | none => exact .nothing (.refl _ _) id
    | some =>
      cases published with
      | none => exact .nothing (hidle _ _) fun _ _ hlease => absurd rfl hlease
      | some =>
        dsimp only
        split
        · exact .publishes (.refl _ _) nofun (fun _ => ⟨rfl, hempty⟩) id nofun
        · split
          · exact .publishes (.refl _ _) nofun nofun id nofun
          · exact .nothing (.refl _ _) id

variable {config : GcProtectionConfig}

theorem plans_registerGcProtection (tracker : GcProtectionTracker) (txnId : TxnId)
    (readTs : Timestamp) (nowMs : Nat) :
    Plans (.registration txnId tracker.idleSince) readTs tracker
      (config.registerGcProtection tracker txnId readTs nowMs) := by
  unfold GcProtectionConfig.registerGcProtection
  split
  · exact .refuses (.refl _ _) id _
  · exact plans_registerPlan ..

theorem plans_reconcileGcProtectionOnce (tracker : GcProtectionTracker) (now nowMs : Nat) :
    Plans .reconciliation start tracker
      (config.reconcileGcProtectionOnce tracker now nowMs) := by
  unfold GcProtectionConfig.reconcileGcProtectionOnce
  split
  · exact .refuses (.refl _ _) id _
  · exact plans_reconcilePlan ..

theorem follows_releaseLocal (tracker : GcProtectionTracker) (txnId : TxnId)
    (now : Nat) : Follows start tracker (tracker.releaseLocal txnId now).2 := by
  unfold GcProtectionTracker.releaseLocal
  split
  · exact ⟨rfl, id, (follows_withdraw start tracker txnId none).active⟩
  · exact .refl _ _

theorem knowsIdle_releaseLocal (h : tracker.KnowsIdle) (txnId : TxnId) (now : Nat) :
    (tracker.releaseLocal txnId now).2.KnowsIdle := by
  unfold GcProtectionTracker.releaseLocal
  split
  · intro hempty _
    simp [ExtTreeMap.isEmpty_iff.mpr hempty]
  · exact h

/-! ## The steps of one process -/

/-- A method starts. -/
theorem Inv.begin (h : process.Inv stored timeMs) (hidle : process.call = none)
    {method : GcMethod} (hmethod : ∀ deadlineMs, method ≠ .renewal deadlineMs) (nowMs : Nat)
    {plan : GcPlan} (hplan : Plans method process.lastStart process.tracker plan) :
    (process.begin method nowMs plan).Inv stored timeMs := by
  obtain ⟨result, tracker⟩ := plan
  have hnext := h.idle hplan.follows (hplan.knowsIdle h.knowsIdle) (by simp [hidle])
  have hsame : { process with tracker, call := none } = { process with tracker } := by
    rw [hidle]
  unfold GcProcess.begin
  split
  · rename_i publication tracker heq
    cases heq
    refine hnext.start rfl ⟨?_, ?_, ?_, nofun, hplan.ready h.knowsIdle _ rfl⟩
    · intro floor hfloor
      exact hnext.bounds_activeFloor (hplan.floor _ rfl floor hfloor)
    · intro hrelease
      exact hplan.release (congrArg (Except.ok ∘ some) hrelease)
    · intro deadlineMs heq
      exact absurd heq (hmethod deadlineMs)
  · rename_i heq
    cases heq
    exact hsame ▸ hnext

/-- A method that failed stores nothing. -/
theorem follows_settle_error (hknows : tracker.KnowsIdle) (hready : call.method.Ready tracker)
    (error : Error) : Follows start tracker (settle tracker call (.error error)) ∧
      (settle tracker call (.error error)).KnowsIdle := by
  unfold settle
  split
  · rename_i txnId previousIdleSince hmethod
    rw [hmethod] at hready
    have hwithdrawn := follows_withdraw start tracker txnId previousIdleSince
    unfold GcProtectionTracker.registerSettle
    dsimp only
    split
    · split
      · exact ⟨hwithdrawn, hready.2⟩
      · exact ⟨hwithdrawn.trans (follows_setUnhealthy _ _), hready.2⟩
    · split
      · exact ⟨hwithdrawn, hready.2⟩
      · exact ⟨hwithdrawn.trans (follows_setUnhealthy _ _), hready.2⟩
    · exact ⟨hwithdrawn, hready.2⟩
    · exact ⟨hwithdrawn, hready.2⟩
  · exact ⟨follows_setUnhealthy _ _, hknows⟩
  · exact ⟨follows_setUnhealthy _ _, hknows⟩

section

variable (h : process.Inv stored timeMs)
include h

theorem Inv.settle_error (hcall : process.call = some call) (error : Error) : Inv stored timeMs
      { process with tracker := settle process.tracker call (.error error), call := none } := by
  obtain ⟨hfollows, hknows⟩ :=
    follows_settle_error process.lastStart h.knowsIdle (h.waiting call hcall).ready error
  refine h.idle hfollows hknows ?_
  intro other hother hrelease
  cases hcall.symm.trans hother
  rw [settle, ((h.waiting call hcall).release hrelease).1]
  rfl

theorem Inv.settle_ok (hcall : process.call = some call) (houtcome : call.outcome = some outcome)
    (hresult : resultOf call outcome = .ok ()) : Inv stored timeMs
      { process with tracker := settle process.tracker call (.ok ()), call := none } := by
  have hwaiting := h.waiting call hcall
  have hready := hwaiting.ready
  have hstore := h.store (hwaiting.answered outcome houtcome hresult)
  obtain ⟨method, publication, nowMs, answer⟩ := call
  cases method with
  | registration =>
    have hlease := hstore fun hempty _ => absurd hready.1 (by rw [hempty]; simp)
    cases publication with
    | release => cases (hwaiting.release rfl).1
    | _ => exact hlease
  | reconciliation =>
    cases publication with
    | register =>
      refine h.idle (.refl _ _) h.knowsIdle ?_
      intro other hother hrelease
      cases hcall.symm.trans hother
      cases hrelease
    | _ => exact hstore fun _ _ => hready
  | renewal deadlineMs =>
    cases hwaiting.renewal deadlineMs rfl
    refine hstore fun _ hlease hnone => hlease ?_
    simp [GcProtectionTracker.storePublication, hnone]

theorem Inv.raise {start : Timestamp} (hle : process.lastStart ≤ start)
    (hidle : process.call = none) : Inv stored timeMs { process with lastStart := start } where
  active_le := fun txnId readTs hactive => Nat.le_trans (h.active_le txnId readTs hactive) hle
  stored_floor := fun protection hmem =>
    ⟨(h.stored_floor protection hmem).active,
      Nat.le_trans (h.stored_floor protection hmem).later hle⟩
  lease := h.lease
  waiting := by simp [hidle]
  knowsIdle := h.knowsIdle

end

end GcProcess

/-! ## All processes -/

namespace GcCluster

open GcProtectionPublication (storedFor)

variable {config : GcProtectionConfig} {s t : GcCluster}
variable {ownerId : Nat}

structure Inv (s : GcCluster) : Prop where
  metadata : metadataLog.Reachable s.metadata
  process : ∀ ownerId,
    (s.processes ownerId).Inv (storedFor s.metadata ownerId) s.timeMs

theorem Inv.init (h : (system config).init s) : s.Inv where
  metadata := h.1
  process := by
    intro ownerId
    rw [(h.2 ownerId).1, storedFor, (h.2 ownerId).2]
    exact .new

theorem Inv.setProcess (h : s.Inv) {process : GcProcess}
    (hprocess : process.Inv (storedFor s.metadata ownerId) s.timeMs) :
    (s.setProcess ownerId process).Inv where
  metadata := h.metadata
  process := by
    intro other
    by_cases heq : other = ownerId
    · subst heq
      simpa [setProcess] using hprocess
    · simpa [GcCluster.setProcess, heq] using h.process other

theorem Inv.deliver (h : s.Inv) {call : GcCall} (hcall : (s.processes ownerId).call = some call) :
    Inv { s.setProcess ownerId
        { s.processes ownerId with
          call := some { call with
            outcome := some (s.metadata.apply (call.publication.command ownerId call.nowMs)).1 } }
      with metadata := (s.metadata.apply (call.publication.command ownerId call.nowMs)).2 } where
  metadata := h.metadata.step (a := (none, call.publication.command ownerId call.nowMs)) rfl
  process := by
    intro other
    by_cases heq : other = ownerId
    · subst heq
      simpa [GcCluster.setProcess] using (h.process other).deliver hcall
    · have hstep : metadataLog.step s.metadata
          (none, call.publication.command ownerId call.nowMs)
          (s.metadata.apply (call.publication.command ownerId call.nowMs)).2 := rfl
      have hstored : storedFor (s.metadata.apply (call.publication.command ownerId call.nowMs)).2
          other = storedFor s.metadata other :=
        protection_of_not_touches hstep
          (GcProtectionPublication.not_touches_command heq)
      simpa [GcCluster.setProcess, heq, hstored] using h.process other

/-- Every action keeps the invariant. -/
theorem Inv.step {action : Action} (h : s.Inv) (hstep : (system config).step s action t) :
    t.Inv := by
  have hstep : next config s action = some t := hstep
  cases action with
  | register ownerId txnId readTs nowMs =>
    simp only [next, eq_some] at hstep
    obtain ⟨⟨hidle, hlater⟩, rfl⟩ := hstep
    have hraised := (h.process ownerId).raise (Nat.le_of_lt hlater) hidle
    exact h.setProcess (hraised.begin hidle (by simp) nowMs
      (GcProcess.plans_registerGcProtection _ txnId readTs nowMs))
  | releaseLocal ownerId txnId now =>
    simp only [next, eq_some] at hstep
    obtain ⟨hidle, rfl⟩ := hstep
    have hreleased := (h.process ownerId).idle (GcProcess.follows_releaseLocal _ _ txnId now)
      (GcProcess.knowsIdle_releaseLocal (h.process ownerId).knowsIdle txnId now) (by simp [hidle])
    rw [← hidle] at hreleased
    exact h.setProcess hreleased
  | reconcile ownerId now nowMs =>
    simp only [next, eq_some] at hstep
    obtain ⟨hidle, rfl⟩ := hstep
    exact h.setProcess ((h.process ownerId).begin hidle (by simp) nowMs
      (GcProcess.plans_reconcileGcProtectionOnce _ _ now nowMs))
  | renew ownerId =>
    simp only [next, eq_some] at hstep
    obtain ⟨⟨hidle, _⟩, rfl⟩ := hstep
    refine h.setProcess ((h.process ownerId).start hidle
      ⟨by rintro _ ⟨⟩, by simp, ?_, by simp, trivial⟩)
    intro other heq
    cases heq
    rfl
  | deliver =>
    simp only [next] at hstep
    split at hstep
    · rename_i method publication nowMs hcall
      cases hstep
      exact h.deliver hcall
    · cases hstep
  | answer ownerId =>
    simp only [next, eq_some] at hstep
    obtain ⟨call, hcall, outcome, houtcome, rfl⟩ := hstep
    refine h.setProcess ?_
    cases hresult : GcProcess.resultOf call outcome with
    | error error => exact (h.process ownerId).settle_error hcall error
    | ok => exact (h.process ownerId).settle_ok hcall houtcome hresult
  | fail ownerId error =>
    simp only [next, eq_some] at hstep
    obtain ⟨call, hcall, rfl⟩ := hstep
    exact h.setProcess ((h.process ownerId).settle_error hcall error)
  | advanceSafePoint candidate nowMs =>
    simp only [next, eq_some] at hstep
    obtain ⟨⟨hclock, _⟩, rfl⟩ := hstep
    have hnow : conservativeGcExpirationTimeMs nowMs config.maxClockSkewMs ≤ s.timeMs := by
      unfold conservativeGcExpirationTimeMs
      omega
    exact ⟨h.metadata.step rfl, fun ownerId =>
      (h.process ownerId).sweep hnow (protection_of_sweep rfl)⟩
  | propose entry =>
    simp only [next, eq_some] at hstep
    obtain ⟨hforeign, rfl⟩ := hstep
    refine ⟨h.metadata.step rfl, ?_⟩
    intro ownerId
    have hstored : storedFor (s.metadata.applyEntry entry).2 ownerId =
        storedFor s.metadata ownerId :=
      protection_of_not_touches rfl (hforeign.not_touches ownerId)
    rw [hstored]
    exact h.process ownerId
  | tick =>
    simp only [next, eq_some] at hstep
    obtain ⟨hle, rfl⟩ := hstep
    exact ⟨h.metadata, fun ownerId =>
      (h.process ownerId).move (h.process ownerId).stored_floor fun _ _ hbacked =>
        hbacked.mono hle⟩

theorem inv_of_reachable (h : (system config).Reachable s) : s.Inv :=
  h.invariant .init fun _ => .step

/-- In every state that the processes reach, whatever their interleaving and whichever of the
failed publications were applied: a transaction that is active in a tracker whose lease is
healthy, with a deadline beyond the local clock plus the skew, starts at or above the floor
stored for its process, and at or above the safe point. -/
theorem active_readers_protected (h : (system config).Reachable s) {ownerId : Nat} {txnId : TxnId}
    {readTs : Timestamp} {nowMs : Nat}
    (hactive : (s.processes ownerId).tracker.active[txnId]? = some readTs)
    (hhealthy : (s.processes ownerId).tracker.leaseHealthy = true) (hclock : s.timeMs ≤ nowMs)
    (hdeadline : nowMs + config.maxClockSkewMs < (s.processes ownerId).tracker.leaseDeadline) :
    (∃ protection, s.metadata.gcProtections[(ownerId, aggregateGcProtectionId)]? = some protection ∧
        protection.protectedTimestamp ≤ readTs) ∧
    s.metadata.gcSafePoint ≤ readTs := by
  have hinv := inv_of_reachable h
  have hprocess := hinv.process ownerId
  cases hpublished : (s.processes ownerId).tracker.published with
  | none => simp [GcProtectionTracker.leaseDeadline, hpublished] at hdeadline
  | some lease =>
    have hlater : s.timeMs < lease.deadlineMs := by
      simp only [GcProtectionTracker.leaseDeadline, hpublished, Option.elim] at hdeadline
      omega
    have hreading : ∀ call ∈ (s.processes ownerId).call, call.publication ≠ .release := by
      intro call hcall hrelease
      rw [((hprocess.waiting call hcall).release hrelease).2] at hactive
      simp at hactive
    rcases hprocess.lease lease hpublished hhealthy hreading with ⟨protection, hstored, _⟩ | hpassed
    · have hle := (hprocess.stored_floor protection hstored).active txnId readTs hactive
      exact ⟨⟨protection, hstored, hle⟩,
        Nat.le_trans (held_of_reachable hinv.metadata hstored) hle⟩
    · omega

/-- Leases of 100 ms, clocks within 5 ms. -/
def sampleConfig : GcProtectionConfig := ⟨100, 5, 10⟩

/-- Process 1 reads at 5; its second registration, at 9, needs no publication, and a renewal
times out after it was applied. -/
def sampleActions : List Action :=
  [.propose (none, .clusterInitialized "c"), .register 1 1 5 10, .deliver 1, .answer 1,
    .register 1 2 9 12, .reconcile 1 70 70, .deliver 1, .fail 1 (.proposalUnavailable "timeout"),
    .reconcile 1 71 71, .deliver 1, .answer 1, .tick 120, .advanceSafePoint 20 125]

theorem active_readers_protected_sample :
    ∃ s protection, (system sampleConfig).Reachable s ∧ s.metadata.gcSafePoint = 5 ∧
      s.metadata.gcProtections[(1, aggregateGcProtectionId)]? = some protection ∧
      protection.protectedTimestamp ≤ 9 := by
  have hrun : (sampleActions.foldlM (next sampleConfig) ⟨.new, fun _ => {}, 0⟩).map (fun s =>
      (s.timeMs, s.metadata.gcSafePoint, (s.processes 1).tracker.active[2]?,
        (s.processes 1).tracker.leaseHealthy, (s.processes 1).tracker.leaseDeadline)) =
      some (120, 5, some 9, true, 171) := by decide +kernel
  obtain ⟨s, hreachable, hstate⟩ := Lts.Reachable.of_run (L := system sampleConfig) hrun
    ⟨.of_init rfl, fun _ => ⟨rfl, by simp [new]⟩⟩ id
  simp only [Prod.mk.injEq] at hstate
  obtain ⟨htime, hsafe, hactive, hhealthy, hdeadline⟩ := hstate
  have hclock : s.timeMs ≤ 122 := by omega
  obtain ⟨⟨protection, hstored, hle⟩, -⟩ := active_readers_protected hreachable hactive hhealthy
    hclock (by rw [hdeadline]; decide)
  exact ⟨s, protection, hreachable, hsafe, hstored, hle⟩

end GcCluster

end RagnorDb
