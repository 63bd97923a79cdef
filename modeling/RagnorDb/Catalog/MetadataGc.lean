import RagnorDb.Catalog.MetadataStep

/-!
# The GC safe point

Five commands register, move, renew, release and sweep protections while the safe point moves,
each with its own clock.  Whatever the clocks say, the safe point does not fall and does not
pass a protection that is still held.
-/

namespace RagnorDb

open Std Checked OrderedMap

namespace MetadataState

variable {s t : MetadataState} {command : MetadataCommand} {accepted : Accepted} {entry : LogEntry}
  {key : Nat × Nat}
variable {protection : MetadataGcProtection}

/-- An entry is applied if it is not the retry of a retained request and its command is
accepted. -/
def Applies (s : MetadataState) (entry : LogEntry) : Prop :=
  (∀ logicalCommandId ∈ entry.1, logicalCommandId ∉ s.requestDeduplication) ∧
    (s.tryApply entry.2).toOption.isSome

/-- An entry releases the protection, or expires it with a clock that has reached its lease
deadline. -/
def Ends (s : MetadataState) (key : Nat × Nat) (entry : LogEntry) : Prop :=
  s.Applies entry ∧ match entry.2 with
    | .releaseGcProtection ownerId protectionId => (ownerId, protectionId) = key
    | .advanceGcSafePoint _ nowMs =>
      ∃ protection ∈ s.gcProtections[key]?, protection.leaseDeadlineMs ≤ nowMs
    | _ => False

/-- An entry may move the protected timestamp. -/
def Retargets (key : Nat × Nat) (entry : LogEntry) : Prop :=
  match entry.2 with
  | .updateGcProtection protection _ => (protection.ownerId, protection.protectionId) = key
  | _ => False

instance (s : MetadataState) (entry : LogEntry) : Decidable (s.Applies entry) := by
  unfold Applies
  infer_instance

instance (s : MetadataState) (key : Nat × Nat) (entry : LogEntry) :
    Decidable (s.Ends key entry) := by
  unfold Ends
  split <;> infer_instance

instance (key : Nat × Nat) (entry : LogEntry) : Decidable (Retargets key entry) := by
  unfold Retargets
  split <;> infer_instance

/-- An entry that is not applied changes no map but that of the retained outcomes. -/
theorem eq_of_not_applies (h : ¬ s.Applies entry) :
    ∃ requests, (s.applyEntry entry).2 = { s with requestDeduplication := requests } := by
  obtain ⟨identity, command⟩ := entry
  have hrejected : ¬ (s.tryApply command).toOption.isSome → (s.apply command).2 = s := by
    intro hnone
    cases htry : s.tryApply command with
    | ok => simp [htry, Except.toOption] at hnone
    | error => simp [apply, htry]
  cases identity with
  | none =>
    refine ⟨s.requestDeduplication, hrejected ?_⟩
    intro hsome
    exact h ⟨by simp, hsome⟩
  | some logicalCommandId =>
    simp only [applyEntry, applyWithLogicalCommandId]
    cases hretained : s.requestDeduplication[logicalCommandId]? with
    | some => exact ⟨_, rfl⟩
    | none =>
      have happly : (s.apply command).2 = s := by
        apply hrejected
        intro hsome
        refine h ⟨?_, hsome⟩
        rintro _ ⟨⟩
        exact not_mem_of_getElem?_eq_none hretained
      refine ⟨s.requestDeduplication.insert logicalCommandId
        (metadataOutcomeToCached (s.apply command).1), ?_⟩
      simp [happly]

/-! ## The safe point -/

theorem le_allowedSafePoint {candidate : Timestamp} {nowMs : Nat}
    (hcandidate : s.gcSafePoint ≤ candidate)
    (hold : Each (fun _ protection => s.gcSafePoint ≤ protection.protectedTimestamp)
      s.gcProtections) : s.gcSafePoint ≤ s.allowedSafePoint candidate nowMs := by
  unfold allowedSafePoint
  cases hfloor : ((values (s.retainedProtections nowMs)).map (·.protectedTimestamp)).min? with
  | none => exact hcandidate
  | some =>
    rw [List.min?_eq_some_iff] at hfloor
    obtain ⟨protection, hmem, rfl⟩ := List.mem_map.mp hfloor.1
    obtain ⟨key, hkey⟩ := mem_values.mp hmem
    exact Nat.le_min.mpr ⟨hcandidate, hold (Sub.filter _ _ key protection hkey)⟩

/-- Every protection is at least the safe point. -/
abbrev Held (s : MetadataState) : Prop :=
  Each (fun _ protection => s.gcSafePoint ≤ protection.protectedTimestamp) s.gcProtections

theorem Change.safePoint (h : s.Change command accepted) (hold : s.Held) :
    accepted.2.Held ∧ s.gcSafePoint ≤ accepted.2.gcSafePoint := by
  cases h with
  | registerProtection hle | updateProtection hle => exact ⟨hold.insert hle, Nat.le_refl _⟩
  | renewProtection hexisting =>
    have hle := hold hexisting
    exact ⟨hold.insert hle, Nat.le_refl _⟩
  | releaseProtection => exact ⟨hold.of_sub (.erase _ _), Nat.le_refl _⟩
  | advanceSafePoint hcandidate =>
    exact ⟨s.allowedSafePoint_le _ _, le_allowedSafePoint hcandidate hold⟩
  | _ => exact ⟨hold, Nat.le_refl _⟩

theorem safePoint_of_step (hstep : metadataLog.step s entry t) (hold : s.Held) :
    t.Held ∧ s.gcSafePoint ≤ t.gcSafePoint := by
  obtain ⟨moved, requests, hmoves, rfl⟩ := moves_of_step hstep
  cases hmoves with
  | stays | initializes => exact ⟨hold, Nat.le_refl _⟩
  | changes _ _ hchange => exact hchange.safePoint hold

theorem held_of_reachable (h : metadataLog.Reachable s) : s.Held := by
  refine h.invariant ?_ fun _ hold hstep => (safePoint_of_step hstep hold).1
  intro s hs
  cases hs
  exact .empty

/-! ## One protection -/

/-- A change that does not end a protection leaves it, and only an update moves it. -/
theorem Change.keeps_protection (h : s.Change command accepted)
    (hkey : s.gcProtections[key]? = some protection)
    (hrelease : ∀ ownerId protectionId, command = .releaseGcProtection ownerId protectionId →
      (ownerId, protectionId) ≠ key)
    (hexpire : ∀ candidate nowMs, command = .advanceGcSafePoint candidate nowMs →
      nowMs < protection.leaseDeadlineMs) :
    ∃ protection', accepted.2.gcProtections[key]? = some protection' ∧
      (¬ Retargets key (none, command) →
        protection'.protectedTimestamp = protection.protectedTimestamp) := by
  cases h with
  | @registerProtection new nowMs _ hnone =>
    refine ⟨protection, getElem?_insert_eq_some.mpr (.inr ⟨?_, hkey⟩), fun _ => rfl⟩
    rintro rfl
    cases hnone.symm.trans hkey
  | @updateProtection new existing nowMs =>
    by_cases hsame : (new.ownerId, new.protectionId) = key
    · exact ⟨new, getElem?_insert_eq_some.mpr (.inl ⟨hsame, rfl⟩), fun hne => absurd hsame hne⟩
    · exact ⟨protection, getElem?_insert_eq_some.mpr (.inr ⟨hsame, hkey⟩), fun _ => rfl⟩
  | @renewProtection ownerId protectionId leaseDeadlineMs nowMs existing hexisting =>
    by_cases hsame : (ownerId, protectionId) = key
    · subst hsame
      cases hexisting.symm.trans hkey
      exact ⟨_, ExtTreeMap.getElem?_insert_self, fun _ => rfl⟩
    · exact ⟨protection, getElem?_insert_eq_some.mpr (.inr ⟨hsame, hkey⟩), fun _ => rfl⟩
  | releaseProtection =>
    refine ⟨protection, ?_, fun _ => rfl⟩
    rw [getElem?_erase, if_neg (hrelease _ _ rfl)]
    exact hkey
  | advanceSafePoint =>
    refine ⟨protection, ?_, fun _ => rfl⟩
    exact getElem?_filter_eq_some.mpr ⟨hkey, decide_eq_true (hexpire _ _ rfl)⟩
  | _ => exact ⟨protection, hkey, fun _ => rfl⟩

theorem protection_of_register {identity : Option LogicalCommandId} {nowMs : Nat}
    (h : s.Applies (identity, .registerGcProtection protection nowMs)) :
    (s.applyEntry (identity, .registerGcProtection protection nowMs)).2.gcProtections[
      (protection.ownerId, protection.protectionId)]? = some protection := by
  obtain ⟨hfresh, hsome⟩ := h
  obtain ⟨accepted, htry⟩ := Option.isSome_iff_exists.mp hsome
  rw [toOption_eq_some] at htry
  have happly : s.apply (.registerGcProtection protection nowMs) =
      (.applied, s.putGcProtection protection) := by
    rw [apply, htry]
    simp only [tryApply, handle, applyRegisterGcProtection, eq_ok] at htry
    obtain ⟨_, -, _, -, _, -, htry⟩ := htry
    split at htry <;> simp only [eq_ok, reduceCtorEq, and_false, exists_false] at htry
    exact htry.symm
  cases identity with
  | none => simp [applyEntry, happly, putGcProtection]
  | some logicalCommandId =>
    simp [applyEntry, applyWithLogicalCommandId, happly, putGcProtection,
      ExtTreeMap.getElem?_eq_none (hfresh logicalCommandId rfl)]

theorem protection_of_step (hstep : metadataLog.step s entry t) (hends : ¬ s.Ends key entry)
    (hkey : s.gcProtections[key]? = some protection) :
    ∃ protection', t.gcProtections[key]? = some protection' ∧
      (¬ Retargets key entry →
        protection'.protectedTimestamp = protection.protectedTimestamp) := by
  by_cases happlies : s.Applies entry
  · obtain ⟨moved, requests, hmoves, rfl⟩ := moves_of_step hstep
    cases hmoves with
    | stays | initializes => exact ⟨protection, hkey, fun _ => rfl⟩
    | changes _ _ hchange =>
      refine hchange.keeps_protection hkey ?_ ?_
      · intro ownerId protectionId heq hsame
        exact hends ⟨happlies, by simpa only [heq] using hsame⟩
      · intro candidate nowMs heq
        by_contra hlate
        exact hends ⟨happlies, by
          simpa only [heq] using ⟨protection, hkey, by omega⟩⟩
  · obtain ⟨requests, heq⟩ := eq_of_not_applies happlies
    subst hstep
    rw [heq]
    exact ⟨protection, hkey, fun _ => rfl⟩

theorem protection_of_steps {C : MetadataState → LogEntry → Prop} {log : List LogEntry}
    (hC : ∀ {s entry}, C s entry → ¬ s.Ends key entry) (h : (metadataLog.restrict C).Steps s log t)
    (hkey : s.gcProtections[key]? = some protection) :
    ∃ protection', t.gcProtections[key]? = some protection' ∧
      ((∀ {s entry}, C s entry → ¬ Retargets key entry) →
        protection'.protectedTimestamp = protection.protectedTimestamp) := by
  induction h generalizing protection with
  | nil => exact ⟨protection, hkey, fun _ => rfl⟩
  | cons hstep _ ih =>
    obtain ⟨middle, hmiddle, hsame⟩ := protection_of_step hstep.2 (hC hstep.1) hkey
    obtain ⟨last, hlast, hsame'⟩ := ih hmiddle
    refine ⟨last, hlast, ?_⟩
    intro hfixed
    exact (hsame' hfixed).trans (hsame (hfixed hstep.1))

/-- In every state that a log reaches no protection lies below the safe point, and whatever
follows the safe point does not fall.  A registration that is applied stores its protection.  A
stored protection that no entry releases or expires is still stored, at or above the safe point;
and if no entry moves it either, the safe point has not passed its protected timestamp. -/
theorem gc_safe (hs : metadataLog.Reachable s) :
    (∀ (key : Nat × Nat) (protection : MetadataGcProtection),
      s.gcProtections[key]? = some protection → s.gcSafePoint ≤ protection.protectedTimestamp) ∧
    (∀ (log : List LogEntry) (t : MetadataState), metadataLog.Steps s log t →
      s.gcSafePoint ≤ t.gcSafePoint) ∧
    (∀ (identity : Option LogicalCommandId) (protection : MetadataGcProtection) (nowMs : Nat),
      s.Applies (identity, .registerGcProtection protection nowMs) →
      (s.applyEntry (identity, .registerGcProtection protection nowMs)).2.gcProtections[
        (protection.ownerId, protection.protectionId)]? = some protection) ∧
    ∀ (key : Nat × Nat) (protection : MetadataGcProtection),
      s.gcProtections[key]? = some protection → (∀ (log : List LogEntry) (t : MetadataState),
        (metadataLog.restrict fun s entry => ¬ s.Ends key entry).Steps s log t →
        ∃ protection', t.gcProtections[key]? = some protection' ∧
          t.gcSafePoint ≤ protection'.protectedTimestamp) ∧
      (∀ (log : List LogEntry) (t : MetadataState),
        (metadataLog.restrict fun s entry => ¬ s.Ends key entry ∧ ¬ Retargets key entry).Steps
          s log t → t.gcSafePoint ≤ protection.protectedTimestamp) := by
  have hheld := held_of_reachable hs
  refine ⟨fun key protection hkey => hheld hkey, ?_, fun _ _ _ => protection_of_register, ?_⟩
  · intro log t hsteps
    exact hsteps.relates (R := fun s t => s.gcSafePoint ≤ t.gcSafePoint) (fun _ => Nat.le_refl _)
      Nat.le_trans (fun hr hstep => (safePoint_of_step hstep (held_of_reachable hr)).2) hs
  · intro key protection hkey
    refine ⟨?_, ?_⟩
    · intro log t hsteps
      obtain ⟨protection', hkey', -⟩ := protection_of_steps id hsteps hkey
      exact ⟨protection', hkey', held_of_reachable (hs.steps (hsteps.of_restrict)) hkey'⟩
    · intro log t hsteps
      obtain ⟨protection', hkey', hsame⟩ := protection_of_steps And.left hsteps hkey
      rw [← hsame And.right]
      exact held_of_reachable (hs.steps (hsteps.of_restrict)) hkey'

/-- Owner 1 protects timestamp 5 until the clock shows 100. -/
def protectedLog : List LogEntry :=
  [(none, .clusterInitialized "c"), (none, .registerGcProtection ⟨1, 1, 5, 100⟩ 10)]

/-- The sweep with clock 99 stops at the protection. -/
theorem gc_safe_sample :
    ∃ s t, metadataLog.Reachable s ∧ s.gcProtections[(1, 1)]? = some ⟨1, 1, 5, 100⟩ ∧
      (metadataLog.restrict fun s entry => ¬ s.Ends (1, 1) entry ∧ ¬ Retargets (1, 1) entry).Steps s
        [(none, .advanceGcSafePoint 20 99)] t ∧ t.gcSafePoint = 5 ∧ t.gcSafePoint ≤ 5 := by
  have hreachable : metadataLog.Reachable (new.afterLog protectedLog) :=
    ⟨_, _, rfl, steps_afterLog _ _⟩
  have hkey : (new.afterLog protectedLog).gcProtections[(1, 1)]? = some ⟨1, 1, 5, 100⟩ := by
    decide +kernel
  have hsteps : (metadataLog.restrict fun s entry => ¬ s.Ends (1, 1) entry ∧
      ¬ Retargets (1, 1) entry).Steps (new.afterLog protectedLog)
        [(none, .advanceGcSafePoint 20 99)] _ := steps_of_logMeets (by decide +kernel)
  exact ⟨_, _, hreachable, hkey, hsteps, by decide +kernel,
    ((gc_safe hreachable).2.2.2 _ _ hkey).2 _ _ hsteps⟩

end MetadataState

end RagnorDb
