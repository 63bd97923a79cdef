import RagnorDb.MultiRaft.LogView
import RagnorDb.Lib.Lts

/-!
# Runs of a log view

The methods of a log view change it in place.  They are given here in the order of the source,
checks first and then one assignment after the other, and agree with the functions of
`LogView`.  What any sequence of calls keeps is `WellFormed`: the retained entries follow the
snapshot base without a gap and their terms never fall.
-/

namespace RagnorDb

open Std Checked OrderedMap

namespace RaftReplicaLogView

variable {i index term commit : Nat}

/-- A method of a log view. -/
abbrev Method := EStateM RaftLogViewError RaftReplicaLogView

def advanceCommitInPlace (commit : Nat) : Method Unit := do
  let self ← get
  rejectIf (commit < self.committedIndex)
    (RaftLogViewError.commitRegression self.committedIndex commit)
  modify fun self => { self with committedIndex := commit }

def installSnapshotInPlace (index term : Nat) (lsn : Lsn) : Method Unit := do
  let self ← get
  self.checkSnapshot index term
  self.checkLsn lsn
  modify fun self =>
    { self with entries := self.entries.filter fun i _ => saturatingAdd index 1 ≤ i }
  modify fun self => { self with snapshotIndex := index }
  modify fun self => { self with snapshotTerm := term }
  modify fun self => { self with committedIndex := max self.committedIndex index }
  modify fun self => { self with lastReplayedLsn := some lsn }

/-- Drop the entries that an admitted entry replaces. -/
def dropReplaced (index : Nat) : RaftLogReplayOutcome → Method Unit
  | .replacedSuffix _ =>
    modify fun self => { self with entries := self.entries.filter fun i _ => i < index }
  | .appended | .idempotentReplay => pure ()

def replayInPlace (record : RaftLogEntryRecord) (lsn : Lsn) : Method RaftLogReplayOutcome := do
  let self ← get
  record.validate.mapError RaftLogViewError.invalidRecord
  rejectIf (record.identity ≠ self.identity)
    (RaftLogViewError.identityMismatch self.identity record.identity)
  self.checkLsn lsn
  let outcome ← self.classify record
  dropReplaced record.index outcome
  modify fun self => { self with entries := self.entries.insert record.index ⟨record, lsn⟩ }
  modify fun self => { self with lastReplayedLsn := some lsn }
  return outcome

/-- A call of one of the three methods. -/
inductive Call where
  | replay (record : RaftLogEntryRecord) (lsn : Lsn)
  | installSnapshot (index term : Nat) (lsn : Lsn)
  | advanceCommit (commit : Nat)

/-- The WAL position that a call brings. -/
def Call.lsn? : Call → Option Lsn
  | .replay _ lsn | .installSnapshot _ _ lsn => some lsn
  | .advanceCommit _ => none

def Call.run : Call → Method Unit
  | .replay record lsn => do
    let _ ← replayInPlace record lsn
  | .installSnapshot index term lsn => installSnapshotInPlace index term lsn
  | .advanceCommit commit => advanceCommitInPlace commit

/-- The view that an accepted call leaves. -/
def Call.result (view : RaftReplicaLogView) : Call → Except RaftLogViewError RaftReplicaLogView
  | .replay record lsn => view.replay record lsn
  | .installSnapshot index term lsn => view.installSnapshot index term lsn
  | .advanceCommit commit => view.advanceCommit commit

variable {view view' : RaftReplicaLogView} {record : RaftLogEntryRecord} {lsn : Lsn}

/-- How a method in place follows from the function: an accepted call leaves the function's
view, a rejected one the view that it found. -/
def outcomeOf (view : RaftReplicaLogView) :
    Except RaftLogViewError RaftReplicaLogView →
      EStateM.Result RaftLogViewError RaftReplicaLogView Unit
  | .ok view' => .ok () view'
  | .error e => .error e view

theorem advanceCommitInPlace_run (commit : Nat) :
    (advanceCommitInPlace commit).run view = view.outcomeOf (view.advanceCommit commit) := by
  simp only [advanceCommitInPlace, run_eq_ok, advanceCommit]
  cases rejectIf (commit < view.committedIndex)
      (RaftLogViewError.commitRegression view.committedIndex commit) with
  | ok _ | error e => rfl

theorem installSnapshotInPlace_run (index term : Nat) (lsn : Lsn) :
    (installSnapshotInPlace index term lsn).run view =
      view.outcomeOf (view.installSnapshot index term lsn) := by
  simp only [installSnapshotInPlace, run_eq_ok, installSnapshot]
  cases view.checkSnapshot index term with
  | error => rfl
  | ok =>
    cases view.checkLsn lsn with
    | error | ok => rfl

theorem replayInPlace_run (record : RaftLogEntryRecord) (lsn : Lsn) :
    (Call.replay record lsn).run.run view = view.outcomeOf (view.replay record lsn) := by
  simp only [Call.run, replayInPlace, bind_assoc, run_eq_ok, replay]
  cases (record.validate.mapError RaftLogViewError.invalidRecord) with
  | error => rfl
  | ok _ =>
    cases rejectIf (record.identity ≠ view.identity)
        (RaftLogViewError.identityMismatch view.identity record.identity) with
    | error e => rfl
    | ok _ =>
      cases view.checkLsn lsn with
      | error => rfl
      | ok =>
        cases view.classify record with
        | error => rfl
        | ok outcome => cases outcome <;> rfl

theorem Call.run_eq (call : Call) : call.run.run view = view.outcomeOf (call.result view) := by
  cases call with
  | replay record lsn => exact replayInPlace_run record lsn
  | installSnapshot index term lsn => exact installSnapshotInPlace_run index term lsn
  | advanceCommit commit => exact advanceCommitInPlace_run commit

/-! ## What a call keeps -/

/-- The retained entries follow the snapshot base without a gap, and their terms never fall. -/
structure WellFormed (view : RaftReplicaLogView) : Prop where
  above : ∀ i ∈ view.entries, view.snapshotIndex < i
  contiguous : ∀ i ∈ view.entries, ∀ j, view.snapshotIndex < j → j ≤ i → j ∈ view.entries
  terms : ∀ {i j : Nat} {a b : RecoveredRaftLogEntry}, view.entries[i]? = some a →
    view.entries[j]? = some b → i ≤ j → a.record.term ≤ b.record.term
  baseTerm : ∀ {i : Nat} {a : RecoveredRaftLogEntry}, view.entries[i]? = some a →
    view.snapshotTerm ≤ a.record.term
  committed : view.snapshotIndex ≤ view.committedIndex
  bounded : ∀ i ∈ view.entries, i ≤ u64Max

theorem wellFormed_new (identity : RaftReplicaIdentity) : (new identity).WellFormed where
  above i hi := absurd hi ExtTreeMap.not_mem_empty
  contiguous i hi := absurd hi ExtTreeMap.not_mem_empty
  terms ha := by simp [new] at ha
  baseTerm ha := by simp [new] at ha
  committed := Nat.le_refl _
  bounded i hi := absurd hi ExtTreeMap.not_mem_empty

theorem checkPredecessor_of_classify {outcome : RaftLogReplayOutcome}
    (h : view.classify record = .ok outcome) (hnew : outcome ≠ .idempotentReplay) :
    view.checkPredecessor record = .ok () := by
  simp only [classify, eq_ok] at h
  obtain ⟨_, _, h⟩ := h
  split at h
  case h_1 existing _ =>
    unfold classifyExisting at h
    split at h
    case isTrue =>
      simp only [eq_ok] at h
      obtain ⟨_, _, rfl⟩ := h
      exact absurd rfl hnew
    case isFalse =>
      simp only [eq_ok] at h
      obtain ⟨_, _, _, hpredecessor, _⟩ := h
      exact hpredecessor
  case h_2 =>
    simp only [classifyAppend, eq_ok] at h
    obtain ⟨_, _, _, _, _, hpredecessor, _⟩ := h
    exact hpredecessor

/-- An entry that passed its check does not fall below any term before it. -/
theorem WellFormed.le_of_checkPredecessor (h : view.WellFormed)
    (hcheck : view.checkPredecessor record = .ok ())
    (hpredecessor : record.index - 1 ∈ view.entries ∨ record.index = view.snapshotIndex + 1) :
    view.snapshotTerm ≤ record.term ∧ ∀ {i : Nat} {a : RecoveredRaftLogEntry},
      view.entries[i]? = some a → i < record.index → a.record.term ≤ record.term := by
  cases hentry : view.entries[record.index - 1]? with
  | some previous =>
    have hle : previous.record.term ≤ record.term := by
      simpa [checkPredecessor, predecessorTerm, hentry] using hcheck
    refine ⟨Nat.le_trans (h.baseTerm hentry) hle, ?_⟩
    intro i a ha hi
    exact Nat.le_trans (h.terms ha hentry (by omega)) hle
  | none =>
    -- the entry is the first one above the base
    have hfirst : record.index = view.snapshotIndex + 1 := by
      rcases hpredecessor with hmem | hfirst
      · rw [ExtTreeMap.mem_iff_isSome_getElem?, hentry] at hmem
        cases hmem
      · exact hfirst
    refine ⟨?_, ?_⟩
    · simpa only [checkPredecessor, predecessorTerm, hentry, Option.map_none, Option.none_or,
        if_pos hfirst, rejectIf_eq_ok, Nat.not_lt] using hcheck
    · intro i a ha hi
      have hmem : i ∈ view.entries := mem_of_getElem? ha
      have := h.above i hmem
      omega

/-- The entries below an index, and a new one there. -/
structure Cut (view view' : RaftReplicaLogView) (index : Nat) (entry : RecoveredRaftLogEntry) :
    Prop where
  entries : ∀ i : Nat, view'.entries[i]? =
    if i = index then some entry else if i < index then view.entries[i]? else none
  snapshotIndex : view'.snapshotIndex = view.snapshotIndex
  snapshotTerm : view'.snapshotTerm = view.snapshotTerm
  committedIndex : view'.committedIndex = view.committedIndex

theorem cut_of_replaces {n : Nat} :
    view.Cut (view.place record lsn (.replacedSuffix n)) record.index ⟨record, lsn⟩ where
  entries i := by
    simp only [place, getElem?_insert, getElem?_filter,
      eq_comm (a := record.index), decide_eq_true_eq]
  snapshotIndex := rfl
  snapshotTerm := rfl
  committedIndex := rfl

theorem cut_of_appends (hindex : record.index = view.lastIndex.getD 0 + 1) :
    view.Cut (view.place record lsn .appended) record.index ⟨record, lsn⟩ where
  entries i := by
    simp only [place, getElem?_insert, eq_comm (a := record.index)]
    split
    · rfl
    · split
      · rfl
      · apply ExtTreeMap.getElem?_eq_none
        intro hmem
        have := le_lastIndex hmem
        omega
  snapshotIndex := rfl
  snapshotTerm := rfl
  committedIndex := rfl

section Cut

variable {index : Nat} {entry : RecoveredRaftLogEntry}

theorem Cut.get {a : RecoveredRaftLogEntry} (h : view.Cut view' index entry) :
    view'.entries[i]? = some a ↔ i = index ∧ entry = a ∨ i < index ∧ view.entries[i]? = some a := by
  rw [h.entries]
  split
  case isTrue heq => simp [heq]
  case isFalse hne => simp [hne]

/-- Where the new entry directly follows what is kept and its term does not fall, the cut log
is well formed. -/
theorem Cut.wellFormed (hcut : view.Cut view' index entry) (h : view.WellFormed)
    (habove : view.snapshotIndex < index) (hbound : index ≤ u64Max)
    (hpredecessor : index - 1 ∈ view.entries ∨ index = view.snapshotIndex + 1)
    (hbase : view.snapshotTerm ≤ entry.record.term)
    (hterms : ∀ {i : Nat} {a : RecoveredRaftLogEntry}, view.entries[i]? = some a → i < index →
      a.record.term ≤ entry.record.term) : view'.WellFormed where
  above i hi := by
    rw [hcut.snapshotIndex]
    obtain ⟨a, ha⟩ := exists_of_mem hi
    rcases hcut.get.mp ha with ⟨heq, -⟩ | ⟨-, ha⟩
    · rw [heq]
      exact habove
    · exact h.above i (mem_of_getElem? ha)
  contiguous i hi j hj hle := by
    rw [hcut.snapshotIndex] at hj
    obtain ⟨a, ha⟩ := exists_of_mem hi
    have hindex : j ≤ index := by
      rcases hcut.get.mp ha with ⟨heq, -⟩ | ⟨hlt, -⟩ <;> omega
    by_cases heq : j = index
    · exact mem_of_getElem? (hcut.get.mpr (.inl ⟨heq, rfl⟩))
    · have hmem : j ∈ view.entries := by
        rcases hpredecessor with hmem | hfirst
        · exact h.contiguous _ hmem j hj (by omega)
        · omega
      obtain ⟨b, hb⟩ := exists_of_mem hmem
      exact mem_of_getElem? (hcut.get.mpr (.inr ⟨by omega, hb⟩))
  terms ha hb hle := by
    rcases hcut.get.mp hb with ⟨rfl, rfl⟩ | ⟨hlt, hb⟩
    · rcases hcut.get.mp ha with ⟨-, rfl⟩ | ⟨hlt, ha⟩
      · exact Nat.le_refl _
      · exact hterms ha hlt
    · rcases hcut.get.mp ha with ⟨rfl, -⟩ | ⟨-, ha⟩
      · omega
      · exact h.terms ha hb hle
  baseTerm ha := by
    rw [hcut.snapshotTerm]
    rcases hcut.get.mp ha with ⟨-, rfl⟩ | ⟨-, ha⟩
    · exact hbase
    · exact h.baseTerm ha
  committed := by
    rw [hcut.snapshotIndex, hcut.committedIndex]
    exact h.committed
  bounded i hi := by
    obtain ⟨a, ha⟩ := exists_of_mem hi
    rcases hcut.get.mp ha with ⟨heq, -⟩ | ⟨hlt, -⟩ <;> omega

end Cut

theorem WellFormed.predecessor (h : view.WellFormed) (hi : i ∈ view.entries) :
    i - 1 ∈ view.entries ∨ i = view.snapshotIndex + 1 := by
  have habove := h.above i hi
  by_cases hfirst : i = view.snapshotIndex + 1
  · exact .inr hfirst
  · exact .inl (h.contiguous i hi _ (by omega) (by omega))

theorem predecessor_of_lastIndex (hindex : record.index = view.lastIndex.getD 0 + 1) :
    record.index - 1 ∈ view.entries ∨ record.index = view.snapshotIndex + 1 := by
  rcases view.lastIndex_cases with hmem | ⟨_, hlast⟩
  · refine .inl ?_
    rw [hindex, Nat.add_sub_cancel]
    exact hmem
  · refine .inr ?_
    rw [hindex, hlast]

theorem index_le_of_appends (h : view.classify record = .ok .appended)
    (hnone : view.entries[record.index]? = none) : record.index ≤ u64Max := by
  simp only [classify, hnone, eq_ok] at h
  obtain ⟨_, _, happend⟩ := h
  exact (index_of_classifyAppend happend).2.2

theorem getElem?_place_again {existing : RecoveredRaftLogEntry}
    (hexisting : view.entries[record.index]? = some existing)
    (hterm : record.term = existing.record.term)
    (hpayload : record.payload = existing.record.payload) (lsn : Lsn) (i : Nat) :
    (view.place record lsn .idempotentReplay).entries[i]?.map
        (fun entry => (entry.record.term, entry.record.payload)) =
      view.entries[i]?.map fun entry => (entry.record.term, entry.record.payload) := by
  simp only [place, getElem?_insert]
  split
  case isTrue heq =>
    subst heq
    rw [hexisting, Option.map_some, Option.map_some, hterm, hpayload]
  case isFalse => rfl

/-- Well-formedness looks at no WAL position and no payload. -/
theorem WellFormed.congr (h : view.WellFormed)
    (hentries : ∀ i : Nat, view'.entries[i]?.map (fun entry => entry.record.term) =
      view.entries[i]?.map fun entry => entry.record.term)
    (hindex : view'.snapshotIndex = view.snapshotIndex)
    (hterm : view'.snapshotTerm = view.snapshotTerm)
    (hcommitted : view.snapshotIndex ≤ view'.committedIndex) : view'.WellFormed := by
  have hmem : ∀ i : Nat, i ∈ view'.entries ↔ i ∈ view.entries := by
    intro i
    rw [ExtTreeMap.mem_iff_isSome_getElem?, ExtTreeMap.mem_iff_isSome_getElem?,
      ← Option.isSome_map (f := fun entry => entry.record.term), hentries i, Option.isSome_map]
  have hget : ∀ {i : Nat} {a : RecoveredRaftLogEntry}, view'.entries[i]? = some a →
      ∃ a', view.entries[i]? = some a' ∧ a'.record.term = a.record.term := by
    intro i a ha
    have := hentries i
    rw [ha] at this
    exact Option.map_eq_some_iff.mp this.symm
  refine ⟨?_, ?_, ?_, ?_, by rw [hindex]; exact hcommitted, ?_⟩
  · intro i hi
    rw [hindex]
    exact h.above i ((hmem i).mp hi)
  · intro i hi j hj hle
    rw [hindex] at hj
    exact (hmem j).mpr (h.contiguous i ((hmem i).mp hi) j hj hle)
  · intro i j a b ha hb hle
    obtain ⟨a', ha', haTerm⟩ := hget ha
    obtain ⟨b', hb', hbTerm⟩ := hget hb
    rw [← haTerm, ← hbTerm]
    exact h.terms ha' hb' hle
  · intro i a ha
    obtain ⟨a', ha', haTerm⟩ := hget ha
    rw [hterm, ← haTerm]
    exact h.baseTerm ha'
  · intro i hi
    exact h.bounded i ((hmem i).mp hi)

theorem WellFormed.replay (h : view.WellFormed) (hreplay : view.replay record lsn = .ok view') :
    view'.WellFormed := by
  obtain ⟨_, _, _, outcome, hclass, rfl⟩ := replay_eq_ok.mp hreplay
  obtain ⟨habove, henters⟩ := enters_of_classify hclass
  cases henters with
  | again hexisting hterm hpayload =>
    refine h.congr ?_ rfl rfl h.committed
    intro i
    have hsame := getElem?_place_again hexisting hterm hpayload lsn i
    simpa only [Option.map_map, Function.comp_def] using congrArg (Option.map Prod.fst) hsame
  | replaces hexisting =>
    have hmem := mem_of_getElem? hexisting
    have hcheck := checkPredecessor_of_classify hclass (by simp)
    have hpredecessor := h.predecessor hmem
    obtain ⟨hbase, hterms⟩ := h.le_of_checkPredecessor hcheck hpredecessor
    exact cut_of_replaces.wellFormed h habove (h.bounded _ hmem) hpredecessor hbase hterms
  | appends hnone hindex =>
    have hcheck := checkPredecessor_of_classify hclass (by simp)
    have hpredecessor := predecessor_of_lastIndex hindex
    obtain ⟨hbase, hterms⟩ := h.le_of_checkPredecessor hcheck hpredecessor
    exact (cut_of_appends hindex).wellFormed h habove (index_le_of_appends hclass hnone)
      hpredecessor hbase hterms

/-- A base at the largest index does not find an entry there: `split_off` would keep it. -/
def RoomFor (view : RaftReplicaLogView) (index : Nat) : Prop :=
  index < u64Max ∨ u64Max ∉ view.entries

instance (view : RaftReplicaLogView) (index : Nat) : Decidable (view.RoomFor index) :=
  inferInstanceAs (Decidable (_ ∨ _))

theorem WellFormed.getElem?_rebase (h : view.WellFormed) (hroom : view.RoomFor index)
    (term : Nat) (lsn : Lsn) (i : Nat) : (view.rebase index term lsn).entries[i]? =
      if index < i then view.entries[i]? else none := by
  simp only [rebase, getElem?_filter, decide_eq_true_eq]
  cases hi : view.entries[i]? with
  | none => simp
  | some =>
    have hmem := mem_of_getElem? hi
    have hbound := h.bounded i hmem
    have hiff : saturatingAdd index 1 ≤ i ↔ index < i := by
      unfold saturatingAdd
      rcases hroom with hlt | hnone
      · omega
      · have hne : i ≠ u64Max := by
          intro heq
          exact hnone (heq ▸ hmem)
        omega
    simp [hiff]

/-- What a snapshot base that passes its checks agrees with. -/
structure Rebases (view : RaftReplicaLogView) (index term : Nat) : Prop where
  le : view.snapshotIndex ≤ index
  sameBase : index = view.snapshotIndex → term = view.snapshotTerm
  sameEntry : ∀ {entry : RecoveredRaftLogEntry}, view.entries[index]? = some entry →
    entry.record.term = term

theorem rebases_of_checkSnapshot
    (h : view.checkSnapshot index term = .ok ()) : view.Rebases index term := by
  have hle := snapshotIndex_le_of_checkSnapshot h
  simp only [checkSnapshot, eq_ok, not_and, ne_eq] at h
  obtain ⟨_, _, _, _, _, hsame, _, _, hentry⟩ := h
  refine ⟨hle, hsame, ?_⟩
  intro entry hsome
  simpa only [hsome, rejectIf_eq_ok, not_not] using hentry

theorem WellFormed.installSnapshot (h : view.WellFormed) (hroom : view.RoomFor index)
    (hinstall : view.installSnapshot index term lsn = .ok view') : view'.WellFormed := by
  obtain ⟨hcheck, _, rfl⟩ := installSnapshot_eq_ok.mp hinstall
  have hbase := rebases_of_checkSnapshot hcheck
  have hget := h.getElem?_rebase hroom term lsn
  have hmem : ∀ {i : Nat}, i ∈ (view.rebase index term lsn).entries ↔
      index < i ∧ i ∈ view.entries := by
    intro i
    rw [ExtTreeMap.mem_iff_isSome_getElem?, hget, ExtTreeMap.mem_iff_isSome_getElem?]
    split
    case isTrue hlt => simp [hlt]
    case isFalse hge => simp [hge]
  refine ⟨fun i hi => (hmem.mp hi).1, ?_, ?_, ?_, Nat.le_max_right _ _, ?_⟩
  · intro i hi j hj hle
    have hj' : index < j := hj
    exact hmem.mpr ⟨hj', h.contiguous i (hmem.mp hi).2 j (Nat.lt_of_le_of_lt hbase.le hj') hle⟩
  · intro i j a b ha hb hle
    simp only [hget, eq_some] at ha hb
    exact h.terms ha.2 hb.2 hle
  · intro i a ha
    simp only [hget, eq_some] at ha
    obtain ⟨hlt, ha⟩ := ha
    -- an entry is kept, so the base is the old one or lies on an entry
    by_cases hsame : index = view.snapshotIndex
    · rw [hbase.sameBase hsame]
      exact h.baseTerm ha
    · have hstored := h.contiguous i (mem_of_getElem? ha) index
        (Nat.lt_of_le_of_ne hbase.le (Ne.symm hsame)) (Nat.le_of_lt hlt)
      obtain ⟨entry, hentry⟩ := exists_of_mem hstored
      rw [← hbase.sameEntry hentry]
      exact h.terms hentry ha (Nat.le_of_lt hlt)
  · intro i hi
    exact h.bounded i (hmem.mp hi).2

theorem advanceCommit_eq_ok (h : view.advanceCommit commit = .ok view') :
    view.committedIndex ≤ commit ∧ view' = { view with committedIndex := commit } := by
  simp only [advanceCommit, eq_ok, Nat.not_lt] at h
  obtain ⟨_, hle, rfl⟩ := h
  exact ⟨hle, rfl⟩

theorem WellFormed.advanceCommit (h : view.WellFormed)
    (hadvance : view.advanceCommit commit = .ok view') : view'.WellFormed := by
  obtain ⟨hle, rfl⟩ := advanceCommit_eq_ok hadvance
  exact h.congr (fun _ => rfl) rfl rfl (Nat.le_trans h.committed hle)

/-! ## What is committed -/

/-- A later view: its frontiers have not moved back, and an entry that was committed has kept
its term and payload unless the snapshot base has passed it. -/
structure Extends (view later : RaftReplicaLogView) : Prop where
  committedIndex : view.committedIndex ≤ later.committedIndex
  snapshotIndex : view.snapshotIndex ≤ later.snapshotIndex
  kept : ∀ {i : Nat} {entry : RecoveredRaftLogEntry}, view.entries[i]? = some entry →
    i ≤ view.committedIndex → later.snapshotIndex < i →
    ∃ entry', later.entries[i]? = some entry' ∧ entry'.record.term = entry.record.term ∧
      entry'.record.payload = entry.record.payload

namespace Extends

variable {index : Nat}

theorem refl (view : RaftReplicaLogView) : view.Extends view where
  committedIndex := Nat.le_refl _
  snapshotIndex := Nat.le_refl _
  kept hentry _ _ := ⟨_, hentry, rfl, rfl⟩

theorem trans {a b c : RaftReplicaLogView} (hab : a.Extends b) (hbc : b.Extends c) :
    a.Extends c where
  committedIndex := Nat.le_trans hab.committedIndex hbc.committedIndex
  snapshotIndex := Nat.le_trans hab.snapshotIndex hbc.snapshotIndex
  kept {i entry} hentry hcommitted hbase := by
    obtain ⟨middle, hmiddle, hterm, hpayload⟩ :=
      hab.kept hentry hcommitted (Nat.lt_of_le_of_lt hbc.snapshotIndex hbase)
    obtain ⟨last, hlast, hterm', hpayload'⟩ :=
      hbc.kept hmiddle (Nat.le_trans hcommitted hab.committedIndex) hbase
    exact ⟨last, hlast, hterm'.trans hterm, hpayload'.trans hpayload⟩

theorem of_cut {entry : RecoveredRaftLogEntry} (hcut : view.Cut view' index entry)
    (hbelow : ∀ i ∈ view.entries, i ≤ view.committedIndex → i < index) : view.Extends view' where
  committedIndex := Nat.le_of_eq hcut.committedIndex.symm
  snapshotIndex := Nat.le_of_eq hcut.snapshotIndex.symm
  kept {i old} hold hcommitted _ := by
    have hlt := hbelow i (mem_of_getElem? hold) hcommitted
    exact ⟨old, hcut.get.mpr (.inr ⟨hlt, hold⟩), rfl, rfl⟩

theorem of_replay (hreplay : view.replay record lsn = .ok view') : view.Extends view' := by
  obtain ⟨_, _, _, outcome, hclass, rfl⟩ := replay_eq_ok.mp hreplay
  cases (enters_of_classify hclass).2 with
  | again hexisting hterm hpayload =>
    refine ⟨Nat.le_refl _, Nat.le_refl _, ?_⟩
    intro i entry hentry _ _
    have hsame := getElem?_place_again hexisting hterm hpayload lsn i
    rw [hentry, Option.map_some, Option.map_eq_some_iff] at hsame
    obtain ⟨entry', hentry', hfields⟩ := hsame
    rw [Prod.mk.injEq] at hfields
    exact ⟨entry', hentry', hfields⟩
  | replaces _ _ hcommitted =>
    exact of_cut cut_of_replaces fun i _ hi => by omega
  | appends _ hindex =>
    refine of_cut (cut_of_appends hindex) ?_
    intro i hi _
    have := le_lastIndex hi
    omega

theorem of_installSnapshot (h : view.WellFormed) (hroom : view.RoomFor index)
    (hinstall : view.installSnapshot index term lsn = .ok view') : view.Extends view' := by
  obtain ⟨hcheck, _, rfl⟩ := installSnapshot_eq_ok.mp hinstall
  refine ⟨Nat.le_max_left _ _, snapshotIndex_le_of_checkSnapshot hcheck, ?_⟩
  intro i entry hentry _ hbase
  have habove : index < i := hbase
  refine ⟨entry, ?_, rfl, rfl⟩
  rw [h.getElem?_rebase hroom, if_pos habove]
  exact hentry

theorem of_advanceCommit (hadvance : view.advanceCommit commit = .ok view') :
    view.Extends view' := by
  obtain ⟨hle, rfl⟩ := advanceCommit_eq_ok hadvance
  exact ⟨hle, Nat.le_refl _, fun hentry _ _ => ⟨_, hentry, rfl, rfl⟩⟩

end Extends

/-! ## Runs -/

/-- A log view and the WAL positions of the calls that it has accepted, newest first. -/
structure Run where
  view : RaftReplicaLogView
  accepted : List Lsn

namespace Run

/-- Make one call; a call may be rejected. -/
def next (s : Run) (call : Call) : Run :=
  match answer call.run s.view with
  | .ok _ => ⟨after call.run s.view, call.lsn?.toList ++ s.accepted⟩
  | .error _ => ⟨after call.run s.view, s.accepted⟩

/-- Any calls, with any arguments, on a new view. -/
def system (identity : RaftReplicaIdentity) : Lts Run Call :=
  Lts.ofNext (· = ⟨new identity, []⟩) fun s call => some (s.next call)

/-- A snapshot base at the largest index is not installed over an entry there. -/
def Roomy (s : Run) : Call → Prop
  | .installSnapshot index _ _ => s.view.RoomFor index
  | .replay _ _ | .advanceCommit _ => True

instance (s : Run) (call : Call) : Decidable (s.Roomy call) :=
  match call with
  | .installSnapshot index _ _ => inferInstanceAs (Decidable (s.view.RoomFor index))
  | .replay _ _ | .advanceCommit _ => inferInstanceAs (Decidable True)

end Run

theorem lt_of_checkLsn (h : view.checkLsn lsn = .ok ()) {previous : Lsn}
    (hprevious : view.lastReplayedLsn = some previous) : previous < lsn := by
  simpa only [checkLsn, hprevious, rejectIf_eq_ok, Nat.not_le] using h

theorem Call.lsn_of_result {call : Call} (h : call.result view = .ok view') :
    (call.lsn? = none ∧ view'.lastReplayedLsn = view.lastReplayedLsn) ∨
      ∃ lsn, call.lsn? = some lsn ∧ view'.lastReplayedLsn = some lsn ∧
        view.checkLsn lsn = .ok () := by
  cases call with
  | replay record lsn =>
    obtain ⟨_, _, hlsn, outcome, _, rfl⟩ := replay_eq_ok.mp h
    exact .inr ⟨lsn, rfl, by cases outcome <;> rfl, hlsn⟩
  | installSnapshot index term lsn =>
    obtain ⟨_, hlsn, rfl⟩ := installSnapshot_eq_ok.mp h
    exact .inr ⟨lsn, rfl, rfl, hlsn⟩
  | advanceCommit =>
    obtain ⟨_, rfl⟩ := advanceCommit_eq_ok h
    exact .inl ⟨rfl, rfl⟩

namespace Run

variable {s t : Run} {call : Call}
variable {identity : RaftReplicaIdentity}

theorem next_cases (s : Run) (call : Call) :
    (∃ view', call.result s.view = .ok view' ∧
      s.next call = ⟨view', call.lsn?.toList ++ s.accepted⟩) ∨
    (∃ e, call.result s.view = .error e ∧ s.next call = s) := by
  have hrun : call.run.run s.view = s.view.outcomeOf (call.result s.view) := call.run_eq
  cases hresult : call.result s.view with
  | ok view' =>
    rw [hresult] at hrun
    refine .inl ⟨view', rfl, ?_⟩
    simp [next, answer, after, hrun, outcomeOf]
  | error e =>
    rw [hresult] at hrun
    refine .inr ⟨e, rfl, ?_⟩
    simp [next, answer, after, hrun, outcomeOf]

/-- What every reachable state has. -/
structure Inv (s : Run) : Prop where
  view : s.view.WellFormed
  newest : s.accepted.head? = s.view.lastReplayedLsn
  increasing : s.accepted.Pairwise (· > ·)

theorem Inv.accept (h : s.Inv)
    (hresult : call.result s.view = .ok view') (hview : view'.WellFormed) :
    Inv ⟨view', call.lsn?.toList ++ s.accepted⟩ := by
  rcases Call.lsn_of_result hresult with ⟨hnone, hlast⟩ | ⟨lsn, hsome, hlast, hcheck⟩
  · refine ⟨hview, ?_, ?_⟩
    · rw [hnone, hlast]
      exact h.newest
    · rw [hnone]
      exact h.increasing
  · refine ⟨hview, ?_, ?_⟩
    · rw [hsome, hlast]
      rfl
    · rw [hsome]
      refine List.pairwise_cons.mpr ⟨?_, h.increasing⟩
      intro old hold
      -- the newest accepted position bounds the others
      cases haccepted : s.accepted with
      | nil =>
        rw [haccepted] at hold
        cases hold
      | cons =>
        have hnewest := h.newest
        have hincreasing := h.increasing
        rw [haccepted] at hold hnewest hincreasing
        have hlt := lt_of_checkLsn hcheck hnewest.symm
        rcases List.mem_cons.mp hold with heq | hmem
        · rw [heq]
          exact hlt
        · exact Nat.lt_trans ((List.pairwise_cons.mp hincreasing).1 old hmem) hlt

theorem Inv.wellFormed_result (h : s.Inv) (hroomy : s.Roomy call)
    (hresult : call.result s.view = .ok view') : view'.WellFormed ∧ s.view.Extends view' := by
  cases call with
  | replay => exact ⟨h.view.replay hresult, .of_replay hresult⟩
  | installSnapshot =>
    exact ⟨h.view.installSnapshot hroomy hresult, .of_installSnapshot h.view hroomy hresult⟩
  | advanceCommit => exact ⟨h.view.advanceCommit hresult, .of_advanceCommit hresult⟩

theorem Inv.step (h : s.Inv) (hstep : ((system identity).restrict Roomy).step s call t) :
    t.Inv ∧ s.view.Extends t.view := by
  obtain ⟨hroomy, hnext⟩ := hstep
  have hnext := (Option.some.inj hnext).symm
  rcases s.next_cases call with ⟨view', hresult, heq⟩ | ⟨e, hresult, heq⟩
  · obtain ⟨hview, hextends⟩ := h.wellFormed_result hroomy hresult
    rw [hnext, heq]
    exact ⟨h.accept hresult hview, hextends⟩
  · rw [hnext, heq]
    exact ⟨h, .refl _⟩

theorem inv_of_reachable (h : ((system identity).restrict Roomy).Reachable s) : s.Inv := by
  refine h.invariant ?_ fun _ hinv hstep => (hinv.step hstep).1
  intro s hs
  cases hs
  exact ⟨wellFormed_new identity, rfl, .nil⟩

theorem extends_of_steps {calls : List Call} (h : ((system identity).restrict Roomy).Reachable s)
    (hsteps : ((system identity).restrict Roomy).Steps s calls t) : s.view.Extends t.view :=
  hsteps.relates (R := fun s t => s.view.Extends t.view) (fun s => .refl s.view)
    (fun hab hbc => hab.trans hbc)
    (fun hr hstep => ((inv_of_reachable hr).step hstep).2) h

/-- After any calls that leave room for their snapshot bases, the view is well formed and its
accepted positions increase; a rejected call changes nothing; and whatever calls follow, the
commit frontier does not move back and no committed entry gets another term or payload. -/
theorem log_view_invariant {identity : RaftReplicaIdentity}
    (h : ((system identity).restrict Roomy).Reachable s) :
    s.view.WellFormed ∧ s.accepted.Pairwise (· > ·) ∧
      (∀ (call : Call) (e : RaftLogViewError), answer call.run s.view = .error e →
        after call.run s.view = s.view) ∧
      ∀ (calls : List Call) (t : Run), ((system identity).restrict Roomy).Steps s calls t →
        s.view.committedIndex ≤ t.view.committedIndex ∧
        ∀ (i : Nat) (a b : RecoveredRaftLogEntry), s.view.entries[i]? = some a →
          i ≤ s.view.committedIndex → t.view.entries[i]? = some b →
            b.record.term = a.record.term ∧ b.record.payload = a.record.payload := by
  have hinv := inv_of_reachable h
  refine ⟨hinv.view, hinv.increasing, ?_, ?_⟩
  · intro call e hrejected
    have hrun : call.run.run s.view = s.view.outcomeOf (call.result s.view) := call.run_eq
    cases hresult : call.result s.view with
    | ok => simp [answer, hrun, hresult, outcomeOf] at hrejected
    | error => simp [after, hrun, hresult, outcomeOf]
  · intro calls t hsteps
    have hextends := extends_of_steps h hsteps
    refine ⟨hextends.committedIndex, ?_⟩
    intro i a b ha hcommitted hb
    have habove := (inv_of_reachable (h.steps hsteps)).view.above i (mem_of_getElem? hb)
    obtain ⟨entry, hentry, hsame⟩ := hextends.kept ha hcommitted habove
    rw [hb] at hentry
    cases hentry
    exact hsame

/-- An entry of the sample runs. -/
def sampleEntry (index term : Nat) (payload : List UInt8) : RaftLogEntryRecord :=
  ⟨1, ⟨1, 1⟩, index, term, .normal payload⟩

/-- A suffix is replaced, the log is committed and rebased, and one call is rejected. -/
def sampleCalls : List Call :=
  [.replay (sampleEntry 1 1 [7]) 10, .replay (sampleEntry 2 1 [8]) 20,
    .replay (sampleEntry 2 2 [9]) 30, .advanceCommit 2, .installSnapshot 1 1 40,
    .replay (sampleEntry 2 3 [6]) 50]

theorem log_view_invariant_sample :
    ∃ s, ((system ⟨1, 1⟩).restrict Roomy).Reachable s ∧ s.accepted = [40, 30, 20, 10] ∧
      s.view.entries.keys = [2] ∧ s.view.WellFormed := by
  have hrun : (sampleCalls.foldlM (fun s call => if Roomy s call then some (s.next call) else none)
      ⟨new ⟨1, 1⟩, []⟩).map (fun s => (s.accepted, s.view.entries.keys)) =
        some ([40, 30, 20, 10], [2]) := by
    decide +kernel
  obtain ⟨s, hreachable, hstate⟩ :=
    Lts.Reachable.of_run (L := (system ⟨1, 1⟩).restrict Roomy) hrun rfl
    (by simp [Lts.restrict, system, Lts.ofNext])
  rw [Prod.mk.injEq] at hstate
  exact ⟨s, hreachable, hstate.1, hstate.2, (log_view_invariant hreachable).1⟩

/-- A snapshot base right on the last possible entry. -/
def exhaustedCalls : List Call :=
  [.installSnapshot (u64Max - 1) 1 10, .replay (sampleEntry u64Max 1 [7]) 20,
    .installSnapshot u64Max 1 30]

/-- The entry at the largest index survives a snapshot base at that index. -/
theorem log_view_keeps_entry_at_base :
    ∃ s, (system ⟨1, 1⟩).Reachable s ∧ s.view.snapshotIndex = u64Max ∧
      s.view.entries.keys = [u64Max] := by
  have hrun : (exhaustedCalls.foldlM (fun (s : Run) call => some (s.next call))
      ⟨new ⟨1, 1⟩, []⟩).map (fun s => (s.view.snapshotIndex, s.view.entries.keys)) =
        some (u64Max, [u64Max]) := by
    decide +kernel
  simpa only [Prod.mk.injEq] using Lts.Reachable.of_run (L := system ⟨1, 1⟩) hrun rfl id

end Run

end RaftReplicaLogView

end RagnorDb
