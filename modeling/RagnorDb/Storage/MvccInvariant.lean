import RagnorDb.Storage.MvccStep

/-!
# The invariant of the store

The store as a transition system whose actions are the calls of the seven operations, and
the invariant of its reachable states: every row is a well-formed `Cell`, the maps keep no
key without versions, and only canonical keys are stored.
-/

namespace RagnorDb

open Std Checked

variable {op : MvccOp} {st : InMemoryMvcc}

/-- The store after a call, whether the call returned Ok or Err. -/
def MvccOp.after (op : MvccOp) (st : InMemoryMvcc) : InMemoryMvcc :=
  Checked.after op.exec st

theorem MvccOp.after_of_exec {st' : InMemoryMvcc} {u : Unit}
    (hx : op.exec.run st = .ok u st') : op.after st = st' :=
  after_of_ok hx

/-- Whether a call returns Ok. -/
def MvccOp.succeeds (op : MvccOp) (st : InMemoryMvcc) : Bool :=
  (answer op.exec st).isOk

theorem MvccOp.exec_of_succeeds (h : op.succeeds st = true) :
    op.exec.run st = .ok () (op.after st) := by
  unfold succeeds at h
  cases hans : answer op.exec st with
  | ok => exact run_of_answer hans
  | error =>
    rw [hans] at h
    cases h

/-- The store, started empty, under any calls with any arguments. -/
def mvcc : Lts InMemoryMvcc MvccOp where
  init st := st = .new
  step st op st' := op.after st = st'

/-- The store after several calls. -/
def MvccOp.afterAll (ops : List MvccOp) (st : InMemoryMvcc) : InMemoryMvcc :=
  ops.foldl (fun st op => op.after st) st

theorem MvccOp.steps_afterAll (ops : List MvccOp) (st : InMemoryMvcc) :
    mvcc.Steps st ops (afterAll ops st) := by
  induction ops generalizing st with
  | nil => exact .nil st
  | cons op ops ih => exact .cons rfl (ih _)

theorem MvccOp.reachable_afterAll (ops : List MvccOp) : mvcc.Reachable (afterAll ops .new) :=
  ⟨.new, ops, rfl, steps_afterAll ops .new⟩

/-- The invariant of the store. -/
structure InMemoryMvcc.Inv (st : InMemoryMvcc) : Prop where
  cell : ∀ k, (st.cell k).Inv
  noEmpty : st.NoEmpty
  canonical : ∀ {k}, st.cell k ≠ Cell.empty → CanonicalKey k

namespace InMemoryMvcc

variable {st st' : InMemoryMvcc} {op : MvccOp}

theorem cell_new (k : Bytes) : new.cell k = Cell.empty := by
  simp [new, cell, Cell.empty, funext_iff]

theorem inv_new : new.Inv where
  cell k := by
    exact Cell.inv_empty
  noEmpty := ⟨VersionMap.noEmpty_empty, VersionMap.noEmpty_empty⟩
  canonical {k} hk := absurd (cell_new k) hk

theorem Inv.answered (h : st.Inv) (ha : MvccOp.Answered st op st') : st'.Inv where
  cell k := by
    cases hc : op.call k with
    | none =>
      rw [ha.frame hc]
      exact h.cell k
    | some => exact (h.cell k).answers (ha.answers hc).2
  noEmpty := ha.noEmpty
  canonical {k} hk := by
    cases hc : op.call k with
    | none =>
      rw [ha.frame hc] at hk
      exact h.canonical hk
    | some => exact (ha.answers hc).1

theorem Inv.after_cases (h : st.Inv) (op : MvccOp) :
    op.after st = st ∨
      (op.exec.run st = .ok () (op.after st) ∧ MvccOp.Answered st op (op.after st)) := by
  unfold MvccOp.after after
  cases hx : op.exec.run st with
  | ok => exact .inr ⟨rfl, MvccOp.answered_of_exec h.cell h.noEmpty hx⟩
  | error e st' => exact .inl (MvccOp.exec_error op st e st' hx)

theorem Inv.after (h : st.Inv) (op : MvccOp) : (op.after st).Inv := by
  rcases h.after_cases op with hsame | ⟨-, ha⟩
  · rw [hsame]
    exact h
  · exact h.answered ha

theorem inv_of_reachable (h : mvcc.Reachable st) : st.Inv := by
  refine h.invariant ?_ ?_
  · rintro st rfl
    exact inv_new
  · rintro st op st' - hinv rfl
    exact hinv.after op

theorem Inv.extends_after (h : st.Inv) (op : MvccOp) (k : Bytes) :
    (st.cell k).Extends ((op.after st).cell k) := by
  rcases h.after_cases op with hsame | ⟨-, ha⟩
  · rw [hsame]
    exact .refl _
  · cases hc : op.call k with
    | none =>
      rw [ha.frame hc]
      exact .refl _
    | some => exact (h.cell k).extends_answers (ha.answers hc).2

theorem extends_of_steps (h : mvcc.Reachable st) {ops : List MvccOp}
    (hs : mvcc.Steps st ops st') (k : Bytes) : (st.cell k).Extends (st'.cell k) := by
  refine hs.relates (R := fun st st' => (st.cell k).Extends (st'.cell k))
    (fun st => .refl _) .trans ?_ h
  rintro st op st' hr rfl
  exact (inv_of_reachable hr).extends_after op k

/-- What a default value at start timestamp `s` of key `k` is stored for. -/
inductive Reference where
  | write (commitTs : Timestamp)
  | lock

/-- A Put write or a Put lock of the start timestamp. -/
def Refers (st : InMemoryMvcc) (k : Bytes) (s : Timestamp) : Reference → Prop
  | .write t => ∃ w, st.writes.lookup k t = some w ∧ w.startTimestamp = s ∧ w.op = .put
  | .lock => ∃ l, st.locks[k]? = some l ∧ l.startTimestamp = s ∧ l.op = .put

/-- The three maps of the store fit together. -/
structure WellFormed (st : InMemoryMvcc) : Prop where
  write_valid : ∀ k t w, st.writes.lookup k t = some w → validateWriteRecord t w = .ok ()
  start_unique : ∀ k t w t' w', st.writes.lookup k t = some w → st.writes.lookup k t' = some w' →
    w.startTimestamp = w'.startTimestamp → t = t' ∧ w = w'
  put_write : ∀ k t w, st.writes.lookup k t = some w → w.op = .put →
    ∃ row, st.default.lookup k w.startTimestamp = some row
  put_lock : ∀ k l, st.locks[k]? = some l → l.op = .put →
    ∃ row, st.default.lookup k l.startTimestamp = some row
  value_referenced : ∀ k s row, st.default.lookup k s = some row → ∃! r, st.Refers k s r
  delete_lock : ∀ k l, st.locks[k]? = some l → l.op = .delete →
    st.default.lookup k l.startTimestamp = none
  marker : ∀ k t w, st.writes.lookup k t = some w → w.op = .rollback →
    st.default.lookup k w.startTimestamp = none ∧
      ∀ l, st.locks[k]? = some l → l.startTimestamp ≠ w.startTimestamp
  no_empty_default : st.default.NoEmpty
  no_empty_writes : st.writes.NoEmpty

theorem Inv.refers_unique (h : st.Inv) {k : Bytes} {s : Timestamp} {r r' : Reference}
    (hr : st.Refers k s r) (hr' : st.Refers k s r') : r = r' := by
  cases r with
  | write =>
    obtain ⟨w, hw, hs, -⟩ := hr
    cases r' with
    | write =>
      obtain ⟨w', hw', hs', -⟩ := hr'
      rw [(h.cell k).start_unique hw hw' (hs.trans hs'.symm)]
    | lock =>
      obtain ⟨l, hl, hs', -⟩ := hr'
      exact absurd (hs.trans hs'.symm) ((h.cell k).lock_undecided hl hw)
  | lock =>
    obtain ⟨l, hl, hs, -⟩ := hr
    cases r' with
    | write =>
      obtain ⟨w, hw, hs', -⟩ := hr'
      exact absurd (hs'.trans hs.symm) ((h.cell k).lock_undecided hl hw)
    | lock => rfl

theorem Inv.wellFormed (h : st.Inv) : st.WellFormed where
  write_valid k t w hw := validateWriteRecord_eq_ok.mpr ((h.cell k).write_valid hw)
  start_unique k t w t' w' hw hw' hs := by
    have ht := (h.cell k).start_unique hw hw' hs
    subst ht
    exact ⟨rfl, Option.some.inj (hw.symm.trans hw')⟩
  put_write k t w hw hop := by
    have hp := (h.cell k).write_payload hw (by simp [hop])
    rw [hop] at hp
    exact ⟨_, hp.choose_spec.1⟩
  put_lock k l hl hop := by
    have hp := (h.cell k).lock_payload hl
    rw [hop] at hp
    exact ⟨_, hp.choose_spec.1⟩
  value_referenced k s row hrow := by
    rcases (h.cell k).value_owned hrow with ⟨l, hl, hs, hop⟩ | ⟨t, w, hw, hs, hop⟩
    · exact ⟨.lock, ⟨l, hl, hs, hop⟩, fun r hr => h.refers_unique hr ⟨l, hl, hs, hop⟩⟩
    · exact ⟨.write t, ⟨w, hw, hs, hop⟩, fun r hr => h.refers_unique hr ⟨w, hw, hs, hop⟩⟩
  delete_lock k l hl hop := by
    have hp := (h.cell k).lock_payload hl
    rw [hop] at hp
    exact hp
  marker k t w hw hop := by
    refine ⟨?_, fun l hl => ((h.cell k).lock_undecided hl hw).symm⟩
    rw [((h.cell k).write_valid hw).rollback hop]
    exact (h.cell k).marker_payload hw hop
  no_empty_default := h.noEmpty.default
  no_empty_writes := h.noEmpty.writes

/-- Every finite sequence of operations leaves the three maps well formed. -/
theorem wellFormed_of_reachable (h : mvcc.Reachable st) : st.WellFormed :=
  (inv_of_reachable h).wellFormed

/-- The row key of table 1 with primary key FALSE. -/
def sampleKey : Bytes := [1, 0, 0, 0, 0, 0, 0, 0, 1, 0x30, 0]

/-- The encoded row without columns. -/
def sampleRow : Bytes := [1, 0, 0, 0, 0]

/-- A transaction committed at 6, one rolled back at 7, one committed directly at 10, and
an open intent. -/
def sampleOps : List MvccOp :=
  [.prewrite 5 5 sampleKey (.put sampleRow) sampleKey 100, .commitIntent 5 5 6 sampleKey,
    .prewrite 7 7 sampleKey .delete sampleKey 100, .rollbackIntent 7 7 sampleKey,
    .commitBatch 8 8 10 ((∅ : Mutations).insert sampleKey .delete),
    .prewrite 11 11 sampleKey (.put sampleRow) sampleKey 100]

def sampleStore : InMemoryMvcc := MvccOp.afterAll sampleOps .new

theorem wellFormed_sampleStore :
    mvcc.Reachable sampleStore ∧ sampleStore.locks[sampleKey]?.isSome ∧
      sampleStore.writes.lookup sampleKey 6 = some ⟨5, 6, .put⟩ ∧ sampleStore.WellFormed :=
  ⟨MvccOp.reachable_afterAll sampleOps, by decide +kernel, by decide +kernel,
    wellFormed_of_reachable (MvccOp.reachable_afterAll sampleOps)⟩

/-- First committer wins: of two transactions that wrote the key, the later one started
no earlier than the other committed. -/
theorem first_committer_wins (h : mvcc.Reachable st) {k : Bytes} {t t' : Timestamp}
    {w w' : WriteRecord} (hw : st.writes.lookup k t = some w) (hc : w.op ≠ .rollback)
    (hw' : st.writes.lookup k t' = some w') (hc' : w'.op ≠ .rollback)
    (hlt : w.commitTimestamp < w'.commitTimestamp) : w.commitTimestamp ≤ w'.startTimestamp := by
  have hcell := (inv_of_reachable h).cell k
  rw [(hcell.write_valid hw).stored, (hcell.write_valid hw').stored] at hlt
  rw [(hcell.write_valid hw).stored]
  exact hcell.serial hw hc hw' hc' hlt

theorem first_committer_wins_sampleStore :
    (⟨5, 6, .put⟩ : WriteRecord).commitTimestamp ≤
      (⟨8, 10, .delete⟩ : WriteRecord).startTimestamp := by
  have hput : sampleStore.writes.lookup sampleKey 6 = some ⟨5, 6, .put⟩ := by decide +kernel
  have hdelete : sampleStore.writes.lookup sampleKey 10 = some ⟨8, 10, .delete⟩ := by
    decide +kernel
  exact first_committer_wins (MvccOp.reachable_afterAll sampleOps) hput (by decide) hdelete
    (by decide) (by decide)

end InMemoryMvcc

end RagnorDb
