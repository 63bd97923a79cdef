import RagnorDb.Storage.MvccInvariant

/-!
# Snapshot reads

`Cell.Visible` says what a snapshot at a timestamp contains: the value of the newest
committed record of the row, rollback markers ignored.  In a reachable store a read
returns it, unless an intent is in the way, and later operations that commit above the
snapshot do not change it.
-/

namespace RagnorDb

open Std Checked VersionMap

namespace Cell

variable {v : Option Bytes}

/-- The newest committed record of the row at or below `r`. -/
structure Newest (c : Cell) (r t : Timestamp) (w : WriteRecord) : Prop where
  written : c.write t = some w
  committed : w.op ≠ .rollback
  le : t ≤ r
  newest : ∀ {t' w'}, c.write t' = some w' → w'.op ≠ .rollback → t' ≤ r → t' ≤ t

/-- What the snapshot at `r` contains. -/
inductive Visible (c : Cell) (r : Timestamp) : Option Bytes → Prop
  | put {t : Timestamp} {w : WriteRecord} {row : Bytes} (newest : c.Newest r t w)
      (op : w.op = .put) (value : c.value w.startTimestamp = some row) : Visible c r (some row)
  | delete {t : Timestamp} {w : WriteRecord} (newest : c.Newest r t w) (op : w.op = .delete) :
      Visible c r none
  | absent (rollbacks : ∀ {t w}, c.write t = some w → t ≤ r → w.op = .rollback) : Visible c r none

variable {c c' : Cell} {r t t' : Timestamp} {w w' : WriteRecord}

theorem Newest.unique (h : c.Newest r t w) (h' : c.Newest r t' w') : w = w' := by
  have hle := h.newest h'.written h'.committed h'.le
  have hle' := h'.newest h.written h.committed h.le
  have ht : t = t' := Nat.le_antisymm hle' hle
  subst ht
  exact Option.some.inj (h.written.symm.trans h'.written)

/-- The snapshot is a function of the row and the timestamp. -/
theorem Visible.unique {v' : Option Bytes} (h : c.Visible r v) (h' : c.Visible r v') : v = v' := by
  cases h with
  | put newest op row =>
    cases h' with
    | put newest' op' row' =>
      cases newest.unique newest'
      exact row.symm.trans row'
    | delete newest' op' =>
      cases newest.unique newest'
      cases op.symm.trans op'
    | absent rollbacks => exact absurd (rollbacks newest.written newest.le) newest.committed
  | delete newest op =>
    cases h' with
    | put newest' op' =>
      cases newest.unique newest'
      cases op.symm.trans op'
    | delete | absent => rfl
  | absent rollbacks =>
    cases h' with
    | put newest' => exact absurd (rollbacks newest'.written newest'.le) newest'.committed
    | delete | absent => rfl

/-- Every record that is committed in `c'` and not in `c` lies above `r`. -/
def CommitsAbove (c c' : Cell) (r : Timestamp) : Prop :=
  ∀ t w, c'.write t = some w → w.op ≠ .rollback → c.write t ≠ some w → r < t

theorem CommitsAbove.old (ha : c.CommitsAbove c' r) (hw : c'.write t = some w)
    (hop : w.op ≠ .rollback) (hle : t ≤ r) : c.write t = some w := by
  by_contra hnew
  exact Nat.not_lt.mpr hle (ha t w hw hop hnew)

theorem Newest.extends (h : c.Newest r t w) (he : c.Extends c') (ha : c.CommitsAbove c' r) :
    c'.Newest r t w where
  written := he.write h.written
  committed := h.committed
  le := h.le
  newest hw hop hle := h.newest (ha.old hw hop hle) hop hle

theorem Visible.extends (h : c.Visible r v) (he : c.Extends c')
    (ha : c.CommitsAbove c' r) : c'.Visible r v := by
  cases h with
  | put newest op row =>
    exact .put (newest.extends he ha) op ((he.value newest.written newest.committed).trans row)
  | delete newest op => exact .delete (newest.extends he ha) op
  | absent rollbacks =>
    refine .absent fun {t w} hw hle => ?_
    by_contra hop
    exact hop (rollbacks (ha.old hw hop hle) hle)

end Cell

namespace InMemoryMvcc

variable {st st' : InMemoryMvcc} {k : Bytes} {r : Timestamp}
variable {e : Timestamp × WriteRecord} {v : Option Bytes}

/-- The walk over valid records, newest first, ends at the first committed one. -/
theorem visibleVersion_eq (h : (st.cell k).Inv) {l : List (Timestamp × WriteRecord)}
    (hl : ∀ e ∈ l, (st.cell k).write e.1 = some e.2) :
    st.visibleVersion k l =
      .ok ((l.find? fun e => e.2.op ≠ .rollback).bind fun e =>
        (st.cell k).value e.2.startTimestamp) := by
  induction l with
  | nil => rfl
  | cons e older ih =>
    obtain ⟨t, w⟩ := e
    have hw : (st.cell k).write t = some w := hl (t, w) (by simp)
    have hvalid := validateWriteRecord_eq_ok (u := ()).mpr (h.write_valid hw)
    have ih := ih fun e he => hl e (List.mem_cons_of_mem _ he)
    rw [visibleVersion, hvalid, ok_bind]
    cases hop : w.op with
    | put =>
      have hp := h.write_payload hw (by simp [hop])
      rw [hop] at hp
      obtain ⟨row, hrow, decoded, hdecoded⟩ := hp
      have hlookup : st.default.lookup k w.startTimestamp = some row := hrow
      simp [hop, hrow, hlookup, okOr, hdecoded]
    | delete =>
      have hp := h.write_payload hw (by simp [hop])
      rw [hop] at hp
      have hnone : (st.cell k).value w.startTimestamp = none := hp
      simp [hop, hnone]
    | rollback => simpa [hop] using ih

/-- The records a read walks over, newest first. -/
def recordsUpTo (versions : ExtTreeMap Timestamp WriteRecord compare) (r : Timestamp) :
    List (Timestamp × WriteRecord) :=
  (versions.toList.filter fun e => e.1 ≤ r).reverse

variable {versions : ExtTreeMap Timestamp WriteRecord compare}

theorem mem_recordsUpTo :
    e ∈ recordsUpTo versions r ↔ versions[e.1]? = some e.2 ∧ e.1 ≤ r := by
  rw [recordsUpTo, List.mem_reverse, List.mem_filter, decide_eq_true_eq,
    ← ExtTreeMap.mem_toList_iff_getElem?_eq_some]

theorem sorted_recordsUpTo :
    (recordsUpTo versions r).Pairwise fun e e' => e'.1 < e.1 := by
  rw [recordsUpTo, List.pairwise_reverse]
  refine List.Pairwise.filter _ (versions.ordered_keys_toList.imp ?_)
  intro e e' hlt
  exact Nat.compare_eq_lt.mp hlt

/-- The first committed record of the walk is the newest one. -/
theorem newest_of_find (hversions : st.writes[k]? = some versions)
    (hfind : (recordsUpTo versions r).find? (fun e => e.2.op ≠ .rollback) = some e) :
    (st.cell k).Newest r e.1 e.2 := by
  have hwrite : ∀ t, (st.cell k).write t = versions[t]? :=
    lookup_of_getElem? hversions
  obtain ⟨hop, newer, older, hlist, hnewer⟩ := List.find?_eq_some_iff_append.mp hfind
  have hmem : e ∈ recordsUpTo versions r := List.mem_of_find?_eq_some hfind
  have hsorted : (recordsUpTo versions r).Pairwise fun e e' => e'.1 < e.1 := sorted_recordsUpTo
  rw [hlist, List.pairwise_append, List.pairwise_cons] at hsorted
  refine ⟨(hwrite e.1).trans (mem_recordsUpTo.mp hmem).1, by simpa using hop,
    (mem_recordsUpTo.mp hmem).2, ?_⟩
  intro t w hw hcommitted hle
  have hmem' : (t, w) ∈ newer ++ e :: older := by
    rw [← hlist]
    exact mem_recordsUpTo.mpr ⟨(hwrite t).symm.trans hw, hle⟩
  rcases List.mem_append.mp hmem' with hbefore | hafter
  · have := hnewer _ hbefore
    simp [hcommitted] at this
  · rcases List.mem_cons.mp hafter with heq | holder
    · exact Nat.le_of_eq (congrArg Prod.fst heq)
    · exact Nat.le_of_lt (hsorted.2.1.1 _ holder)

theorem readVisibleVersion_of_free (hfree : ∀ l, st.locks[k]? = some l → r < l.startTimestamp) :
    (st.writes[k]? = none → st.readVisibleVersion k r = .ok none) ∧
      ∀ versions, st.writes[k]? = some versions →
        st.readVisibleVersion k r = st.visibleVersion k (recordsUpTo versions r) := by
  have hpass : ∀ l, st.locks[k]? = some l →
      rejectIf (l.startTimestamp ≤ r) (lockConflict l) = .ok () := fun l hl =>
    rejectIf_eq_ok.mpr (Nat.not_le.mpr (hfree l hl))
  unfold readVisibleVersion
  constructor
  · intro hw
    cases hl : st.locks[k]? with
    | none => simp [hw]
    | some l => simp [hw, hpass l hl]
  · intro versions hw
    cases hl : st.locks[k]? with
    | none => simp [hw, recordsUpTo]
    | some l => simp [hw, hpass l hl, recordsUpTo]

/-- With no intent in the way, a read returns what the snapshot contains. -/
theorem readVisibleVersion_visible (h : (st.cell k).Inv)
    (hfree : ∀ l, st.locks[k]? = some l → r < l.startTimestamp) :
    ∃ v, st.readVisibleVersion k r = .ok v ∧ (st.cell k).Visible r v := by
  obtain ⟨hnone, hsome⟩ := readVisibleVersion_of_free hfree
  cases hversions : st.writes[k]? with
  | none =>
    refine ⟨none, hnone hversions, .absent fun {t w} hw _ => ?_⟩
    cases (lookup_of_getElem?_none hversions t).symm.trans hw
  | some versions =>
    have hwrite : ∀ t, (st.cell k).write t = versions[t]? :=
      lookup_of_getElem? hversions
    have hwalk := visibleVersion_eq h (l := recordsUpTo versions r)
      fun e he => (hwrite e.1).trans (mem_recordsUpTo.mp he).1
    refine ⟨_, (hsome versions hversions).trans hwalk, ?_⟩
    cases hfind : (recordsUpTo versions r).find? (fun e => e.2.op ≠ .rollback) with
    | none =>
      refine .absent fun {t w} hw hle => ?_
      have := List.find?_eq_none.mp hfind (t, w)
        (mem_recordsUpTo.mpr ⟨(hwrite t).symm.trans hw, hle⟩)
      simpa using this
    | some e =>
      have hnewest := newest_of_find hversions hfind
      have hp := h.write_payload hnewest.written hnewest.committed
      rw [Option.bind_some]
      cases hop : e.2.op with
      | put =>
        rw [hop] at hp
        obtain ⟨row, hrow, -⟩ := hp
        rw [hrow]
        exact .put hnewest hop hrow
      | delete =>
        rw [hop] at hp
        rw [show (st.cell k).value e.2.startTimestamp = none from hp]
        exact .delete hnewest hop
      | rollback => exact absurd hop hnewest.committed

/-- The three outcomes of a read. -/
inductive ReadOutcome (st : InMemoryMvcc) (k : Bytes) (r : Timestamp) : Prop
  | locked {l : LockRecord} (lock : st.locks[k]? = some l) (le : l.startTimestamp ≤ r)
      (read : st.read k r = .error (lockConflict l))
  | visible {v : Option Bytes} (free : ∀ l, st.locks[k]? = some l → r < l.startTimestamp)
      (canonical : CanonicalKey k) (read : st.read k r = .ok v) (visible : (st.cell k).Visible r v)
  | malformed (free : ∀ l, st.locks[k]? = some l → r < l.startTimestamp)
      (malformed : ¬ CanonicalKey k) (read : ∃ text, st.read k r = .error (.invalidArgument text))

theorem Inv.readOutcome (h : st.Inv) (k : Bytes) (r : Timestamp) : ReadOutcome st k r := by
  have hread : CanonicalKey k → st.read k r = st.readVisibleVersion k r := fun hk => by
    rw [read, (validateEncodedKeyArgument_eq_ok (u := ())).mpr hk, ok_bind]
  by_cases hlocked : ∃ l, st.locks[k]? = some l ∧ l.startTimestamp ≤ r
  · obtain ⟨l, hl, hle⟩ := hlocked
    have hk : CanonicalKey k := by
      refine h.canonical fun hempty => ?_
      have hnone : st.locks[k]? = none := congrArg Cell.lock hempty
      cases hl.symm.trans hnone
    exact .locked hl hle ((hread hk).trans (by simp [readVisibleVersion, hl, rejectIf, hle]))
  · have hfree : ∀ l, st.locks[k]? = some l → r < l.startTimestamp := by
      intro l hl
      exact Nat.lt_of_not_le fun hle => hlocked ⟨l, hl, hle⟩
    by_cases hk : CanonicalKey k
    · obtain ⟨v, hv, hvisible⟩ := readVisibleVersion_visible (h.cell k) hfree
      exact .visible hfree hk ((hread hk).trans hv) hvisible
    · cases hdecode : decodeRowKey k with
      | ok rowKey => exact absurd ⟨rowKey, hdecode⟩ hk
      | error =>
        refine .malformed hfree hk ?_
        simp only [read, validateEncodedKeyArgument, hdecode]
        exact ⟨_, rfl⟩

theorem Inv.read_ok (h : st.Inv) (hv : st.read k r = .ok v) :
    CanonicalKey k ∧ (st.cell k).Visible r v := by
  cases h.readOutcome k r with
  | locked lock le read => cases hv.symm.trans read
  | visible free canonical read visible =>
    cases hv.symm.trans read
    exact ⟨canonical, visible⟩
  | malformed free malformed read =>
    obtain ⟨text, hread⟩ := read
    cases hv.symm.trans hread

theorem Inv.read_conflict_iff (h : st.Inv) (k : Bytes) (r : Timestamp) :
    (∃ text, st.read k r = .error (.writeConflict text)) ↔
      ∃ l, st.locks[k]? = some l ∧ l.startTimestamp ≤ r := by
  constructor
  · rintro ⟨text, htext⟩
    cases h.readOutcome k r with
    | locked lock le => exact ⟨_, lock, le⟩
    | visible free canonical read => cases htext.symm.trans read
    | malformed free malformed read =>
      obtain ⟨text', hread⟩ := read
      cases htext.symm.trans hread
  · rintro ⟨l, hl, hle⟩
    cases h.readOutcome k r with
    | locked lock le read => exact ⟨_, read⟩
    | visible free | malformed free => exact absurd hle (Nat.not_le.mpr (free l hl))

theorem Inv.read_ne_corruptData (h : st.Inv) (text : String) :
    st.read k r ≠ .error (.corruptData text) := by
  intro htext
  cases h.readOutcome k r with
  | locked lock le read | visible free canonical read visible => cases htext.symm.trans read
  | malformed free malformed read =>
    obtain ⟨text', hread⟩ := read
    cases htext.symm.trans hread

theorem read_stable (h : mvcc.Reachable st) (hv : st.read k r = .ok v) {ops : List MvccOp}
    (hsteps : mvcc.Steps st ops st') (habove : (st.cell k).CommitsAbove (st'.cell k) r) :
    st'.read k r = .ok v ∨ ∃ l, st'.locks[k]? = some l ∧ l.startTimestamp ≤ r ∧
      st'.read k r = .error (lockConflict l) := by
  obtain ⟨hk, hvisible⟩ := (inv_of_reachable h).read_ok hv
  have hvisible' := hvisible.extends (extends_of_steps h hsteps k) habove
  cases (inv_of_reachable (h.steps hsteps)).readOutcome k r with
  | locked lock le read => exact .inr ⟨_, lock, le, read⟩
  | visible free canonical read visible =>
    cases visible.unique hvisible'
    exact .inl read
  | malformed free malformed => exact absurd hk malformed

/-- Snapshot reads are correct and stable.  A read conflicts exactly with an intent at or
below the snapshot; without one it returns what the snapshot contains, for every key of
the storage contract (another key is an invalid argument), and never reports corrupt data.
A row that was read is read again after any further operations that commit nothing at or
below the snapshot, unless an intent has come in the way. -/
theorem snapshot_read_correct (h : mvcc.Reachable st) (k : Bytes) (r : Timestamp) :
    ((∃ text, st.read k r = .error (.writeConflict text)) ↔
        ∃ l, st.locks[k]? = some l ∧ l.startTimestamp ≤ r) ∧
      ((¬ ∃ l, st.locks[k]? = some l ∧ l.startTimestamp ≤ r) →
        if CanonicalKey k then ∃ v, st.read k r = .ok v ∧ (st.cell k).Visible r v
        else ∃ text, st.read k r = .error (.invalidArgument text)) ∧
      (∀ text, st.read k r ≠ .error (.corruptData text)) ∧
      ∀ v ops st', st.read k r = .ok v → mvcc.Steps st ops st' →
        (st.cell k).CommitsAbove (st'.cell k) r →
        st'.read k r = .ok v ∨ ∃ l, st'.locks[k]? = some l ∧ l.startTimestamp ≤ r ∧
          st'.read k r = .error (lockConflict l) := by
  have hinv := inv_of_reachable h
  refine ⟨hinv.read_conflict_iff k r, fun hfree => ?_, hinv.read_ne_corruptData,
    fun v ops st' hv hsteps habove => read_stable h hv hsteps habove⟩
  cases hinv.readOutcome k r with
  | locked lock le => exact absurd ⟨_, lock, le⟩ hfree
  | visible free canonical read visible =>
    rw [if_pos canonical]
    exact ⟨_, read, visible⟩
  | malformed free malformed read =>
    rw [if_neg malformed]
    exact read

/-- The store after the first commit of the sample run. -/
def committedStore : InMemoryMvcc := MvccOp.afterAll (sampleOps.take 2) .new

theorem snapshot_read_correct_sample :
    committedStore.read sampleKey 9 = .ok (some sampleRow) ∧
      (sampleStore.read sampleKey 9 = .ok (some sampleRow) ∨
        ∃ l, sampleStore.locks[sampleKey]? = some l ∧ l.startTimestamp ≤ 9 ∧
          sampleStore.read sampleKey 9 = .error (lockConflict l)) := by
  have hread : committedStore.read sampleKey 9 = .ok (some sampleRow) := by decide +kernel
  refine ⟨hread, (snapshot_read_correct (MvccOp.reachable_afterAll _) sampleKey 9).2.2.2
    _ (sampleOps.drop 2) _ hread (MvccOp.steps_afterAll _ committedStore) ?_⟩
  intro t w hw hop hnew
  have hentries : ∀ e ∈ sampleStore.writes.entries, e.2.2.op ≠ .rollback →
      committedStore.writes.lookup sampleKey e.2.1 ≠ some e.2.2 → 9 < e.2.1 := by
    decide +kernel
  exact hentries (sampleKey, t, w) (mem_entries.mpr hw) hop hnew

end InMemoryMvcc

end RagnorDb
