import RagnorDb.Storage.MvccSpec

/-!
# What an operation does to each row

An operation names some rows and asks the same kind of `Cell.Call` of each of them.  It
succeeds exactly when its arguments are in order and every named row can answer; then
every named row has answered and every other row is as before (`MvccOp.answered_of_exec`,
`MvccOp.exec_of_acceptable`).  An operation that fails changes nothing (`MvccOp.exec_error`).
Everything proved about runs of the store follows from these three.
-/

namespace RagnorDb

open Std Checked OrderedMap VersionMap

/-! ## The rows a delta changes -/

namespace Cell

def applyPrewrite (d : PreparedPrewrite) (c : Cell) : Cell :=
  { c with
    value := match d.defaultValue with
      | some row => Function.update c.value d.lock.startTimestamp (some row)
      | none => c.value
    lock := some d.lock }

def applyIntentCommit (d : PreparedIntentCommit) (c : Cell) : Cell :=
  { c with
    write := Function.update c.write d.write.commitTimestamp (some d.write)
    lock := none }

def applyIntentRollback (startTs : Timestamp) (d : PreparedIntentRollback) (c : Cell) : Cell where
  value := if d.removeDefaultValue then Function.update c.value startTs none else c.value
  lock := none
  write := Function.update c.write startTs (some ⟨startTs, startTs, .rollback⟩)

def applyCommitBatchKey (txnId : TxnId) (startTs commitTs : Timestamp) (m : Mutation)
    (c : Cell) : Cell where
  value := match m with
    | .put row => Function.update c.value startTs (some row)
    | .delete => c.value
  lock :=
    if c.lock.any fun lock => lock.txnId = txnId ∧ lock.startTimestamp = startTs then
      none
    else
      c.lock
  write := Function.update c.write commitTs (some ⟨startTs, commitTs, m.writeKind⟩)

theorem Step.applyCommitBatchKey_eq {c c' : Cell} {txnId : TxnId} {startTs commitTs : Timestamp}
    {m : Mutation} (h : c.Step (.direct txnId startTs commitTs m) c') :
    c.applyCommitBatchKey txnId startTs commitTs m = c' := by
  cases h with
  | direct _ _ _ owner _ payload =>
    unfold applyCommitBatchKey
    congr 1
    · cases m with
      | put => rfl
      | delete =>
        have hnone : c.value startTs = none := by
          cases hv : c.value startTs with
          | none => rfl
          | some row => cases payload row hv
        exact (Function.update_eq_self_iff.mpr hnone.symm).symm
    · cases hl : c.lock with
      | none => rfl
      | some l => simp [owner l hl]

/-- Without a Put lock there is no default value to remove. -/
theorem value_eq_none_of_not_put {c : Cell} {startTs : Timestamp}
    (payload : ∀ l, c.lock = some l → PayloadOk (c.value startTs) l.op)
    (unlocked : c.lock = none → c.value startTs = none)
    (hput : ¬ (c.lock.any fun l => l.op = .put) = true) : c.value startTs = none := by
  cases hl : c.lock with
  | none => exact unlocked hl
  | some l =>
    have hp := payload l hl
    cases hop : l.op with
    | put => simp [hl, hop] at hput
    | delete =>
      rw [hop] at hp
      exact hp
    | rollback => exact absurd hop hp.ne_rollback

end Cell

namespace InMemoryMvcc

variable (self : InMemoryMvcc)
variable {primaryKey : Bytes} {ttlMs n : Nat} {c' c : Cell} {mutations : Mutations}
  {keys : KeySet}

theorem cell_applyPrewrite (d : PreparedPrewrite) (k : Bytes) :
    (self.applyPrewrite d).cell k =
      if d.key = k then (self.cell k).applyPrewrite d else self.cell k := by
  unfold cell applyPrewrite Cell.applyPrewrite
  cases d.defaultValue with
  | none =>
    by_cases h : d.key = k
    · simp [h]
    · simp [getElem?_insert, h]
  | some =>
    by_cases h : d.key = k
    · simp [lookup_insertVersion_key, h]
    · simp [getElem?_insert, lookup_insertVersion_key, h]

theorem cell_applyIntentCommit (d : PreparedIntentCommit) (k : Bytes) :
    (self.applyIntentCommit d).cell k =
      if d.key = k then (self.cell k).applyIntentCommit d else self.cell k := by
  unfold cell applyIntentCommit Cell.applyIntentCommit
  by_cases h : d.key = k
  · simp [lookup_insertVersion_key, h]
  · simp [getElem?_erase, lookup_insertVersion_key, h]

theorem cell_applyIntentRollback (startTs : Timestamp) (d : PreparedIntentRollback) (k : Bytes) :
    (self.applyIntentRollback startTs d).cell k =
      if d.key = k then (self.cell k).applyIntentRollback startTs d else self.cell k := by
  unfold cell applyIntentRollback Cell.applyIntentRollback
  cases d.removeDefaultValue with
  | false =>
    by_cases h : d.key = k
    · simp [lookup_insertVersion_key, h]
    · simp [getElem?_erase, lookup_insertVersion_key, h]
  | true =>
    by_cases h : d.key = k
    · simp [lookup_insertVersion_key, lookup_eraseVersion_key, h]
    · simp [getElem?_erase, lookup_insertVersion_key,
        lookup_eraseVersion_key, h]

theorem cell_applyCommitBatchKey (txnId : TxnId) (startTs commitTs : Timestamp)
    (e : Bytes × Mutation) (k : Bytes) :
    (self.applyCommitBatchKey txnId startTs commitTs e).cell k =
      if e.1 = k then (self.cell k).applyCommitBatchKey txnId startTs commitTs e.2
      else self.cell k := by
  obtain ⟨key, m⟩ := e
  unfold cell applyCommitBatchKey Cell.applyCommitBatchKey
  by_cases h : key = k
  · subst h
    cases hl : self.locks[key]? with
    | none => cases m <;> simp [lookup_insertVersion_key, hl]
    | some l =>
      by_cases hown : l.txnId = txnId ∧ l.startTimestamp = startTs
      · cases m <;> simp [lookup_insertVersion_key, hown]
      · cases m <;> simp [lookup_insertVersion_key, hl, hown]
  · have hlocks : ∀ p : Prop, [Decidable p] →
        (if p then self.locks.erase key else self.locks)[k]? = self.locks[k]? := by
      intro p _
      split
      · rw [getElem?_erase, if_neg h]
      · rfl
    cases m <;> simp [lookup_insertVersion_key, h, hlocks]

/-- The maps of the store hold no key without versions. -/
structure NoEmpty (st : InMemoryMvcc) : Prop where
  default : st.default.NoEmpty
  writes : st.writes.NoEmpty

variable {self}

theorem NoEmpty.applyPrewrite (h : self.NoEmpty) (d : PreparedPrewrite) :
    (self.applyPrewrite d).NoEmpty where
  default := by
    unfold InMemoryMvcc.applyPrewrite
    cases d.defaultValue with
    | none => exact h.default
    | some => exact h.default.insertVersion _ _ _
  writes := h.writes

theorem NoEmpty.applyIntentCommit (h : self.NoEmpty) (d : PreparedIntentCommit) :
    (self.applyIntentCommit d).NoEmpty :=
  ⟨h.default, h.writes.insertVersion _ _ _⟩

theorem NoEmpty.applyIntentRollback (h : self.NoEmpty) (startTs : Timestamp)
    (d : PreparedIntentRollback) : (self.applyIntentRollback startTs d).NoEmpty where
  default := by
    unfold InMemoryMvcc.applyIntentRollback
    cases d.removeDefaultValue with
    | false => exact h.default
    | true => exact h.default.eraseVersion _ _
  writes := h.writes.insertVersion _ _ _

theorem NoEmpty.applyCommitBatchKey (h : self.NoEmpty) (txnId : TxnId)
    (startTs commitTs : Timestamp) (e : Bytes × Mutation) :
    (self.applyCommitBatchKey txnId startTs commitTs e).NoEmpty where
  default := by
    unfold InMemoryMvcc.applyCommitBatchKey
    cases e.2 with
    | put => exact h.default.insertVersion _ _ _
    | delete => exact h.default
  writes := h.writes.insertVersion _ _ _

theorem NoEmpty.foldl {γ : Type} {f : InMemoryMvcc → γ → InMemoryMvcc}
    (hf : ∀ {self : InMemoryMvcc}, self.NoEmpty → ∀ x, (f self x).NoEmpty)
    (l : List γ) (h : self.NoEmpty) : (l.foldl f self).NoEmpty := by
  induction l generalizing self with
  | nil => exact h
  | cons x l ih => exact ih (hf h x)

theorem NoEmpty.ext {self self' : InMemoryMvcc} (h : self.NoEmpty) (h' : self'.NoEmpty)
    (hcell : ∀ k, self.cell k = self'.cell k) : self = self' := by
  have hdefault : self.default = self'.default :=
    h.default.ext h'.default fun k t => congrFun (congrArg Cell.value (hcell k)) t
  have hwrites : self.writes = self'.writes :=
    h.writes.ext h'.writes fun k t => congrFun (congrArg Cell.write (hcell k)) t
  have hlocks : self.locks = self'.locks :=
    ExtTreeMap.ext_getElem? fun k => congrArg Cell.lock (hcell k)
  cases self
  cases self'
  simp_all

theorem prewriteLock_valid {t : TxnId} {s : Timestamp} {m : Mutation} {pk : Bytes} {ttl : Nat}
    (hargs : t ≠ 0 ∧ s ≠ 0 ∧ CanonicalKey pk ∧ ttl ≠ 0) : (prewriteLock t s m pk ttl).Valid where
  txnId_ne_zero := hargs.1
  start_ne_zero := hargs.2.1
  ttl_ne_zero := hargs.2.2.2
  primary := hargs.2.2.1
  op := by cases m <;> simp [prewriteLock, Mutation.writeKind]

/-! ## Checked deltas answer the row's call -/

variable {k : Bytes} {txnId : TxnId} {startTs commitTs : Timestamp} {mutation : Mutation}

section

variable (hv : ∀ t w, (self.cell k).write t = some w → w.ValidAt t)
include hv

theorem preparePrewrite_answers
    (hvalid : (prewriteLock txnId startTs mutation primaryKey ttlMs).Valid)
    {o : Option PreparedPrewrite}
    (ho : self.preparePrewrite txnId startTs k mutation primaryKey ttlMs = .ok o) :
    CanonicalKey k ∧ (∀ d, o = some d → d.key = k) ∧
      (self.cell k).Answers
        (.prewrite (prewriteLock txnId startTs mutation primaryKey ttlMs) mutation)
        (o.elim (self.cell k) fun d => (self.cell k).applyPrewrite d) := by
  rw [preparePrewrite_eq_ok hv] at ho
  obtain ⟨hk, hrow, hhist, ⟨rfl, hvalue, hlock⟩ | ⟨rfl, hvalue, hlock⟩⟩ := ho
  · exact ⟨hk, by simp, .inr ⟨.prewrite hlock rfl hvalue, rfl⟩⟩
  · refine ⟨hk, by simp, .inl ?_⟩
    have hstep := Cell.Step.prewrite hvalid rfl hrow hhist hlock hvalue
    cases mutation with
    | put => exact hstep
    | delete =>
      -- A Delete stores nothing, and there was nothing at its start.
      have hkeep : Function.update (self.cell k).value startTs none = (self.cell k).value := by
        rw [← hvalue, Function.update_eq_self]
      simp only [Mutation.row?, prewriteLock, hkeep] at hstep
      exact hstep

theorem prepareIntentCommit_answers (hlt : startTs < commitTs) {o : Option PreparedIntentCommit}
    (ho : self.prepareIntentCommit txnId startTs commitTs k = .ok o) :
    CanonicalKey k ∧ (∀ d, o = some d → d.key = k) ∧
      (self.cell k).Answers (.commit txnId startTs commitTs)
        (o.elim (self.cell k) fun d => (self.cell k).applyIntentCommit d) := by
  rw [prepareIntentCommit_eq_ok hv] at ho
  obtain ⟨hk, ⟨rfl, w, hw, hstart, -, -, hp⟩ | ⟨-, l, rfl, hl, htxn, hstart, hp, hh, hb⟩⟩ := ho
  · exact ⟨hk, by simp, .inr ⟨.commit hw hstart hp.ne_rollback, rfl⟩⟩
  · exact ⟨hk, by simp, .inl (.commit hl htxn hstart hlt hp hh hb)⟩

theorem prepareIntentRollback_answers (hs : startTs ≠ 0) {o : Option PreparedIntentRollback}
    (ho : self.prepareIntentRollback txnId startTs k = .ok o) :
    CanonicalKey k ∧ (∀ d, o = some d → d.key = k) ∧
      (self.cell k).Answers (.rollback txnId startTs)
        (o.elim (self.cell k) fun d => (self.cell k).applyIntentRollback startTs d) := by
  rw [prepareIntentRollback_eq_ok hv] at ho
  obtain ⟨hk, hundecided, ⟨rfl, ⟨w, hw, -, hop⟩, -⟩ | ⟨rfl, hvacant, hown, hp, hnone⟩⟩ := ho
  · exact ⟨hk, by simp, .inr ⟨.rollback hw hop, rfl⟩⟩
  · refine ⟨hk, by simp, .inl ?_⟩
    have hstep := Cell.Step.rollback hs hundecided hvacant hown hp hnone
    have hvalue : (if (self.cell k).lock.any fun l => l.op = .put then
        Function.update (self.cell k).value startTs none else (self.cell k).value) =
        Function.update (self.cell k).value startTs none := by
      split
      · rfl
      · next hput =>
          rw [← Cell.value_eq_none_of_not_put hp hnone hput, Function.update_eq_self]
    simp only [Option.elim_some, Cell.applyIntentRollback, hvalue]
    exact hstep

end

section

variable (h : (self.cell k).Inv)
include h

theorem preparePrewrite_of_answers (hk : CanonicalKey k)
    (ha : (self.cell k).Answers
      (.prewrite (prewriteLock txnId startTs mutation primaryKey ttlMs) mutation) c') :
    ∃ o, self.preparePrewrite txnId startTs k mutation primaryKey ttlMs = .ok o := by
  simp only [preparePrewrite_eq_ok fun _ _ => h.write_valid]
  rcases ha with hstep | ⟨hreplay, -⟩
  · cases hstep with
    | prewrite valid kind row history unlocked fresh =>
      exact ⟨_, hk, row, history, .inr ⟨rfl, fresh, unlocked⟩⟩
  · cases hreplay with
    | prewrite locked kind row =>
      refine ⟨none, hk, ?_, h.historyOk_of_lock locked, .inl ⟨rfl, row, locked⟩⟩
      intro row' hrow'
      have hp := h.lock_payload locked
      rw [row, hrow'] at hp
      exact hp.decodable

theorem prepareIntentCommit_of_answers (hk : CanonicalKey k)
    (ha : (self.cell k).Answers (.commit txnId startTs commitTs) c') :
    ∃ o, self.prepareIntentCommit txnId startTs commitTs k = .ok o := by
  simp only [prepareIntentCommit_eq_ok fun _ _ => h.write_valid]
  rcases ha with hstep | ⟨hreplay, -⟩
  · cases hstep with
    | @commit lock _ _ _ locked txn start after payload history newest =>
      exact ⟨_, hk, .inr ⟨newest.vacant, lock, rfl, locked, txn, start, payload, history,
        newest⟩⟩
  · cases hreplay with
    | @commit _ _ _ w written start committed =>
      refine ⟨none, hk, .inl ⟨rfl, w, written, start, ?_, ?_, ?_⟩⟩
      · intro t w' hw' hstart
        exact h.start_unique hw' written (hstart.trans start.symm)
      · intro l hl hstart
        exact h.lock_undecided hl written (start.trans hstart.symm)
      · exact start ▸ h.write_payload written committed

theorem prepareIntentRollback_of_answers (hk : CanonicalKey k)
    (ha : (self.cell k).Answers (.rollback txnId startTs) c') :
    ∃ o, self.prepareIntentRollback txnId startTs k = .ok o := by
  simp only [prepareIntentRollback_eq_ok fun _ _ => h.write_valid]
  rcases ha with hstep | ⟨hreplay, -⟩
  · cases hstep with
    | rollback start_ne_zero undecided vacant owner payload unlocked =>
      exact ⟨_, hk, undecided, .inr ⟨rfl, vacant, owner, payload, unlocked⟩⟩
  · cases hreplay with
    | @rollback _ _ w written marker =>
      have hstart := (h.write_valid written).rollback marker
      refine ⟨none, hk, ?_, .inl ⟨rfl, ⟨w, written, hstart, marker⟩, ?_, ?_⟩⟩
      · intro t w' hw' hstart'
        cases h.start_unique hw' written (hstart'.trans hstart.symm)
        cases written.symm.trans hw'
        exact marker
      · intro l hl hl'
        exact h.lock_undecided hl written (hstart.trans hl'.symm)
      · exact h.marker_payload written marker

end

/-! ## Runs of the methods -/

variable {st st' : InMemoryMvcc}

/-- The checks of `commit_batch` on one key, and its delta unless the key is an exact replay. -/
def prepareDirect (st : InMemoryMvcc) (txnId : TxnId) (startTs commitTs : Timestamp)
    (e : Bytes × Mutation) : Except Error (Option (Bytes × Mutation)) := do
  st.validateMutation e.1 e.2 startTs
  if ← st.isExactlyApplied e.1 e.2 startTs commitTs then
    return none
  else
    st.validateLock e.1 e.2 txnId startTs
    st.validateWriteHistory e.1 startTs
    st.validateCommitTimestamp e.1 commitTs
    return some e

theorem prepareDirect_eq_ok {e : Bytes × Mutation} {o : Option (Bytes × Mutation)} :
    st.prepareDirect txnId startTs commitTs e = .ok o ↔
      st.validateMutation e.1 e.2 startTs = .ok () ∧
        ((o = none ∧ st.isExactlyApplied e.1 e.2 startTs commitTs = .ok true) ∨
          (o = some e ∧ st.isExactlyApplied e.1 e.2 startTs commitTs = .ok false ∧
            st.validateLock e.1 e.2 txnId startTs = .ok () ∧
            st.validateWriteHistory e.1 startTs = .ok () ∧
            st.validateCommitTimestamp e.1 commitTs = .ok ())) := by
  unfold prepareDirect
  cases st.isExactlyApplied e.1 e.2 startTs commitTs with
  | error => simp
  | ok applied =>
    cases applied with
    | true => simp [eq_comm (a := o)]
    | false => simp [eq_comm (a := o), and_comm, and_left_comm, and_assoc]

/-- A batch commit succeeds when all of it is in place already, or when every key passes every
check. -/
theorem commitBatch_run_eq_ok_direct :
    (commitBatch txnId startTs commitTs mutations).run st = .ok n st' ↔
      txnId ≠ 0 ∧ startTs ≠ 0 ∧ startTs < commitTs ∧ mutations.size = n ∧
        ((st = st' ∧ ∀ e ∈ mutations.toList, st.prepareDirect txnId startTs commitTs e = .ok none) ∨
          (mutations.toList.foldl
              (fun self e => self.applyCommitBatchKey txnId startTs commitTs e) st = st' ∧
            ∀ e ∈ mutations.toList, st.prepareDirect txnId startTs commitTs e = .ok (some e))) := by
  simp only [commitBatch, run_eq_ok, validateCommitMetadata_eq_ok, forM_eq_ok, exists_const,
    and_assoc]
  refine and_congr_right fun ht => and_congr_right fun hs => and_congr_right fun hlt => ?_
  by_cases hempty : mutations.isEmpty = true
  · have hlist : mutations.toList = [] := by simpa using hempty
    have hsize : mutations.size = 0 := by rw [← ExtTreeMap.length_toList, hlist]; rfl
    rw [if_pos hempty]
    simp [hlist, hsize]
  · have hne : mutations.toList ≠ [] := by simpa using hempty
    rw [if_neg hempty]
    -- The keys agree on whether they are in place, and only those that are not are checked.
    simp only [run_eq_ok, validateBatchReplay_eq_ok hne, prepareDirect_eq_ok, Bool.exists_bool,
      if_true, Bool.false_eq_true, if_false, modify_bind_run, validateCommitBatch, eq_ok,
      validateCommitPreflightMetadata_eq_ok, forM_eq_ok, Unique.exists_iff,
      PUnit.default_eq_unit, EStateM.Result.ok.injEq, reduceCtorEq, false_and, or_false, false_or,
      true_and, forall_and]
    tauto

theorem direct_step_iff (hs : startTs ≠ 0) (hlt : startTs < commitTs) :
    (∃ c', c.Step (.direct txnId startTs commitTs mutation) c') ↔
      (mutation.Canonical ∧ ∀ row, c.value startTs = some row → mutation.row? = some row) ∧
        (c.LockFree txnId startTs ∧ ∀ l, c.lock = some l → l.op = mutation.writeKind) ∧
        c.HistoryOk startTs ∧ c.WritesBelow commitTs := by
  constructor
  · rintro ⟨c', hstep⟩
    cases hstep with
    | direct _ _ row owner kind payload history newest =>
      exact ⟨⟨row, payload⟩, ⟨owner, kind⟩, history, newest⟩
  · rintro ⟨⟨row, payload⟩, ⟨owner, kind⟩, history, newest⟩
    exact ⟨_, .direct hs hlt row owner kind payload history newest⟩

theorem direct_replay {c : Cell}
    (hpayload : ∀ row, c.value startTs = some row → mutation.row? = some row)
    (h : Replayed c startTs commitTs mutation) :
    c.Replay (.direct txnId startTs commitTs mutation) :=
  .direct h.write (Option.ext fun row => ⟨hpayload row, h.row row⟩)

section

variable {e : Bytes × Mutation} (hv : ∀ t w, (st.cell e.1).write t = some w → w.ValidAt t)
include hv

theorem replay_of_prepareDirect (h : st.prepareDirect txnId startTs commitTs e = .ok none) :
    CanonicalKey e.1 ∧ (st.cell e.1).Replay (.direct txnId startTs commitTs e.2) := by
  simp only [prepareDirect_eq_ok, validateMutation_eq_ok, isExactlyApplied_eq_ok hv, reduceCtorEq,
    false_and, false_or, or_false, true_and] at h
  obtain ⟨⟨hk, _, hpayload⟩, hreplayed⟩ := h
  exact ⟨hk, direct_replay hpayload hreplayed⟩

theorem prepareDirect_eq_some (hs : startTs ≠ 0) (hlt : startTs < commitTs) :
    st.prepareDirect txnId startTs commitTs e = .ok (some e) ↔
      CanonicalKey e.1 ∧ ∃ c', (st.cell e.1).Step (.direct txnId startTs commitTs e.2) c' := by
  rw [prepareDirect_eq_ok, validateMutation_eq_ok, validateLock_eq_ok,
    validateWriteHistory_eq_ok hv, validateCommitTimestamp_eq_ok, direct_step_iff hs hlt]
  simp only [isExactlyApplied_eq_ok hv, reduceCtorEq, false_and, false_or, true_and, or_false,
    and_assoc]
  refine and_congr_right fun _ => and_congr_right fun _ => and_congr_right fun _ => ?_
  constructor
  · rintro ⟨-, hchecks⟩
    exact hchecks
  · intro hchecks
    exact ⟨hchecks.2.2.2.vacant, hchecks⟩

end

/-- A row in order answers a replay again. -/
theorem prepareDirect_of_replay {e : Bytes × Mutation} (h : (st.cell e.1).Inv)
    (hk : CanonicalKey e.1) (hreplay : (st.cell e.1).Replay (.direct txnId startTs commitTs e.2)) :
    st.prepareDirect txnId startTs commitTs e = .ok none := by
  rw [prepareDirect_eq_ok, validateMutation_eq_ok, isExactlyApplied_eq_ok fun _ _ => h.write_valid]
  cases hreplay with
  | direct written row =>
    refine ⟨⟨hk, fun r hr => ?_, fun r hr => row ▸ hr⟩,
      .inl ⟨rfl, .inr ⟨rfl, written, fun r hr => row.trans hr⟩⟩⟩
    have hp := h.write_payload written e.2.writeKind_ne_rollback
    rw [show (st.cell e.1).value startTs = some r from row.trans hr] at hp
    exact hp.decodable

/-- The rows after a batch of calls at distinct places: the named rows have answered, the
others are as before. -/
structure BatchAnswered {γ : Type} (st : InMemoryMvcc) (l : List γ) (place : γ → Bytes)
    (call : γ → Cell.Call) (st' : InMemoryMvcc) : Prop where
  answers : ∀ {a}, a ∈ l →
    CanonicalKey (place a) ∧ (st.cell (place a)).Answers (call a) (st'.cell (place a))
  frame : ∀ {k}, (∀ a ∈ l, place a ≠ k) → st'.cell k = st.cell k
  noEmpty : st'.NoEmpty

theorem batchAnswered {γ δ : Type} (place : γ → Bytes) (call : γ → Cell.Call) {l : List γ}
    {prepare : γ → Except Error (Option δ)} {apply : InMemoryMvcc → δ → InMemoryMvcc}
    {key : δ → Bytes} {update : δ → Cell → Cell} (hcell : ∀ st d k, (apply st d).cell k =
      if key d = k then update d (st.cell k) else st.cell k)
    (happly : ∀ {st : InMemoryMvcc}, st.NoEmpty → ∀ d, (apply st d).NoEmpty)
    (hanswer : ∀ {a o}, prepare a = .ok o → CanonicalKey (place a) ∧
      (∀ d, o = some d → key d = place a) ∧ (st.cell (place a)).Answers (call a)
        (o.elim (st.cell (place a)) fun d => update d (st.cell (place a)))) (hne : st.NoEmpty)
    (hl : (l.map place).Nodup) {ds : List δ} (hds : l.filterMapM prepare = .ok ds) :
    BatchAnswered st l place call (ds.foldl apply st) := by
  obtain ⟨hok, rfl⟩ := filterMapM_eq_ok.mp hds
  have hkey : ∀ a d, (prepare a).toOption.join = some d → key d = place a := by
    intro a d hd
    cases hp : prepare a with
    | error =>
      rw [hp] at hd
      cases hd
    | ok =>
      rw [hp] at hd
      exact (hanswer hp).2.1 d hd
  refine ⟨fun {a} ha => ?_, fun hk => foldl_filterMap_view_of_not_mem hcell hkey hk st,
    hne.foldl happly _⟩
  obtain ⟨o, ho⟩ := hok a ha
  obtain ⟨hcanonical, -, hans⟩ := hanswer ho
  refine ⟨hcanonical, ?_⟩
  rw [foldl_filterMap_view_of_mem hcell hkey hl ha st, ho]
  exact hans

section Batches

variable (hv : ∀ k t w, (st.cell k).write t = some w → w.ValidAt t) (hne : st.NoEmpty)

include hv hne

variable {l : List Bytes}

theorem prewriteAll_answered {l : List (Bytes × Mutation)} {ds : List PreparedPrewrite}
    (hargs : txnId ≠ 0 ∧ startTs ≠ 0 ∧ CanonicalKey primaryKey ∧ ttlMs ≠ 0)
    (hl : (l.map Prod.fst).Nodup) (hds : l.filterMapM (fun e =>
      st.preparePrewrite txnId startTs e.1 e.2 primaryKey ttlMs) = .ok ds) :
    BatchAnswered st l Prod.fst
      (fun e => .prewrite (prewriteLock txnId startTs e.2 primaryKey ttlMs) e.2)
      (ds.foldl applyPrewrite st) :=
  batchAnswered _ _ cell_applyPrewrite NoEmpty.applyPrewrite
    (fun {a _} => preparePrewrite_answers (hv a.1) (prewriteLock_valid hargs)) hne hl hds

theorem commitAll_answered {ds : List PreparedIntentCommit} (hlt : startTs < commitTs)
    (hl : l.Nodup) (hds : l.filterMapM (fun key =>
      st.prepareIntentCommit txnId startTs commitTs key) = .ok ds) :
    BatchAnswered st l id (fun _ => .commit txnId startTs commitTs)
      (ds.foldl applyIntentCommit st) :=
  batchAnswered id _ cell_applyIntentCommit NoEmpty.applyIntentCommit
    (fun {a _} => prepareIntentCommit_answers (hv a) hlt) hne (by simpa using hl) hds

theorem rollbackAll_answered {ds : List PreparedIntentRollback} (hs : startTs ≠ 0) (hl : l.Nodup)
    (hds : l.filterMapM (fun key => st.prepareIntentRollback txnId startTs key) = .ok ds) :
    BatchAnswered st l id (fun _ => .rollback txnId startTs)
      (ds.foldl (fun self delta => self.applyIntentRollback startTs delta) st) :=
  batchAnswered id _ (fun st d k => cell_applyIntentRollback st startTs d k)
    (fun hne d => hne.applyIntentRollback startTs d)
    (fun {a _} => prepareIntentRollback_answers (hv a) hs) hne (by simpa using hl) hds

theorem commitBatch_answered {ms : Mutations}
    (hx : (commitBatch txnId startTs commitTs ms).run st = .ok n st') :
    BatchAnswered st ms.toList Prod.fst (fun e => .direct txnId startTs commitTs e.2) st' := by
  obtain ⟨-, hs, hlt, -, ⟨rfl, hreplay⟩ | ⟨rfl, hstep⟩⟩ := commitBatch_run_eq_ok_direct.mp hx
  · refine ⟨fun {e} he => ?_, fun _ => rfl, hne⟩
    obtain ⟨hcanonical, hreplay⟩ := replay_of_prepareDirect (hv e.1) (hreplay e he)
    exact ⟨hcanonical, .inr ⟨hreplay, rfl⟩⟩
  · have hcell := fun st e k => cell_applyCommitBatchKey st txnId startTs commitTs e k
    refine ⟨fun {e} he => ?_, fun hk => foldl_view_of_not_mem hcell hk st,
      hne.foldl (fun hne e => hne.applyCommitBatchKey txnId startTs commitTs e) _⟩
    obtain ⟨hcanonical, c', hc'⟩ := (prepareDirect_eq_some (hv e.1) hs hlt).mp (hstep e he)
    rw [foldl_view_of_mem hcell (nodup_keys ms) he st, hc'.applyCommitBatchKey_eq]
    exact ⟨hcanonical, .inl hc'⟩

end Batches

end InMemoryMvcc

/-! ## Operations -/

namespace MvccOp

open InMemoryMvcc

variable {ms : Mutations} {f : Mutation → Cell.Call} {k : Bytes} {c : Cell.Call} {keys : KeySet}
  {t : TxnId} {s : Timestamp} {m : Mutation} {pk : Bytes} {ttl : Nat}

/-- What an operation asks of the row `k`. -/
def call (k : Bytes) : MvccOp → Option Cell.Call
  | .commitBatch t s c ms => ms[k]?.map (.direct t s c)
  | .prewrite t s key m pk ttl =>
    if key = k then some (.prewrite (prewriteLock t s m pk ttl) m) else none
  | .prewriteBatch t s ms pk ttl =>
    ms[k]?.map fun m => .prewrite (prewriteLock t s m pk ttl) m
  | .commitIntent t s c key => if key = k then some (.commit t s c) else none
  | .commitIntentsBatch t s c keys => if k ∈ keys then some (.commit t s c) else none
  | .rollbackIntent t s key => if key = k then some (.rollback t s) else none
  | .rollbackIntentsBatch t s keys => if k ∈ keys then some (.rollback t s) else none

/-- The conditions on an operation's arguments alone. -/
def ArgsOk : MvccOp → Prop
  | .commitBatch t s c _ => t ≠ 0 ∧ s ≠ 0 ∧ s < c
  | .prewrite t s _ _ pk ttl => t ≠ 0 ∧ s ≠ 0 ∧ CanonicalKey pk ∧ ttl ≠ 0
  | .prewriteBatch t s ms pk ttl =>
    ms.isEmpty = false ∧ t ≠ 0 ∧ s ≠ 0 ∧ CanonicalKey pk ∧ ttl ≠ 0
  | .commitIntent t s c _ => t ≠ 0 ∧ s ≠ 0 ∧ s < c
  | .commitIntentsBatch t s c keys => keys.isEmpty = false ∧ t ≠ 0 ∧ s ≠ 0 ∧ s < c
  | .rollbackIntent t s _ => t ≠ 0 ∧ s ≠ 0
  | .rollbackIntentsBatch t s keys => keys.isEmpty = false ∧ t ≠ 0 ∧ s ≠ 0

/-- The operation prepares a delta for each of the elements, and then applies the deltas. -/
def Publishes {γ δ : Type} (op : MvccOp) (l : List γ)
    (prepare : InMemoryMvcc → γ → Except Error (Option δ))
    (apply : InMemoryMvcc → δ → InMemoryMvcc) : Prop :=
  ∀ st st', op.exec.run st = .ok () st' ↔
    op.ArgsOk ∧ ∃ ds, l.filterMapM (prepare st) = .ok ds ∧ st' = ds.foldl apply st

/-- Every named row can answer.  A batch commit is also all new or all a replay. -/
def Acceptable (st : InMemoryMvcc) (op : MvccOp) : Prop :=
  (∀ k call, op.call k = some call →
      CanonicalKey k ∧ ∃ c', (st.cell k).Answers call c') ∧
    ∀ t s c ms, op = .commitBatch t s c ms →
      (∀ k call, op.call k = some call → (st.cell k).Replay call) ∨
        ∀ k call, op.call k = some call → ∃ c', (st.cell k).Step call c'

variable {st st' : InMemoryMvcc} {op : MvccOp} {u : Unit}

/-- The effect of a successful operation, row by row. -/
structure Answered (st : InMemoryMvcc) (op : MvccOp) (st' : InMemoryMvcc) : Prop where
  args : op.ArgsOk
  answers : ∀ {k call}, op.call k = some call →
    CanonicalKey k ∧ (st.cell k).Answers call (st'.cell k)
  frame : ∀ {k}, op.call k = none → st'.cell k = st.cell k
  noEmpty : st'.NoEmpty

theorem nodup_keySet (keys : KeySet) : keys.toList.Nodup := by
  refine keys.distinct_toList.imp ?_
  intro a b hab heq
  exact hab (by simp [heq])

theorem mutations_call (hc : ms[k]?.map f = some c) : ∃ e ∈ ms.toList, e.1 = k ∧ f e.2 = c := by
  obtain ⟨m, hm, rfl⟩ := Option.map_eq_some_iff.mp hc
  exact ⟨(k, m), ExtTreeMap.mem_toList_iff_getElem?_eq_some.mpr hm, rfl, rfl⟩

theorem mutations_call_of_mem (f : Mutation → Cell.Call) {e : Bytes × Mutation}
    (he : e ∈ ms.toList) : ms[e.1]?.map f = some (f e.2) := by
  rw [ExtTreeMap.mem_toList_iff_getElem?_eq_some.mp he, Option.map_some]

theorem mutations_call_none (hc : ms[k]?.map f = none) : ∀ e ∈ ms.toList, e.1 ≠ k := by
  rintro e he rfl
  rw [mutations_call_of_mem f he] at hc
  cases hc

theorem keySet_call {c' : Cell.Call} (hc : (if k ∈ keys then some c else none) = some c') :
    ∃ a ∈ keys.toList, id a = k ∧ c = c' := by
  obtain ⟨hk, hc⟩ := Option.ite_none_right_eq_some.mp hc
  exact ⟨k, ExtTreeSet.mem_toList.mpr hk, rfl, Option.some.inj hc⟩

theorem keySet_call_none
    (hc : (if k ∈ keys then some c else none) = none) : ∀ a ∈ keys.toList, id a ≠ k := by
  rintro a ha rfl
  exact Option.some_ne_none _ ((if_pos (ExtTreeSet.mem_toList.mp ha)).symm.trans hc)

theorem Answered.of_batch {γ : Type} {l : List γ} {place : γ → Bytes} {call : γ → Cell.Call}
    (hargs : op.ArgsOk) (hb : BatchAnswered st l place call st')
    (hcall : ∀ {k c}, op.call k = some c → ∃ a ∈ l, place a = k ∧ call a = c)
    (hnone : ∀ {k}, op.call k = none → ∀ a ∈ l, place a ≠ k) : Answered st op st' where
  args := hargs
  answers := by
    intro k c hc
    obtain ⟨a, ha, rfl, rfl⟩ := hcall hc
    exact hb.answers ha
  frame hk := hb.frame (hnone hk)
  noEmpty := hb.noEmpty

theorem commitBatch_exec_eq_ok {c : Timestamp} :
    (commitBatch t s c ms).exec.run st = .ok u st' ↔
      ∃ n, (InMemoryMvcc.commitBatch t s c ms).run st = .ok n st' := by
  simp only [exec, EStateM.run_bind, EStateM.run_pure]
  cases (InMemoryMvcc.commitBatch t s c ms).run st with
  | ok | error => simp

theorem publishes_prewrite : (prewrite t s k m pk ttl).Publishes [(k, m)]
    (fun st e => st.preparePrewrite t s e.1 e.2 pk ttl) applyPrewrite := by
  intro st st'
  simp only [exec, InMemoryMvcc.prewrite, run_eq_ok, publish_run,
    validateCommitPreflightMetadata_eq_ok, validateEncodedKeyArgument_eq_ok, eq_ok,
    filterMapM_singleton_eq_ok, exists_const, and_assoc, EStateM.Result.ok.injEq, true_and,
    eq_comm (a := st'), exists_exists_and_eq_and, ArgsOk]

theorem publishes_prewriteBatch : (prewriteBatch t s ms pk ttl).Publishes ms.toList
    (fun st e => st.preparePrewrite t s e.1 e.2 pk ttl) applyPrewrite := by
  intro st st'
  simp only [exec, InMemoryMvcc.prewriteBatch, run_eq_ok, EStateM.run_modify,
    validateCommitPreflightMetadata_eq_ok, validateEncodedKeyArgument_eq_ok, eq_ok, exists_const,
    and_assoc, Bool.not_eq_true, EStateM.Result.ok.injEq, true_and, eq_comm (a := st'), ArgsOk]

theorem publishes_commitIntent {c : Timestamp} : (commitIntent t s c k).Publishes [k]
    (fun st key => st.prepareIntentCommit t s c key) applyIntentCommit := by
  intro st st'
  simp only [exec, InMemoryMvcc.commitIntent, run_eq_ok, publish_run, validateCommitMetadata_eq_ok,
    filterMapM_singleton_eq_ok, exists_const, and_assoc, EStateM.Result.ok.injEq, true_and,
    eq_comm (a := st'), exists_exists_and_eq_and, ArgsOk]

theorem publishes_commitIntentsBatch {c : Timestamp} :
    (commitIntentsBatch t s c keys).Publishes keys.toList
      (fun st key => st.prepareIntentCommit t s c key) applyIntentCommit := by
  intro st st'
  simp only [exec, InMemoryMvcc.commitIntentsBatch, run_eq_ok, EStateM.run_modify,
    validateCommitMetadata_eq_ok, eq_ok, exists_const, and_assoc, Bool.not_eq_true,
    EStateM.Result.ok.injEq, true_and, eq_comm (a := st'), ArgsOk]

theorem publishes_rollbackIntent : (rollbackIntent t s k).Publishes [k]
    (fun st key => st.prepareIntentRollback t s key) (·.applyIntentRollback s ·) := by
  intro st st'
  simp only [exec, InMemoryMvcc.rollbackIntent, run_eq_ok, publish_run,
    validateCommitPreflightMetadata_eq_ok, filterMapM_singleton_eq_ok, exists_const, and_assoc,
    EStateM.Result.ok.injEq, true_and, eq_comm (a := st'), exists_exists_and_eq_and, ArgsOk]

theorem publishes_rollbackIntentsBatch : (rollbackIntentsBatch t s keys).Publishes keys.toList
    (fun st key => st.prepareIntentRollback t s key) (·.applyIntentRollback s ·) := by
  intro st st'
  simp only [exec, InMemoryMvcc.rollbackIntentsBatch, run_eq_ok, EStateM.run_modify,
    validateCommitPreflightMetadata_eq_ok, eq_ok, exists_const, and_assoc, Bool.not_eq_true,
    EStateM.Result.ok.injEq, true_and, eq_comm (a := st'), ArgsOk]

theorem Publishes.exec_of_prepared {γ δ : Type} {l : List γ}
    {prepare : InMemoryMvcc → γ → Except Error (Option δ)} {apply : InMemoryMvcc → δ → InMemoryMvcc}
    (hp : op.Publishes l prepare apply) (hargs : op.ArgsOk)
    (hl : ∀ a ∈ l, ∃ o, prepare st a = .ok o) : ∃ st', op.exec.run st = .ok () st' :=
  ⟨_, (hp st _).mpr ⟨hargs, _, filterMapM_eq_ok.mpr ⟨hl, rfl⟩, rfl⟩⟩

theorem answered_of_valid (hv : ∀ k t w, (st.cell k).write t = some w → w.ValidAt t)
    (hne : st.NoEmpty) (hx : op.exec.run st = .ok u st') : Answered st op st' := by
  cases op with
  | commitBatch =>
    obtain ⟨n, hx⟩ := commitBatch_exec_eq_ok.mp hx
    obtain ⟨ht, hs, hlt, -⟩ := commitBatch_run_eq_ok_direct.mp hx
    exact .of_batch ⟨ht, hs, hlt⟩ (commitBatch_answered hv hne hx)
      mutations_call mutations_call_none
  | prewrite t s key m =>
    obtain ⟨hargs, ds, hds, rfl⟩ := (publishes_prewrite _ _).mp hx
    refine .of_batch hargs (prewriteAll_answered hv hne hargs (by simp) hds) ?_ (by simp [call])
    intro k c hc
    exact ⟨(key, m), by simp, by simpa [call] using hc⟩
  | prewriteBatch t s ms =>
    obtain ⟨hargs, ds, hds, rfl⟩ := (publishes_prewriteBatch _ _).mp hx
    exact .of_batch hargs (prewriteAll_answered hv hne hargs.2 (nodup_keys ms) hds)
      mutations_call mutations_call_none
  | commitIntent t s c key =>
    obtain ⟨hargs, ds, hds, rfl⟩ := (publishes_commitIntent _ _).mp hx
    refine .of_batch hargs (commitAll_answered hv hne hargs.2.2 (by simp) hds) ?_ (by simp [call])
    intro k c' hc
    exact ⟨key, by simp, by simpa [call] using hc⟩
  | commitIntentsBatch t s c keys =>
    obtain ⟨hargs, ds, hds, rfl⟩ := (publishes_commitIntentsBatch _ _).mp hx
    exact .of_batch hargs (commitAll_answered hv hne hargs.2.2.2 (nodup_keySet keys) hds)
      keySet_call keySet_call_none
  | rollbackIntent t s key =>
    obtain ⟨hargs, ds, hds, rfl⟩ := (publishes_rollbackIntent _ _).mp hx
    refine .of_batch hargs (rollbackAll_answered hv hne hargs.2 (by simp) hds) ?_ (by simp [call])
    intro k c hc
    exact ⟨key, by simp, by simpa [call] using hc⟩
  | rollbackIntentsBatch t s keys =>
    obtain ⟨hargs, ds, hds, rfl⟩ := (publishes_rollbackIntentsBatch _ _).mp hx
    exact .of_batch hargs (rollbackAll_answered hv hne hargs.2.2 (nodup_keySet keys) hds)
      keySet_call keySet_call_none

theorem answered_of_exec (h : ∀ k, (st.cell k).Inv) (hne : st.NoEmpty)
    (hx : op.exec.run st = .ok u st') : Answered st op st' :=
  answered_of_valid (fun k _ _ => (h k).write_valid) hne hx

/-- An operation whose arguments are in order and whose rows can all answer succeeds. -/
theorem exec_of_acceptable (h : ∀ k, (st.cell k).Inv) (hargs : op.ArgsOk)
    (hrows : op.Acceptable st) : ∃ st', op.exec.run st = .ok () st' := by
  have hanswer := fun {k c} => hrows.1 k c
  cases op with
  | commitBatch t s c ms =>
    obtain ⟨ht, hs, hlt⟩ := hargs
    have hcall : ∀ e ∈ ms.toList,
        call e.1 (.commitBatch t s c ms) = some (.direct t s c e.2) :=
      fun e he => mutations_call_of_mem _ he
    suffices hrun : ∃ st', (InMemoryMvcc.commitBatch t s c ms).run st = .ok ms.size st' by
      obtain ⟨st', hrun⟩ := hrun
      exact ⟨st', commitBatch_exec_eq_ok.mpr ⟨_, hrun⟩⟩
    rcases hrows.2 t s c ms rfl with hreplay | hstep
    · refine ⟨st, commitBatch_run_eq_ok_direct.mpr ⟨ht, hs, hlt, rfl, .inl ⟨rfl, fun e he => ?_⟩⟩⟩
      exact prepareDirect_of_replay (h e.1) (hanswer (hcall e he)).1 (hreplay _ _ (hcall e he))
    · refine ⟨_, commitBatch_run_eq_ok_direct.mpr ⟨ht, hs, hlt, rfl, .inr ⟨rfl, fun e he => ?_⟩⟩⟩
      exact (prepareDirect_eq_some (fun _ _ => (h e.1).write_valid) hs hlt).mpr
        ⟨(hanswer (hcall e he)).1, hstep _ _ (hcall e he)⟩
  | prewrite t s key =>
    refine publishes_prewrite.exec_of_prepared hargs (List.forall_mem_singleton.mpr ?_)
    obtain ⟨hk, c', hc'⟩ := hanswer (if_pos rfl)
    exact preparePrewrite_of_answers (h key) hk hc'
  | prewriteBatch =>
    refine publishes_prewriteBatch.exec_of_prepared hargs fun e he => ?_
    obtain ⟨hk, c', hc'⟩ := hanswer (mutations_call_of_mem _ he)
    exact preparePrewrite_of_answers (h e.1) hk hc'
  | commitIntent t s c key =>
    refine publishes_commitIntent.exec_of_prepared hargs (List.forall_mem_singleton.mpr ?_)
    obtain ⟨hk, c', hc'⟩ := hanswer (if_pos rfl)
    exact prepareIntentCommit_of_answers (h key) hk hc'
  | commitIntentsBatch =>
    refine publishes_commitIntentsBatch.exec_of_prepared hargs fun key hkey => ?_
    obtain ⟨hk, c', hc'⟩ := hanswer (if_pos (ExtTreeSet.mem_toList.mp hkey))
    exact prepareIntentCommit_of_answers (h key) hk hc'
  | rollbackIntent t s key =>
    refine publishes_rollbackIntent.exec_of_prepared hargs (List.forall_mem_singleton.mpr ?_)
    obtain ⟨hk, c', hc'⟩ := hanswer (if_pos rfl)
    exact prepareIntentRollback_of_answers (h key) hk hc'
  | rollbackIntentsBatch =>
    refine publishes_rollbackIntentsBatch.exec_of_prepared hargs fun key hkey => ?_
    obtain ⟨hk, c', hc'⟩ := hanswer (if_pos (ExtTreeSet.mem_toList.mp hkey))
    exact prepareIntentRollback_of_answers (h key) hk hc'

theorem atomic_commitBatch {c : Timestamp} : Atomic (InMemoryMvcc.commitBatch t s c ms) := by
  refine .lift_bind fun _ => .get_bind fun self => .lift_bind fun _ => ?_
  split
  · exact .pure _
  · refine .lift_bind fun replayed => ?_
    split
    · exact .pure _
    · exact .lift_bind fun _ => .lift_bind fun _ => .modify_bind _ _

theorem exec_error (op : MvccOp) : Atomic op.exec := by
  cases op with
  | commitBatch => exact .bind_pure atomic_commitBatch _
  | prewrite =>
    exact .lift_bind fun _ => .lift_bind fun _ => .lift_bind fun _ => .get_bind fun _ =>
      .lift_bind fun _ => .publish _ _
  | prewriteBatch =>
    exact .lift_bind fun _ => .lift_bind fun _ => .lift_bind fun _ => .lift_bind fun _ =>
      .get_bind fun _ => .lift_bind fun _ => .modify _
  | commitIntent t s c key | rollbackIntent t s key =>
    exact .lift_bind fun _ => .get_bind fun _ => .lift_bind fun _ => .publish _ _
  | commitIntentsBatch t s c keys | rollbackIntentsBatch t s keys =>
    exact .lift_bind fun _ => .lift_bind fun _ => .get_bind fun _ => .lift_bind fun _ =>
      .modify _

end MvccOp

end RagnorDb
