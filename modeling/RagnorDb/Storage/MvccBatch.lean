import RagnorDb.Lib.KeyedBatch
import RagnorDb.Storage.MvccHeldLock
import RagnorDb.Storage.MvccSnapshot

/-!
# Batches and single-key operations

Each check of `mvcc.rs` reads the three maps at one key, and each delta changes them at that key, in
every state of the maps.  So a batch that is accepted does what its single-key operations do in any
order, and finds itself in place when it is made again.
-/

namespace RagnorDb

open Std Checked OrderedMap VersionMap

namespace InMemoryMvcc

/-- The entries of the three maps for one key. -/
structure Slot where
  default : Option (ExtTreeMap Timestamp Bytes compare)
  lock : Option LockRecord
  writes : Option (ExtTreeMap Timestamp WriteRecord compare)

def slot (self : InMemoryMvcc) (k : Bytes) : Slot where
  default := self.default[k]?
  lock := self.locks[k]?
  writes := self.writes[k]?

theorem ext_slot {self self' : InMemoryMvcc} (h : ∀ k, self.slot k = self'.slot k) :
    self = self' := by
  obtain ⟨default, locks, writes⟩ := self
  simp only [slot, Slot.mk.injEq, forall_and] at h
  obtain ⟨hdefault, hlocks, hwrites⟩ := h
  obtain rfl := ExtTreeMap.ext_getElem? hdefault
  obtain rfl := ExtTreeMap.ext_getElem? hlocks
  obtain rfl := ExtTreeMap.ext_getElem? hwrites
  rfl

/-! ## Every check reads one key -/

section Congr

variable {self self' : InMemoryMvcc} {k : Bytes} {txnId : TxnId} {startTs commitTs : Timestamp}
  {mutation : Mutation} (h : self.slot k = self'.slot k)
include h

theorem lookup_default_congr : self.default.lookup k = self'.default.lookup k := by
  funext t
  have hdefault : self.default[k]? = self'.default[k]? := congrArg Slot.default h
  rw [lookup, lookup, hdefault]

theorem locks_congr : self.locks[k]? = self'.locks[k]? :=
  congrArg Slot.lock h

theorem writes_congr : self.writes[k]? = self'.writes[k]? :=
  congrArg Slot.writes h

theorem lookup_writes_congr : self.writes.lookup k = self'.writes.lookup k := by
  funext t
  rw [lookup, lookup, writes_congr h]

theorem validateMutation_congr :
    self.validateMutation k mutation startTs = self'.validateMutation k mutation startTs := by
  unfold validateMutation
  rw [lookup_default_congr h]

theorem validateWriteHistory_congr :
    self.validateWriteHistory k startTs = self'.validateWriteHistory k startTs := by
  unfold validateWriteHistory
  rw [writes_congr h]

theorem forEachWrite_congr (check : Timestamp → WriteRecord → Except Error Unit) :
    self.forEachWrite k check = self'.forEachWrite k check := by
  unfold forEachWrite
  rw [writes_congr h]

theorem validateCommitTimestamp_congr :
    self.validateCommitTimestamp k commitTs = self'.validateCommitTimestamp k commitTs := by
  unfold validateCommitTimestamp
  rw [writes_congr h]

theorem preparePrewrite_congr {primaryKey : Bytes} {ttlMs : Nat} :
    self.preparePrewrite txnId startTs k mutation primaryKey ttlMs =
      self'.preparePrewrite txnId startTs k mutation primaryKey ttlMs := by
  unfold preparePrewrite
  rw [validateMutation_congr h, validateWriteHistory_congr h, lookup_default_congr h,
    locks_congr h]

theorem prepareIntentCommit_congr :
    self.prepareIntentCommit txnId startTs commitTs k =
      self'.prepareIntentCommit txnId startTs commitTs k := by
  unfold prepareIntentCommit
  simp only [validateWriteHistory_congr h, lookup_default_congr h, locks_congr h,
    lookup_writes_congr h, forEachWrite_congr h, validateCommitTimestamp_congr h]

theorem prepareIntentRollback_congr :
    self.prepareIntentRollback txnId startTs k = self'.prepareIntentRollback txnId startTs k := by
  unfold prepareIntentRollback
  simp only [lookup_default_congr h, locks_congr h, lookup_writes_congr h, forEachWrite_congr h]

theorem isExactlyApplied_congr :
    self.isExactlyApplied k mutation startTs commitTs =
      self'.isExactlyApplied k mutation startTs commitTs := by
  unfold isExactlyApplied
  rw [lookup_writes_congr h, lookup_default_congr h]

theorem validateLock_congr :
    self.validateLock k mutation txnId startTs = self'.validateLock k mutation txnId startTs := by
  unfold validateLock
  rw [locks_congr h]

end Congr

/-! ## Prepared deltas are for the key that they were prepared for -/

section Key

variable {self : InMemoryMvcc} {k : Bytes} {txnId : TxnId} {startTs commitTs : Timestamp}
  {mutation : Mutation}

theorem key_of_preparePrewrite {primaryKey : Bytes} {ttlMs : Nat} {d : PreparedPrewrite}
    (h : self.preparePrewrite txnId startTs k mutation primaryKey ttlMs = .ok (some d)) :
    d.key = k := by
  simp only [preparePrewrite, eq_ok] at h
  obtain ⟨_, _, _, _, h⟩ := h
  split at h
  · simp at h
  · simp only [eq_ok, eq_some] at h
    obtain ⟨_, _, rfl⟩ := h
    rfl

theorem key_of_prepareIntentCommit {d : PreparedIntentCommit}
    (h : self.prepareIntentCommit txnId startTs commitTs k = .ok (some d)) : d.key = k := by
  simp only [prepareIntentCommit, eq_ok] at h
  obtain ⟨_, _, h⟩ := h
  split at h
  · simp at h
  · simp only [eq_ok, eq_some] at h
    obtain ⟨_, _, _, _, _, _, _, _, _, _, rfl⟩ := h
    rfl

theorem key_of_prepareIntentRollback {d : PreparedIntentRollback}
    (h : self.prepareIntentRollback txnId startTs k = .ok (some d)) : d.key = k := by
  simp only [prepareIntentRollback, eq_ok] at h
  obtain ⟨_, _, _, _, h⟩ := h
  split at h
  · simp at h
  · simp only [eq_ok, eq_some] at h
    obtain ⟨_, _, _, _, rfl⟩ := h
    rfl

end Key

/-! ## Every delta changes one key, and the four batches work key by key -/

section Keywise

variable (txnId : TxnId) (startTs commitTs : Timestamp)

theorem keywise_prewrite (primaryKey : Bytes) (ttlMs : Nat) :
    Keywise slot Prod.fst PreparedPrewrite.key
      (fun st e => st.preparePrewrite txnId startTs e.1 e.2 primaryKey ttlMs) applyPrewrite where
  ext := ext_slot
  prepare_congr h := preparePrewrite_congr h
  key_eq := key_of_preparePrewrite
  frame {_ d _} h := by
    unfold slot applyPrewrite
    cases d.defaultValue <;> simp [h, getElem?_insertVersion, getElem?_insert]
  apply_congr {_ _ d} h := by
    rw [slot, slot, Slot.mk.injEq] at h
    unfold slot applyPrewrite
    cases d.defaultValue <;> simp [h, getElem?_insertVersion]

theorem keywise_commitIntent :
    Keywise slot id PreparedIntentCommit.key
      (fun st key => st.prepareIntentCommit txnId startTs commitTs key) applyIntentCommit where
  ext := ext_slot
  prepare_congr := prepareIntentCommit_congr
  key_eq := key_of_prepareIntentCommit
  frame h := by simp [slot, applyIntentCommit, h, getElem?_insertVersion, getElem?_erase]
  apply_congr h := by
    rw [slot, slot, Slot.mk.injEq] at h
    simp [slot, applyIntentCommit, h, getElem?_insertVersion]

theorem keywise_rollbackIntent :
    Keywise slot id PreparedIntentRollback.key
      (fun st key => st.prepareIntentRollback txnId startTs key)
      (fun st d => st.applyIntentRollback startTs d) where
  ext := ext_slot
  prepare_congr := prepareIntentRollback_congr
  key_eq := key_of_prepareIntentRollback
  frame {_ d _} h := by
    unfold slot applyIntentRollback
    cases d.removeDefaultValue <;>
      simp [h, getElem?_insertVersion, getElem?_eraseVersion, getElem?_erase]
  apply_congr {_ _ d} h := by
    rw [slot, slot, Slot.mk.injEq] at h
    unfold slot applyIntentRollback
    cases d.removeDefaultValue <;> simp [h, getElem?_insertVersion, getElem?_eraseVersion]

theorem keywise_direct :
    Keywise slot Prod.fst Prod.fst (fun st e => st.prepareDirect txnId startTs commitTs e)
      (fun st e => st.applyCommitBatchKey txnId startTs commitTs e) where
  ext := ext_slot
  prepare_congr h := by
    unfold prepareDirect
    simp only [validateMutation_congr h, isExactlyApplied_congr h, validateLock_congr h,
      validateWriteHistory_congr h, validateCommitTimestamp_congr h]
  key_eq h := by
    obtain ⟨-, ⟨hnone, -⟩ | ⟨hsome, -⟩⟩ := prepareDirect_eq_ok.mp h
    · cases hnone
    · cases hsome
      rfl
  frame {_ e _} h := by
    obtain ⟨key, mutation⟩ := e
    unfold slot applyCommitBatchKey
    cases mutation <;> dsimp only <;> split <;>
      simp [h, getElem?_insertVersion, getElem?_erase]
  apply_congr {_ _ e} h := by
    obtain ⟨key, mutation⟩ := e
    rw [slot, slot, Slot.mk.injEq] at h
    unfold slot applyCommitBatchKey
    rw [h.2.1]
    cases mutation <;> dsimp only <;> split <;> simp [h, getElem?_insertVersion]

end Keywise

/-! ## Stored records are valid -/

/-- Every write record fits the timestamp that it is stored under. -/
def RecordsValid (st : InMemoryMvcc) : Prop :=
  ∀ k t w, (st.cell k).write t = some w → w.ValidAt t

theorem RecordsValid.foldl {δ : Type} {apply : InMemoryMvcc → δ → InMemoryMvcc} {ds : List δ}
    {st : InMemoryMvcc} (h : st.RecordsValid)
    (happly : ∀ d ∈ ds, ∀ st : InMemoryMvcc, st.RecordsValid → (apply st d).RecordsValid) :
    (ds.foldl apply st).RecordsValid := by
  induction ds generalizing st with
  | nil => exact h
  | cons d ds ih =>
    obtain ⟨hd, hds⟩ := List.forall_mem_cons.mp happly
    exact ih (hd st h) hds

theorem RecordsValid.of_update {st st' : InMemoryMvcc} (h : st.RecordsValid) (key : Bytes)
    {ts : Timestamp} {record : WriteRecord} (hrecord : record.ValidAt ts)
    (hcell : ∀ k, (st'.cell k).write =
      if key = k then Function.update (st.cell k).write ts (some record) else (st.cell k).write) :
    st'.RecordsValid := by
  intro k t w hw
  rw [hcell] at hw
  split at hw
  · rcases Cell.write_cases_of_update hw with ⟨rfl, rfl⟩ | hold
    · exact hrecord
    · exact h k t w hold
  · exact h k t w hw

variable {st st' : InMemoryMvcc} {k : Bytes} {txnId : TxnId} {startTs commitTs : Timestamp}
  {mutation : Mutation}

theorem validAt_committed {op : WriteKind} (hs : startTs ≠ 0) (hlt : startTs < commitTs)
    (hop : op ≠ .rollback) : WriteRecord.ValidAt ⟨startTs, commitTs, op⟩ commitTs :=
  ⟨rfl, hs, fun h => absurd h hop, fun _ => hlt⟩

theorem validAt_marker (hs : startTs ≠ 0) :
    WriteRecord.ValidAt ⟨startTs, startTs, .rollback⟩ startTs :=
  ⟨rfl, hs, fun _ => rfl, fun h => absurd rfl h⟩

section

variable (h : st.RecordsValid)
include h

theorem RecordsValid.applyPrewrite (d : PreparedPrewrite) : (st.applyPrewrite d).RecordsValid := by
  intro k t w hw
  rw [cell_applyPrewrite] at hw
  split at hw <;> exact h k t w hw

theorem RecordsValid.applyIntentCommit {d : PreparedIntentCommit}
    (hd : d.write.ValidAt d.write.commitTimestamp) : (st.applyIntentCommit d).RecordsValid := by
  refine h.of_update d.key hd fun k => ?_
  rw [cell_applyIntentCommit]
  split <;> rfl

theorem RecordsValid.applyIntentRollback (hs : startTs ≠ 0) (d : PreparedIntentRollback) :
    (st.applyIntentRollback startTs d).RecordsValid := by
  refine h.of_update d.key (validAt_marker hs) fun k => ?_
  rw [cell_applyIntentRollback]
  split <;> rfl

theorem RecordsValid.applyCommitBatchKey (hs : startTs ≠ 0) (hlt : startTs < commitTs)
    (e : Bytes × Mutation) : (st.applyCommitBatchKey txnId startTs commitTs e).RecordsValid := by
  refine h.of_update e.1 (validAt_committed hs hlt e.2.writeKind_ne_rollback) fun k => ?_
  rw [cell_applyCommitBatchKey]
  split <;> rfl

end

/-! ## A delta that is in place is not prepared again -/

section

variable (h : st.RecordsValid)
include h

theorem preparePrewrite_again {primaryKey : Bytes} {ttlMs : Nat} {o : Option PreparedPrewrite}
    (ho : st.preparePrewrite txnId startTs k mutation primaryKey ttlMs = .ok o) :
    (o.toList.foldl applyPrewrite st).preparePrewrite txnId startTs k mutation primaryKey ttlMs =
      .ok none := by
  obtain ⟨hk, hrow, hhistory, ⟨rfl, -⟩ | ⟨rfl, hvalue, hlock⟩⟩ :=
    (preparePrewrite_eq_ok (h k)).mp ho
  · exact ho
  · let d : PreparedPrewrite :=
      ⟨k, mutation.row?, prewriteLock txnId startTs mutation primaryKey ttlMs⟩
    have hcell : (st.applyPrewrite d).cell k = (st.cell k).applyPrewrite d := by
      rw [cell_applyPrewrite, if_pos rfl]
    refine (preparePrewrite_eq_ok (h.applyPrewrite d k)).mpr ⟨hk, hrow, ?_, .inl ⟨rfl, ?_, ?_⟩⟩
    · exact ⟨hhistory.no_marker, hhistory.no_newer⟩
    · rw [hcell]
      cases mutation with
      | put => exact Function.update_self ..
      | delete => exact hvalue
    · rw [hcell]
      rfl

theorem prepareIntentCommit_again {o : Option PreparedIntentCommit} (hs : startTs ≠ 0)
    (hlt : startTs < commitTs) (ho : st.prepareIntentCommit txnId startTs commitTs k = .ok o) :
    (o.toList.foldl applyIntentCommit st).prepareIntentCommit txnId startTs commitTs k =
      .ok none := by
  obtain ⟨hk, ⟨rfl, -⟩ | ⟨hvacant, l, rfl, hlock, -, -, hpayload, hhistory, -⟩⟩ :=
    (prepareIntentCommit_eq_ok (h k)).mp ho
  · exact ho
  · let d : PreparedIntentCommit := ⟨k, startTs, commitTs, l.op⟩
    have hvalid : d.write.ValidAt commitTs := validAt_committed hs hlt hpayload.ne_rollback
    have hcell : (st.applyIntentCommit d).cell k = (st.cell k).applyIntentCommit d := by
      rw [cell_applyIntentCommit, if_pos rfl]
    refine (prepareIntentCommit_eq_ok (h.applyIntentCommit hvalid k)).mpr
      ⟨hk, .inl ⟨rfl, d.write, ?_⟩⟩
    rw [hcell]
    refine ⟨Function.update_self .., rfl, ?_, ?_, hpayload⟩
    · intro t w hw hstart
      rcases Cell.write_cases_of_update hw with ⟨rfl, -⟩ | hold
      · rfl
      · exact absurd hstart (hhistory.undecided_of_valid (h k t w hold) hold)
    · rintro l ⟨⟩

theorem prepareIntentRollback_again {o : Option PreparedIntentRollback} (hs : startTs ≠ 0)
    (ho : st.prepareIntentRollback txnId startTs k = .ok o) :
    (o.toList.foldl (fun st d => st.applyIntentRollback startTs d) st).prepareIntentRollback
      txnId startTs k = .ok none := by
  obtain ⟨hk, hundecided, ⟨rfl, -⟩ | ⟨rfl, hvacant, -, hpayload, hunlocked⟩⟩ :=
    (prepareIntentRollback_eq_ok (h k)).mp ho
  · exact ho
  · let d : PreparedIntentRollback := ⟨k, (st.cell k).lock.any fun l => l.op = .put⟩
    have hcell : (st.applyIntentRollback startTs d).cell k =
        (st.cell k).applyIntentRollback startTs d := by
      rw [cell_applyIntentRollback, if_pos rfl]
    refine (prepareIntentRollback_eq_ok (h.applyIntentRollback hs d k)).mpr
      ⟨hk, ?_, .inl ⟨rfl, ?_, ?_, ?_⟩⟩
    all_goals rw [hcell]
    · intro t w hw hstart
      rcases Cell.write_cases_of_update hw with ⟨-, rfl⟩ | hold
      · rfl
      · exact hundecided t w hold hstart
    · exact ⟨_, Function.update_self .., rfl, rfl⟩
    · rintro l ⟨⟩
    · -- The row goes with a Put lock; without one there was none.
      simp only [Cell.applyIntentRollback]
      split
      · exact Function.update_self ..
      · next hput => exact Cell.value_eq_none_of_not_put hpayload hunlocked hput

theorem prepareDirect_again {e : Bytes × Mutation} {o : Option (Bytes × Mutation)}
    (hs : startTs ≠ 0) (hlt : startTs < commitTs)
    (ho : st.prepareDirect txnId startTs commitTs e = .ok o) :
    (o.toList.foldl (fun st e => st.applyCommitBatchKey txnId startTs commitTs e) st).prepareDirect
      txnId startTs commitTs e = .ok none := by
  obtain ⟨hmutation, ⟨rfl, -⟩ | ⟨rfl, -⟩⟩ := prepareDirect_eq_ok.mp ho
  · exact ho
  · obtain ⟨hk, hrow, hvalue⟩ := validateMutation_eq_ok.mp hmutation
    have hcell : (st.applyCommitBatchKey txnId startTs commitTs e).cell e.1 =
        (st.cell e.1).applyCommitBatchKey txnId startTs commitTs e.2 := by
      rw [cell_applyCommitBatchKey, if_pos rfl]
    have hstored : ((st.cell e.1).applyCommitBatchKey txnId startTs commitTs e.2).value startTs =
        e.2.row? := by
      unfold Cell.applyCommitBatchKey
      cases hm : e.2 with
      | put => exact Function.update_self ..
      | delete =>
        rw [hm] at hvalue
        cases hv : (st.cell e.1).value startTs with
        | none => rfl
        | some row => cases hvalue row hv
    change (st.applyCommitBatchKey txnId startTs commitTs e).prepareDirect txnId startTs
      commitTs e = .ok none
    refine prepareDirect_eq_ok.mpr ⟨validateMutation_eq_ok.mpr ⟨hk, hrow, ?_⟩, .inl ⟨rfl, ?_⟩⟩
    · intro row hrow
      rw [hcell, hstored] at hrow
      exact hrow
    · refine (isExactlyApplied_eq_ok (h.applyCommitBatchKey hs hlt e e.1)).mpr (.inr ⟨rfl, ?_⟩)
      rw [hcell]
      exact ⟨Function.update_self .., fun row hrow => hstored.trans hrow⟩

end

end InMemoryMvcc

/-! ## Operations -/

namespace MvccOp

open InMemoryMvcc

variable {t : TxnId} {s c : Timestamp} {op : MvccOp} {ops : List MvccOp}

/-- The single-key operations of a batch, in some order.  The single-key operation of a batch
commit is the commit of one mutation. -/
inductive KeyByKey : MvccOp → List MvccOp → Prop
  | prewrite {t : TxnId} {s : Timestamp} {ms : Mutations} {pk : Bytes} {ttl : Nat}
      {l : List (Bytes × Mutation)} (order : l.Perm ms.toList) :
      KeyByKey (.prewriteBatch t s ms pk ttl) (l.map fun e => .prewrite t s e.1 e.2 pk ttl)
  | commitIntent {t : TxnId} {s c : Timestamp} {keys : KeySet} {l : List Bytes}
      (order : l.Perm keys.toList) :
      KeyByKey (.commitIntentsBatch t s c keys) (l.map fun key => .commitIntent t s c key)
  | rollbackIntent {t : TxnId} {s : Timestamp} {keys : KeySet} {l : List Bytes}
      (order : l.Perm keys.toList) :
      KeyByKey (.rollbackIntentsBatch t s keys) (l.map fun key => .rollbackIntent t s key)
  | commit {t : TxnId} {s c : Timestamp} {ms : Mutations} {l : List (Bytes × Mutation)}
      (order : l.Perm ms.toList) :
      KeyByKey (.commitBatch t s c ms)
        (l.map fun e => .commitBatch t s c ((∅ : Mutations).insert e.1 e.2))

/-- Operations one after another, up to the first that fails. -/
def execAll (ops : List MvccOp) : MvccM Unit :=
  ops.forM exec

variable {st st' : InMemoryMvcc}

theorem execAll_of_foldlM {γ δ : Type} {prepare : InMemoryMvcc → γ → Except Error (Option δ)}
    {apply : InMemoryMvcc → δ → InMemoryMvcc} {single : γ → MvccOp}
    (hsingle : ∀ st a o, prepare st a = .ok o →
      (single a).exec.run st = .ok () (o.toList.foldl apply st))
    {l : List γ} (h : l.foldlM (Keywise.one prepare apply) st = .ok st') :
    (execAll (l.map single)).run st = .ok () st' := by
  induction l generalizing st with
  | nil =>
    cases h
    rfl
  | cons a l ih =>
    simp only [List.foldlM_cons, eq_ok, Keywise.one] at h
    obtain ⟨_, ⟨o, ho, rfl⟩, hrest⟩ := h
    have hstep := hsingle st a o ho
    have hrest := ih hrest
    change ((single a).exec >>= fun _ => execAll (l.map single)).run st = _
    rw [EStateM.run_bind, hstep]
    exact hrest

theorem Publishes.exec_single {γ δ : Type} {prepare : InMemoryMvcc → γ → Except Error (Option δ)}
    {apply : InMemoryMvcc → δ → InMemoryMvcc} {a : γ} {o : Option δ}
    (hp : op.Publishes [a] prepare apply) (hargs : op.ArgsOk) (ho : prepare st a = .ok o) :
    op.exec.run st = .ok () (o.toList.foldl apply st) :=
  (hp st _).mpr ⟨hargs, _, filterMapM_singleton_eq_ok.mpr ⟨o, ho, rfl⟩, rfl⟩

theorem toList_singleton (e : Bytes × Mutation) :
    ((∅ : Mutations).insert e.1 e.2).toList = [e] := by
  refine List.perm_singleton.mp ?_
  refine (List.perm_ext_iff_of_nodup ?_ (List.nodup_singleton e)).mpr fun e' => ?_
  · exact (nodup_keys _).of_map
  · rw [ExtTreeMap.mem_toList_iff_getElem?_eq_some, getElem?_insert, List.mem_singleton]
    by_cases h : e.1 = e'.1
    · simp [h, Prod.ext_iff, eq_comm]
    · simp [h, Prod.ext_iff, eq_comm]

theorem deltas_of_commitBatch {ms : Mutations}
    (hx : (commitBatch t s c ms).exec.run st = .ok () st') :
    (t ≠ 0 ∧ s ≠ 0 ∧ s < c) ∧ ∃ ds,
      ms.toList.filterMapM (fun e => st.prepareDirect t s c e) = .ok ds ∧
        st' = ds.foldl (fun st e => st.applyCommitBatchKey t s c e) st := by
  obtain ⟨n, hx⟩ := commitBatch_exec_eq_ok.mp hx
  obtain ⟨ht, hs, hlt, -, ⟨rfl, hnone⟩ | ⟨rfl, hsome⟩⟩ := commitBatch_run_eq_ok_direct.mp hx
  · refine ⟨⟨ht, hs, hlt⟩, [], filterMapM_eq_ok.mpr ⟨fun e he => ⟨_, hnone e he⟩, Eq.symm ?_⟩, rfl⟩
    refine List.filterMap_eq_nil_iff.mpr fun e he => ?_
    rw [hnone e he]
    rfl
  · refine ⟨⟨ht, hs, hlt⟩, ms.toList,
      filterMapM_eq_ok.mpr ⟨fun e he => ⟨_, hsome e he⟩, Eq.symm ?_⟩, rfl⟩
    refine (List.filterMap_congr fun e he => ?_).trans List.filterMap_some
    rw [hsome e he]
    rfl

theorem commitBatch_single {e : Bytes × Mutation} {o : Option (Bytes × Mutation)}
    (hargs : t ≠ 0 ∧ s ≠ 0 ∧ s < c) (ho : st.prepareDirect t s c e = .ok o) :
    (commitBatch t s c ((∅ : Mutations).insert e.1 e.2)).exec.run st =
      .ok () (o.toList.foldl (fun st e => st.applyCommitBatchKey t s c e) st) := by
  obtain ⟨ht, hs, hlt⟩ := hargs
  refine commitBatch_exec_eq_ok.mpr
    ⟨_, commitBatch_run_eq_ok_direct.mpr ⟨ht, hs, hlt, rfl, ?_⟩⟩
  rw [toList_singleton]
  obtain ⟨-, ⟨rfl, -⟩ | ⟨rfl, -⟩⟩ := prepareDirect_eq_ok.mp ho
  · exact .inl ⟨rfl, by simpa using ho⟩
  · exact .inr ⟨rfl, by simpa using ho⟩

/-- An accepted batch does what its single-key operations do, in any order. -/
theorem execAll_of_batch (h : op.KeyByKey ops)
    (hx : op.exec.run st = .ok () st') : (execAll ops).run st = .ok () st' := by
  cases h with
  | @prewrite t s ms pk ttl l order =>
    obtain ⟨hargs, ds, hds, rfl⟩ := (publishes_prewriteBatch _ _).mp hx
    exact execAll_of_foldlM (fun st e o ho => publishes_prewrite.exec_single hargs.2 ho)
      ((keywise_prewrite t s pk ttl).foldlM_one_of_perm (nodup_keys ms) hds order)
  | @commitIntent t s c keys l order =>
    obtain ⟨hargs, ds, hds, rfl⟩ := (publishes_commitIntentsBatch _ _).mp hx
    exact execAll_of_foldlM (fun st key o ho => publishes_commitIntent.exec_single hargs.2 ho)
      ((keywise_commitIntent t s c).foldlM_one_of_perm (by simpa using nodup_keySet keys) hds order)
  | @rollbackIntent t s keys l order =>
    obtain ⟨hargs, ds, hds, rfl⟩ := (publishes_rollbackIntentsBatch _ _).mp hx
    exact execAll_of_foldlM (fun st key o ho => publishes_rollbackIntent.exec_single hargs.2 ho)
      ((keywise_rollbackIntent t s).foldlM_one_of_perm (by simpa using nodup_keySet keys) hds order)
  | @commit t s c ms l order =>
    obtain ⟨hargs, ds, hds, rfl⟩ := deltas_of_commitBatch hx
    exact execAll_of_foldlM (fun st e o ho => commitBatch_single hargs ho)
      ((keywise_direct t s c).foldlM_one_of_perm (nodup_keys ms) hds order)

/-- An accepted batch that is made again succeeds and changes nothing. -/
theorem exec_again (h : op.KeyByKey ops) (hv : st.RecordsValid)
    (hx : op.exec.run st = .ok () st') : op.exec.run st' = .ok () st' := by
  cases h with
  | @prewrite t s ms pk ttl l order =>
    obtain ⟨hargs, ds, hds, rfl⟩ := (publishes_prewriteBatch _ _).mp hx
    exact (publishes_prewriteBatch _ _).mpr ⟨hargs, [],
      (keywise_prewrite t s pk ttl).filterMapM_again (nodup_keys ms)
        (fun e _ o ho => preparePrewrite_again hv ho) hds, rfl⟩
  | @commitIntent t s c keys l order =>
    obtain ⟨hargs, ds, hds, rfl⟩ := (publishes_commitIntentsBatch _ _).mp hx
    exact (publishes_commitIntentsBatch _ _).mpr ⟨hargs, [],
      (keywise_commitIntent t s c).filterMapM_again (by simpa using nodup_keySet keys)
        (fun key _ o ho => prepareIntentCommit_again hv hargs.2.2.1 hargs.2.2.2 ho) hds, rfl⟩
  | @rollbackIntent t s keys l order =>
    obtain ⟨hargs, ds, hds, rfl⟩ := (publishes_rollbackIntentsBatch _ _).mp hx
    exact (publishes_rollbackIntentsBatch _ _).mpr ⟨hargs, [],
      (keywise_rollbackIntent t s).filterMapM_again (by simpa using nodup_keySet keys)
        (fun key _ o ho => prepareIntentRollback_again hv hargs.2.2 ho) hds, rfl⟩
  | @commit t s c ms l order =>
    obtain ⟨⟨ht, hs, hlt⟩, ds, hds, rfl⟩ := deltas_of_commitBatch hx
    have hagain := (keywise_direct t s c).filterMapM_again (nodup_keys ms)
      (fun e _ o ho => prepareDirect_again hv hs hlt ho) hds
    refine commitBatch_exec_eq_ok.mpr
      ⟨_, commitBatch_run_eq_ok_direct.mpr ⟨ht, hs, hlt, rfl, .inl ⟨rfl, fun e he => ?_⟩⟩⟩
    obtain ⟨hok, hnil⟩ := filterMapM_eq_ok.mp hagain
    obtain ⟨o, ho⟩ := hok e he
    have hnone := List.filterMap_eq_nil_iff.mp hnil.symm e he
    rw [ho] at hnone
    rw [ho]
    exact congrArg _ hnone

end MvccOp

/-! ## Every state of a store -/

/-- The store, started empty or from snapshot entries that it has accepted, under any calls. -/
def mvccStore : Lts InMemoryMvcc MvccOp where
  init st := st = .new ∨ ∃ tableId defaultValues locks writes,
    InMemoryMvcc.restoreFromSnapshotEntries tableId defaultValues locks writes = .ok st
  step st op st' := op.after st = st'

namespace InMemoryMvcc

theorem recordsValid_new : new.RecordsValid := by
  intro k t w hw
  cases hw

/-- A snapshot is restored with the records that it has been checked for. -/
theorem recordsValid_of_restore {tableId : TableId}
    {defaultValues : List SnapshotProto.DefaultValueEntry} {locks : List SnapshotProto.LockEntry}
    {writes : List SnapshotProto.WriteEntry} {st : InMemoryMvcc}
    (h : restoreFromSnapshotEntries tableId defaultValues locks writes = .ok st) :
    st.RecordsValid :=
  fun k ts w hw => ((restored_of_fromSnapshotTable h).write k ts w hw).2

variable {st : InMemoryMvcc}

theorem RecordsValid.commitAll (h : st.RecordsValid) {t : TxnId} {s c : Timestamp} (hs : s ≠ 0)
    (hlt : s < c) {l : List Bytes} {ds : List PreparedIntentCommit}
    (hds : l.filterMapM (fun key => st.prepareIntentCommit t s c key) = .ok ds) :
    (ds.foldl InMemoryMvcc.applyIntentCommit st).RecordsValid := by
  refine h.foldl fun d hd st' h' => h'.applyIntentCommit ?_
  obtain ⟨hok, rfl⟩ := filterMapM_eq_ok.mp hds
  obtain ⟨key, hkey, hd⟩ := List.mem_filterMap.mp hd
  have hprepared := (Keywise.eq_ok_join (hok key hkey)).trans (congrArg _ hd)
  obtain ⟨-, ⟨hnone, -⟩ | ⟨-, l, hsome, -, -, -, hpayload, -⟩⟩ :=
    (prepareIntentCommit_eq_ok (h key)).mp hprepared
  · cases hnone
  · cases hsome
    exact validAt_committed hs hlt hpayload.ne_rollback

theorem RecordsValid.after (h : st.RecordsValid) (op : MvccOp) : (op.after st).RecordsValid := by
  unfold MvccOp.after Checked.after
  cases hx : op.exec.run st with
  | error e st' =>
    obtain rfl := MvccOp.exec_error op st e st' hx
    exact h
  | ok u st' =>
    cases op with
    | commitBatch =>
      obtain ⟨⟨-, hs, hlt⟩, ds, -, rfl⟩ := MvccOp.deltas_of_commitBatch hx
      exact h.foldl fun e _ st' h' => h'.applyCommitBatchKey hs hlt e
    | prewrite =>
      obtain ⟨-, ds, -, rfl⟩ := (MvccOp.publishes_prewrite _ _).mp hx
      exact h.foldl fun d _ st' h' => h'.applyPrewrite d
    | prewriteBatch =>
      obtain ⟨-, ds, -, rfl⟩ := (MvccOp.publishes_prewriteBatch _ _).mp hx
      exact h.foldl fun d _ st' h' => h'.applyPrewrite d
    | commitIntent =>
      obtain ⟨⟨-, hs, hlt⟩, ds, hds, rfl⟩ := (MvccOp.publishes_commitIntent _ _).mp hx
      exact h.commitAll hs hlt hds
    | commitIntentsBatch =>
      obtain ⟨⟨-, -, hs, hlt⟩, ds, hds, rfl⟩ := (MvccOp.publishes_commitIntentsBatch _ _).mp hx
      exact h.commitAll hs hlt hds
    | rollbackIntent =>
      obtain ⟨⟨-, hs⟩, ds, -, rfl⟩ := (MvccOp.publishes_rollbackIntent _ _).mp hx
      exact h.foldl fun d _ st' h' => h'.applyIntentRollback hs d
    | rollbackIntentsBatch =>
      obtain ⟨⟨-, -, hs⟩, ds, -, rfl⟩ := (MvccOp.publishes_rollbackIntentsBatch _ _).mp hx
      exact h.foldl fun d _ st' h' => h'.applyIntentRollback hs d

theorem recordsValid_of_reachable (h : mvccStore.Reachable st) : st.RecordsValid := by
  refine h.invariant ?_ ?_
  · rintro st (rfl | ⟨_, _, _, _, hrestore⟩)
    · exact recordsValid_new
    · exact recordsValid_of_restore hrestore
  · rintro st op st' - hvalid rfl
    exact hvalid.after op

end InMemoryMvcc

namespace MvccOp

open InMemoryMvcc

/-- Batches are atomic and agree with the single-key operations.  A batch that fails changes
nothing; one that succeeds does what its single-key operations do, in any order and without a
failure among them; and in every state of a store, making an accepted batch again succeeds and
changes nothing. -/
theorem batch_agrees_with_keys {op : MvccOp} {ops : List MvccOp} (h : op.KeyByKey ops)
    (st : InMemoryMvcc) :
    (∀ e st', op.exec.run st = .error e st' → st' = st) ∧
    (∀ st', op.exec.run st = .ok () st' → (execAll ops).run st = .ok () st') ∧
    (mvccStore.Reachable st →
      ∀ st', op.exec.run st = .ok () st' → op.exec.run st' = .ok () st') := by
  refine ⟨?_, ?_, ?_⟩
  · intro e st' hx
    exact exec_error op st e st' hx
  · intro st' hx
    exact execAll_of_batch h hx
  · intro hreach st' hx
    exact exec_again h (recordsValid_of_reachable hreach) hx

/-- The other key of a sample batch. -/
def otherKey : Bytes := [1, 0, 0, 0, 0, 0, 0, 0, 1, 0x30, 1]

theorem batch_agrees_with_keys_sample :
    let batch := prewriteBatch 5 5
      (((∅ : Mutations).insert sampleKey .delete).insert otherKey (.put sampleRow)) sampleKey 100
    let st := batch.after .new
    (execAll [.prewrite 5 5 otherKey (.put sampleRow) sampleKey 100,
        .prewrite 5 5 sampleKey .delete sampleKey 100]).run .new = .ok () st ∧
      batch.exec.run st = .ok () st := by
  intro batch st
  have horder : [(otherKey, .put sampleRow), (sampleKey, .delete)].Perm
      (((∅ : Mutations).insert sampleKey .delete).insert otherKey (.put sampleRow)).toList := by
    decide +kernel
  have hok : batch.exec.run .new = .ok () st := exec_of_succeeds (by decide +kernel)
  obtain ⟨-, hkeys, hagain⟩ := batch_agrees_with_keys (.prewrite (t := 5) (s := 5) horder) .new
  exact ⟨hkeys st hok, hagain (.of_init (.inl rfl)) st hok⟩

end MvccOp

end RagnorDb
