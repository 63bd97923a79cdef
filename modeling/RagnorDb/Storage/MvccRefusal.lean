import RagnorDb.Storage.MvccInvariant

/-!
# Refusals of the store

An operation fails in two ways: it refuses the call (an invalid argument, a write conflict),
or it reports that the stored data are corrupt.  A store that its operations have built is
never corrupt, yet the second kind of error can still be returned: a call that contradicts
what the row already holds at the call's own timestamps is reported as corruption.  `Clash`
is that contradiction, and every other call is answered or refused.
-/

namespace RagnorDb

open Std Checked

/-- The error refuses the call and says nothing against the stored data. -/
def Error.IsRefusal : Error → Prop
  | .invalidArgument _ | .writeConflict _ => True
  | _ => False

namespace Cell

/-- The row holds, at the call's own timestamps, something other than the call writes:
another row or intent of the same start, a mixed batch, or another transaction's record. -/
def Clash (c : Cell) : Call → Prop
  | .prewrite lock mutation =>
    (∃ row ∈ c.value lock.startTimestamp, mutation.row? ≠ some row) ∨
      ∃ held ∈ c.lock, held.txnId = lock.txnId ∧ held.startTimestamp = lock.startTimestamp ∧
        held ≠ lock
  | .commit _ startTs commitTs => ∃ w ∈ c.write commitTs, w.startTimestamp ≠ startTs
  | .rollback _ startTs => ∃ w ∈ c.write startTs, w.op ≠ .rollback
  | .direct txnId startTs commitTs mutation =>
    (∃ row ∈ c.value startTs, mutation.row? ≠ some row) ∨
      (∃ held ∈ c.lock, held.txnId = txnId ∧ held.startTimestamp = startTs ∧
        held.op ≠ mutation.writeKind) ∨
      ∃ w ∈ c.write commitTs, w.startTimestamp ≠ startTs ∨ w.op ≠ mutation.writeKind

instance (c : Cell) : DecidablePred c.Clash
  | .prewrite _ _ => inferInstanceAs (Decidable (_ ∨ _))
  | .commit _ _ _ | .rollback _ _ => inferInstanceAs (Decidable (∃ w ∈ _, _))
  | .direct _ _ _ _ => inferInstanceAs (Decidable (_ ∨ _))

end Cell

namespace InMemoryMvcc

variable {st : InMemoryMvcc} {k : Bytes} {txnId : TxnId} {startTs commitTs : Timestamp}
  {m : Mutation}
variable {primaryKey : Bytes} {ttlMs : Nat} {ms : Mutations} {keys : KeySet}

/-! ## Checks -/

theorem refuses_validateEncodedKeyArgument {context : String} :
    FailsWith Error.IsRefusal (validateEncodedKeyArgument k context) := by
  simp [validateEncodedKeyArgument, Error.IsRefusal]

theorem refuses_validateCommitPreflightMetadata :
    FailsWith Error.IsRefusal (validateCommitPreflightMetadata txnId startTs) := by
  simp [validateCommitPreflightMetadata, Error.IsRefusal]

theorem refuses_validateCommitMetadata :
    FailsWith Error.IsRefusal (validateCommitMetadata txnId startTs commitTs) := by
  simp [validateCommitMetadata, refuses_validateCommitPreflightMetadata, Error.IsRefusal]

theorem refuses_validateMutation
    (hrow : ∀ row, (st.cell k).value startTs = some row → m.row? = some row) :
    FailsWith Error.IsRefusal (st.validateMutation k m startTs) := by
  unfold validateMutation
  rw [failsWith_bind]
  refine ⟨refuses_validateEncodedKeyArgument, fun _ _ => ?_⟩
  simp only [cell] at hrow
  cases m with
  | put =>
    simp only [failsWith_iff]
    refine ⟨fun e _ => trivial, fun _ _ => ?_⟩
    cases hv : st.default.lookup k startTs with
    | none => simp
    | some existing =>
      have hsame := hrow existing hv
      simp only [Mutation.row?, eq_some] at hsame
      simp [hsame]
  | delete =>
    cases hv : st.default.lookup k startTs with
    | none => simp
    | some existing => simp [Mutation.row?] at hrow; simp [hrow existing] at hv

theorem refuses_validateLock
    (hop : ∀ l, (st.cell k).lock = some l → l.txnId = txnId → l.startTimestamp = startTs →
      l.op = m.writeKind) : FailsWith Error.IsRefusal (st.validateLock k m txnId startTs) := by
  unfold validateLock
  cases hl : st.locks[k]? with
  | none => simp
  | some lock =>
    simp only [failsWith_iff, eq_ok]
    refine ⟨fun _ => trivial, fun _ howner hne => absurd (hop lock hl howner.1 howner.2) hne⟩

theorem refuses_validateWriteHistory (h : (st.cell k).Inv) :
    FailsWith Error.IsRefusal (st.validateWriteHistory k startTs) := by
  unfold validateWriteHistory
  cases hk : st.writes[k]? with
  | none => simp
  | some versions =>
    have hvalid : ∀ {t w}, versions[t]? = some w → validateWriteRecord t w = .ok () := by
      intro t w hw
      refine validateWriteRecord_eq_ok.mpr (h.write_valid ?_)
      change st.writes.lookup k t = some w
      rw [VersionMap.lookup_of_getElem? hk, hw]
    rw [failsWith_bind]
    refine ⟨?_, fun _ _ => ?_⟩
    · cases hw : versions[startTs]? with
      | none => simp
      | some => simp [hvalid hw, Error.IsRefusal]
    · split
      · simp
      · next t w hfind =>
          have hmem := List.mem_of_find?_eq_some hfind
          simp only [List.mem_reverse, List.mem_filter,
            ExtTreeMap.mem_toList_iff_getElem?_eq_some] at hmem
          rw [hvalid hmem.1, ok_bind]
          exact failsWith_error.mpr trivial

theorem refuses_validateCommitTimestamp :
    FailsWith Error.IsRefusal (st.validateCommitTimestamp k commitTs) := by
  unfold validateCommitTimestamp
  split
  · simp
  · simp [Error.IsRefusal]

theorem failsWith_forEachWrite {P : Error → Prop}
    {check : Timestamp → WriteRecord → Except Error Unit}
    (hcheck : ∀ t w, (st.cell k).write t = some w → FailsWith P (check t w)) :
    FailsWith P (st.forEachWrite k check) := by
  unfold forEachWrite
  cases hk : st.writes[k]? with
  | none => simp
  | some =>
    refine failsWith_forM fun e he => hcheck e.1 e.2 ?_
    change st.writes.lookup k e.1 = some e.2
    rw [VersionMap.lookup_of_getElem? hk]
    exact ExtTreeMap.mem_toList_iff_getElem?_eq_some.mp he

/-! ## Rows -/

theorem refuses_preparePrewrite (h : (st.cell k).Inv)
    (hno : ¬(st.cell k).Clash (.prewrite (prewriteLock txnId startTs m primaryKey ttlMs) m)) :
    FailsWith Error.IsRefusal (st.preparePrewrite txnId startTs k m primaryKey ttlMs) := by
  simp only [Cell.Clash, Option.mem_def, prewriteLock, eq_ok, not_exists, not_and] at hno
  obtain ⟨hrow, hlock⟩ := hno
  unfold preparePrewrite
  simp only [failsWith_iff]
  refine ⟨refuses_validateMutation hrow, fun _ _ => ⟨refuses_validateWriteHistory h,
    fun _ hhistory => ?_⟩⟩
  replace hhistory := (validateWriteHistory_eq_ok fun _ _ hw => h.write_valid hw).mp hhistory
  cases hl : st.locks[k]? with
  | none =>
    -- A staged row would belong to an intent or to a decided write of the same start.
    have hvalue : st.default.lookup k startTs = none := by
      rw [Option.eq_none_iff_forall_ne_some]
      intro row hvalue
      rcases h.value_owned hvalue with ⟨l, hl', -⟩ | ⟨t, w, hw, hstart, -⟩
      · cases hl.symm.trans hl'
      · exact hhistory.undecided h hw hstart
    simp [hvalue]
  | some held =>
    simp only [failsWith_iff, eq_ok, failsWith_pure, implies_true, and_true]
    refine ⟨fun _ => trivial, fun _ howner =>
      ⟨fun hne => absurd (hlock held hl howner.1 howner.2) hne, fun _ hsame => ?_⟩⟩
    refine failsWith_of_ok (checkReplayedRow_eq_ok (u := ()).mpr fun row hput => ?_)
    have hpayload := h.lock_payload hl
    rw [howner.2, hsame] at hpayload
    cases m with
    | delete => cases hput
    | put =>
      obtain ⟨row', hvalue, -⟩ := hpayload
      cases hput
      exact hvalue.trans (hrow row' hvalue).symm

theorem refuses_prepareIntentCommit (h : (st.cell k).Inv) (hk : CanonicalKey k)
    (hlt : startTs < commitTs) (hno : ¬(st.cell k).Clash (.commit txnId startTs commitTs)) :
    FailsWith Error.IsRefusal (st.prepareIntentCommit txnId startTs commitTs k) := by
  simp only [Cell.Clash, Option.mem_def, not_exists, not_and, not_not] at hno
  cases hw : st.writes.lookup k commitTs with
  | some w =>
    -- The record is the transaction's own: the commit is a replay.
    have hcommitted : w.op ≠ .rollback := by
      intro hop
      have hmarker := (h.write_valid hw).rollback hop
      rw [hno w hw] at hmarker
      exact Nat.ne_of_lt hlt hmarker
    have hreplay : (st.cell k).Replay (.commit txnId startTs commitTs) :=
      .commit hw (hno w hw) hcommitted
    obtain ⟨o, ho⟩ := prepareIntentCommit_of_answers h hk (.inr ⟨hreplay, rfl⟩)
    exact failsWith_of_ok ho
  | none =>
    unfold prepareIntentCommit
    simp only [hw, failsWith_iff, eq_ok, failsWith_pure, implies_true, and_true]
    refine ⟨refuses_validateEncodedKeyArgument, fun _ _ => ⟨fun _ => trivial, fun lock hl =>
      ⟨fun _ => trivial, fun _ howner => ⟨?_, fun _ _ => ⟨refuses_validateWriteHistory h,
        fun _ _ => refuses_validateCommitTimestamp⟩⟩⟩⟩⟩
    have hpayload := h.lock_payload hl
    rw [howner.2] at hpayload
    exact failsWith_of_ok (checkPayload_eq_ok (u := ()).mpr hpayload)

theorem refuses_prepareIntentRollback (h : (st.cell k).Inv) (hk : CanonicalKey k)
    (hno : ¬(st.cell k).Clash (.rollback txnId startTs)) :
    FailsWith Error.IsRefusal (st.prepareIntentRollback txnId startTs k) := by
  simp only [Cell.Clash, Option.mem_def, not_exists, not_and, not_not] at hno
  cases hw : st.writes.lookup k startTs with
  | some w =>
    have hreplay : (st.cell k).Replay (.rollback txnId startTs) := .rollback hw (hno w hw)
    obtain ⟨o, ho⟩ := prepareIntentRollback_of_answers h hk (.inr ⟨hreplay, rfl⟩)
    exact failsWith_of_ok ho
  | none =>
    unfold prepareIntentRollback
    simp only [hw, failsWith_iff, failsWith_pure, implies_true, and_true]
    refine ⟨refuses_validateEncodedKeyArgument, fun _ _ => ⟨failsWith_forEachWrite ?_,
      fun _ hundecided => ?_⟩⟩
    · intro t w hw'
      simp [validateWriteRecord_eq_ok (u := ()).mpr (h.write_valid hw'), Error.IsRefusal]
    · simp only [forEachWrite_eq_ok, eq_ok, not_and] at hundecided
      cases hl : st.locks[k]? with
      | some =>
        simp only [failsWith_iff, eq_ok', failsWith_pure, implies_true, and_true]
        refine ⟨fun _ => trivial, ?_⟩
        rintro _ ⟨howner, rfl⟩
        have hpayload := h.lock_payload hl
        rw [howner.2] at hpayload
        exact failsWith_of_ok (checkPayload_eq_ok (u := ()).mpr hpayload)
      | none =>
        -- Nothing is staged: the row would belong to a committed write of this start.
        have hvalue : st.default.lookup k startTs = none := by
          rw [Option.eq_none_iff_forall_ne_some]
          intro row hvalue
          rcases h.value_owned hvalue with ⟨l, hl', -⟩ | ⟨t, w, hw', hstart, hput⟩
          · cases hl.symm.trans hl'
          · obtain ⟨_, -, hmarker⟩ := hundecided t w hw'
            cases hput.symm.trans (hmarker hstart)
        simp [checkPayload, hvalue]

/-! ## Operations -/

/-- A batch commit that is in place for some of its rows only. -/
def PartlyApplied (st : InMemoryMvcc) (commitTs : Timestamp) (keys : List Bytes) : Prop :=
  (∃ k ∈ keys, ((st.cell k).write commitTs).isSome) ∧
    ∃ k ∈ keys, (st.cell k).write commitTs = none

instance (st : InMemoryMvcc) (commitTs : Timestamp) (keys : List Bytes) :
    Decidable (st.PartlyApplied commitTs keys) :=
  inferInstanceAs (Decidable (_ ∧ _))

section

variable (h : ∀ k, (st.cell k).Inv)
include h

theorem refuses_prewriteBatch
    (hno : ∀ e ∈ ms.toList, ¬(st.cell e.1).Clash
      (.prewrite (prewriteLock txnId startTs e.2 primaryKey ttlMs) e.2)) :
    FailsWith Error.IsRefusal
      (answer (prewriteBatch txnId startTs ms primaryKey ttlMs) st) := by
  simp only [prewriteBatch, failsWith_iff, answer_modify, failsWith_ok, implies_true, and_true]
  exact ⟨fun _ => trivial, fun _ _ => ⟨refuses_validateCommitPreflightMetadata, fun _ _ =>
    ⟨refuses_validateEncodedKeyArgument, fun _ _ => ⟨fun _ => trivial, fun _ _ =>
      failsWith_filterMapM fun e he => refuses_preparePrewrite (h e.1) (hno e he)⟩⟩⟩⟩

theorem refuses_commitIntentsBatch (hkeys : ∀ k ∈ keys.toList, CanonicalKey k)
    (hno : ∀ k ∈ keys.toList, ¬(st.cell k).Clash (.commit txnId startTs commitTs)) :
    FailsWith Error.IsRefusal (answer (commitIntentsBatch txnId startTs commitTs keys) st) := by
  simp only [commitIntentsBatch, failsWith_iff, answer_modify, failsWith_ok, implies_true, and_true]
  refine ⟨fun _ => trivial, fun _ _ => ⟨refuses_validateCommitMetadata, fun _ hmeta => ?_⟩⟩
  have hlt := (validateCommitMetadata_eq_ok.mp hmeta).2.2
  exact failsWith_filterMapM fun k hk =>
    refuses_prepareIntentCommit (h k) (hkeys k hk) hlt (hno k hk)

theorem refuses_rollbackIntentsBatch (hkeys : ∀ k ∈ keys.toList, CanonicalKey k)
    (hno : ∀ k ∈ keys.toList, ¬(st.cell k).Clash (.rollback txnId startTs)) :
    FailsWith Error.IsRefusal (answer (rollbackIntentsBatch txnId startTs keys) st) := by
  simp only [rollbackIntentsBatch, failsWith_iff, answer_modify, failsWith_ok, implies_true,
    and_true]
  exact ⟨fun _ => trivial, fun _ _ => ⟨refuses_validateCommitPreflightMetadata, fun _ _ =>
    failsWith_filterMapM fun k hk =>
      refuses_prepareIntentRollback (h k) (hkeys k hk) (hno k hk)⟩⟩

/-- A batch commit that agrees with its rows is new on all of them or in place on all. -/
theorem validateBatchReplay_of_agrees (hne : ms.toList ≠ [])
    (hno : ∀ e ∈ ms.toList, ¬(st.cell e.1).Clash (.direct txnId startTs commitTs e.2))
    (hpartly : ¬st.PartlyApplied commitTs (ms.toList.map Prod.fst)) :
    ∃ b, st.validateBatchReplay ms startTs commitTs = .ok b := by
  simp only [validateBatchReplay_eq_ok hne]
  by_cases hnew : ∀ e ∈ ms.toList, (st.cell e.1).write commitTs = none
  · refine ⟨false, fun e he => (isExactlyApplied_eq_ok fun _ _ => (h e.1).write_valid).mpr ?_⟩
    exact .inl ⟨rfl, hnew e he⟩
  · refine ⟨true, fun e he => (isExactlyApplied_eq_ok fun _ _ => (h e.1).write_valid).mpr ?_⟩
    refine .inr ⟨rfl, ?_⟩
    simp only [not_forall] at hnew
    obtain ⟨e', he', hsome⟩ := hnew
    have hall : (st.cell e.1).write commitTs ≠ none := fun hnone => hpartly
      ⟨⟨e'.1, List.mem_map_of_mem he', Option.isSome_iff_ne_none.mpr hsome⟩,
        e.1, List.mem_map_of_mem he, hnone⟩
    obtain ⟨w, hw⟩ := Option.ne_none_iff_exists'.mp hall
    have hagrees := hno e he
    simp only [Cell.Clash, Option.mem_def, eq_ok, not_exists, not_and] at hagrees
    obtain ⟨hrow, -, hwrite⟩ := hagrees
    obtain ⟨hstart, hop⟩ := hwrite w hw
    refine ⟨?_, fun row hput => ?_⟩
    · rw [hw, ← hstart, ← hop, ← ((h e.1).write_valid hw).stored]
    · have hkind := e.2.writeKind_ne_rollback
      have hpayload := (h e.1).write_payload hw (hop ▸ hkind)
      rw [hstart, hop] at hpayload
      cases hm : e.2 with
      | delete =>
        rw [hm] at hput
        cases hput
      | put =>
        rw [hm] at hpayload
        obtain ⟨stored, hvalue, -⟩ := hpayload
        have hsame := hrow stored hvalue
        rw [hput] at hsame
        cases hsame
        exact hvalue

theorem refuses_commitBatch
    (hno : ∀ e ∈ ms.toList, ¬(st.cell e.1).Clash (.direct txnId startTs commitTs e.2))
    (hpartly : ¬st.PartlyApplied commitTs (ms.toList.map Prod.fst)) :
    FailsWith Error.IsRefusal (answer (commitBatch txnId startTs commitTs ms) st) := by
  have hmutations : FailsWith Error.IsRefusal
      (ms.toList.forM fun e => st.validateMutation e.1 e.2 startTs) := by
    refine failsWith_forM fun e he => refuses_validateMutation fun row hv => ?_
    by_contra hne
    exact hno e he (.inl ⟨row, hv, hne⟩)
  simp only [commitBatch, failsWith_iff]
  refine ⟨refuses_validateCommitMetadata, fun _ _ => ⟨hmutations, fun _ _ => ?_⟩⟩
  by_cases hempty : ms.isEmpty = true
  · simp [hempty]
  · have hne : ms.toList ≠ [] := by simpa using hempty
    obtain ⟨replayed, hreplay⟩ := validateBatchReplay_of_agrees h hne hno hpartly
    simp only [hempty, if_false, Bool.false_eq_true, failsWith_iff]
    refine ⟨failsWith_of_ok hreplay, fun b _ => ?_⟩
    cases b with
    | true => simp
    | false =>
      simp only [Bool.false_eq_true, if_false, failsWith_iff, answer_modify_bind, answer_pure,
        failsWith_ok, implies_true, and_true]
      refine ⟨?_, fun _ _ => failsWith_forM fun e he => refuses_validateCommitTimestamp⟩
      simp only [validateCommitBatch, failsWith_iff]
      refine ⟨refuses_validateCommitPreflightMetadata, fun _ _ => ⟨hmutations, fun _ _ =>
        failsWith_forM fun e he => ?_⟩⟩
      simp only [failsWith_iff]
      refine ⟨refuses_validateLock fun l hl htxn hstart => ?_, fun _ _ =>
        refuses_validateWriteHistory (h e.1)⟩
      by_contra hne
      exact hno e he (.inr (.inl ⟨l, hl, htxn, hstart, hne⟩))

end

end InMemoryMvcc

end RagnorDb
