import RagnorDb.Storage.Cell

/-!
# What the checks accept

One lemma for each check of `mvcc.rs`, read off the cell of the key it is about.  A store
whose write records are valid never fails a check as corrupt, so the lemmas are stated
over such stores and say exactly which calls succeed, and with which delta.
-/

namespace RagnorDb

open Std Checked OrderedMap VersionMap

variable {t : TxnId} {s : Timestamp} {u : Unit} {e e' : Error}

/-- What the three maps hold for `key`. -/
def InMemoryMvcc.cell (self : InMemoryMvcc) (key : Bytes) : Cell where
  value := self.default.lookup key
  lock := self.locks[key]?
  write := self.writes.lookup key

/-! ## Arguments and records -/

theorem validateCommitPreflightMetadata_eq_ok :
    validateCommitPreflightMetadata t s = .ok u ↔ t ≠ 0 ∧ s ≠ 0 := by
  simp [validateCommitPreflightMetadata]

theorem validateCommitMetadata_eq_ok {c : Timestamp} :
    validateCommitMetadata t s c = .ok u ↔ t ≠ 0 ∧ s ≠ 0 ∧ s < c := by
  simp only [validateCommitMetadata, eq_ok, validateCommitPreflightMetadata_eq_ok, Nat.not_le]
  constructor
  · rintro ⟨_, ⟨ht, hs⟩, _, _, hc⟩
    exact ⟨ht, hs, hc⟩
  · rintro ⟨ht, hs, hc⟩
    exact ⟨(), ⟨ht, hs⟩, (), by lia, hc⟩

theorem validateEncodedKeyArgument_eq_ok {key : Bytes} {context : String} :
    validateEncodedKeyArgument key context = .ok u ↔ CanonicalKey key := by
  simp [validateEncodedKeyArgument, CanonicalKey]

theorem validateWriteRecord_eq_ok {t : Timestamp} {w : WriteRecord} :
    validateWriteRecord t w = .ok u ↔ w.ValidAt t := by
  simp only [validateWriteRecord, eq_ok']
  constructor
  · rintro ⟨hc, hs, hop⟩
    split at hop
    all_goals rw [rejectIf_eq_ok] at hop
    · next h => exact ⟨hc, hs, by simp [h], fun _ => by lia⟩
    · next h => exact ⟨hc, hs, by simp [h], fun _ => by lia⟩
    · next h => exact ⟨hc, hs, fun _ => by lia, fun hne => absurd h hne⟩
  · rintro ⟨hc, hs, hrollback, hcommitted⟩
    refine ⟨hc, hs, ?_⟩
    split
    all_goals rw [rejectIf_eq_ok]
    · next h => have := hcommitted (by simp [h]); lia
    · next h => have := hcommitted (by simp [h]); lia
    · next h => have := hrollback h; lia

theorem checkReplayedRow_eq_ok {stored : Option Bytes} {m : Mutation} :
    checkReplayedRow stored m e e' = .ok u ↔ ∀ row, m.row? = some row → stored = some row := by
  cases m with
  | put =>
    simp only [checkReplayedRow, eq_ok]
    simp [Mutation.row?]
  | delete => simp [checkReplayedRow, Mutation.row?]

theorem checkPayload_eq_ok {v : Option Bytes} {op : WriteKind} {e'' : Error} :
    checkPayload v op e e' e'' = .ok u ↔ Cell.PayloadOk v op := by
  cases op with
  | put => simp [checkPayload, Cell.PayloadOk, DecodableRow]
  | delete | rollback => simp [checkPayload, Cell.PayloadOk]

namespace InMemoryMvcc

variable {self : InMemoryMvcc} {key : Bytes} {txnId : TxnId} {startTs commitTs : Timestamp}
  {mutation : Mutation}
variable {u : Unit} {b : Bool}

theorem cell_lock : (self.cell key).lock = self.locks[key]? := rfl

theorem cell_value : (self.cell key).value startTs = self.default.lookup key startTs := rfl

theorem cell_write : (self.cell key).write commitTs = self.writes.lookup key commitTs := rfl

theorem forEachWrite_eq_ok {check : Timestamp → WriteRecord → Except Error Unit} :
    self.forEachWrite key check = .ok u ↔
      ∀ t w, (self.cell key).write t = some w → check t w = .ok () := by
  unfold forEachWrite
  cases h : self.writes[key]? with
  | none => simp [cell, lookup_of_getElem?_none h]
  | some =>
    simp only [cell, lookup_of_getElem? h, forM_eq_ok, Prod.forall,
      ExtTreeMap.mem_toList_iff_getElem?_eq_some]

/-! ## Mutations, locks and histories -/

theorem validateMutation_eq_ok :
    self.validateMutation key mutation startTs = .ok u ↔
      CanonicalKey key ∧ mutation.Canonical ∧
        ∀ row, (self.cell key).value startTs = some row → mutation.row? = some row := by
  unfold validateMutation
  simp only [eq_ok, validateEncodedKeyArgument_eq_ok, exists_const]
  refine and_congr_right fun _ => ?_
  cases mutation with
  | put row =>
    simp only [eq_ok, Mutation.Canonical, Mutation.row?, DecodableRow, cell]
    cases self.default.lookup key startTs with
    | none => simp
    | some => simp [eq_comm (a := row)]
  | delete =>
    simp [Mutation.Canonical, Mutation.row?, cell, Option.eq_none_iff_forall_ne_some]

theorem validateLock_eq_ok :
    self.validateLock key mutation txnId startTs = .ok u ↔
      (self.cell key).LockFree txnId startTs ∧
        ∀ l, (self.cell key).lock = some l → l.op = mutation.writeKind := by
  unfold validateLock
  simp only [Cell.LockFree, cell]
  cases self.locks[key]? with
  | none => simp
  | some => simp [and_assoc]

theorem validateCommitTimestamp_eq_ok :
    self.validateCommitTimestamp key commitTs = .ok u ↔
      (self.cell key).WritesBelow commitTs := by
  unfold validateCommitTimestamp
  simp only [Cell.WritesBelow, cell]
  cases h : self.writes[key]? with
  | none => simp [lookup_of_getElem?_none h]
  | some versions =>
    simp only [lookup_of_getElem? h, Option.bind_some]
    cases hlast : lastKeyValue? versions with
    | none => simp [lastKeyValue?_eq_none hlast]
    | some e =>
      obtain ⟨hlatest, hbelow⟩ := lastKeyValue?_eq_some hlast
      simp only [eq_ok, ge_iff_le, Nat.not_le]
      constructor
      · intro hlt t w hw
        rcases hbelow t w hw with rfl | hcmp
        · exact hlt
        · rw [Nat.compare_eq_lt] at hcmp
          exact Nat.lt_trans hcmp hlt
      · intro hall
        exact hall e.1 e.2 hlatest

theorem validateWriteHistory_eq_ok (hv : ∀ t w, (self.cell key).write t = some w → w.ValidAt t) :
    self.validateWriteHistory key startTs = .ok u ↔ (self.cell key).HistoryOk startTs := by
  unfold validateWriteHistory
  simp only [cell] at hv
  cases h : self.writes[key]? with
  | none =>
    simp only [true_iff]
    constructor <;> simp [cell, lookup_of_getElem?_none h]
  | some versions =>
    simp only [lookup_of_getElem? h] at hv
    have hcell : (self.cell key).write = fun t => versions[t]? :=
      funext (lookup_of_getElem? h)
    -- Membership in the range above the snapshot.
    have hrange : ∀ t w, (t, w) ∈ (versions.toList.filter fun e => startTs < e.1).reverse ↔
        versions[t]? = some w ∧ startTs < t := by
      intro t w
      simp
    simp only [eq_ok]
    constructor
    · rintro ⟨_, hmarker, hnewer⟩
      constructor
      · intro w hw hop
        rw [hcell] at hw
        simp only [hw, eq_ok, validateWriteRecord_eq_ok] at hmarker
        obtain ⟨_, hvalid, hno⟩ := hmarker
        exact hno ⟨hop, hvalid.rollback hop⟩
      · intro t w hlt hw
        rw [hcell] at hw
        split at hnewer
        · next hfind =>
            have := List.find?_eq_none.mp hfind _ ((hrange t w).mpr ⟨hw, hlt⟩)
            simpa using this
        · simp at hnewer
    · rintro ⟨hmarker, hnewer⟩
      rw [hcell] at hmarker hnewer
      refine ⟨(), ?_, ?_⟩
      · split
        · rfl
        · next w hw =>
            simp only [eq_ok, validateWriteRecord_eq_ok]
            exact ⟨(), hv _ _ hw, fun hop => hmarker w hw hop.1⟩
      · split
        · rfl
        · next t w hfind =>
            have hmem := (hrange t w).mp (List.mem_of_find?_eq_some hfind)
            have hop := List.find?_some hfind
            simp [hnewer t w hmem.2 hmem.1] at hop

/-! ## Prepared deltas -/

/-- The lock a prewrite installs. -/
def prewriteLock (txnId : TxnId) (startTs : Timestamp) (mutation : Mutation)
    (primaryKey : Bytes) (ttlMs : Nat) : LockRecord :=
  { txnId, primaryKey, startTimestamp := startTs, ttlMs, op := mutation.writeKind }

section

variable (hv : ∀ t w, (self.cell key).write t = some w → w.ValidAt t)
include hv

theorem preparePrewrite_eq_ok {primaryKey : Bytes} {ttlMs : Nat} {o : Option PreparedPrewrite} :
    self.preparePrewrite txnId startTs key mutation primaryKey ttlMs = .ok o ↔
      CanonicalKey key ∧ mutation.Canonical ∧ (self.cell key).HistoryOk startTs ∧
        ((o = none ∧ (self.cell key).value startTs = mutation.row? ∧ (self.cell key).lock =
            some (prewriteLock txnId startTs mutation primaryKey ttlMs)) ∨
          (o = some ⟨key, mutation.row?, prewriteLock txnId startTs mutation primaryKey ttlMs⟩ ∧
            (self.cell key).value startTs = none ∧ (self.cell key).lock = none)) := by
  unfold preparePrewrite
  simp only [eq_ok, validateMutation_eq_ok, validateWriteHistory_eq_ok hv, exists_const, and_assoc]
  refine and_congr_right fun _ => and_congr_right fun _ => ?_
  rw [← and_left_comm]
  refine and_congr_right fun _ => ?_
  rw [cell_lock, cell_value]
  cases self.locks[key]? with
  | none =>
    cases self.default.lookup key startTs with
    | none => cases mutation <;> simp [eq_comm (b := o), Mutation.row?, prewriteLock]
    | some => simp
  | some =>
    simp only [eq_ok', checkReplayedRow_eq_ok, reduceCtorEq, and_false, or_false, eq_some,
      eq_comm (b := o)]
    constructor
    · rintro ⟨hown, -, rfl, hstored, rfl⟩
      exact ⟨rfl, Option.ext fun row => ⟨hown row, hstored row⟩, rfl⟩
    · rintro ⟨rfl, hrow, rfl⟩
      exact ⟨fun row h => hrow ▸ h, ⟨rfl, rfl⟩, rfl, fun row h => hrow.trans h, rfl⟩

theorem prepareIntentCommit_eq_ok {o : Option PreparedIntentCommit} :
    self.prepareIntentCommit txnId startTs commitTs key = .ok o ↔ CanonicalKey key ∧
      ((o = none ∧ ∃ w, (self.cell key).write commitTs = some w ∧
          w.startTimestamp = startTs ∧
          (∀ t w', (self.cell key).write t = some w' → w'.startTimestamp = startTs → t = commitTs) ∧
          (∀ l, (self.cell key).lock = some l → l.startTimestamp ≠ startTs) ∧
          Cell.PayloadOk ((self.cell key).value startTs) w.op) ∨
        ((self.cell key).write commitTs = none ∧
          ∃ l, o = some ⟨key, ⟨startTs, commitTs, l.op⟩⟩ ∧ (self.cell key).lock = some l ∧
            l.txnId = txnId ∧ l.startTimestamp = startTs ∧
            Cell.PayloadOk ((self.cell key).value startTs) l.op ∧
            (self.cell key).HistoryOk startTs ∧ (self.cell key).WritesBelow commitTs)) := by
  unfold prepareIntentCommit
  simp only [eq_ok, validateEncodedKeyArgument_eq_ok, exists_const]
  refine and_congr_right fun _ => ?_
  rw [cell_lock, cell_value, cell_write]
  cases hw : self.writes.lookup key commitTs with
  | none =>
    simp only [eq_ok', checkPayload_eq_ok, validateWriteHistory_eq_ok hv,
      validateCommitTimestamp_eq_ok, reduceCtorEq, false_and, exists_false, and_false, false_or,
      true_and]
    constructor
    · rintro ⟨l, hl, ⟨rfl, rfl⟩, hp, hh, hb, rfl⟩
      exact ⟨l, rfl, hl, rfl, rfl, hp, hh, hb⟩
    · rintro ⟨l, rfl, hl, rfl, rfl, hp, hh, hb⟩
      exact ⟨l, hl, ⟨rfl, rfl⟩, hp, hh, hb, rfl⟩
  | some w =>
    simp only [eq_ok', validateWriteRecord_eq_ok, forEachWrite_eq_ok, checkPayload_eq_ok, eq_some,
      reduceCtorEq, false_and, or_false, not_any_iff, decide_eq_true_eq, eq_comm (b := o)]
    constructor
    · rintro ⟨-, hother, ⟨rfl, -⟩, hl, hp, rfl⟩
      refine ⟨rfl, w, rfl, rfl, ?_, hl, hp⟩
      intro t w' hw' hstart
      by_contra hne
      exact (hother t w' hw').2 ⟨hne, hstart⟩
    · rintro ⟨rfl, _, rfl, rfl, hunique, hl, hp⟩
      refine ⟨hv _ _ hw, ?_, ⟨rfl, hp.ne_rollback⟩, hl, hp, rfl⟩
      intro t w' hw'
      exact ⟨hv t w' hw', fun h => h.1 (hunique t w' hw' h.2)⟩

theorem prepareIntentRollback_eq_ok {o : Option PreparedIntentRollback} :
    self.prepareIntentRollback txnId startTs key = .ok o ↔ CanonicalKey key ∧
      (∀ t w, (self.cell key).write t = some w → w.startTimestamp = startTs → w.op = .rollback) ∧
      ((o = none ∧ (∃ w, (self.cell key).write startTs = some w ∧
          w.startTimestamp = startTs ∧ w.op = .rollback) ∧
          (∀ l, (self.cell key).lock = some l → l.startTimestamp ≠ startTs) ∧
          (self.cell key).value startTs = none) ∨
        (o = some ⟨key, (self.cell key).lock.any fun l => l.op = .put⟩ ∧
          (self.cell key).write startTs = none ∧ (self.cell key).LockFree txnId startTs ∧
          (∀ l, (self.cell key).lock = some l →
            Cell.PayloadOk ((self.cell key).value startTs) l.op) ∧
          ((self.cell key).lock = none → (self.cell key).value startTs = none))) := by
  unfold prepareIntentRollback
  simp only [eq_ok', validateEncodedKeyArgument_eq_ok, forEachWrite_eq_ok,
    validateWriteRecord_eq_ok, not_and]
  refine and_congr_right fun _ => ?_
  simp only [Cell.LockFree, cell_lock, cell_value, @cell_write _ _ startTs]
  refine and_congr ⟨fun h t w hw => (h t w hw).2, fun h t w hw => ⟨hv t w hw, h t w hw⟩⟩ ?_
  cases hw : self.writes.lookup key startTs with
  | some w =>
    simp only [eq_ok', not_any_iff, decide_eq_true_eq, Option.not_isSome_iff_eq_none, eq_some,
      reduceCtorEq, false_and, and_false, or_false, eq_comm (b := o)]
    constructor
    · rintro ⟨hmarker, ⟨hl, hvalue⟩, rfl⟩
      exact ⟨rfl, ⟨w, rfl, hmarker⟩, hl, hvalue⟩
    · rintro ⟨rfl, ⟨_, rfl, hmarker⟩, hl, hvalue⟩
      exact ⟨hmarker, ⟨hl, hvalue⟩, rfl⟩
  | none =>
    cases self.locks[key]? with
    | none =>
      simp [checkPayload_eq_ok, Cell.PayloadOk, eq_comm (b := o), and_comm]
    | some =>
      simp [checkPayload_eq_ok, eq_comm (b := o), and_comm, and_assoc]

end

/-! ## Direct batch commits -/

/-- A mutation that a batch commit has already applied, exactly. -/
structure Replayed (c : Cell) (startTs commitTs : Timestamp) (mutation : Mutation) : Prop where
  write : c.write commitTs = some ⟨startTs, commitTs, mutation.writeKind⟩
  row : ∀ row, mutation.row? = some row → c.value startTs = some row

theorem isExactlyApplied_eq_ok (hv : ∀ t w, (self.cell key).write t = some w → w.ValidAt t) :
    self.isExactlyApplied key mutation startTs commitTs = .ok b ↔
      (b = false ∧ (self.cell key).write commitTs = none) ∨
        (b = true ∧ Replayed (self.cell key) startTs commitTs mutation) := by
  unfold isExactlyApplied
  cases hw : self.writes.lookup key commitTs with
  | none =>
    have hno : ¬Replayed (self.cell key) startTs commitTs mutation := by
      intro hr
      cases (cell_write.trans hw).symm.trans hr.write
    simp [hno, cell_write, hw, eq_comm]
  | some w =>
    have hvalid := hv commitTs w (cell_write.trans hw)
    simp only [cell_write, hw, eq_ok', validateWriteRecord_eq_ok, checkReplayedRow_eq_ok,
      reduceCtorEq, and_false, false_or, eq_comm (b := b)]
    constructor
    · rintro ⟨-, ⟨hstart, hop⟩, hrow, rfl⟩
      refine ⟨rfl, cell_write.trans (hw.trans ?_), hrow⟩
      rw [← hstart, ← hop, ← hvalid.stored]
    · rintro ⟨rfl, hr⟩
      cases (cell_write.trans hw).symm.trans hr.write
      exact ⟨hvalid, ⟨rfl, rfl⟩, hr.row, rfl⟩

theorem validateBatchReplay_eq_ok {mutations : Mutations} (hne : mutations.toList ≠ []) :
    self.validateBatchReplay mutations startTs commitTs = .ok b ↔
      ∀ e ∈ mutations.toList, self.isExactlyApplied e.1 e.2 startTs commitTs = .ok b := by
  rw [← mapM_eq_ok_map, List.map_const']
  unfold validateBatchReplay
  have hpos : 0 < mutations.toList.length := List.length_pos_of_ne_nil hne
  simp only [eq_ok, ← ExtTreeMap.length_toList]
  constructor
  · rintro ⟨flags, hflags, hb⟩
    have hlen := length_of_mapM_eq_ok hflags
    rw [hflags]
    congr 1
    rw [List.eq_replicate_iff]
    refine ⟨hlen, ?_⟩
    split at hb
    · next h =>
        simp only [eq_ok] at hb
        intro flag hflag
        rw [List.count_eq_zero] at h
        cases flag with
        | false => exact hb
        | true => exact absurd hflag h
    · split at hb
      · next h =>
          simp only [eq_ok] at hb
          intro flag hflag
          rw [← hlen, List.count_eq_length] at h
          exact (h flag hflag).symm.trans hb
      · simp at hb
  · intro h
    refine ⟨_, h, ?_⟩
    cases b with
    | false => simp [List.count_replicate]
    | true => rw [List.count_replicate_self, if_neg (Nat.ne_of_gt hpos), if_pos rfl, pure_eq_ok]

end InMemoryMvcc

end RagnorDb
