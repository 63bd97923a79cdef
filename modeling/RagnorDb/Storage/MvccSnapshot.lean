import RagnorDb.Common.Status
import RagnorDb.Storage.MvccInvariant

/-!
# Snapshots of the store

`capture_snapshot_state` flattens the three maps into ordered snapshot entries, and
`restore_from_snapshot_entries` checks such entries and rebuilds the maps.  A store that
keeps its invariant and holds only keys of one table is captured, and its entries restore
exactly that store.
-/

namespace RagnorDb

open Std Checked VersionMap

namespace SnapshotProto

structure DefaultValueEntry where
  key : Bytes
  startTimestamp : Option Timestamp
  row : Bytes

structure LockEntry where
  key : Bytes
  record : Option LockRecord.Proto

structure WriteEntry where
  key : Bytes
  writeTimestamp : Option Timestamp
  record : Option WriteRecord.Proto

end SnapshotProto

/-- The ordered entries of a store, detached from it. -/
structure CapturedMvccState where
  defaultValues : List SnapshotProto.DefaultValueEntry
  locks : List SnapshotProto.LockEntry
  writes : List SnapshotProto.WriteEntry

namespace InMemoryMvcc

variable {k : Bytes} {t : Timestamp}

/-! ## Capture -/

def captureDefault (e : Bytes × Timestamp × Bytes) : SnapshotProto.DefaultValueEntry :=
  ⟨e.1, some e.2.1, e.2.2⟩

def captureLock (e : Bytes × LockRecord) : Except Error SnapshotProto.LockEntry := do
  let record ← e.2.toProto.mapError fun error =>
    .corruptData s!"in-memory lock record cannot be snapshotted: {error}"
  return ⟨e.1, some record⟩

def captureWrite (e : Bytes × Timestamp × WriteRecord) : Except Error SnapshotProto.WriteEntry := do
  let record ← e.2.2.toProto.mapError fun error =>
    .corruptData s!"in-memory write record cannot be snapshotted: {error}"
  return ⟨e.1, some e.2.1, some record⟩

/-- Flatten the maps into a snapshot image, in key and timestamp order. -/
def captureSnapshotState (self : InMemoryMvcc) : Except Error CapturedMvccState := do
  let defaultValues := self.default.entries.map captureDefault
  let locks ← self.locks.toList.mapM captureLock
  let writes ← self.writes.entries.mapM captureWrite
  return { defaultValues, locks, writes }

/-! ## Restore -/

variable (tableId : TableId)

def validateSnapshotRowKey (key : Bytes) (context : String) : Except Error Unit := do
  let rowKey ← (decodeRowKey key).mapError fun source =>
    .corruptData s!"snapshot {context} has an invalid row key: {source.display}"
  rejectIf (rowKey.tableId ≠ tableId) (.corruptData
    (s!"snapshot {context} row key belongs to table {rowKey.tableId}, expected table " ++
      s!"{tableId}"))

def restoreDefault (entry : SnapshotProto.DefaultValueEntry) :
    Except Error (Bytes × Timestamp × Bytes) := do
  validateSnapshotRowKey tableId entry.key "default value"
  let startTimestamp ← okOr entry.startTimestamp
    (.corruptData "snapshot default value is missing its start timestamp")
  rejectIf (startTimestamp = 0)
    (.corruptData "snapshot default value contains reserved timestamp 0")
  let _ ← (decodeRow entry.row).mapError fun source =>
    .corruptData s!"snapshot default value contains an invalid encoded row: {source.display}"
  return (entry.key, startTimestamp, entry.row)

def restoreLock (entry : SnapshotProto.LockEntry) : Except Error (Bytes × LockRecord) := do
  validateSnapshotRowKey tableId entry.key "lock"
  let proto ← okOr entry.record (.corruptData "snapshot lock record is missing")
  let record ← (LockRecord.fromProto proto).mapError fun message =>
    .corruptData s!"snapshot lock record is invalid: {message}"
  rejectIf (record.txnId = 0 ∨ record.startTimestamp = 0)
    (.corruptData "snapshot lock contains a reserved transaction ID or timestamp 0")
  return (entry.key, record)

def restoreWrite (entry : SnapshotProto.WriteEntry) :
    Except Error (Bytes × Timestamp × WriteRecord) := do
  validateSnapshotRowKey tableId entry.key "write"
  let writeTimestamp ← okOr entry.writeTimestamp
    (.corruptData "snapshot write is missing its write timestamp")
  let proto ← okOr entry.record (.corruptData "snapshot write record is missing")
  let record ← (WriteRecord.fromProto proto).mapError fun message =>
    .corruptData s!"snapshot write record is invalid: {message}"
  validateWriteRecord writeTimestamp record
  return (entry.key, writeTimestamp, record)

/-- Every restored Put refers to a restored default value. -/
def checkPutReferences (self : InMemoryMvcc) : Except Error Unit :=
  self.writes.entries.forM fun e =>
    rejectIf (e.2.2.op = .put ∧ (self.default.lookup e.1 e.2.2.startTimestamp).isNone)
      (.corruptData (s!"snapshot Put for table {tableId} references missing default value " ++
        s!"at start timestamp {e.2.2.startTimestamp}"))

/-- Reconstruct one table's complete MVCC maps from snapshot entries. -/
def fromSnapshotTable (table : CapturedMvccState) : Except Error InMemoryMvcc := do
  let default ← collect (restoreDefault tableId)
    (fun (m : VersionMap Bytes Timestamp Bytes) e => (m.lookup e.1 e.2.1).isSome)
    (fun m e => m.insertVersion e.1 e.2.1 e.2.2)
    (fun e => .corruptData (s!"snapshot contains duplicate default value for table {tableId} at " ++
      s!"start timestamp {e.2.1}")) table.defaultValues ∅
  let locks ← collect (restoreLock tableId)
    (fun (m : ExtTreeMap Bytes LockRecord compare) e => m.contains e.1)
    (fun m e => m.insert e.1 e.2)
    (fun _ => .corruptData s!"snapshot contains duplicate lock for table {tableId}")
    table.locks ∅
  let writes ← collect (restoreWrite tableId)
    (fun (m : VersionMap Bytes Timestamp WriteRecord) e => (m.lookup e.1 e.2.1).isSome)
    (fun m e => m.insertVersion e.1 e.2.1 e.2.2)
    (fun e => .corruptData
      s!"snapshot contains duplicate write for table {tableId} at timestamp {e.2.1}")
    table.writes ∅
  let storage : InMemoryMvcc := { default, locks, writes }
  checkPutReferences tableId storage
  return storage

/-- Restore one tablet's complete MVCC state from validated snapshot entries. -/
def restoreFromSnapshotEntries
    (defaultValues : List SnapshotProto.DefaultValueEntry) (locks : List SnapshotProto.LockEntry)
    (writes : List SnapshotProto.WriteEntry) : Except Error InMemoryMvcc :=
  fromSnapshotTable tableId { defaultValues, locks, writes }

variable {tableId}

/-! ## Round trip -/

/-- Every stored key is a key of the table. -/
def InTable (self : InMemoryMvcc) (tableId : TableId) : Prop :=
  ∀ k, self.cell k ≠ .empty → RagnorDb.InTable tableId k

variable {self : InMemoryMvcc} {tableId : TableId}

theorem validateSnapshotRowKey_eq_ok {key : Bytes} {context : String} {u : Unit} :
    validateSnapshotRowKey tableId key context = .ok u ↔ RagnorDb.InTable tableId key := by
  simp [validateSnapshotRowKey, RagnorDb.InTable]

theorem InTable.of_part (h : self.InTable tableId) {α : Type} (part : Cell → Option α) {a : α}
    (hempty : part .empty = none) (ha : part (self.cell k) = some a) :
    RagnorDb.InTable tableId k := by
  refine h k fun heq => ?_
  rw [heq, hempty] at ha
  cases ha

/-! Each captured entry decodes to the entry it was captured from. -/

section

variable (h : self.Inv) (ht : self.InTable tableId)
include h ht

theorem restoreDefault_captureDefault {e : Bytes × Timestamp × Bytes}
    (he : e ∈ self.default.entries) : restoreDefault tableId (captureDefault e) = .ok e := by
  have hv : (self.cell e.1).value e.2.1 = some e.2.2 := mem_entries.mp he
  obtain ⟨hs, row, hrow⟩ := (h.cell e.1).value_valid hv
  simp only [restoreDefault, captureDefault, eq_ok', validateSnapshotRowKey_eq_ok]
  exact ⟨ht.of_part (·.value _) rfl hv, e.2.1, rfl, hs, row, hrow, rfl⟩

theorem exists_captureLock {e : Bytes × LockRecord} (he : e ∈ self.locks.toList) :
    ∃ entry, captureLock e = .ok entry ∧ restoreLock tableId entry = .ok e := by
  have hl : (self.cell e.1).lock = some e.2 := ExtTreeMap.mem_toList_iff_getElem?_eq_some.mp he
  have hvalid := (h.cell e.1).lock_valid hl
  obtain ⟨proto, hproto, hback⟩ := LockRecord.exists_toProto hvalid.validate_eq_ok
  refine ⟨⟨e.1, some proto⟩, ?_, ?_⟩
  · simp [captureLock, hproto, Except.mapError]
  · simp only [restoreLock, eq_ok', validateSnapshotRowKey_eq_ok]
    exact ⟨ht.of_part (·.lock) rfl hl, proto, rfl, e.2, hback,
      ⟨hvalid.txnId_ne_zero, hvalid.start_ne_zero⟩, rfl⟩

theorem exists_captureWrite {e : Bytes × Timestamp × WriteRecord} (he : e ∈ self.writes.entries) :
    ∃ entry, captureWrite e = .ok entry ∧ restoreWrite tableId entry = .ok e := by
  have hw : (self.cell e.1).write e.2.1 = some e.2.2 := mem_entries.mp he
  have hvalid := (h.cell e.1).write_valid hw
  obtain ⟨proto, hproto, hback⟩ := WriteRecord.exists_toProto hvalid.validate_eq_ok
  refine ⟨⟨e.1, some e.2.1, some proto⟩, ?_, ?_⟩
  · simp [captureWrite, hproto, Except.mapError]
  · simp only [restoreWrite, eq_ok', validateSnapshotRowKey_eq_ok, validateWriteRecord_eq_ok]
    exact ⟨ht.of_part (·.write _) rfl hw, e.2.1, rfl, proto, rfl, e.2.2, hback, hvalid, rfl⟩

end

theorem checkPutReferences_eq_ok (h : self.Inv) : checkPutReferences tableId self = .ok () := by
  rw [checkPutReferences, forM_eq_ok]
  intro e he
  rw [rejectIf_eq_ok]
  rintro ⟨hop, hnone⟩
  have hw : (self.cell e.1).write e.2.1 = some e.2.2 := mem_entries.mp he
  have hpayload := (h.cell e.1).write_payload hw (by simp [hop])
  rw [hop] at hpayload
  obtain ⟨row, hrow, -⟩ := hpayload
  have hvalue : self.default.lookup e.1 e.2.2.startTimestamp = some row := hrow
  rw [hvalue] at hnone
  cases hnone

/-- A store is captured, and its entries restore it. -/
theorem restore_captureSnapshotState (h : self.Inv) (ht : self.InTable tableId) :
    ∃ captured, self.captureSnapshotState = .ok captured ∧
      restoreFromSnapshotEntries tableId captured.defaultValues captured.locks captured.writes =
        .ok self := by
  obtain ⟨locks, hlocks, hlocks'⟩ := exists_mapM_of_inverse fun _ => exists_captureLock h ht
  obtain ⟨writes, hwrites, hwrites'⟩ := exists_mapM_of_inverse fun _ => exists_captureWrite h ht
  have hdefault : List.Forall₂ (fun x e => restoreDefault tableId x = .ok e)
      (self.default.entries.map captureDefault) self.default.entries := by
    rw [List.forall₂_map_left_iff, List.forall₂_same]
    exact fun _ => restoreDefault_captureDefault h ht
  refine ⟨⟨self.default.entries.map captureDefault, locks, writes⟩, ?_, ?_⟩
  · rw [captureSnapshotState, hlocks, ok_bind, hwrites, ok_bind]
    rfl
  · rw [restoreFromSnapshotEntries, fromSnapshotTable,
      NoEmpty.collect_entries h.noEmpty.default hdefault, ok_bind,
      collect_toList hlocks', ok_bind,
      NoEmpty.collect_entries h.noEmpty.writes hwrites', ok_bind]
    change (checkPutReferences tableId self >>= fun _ => pure self) = .ok self
    rw [checkPutReferences_eq_ok h]
    rfl

/-! ## What a restore checks -/

/-- The part of the invariant that a restore establishes. -/
structure Restored (st : InMemoryMvcc) (tableId : TableId) : Prop where
  value : ∀ k t row, st.default.lookup k t = some row →
    RagnorDb.InTable tableId k ∧ t ≠ 0 ∧ DecodableRow row
  lock : ∀ (k : Bytes) l, st.locks[k]? = some l →
    RagnorDb.InTable tableId k ∧ l.txnId ≠ 0 ∧ l.startTimestamp ≠ 0
  write : ∀ k t w, st.writes.lookup k t = some w → RagnorDb.InTable tableId k ∧ w.ValidAt t
  put : ∀ k t w, st.writes.lookup k t = some w → w.op = .put →
    ∃ row, st.default.lookup k w.startTimestamp = some row
  noEmpty : st.NoEmpty

theorem of_restoreDefault {entry : SnapshotProto.DefaultValueEntry}
    {e : Bytes × Timestamp × Bytes} (h : restoreDefault tableId entry = .ok e) :
    RagnorDb.InTable tableId e.1 ∧ e.2.1 ≠ 0 ∧ DecodableRow e.2.2 := by
  simp only [restoreDefault, eq_ok, validateSnapshotRowKey_eq_ok] at h
  obtain ⟨_, hkey, t, -, _, hzero, decoded, hrow, rfl⟩ := h
  exact ⟨hkey, hzero, decoded, hrow⟩

theorem of_restoreLock {entry : SnapshotProto.LockEntry} {e : Bytes × LockRecord}
    (h : restoreLock tableId entry = .ok e) :
    RagnorDb.InTable tableId e.1 ∧ e.2.txnId ≠ 0 ∧ e.2.startTimestamp ≠ 0 := by
  simp only [restoreLock, eq_ok, validateSnapshotRowKey_eq_ok, not_or] at h
  obtain ⟨_, hkey, proto, -, record, -, _, ⟨htxn, hstart⟩, rfl⟩ := h
  exact ⟨hkey, htxn, hstart⟩

theorem of_restoreWrite {entry : SnapshotProto.WriteEntry} {e : Bytes × Timestamp × WriteRecord}
    (h : restoreWrite tableId entry = .ok e) :
    RagnorDb.InTable tableId e.1 ∧ e.2.2.ValidAt e.2.1 := by
  simp only [restoreWrite, eq_ok, validateSnapshotRowKey_eq_ok, validateWriteRecord_eq_ok] at h
  obtain ⟨_, hkey, t, -, proto, -, w, -, _, hvalid, rfl⟩ := h
  exact ⟨hkey, hvalid⟩

theorem restored_of_fromSnapshotTable {table : CapturedMvccState}
    (h : fromSnapshotTable tableId table = .ok self) : self.Restored tableId := by
  simp only [fromSnapshotTable, eq_ok] at h
  obtain ⟨default, hdefault, locks, hlocks, writes, hwrites, _, hput, rfl⟩ := h
  have hvalue := of_collect (P := fun k t row =>
    RagnorDb.InTable tableId k ∧ t ≠ 0 ∧ DecodableRow row) (fun _ _ => of_restoreDefault) hdefault
  have hwrite := of_collect (P := fun k t w => RagnorDb.InTable tableId k ∧ w.ValidAt t)
    (fun _ _ => of_restoreWrite) hwrites
  refine ⟨hvalue.2, of_collect_insert (fun _ _ => of_restoreLock) hlocks, hwrite.2, ?_,
    hvalue.1, hwrite.1⟩
  intro k t w hw hop
  rw [checkPutReferences, forM_eq_ok] at hput
  have hreferences := rejectIf_eq_ok.mp (hput (k, t, w) (mem_entries.mpr hw))
  exact Option.ne_none_iff_exists'.mp fun hnone => hreferences ⟨hop, by simp [hnone]⟩

end InMemoryMvcc

/-! ## What reads need -/

/-- Every Put of a row has its decodable value. -/
structure Cell.Readable (c : Cell) : Prop where
  lock_start : ∀ {l}, c.lock = some l → l.startTimestamp ≠ 0
  write_valid : ∀ {t w}, c.write t = some w → w.ValidAt t
  row : ∀ {s row}, c.value s = some row → DecodableRow row
  put : ∀ {t w}, c.write t = some w → w.op = .put → ∃ row, c.value w.startTimestamp = some row

namespace Cell

variable {c c' : Cell} {call : Call} {op : WriteKind} {startTs commitTs : Timestamp}

/-- A value is put where there is none, or where the same one is. -/
theorem Readable.update (h : c.Readable) {value : Option Bytes}
    (hrow : ∀ row, value = some row → DecodableRow row)
    (hkept : ∀ row, c.value startTs = some row → value = some row) :
    (∀ {s row}, Function.update c.value startTs value s = some row → DecodableRow row) ∧
      ∀ {t w}, c.write t = some w → w.op = .put →
        ∃ row, Function.update c.value startTs value w.startTimestamp = some row := by
  refine ⟨fun {s row} hs => ?_, fun {t w} hw hop => ?_⟩
  · rw [Function.update_apply] at hs
    split at hs
    · exact hrow row hs
    · exact h.row hs
  · obtain ⟨row, hvalue⟩ := h.put hw hop
    refine ⟨row, ?_⟩
    rw [Function.update_apply]
    split
    · next heq => exact hkept row (heq ▸ hvalue)
    · exact hvalue

/-- A committed record is added to a row whose values fit it. -/
theorem Readable.publish (h : c.Readable) {value : Timestamp → Option Bytes} (hs : startTs ≠ 0)
    (hlt : startTs < commitTs) (hrow : ∀ {s row}, value s = some row → DecodableRow row)
    (hput : ∀ {t w}, c.write t = some w → w.op = .put → ∃ row, value w.startTimestamp = some row)
    (hpayload : PayloadOk (value startTs) op) :
    Readable ⟨value, none,
      Function.update c.write commitTs (some ⟨startTs, commitTs, op⟩)⟩ where
  lock_start := nofun
  write_valid {t w} hw := by
    rcases write_cases_of_update hw with ⟨rfl, rfl⟩ | hw
    · exact ⟨rfl, hs, fun hop => absurd hop hpayload.ne_rollback, fun _ => hlt⟩
    · exact h.write_valid hw
  row := hrow
  put {t w} hw hop := by
    rcases write_cases_of_update hw with ⟨rfl, rfl⟩ | hw
    · rw [show op = .put from hop] at hpayload
      obtain ⟨row, hvalue, _⟩ := hpayload
      exact ⟨row, hvalue⟩
    · exact hput hw hop

theorem Readable.step (h : c.Readable) (hstep : c.Step call c') : c'.Readable := by
  cases hstep with
  | @prewrite lock mutation valid kind row history unlocked fresh =>
    obtain ⟨hrow, hput⟩ := h.update row fun _ hvalue => by
      rw [fresh] at hvalue
      cases hvalue
    refine ⟨fun hl => ?_, h.write_valid, hrow, hput⟩
    cases hl
    exact valid.start_ne_zero
  | commit locked txn start after payload history newest =>
    exact h.publish (start ▸ h.lock_start locked) after h.row h.put payload
  | @rollback txnId startTs start_ne_zero undecided vacant owner payload unlocked =>
    refine ⟨nofun, fun hw => ?_, fun hrow => ?_, fun {t w} hw hop => ?_⟩
    · rcases write_cases_of_update hw with ⟨rfl, rfl⟩ | hw
      · exact ⟨rfl, start_ne_zero, fun _ => rfl, fun hop => absurd rfl hop⟩
      · exact h.write_valid hw
    · dsimp only at hrow
      rw [Function.update_apply] at hrow
      split at hrow
      · cases hrow
      · exact h.row hrow
    · rcases write_cases_of_update hw with ⟨rfl, rfl⟩ | hw
      · cases hop
      · -- a Put that was committed at this start would have refused the rollback
        have hne : w.startTimestamp ≠ startTs := fun hstart => by
          cases hop.symm.trans (undecided t w hw hstart)
        dsimp only
        rw [Function.update_of_ne hne]
        exact h.put hw hop
  | @direct txnId startTs commitTs mutation start_ne_zero after row owner kind payload history
      newest =>
    obtain ⟨hrow, hput⟩ := h.update row payload
    refine h.publish start_ne_zero after hrow hput ?_
    rw [Function.update_self]
    exact payloadOk_row row

end Cell

namespace InMemoryMvcc

variable {self : InMemoryMvcc} {tableId : TableId} {k : Bytes}

/-- A store that answers every read. -/
structure Readable (st : InMemoryMvcc) : Prop where
  cell : ∀ k, (st.cell k).Readable
  noEmpty : st.NoEmpty

theorem Restored.readable (h : self.Restored tableId) : self.Readable where
  cell k := {
    lock_start := fun hl => (h.lock k _ hl).2.2
    write_valid := fun hw => (h.write k _ _ hw).2
    row := fun hrow => (h.value k _ _ hrow).2.2
    put := fun hw hop => h.put k _ _ hw hop }
  noEmpty := h.noEmpty

theorem Readable.after (h : self.Readable) (op : MvccOp) : (op.after self).Readable := by
  unfold MvccOp.after Checked.after
  cases hx : op.exec.run self with
  | error e next =>
    cases MvccOp.exec_error op self e next hx
    exact h
  | ok _ next =>
    have ha := MvccOp.answered_of_valid (fun k _ _ => (h.cell k).write_valid) h.noEmpty hx
    refine ⟨fun k => ?_, ha.noEmpty⟩
    cases hc : op.call k with
    | none =>
      rw [ha.frame hc]
      exact h.cell k
    | some =>
      rcases (ha.answers hc).2 with hstep | ⟨_, hsame⟩
      · exact (h.cell k).step hstep
      · rw [hsame]
        exact h.cell k

theorem Readable.afterAll (h : self.Readable) (ops : List MvccOp) :
    (MvccOp.afterAll ops self).Readable := by
  induction ops generalizing self with
  | nil => exact h
  | cons op ops ih => exact ih (h.after op)

theorem Readable.exists_visibleVersion (h : self.Readable) {l : List (Timestamp × WriteRecord)}
    (hl : ∀ e ∈ l, self.writes.lookup k e.1 = some e.2) : ∃ v, self.visibleVersion k l = .ok v := by
  induction l with
  | nil => exact ⟨none, rfl⟩
  | cons e older ih =>
    obtain ⟨t, w⟩ := e
    have hw : self.writes.lookup k t = some w := hl (t, w) (by simp)
    have hvalid := validateWriteRecord_eq_ok (u := ()).mpr ((h.cell k).write_valid hw)
    rw [visibleVersion, hvalid, ok_bind]
    cases hop : w.op with
    | put =>
      obtain ⟨row, hrow⟩ := (h.cell k).put hw hop
      obtain ⟨decoded, hdecoded⟩ := (h.cell k).row hrow
      have hrow : self.default.lookup k w.startTimestamp = some row := hrow
      exact ⟨some row, by simp [hrow, okOr, hdecoded]⟩
    | delete => exact ⟨none, rfl⟩
    | rollback => exact ih fun e he => hl e (List.mem_cons_of_mem _ he)

theorem Readable.read_ne (h : self.Readable) (k : Bytes) (r : Timestamp) (text : String) :
    self.read k r ≠ .error (.corruptData text) := by
  have hvisible : ∀ versions, self.writes[k]? = some versions → ∃ v, self.visibleVersion k
      (versions.toList.filter fun e => e.1 ≤ r).reverse = .ok v := by
    intro versions hversions
    refine h.exists_visibleVersion fun e he => ?_
    rw [lookup_of_getElem? hversions]
    exact ExtTreeMap.mem_toList_iff_getElem?_eq_some.mp
      (List.mem_of_mem_filter (List.mem_reverse.mp he))
  have hfails : FailsWith (fun e => e ≠ .corruptData text) (self.read k r) := by
    simp only [read, readVisibleVersion, validateEncodedKeyArgument, failsWith_iff]
    refine ⟨by simp, fun _ _ => ⟨?_, fun _ _ => ?_⟩⟩
    · split <;> simp [lockConflict]
    · split
      · exact failsWith_pure
      · next versions hversions =>
          obtain ⟨v, hv⟩ := hvisible versions hversions
          exact failsWith_of_ok hv
  exact fun htext => hfails _ htext rfl

/-- A restore checks keys, rows, locks, write records and the rows of committed Puts.  This is
enough for reads: none reports corrupt data, whatever operations come in between. -/
theorem restored_store_reads {defaultValues : List SnapshotProto.DefaultValueEntry}
    {locks : List SnapshotProto.LockEntry} {writes : List SnapshotProto.WriteEntry}
    (h : restoreFromSnapshotEntries tableId defaultValues locks writes = .ok self) :
    self.Restored tableId ∧ ∀ ops k r text,
      (MvccOp.afterAll ops self).read k r ≠ .error (.corruptData text) := by
  have hrestored := restored_of_fromSnapshotTable h
  exact ⟨hrestored, fun ops => (hrestored.readable.afterAll ops).read_ne⟩

/-! ## Entries that do not fit together -/

def sampleValue (startTs : Timestamp) : SnapshotProto.DefaultValueEntry :=
  ⟨sampleKey, some startTs, sampleRow⟩

/-- A Put lock of the transaction that starts at the timestamp. -/
def sampleLock (startTs : Timestamp) : SnapshotProto.LockEntry :=
  ⟨sampleKey, some ⟨some 5, sampleKey, some startTs, 100, 1⟩⟩

def sampleWrite (t : Timestamp) (op : WriteKind) : SnapshotProto.WriteEntry :=
  ⟨sampleKey, some t, (WriteRecord.toProto ⟨5, t, op⟩).toOption⟩

theorem exists_restored {defaultValues : List SnapshotProto.DefaultValueEntry}
    {locks : List SnapshotProto.LockEntry} {writes : List SnapshotProto.WriteEntry}
    {P : InMemoryMvcc → Prop} [DecidablePred P]
    (h : (restoreFromSnapshotEntries 1 defaultValues locks writes).toOption.any (P ·) = true) :
    ∃ st, restoreFromSnapshotEntries 1 defaultValues locks writes = .ok st ∧ P st := by
  obtain ⟨st, hst, hP⟩ := (Option.any_eq_true _ _).mp h
  exact ⟨st, toOption_eq_some.mp hst, of_decide_eq_true hP⟩

/-- The restore accepts a Put lock without its value, a value that nothing refers to, two outcomes
of one start, and a lock beside the rollback marker of its start.  An operation of the transaction
then reports corrupt data. -/
theorem restore_accepts_unfit_entries :
    (∃ st, restoreFromSnapshotEntries 1 [] [sampleLock 5] [] = .ok st ∧
      st.default.lookup sampleKey 5 = none ∧
      answer (MvccOp.exec (.commitIntent 5 5 6 sampleKey)) st =
        .error (.corruptData "transaction 5 has a Put lock without its default value") ∧
      answer (MvccOp.exec (.rollbackIntent 5 5 sampleKey)) st =
        .error (.corruptData "transaction 5 has a Put lock without its default value")) ∧
    (∃ st, restoreFromSnapshotEntries 1 [sampleValue 5] [] [] = .ok st ∧
      st.default.lookup sampleKey 5 = some sampleRow ∧ st.locks = ∅ ∧ st.writes.entries = [] ∧
      answer (MvccOp.exec (.rollbackIntent 5 5 sampleKey)) st = .error
        (.corruptData "transaction 5 has a default value without a matching Put lock")) ∧
    (∃ st, restoreFromSnapshotEntries 1 [sampleValue 5] []
        [sampleWrite 6 .put, sampleWrite 7 .put] = .ok st ∧
      st.writes.lookup sampleKey 6 = some ⟨5, 6, .put⟩ ∧
      st.writes.lookup sampleKey 7 = some ⟨5, 7, .put⟩ ∧
      answer (MvccOp.exec (.commitIntent 5 5 6 sampleKey)) st = .error (.corruptData
        ("transaction starting at timestamp 5 has multiple durable outcomes at write timestamps " ++
          "6 and 7"))) ∧
    ∃ st, restoreFromSnapshotEntries 1 [] [sampleLock 5] [sampleWrite 5 .rollback] = .ok st ∧
      st.locks[sampleKey]? = some ⟨5, sampleKey, 5, 100, .put⟩ ∧
      st.writes.lookup sampleKey 5 = some ⟨5, 5, .rollback⟩ ∧
      answer (MvccOp.exec (.rollbackIntent 5 5 sampleKey)) st = .error
        (.corruptData "rolled-back transaction at timestamp 5 retains intent state") := by
  refine ⟨exists_restored ?_, exists_restored ?_, exists_restored ?_, exists_restored ?_⟩ <;>
    decide +kernel

/-- A committed row and an intent above it are restored.  The intent is rolled back, and the row is
read. -/
theorem restored_store_reads_sample :
    ∃ st, restoreFromSnapshotEntries 1 [sampleValue 5, sampleValue 8] [sampleLock 8]
        [sampleWrite 6 .put] = .ok st ∧
      (MvccOp.afterAll [.rollbackIntent 5 8 sampleKey] st).read sampleKey 9 =
        .ok (some sampleRow) ∧
      st.Restored 1 ∧
      ∀ r text, (MvccOp.afterAll [.rollbackIntent 5 8 sampleKey] st).read sampleKey r ≠
        .error (.corruptData text) := by
  have hsample : ∃ st, restoreFromSnapshotEntries 1 [sampleValue 5, sampleValue 8] [sampleLock 8]
        [sampleWrite 6 .put] = .ok st ∧
      (MvccOp.afterAll [.rollbackIntent 5 8 sampleKey] st).read sampleKey 9 =
        .ok (some sampleRow) :=
    exists_restored (by decide +kernel)
  obtain ⟨st, hst, hread⟩ := hsample
  exact ⟨st, hst, hread, (restored_store_reads hst).1, (restored_store_reads hst).2 _ _⟩

end InMemoryMvcc

end RagnorDb
