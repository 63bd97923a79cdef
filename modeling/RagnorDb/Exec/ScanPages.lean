import RagnorDb.Exec.Reading
import RagnorDb.Exec.ScanCover

/-!
# Truthful pages

What an owner answers from the content of a table: the next rows of a fragment, in key order and
within the limits of a page.  Such a page passes the checks of the scan, and its rows are collected
unless one of them was collected before.
-/

namespace RagnorDb

open Std Checked OrderedMap OrderedRows

/-- The rows of a table by primary key, all of them canonical. -/
structure TableContent where
  rows : ExtTreeMap Bytes Bytes compare
  decode_key : ∀ key ∈ rows, ∃ values, decodePrimaryKey key = .ok values
  decode_row : ∀ (key row : Bytes), rows[key]? = some row → ∃ decoded, decodeRow row = .ok decoded

def TabletScanRow.entry (row : TabletScanRow) : Bytes × Bytes := (row.key, row.row)

namespace TabletScanBatch

/-- The keys that a batch accounts for: all of them, or those up to its last row. -/
def Covers (batch : TabletScanBatch) (key : Bytes) : Prop :=
  batch.exhausted = false → ∀ last ∈ batch.rows.getLast?, (compare key last.key).isLE = true

/-- The batch holds the next rows of a region, without intents and within the limits of a page. -/
structure Answers (batch : TabletScanBatch) (content : TableContent) (region : Bytes → Prop) :
    Prop where
  intents_eq : batch.intents = []
  reads : Reads compare (fun key => content.rows[key]?) (fun key => region key ∧ batch.Covers key)
    (batch.rows.map TabletScanRow.entry)
  rows_ne_nil : batch.exhausted = false → batch.rows ≠ []
  cursor : batch.nextResumeAfter =
    if batch.exhausted then none else batch.rows.getLast?.map (·.key)
  length_le : batch.rows.length ≤ tabletScanPageRows
  byteLen_le : (batch.rows.map TabletScanRow.byteLen).sum ≤ tabletScanPageBytes

end TabletScanBatch

/-! ## Page checks -/

section Checks

variable {content : TableContent} {partitioning : Partitioning} {pending : PendingScanFragment}
  {batch : TabletScanBatch} {requestId : RequestId} {readTs : Timestamp} {key : Bytes}

/-- A fragment that a request can be made for. -/
structure PendingScanFragment.Valid (pending : PendingScanFragment) : Prop where
  route : pending.route.route.validate = .ok ()
  span : pending.route.span.lower < pending.route.span.upper
  cursor : ∀ last ∈ pending.resumeAfter, .key last ∈ pending.route.span.points

/-- A request identity without reserved values. -/
structure RequestId.Usable (requestId : RequestId) : Prop where
  clientId : requestId.clientId.val ≠ 0
  sequence : requestId.sequence ≠ 0
  raftGroupId : requestId.raftGroupId ≠ 0

theorem PendingScanFragment.Valid.validate_request (valid : pending.Valid) (hid : requestId.Usable)
    (hts : readTs ≠ 0) :
    (DistributedScan.validationRequest requestId pending readTs).validate = .ok () := by
  obtain ⟨_, htablet, hepoch⟩ := TabletRoute.ids_of_validate valid.route
  have hrows : ¬ tabletScanPageRows = 0 ∧ ¬ maxTabletScanRows < tabletScanPageRows := by decide
  have hbytes : ¬ tabletScanPageBytes = 0 ∧ ¬ maxTabletScanBytes < tabletScanPageBytes := by decide
  simp only [TabletScanRequest.validate, eq_ok, exists_unit, Option.any_eq_true, not_exists,
    not_and]
  refine ⟨⟨hid.clientId, hid.sequence, hid.raftGroupId, htablet, hepoch⟩, hts, hrows,
    hbytes, ?_, ?_, ?_, Option.some_ne_none _ ∘ Eq.symm, Option.some_ne_none _ ∘ Eq.symm⟩
  · intro startKey hstart endKey hend
    have hlt := valid.span
    rw [ScanSpan.lower_of_startKey hstart, ScanSpan.upper_of_endKey hend] at hlt
    simpa using hlt
  · intro last hlast startKey hstart
    have hle := (ScanSpan.key_mem_points.mp (valid.cursor last hlast)).1 startKey hstart
    rw [beq_iff_eq]
    intro hlt
    rw [OrientedCmp.gt_of_lt hlt] at hle
    cases hle
  · intro last hlast endKey hend
    have hlt := (ScanSpan.key_mem_points.mp (valid.cursor last hlast)).2 endKey hend
    simp [hlt]

section

variable (answers : batch.Answers content (pending.Owes partitioning))
include answers

theorem TabletScanBatch.Answers.owes {row : TabletScanRow} (hrow : row ∈ batch.rows) :
    pending.Owes partitioning row.key ∧ content.rows[row.key]? = some row.row := by
  obtain ⟨⟨howes, _⟩, hcontent⟩ :=
    (answers.reads.mem row.key row.row).mp (List.mem_map.mpr ⟨row, hrow, rfl⟩)
  exact ⟨howes, hcontent⟩

theorem TabletScanBatch.Answers.validate_eq_ok : batch.validate = .ok () := by
  have hordered : Ordered (batch.rows.map (·.key)) := by
    refine List.Pairwise.isChain ?_
    simpa [List.pairwise_map, TabletScanRow.entry] using answers.reads.sorted
  have hcursor : batch.validateRowCursor = .ok () := by
    rw [validateRowCursor, answers.cursor]
    cases hexhausted : batch.exhausted with
    | true => cases batch.rows.getLast? <;> rfl
    | false =>
      rw [List.getLast?_eq_some_getLast (answers.rows_ne_nil hexhausted)]
      simp
  simp only [validate, answers.intents_eq, eq_ok, exists_unit, forM_eq_ok]
  exact ⟨hordered, .nil, by simp, by simpa using hcursor⟩

/-- A truthful page passes the checks of the scan. -/
theorem TabletScanBatch.Answers.validateFor_eq_ok {lockLen : LockRecord → Nat}
    (valid : pending.Valid) (hid : requestId.Usable) (hts : readTs ≠ 0) :
    batch.validateFor lockLen (DistributedScan.validationRequest requestId pending readTs) =
      .ok () := by
  simp only [validateFor, valid.validate_request hid hts, answers.validate_eq_ok,
    answers.intents_eq, ok_bind, eq_ok, exists_unit, forM_eq_ok]
  refine ⟨?_, ?_, ?_, ?_, ?_, ?_⟩
  · exact Nat.not_lt.mpr (max_le answers.length_le (Nat.zero_le _))
  · rw [byteLen, answers.intents_eq, List.map_nil, List.append_nil]
    exact Nat.not_lt.mpr answers.byteLen_le
  · simp [validateMode, DistributedScan.validationRequest, answers.intents_eq]
  · intro row hrow
    obtain ⟨⟨hholds, hbehind⟩, _⟩ := answers.owes hrow
    obtain ⟨hstart, hend⟩ := ScanSpan.key_mem_points.mp hholds.1
    simp only [TabletScanRequest.checkKey, eq_ok, exists_unit, Option.any_eq_true, not_exists,
      not_and]
    refine ⟨?_, ?_, ?_⟩
    · intro startKey hstartKey
      rw [beq_iff_eq]
      intro hlt
      have hle := hstart startKey hstartKey
      rw [OrientedCmp.gt_of_lt hlt] at hle
      cases hle
    · intro endKey hendKey
      simp [hend endKey hendKey]
    · intro last hlast
      simp [OrientedCmp.gt_of_lt (hbehind last hlast)]
  · simp
  · rw [answers.cursor, Option.any_eq_true]
    rintro ⟨cursor, hcursor, hbeyond⟩
    split at hcursor
    · cases hcursor
    · obtain ⟨last, hlast, rfl⟩ := Option.map_eq_some_iff.mp hcursor
      rw [Option.any_eq_true] at hbeyond
      obtain ⟨endKey, hendKey, hbeyond⟩ := hbeyond
      obtain ⟨⟨hholds, _⟩, _⟩ := answers.owes (List.mem_of_getLast? hlast)
      have hlt := (ScanSpan.key_mem_points.mp hholds.1).2 endKey hendKey
      simp [hlt] at hbeyond

end

end Checks

/-! ## Collecting rows -/

/-- Where the store keeps the row of a primary key. -/
def storedKey (tableId : TableId) (key : Bytes) : Bytes :=
  rowKeyNamespace :: toBeBytes 8 tableId ++ key

theorem storedKey_inj {tableId : TableId} {key other : Bytes} :
    storedKey tableId key = storedKey tableId other ↔ key = other := by
  simp [storedKey]

section Collect

variable {scan : DistributedScan} {content : TableContent} {row : TabletScanRow}
  {rows : List TabletScanRow}

theorem TableContent.encodeRowKey_eq_ok {tableId : TableId} {key : Bytes} (hid : tableId ≠ 0)
    (hkey : key ∈ content.rows) : encodeRowKey ⟨tableId, key⟩ = .ok (storedKey tableId key) :=
  RowKey.encodeRowKey_eq_ok.mpr ⟨hid, content.decode_key key hkey, rfl⟩

section

variable (tabletId : TabletId) (committedRows : ExtTreeMap Bytes Row compare)
  (hid : scan.tableId ≠ 0)
include tabletId committedRows hid

theorem collectRow_eq (hrow : content.rows[row.key]? = some row.row) :
    ∃ decoded, decodeRow row.row = .ok decoded ∧
      scan.collectRow tabletId committedRows row =
        if storedKey scan.tableId row.key ∈ committedRows then
          .error (scanFailure tabletId
            (.corruptData "distributed scan returned the same logical row more than once"))
        else .ok (committedRows.insert (storedKey scan.tableId row.key) decoded) := by
  obtain ⟨decoded, hdecoded⟩ := content.decode_row _ _ hrow
  have hencoded := content.encodeRowKey_eq_ok hid (mem_of_getElem? hrow)
  refine ⟨decoded, hdecoded, ?_⟩
  simp only [DistributedScan.collectRow, hencoded, hdecoded, ok_bind, rejectIf]
  split <;> rfl

/-- The rows of a page are collected, unless one of them was collected before. -/
theorem foldlM_collectRow (hrows : ∀ row ∈ rows, content.rows[row.key]? = some row.row)
    (hnodup : (rows.map (·.key)).Nodup) :
    ((∃ row ∈ rows, storedKey scan.tableId row.key ∈ committedRows) ∧
      ∃ error, rows.foldlM (scan.collectRow tabletId) committedRows = .error error) ∨
    ((∀ row ∈ rows, storedKey scan.tableId row.key ∉ committedRows) ∧
      ∃ next, rows.foldlM (scan.collectRow tabletId) committedRows = .ok next ∧
        ∀ (bytes : Bytes) (decoded : Row), next[bytes]? = some decoded ↔
          committedRows[bytes]? = some decoded ∨
          ∃ row ∈ rows, bytes = storedKey scan.tableId row.key ∧
            decodeRow row.row = .ok decoded) := by
  induction rows generalizing committedRows with
  | nil => exact .inr ⟨by simp, committedRows, rfl, by simp⟩
  | cons row rows ih =>
    obtain ⟨hrow, hrows⟩ := List.forall_mem_cons.mp hrows
    obtain ⟨hnew, hnodup⟩ := List.nodup_cons.mp hnodup
    obtain ⟨decoded, hdecoded, hstep⟩ :=
      collectRow_eq tabletId committedRows hid hrow
    by_cases hmem : storedKey scan.tableId row.key ∈ committedRows
    · rw [if_pos hmem] at hstep
      refine .inl ⟨⟨row, List.mem_cons_self, hmem⟩, ?_⟩
      rw [List.foldlM_cons, hstep]
      exact ⟨_, rfl⟩
    · rw [if_neg hmem] at hstep
      have hother : ∀ other ∈ rows, storedKey scan.tableId other.key ∈
          committedRows.insert (storedKey scan.tableId row.key) decoded ↔
          storedKey scan.tableId other.key ∈ committedRows := by
        intro other hother
        rw [ExtTreeMap.mem_insert, LawfulEqCmp.compare_eq_iff_eq, storedKey_inj]
        exact or_iff_right fun heq => hnew (List.mem_map.mpr ⟨other, hother, heq.symm⟩)
      rw [List.foldlM_cons, hstep, ok_bind]
      rcases ih (committedRows.insert (storedKey scan.tableId row.key) decoded) hrows hnodup with
        ⟨⟨other, hmember, hcollected⟩, herror⟩ | ⟨hnone, next, hnext, hread⟩
      · exact .inl ⟨⟨other, List.mem_cons_of_mem _ hmember, (hother other hmember).mp hcollected⟩,
          herror⟩
      · refine .inr ⟨List.forall_mem_cons.mpr ⟨hmem, fun other hmember =>
          (hother other hmember).not.mp (hnone other hmember)⟩, next, hnext, ?_⟩
        intro bytes found
        rw [hread, List.exists_mem_cons_iff, getElem?_insert]
        by_cases hbytes : storedKey scan.tableId row.key = bytes
        · have habsent : committedRows[bytes]? = none := by
            rw [← hbytes]
            exact ExtTreeMap.getElem?_eq_none hmem
          rw [if_pos hbytes, habsent, hdecoded]
          simp [hbytes]
        · simp [hbytes, Ne.symm hbytes]

end

end Collect

end RagnorDb
