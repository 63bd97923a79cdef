import RagnorDb.Lib.Loop
import RagnorDb.Storage.Cell
import RagnorDb.Storage.MvccScan
import RagnorDb.Storage.RowKey
import RagnorDb.Tablet.StateMachine
import RagnorDb.Txn.Transaction

/-!
# The local tablet

`Tablet` of `ragnordb-tablet`: the domain rows of one table over one MVCC store, read through a
transaction's pending writes.  A scan merges the ordered pending writes with storage pages that
are fetched when the previous one is used up.
-/

namespace RagnorDb

open Std Checked OrderedMap OrderedRows InMemoryMvcc

/-- One bounded tablet scan response. -/
structure TabletScanPage where
  rows : List (RowKey × Row)
  hasMore : Bool
  deriving DecidableEq

def decodeTransactionRowKey (key : Bytes) : Except Error RowKey :=
  (decodeRowKey key).mapError fun error => .invalidArgument
    s!"transaction contains a noncanonical encoded row key: {error.display}"

/-- What a transaction sees of committed values through its pending writes. -/
def overlay (writes : Mutations) (committed : Bytes → Option Bytes) (key : Bytes) : Option Bytes :=
  writes[key]?.elim (committed key) Mutation.row?

/-- The state of the loop of `Tablet::scan_page`; `storage` holds the rows of the current storage
page that are not merged yet. -/
structure ScanMerge where
  pending : List (Bytes × Mutation)
  page : MvccScanPage
  storage : List (Bytes × Bytes)
  rows : List (RowKey × Row)
  encodedBytes : Nat

/-- What `Tablet::scan_page` is asked for, with encoded bounds. -/
structure TabletScanBounds where
  start : Option Bytes
  stop : Option Bytes
  maxRows : Nat
  maxBytes : Nat

namespace Tablet

variable (self : Tablet)

def validateRowKey (key : RowKey) : Except Error Unit :=
  rejectIf (key.tableId ≠ self.tableId) (.invalidArgument
    (s!"row belongs to table {key.tableId}, but tablet {self.id} owns table " ++
      s!"{self.tableId}"))

/-- One iteration of the loop of `scan_page`. -/
def mergeStep (transaction : Transaction) (bounds : TabletScanBounds) (state : ScanMerge) :
    Except Error (ScanMerge ⊕ TabletScanPage) :=
  if state.storage = [] ∧ state.page.hasMore then do
    let last ← okOr state.page.rows.getLast?
      (.corruptData "MVCC scan page reported more rows without a continuation key")
    let page ← self.storage.scanPage bounds.start bounds.stop (some last.1) transaction.startTs
      bounds.maxRows u64Max
    rejectIf (page.rows = [] ∧ page.hasMore)
      (.corruptData "MVCC scan page made no progress while reporting more rows")
    return .inl { state with page, storage := page.rows }
  else
    match mergeNext compare state.pending state.storage with
    | none => return .inr ⟨state.rows, false⟩
    | some (key, mutation, stored, pending, storage) =>
      match mutation.elim stored Mutation.row? with
      | none => return .inl { state with pending, storage }
      | some row => do
        let rowBytes ← okOr (checkedAdd key.length row.length) scanBytesOverflowed
        let nextBytes ← okOr (checkedAdd state.encodedBytes rowBytes) scanBytesOverflowed
        if bounds.maxRows ≤ state.rows.length ∨ bounds.maxBytes < nextBytes then do
          rejectIf (state.rows = []) scanRowTooLarge
          return .inr ⟨state.rows, true⟩
        else do
          let rowKey ← decodeRowKey key
          self.validateRowKey rowKey
          let decoded ← decodeRow row
          return .inl { state with
            pending, storage, rows := state.rows ++ [(rowKey, decoded)]
            encodedBytes := nextBytes }

/-- The keys behind the current storage page. -/
def unscanned (bounds : TabletScanBounds) (page : MvccScanPage) : Nat :=
  if page.hasMore then
    1 + 2 * (page.rows.getLast?.elim 0 fun last =>
      (self.storage.scanKeys bounds.start bounds.stop (some last.1)).length)
  else 0

def mergeMeasure (bounds : TabletScanBounds) (state : ScanMerge) : Nat :=
  state.pending.length + state.storage.length + self.unscanned bounds state.page

/-- What one iteration can do. -/
inductive MergeOutcome (self : Tablet) (transaction : Transaction) (bounds : TabletScanBounds)
    (state : ScanMerge) : ScanMerge ⊕ TabletScanPage → Prop where
  | fetch {last : Bytes × Bytes} {page : MvccScanPage} (hstorage : state.storage = [])
      (hmore : state.page.hasMore = true) (hlast : state.page.rows.getLast? = some last)
      (hpage : self.storage.scanPage bounds.start bounds.stop (some last.1) transaction.startTs
        bounds.maxRows u64Max = .ok page) :
      MergeOutcome self transaction bounds state (.inl { state with page, storage := page.rows })
  | skip {key : Bytes} {mutation : Option Mutation} {stored : Option Bytes}
      {pending : List (Bytes × Mutation)} {storage : List (Bytes × Bytes)}
      (hready : state.storage = [] → state.page.hasMore = false)
      (hnext : mergeNext compare state.pending state.storage =
        some (key, mutation, stored, pending, storage))
      (hrow : mutation.elim stored Mutation.row? = none) :
      MergeOutcome self transaction bounds state (.inl { state with pending, storage })
  | take {key row : Bytes} {mutation : Option Mutation} {stored : Option Bytes}
      {pending : List (Bytes × Mutation)} {storage : List (Bytes × Bytes)} {rowKey : RowKey}
      {decoded : Row} {encodedBytes : Nat} (hready : state.storage = [] →
        state.page.hasMore = false)
      (hnext : mergeNext compare state.pending state.storage =
        some (key, mutation, stored, pending, storage))
      (hrow : mutation.elim stored Mutation.row? = some row)
      (hkey : decodeRowKey key = .ok rowKey) (hid : rowKey.tableId = self.tableId)
      (hdecoded : decodeRow row = .ok decoded) :
      MergeOutcome self transaction bounds state (.inl { state with
        pending, storage, rows := state.rows ++ [(rowKey, decoded)], encodedBytes })
  | exhausted (hready : state.storage = [] → state.page.hasMore = false)
      (hnext : mergeNext compare state.pending state.storage = none) :
      MergeOutcome self transaction bounds state (.inr ⟨state.rows, false⟩)
  | full (hne : state.rows ≠ []) :
      MergeOutcome self transaction bounds state (.inr ⟨state.rows, true⟩)

variable {self} {transaction : Transaction} {bounds : TabletScanBounds}

theorem mergeStep_cases {state : ScanMerge} {outcome : ScanMerge ⊕ TabletScanPage}
    (h : self.mergeStep transaction bounds state = .ok outcome) :
    MergeOutcome self transaction bounds state outcome := by
  unfold mergeStep at h
  split at h
  · rename_i hfetch
    simp only [eq_ok'] at h
    obtain ⟨last, hlast, page, hpage, _, rfl⟩ := h
    exact .fetch hfetch.1 hfetch.2 hlast hpage
  · rename_i hmerge
    have hready : state.storage = [] → state.page.hasMore = false := fun hempty =>
      Bool.eq_false_iff.mpr fun hmore => hmerge ⟨hempty, hmore⟩
    split at h
    · rename_i hnext
      cases h
      exact .exhausted hready hnext
    · rename_i key mutation stored pending storage hnext
      split at h
      · rename_i hrow
        cases h
        exact .skip hready hnext hrow
      · rename_i row hrow
        simp only [eq_ok] at h
        obtain ⟨rowBytes, _, nextBytes, _, h⟩ := h
        split at h
        · simp only [eq_ok'] at h
          obtain ⟨hne, rfl⟩ := h
          exact .full hne
        · simp only [eq_ok', validateRowKey] at h
          obtain ⟨rowKey, hkey, hid, decoded, hdecoded, rfl⟩ := h
          exact .take hready hnext hrow hkey hid hdecoded

/-- A fetched page leaves less to fetch than it brings. -/
theorem length_rows_add_unscanned {last : Bytes} {page : MvccScanPage}
    (h : self.storage.scanPage bounds.start bounds.stop (some last) transaction.startTs
      bounds.maxRows u64Max = .ok page) :
    page.rows.length + self.unscanned bounds page ≤
      2 * (self.storage.scanKeys bounds.start bounds.stop (some last)).length := by
  unfold unscanned
  cases hrows : page.rows.getLast? with
  | none =>
    have hempty := List.getLast?_eq_none_iff.mp hrows
    have hmore := Bool.eq_false_iff.mpr fun hmore => (reads_scanPage h).2 hmore hempty
    simp [hempty, hmore]
  | some =>
    have hle := length_rows_add_length_scanKeys h hrows
    have hpositive : 0 < page.rows.length :=
      List.length_pos_of_mem (List.mem_of_getLast? hrows)
    split
    · simp only [Option.elim_some]
      omega
    · omega

variable (self transaction bounds) in
theorem mergeStep_decreases :
    Loop.Decreases (self.mergeStep transaction bounds) (self.mergeMeasure bounds) := by
  intro state next h
  unfold mergeMeasure
  cases mergeStep_cases h with
  | @fetch last _ hstorage hmore hlast hpage =>
    have hle := length_rows_add_unscanned hpage
    have hold : self.unscanned bounds state.page = 1 + 2 *
        (self.storage.scanKeys bounds.start bounds.stop (some last.1)).length := by
      rw [unscanned, if_pos hmore, hlast]
      rfl
    simp only
    omega
  | skip _ hnext | take _ hnext => exact Nat.add_lt_add_right (length_mergeNext hnext) _

variable (self)

/-- Scan one bounded page while preserving read-your-writes semantics. -/
def scanPage (transaction : Transaction) (start stop resumeAfter : Option RowKey)
    (maxRows maxBytes : Nat) : Except Error TabletScanPage := do
  validateScanPageLimits maxRows maxBytes
  start.toList.forM self.validateRowKey
  stop.toList.forM self.validateRowKey
  resumeAfter.toList.forM self.validateRowKey
  let start ← start.mapM encodeRowKey
  let stop ← stop.mapM encodeRowKey
  let resumeAfter ← resumeAfter.mapM encodeRowKey
  validateScanOrder start stop
  if resumeAfter.any fun resumeAfter => !beforeEnd stop resumeAfter then
    return ⟨[], false⟩
  else do
    -- Foreign or malformed pending keys fail the scan even outside of its bounds.
    transaction.writes.keys.forM fun key => do
      let rowKey ← decodeTransactionRowKey key
      self.validateRowKey rowKey
    let pending := transaction.writes.toList.filter fun entry =>
      scanAdmits start stop resumeAfter entry.1
    let page ← self.storage.scanPage start stop resumeAfter transaction.startTs maxRows u64Max
    let bounds : TabletScanBounds := { start, stop, maxRows, maxBytes }
    Loop.run (self.mergeStep transaction bounds) (self.mergeMeasure bounds)
      (self.mergeStep_decreases transaction bounds)
      { pending, page, storage := page.rows, rows := [], encodedBytes := 0 }

end Tablet

end RagnorDb
