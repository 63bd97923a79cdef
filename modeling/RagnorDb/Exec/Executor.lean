import RagnorDb.Exec.RowChecks
import RagnorDb.Tablet.LocalTablet

/-!
# The SQL executor

What a distributed scan takes from the executor of `ragnordb-exec`: the tablets that are installed
locally, and the transaction's pending writes put over the collected rows.  Local scans, point reads
and the `INSERT`, `UPDATE` and `DELETE` statements are not modelled.
-/

namespace RagnorDb

open Std Checked OrderedMap

/-- The executor, with the tablets that are installed here. -/
structure Executor where
  tablets : ExtTreeMap TableId Tablet compare

def tabletScanPageRows : Nat := 1024
def tabletScanPageBytes : Nat := 256 * 1024

/-- The pending write of one key over the collected rows of a distributed scan. -/
def overlayCollected (tableId : TableId) (rows : ExtTreeMap Bytes Row compare)
    (entry : Bytes × Mutation) : Except Error (ExtTreeMap Bytes Row compare) := do
  let rowKey ← decodeRowKey entry.1
  if rowKey.tableId ≠ tableId then return rows
  else
    match entry.2 with
    | .put row => return rows.insert entry.1 (← decodeRow row)
    | .delete => return rows.erase entry.1

/-- The collected rows of a distributed scan under the transaction's deterministic write set. -/
def overlayRows (transaction : Transaction) (tableId : TableId)
    (committedRows : ExtTreeMap Bytes Row compare) : Except Error (List KeyedRow) := do
  let rows ← transaction.writes.toList.foldlM (overlayCollected tableId) committedRows
  rows.toList.mapM fun (encodedKey, row) => do
    return (← decodeRowKey encodedKey, row)

namespace Executor

variable (self : Executor)

def isLocalCompatibilityRoute (tableId : TableId) (tabletId : TabletId) : Prop :=
  tableId ∈ self.tablets ∧ tabletId = tableId

instance (tableId : TableId) (tabletId : TabletId) :
    Decidable (self.isLocalCompatibilityRoute tableId tabletId) :=
  inferInstanceAs (Decidable (_ ∧ _))

variable (tableId : TableId)

def missingLocalCoordinator : Error :=
  .corruptData s!"catalog table {tableId} has no local commit coordinator"

/-- A local tablet has the identity of its table. -/
def localTabletId : Except Error TabletId := do
  let _ ← okOr self.tablets[tableId]? (missingLocalCoordinator tableId)
  return tableId

def localTabletForRoute (tabletId : TabletId) : Except Error Tablet := do
  let localTabletId ← self.localTabletId tableId
  rejectIf (tabletId ≠ localTabletId) (.unsupportedSql
    s!"tablet {tabletId} for table {tableId} is not installed on this local executor")
  okOr self.tablets[tableId]? (missingLocalCoordinator tableId)

end Executor

end RagnorDb
