import RagnorDb.Exec.Expression
import RagnorDb.Lib.OrderedMap
import RagnorDb.Storage.RowKey

/-!
# Rows and plans against a schema

The pure checks of the SQL executor: bound columns against the published schema, stored rows
against its columns, the row key of a row, and the choice between a point lookup and
a scan.
-/

namespace RagnorDb

open Std Checked OrderedMap

/-- One row and its stable primary-key identity. -/
abbrev KeyedRow := RowKey × Row

def valueMatchesType : Value → DataType → Bool
  | .int _, .int | .text _, .text | .bool _, .bool => true
  | _, _ => false

def dataTypeName : DataType → String
  | .int => "INT"
  | .text => "TEXT"
  | .bool => "BOOL"

namespace TableSchema

variable (self : TableSchema)

def columnById (id : ColumnId) : Option ColumnSchema :=
  self.columns.find? (·.id = id)

/-- The row-layout ordinal of a stable column identifier. -/
def columnOrdinal (id : ColumnId) : Option Nat :=
  self.columns.findIdx? (·.id = id)

def missingPrimaryKeyColumn (id : ColumnId) : Error :=
  .schemaMismatch s!"table {self.name} references missing primary-key column ID {id}"

/-- Resolve the primary-key columns in key-encoding order. -/
def primaryKeyColumns : Except Error (List ColumnSchema) :=
  self.primaryKeyColumnIds.mapM fun id =>
    okOr (self.columnById id) (self.missingPrimaryKeyColumn id)

end TableSchema

/-! ## Values and rows -/

/-- How a check of a row names what it found. -/
structure RowErrors where
  length : String → Nat → Nat → Error
  null : String → Error
  type : String → String → String → Error
  missingOrdinal : String → Error
  missingKeyValue : String → Error
  nullKeyValue : String → Error

/-- The errors about a row that was read. -/
def storedErrors : RowErrors where
  length table found expected := .corruptData
    s!"stored row for table {table} has {found} values, expected {expected}"
  null column := .corruptData
    s!"stored row contains NULL in non-nullable column {column}"
  type column expected found := .corruptData
    s!"stored column {column} contains {found}, expected {expected}"
  missingOrdinal column := .corruptData s!"primary-key column {column} has no row ordinal"
  missingKeyValue column := .corruptData
    s!"stored row does not contain primary-key column {column}"
  nullKeyValue column := .corruptData s!"stored primary-key column {column} contains NULL"

def validateValue (errors : RowErrors) (column : ColumnSchema) (value : Value) :
    Except Error Unit :=
  if value = .null then
    rejectIf (!column.nullable) (errors.null column.name)
  else
    rejectIf (!valueMatchesType value column.ty)
      (errors.type column.name (dataTypeName column.ty) (valueTypeName value))

def validateRow (errors : RowErrors) (schema : TableSchema) (row : Row) : Except Error Unit := do
  rejectIf (row.values.length ≠ schema.columns.length)
    (errors.length schema.name row.values.length schema.columns.length)
  (schema.columns.zip row.values).forM fun (column, value) => validateValue errors column value

def validateStoredRow := validateRow storedErrors

/-- The primary-key values of a row, in key order. -/
def primaryKeyValues (errors : RowErrors) (schema : TableSchema) (row : Row) :
    Except Error (List Value) := do
  let columns ← schema.primaryKeyColumns
  columns.mapM fun column => do
    let ordinal ← okOr (schema.columnOrdinal column.id) (errors.missingOrdinal column.name)
    let value ← okOr row.values[ordinal]? (errors.missingKeyValue column.name)
    rejectIf (value = .null) (errors.nullKeyValue column.name)
    return value

def storedRowKey (schema : TableSchema) (row : Row) : Except Error RowKey := do
  let values ← primaryKeyValues storedErrors schema row
  (makeRowKey schema.id values).mapError fun error =>
    .corruptData s!"stored row has an invalid primary key: {error.display}"

def validateStoredKeyedRow (schema : TableSchema) (keyedRow : KeyedRow) : Except Error Unit := do
  validateStoredRow schema keyedRow.2
  let expectedKey ← storedRowKey schema keyedRow.2
  rejectIf (expectedKey ≠ keyedRow.1) (.corruptData
    s!"stored row primary key does not match its tablet key in table {schema.name}")

/-! ## Bound columns and expressions -/

def validateBoundColumn (schema : TableSchema) (column : BoundColumnRef) :
    Except Error ColumnSchema := do
  rejectIf (column.tableId ≠ schema.id) (.schemaMismatch
    (s!"column {column.name} belongs to table {column.tableId}, " ++
      s!"but plan targets table {schema.id}"))
  let actual ← okOr schema.columns[column.ordinal]? (.schemaMismatch
    s!"column {column.name} uses invalid row ordinal {column.ordinal}")
  rejectIf (actual.id ≠ column.columnId ∨ actual.name ≠ column.name ∨
      actual.ty ≠ column.dataType ∨ actual.nullable ≠ column.nullable) (.schemaMismatch
    (s!"bound metadata for column {column.name} no longer matches schema " ++
      s!"version {schema.schemaVersion}"))
  return actual

def validateExpressionColumns (schema : TableSchema) : BoundExpr → Except Error Unit
  | .column column _ _ => do
    let _ ← validateBoundColumn schema column
    return ()
  | .literal _ _ _ => return ()
  | .unary _ expression _ _
  | .isNull expression _ _ _ => validateExpressionColumns schema expression
  | .binary left _ right _ _ => do
    validateExpressionColumns schema left
    validateExpressionColumns schema right

def validateFilter (schema : TableSchema) (filter : BoundExpr) : Except Error Unit := do
  rejectIf (filter.dataType ≠ .bool) (.schemaMismatch
    s!"WHERE expression must return BOOL, found {filter.dataType.display}")
  validateExpressionColumns schema filter

/-! ## Access paths -/

inductive AccessPath where
  | empty
  | point (key : RowKey)
  | scan
  deriving DecidableEq

abbrev PrimaryKeyEqualities := ExtTreeMap ColumnId Value compare

/-- One equality between a column and a literal; `true` if it contradicts an earlier one. -/
def collectEquality (primaryKeyIds : List ColumnId) (column : BoundColumnRef) (value : Value)
    (equalities : PrimaryKeyEqualities) : Bool × PrimaryKeyEqualities :=
  if value = .null ∨ column.columnId ∉ primaryKeyIds then (false, equalities)
  else
    match equalities[column.columnId]? with
    | some existing => (existing ≠ value, equalities)
    | none => (false, equalities.insert column.columnId value)

/-- Collect safe primary-key equalities; `true` if two of them contradict each other. -/
def collectPrimaryKeyEqualities (primaryKeyIds : List ColumnId) :
    BoundExpr → PrimaryKeyEqualities → Bool × PrimaryKeyEqualities
  | .binary left .and right _ _, equalities =>
    match collectPrimaryKeyEqualities primaryKeyIds left equalities with
    | (true, equalities) => (true, equalities)
    | (false, equalities) => collectPrimaryKeyEqualities primaryKeyIds right equalities
  | .binary (.column column _ _) .equal (.literal value _ _) _ _, equalities
  | .binary (.literal value _ _) .equal (.column column _ _) _ _, equalities =>
    collectEquality primaryKeyIds column value.1 equalities
  | _, equalities => (false, equalities)

/-- The values of all primary-key columns, or nothing if one is not constrained. -/
def equalityValues (schema : TableSchema) (equalities : PrimaryKeyEqualities) :
    List ColumnId → List Value → Except Error (Option (List Value))
  | [], values => return some values
  | id :: ids, values =>
    match equalities[id]? with
    | none => return none
    | some value => do
      let column ← okOr (schema.columnById id) (schema.missingPrimaryKeyColumn id)
      rejectIf (!valueMatchesType value column.ty) (.schemaMismatch
        (s!"primary-key predicate for column {column.name} requires " ++
          s!"{dataTypeName column.ty}, found {valueTypeName value}"))
      equalityValues schema equalities ids (values ++ [value])

/-- A point lookup only when every primary-key column is constrained by a literal equality in an
AND-connected predicate. -/
def chooseAccessPath (schema : TableSchema) (filter : Option BoundExpr) : Except Error AccessPath :=
  match filter with
  | none => return .scan
  | some filter =>
    match collectPrimaryKeyEqualities schema.primaryKeyColumnIds filter ∅ with
    | (true, _) => return .empty
    | (false, equalities) => do
      match ← equalityValues schema equalities schema.primaryKeyColumnIds [] with
      | none => return .scan
      | some values => return .point (← makeRowKey schema.id values)

def maxMaterializedResultRows : Nat := 100000

/-- The rows that pass the filter, in order. -/
def filterRows (schema : TableSchema) (filter : Option BoundExpr) :
    List KeyedRow → List KeyedRow → Except Error (List KeyedRow)
  | [], rows => return rows
  | row :: candidates, rows => do
    validateStoredKeyedRow schema row
    let isMatch ← filter.elim (.ok true) (evaluateFilter · row.2)
    if isMatch then do
      rejectIf (rows.length = maxMaterializedResultRows) (.invalidArgument
        (s!"query result exceeds the materialized row limit of {maxMaterializedResultRows}; " ++
          "add a selective predicate"))
      filterRows schema filter candidates (rows ++ [row])
    else filterRows schema filter candidates rows

end RagnorDb
