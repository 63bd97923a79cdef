import RagnorDb.Common.Basic
import RagnorDb.Common.Text

/-!
# Table schemas

The durable table definition (`catalog_codec.rs`), the schema in memory and its validation
(`ragnordb-catalog/src/lib.rs`).  The two differ only in how they name their fields.
-/

namespace RagnorDb

open Checked

inductive DataType where
  | int
  | text
  | bool
  deriving DecidableEq

structure ColumnDefinition where
  columnId : ColumnId
  name : String
  ty : DataType
  nullable : Bool
  deriving DecidableEq

/-- Durable table definition. -/
structure TableDefinition where
  tableId : Nat
  name : String
  columns : List ColumnDefinition
  primaryKeyColumnIds : List ColumnId
  schemaVersion : Nat
  tabletCount : Nat
  deriving DecidableEq

structure ColumnSchema where
  id : ColumnId
  name : String
  ty : DataType
  nullable : Bool
  deriving DecidableEq

def ColumnSchema.toDefinition (self : ColumnSchema) : ColumnDefinition :=
  ⟨self.id, self.name, self.ty, self.nullable⟩

def ColumnSchema.fromDefinition (definition : ColumnDefinition) : ColumnSchema :=
  ⟨definition.columnId, definition.name, definition.ty, definition.nullable⟩

/-- Immutable schema of one table. -/
structure TableSchema where
  id : TableId
  name : String
  columns : List ColumnSchema
  primaryKeyColumnIds : List ColumnId
  schemaVersion : Nat
  tabletCount : Nat
  deriving DecidableEq

/-- The columns after those in `seen`. -/
def validateColumns (name : String) (seen : List ColumnSchema) :
    List ColumnSchema → Except Error Unit
  | [] => .ok ()
  | column :: columns => do
    rejectIf (column.id = 0)
      (Error.constraintViolation s!"column {column.name} uses reserved column ID 0")
    rejectIf (isBlank column.name)
      (Error.constraintViolation s!"table {name} contains an empty column name")
    rejectIf (column.name ∈ seen.map (·.name))
      (Error.constraintViolation s!"duplicate column name: {column.name}")
    rejectIf (column.id ∈ seen.map (·.id))
      (Error.constraintViolation s!"duplicate column ID: {column.id}")
    validateColumns name (column :: seen) columns

/-- The primary-key columns after those in `seen`. -/
def validatePrimaryKey (name : String) (columns : List ColumnSchema) (seen : List ColumnId) :
    List ColumnId → Except Error Unit
  | [] => .ok ()
  | id :: ids => do
    rejectIf (id ∈ seen) (Error.constraintViolation s!"duplicate primary-key column ID: {id}")
    let column ← okOr (columns.find? (·.id = id)) (Error.constraintViolation
      s!"primary-key column ID {id} does not exist in table {name}")
    rejectIf column.nullable
      (Error.constraintViolation s!"primary-key column {column.name} cannot be nullable")
    validatePrimaryKey name columns (id :: seen) ids

/-- Table names, column identities and primary-key metadata. -/
def validateTableDefinition (name : String) (columns : List ColumnSchema)
    (primaryKeyColumnIds : List ColumnId) : Except Error Unit := do
  rejectIf (isBlank name) (Error.constraintViolation "table name cannot be empty")
  rejectIf (columns = [])
    (Error.constraintViolation s!"table {name} must define at least one column")
  rejectIf (primaryKeyColumnIds = [])
    (Error.constraintViolation s!"table {name} must define a primary key")
  validateColumns name [] columns
  validatePrimaryKey name columns [] primaryKeyColumnIds

/-- Every invariant required of a publishable schema. -/
def validateTableSchema (schema : TableSchema) : Except Error Unit := do
  rejectIf (schema.id = 0) (Error.constraintViolation "table ID 0 is reserved")
  rejectIf (schema.schemaVersion = 0)
    (Error.constraintViolation s!"table {schema.name} must have a nonzero schema version")
  rejectIf (schema.tabletCount = 0)
    (Error.constraintViolation s!"table {schema.name} must have at least one tablet")
  validateTableDefinition schema.name schema.columns schema.primaryKeyColumnIds

namespace TableSchema

def toDefinition (self : TableSchema) : TableDefinition where
  tableId := self.id
  name := self.name
  columns := self.columns.map (·.toDefinition)
  primaryKeyColumnIds := self.primaryKeyColumnIds
  schemaVersion := self.schemaVersion
  tabletCount := self.tabletCount

/-- Decode and validate a durable definition. -/
def fromDefinition (definition : TableDefinition) : Except Error TableSchema := do
  let schema : TableSchema :=
    { id := definition.tableId
      name := definition.name
      columns := definition.columns.map .fromDefinition
      primaryKeyColumnIds := definition.primaryKeyColumnIds
      schemaVersion := definition.schemaVersion
      tabletCount := definition.tabletCount }
  validateTableSchema schema
  return schema

theorem fromDefinition_eq_ok {definition : TableDefinition} {schema : TableSchema} :
    fromDefinition definition = .ok schema ↔
      schema.toDefinition = definition ∧ validateTableSchema schema = .ok () := by
  have hcolumns : ∀ columns : List ColumnDefinition,
      (columns.map ColumnSchema.fromDefinition).map (·.toDefinition) = columns := by
    intro columns
    rw [List.map_map]
    exact List.map_id columns
  have hschemas : ∀ columns : List ColumnSchema,
      (columns.map (·.toDefinition)).map ColumnSchema.fromDefinition = columns := by
    intro columns
    rw [List.map_map]
    exact List.map_id columns
  simp only [fromDefinition, eq_ok]
  constructor
  · rintro ⟨⟨⟩, hvalid, rfl⟩
    refine ⟨?_, hvalid⟩
    simp [toDefinition, hcolumns]
  · rintro ⟨rfl, hvalid⟩
    refine ⟨(), ?_, ?_⟩
    · simpa only [toDefinition, hschemas] using hvalid
    · simp [toDefinition, hschemas]

end TableSchema

end RagnorDb
