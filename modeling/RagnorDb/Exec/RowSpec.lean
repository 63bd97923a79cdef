import RagnorDb.Exec.RowChecks
import RagnorDb.Storage.KeyOrder

/-!
# Conforming rows

What it means that a row conforms to a schema and is stored under the key of its primary-key
columns, that the executor's checks decide it, and that an access path misses no row for which the
filter is true.
-/

namespace RagnorDb

open Std Checked OrderedMap

/-! ## Schemas -/

theorem nodup_of_validateColumns {name : String} {seen columns : List ColumnSchema}
    (h : validateColumns name seen columns = .ok ()) :
    (columns.map (·.id)).Nodup ∧ ∀ column ∈ columns, column.id ∉ seen.map (·.id) := by
  induction columns generalizing seen with
  | nil => simp
  | cons column columns ih =>
    simp only [validateColumns, eq_ok'] at h
    obtain ⟨_, _, _, hfresh, h⟩ := h
    obtain ⟨hnodup, hothers⟩ := ih h
    constructor
    · rw [List.map_cons, List.nodup_cons]
      refine ⟨?_, hnodup⟩
      intro hmem
      obtain ⟨other, hother, heq⟩ := List.mem_map.mp hmem
      exact hothers other hother (heq ▸ List.mem_map_of_mem List.mem_cons_self)
    · intro other hother
      rcases List.mem_cons.mp hother with rfl | hother
      · exact hfresh
      · intro hmem
        exact hothers other hother (List.mem_cons_of_mem _ hmem)

namespace TableSchema

variable {schema : TableSchema} {id : ColumnId} {ordinal : Nat} {column : ColumnSchema}

theorem nodup_columns (h : validateTableSchema schema = .ok ()) :
    (schema.columns.map (·.id)).Nodup := by
  simp only [validateTableSchema, validateTableDefinition, eq_ok] at h
  obtain ⟨_, _, _, _, _, _, _, _, _, _, _, _, _, hcolumns, _⟩ := h
  exact (nodup_of_validateColumns hcolumns).1

theorem columnOrdinal_eq_some (h : schema.columnOrdinal id = some ordinal) :
    ∃ column, schema.columns[ordinal]? = some column ∧ column.id = id := by
  obtain ⟨hlt, hid, _⟩ := List.findIdx?_eq_some_iff_getElem.mp h
  exact ⟨schema.columns[ordinal], List.getElem?_eq_getElem hlt, by simpa using hid⟩

theorem columnOrdinal_of_getElem? (hvalid : validateTableSchema schema = .ok ())
    (h : schema.columns[ordinal]? = some column) :
    schema.columnOrdinal column.id = some ordinal := by
  obtain ⟨hlt, hget⟩ := List.getElem?_eq_some_iff.mp h
  refine List.findIdx?_eq_some_iff_getElem.mpr ⟨hlt, by simp [hget], ?_⟩
  intro j hj heq
  have hids : schema.columns.Pairwise fun a b => a.id ≠ b.id :=
    List.pairwise_map.mp (nodup_columns hvalid)
  apply List.pairwise_iff_getElem.mp hids j ordinal (by omega) hlt hj
  rw [hget]
  simpa using heq

theorem columnById_eq_some : schema.columnById id = some column ↔
    ∃ ordinal, schema.columnOrdinal id = some ordinal ∧ schema.columns[ordinal]? = some column := by
  unfold columnById columnOrdinal
  rw [List.find?_eq_some_iff_getElem]
  constructor
  · rintro ⟨hid, ordinal, hlt, rfl, hbefore⟩
    refine ⟨ordinal, List.findIdx?_eq_some_iff_getElem.mpr ⟨hlt, hid, ?_⟩,
      List.getElem?_eq_getElem hlt⟩
    intro j hj
    simpa using hbefore j hj
  · rintro ⟨ordinal, hordinal, hcolumn⟩
    obtain ⟨hlt, hid, hbefore⟩ := List.findIdx?_eq_some_iff_getElem.mp hordinal
    obtain ⟨_, rfl⟩ := List.getElem?_eq_some_iff.mp hcolumn
    refine ⟨hid, ordinal, hlt, rfl, ?_⟩
    intro j hj
    simpa using hbefore j hj

end TableSchema

/-! ## Conforming rows -/

/-- A value that may stand in a column. -/
def ColumnSchema.Admits (column : ColumnSchema) (value : Value) : Prop :=
  if value = .null then column.nullable = true else valueMatchesType value column.ty = true

/-- A row with one admitted value for each column. -/
structure TableSchema.Shapes (schema : TableSchema) (row : Row) : Prop where
  length_eq : row.values.length = schema.columns.length
  admits : ∀ pair ∈ schema.columns.zip row.values, pair.1.Admits pair.2

/-- The values of the primary-key columns of a row, in key order. -/
def TableSchema.KeyValues (schema : TableSchema) (row : Row) (values : List Value) : Prop :=
  List.Forall₂ (fun id value => ∃ ordinal, schema.columnOrdinal id = some ordinal ∧
    row.values[ordinal]? = some value ∧ value ≠ .null) schema.primaryKeyColumnIds values

/-- The row key that a row is stored under. -/
def TableSchema.IsKeyOf (schema : TableSchema) (key : RowKey) (row : Row) : Prop :=
  ∃ values, schema.KeyValues row values ∧ makeRowKey schema.id values = .ok key

/-- A row that conforms to the schema and is stored under the key of its primary-key columns. -/
structure TableSchema.Conforms (schema : TableSchema) (key : RowKey) (row : Row) : Prop where
  shapes : schema.Shapes row
  isKeyOf : schema.IsKeyOf key row

section Conforms

variable {schema : TableSchema} {errors : RowErrors} {row : Row} {key : RowKey}
variable {u : Unit} {values : List Value}

theorem validateValue_eq_ok {column : ColumnSchema} {value : Value} :
    validateValue errors column value = .ok u ↔ column.Admits value := by
  unfold validateValue ColumnSchema.Admits
  split <;> simp

theorem validateRow_eq_ok : validateRow errors schema row = .ok u ↔ schema.Shapes row := by
  simp only [validateRow, eq_ok', forM_eq_ok]
  constructor
  · rintro ⟨hlength, hvalues⟩
    exact ⟨hlength, fun pair hpair => validateValue_eq_ok.mp (hvalues pair hpair)⟩
  · intro h
    exact ⟨h.length_eq, fun pair hpair => validateValue_eq_ok.mpr (h.admits pair hpair)⟩

theorem primaryKeyValues_eq_ok :
    primaryKeyValues errors schema row = .ok values ↔ schema.KeyValues row values := by
  simp only [primaryKeyValues, TableSchema.primaryKeyColumns, eq_ok', mapM_eq_ok, forall₂_comp_iff]
  constructor
  · refine List.Forall₂.imp ?_
    rintro id value ⟨column, hcolumn, ordinal, hordinal, _, hget, hne, rfl⟩
    obtain ⟨ordinal', hordinal', hcolumn'⟩ := TableSchema.columnById_eq_some.mp hcolumn
    obtain ⟨_, hcolumn'', hid⟩ := TableSchema.columnOrdinal_eq_some hordinal'
    cases hcolumn'.symm.trans hcolumn''
    rw [hid] at hordinal
    exact ⟨ordinal, hordinal, hget, hne⟩
  · refine List.Forall₂.imp ?_
    rintro id value ⟨ordinal, hordinal, hget, hne⟩
    obtain ⟨column, hcolumn, rfl⟩ := TableSchema.columnOrdinal_eq_some hordinal
    exact ⟨column, TableSchema.columnById_eq_some.mpr ⟨ordinal, hordinal, hcolumn⟩, ordinal,
      hordinal, value, hget, hne, rfl⟩

theorem validateStoredKeyedRow_eq_ok :
    validateStoredKeyedRow schema (key, row) = .ok u ↔ schema.Conforms key row := by
  simp only [validateStoredKeyedRow, validateStoredRow, storedRowKey, eq_ok, validateRow_eq_ok,
    primaryKeyValues_eq_ok]
  constructor
  · rintro ⟨_, hshapes, key', ⟨values, hvalues, hkey⟩, rfl⟩
    exact ⟨hshapes, values, hvalues, hkey⟩
  · rintro ⟨hshapes, values, hvalues, hkey⟩
    exact ⟨(), hshapes, key, ⟨values, hvalues, hkey⟩, rfl⟩

theorem TableSchema.KeyValues.unique {values' : List Value} (h : schema.KeyValues row values)
    (h' : schema.KeyValues row values') : values = values' := by
  refine List.right_unique_forall₂' ?_ h h'
  rintro id value value' ⟨ordinal, hordinal, hget, _⟩ ⟨ordinal', hordinal', hget', _⟩
  cases hordinal.symm.trans hordinal'
  exact Option.some.inj (hget.symm.trans hget')

end Conforms

/-! ## Access paths -/

section AccessPath

variable {schema : TableSchema} {row : Row} {key : RowKey} {filter : BoundExpr}
variable {bound : BoundColumnRef} {column : ColumnSchema} {equalities : PrimaryKeyEqualities}
  {ids : List ColumnId} {value : Value}

/-- The row satisfies the predicate: it is true, not false, unknown or an error. -/
def BoundExpr.Satisfied (filter : BoundExpr) (row : Row) : Prop :=
  evaluateFilter filter row = .ok true

instance : Decidable (filter.Satisfied row) :=
  inferInstanceAs (Decidable (_ = _))

theorem validateBoundColumn_eq_ok (h : validateBoundColumn schema bound = .ok column) :
    schema.columns[bound.ordinal]? = some column ∧ column.id = bound.columnId ∧
      column.ty = bound.dataType := by
  simp only [validateBoundColumn, eq_ok'] at h
  obtain ⟨_, actual, hactual, ⟨hid, _, hty, _⟩, rfl⟩ := h
  exact ⟨hactual, hid, hty⟩

theorem columnOrdinal_of_validateBoundColumn (hvalid : validateTableSchema schema = .ok ())
    (h : validateBoundColumn schema bound = .ok column) :
    schema.columnOrdinal bound.columnId = some bound.ordinal := by
  obtain ⟨hget, hid, _⟩ := validateBoundColumn_eq_ok h
  rw [← hid]
  exact TableSchema.columnOrdinal_of_getElem? hvalid hget

/-- What each equality on a checked column keeps, a conjunction of equalities keeps. -/
theorem collectPrimaryKeyEqualities_invariant {Q : BoundExpr → Prop}
    {I : Bool × PrimaryKeyEqualities → Prop}
    (hand : ∀ left right dataType nullable, Q (.binary left .and right dataType nullable) →
      Q left ∧ Q right)
    (hequal : ∀ bound column (value : SqlValue) equalities t n t' n' dataType nullable,
      validateBoundColumn schema bound = .ok column →
      Q (.binary (.column bound t n) .equal (.literal value t' n') dataType nullable) ∨
        Q (.binary (.literal value t' n') .equal (.column bound t n) dataType nullable) →
      I (false, equalities) → I (collectEquality ids bound value.1 equalities))
    (hcolumns : validateExpressionColumns schema filter = .ok ()) (hfilter : Q filter)
    (hequalities : I (false, equalities)) :
    I (collectPrimaryKeyEqualities ids filter equalities) := by
  fun_induction collectPrimaryKeyEqualities ids filter equalities <;>
    try simp only [validateExpressionColumns, eq_ok, exists_unit] at hcolumns
  case case1 hleft ihLeft =>
    rw [← hleft]
    exact ihLeft hcolumns.1 (hand _ _ _ _ hfilter).1 hequalities
  case case2 hleft ihLeft ihRight =>
    have hcollected := ihLeft hcolumns.1 (hand _ _ _ _ hfilter).1 hequalities
    rw [hleft] at hcollected
    exact ihRight hcolumns.2 (hand _ _ _ _ hfilter).2 hcollected
  case case3 =>
    obtain ⟨⟨_, hcolumn, _⟩, _⟩ := hcolumns
    exact hequal _ _ _ _ _ _ _ _ _ _ hcolumn (.inl hfilter) hequalities
  case case4 =>
    obtain ⟨_, _, hcolumn, _⟩ := hcolumns
    exact hequal _ _ _ _ _ _ _ _ _ _ hcolumn (.inr hfilter) hequalities
  case case5 => exact hequalities

/-- An equality adds at most the value of its own column. -/
theorem getElem?_collectEquality {id : ColumnId} {found : Value}
    (h : (collectEquality ids bound value equalities).2[id]? = some found) :
    equalities[id]? = some found ∨ bound.columnId = id ∧ value = found ∧ value ≠ .null := by
  unfold collectEquality at h
  split at h
  · exact .inl h
  · rename_i hcollects
    push Not at hcollects
    split at h
    · exact .inl h
    · rcases getElem?_insert_eq_some.mp h with ⟨hid, hvalue⟩ | ⟨_, h⟩
      · exact .inr ⟨hid, hvalue, hcollects.1⟩
      · exact .inl h

/-- The row has the values that were collected for its primary-key columns. -/
def PrimaryKeyEqualities.HoldOf (equalities : PrimaryKeyEqualities) (schema : TableSchema)
    (row : Row) : Prop :=
  ∀ (id : ColumnId) (value : Value), equalities[id]? = some value → value ≠ .null ∧
    ∃ ordinal, schema.columnOrdinal id = some ordinal ∧ row.values[ordinal]? = some value

theorem collectEquality_holdOf (hequalities : equalities.HoldOf schema row)
    (hordinal : schema.columnOrdinal bound.columnId = some bound.ordinal)
    (hvalue : row.values[bound.ordinal]? = some value) :
    (collectEquality ids bound value equalities).1 = false ∧
      PrimaryKeyEqualities.HoldOf (collectEquality ids bound value equalities).2 schema row := by
  constructor
  · unfold collectEquality
    split
    · rfl
    · split
      · rename_i existing hexisting
        obtain ⟨_, ordinal, hordinal', hget⟩ := hequalities _ _ hexisting
        cases hordinal.symm.trans hordinal'
        cases hvalue.symm.trans hget
        simp
      · rfl
  · intro id found hfound
    rcases getElem?_collectEquality hfound with hfound | ⟨rfl, rfl, hne⟩
    · exact hequalities id found hfound
    · exact ⟨hne, bound.ordinal, hordinal, hvalue⟩

/-- A row for which the predicate is true has the collected values, which do not contradict each
other. -/
theorem collectPrimaryKeyEqualities_holdOf (hvalid : validateTableSchema schema = .ok ())
    (ids : List ColumnId) (hcolumns : validateExpressionColumns schema filter = .ok ())
    (htrue : evaluate row filter = .ok (.bool true)) :
    (collectPrimaryKeyEqualities ids filter ∅).1 = false ∧
      PrimaryKeyEqualities.HoldOf (collectPrimaryKeyEqualities ids filter ∅).2 schema row := by
  refine collectPrimaryKeyEqualities_invariant (Q := fun filter =>
      evaluate row filter = .ok (.bool true))
    (I := fun collected => collected.1 = false ∧ PrimaryKeyEqualities.HoldOf collected.2 schema row)
    (fun _ _ _ _ => evaluate_and_eq_true) ?_ hcolumns htrue
    ⟨rfl, by simp [PrimaryKeyEqualities.HoldOf]⟩
  · intro bound column value equalities t n t' n' dataType nullable hcolumn hequal ⟨_, hequalities⟩
    have hvalue : evaluate row (.column bound t n) = .ok value.1 := by
      rcases hequal with htrue | htrue <;>
        obtain ⟨found, hleft, hright⟩ := evaluate_equal_eq_true htrue
      · cases hright
        exact hleft
      · cases hleft
        exact hright
    rw [evaluate, okOr_eq_ok] at hvalue
    exact collectEquality_holdOf hequalities (columnOrdinal_of_validateBoundColumn hvalid hcolumn)
      hvalue

theorem equalityValues_eq_some
    {values result : List Value}
    (h : equalityValues schema equalities ids values = .ok (some result)) :
    ∃ rest, result = values ++ rest ∧
      List.Forall₂ (fun (id : ColumnId) value => equalities[id]? = some value) ids rest := by
  induction ids generalizing values with
  | nil =>
    cases h
    exact ⟨[], by simp, .nil⟩
  | cons id ids ih =>
    unfold equalityValues at h
    split at h
    · cases h
    · rename_i value hvalue
      simp only [eq_ok] at h
      obtain ⟨_, _, _, _, h⟩ := h
      obtain ⟨rest, rfl, hrest⟩ := ih h
      exact ⟨value :: rest, by simp, .cons hvalue hrest⟩

/-- Every stored row for which the filter is true lies on the chosen path. -/
theorem chooseAccessPath_eq_ok (hvalid : validateTableSchema schema = .ok ())
    (hcolumns : validateExpressionColumns schema filter = .ok ()) {path : AccessPath}
    (h : chooseAccessPath schema (some filter) = .ok path) (hsatisfied : filter.Satisfied row)
    (hkey : schema.IsKeyOf key row) : path = .point key ∨ path = .scan := by
  obtain ⟨hconsistent, hhold⟩ := collectPrimaryKeyEqualities_holdOf hvalid
    schema.primaryKeyColumnIds hcolumns (evaluateFilter_eq_true.mp hsatisfied)
  simp only [chooseAccessPath] at h
  split at h
  · rename_i hcontradiction
    rw [hcontradiction] at hconsistent
    cases hconsistent
  · rename_i equalities hequalities
    rw [hequalities] at hhold
    simp only [eq_ok] at h
    obtain ⟨found, hfound, h⟩ := h
    cases found with
    | none =>
      cases h
      exact .inr rfl
    | some values =>
      simp only [eq_ok] at h
      obtain ⟨pointKey, hpoint, rfl⟩ := h
      obtain ⟨rest, rfl, hrest⟩ := equalityValues_eq_some hfound
      have hvalues : schema.KeyValues row values := by
        refine hrest.imp fun id value hvalue => ?_
        obtain ⟨hne, ordinal, hordinal, hget⟩ := hhold id value hvalue
        exact ⟨ordinal, hordinal, hget, hne⟩
      obtain ⟨values', hvalues', hkey⟩ := hkey
      cases hvalues.unique hvalues'
      exact .inl (congrArg _ (Except.ok.inj (hpoint.symm.trans hkey)))

/-! ## A path is always found -/

def expressionTypeForDataType : DataType → ExpressionType
  | .int => .int
  | .text => .text
  | .bool => .bool

/-- The type that `bind_literal` gives a literal. -/
def literalType : Value → ExpressionType
  | .int _ => .int
  | .text _ => .text
  | .bool _ => .bool
  | .null => .null

/-- What the binder ensures of the types of an expression, as far as access paths depend on it:
columns and literals have their own type, and only operands of one type are compared for
equality. -/
def BoundExpr.WellTyped : BoundExpr → Prop
  | .column column dataType _ => dataType = expressionTypeForDataType column.dataType
  | .literal value dataType _ => dataType = literalType value.1
  | .unary _ expression _ _ => expression.WellTyped
  | .binary left operator right _ _ => left.WellTyped ∧ right.WellTyped ∧
      (operator = .equal → left.dataType = right.dataType)
  | .isNull expression _ _ _ => expression.WellTyped

theorem valueMatchesType_of_literalType {dataType : DataType}
    (h : literalType value = expressionTypeForDataType dataType) :
    valueMatchesType value dataType = true := by
  cases value <;> cases dataType <;> first | rfl | cases h

/-- The collected values have the types of their columns. -/
def PrimaryKeyEqualities.Typed (equalities : PrimaryKeyEqualities) (schema : TableSchema) : Prop :=
  ∀ (id : ColumnId) (value : Value), equalities[id]? = some value → value ≠ .null ∧
    ∃ column, schema.columnById id = some column ∧ valueMatchesType value column.ty = true

theorem collectPrimaryKeyEqualities_typed (hvalid : validateTableSchema schema = .ok ())
    (ids : List ColumnId) (hcolumns : validateExpressionColumns schema filter = .ok ())
    (htyped : filter.WellTyped) :
    PrimaryKeyEqualities.Typed (collectPrimaryKeyEqualities ids filter ∅).2 schema := by
  refine collectPrimaryKeyEqualities_invariant (Q := BoundExpr.WellTyped)
    (I := fun collected => PrimaryKeyEqualities.Typed collected.2 schema)
    (fun _ _ _ _ htyped => ⟨htyped.1, htyped.2.1⟩) ?_ hcolumns htyped
    (by simp [PrimaryKeyEqualities.Typed])
  · intro bound column value equalities t n t' n' dataType nullable hcolumn hequal hequalities
    have htype : valueMatchesType value.1 bound.dataType = true := by
      rcases hequal with ⟨hleft, hright, hsame⟩ | ⟨hleft, hright, hsame⟩
      · exact valueMatchesType_of_literalType (hright.symm.trans ((hsame rfl).symm.trans hleft))
      · exact valueMatchesType_of_literalType (hleft.symm.trans ((hsame rfl).trans hright))
    obtain ⟨hget, _, hty⟩ := validateBoundColumn_eq_ok hcolumn
    have hfound : schema.columnById bound.columnId = some column :=
      TableSchema.columnById_eq_some.mpr
      ⟨_, columnOrdinal_of_validateBoundColumn hvalid hcolumn, hget⟩
    intro id found hcollected
    rcases getElem?_collectEquality hcollected with hcollected | ⟨rfl, rfl, hne⟩
    · exact hequalities id found hcollected
    · exact ⟨hne, column, hfound, hty ▸ htype⟩

theorem exists_equalityValues (htyped : equalities.Typed schema) (ids : List ColumnId)
    (values : List Value) : ∃ found, equalityValues schema equalities ids values = .ok found := by
  induction ids generalizing values with
  | nil => exact ⟨_, rfl⟩
  | cons id ids ih =>
    unfold equalityValues
    split
    · exact ⟨_, rfl⟩
    · rename_i value hvalue
      obtain ⟨_, column, hcolumn, htype⟩ := htyped id value hvalue
      simpa [hcolumn, okOr, htype] using ih (values ++ [value])

theorem exists_chooseAccessPath (hvalid : validateTableSchema schema = .ok ())
    (hcolumns : validateExpressionColumns schema filter = .ok ()) (htyped : filter.WellTyped) :
    ∃ path, chooseAccessPath schema (some filter) = .ok path := by
  have htyped := collectPrimaryKeyEqualities_typed hvalid schema.primaryKeyColumnIds hcolumns htyped
  simp only [chooseAccessPath]
  split
  · exact ⟨_, rfl⟩
  · rename_i equalities hequalities
    rw [hequalities] at htyped
    obtain ⟨found, hfound⟩ := exists_equalityValues htyped schema.primaryKeyColumnIds []
    rw [hfound, ok_bind]
    cases found with
    | none => exact ⟨_, rfl⟩
    | some values =>
      obtain ⟨rest, rfl, hrest⟩ := equalityValues_eq_some hfound
      simp only [validateTableSchema, validateTableDefinition, eq_ok, exists_unit] at hvalid
      obtain ⟨hid, _, _, _, _, hkey, _⟩ := hvalid
      have hencodes : encodePrimaryKey values = .ok (values.flatMap Value.keyBytes) := by
        refine encodePrimaryKey_eq_ok.mpr ⟨?_, ?_, rfl⟩
        · rintro rfl
          exact hkey (List.forall₂_nil_right_iff.mp hrest)
        · intro hnull
          obtain ⟨id, _, hvalue⟩ := exists_of_mem_forall₂ hrest.flip hnull
          exact (htyped id _ hvalue).1 rfl
      simp [makeRowKey, validateTableId, hid, hencodes]

/-! ## The rows of a path -/

/-- What the rows of a path are, in a table with these rows. -/
def AccessPath.rowsOf (rows : List KeyedRow) : AccessPath → List KeyedRow
  | .empty => []
  | .point key => ((rows.lookup key).map fun row => (key, row)).toList
  | .scan => rows

/-- `matching_rows` in a table with these rows. -/
def matchingRowsOf (schema : TableSchema) (filter : Option BoundExpr) (rows : List KeyedRow) :
    Except Error (List KeyedRow) := do
  let path ← chooseAccessPath schema filter
  filterRows schema filter (path.rowsOf rows) []

/-- The rows that pass the filter were all checked, and are those for which it is true. -/
theorem filterRows_eq_ok {candidates rows result : List KeyedRow}
    (h : filterRows schema (some filter) candidates rows = .ok result) :
    result = rows ++ candidates.filter (fun row => filter.Satisfied row.2) ∧
      ∀ row ∈ candidates, schema.Conforms row.1 row.2 ∧
        ∃ isMatch, evaluateFilter filter row.2 = .ok isMatch := by
  induction candidates generalizing rows with
  | nil =>
    cases h
    simp
  | cons row candidates ih =>
    simp only [filterRows, eq_ok, Option.elim_some] at h
    obtain ⟨_, hconforms, isMatch, hmatch, h⟩ := h
    rw [validateStoredKeyedRow_eq_ok] at hconforms
    cases isMatch with
    | true =>
      simp only [if_true, eq_ok] at h
      obtain ⟨_, _, h⟩ := h
      obtain ⟨rfl, hrest⟩ := ih h
      refine ⟨?_, List.forall_mem_cons.mpr ⟨⟨hconforms, _, hmatch⟩, hrest⟩⟩
      have hsatisfied : filter.Satisfied row.2 := hmatch
      simp [hsatisfied]
    | false =>
      obtain ⟨rfl, hrest⟩ := ih h
      refine ⟨?_, List.forall_mem_cons.mpr ⟨⟨hconforms, _, hmatch⟩, hrest⟩⟩
      have hnot : ¬ filter.Satisfied row.2 := by simp [BoundExpr.Satisfied, hmatch]
      simp [hnot]

theorem filterRows_singleton {row : KeyedRow} (hconforms : schema.Conforms row.1 row.2)
    {isMatch : Bool} (hmatch : evaluateFilter filter row.2 = .ok isMatch) :
    filterRows schema (some filter) [row] [] = .ok (if isMatch then [row] else []) := by
  have hvalid : validateStoredKeyedRow schema row = .ok () :=
    validateStoredKeyedRow_eq_ok.mpr hconforms
  cases isMatch <;> simp [filterRows, hvalid, hmatch, rejectIf, maxMaterializedResultRows]

/-- The access path does not change the answer.  If a full scan can be filtered, then a path is
chosen for every well-typed filter, and filtering its rows gives the rows of the full scan for
which the filter is true. -/
theorem access_path_keeps_answers (hvalid : validateTableSchema schema = .ok ())
    (hfilter : validateFilter schema filter = .ok ()) (htyped : filter.WellTyped)
    {rows result : List KeyedRow} (hnodup : (rows.map Prod.fst).Nodup)
    (hscan : filterRows schema (some filter) rows [] = .ok result) :
    matchingRowsOf schema (some filter) rows = .ok result ∧
      result = rows.filter (fun row => filter.Satisfied row.2) := by
  simp only [validateFilter, eq_ok, exists_unit] at hfilter
  obtain ⟨path, hpath⟩ := exists_chooseAccessPath hvalid hfilter.2 htyped
  obtain ⟨hresult, hrows⟩ := filterRows_eq_ok hscan
  refine ⟨?_, hresult⟩
  rw [matchingRowsOf, hpath, ok_bind]
  have hon : ∀ row ∈ rows, filter.Satisfied row.2 → path = .point row.1 ∨ path = .scan :=
    fun row hrow hsatisfied =>
      chooseAccessPath_eq_ok hvalid hfilter.2 hpath hsatisfied (hrows row hrow).1.isKeyOf
  cases path with
  | empty =>
    have hnone : rows.filter (fun row => filter.Satisfied row.2) = [] := by
      rw [List.filter_eq_nil_iff]
      intro row hrow hsatisfied
      rcases hon row hrow (of_decide_eq_true hsatisfied) with h | h <;> cases h
    rw [hresult, hnone]
    rfl
  | scan => exact hscan
  | point key =>
    have hkey : ∀ row ∈ rows, filter.Satisfied row.2 → row.1 = key := by
      intro row hrow hsatisfied
      rcases hon row hrow hsatisfied with h | h <;> cases h
      rfl
    have hothers : ∀ others ⊆ rows, (∀ row ∈ others, row.1 ≠ key) →
        others.filter (fun row => filter.Satisfied row.2) = [] := by
      intro others hsubset hne
      rw [List.filter_eq_nil_iff]
      intro row hrow hsatisfied
      exact hne row hrow (hkey row (hsubset hrow) (of_decide_eq_true hsatisfied))
    cases hlookup : rows.lookup key with
    | none =>
      have hnone := hothers rows (List.Subset.refl _) fun row hrow heq => by
        simpa [heq] using List.lookup_eq_none_iff.mp hlookup row hrow
      rw [hresult, hnone, AccessPath.rowsOf, hlookup]
      rfl
    | some row =>
      -- The rows before and behind the one that is found have other keys.
      obtain ⟨before, after, rfl, hbefore⟩ := List.lookup_eq_some_iff.mp hlookup
      obtain ⟨hconforms, isMatch, hmatch⟩ := hrows (key, row) (by simp)
      rw [List.map_append, List.map_cons, List.nodup_append, List.nodup_cons] at hnodup
      have hbefore := hothers before (by simp) fun row hrow heq => by
        simpa [heq] using hbefore row hrow
      have hafter := hothers after (List.subset_append_of_subset_right _ (by simp))
        fun other hother heq => hnodup.2.1.1 (List.mem_map.mpr ⟨other, hother, heq⟩)
      rw [AccessPath.rowsOf, hlookup, Option.map_some, Option.toList_some,
        filterRows_singleton hconforms hmatch, hresult, List.filter_append, List.filter_cons,
        hbefore, hafter]
      cases isMatch <;> simp [BoundExpr.Satisfied, hmatch]

theorem access_path_keeps_answers_sample :
    let schema : TableSchema := ⟨1, "t", [⟨1, "k", .bool, false⟩], [1], 1, 1⟩
    let filter : BoundExpr := .binary (.literal ⟨.bool true, trivial⟩ .bool false) .equal
      (.column ⟨1, 1, 0, "k", .bool, false⟩ .bool false) .bool false
    let rows : List KeyedRow :=
      [(⟨1, [0x30, 0]⟩, ⟨[.bool false]⟩), (⟨1, [0x30, 1]⟩, ⟨[.bool true]⟩)]
    matchingRowsOf schema (some filter) rows = .ok [(⟨1, [0x30, 1]⟩, ⟨[.bool true]⟩)] := by
  intro schema filter rows
  have htyped : filter.WellTyped := ⟨rfl, rfl, fun _ => rfl⟩
  exact (access_path_keeps_answers (by decide +kernel) (by decide +kernel) htyped
    (by decide +kernel) (by decide +kernel)).1

end AccessPath

end RagnorDb
