import RagnorDb.Catalog.Schema
import RagnorDb.Common.RowCodec

/-!
# Bound expressions

The bound scalar expressions of `ragnordb-sql` and their evaluation in `expression.rs`, with
checked 64-bit arithmetic and three-valued logic.
-/

namespace RagnorDb

open Checked

/-- Bound column identity and row layout position. -/
structure BoundColumnRef where
  tableId : TableId
  columnId : ColumnId
  ordinal : Nat
  name : String
  dataType : DataType
  nullable : Bool
  deriving DecidableEq

inductive ExpressionType where
  | int
  | text
  | bool
  | null
  deriving DecidableEq

def ExpressionType.display : ExpressionType → String
  | .int => "INT"
  | .text => "TEXT"
  | .bool => "BOOL"
  | .null => "NULL"

inductive BoundUnaryOperator where
  | positive
  | negative
  | not
  deriving DecidableEq

def BoundUnaryOperator.debug : BoundUnaryOperator → String
  | .positive => "Positive"
  | .negative => "Negative"
  | .not => "Not"

inductive BoundBinaryOperator where
  | add
  | subtract
  | multiply
  | divide
  | modulo
  | equal
  | notEqual
  | greaterThan
  | greaterThanOrEqual
  | lessThan
  | lessThanOrEqual
  | and
  | or
  deriving DecidableEq

/-- A SQL value; its integers are 64-bit. -/
abbrev SqlValue := { value : Value // value.InRange }

/-- Fully bound and typed scalar expression: its kind, type and nullability. -/
inductive BoundExpr where
  | column (column : BoundColumnRef) (dataType : ExpressionType) (nullable : Bool)
  | literal (value : SqlValue) (dataType : ExpressionType) (nullable : Bool)
  | unary (operator : BoundUnaryOperator) (expression : BoundExpr) (dataType : ExpressionType)
      (nullable : Bool)
  | binary (left : BoundExpr) (operator : BoundBinaryOperator) (right : BoundExpr)
      (dataType : ExpressionType) (nullable : Bool)
  | isNull (expression : BoundExpr) (negated : Bool) (dataType : ExpressionType) (nullable : Bool)

def BoundExpr.dataType : BoundExpr → ExpressionType
  | .column _ dataType _ | .literal _ dataType _ | .unary _ _ dataType _ | .binary _ _ _ dataType _
  | .isNull _ _ dataType _ => dataType

def valueTypeName : Value → String
  | .int _ => "INT"
  | .text _ => "TEXT"
  | .bool _ => "BOOL"
  | .null => "NULL"

/-! ## Operators -/

/-- The result of checked `i64` arithmetic. -/
def checkedI64 (value : Int) : Option Int :=
  if -2 ^ 63 ≤ value ∧ value < 2 ^ 63 then some value else none

/-- `checked_rem`: the quotient must be representable too. -/
def checkedRem (left right : Int) : Option Int :=
  (checkedI64 (left.tdiv right)).bind fun _ => checkedI64 (left.tmod right)

def evaluateUnary (operator : BoundUnaryOperator) (value : Value) : Except Error Value :=
  match operator, value with
  | _, .null => return .null
  | .positive, .int value => return .int value
  | .negative, .int value =>
    okOr ((checkedI64 (-value)).map Value.int)
      (.invalidArgument "integer overflow while evaluating unary minus")
  | .not, .bool value => return .bool !value
  | operator, value => .error (.schemaMismatch
      s!"bound unary operator {operator.debug} cannot evaluate {valueTypeName value}")

/-- The arithmetic operators with their `Debug` names and the texts of their zero checks. -/
inductive ArithmeticOperator where
  | add
  | subtract
  | multiply
  | divide
  | modulo
  deriving DecidableEq

def ArithmeticOperator.debug : ArithmeticOperator → String
  | .add => "Add"
  | .subtract => "Subtract"
  | .multiply => "Multiply"
  | .divide => "Divide"
  | .modulo => "Modulo"

def ArithmeticOperator.apply (left right : Int) : ArithmeticOperator → Except Error (Option Int)
  | .add => return checkedI64 (left + right)
  | .subtract => return checkedI64 (left - right)
  | .multiply => return checkedI64 (left * right)
  | .divide => do
    rejectIf (right = 0) (.invalidArgument "division by zero")
    return checkedI64 (left.tdiv right)
  | .modulo => do
    rejectIf (right = 0) (.invalidArgument "modulo by zero")
    return checkedRem left right

def evaluateArithmetic (operator : ArithmeticOperator) (left right : Value) : Except Error Value :=
  match left, right with
  | .null, _ | _, .null => return .null
  | .int left, .int right => do
    let result ← operator.apply left right
    okOr (result.map Value.int)
      (.invalidArgument s!"integer overflow while evaluating {operator.debug}")
  | _, _ => .error
      (.schemaMismatch "bound arithmetic expression received non-INT values")

def valuesEqual : Value → Value → Except Error Bool
  | .int left, .int right | .text left, .text right | .bool left, .bool right => return left = right
  | left, right => .error (.schemaMismatch
      s!"cannot compare {valueTypeName left} with {valueTypeName right}")

def orderedComparison : Value → Value → Except Error Ordering
  | .int left, .int right => return compare left right
  | .text left, .text right =>
    return compare left.toUTF8.data.toList right.toUTF8.data.toList
  | left, right => .error (.schemaMismatch
      (s!"ordered comparison cannot compare {valueTypeName left} with " ++
        s!"{valueTypeName right}"))

/-- A comparison of two values by an ordering, unless one of them is `NULL`. -/
def evaluateComparison (test : Value → Value → Except Error Bool) (left right : Value) :
    Except Error Value :=
  match left, right with
  | .null, _ | _, .null => return .null
  | left, right => return .bool (← test left right)

def nullableBoolean : Value → Except Error (Option Bool)
  | .bool value => return some value
  | .null => return none
  | value => .error (.schemaMismatch s!"Boolean expression received {valueTypeName value}")

def evaluateAnd (left right : Value) : Except Error Value := do
  let left ← nullableBoolean left
  let right ← nullableBoolean right
  return match left, right with
    | some false, _ | _, some false => .bool false
    | some true, some true => .bool true
    | _, _ => .null

def evaluateOr (left right : Value) : Except Error Value := do
  let left ← nullableBoolean left
  let right ← nullableBoolean right
  return match left, right with
    | some true, _ | _, some true => .bool true
    | some false, some false => .bool false
    | _, _ => .null

def evaluateBinary (operator : BoundBinaryOperator) (left right : Value) : Except Error Value :=
  match operator with
  | .add => evaluateArithmetic .add left right
  | .subtract => evaluateArithmetic .subtract left right
  | .multiply => evaluateArithmetic .multiply left right
  | .divide => evaluateArithmetic .divide left right
  | .modulo => evaluateArithmetic .modulo left right
  | .equal => evaluateComparison valuesEqual left right
  | .notEqual => evaluateComparison (fun left right => (!·) <$> valuesEqual left right) left right
  | .greaterThan =>
    evaluateComparison (fun left right => (· == .gt) <$> orderedComparison left right) left right
  | .greaterThanOrEqual =>
    evaluateComparison (fun left right => (· != .lt) <$> orderedComparison left right) left right
  | .lessThan =>
    evaluateComparison (fun left right => (· == .lt) <$> orderedComparison left right) left right
  | .lessThanOrEqual =>
    evaluateComparison (fun left right => (· != .gt) <$> orderedComparison left right) left right
  | .and => evaluateAnd left right
  | .or => evaluateOr left right

/-! ## Evaluation -/

/-- Evaluate one bound expression against a complete stored row. -/
def evaluate (row : Row) : BoundExpr → Except Error Value
  | .column column _ _ =>
    okOr row.values[column.ordinal]? (.corruptData
      s!"row does not contain ordinal {column.ordinal} for column {column.name}")
  | .literal value _ _ => return value.1
  | .unary operator expression _ _ => do
    let value ← evaluate row expression
    evaluateUnary operator value
  | .binary left operator right _ _ => do
    let left ← evaluate row left
    let right ← evaluate row right
    evaluateBinary operator left right
  | .isNull expression negated _ _ => do
    let isNull := (← evaluate row expression) = .null
    return .bool (if negated then !isNull else isNull)

/-- `WHERE` keeps only the rows for which the predicate is true. -/
def evaluateFilter (expression : BoundExpr) (row : Row) : Except Error Bool := do
  match ← evaluate row expression with
  | .bool value => return value
  | .null => return false
  | value => .error (.schemaMismatch
      s!"WHERE expression returned {valueTypeName value}, expected BOOL")

/-! ## What a true conjunction says -/

variable {row : Row} {expression : BoundExpr} {nullable : Bool}

theorem evaluateFilter_eq_true :
    evaluateFilter expression row = .ok true ↔ evaluate row expression = .ok (.bool true) := by
  simp only [evaluateFilter, eq_ok]
  constructor
  · rintro ⟨value, hvalue, h⟩
    cases value <;> cases h
    exact hvalue
  · intro h
    exact ⟨_, h, rfl⟩

variable {dataType : ExpressionType}

theorem evaluate_and_eq_true {left right : BoundExpr}
    (h : evaluate row (.binary left .and right dataType nullable) = .ok (.bool true)) :
    evaluate row left = .ok (.bool true) ∧ evaluate row right = .ok (.bool true) := by
  simp only [evaluate, evaluateBinary, evaluateAnd, eq_ok] at h
  obtain ⟨l, hl, r, hr, l', hl', r', hr', h⟩ := h
  split at h <;> cases h
  cases l <;> cases hl'
  cases r <;> cases hr'
  exact ⟨hl, hr⟩

theorem evaluate_equal_eq_true {left right : BoundExpr}
    (h : evaluate row (.binary left .equal right dataType nullable) = .ok (.bool true)) :
    ∃ value, evaluate row left = .ok value ∧ evaluate row right = .ok value := by
  simp only [evaluate, evaluateBinary, evaluateComparison, eq_ok] at h
  obtain ⟨l, hl, r, hr, h⟩ := h
  split at h
  · cases h
  · cases h
  · simp only [eq_ok, Value.bool.injEq] at h
    obtain ⟨_, hequal, rfl⟩ := h
    unfold valuesEqual at hequal
    split at hequal
    all_goals first
      | (simp only [eq_ok, decide_eq_true_eq] at hequal
         subst hequal
         exact ⟨_, hl, hr⟩)
      | cases hequal

end RagnorDb
