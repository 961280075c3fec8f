/-
Module: RecordStore.Query.Basic
Purpose: Read plans: filter tests on paths, a recency window, sort keys, pagination,
  the columns and relations to return; and the errors of reading a plan from a condition.
Main exports: Operator, Test, Predicate, Scope, SortOrder, Extend, Plan, PlanError
-/
import RecordStore.Path.Basic
import RecordStore.Json.Printer
import RecordStore.Text.Blank

namespace RecordStore

/-- A condition: tests by field name, and the keys that configure the query. -/
abbrev Condition := Object

/-- Condition keys that configure a query rather than filter it. -/
def indexKey : String := "_index"
def orderKey : String := "order_by"
def offsetKey : String := "offset"
def limitKey : String := "limit"
def scopeKey : String := "scope"

/-- The comparison words that open a condition tuple. -/
inductive Operator where
  | lt
  | gt
  | le
  | ge
  | eq
  | ne
  | oneOf
  | like
deriving DecidableEq, Repr, Inhabited

namespace Operator

/-- The symbol of an operator. -/
def text : Operator → String
  | .lt => "<"
  | .gt => ">"
  | .le => "<="
  | .ge => ">="
  | .eq => "=="
  | .ne => "!="
  | .oneOf => "in"
  | .like => "like"

/-- The operator of a word, in any case and among blanks. -/
def ofWord? (word : String) : Option Operator :=
  match Text.lower (Text.trim word) with
  | "<" => some .lt
  | ">" => some .gt
  | "<=" => some .le
  | ">=" => some .ge
  | "==" => some .eq
  | "!=" => some .ne
  | "in" => some .oneOf
  | "like" => some .like
  | _ => none

/-- The message about a word that is no operator. -/
def unknown (word : String) : String := "Unknown operator: " ++ word

end Operator

/-- The test of a filter. -/
inductive Test where
  | eq (operand : Json)
  | ne (operand : Json)
  | lt (operand : Json)
  | gt (operand : Json)
  | le (operand : Json)
  | ge (operand : Json)
  | isNull
  | isNotNull
  | oneOf (operands : List Json)
  /-- A text pattern: a regular expression for documents, `%` and `_` for tables. -/
  | like (pattern : String)
deriving Repr, Inhabited

/-- A test on one field. -/
structure Predicate where
  field : FieldPath
  test : Test
deriving Repr, Inhabited

/-- A window of days before now in which a record was created. -/
inductive Scope where
  | week
  | month
  | year
deriving DecidableEq, Repr, Inhabited

namespace Scope

/-- The length of a window in days. -/
def days : Scope → Nat
  | .week => 7
  | .month => 30
  | .year => 365

/-- The window of a word, in any case and among blanks. -/
def ofWord? (word : String) : Option Scope :=
  match Text.lower (Text.trim word) with
  | "week" => some .week
  | "month" => some .month
  | "year" => some .year
  | _ => none

/-- The message about a word that is no window. -/
def unknown (word : String) : String := "Unknown scope: " ++ word

end Scope

/-- The direction of a sort key. -/
inductive SortOrder where
  | asc
  | desc
deriving DecidableEq, Repr, Inhabited

namespace SortOrder

/-- The direction of a word, in any case and among blanks. -/
def ofWord? (word : String) : Option SortOrder :=
  match Text.lower (Text.trim word) with
  | "asc" => some .asc
  | "desc" => some .desc
  | _ => none

/-- The message about a word that is no direction. -/
def unknown (word : String) : String := "Unknown sort order: " ++ word

end SortOrder

/-- The relation fields that a read resolves into related records. -/
inductive Extend where
  | none
  | all
  | fields (names : List String)
deriving DecidableEq, Repr, Inhabited

/-- Whether a relation field is resolved. -/
def Extend.includes (extend : Extend) (field : String) : Bool :=
  match extend with
  | .none => false
  | .all => true
  | .fields names => names.contains field

/-- What a reader of records asks for beside the condition. -/
structure SelectOptions where
  /-- The columns to return in place of the model's own. -/
  columns : Option (List String)
  extend : Extend
deriving DecidableEq, Repr, Inhabited

/-- The model's own columns, and no related records. -/
def SelectOptions.plain : SelectOptions := ⟨none, .none⟩

/-- A read plan.  With a key the filter is empty. -/
structure Plan where
  index : Option Json
  filter : List Predicate
  scope : Option Scope
  order : List (FieldPath × SortOrder)
  offset : Option Nat
  limit : Option Nat
  columns : Option (List String)
  extend : Extend
deriving Repr, Inhabited

/-- The plan that reads every record. -/
def Plan.everything (options : SelectOptions) : Plan :=
  ⟨none, [], none, [], none, none, options.columns, options.extend⟩

/-- What is wrong with the operands of a tuple. -/
inductive OperandFault where
  | notOne (operator : Operator)
  | notOrdered (operator : Operator)
  | notAPattern
deriving DecidableEq, Repr

/-- The words for a fault. -/
def OperandFault.reason : OperandFault → String
  | .notOne operator => "'" ++ operator.text ++ "' takes exactly one operand"
  | .notOrdered operator => "'" ++ operator.text ++ "' needs a number or a string"
  | .notAPattern => "'like' needs a string pattern"

/-- What is wrong with a sort order. -/
inductive OrderFault where
  | directionNotText (field : String)
  | unknownDirection (word : String)
  | shape (text : String)
deriving DecidableEq, Repr

/-- The words for a fault. -/
def OrderFault.reason : OrderFault → String
  | .directionNotText field => "direction of '" ++ field ++ "' must be a string"
  | .unknownDirection word => SortOrder.unknown word
  | .shape text => "expected an object or a field name, got " ++ text

/-- Why a condition is no read plan. -/
inductive PlanError where
  | path (error : PathError)
  | unknownOperator (field operator : String)
  | badOperand (field : String) (fault : OperandFault)
  | invalidOrder (fault : OrderFault)
  | invalidPagination (key value : String)
  | invalidScope (value : String)
deriving DecidableEq, Repr

/-- The message of a plan error. -/
def PlanError.message : PlanError → String
  | .path error => error.message
  | .unknownOperator field operator => "Unknown operator '" ++ operator ++ "' on '" ++ field ++ "'"
  | .badOperand field fault => "Bad operand for '" ++ field ++ "': " ++ fault.reason
  | .invalidOrder fault => "Invalid order_by: " ++ fault.reason
  | .invalidPagination key value => "Invalid " ++ key ++ ": " ++ value
  | .invalidScope value => "Invalid scope '" ++ value ++ "', expected week, month or year"

end RecordStore
