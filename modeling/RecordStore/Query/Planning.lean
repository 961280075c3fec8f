/-
Module: RecordStore.Query.Planning
Purpose: Reading a plan from a condition.  A key under `_index` settles the plan and hides
  every other entry; the configuring keys never become tests.
Main exports: Plan.ofCondition
-/
import RecordStore.Query.Basic
import RecordStore.Path.Parser

namespace RecordStore

namespace Test

/-- The operand of `==` and `!=` that stands for no value: `null` or its name in any case. -/
def meansNull : Json → Bool
  | .null => true
  | .str text => Text.sameFolded text "null"
  | _ => false

/-- Operands that can be ordered. -/
def isOrdered : Json → Bool
  | .num _ => true
  | .str _ => true
  | _ => false

/-- The test of a comparison word with its one operand. -/
def ofOperand (key : String) (operator : Operator) (operand : Json) :
    Except PlanError Test :=
  let ordered (test : Json → Test) : Except PlanError Test :=
    if isOrdered operand then .ok (test operand)
    else .error (.badOperand key (.notOrdered operator))
  match operator with
  | .eq => .ok (if meansNull operand then .isNull else .eq operand)
  | .ne => .ok (if meansNull operand then .isNotNull else .ne operand)
  | .lt => ordered .lt
  | .gt => ordered .gt
  | .le => ordered .le
  | .ge => ordered .ge
  | .like =>
    match operand with
    | .str pattern => .ok (.like pattern)
    | _ => .error (.badOperand key .notAPattern)
  | .oneOf => .ok (.oneOf [operand])

/-- The test of a comparison word with its operands; `in` takes one list or any number. -/
def ofOperands (key : String) (operator : Operator) (operands : List Json) :
    Except PlanError Test :=
  if operator = .oneOf then
    match operands with
    | [.arr listed] => .ok (.oneOf listed)
    | _ => .ok (.oneOf operands)
  else
    match operands with
    | [operand] => ofOperand key operator operand
    | _ => .error (.badOperand key (.notOne operator))

/-- The test a condition value stands for: a tuple that opens with a text is a comparison,
`null` asks for no value, anything else for equality. -/
def ofValue (key : String) (value : Json) : Except PlanError Test :=
  match value with
  | .arr (.str word :: operands) =>
    match Operator.ofWord? word with
    | none => .error (.unknownOperator key word)
    | some operator => ofOperands key operator operands
  | .null => .ok .isNull
  | _ => .ok (.eq value)

end Test

namespace Plan

/-- A path read in a condition. -/
def field (raw : String) : Except PlanError FieldPath :=
  match FieldPath.parse raw with
  | .ok path => .ok path
  | .error error => .error (.path error)

/-- The filter test of an entry. -/
def predicate (key : String) (value : Json) : Except PlanError Predicate :=
  match field key with
  | .error error => .error error
  | .ok path => (Test.ofValue key value).map fun test => ⟨path, test⟩

/-- One sort key with its direction. -/
def sortKey (name : String) (direction : Json) : Except PlanError (FieldPath × SortOrder) :=
  match direction with
  | .str word =>
    match SortOrder.ofWord? word with
    | none => .error (.invalidOrder (.unknownDirection word))
    | some order => (field name).map fun path => (path, order)
  | _ => .error (.invalidOrder (.directionNotText name))

/-- The sort keys: none, one field, or fields with their directions. -/
def sortKeys (value : Json) : Except PlanError (List (FieldPath × SortOrder)) :=
  match value with
  | .null => .ok []
  | .str name => (field name).map fun path => [(path, .asc)]
  | .obj members => members.mapM fun member => sortKey member.1 member.2
  | _ => .error (.invalidOrder (.shape value.text))

/-- The count of a number or a numeric text. -/
def countOf? : Json → Option Nat
  | .num n => n.nat?
  | .str text => Numeral.nat64? (Text.trim text)
  | _ => none

/-- A count of records, none for `null`. -/
def count (key : String) (value : Json) : Except PlanError (Option Nat) :=
  match value with
  | .null => .ok none
  | _ =>
    match countOf? value with
    | some n => .ok (some n)
    | none => .error (.invalidPagination key value.text)

/-- A recency window, none for `null`. -/
def window (value : Json) : Except PlanError (Option Scope) :=
  match value with
  | .null => .ok none
  | .str word =>
    match Scope.ofWord? word with
    | some scope => .ok (some scope)
    | none => .error (.invalidScope word)
  | _ => .error (.invalidScope value.text)

/-- The plan with one entry of the condition read into it. -/
def readEntry (plan : Plan) (key : String) (value : Json) : Except PlanError Plan :=
  if key = indexKey then .ok plan
  else if key = orderKey then (sortKeys value).map fun order => { plan with order := order }
  else if key = offsetKey then (count key value).map fun offset => { plan with offset := offset }
  else if key = limitKey then (count key value).map fun limit => { plan with limit := limit }
  else if key = scopeKey then (window value).map fun scope => { plan with scope := scope }
  else (predicate key value).map fun test => { plan with filter := plan.filter ++ [test] }

/-- The plan with all entries read into it, up to the first error. -/
def readEntries (plan : Plan) : List (String × Json) → Except PlanError Plan
  | [] => .ok plan
  | (key, value) :: rest =>
    match readEntry plan key value with
    | .error error => .error error
    | .ok next => readEntries next rest

/-- The key a condition looks up. -/
def indexOf? (condition : Condition) : Option Json :=
  match Object.get? condition indexKey with
  | some .null => none
  | found => found

/-- The read plan of an optional condition. -/
def ofCondition (condition : Option Condition) (options : SelectOptions) :
    Except PlanError Plan :=
  match condition with
  | none => .ok (everything options)
  | some condition =>
    match indexOf? condition with
    | some key => .ok { everything options with index := some key }
    | none => readEntries (everything options) condition

end Plan

end RecordStore
