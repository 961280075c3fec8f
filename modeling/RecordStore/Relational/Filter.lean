/-
Module: RecordStore.Relational.Filter
Purpose: Row tests, sort keys and pages: what a read plan asks of the rows of a table.
  Operands are coerced first: `null` in any case tests for no value, the words of truth
  values and numeric texts become numbers.
Main exports: Term, Term.base, RowTest, RowQuery, RowQuery.compile
-/
import RecordStore.Relational.Column
import RecordStore.Query.Fault

namespace RecordStore

/-- What a test or a sort key looks at: a column, or a place inside its JSON text. -/
inductive Term where
  | column (column : Column)
  | inner (column : Column) (steps : List Segment)
deriving DecidableEq, Repr, Inhabited

/-- The comparisons of statements. -/
inductive Comparison where
  | eq
  | ne
  | lt
  | gt
  | le
  | ge
deriving DecidableEq, Repr, Inhabited

/-- A test of a row. -/
inductive RowTest where
  | compare (term : Term) (comparison : Comparison) (operand : SqlValue)
  | isNull (term : Term)
  | isNotNull (term : Term)
  /-- Some element of a JSON list equals the operand, or none does. -/
  | hasElement (negated : Bool) (term : Term) (operand : SqlValue)
  | hasElementIn (term : Term) (operands : List SqlValue)
  | oneOf (term : Term) (operands : List SqlValue)
  | like (term : Term) (pattern : String)
  /-- Membership of the term in an empty list. -/
  | never (term : Term)
  /-- Created less than a number of days ago. -/
  | createdWithin (days : Nat)
deriving Repr, Inhabited

/-- The rows of a result that are returned. -/
inductive Page where
  | all
  | after (offset : Nat)
  | window (limit offset : Nat)
deriving DecidableEq, Repr, Inhabited

/-- A plan over the rows of a table. -/
structure RowQuery where
  tests : List RowTest
  order : List (Term × SortOrder)
  page : Page
deriving Repr, Inhabited

/-- An operand as a parameter; none when it stands for no value. -/
def SqlValue.ofOperand? (operand : Json) : Option SqlValue :=
  match operand with
  | .null => none
  | .bool b => some (SqlValue.ofBool b)
  | .num n => some (SqlValue.ofNumber n)
  | .str word =>
    if Text.sameFolded word "null" then none
    else if Text.sameFolded word "true" then some (.int 1)
    else if Text.sameFolded word "false" then some (.int 0)
    else some ((SqlValue.ofNumericText? word).getD (.text word))
  | other => some (.text other.text)

/-- An operand as a parameter. -/
def SqlValue.ofOperand (operand : Json) : SqlValue :=
  (SqlValue.ofOperand? operand).getD .null

namespace Term

/-- The column a term looks at. -/
def base : Term → Column
  | .column found => found
  | .inner found _ => found

/-- The steps inside a column; elements cannot be picked by a predicate. -/
def innerSteps (path : FieldPath) : List Segment → Except QueryFault (List Segment)
  | [] => .ok []
  | .element _ _ :: _ => .error (.elementPredicate path.raw)
  | segment :: rest => (innerSteps path rest).map (segment :: ·)

/-- The term of a path among the columns of a model. -/
def ofPath (schema : Schema) (path : FieldPath) : Except QueryFault Term :=
  match schema.tableColumns.find? fun column => column.name == path.root with
  | none => .error (.notAColumn path.root)
  | some found =>
    if path.isTopLevel then .ok (.column found)
    else if found.kind ≠ .json then .error (.noInnerFields found.name)
    else (innerSteps path path.segments.tail).map (.inner found)

/-- Whether a term is a whole column that stores a list. -/
def isList (schema : Schema) : Term → Bool
  | .column found =>
    found.kind == .json &&
      (found.element.isSome || (schema.field? found.name).any fun field => field.type == .array)
  | .inner _ _ => false

end Term

namespace RowTest

/-- The test of equality with an operand, or of its opposite. -/
def ofEquality (negated isList : Bool) (term : Term) (operand : Json) : RowTest :=
  match SqlValue.ofOperand? operand with
  | none => if negated then .isNotNull term else .isNull term
  | some value =>
    if isList && !operand.isArr then .hasElement negated term value
    else .compare term (if negated then .ne else .eq) value

/-- The test of membership in a list of operands. -/
def ofMembership (isList : Bool) (term : Term) (operands : List Json) : RowTest :=
  if operands.isEmpty then .never term
  else if isList then .hasElementIn term (operands.map SqlValue.ofOperand)
  else .oneOf term (operands.map SqlValue.ofOperand)

/-- A filter test as a test of rows. -/
def ofTest (isList : Bool) (term : Term) (test : Test) : RowTest :=
  match test with
  | .eq operand => ofEquality false isList term operand
  | .ne operand => ofEquality true isList term operand
  | .lt operand => .compare term .lt (SqlValue.ofOperand operand)
  | .gt operand => .compare term .gt (SqlValue.ofOperand operand)
  | .le operand => .compare term .le (SqlValue.ofOperand operand)
  | .ge operand => .compare term .ge (SqlValue.ofOperand operand)
  | .isNull => .isNull term
  | .isNotNull => .isNotNull term
  | .oneOf operands => ofMembership isList term operands
  | .like pattern => .like term pattern

/-- A filter predicate as a test of rows. -/
def ofPredicate (schema : Schema) (predicate : Predicate) : Except QueryFault RowTest :=
  (Term.ofPath schema predicate.field).map fun term =>
    ofTest (term.isList schema) term predicate.test

/-- The test for a key. -/
def ofIndex (key : Json) : RowTest := .compare (.column keyColumn) .eq (SqlValue.ofKey key)

end RowTest

/-- The page of a plan. -/
def Page.ofPlan (plan : Plan) : Page :=
  match plan.limit, plan.offset with
  | some limit, offset => .window limit (offset.getD 0)
  | none, some offset => .after offset
  | none, none => .all

namespace RowQuery

/-- A sort key of a plan. -/
def sortKey (schema : Schema) (key : FieldPath × SortOrder) :
    Except QueryFault (Term × SortOrder) :=
  (Term.ofPath schema key.1).map fun term => (term, key.2)

/-- What a plan asks of the rows of a model's table. -/
def compile (schema : Schema) (plan : Plan) : Except QueryFault RowQuery :=
  match plan.index with
  | some key => .ok ⟨[RowTest.ofIndex key], [], .all⟩
  | none =>
    match plan.filter.mapM (RowTest.ofPredicate schema) with
    | .error fault => .error fault
    | .ok tests =>
      (plan.order.mapM (sortKey schema)).map fun order =>
        ⟨tests ++ (plan.scope.map fun scope => RowTest.createdWithin scope.days).toList, order,
          Page.ofPlan plan⟩

end RowQuery

end RecordStore
