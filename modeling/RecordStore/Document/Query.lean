/-
Module: RecordStore.Document.Query
Purpose: Running a read plan over records in memory: clauses that every record has to
  meet, a stable sort, and pagination; and the form of a query in the notation of
  document stores.
Main exports: Document.Query, Query.compile, Query.accepts, Query.run, Query.toDocument
-/
import RecordStore.Document.Order
import RecordStore.Path.Lookup
import RecordStore.Pattern.Parser
import RecordStore.Query.Fault

namespace RecordStore.Document

/-- A test ready to be run on a value. -/
inductive Matcher where
  | eq (operand : Json)
  | ne (operand : Json)
  | isNull
  | isNotNull
  | lt (operand : Json)
  | gt (operand : Json)
  | le (operand : Json)
  | ge (operand : Json)
  | oneOf (operands : List Json)
  | like (source : String) (pattern : Pattern)
deriving Inhabited

/-- A test on one field. -/
structure Clause where
  field : FieldPath
  matcher : Matcher
deriving Inhabited

/-- A query over the records of a model, other than by key. -/
structure Query where
  clauses : List Clause
  order : List (FieldPath × SortOrder)
  offset : Option Nat
  limit : Option Nat
deriving Inhabited

namespace Matcher

/-- The matcher of a test; a `like` operand has to be a regular expression. -/
def ofTest : Test → Except QueryFault Matcher
  | .eq operand => .ok (.eq operand)
  | .ne operand => .ok (.ne operand)
  | .lt operand => .ok (.lt operand)
  | .gt operand => .ok (.gt operand)
  | .le operand => .ok (.le operand)
  | .ge operand => .ok (.ge operand)
  | .isNull => .ok .isNull
  | .isNotNull => .ok .isNotNull
  | .oneOf operands => .ok (.oneOf operands)
  | .like source =>
    match Pattern.parse? source with
    | some pattern => .ok (.like source pattern)
    | none => .error (.badPattern source)

/-- A condition on a value, or on some element of an array. -/
def anyElement (test : Json → Bool) : Option Json → Bool
  | none => false
  | some (.arr items) => items.any test
  | some value => test value

/-- Whether a value compares with a bound in one of the given ways. -/
def ordered (ways : List Ordering) (bound value : Json) : Bool :=
  match compare value bound with
  | some way => ways.contains way
  | none => false

/-- Whether the value of a field, if it has one, meets the test. -/
def accepts (matcher : Matcher) (actual : Option Json) : Bool :=
  match matcher with
  | .isNull => (actual.map Json.isNull).getD true
  | .isNotNull => !(actual.map Json.isNull).getD true
  | .eq expected => actual.any (containsEqual · expected)
  | .ne expected => !actual.any (containsEqual · expected)
  | .oneOf candidates => actual.any fun value => candidates.any (containsEqual value ·)
  | .lt bound => anyElement (ordered [.lt] bound) actual
  | .gt bound => anyElement (ordered [.gt] bound) actual
  | .le bound => anyElement (ordered [.lt, .eq] bound) actual
  | .ge bound => anyElement (ordered [.gt, .eq] bound) actual
  | .like _ pattern => anyElement (fun value => value.str?.any pattern.occursIn) actual

/-- The test in the notation of document stores. -/
def rendered : Matcher → Json
  | .eq operand => operand
  | .isNull => .null
  | .ne operand => .obj [("$ne", operand)]
  | .isNotNull => .obj [("$ne", .null), ("$exists", .bool true)]
  | .lt operand => .obj [("$lt", operand)]
  | .gt operand => .obj [("$gt", operand)]
  | .le operand => .obj [("$lte", operand)]
  | .ge operand => .obj [("$gte", operand)]
  | .oneOf operands => .obj [("$in", .arr operands)]
  | .like source _ => .obj [("$regex", .str source)]

/-- Tests whose notation is the operand itself, which takes the place of what stood there. -/
def isBare : Matcher → Bool
  | .eq _ => true
  | .isNull => true
  | _ => false

end Matcher

/-- The clause of a filter test. -/
def Clause.ofPredicate (predicate : Predicate) : Except QueryFault Clause :=
  (Matcher.ofTest predicate.test).map fun matcher => ⟨predicate.field, matcher⟩

/-- The clause of a recency window: created after the moment that lies its days before now. -/
def Clause.ofScope (now : Instant) (scope : Scope) : Clause :=
  ⟨.field createdAtField, .gt (.str (now.minusDays scope.days).text)⟩

namespace Query

/-- The query of a plan at a moment. -/
def compile (plan : Plan) (now : Instant) : Except QueryFault Query :=
  (plan.filter.mapM Clause.ofPredicate).map fun clauses =>
    ⟨clauses ++ (plan.scope.map (Clause.ofScope now)).toList, plan.order, plan.offset, plan.limit⟩

/-- Whether a record meets every clause. -/
def accepts (query : Query) (record : Object) : Bool :=
  query.clauses.all fun clause => clause.matcher.accepts (record.lookup? clause.field)

/-- A comparison in a direction. -/
def directed (order : SortOrder) (result : Ordering) : Ordering :=
  match order with
  | .asc => result
  | .desc => result.swap

/-- Order of two records by the sort keys in turn. -/
def compareRecords (keys : List (FieldPath × SortOrder)) (left right : Object) : Ordering :=
  match keys with
  | [] => .eq
  | (field, order) :: rest =>
    (directed order (sortCompare (left.lookup? field) (right.lookup? field))).then
      (compareRecords rest left right)

/-- A record put behind the sorted ones, given last first, that it is not below. -/
def insertLast (below : Object → Object → Bool) (record : Object) : List Object → List Object
  | [] => [record]
  | last :: rest =>
    if below record last then last :: insertLast below record rest else record :: last :: rest

/-- Records in the order of the sort keys; records that tie keep their order. -/
def sort (query : Query) (records : List Object) : List Object :=
  let below left right := compareRecords query.order left right == .lt
  (records.foldl (fun sorted record => insertLast below record sorted) []).reverse

/-- The records of a page. -/
def paginate (query : Query) (records : List Object) : List Object :=
  let rest := records.drop (query.offset.getD 0)
  match query.limit with
  | none => rest
  | some limit => rest.take limit

/-- The records that meet the query, sorted and paginated. -/
def run (query : Query) (records : List Object) : List Object :=
  query.paginate (query.sort (records.filter query.accepts))

/-- The notation of the filter with a clause written into it: operators on one field
stand together, and a bare operand replaces what stands there. -/
def renderClause (filter : Object) (clause : Clause) : Object :=
  let key := clause.field.raw
  if clause.matcher.isBare then filter.insert key clause.matcher.rendered
  else
    match filter.get? key, clause.matcher.rendered with
    | some (.obj existing), .obj more => filter.insert key (.obj (Object.overlay existing more))
    | _, rendered => filter.insert key rendered

/-- The filter in the notation of document stores. -/
def filterNotation (query : Query) : Object := query.clauses.foldl renderClause []

/-- The sign of a direction. -/
def sign : SortOrder → Json
  | .asc => .int 1
  | .desc => .int (-1)

/-- The sort keys in the notation of document stores. -/
def sortNotation (query : Query) : Object :=
  query.order.foldl (fun keys key => keys.insert key.1.raw (sign key.2)) []

/-- The query in the notation of document stores. -/
def toDocument (query : Query) : Object :=
  [("filter", .obj query.filterNotation)] ++
    (if query.order.isEmpty then [] else [("sort", .obj query.sortNotation)]) ++
    (query.offset.map fun offset => ("skip", Json.int offset)).toList ++
    (query.limit.map fun limit => ("limit", Json.int limit)).toList

end Query

end RecordStore.Document
