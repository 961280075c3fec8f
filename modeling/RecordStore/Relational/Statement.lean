/-
Module: RecordStore.Relational.Statement
Purpose: The text of statements.  Values are bound to holes and never written into the
  text; identifiers are quoted.  A clause keeps its text in pieces beside the values
  that are bound, in order.
Main exports: quoteIdentifier, Clause, RowQuery.whereClause, RowQuery.orderClause,
  RowQuery.limitClause, Schema.createStatements, Schema.dropStatement
-/
import RecordStore.Relational.Filter

namespace RecordStore

/-- The characters of an identifier with its quotes doubled. -/
def doubleQuotes : List Char → List Char
  | [] => []
  | c :: rest => if c = '\x22' then c :: c :: doubleQuotes rest else c :: doubleQuotes rest

/-- A quoted identifier. -/
def quoteIdentifier (name : String) : String :=
  String.ofList ('\x22' :: (doubleQuotes name.toList ++ ['\x22']))

/-- A piece of statement text: fixed words, a quoted identifier, or a hole for a value. -/
inductive Piece where
  | words (text : String)
  | name (identifier : String)
  | hole
deriving DecidableEq, Repr

/-- The text of a piece. -/
def Piece.text : Piece → String
  | .words text => text
  | .name identifier => quoteIdentifier identifier
  | .hole => "?"

/-- A part of a statement, and the values bound to its holes. -/
structure Clause where
  pieces : List Piece
  params : List SqlValue
deriving Repr, Inhabited

namespace Clause

/-- Nothing at all. -/
def empty : Clause := ⟨[], []⟩

/-- Fixed words. -/
def words (text : String) : Clause := ⟨[.words text], []⟩

/-- A quoted identifier. -/
def name (identifier : String) : Clause := ⟨[.name identifier], []⟩

/-- A hole with its value. -/
def bound (value : SqlValue) : Clause := ⟨[.hole], [value]⟩

/-- One part after another. -/
def append (first second : Clause) : Clause :=
  ⟨first.pieces ++ second.pieces, first.params ++ second.params⟩

instance : Append Clause := ⟨append⟩

/-- Parts with fixed words between them. -/
def joined (separator : String) : List Clause → Clause
  | [] => empty
  | [part] => part
  | part :: rest => part ++ words separator ++ joined separator rest

/-- The text of a part. -/
def text (clause : Clause) : String := String.join (clause.pieces.map Piece.text)

/-- The number of holes. -/
def holes (clause : Clause) : Nat := clause.pieces.count .hole

/-- Whether there are as many values as holes, without which no statement runs. -/
def isBalanced (clause : Clause) : Bool := clause.holes == clause.params.length

end Clause

/-- A name in a JSON path, quoted. -/
def pathName (name : String) : List Char :=
  '.' :: '\x22' :: (name.toList.flatMap fun c => if c = '\x22' then ['\\', c] else [c]) ++ ['\x22']

/-- A step of a JSON path. -/
def pathStep : Segment → List Char
  | .name name => pathName name
  | .index index => '[' :: (digitsOf index ++ [']'])
  | .element _ _ => []

/-- A JSON path. -/
def pathText (steps : List Segment) : String :=
  String.ofList ('$' :: steps.flatMap pathStep)

/-- A term in a statement. -/
def Term.clause : Term → Clause
  | .column found => .name found.name
  | .inner found steps =>
    .words "json_extract(" ++ .name found.name ++ .words ", " ++ .bound (.text (pathText steps)) ++
      .words ")"

/-- The symbol of a comparison. -/
def Comparison.symbol : Comparison → String
  | .eq => "="
  | .ne => "<>"
  | .lt => "<"
  | .gt => ">"
  | .le => "<="
  | .ge => ">="

/-- Holes for several values. -/
def boundList (values : List SqlValue) : Clause := Clause.joined ", " (values.map Clause.bound)

/-- A test in a statement.  Membership in an empty list is a fixed falsehood, yet the
values of its term are bound. -/
def RowTest.clause : RowTest → Clause
  | .compare term comparison operand =>
    term.clause ++ .words (" " ++ comparison.symbol ++ " ") ++ .bound operand
  | .isNull term => term.clause ++ .words " IS NULL"
  | .isNotNull term => term.clause ++ .words " IS NOT NULL"
  | .hasElement negated term operand =>
    .words ((if negated then "NOT " else "") ++ "EXISTS (SELECT 1 FROM json_each(") ++
      term.clause ++ .words ") WHERE value = " ++ .bound operand ++ .words ")"
  | .hasElementIn term operands =>
    .words "EXISTS (SELECT 1 FROM json_each(" ++ term.clause ++ .words ") WHERE value IN (" ++
      boundList operands ++ .words "))"
  | .oneOf term operands => term.clause ++ .words " IN (" ++ boundList operands ++ .words ")"
  | .like term pattern => term.clause ++ .words " LIKE " ++ .bound (.text pattern)
  | .never term => ⟨[.words "0 = 1"], term.clause.params⟩
  | .createdWithin days =>
    .words "julianday('now') - julianday(" ++ .name createdAtField ++ .words ") < " ++
      .bound (.int days)

/-- The word of a direction. -/
def SortOrder.keyword : SortOrder → String
  | .asc => "ASC"
  | .desc => "DESC"

/-- A count as a parameter, at most the largest 64-bit integer. -/
def boundCount (n : Nat) : Clause := .bound (.int (min (n : Int) maxInt64))

namespace RowQuery

/-- The filter of a statement. -/
def whereClause (query : RowQuery) : Clause :=
  if query.tests.isEmpty then .empty
  else .words " WHERE " ++ Clause.joined " AND " (query.tests.map RowTest.clause)

/-- A sort key in a statement. -/
def keyClause (key : Term × SortOrder) : Clause :=
  key.1.clause ++ .words (" " ++ key.2.keyword)

/-- The order of a statement. -/
def orderClause (query : RowQuery) : Clause :=
  if query.order.isEmpty then .empty
  else .words " ORDER BY " ++ Clause.joined ", " (query.order.map keyClause)

/-- The page of a statement. -/
def limitClause (query : RowQuery) : Clause :=
  match query.page with
  | .all => .empty
  | .after offset => .words " LIMIT -1 OFFSET " ++ boundCount offset
  | .window limit offset =>
    .words " LIMIT " ++ boundCount limit ++ .words " OFFSET " ++ boundCount offset

/-- Filter, order and page together. -/
def allClauses (query : RowQuery) : Clause :=
  query.whereClause ++ query.orderClause ++ query.limitClause

end RowQuery

/-- The name of the index on a column. -/
def indexName (table column : String) : String := "idx_" ++ table ++ "_" ++ column

namespace Schema

/-- The declaration of a column in a statement. -/
def columnDeclaration (column : Column) : String :=
  quoteIdentifier column.name ++ " " ++ column.kind.declaration

/-- The statement that makes the index of a column. -/
def indexStatement (schema : Schema) (column : Column) : String :=
  "CREATE INDEX IF NOT EXISTS " ++ quoteIdentifier (indexName schema.name column.name) ++ " ON " ++
    quoteIdentifier schema.name ++ " (" ++ quoteIdentifier column.name ++ ")"

/-- The statements that make the table of a model and its indexes. -/
def createStatements (schema : Schema) : List String :=
  ("CREATE TABLE IF NOT EXISTS " ++ quoteIdentifier schema.name ++ " (" ++
      String.intercalate ", " (schema.tableColumns.map columnDeclaration) ++ ")") ::
    (schema.tableColumns.filter Column.indexed).map schema.indexStatement

/-- The statement that drops the table of a model. -/
def dropStatement (schema : Schema) : String :=
  "DROP TABLE IF EXISTS " ++ quoteIdentifier schema.name

end Schema

end RecordStore
