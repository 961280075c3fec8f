/-
Module: RecordStore.Relational.Evaluation
Purpose: What row tests, sort keys and pages mean.  A comparison with `null` is not true;
  an operand takes the affinity of the column it is compared with; places inside JSON
  text have none.
Main exports: Row, Term.value, RowTest.holds, RowQuery.run
-/
import RecordStore.Relational.Filter
import RecordStore.Relational.JulianDay
import RecordStore.Path.Lookup

namespace RecordStore

/-- The cells of a row by column. -/
abbrev Row := List (String × SqlValue)

/-- The cell of a column. -/
def Row.cell? : Row → String → Option SqlValue
  | [], _ => none
  | cell :: rest, name => if cell.1 = name then some cell.2 else Row.cell? rest name

/-- The value of a quoted name: the cell of that column, or the name itself as text if
there is no such column. -/
def Row.get (row : Row) (name : String) : SqlValue := (row.cell? name).getD (.text name)

/-- The dialect in which statements read JSON text. -/
def Json.databaseDialect : Json.Dialect := ⟨1000, fun n => some n.nearest⟩

/-- The value of a place inside JSON text: truth values are numbers, containers text. -/
def SqlValue.ofJson : Json → SqlValue
  | .null => .null
  | .bool b => SqlValue.ofBool b
  | .num n => SqlValue.ofNumber n
  | .str written => .text written
  | .arr items => .text (Json.text (.arr items))
  | .obj members => .text (Json.text (.obj members))

/-- The JSON value of a text cell. -/
def SqlValue.json? : SqlValue → Option Json
  | .text written => Json.read? Json.databaseDialect written
  | _ => none

/-- The member that a name in a path inside JSON text stands for.  Only quotes are escaped
where the name is written into the path, so a backslash of its own is read there as the
escape it starts, and a name with a quote finds nothing.  Escapes are those of JSON text: the
further ones of JSON5, and control characters beside an escape, are left out. -/
def Json.memberName? (name : String) : Option String :=
  if name.toList.contains '\x22' then none
  else if name.toList.contains '\\' then
    (Json.read? Json.databaseDialect ("\x22" ++ name ++ "\x22")).bind Json.str?
  else some name

/-- A step inside JSON text.  Positions are numbers of 32 bits and wrap around. -/
def Json.extractStep? (value : Json) (segment : Segment) : Option Json :=
  match segment with
  | .name name => (Json.memberName? name).bind (value.step? <| .name ·)
  | .index position => value.step? (.index (position % 4294967296))
  | .element .. => value.step? segment

/-- The place at the end of several steps. -/
def Json.extract? : Json → List Segment → Option Json
  | value, [] => some value
  | value, segment :: rest => (value.extractStep? segment).bind (Json.extract? · rest)

namespace Term

/-- The value of a term in a row. -/
def value (row : Row) : Term → SqlValue
  | .column found => row.get found.name
  | .inner found steps =>
    match ((row.get found.name).json?).bind (Json.extract? · steps) with
    | some place => SqlValue.ofJson place
    | none => .null

/-- The affinity of a term. -/
def affinity : Term → Affinity
  | .column found => found.affinity
  | .inner _ _ => .none

/-- The columns of the table of elements.  Where a list column has one of these names, the
name stands for the table's own column and there are no elements. -/
def elementColumns : List String :=
  ["key", "value", "type", "atom", "id", "parent", "fullkey", "path", "json", "root",
    "rowid", "_rowid_", "oid"]

/-- The values of the elements of a term: those of a list, the members of an object, or
the one value itself.  A text that is not JSON has none. -/
def elements (row : Row) (term : Term) : List SqlValue :=
  if elementColumns.any (Text.sameFolded term.base.name) then []
  else
    match (term.value row).json? with
    | none => []
    | some (.arr items) => items.map SqlValue.ofJson
    | some (.obj members) => members.map fun member => SqlValue.ofJson member.2
    | some single => [SqlValue.ofJson single]

end Term

/-- Whether an order is one that a comparison asks for. -/
def Comparison.allows (comparison : Comparison) (order : Ordering) : Bool :=
  match comparison with
  | .eq => order == .eq
  | .ne => order != .eq
  | .lt => order == .lt
  | .gt => order == .gt
  | .le => order != .gt
  | .ge => order != .lt

/-- Whether two values compare as asked; nothing compares with `null`. -/
def Comparison.holds (comparison : Comparison) (left right : SqlValue) : Bool :=
  (left.compare? right).any comparison.allows

/-- Whether characters fit a pattern: `%` stands for any characters, `_` for one, and
letters match without regard to ASCII case. -/
def likeChars : List Char → List Char → Bool
  | [], [] => true
  | [], _ :: _ => false
  | p :: pattern, [] => p == '%' && likeChars pattern []
  | p :: pattern, c :: rest =>
    if p = '%' then likeChars pattern (c :: rest) || likeChars (p :: pattern) rest
    else (p == '_' || p.toLower == c.toLower) && likeChars pattern rest
termination_by pattern text => pattern.length + text.length

/-- Whether a text fits a pattern; both end before a null character. -/
def likeText (pattern text : String) : Bool :=
  likeChars (pattern.toList.takeWhile (· != '\x00')) (text.toList.takeWhile (· != '\x00'))

namespace RowTest

/-- Whether a row was created less than a number of days before now. -/
def isRecent (now : Instant) (days : Nat) (row : Row) : Bool :=
  match ((row.get createdAtField).text?).bind (JulianDay.milliseconds? now) with
  | some created => decide (JulianDay.ofInstant now - created < days * JulianDay.dayLength)
  | none => false

/-- Whether a row passes a test at a moment. -/
def holds (now : Instant) (row : Row) : RowTest → Bool
  | .compare term comparison operand =>
    comparison.holds (term.value row) (term.affinity.convert operand)
  | .isNull term => term.value row == .null
  | .isNotNull term => term.value row != .null
  | .hasElement negated term operand =>
    (term.elements row).any (Comparison.eq.holds · operand) != negated
  | .hasElementIn term operands =>
    (term.elements row).any fun element => operands.any (Comparison.eq.holds element ·)
  | .oneOf term operands =>
    operands.any fun operand =>
      Comparison.eq.holds (term.value row) (term.affinity.convert operand)
  | .like term pattern => ((term.value row).text?).any (likeText pattern)
  | .never _ => false
  | .createdWithin days => isRecent now days row

end RowTest

namespace RowQuery

/-- Whether a row passes every test. -/
def accepts (now : Instant) (query : RowQuery) (row : Row) : Bool :=
  query.tests.all (·.holds now row)

/-- Order of two rows by the sort keys in turn. -/
def compareRows (keys : List (Term × SortOrder)) (left right : Row) : Ordering :=
  match keys with
  | [] => .eq
  | (term, order) :: rest =>
    let result := SqlValue.sortCompare (term.value left) (term.value right)
    (match order with
      | .asc => result
      | .desc => result.swap).then (compareRows rest left right)

/-- Rows in the order of the sort keys; rows that tie keep their order. -/
def sort (query : RowQuery) (rows : List Row) : List Row :=
  rows.mergeSort fun left right => compareRows query.order left right != .gt

/-- The rows of a page. -/
def paginate (query : RowQuery) (rows : List Row) : List Row :=
  match query.page with
  | .all => rows
  | .after offset => rows.drop offset
  | .window limit offset => (rows.drop offset).take limit

/-- The rows a query returns. -/
def run (now : Instant) (query : RowQuery) (rows : List Row) : List Row :=
  query.paginate (query.sort (rows.filter (query.accepts now)))

end RowQuery

/-- The greatest value that is not `null`; of equal ones the first. -/
def SqlValue.greatest (values : List SqlValue) : SqlValue :=
  values.foldl (fun best value =>
    if best == .null || best.compare? value == some .lt then value else best) .null

end RecordStore
