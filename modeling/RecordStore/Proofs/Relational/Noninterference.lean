/-
Module: RecordStore.Proofs.Relational.Noninterference
Purpose: What the text of a statement does not depend on.  Two plans are alike when they ask
  the same questions of the same columns with different values: other operands, other places
  inside a column, another key, scope, offset and limit.  Their statements have one text, so no
  value has a part in it, and all that is quoted in the text are columns of the table.
Main exports: FieldPath.Alike, Test.Alike, Plan.Alike, RowTest.pieces_ofTest,
  statements_ignore_values
-/
import RecordStore.Proofs.Relational.Quoting

namespace RecordStore

/-! ### Plans that differ in values -/

/-- Paths into one field: both to the field itself, or both to a place inside it. -/
def FieldPath.Alike (first second : FieldPath) : Prop :=
  first.root = second.root ∧ first.isTopLevel = second.isTopLevel

/-- Operands that both stand for a value or both for none, and that are both lists or neither. -/
def OperandsAlike (first second : Json) : Prop :=
  (SqlValue.ofOperand? first).isSome = (SqlValue.ofOperand? second).isSome ∧
    first.isArr = second.isArr

/-- Tests with one operator.  Equality tells operands that stand for a value and lists from
others, membership the number of its operands. -/
inductive Test.Alike : Test → Test → Prop where
  | eq {first second : Json} (operands : OperandsAlike first second) :
      Alike (.eq first) (.eq second)
  | ne {first second : Json} (operands : OperandsAlike first second) :
      Alike (.ne first) (.ne second)
  | lt (first second : Json) : Alike (.lt first) (.lt second)
  | gt (first second : Json) : Alike (.gt first) (.gt second)
  | le (first second : Json) : Alike (.le first) (.le second)
  | ge (first second : Json) : Alike (.ge first) (.ge second)
  | isNull : Alike .isNull .isNull
  | isNotNull : Alike .isNotNull .isNotNull
  | oneOf {first second : List Json} (counted : first.length = second.length) :
      Alike (.oneOf first) (.oneOf second)
  | like (first second : String) : Alike (.like first) (.like second)

/-- Plans that differ in nothing but values. -/
structure Plan.Alike (first second : Plan) : Prop where
  index : first.index.isSome = second.index.isSome
  filter : List.Forall₂ (fun one other : Predicate =>
    one.field.Alike other.field ∧ one.test.Alike other.test) first.filter second.filter
  scope : first.scope.isSome = second.scope.isSome
  order : List.Forall₂ (fun one other : FieldPath × SortOrder =>
    one.1.Alike other.1 ∧ one.2 = other.2) first.order second.order
  offset : first.offset.isSome = second.offset.isSome
  limit : first.limit.isSome = second.limit.isSome

/-! ### Lists that go together -/

theorem isEmpty_eq_of_length {α β : Type} {first : List α} {second : List β}
    (counted : first.length = second.length) : first.isEmpty = second.isEmpty := by
  rw [Bool.eq_iff_iff, List.isEmpty_iff_length_eq_zero, List.isEmpty_iff_length_eq_zero, counted]

/-! ### Pieces of text -/

namespace Clause

theorem text_eq_of_pieces {first second : Clause} (same : first.pieces = second.pieces) :
    first.text = second.text := by
  rw [text, text, same]

theorem pieces_append (first second : Clause) :
    (first ++ second).pieces = first.pieces ++ second.pieces := rfl

theorem pieces_joined {separator : String} {parts others : List Clause}
    (same : List.Forall₂ (fun part other => part.pieces = other.pieces) parts others) :
    (joined separator parts).pieces = (joined separator others).pieces := by
  induction same with
  | nil => rfl
  | @cons part other rest remaining first later ih =>
      cases later with
      | nil => exact first
      | cons next following =>
          have cut (head next : Clause) (tail : List Clause) :
              (joined separator (head :: next :: tail)).pieces =
                head.pieces ++ (words separator).pieces ++
                  (joined separator (next :: tail)).pieces := rfl
          rw [cut, cut, first, ih]

end Clause

/-- Lists of values have one text if they are as long as each other. -/
theorem pieces_boundList {first second : List SqlValue} (counted : first.length = second.length) :
    (boundList first).pieces = (boundList second).pieces := by
  refine Clause.pieces_joined ?_
  rw [List.forall₂_map_left_iff, List.forall₂_map_right_iff]
  exact List.forall₂_iff_get.mpr ⟨counted, fun _ _ _ => rfl⟩

/-- Alike paths have terms with one text, and both are lists or neither is. -/
theorem Term.pieces_ofPath {schema : Schema} {path other : FieldPath} {term term' : Term}
    (alike : path.Alike other) (read : ofPath schema path = .ok term)
    (read' : ofPath schema other = .ok term') :
    term.clause.pieces = term'.clause.pieces ∧ term.isList schema = term'.isList schema := by
  obtain ⟨found, named, shape⟩ := ofPath_eq_ok read
  obtain ⟨found', named', shape'⟩ := ofPath_eq_ok read'
  obtain ⟨root, top⟩ := alike
  rw [root, named'] at named
  cases named
  rw [top] at shape
  rcases shape with ⟨whole, rfl⟩ | ⟨inside, steps, rfl⟩
  · rcases shape' with ⟨-, rfl⟩ | ⟨inside', -⟩
    · exact ⟨rfl, rfl⟩
    · exact absurd whole inside'
  · rcases shape' with ⟨whole', -⟩ | ⟨-, steps', rfl⟩
    · exact absurd whole' inside
    · exact ⟨rfl, rfl⟩

namespace RowTest

variable {term term' : Term}

theorem pieces_ofEquality (same : term.clause.pieces = term'.clause.pieces)
    (negated isList : Bool) {operand operand' : Json} (alike : OperandsAlike operand operand') :
    (ofEquality negated isList term operand).clause.pieces =
      (ofEquality negated isList term' operand').clause.pieces := by
  obtain ⟨valued, listed⟩ := alike
  unfold ofEquality
  rw [listed]
  cases value : SqlValue.ofOperand? operand with
  | none =>
      have value' : SqlValue.ofOperand? operand' = none := by
        rw [value] at valued
        exact Option.isNone_iff_eq_none.mp (Option.isSome_eq_false_iff.mp valued.symm)
      rw [value']
      cases negated <;> simp [clause, Clause.pieces_append, same]
  | some stored =>
      obtain ⟨stored', value'⟩ : ∃ stored', SqlValue.ofOperand? operand' = some stored' := by
        rw [value] at valued
        exact Option.isSome_iff_exists.mp valued.symm
      rw [value']
      dsimp only
      split
      · simp [clause, Clause.pieces_append, same, Clause.bound]
      · simp [clause, Clause.pieces_append, same, Clause.bound]

theorem pieces_ofMembership (same : term.clause.pieces = term'.clause.pieces) (isList : Bool)
    {operands operands' : List Json} (counted : operands.length = operands'.length) :
    (ofMembership isList term operands).clause.pieces =
      (ofMembership isList term' operands').clause.pieces := by
  have holes : (boundList (operands.map SqlValue.ofOperand)).pieces =
      (boundList (operands'.map SqlValue.ofOperand)).pieces :=
    pieces_boundList (by rw [List.length_map, List.length_map, counted])
  unfold ofMembership
  rw [isEmpty_eq_of_length counted]
  split
  · rfl
  · cases isList <;> simp [clause, Clause.pieces_append, same, holes]

/-- Alike tests of terms with one text have one text. -/
theorem pieces_ofTest (same : term.clause.pieces = term'.clause.pieces) (isList : Bool)
    {test test' : Test} (alike : test.Alike test') :
    (ofTest isList term test).clause.pieces = (ofTest isList term' test').clause.pieces := by
  cases alike with
  | eq operands => exact pieces_ofEquality same false isList operands
  | ne operands => exact pieces_ofEquality same true isList operands
  | oneOf counted => exact pieces_ofMembership same isList counted
  | _ => simp [ofTest, clause, Clause.pieces_append, same, Clause.bound]

theorem pieces_ofPredicate {schema : Schema} {predicate other : Predicate} {test test' : RowTest}
    (field : predicate.field.Alike other.field) (alike : predicate.test.Alike other.test)
    (read : ofPredicate schema predicate = .ok test)
    (read' : ofPredicate schema other = .ok test') :
    test.clause.pieces = test'.clause.pieces := by
  obtain ⟨term, found, rfl⟩ := ofPredicate_eq_ok read
  obtain ⟨term', found', rfl⟩ := ofPredicate_eq_ok read'
  obtain ⟨same, lists⟩ := Term.pieces_ofPath field found found'
  rw [lists]
  exact pieces_ofTest same _ alike

end RowTest

namespace RowQuery

theorem sortKey_eq_ok {schema : Schema} {asked : FieldPath × SortOrder} {key : Term × SortOrder}
    (read : sortKey schema asked = .ok key) :
    Term.ofPath schema asked.1 = .ok key.1 ∧ key.2 = asked.2 := by
  obtain ⟨term, found, rfl⟩ := map_eq_ok_iff.mp read
  exact ⟨found, rfl⟩

theorem pieces_sortKey {schema : Schema} {asked other : FieldPath × SortOrder}
    {key key' : Term × SortOrder} (field : asked.1.Alike other.1) (direction : asked.2 = other.2)
    (read : sortKey schema asked = .ok key) (read' : sortKey schema other = .ok key') :
    (keyClause key).pieces = (keyClause key').pieces := by
  obtain ⟨found, given⟩ := sortKey_eq_ok read
  obtain ⟨found', given'⟩ := sortKey_eq_ok read'
  have same := (Term.pieces_ofPath field found found').1
  simp [keyClause, Clause.pieces_append, same, given, given', direction]

/-- The tests of a scope have one text, and so have the pages of alike plans. -/
theorem pieces_scope {scope other : Option Scope} (same : scope.isSome = other.isSome) :
    List.Forall₂ (fun test test' : RowTest => test.clause.pieces = test'.clause.pieces)
      (scope.map fun scope => RowTest.createdWithin scope.days).toList
      (other.map fun scope => RowTest.createdWithin scope.days).toList := by
  cases scope with
  | none =>
      cases other with
      | none => exact .nil
      | some window => cases same
  | some window =>
      cases other with
      | none => cases same
      | some window' => exact .cons rfl .nil

/-- The filters of tests with one text have one text. -/
theorem pieces_whereClause {query other : RowQuery}
    (same : List.Forall₂ (fun test test' : RowTest => test.clause.pieces = test'.clause.pieces)
      query.tests other.tests) : query.whereClause.pieces = other.whereClause.pieces := by
  have joined := @Clause.pieces_joined " AND " (query.tests.map RowTest.clause)
    (other.tests.map RowTest.clause)
  rw [List.forall₂_map_left_iff, List.forall₂_map_right_iff] at joined
  unfold whereClause
  rw [isEmpty_eq_of_length same.length_eq]
  split
  · rfl
  · rw [Clause.pieces_append, Clause.pieces_append, joined same]

theorem pieces_orderClause {query other : RowQuery}
    (same : List.Forall₂ (fun key key' => (keyClause key).pieces = (keyClause key').pieces)
      query.order other.order) : query.orderClause.pieces = other.orderClause.pieces := by
  have joined := @Clause.pieces_joined ", " (query.order.map keyClause) (other.order.map keyClause)
  rw [List.forall₂_map_left_iff, List.forall₂_map_right_iff] at joined
  unfold orderClause
  rw [isEmpty_eq_of_length same.length_eq]
  split
  · rfl
  · rw [Clause.pieces_append, Clause.pieces_append, joined same]

theorem pieces_limitClause {first second : Plan} (alike : first.Alike second)
    {query other : RowQuery} (page : query.page = Page.ofPlan first)
    (page' : other.page = Page.ofPlan second) :
    query.limitClause.pieces = other.limitClause.pieces := by
  have limits := alike.limit
  have offsets := alike.offset
  unfold limitClause
  rw [page, page', Page.ofPlan, Page.ofPlan]
  cases limit : first.limit <;> cases limit' : second.limit <;>
    simp only [limit, limit', Option.isSome_some, Option.isSome_none, reduceCtorEq] at limits
  · cases offset : first.offset <;> cases offset' : second.offset <;>
      simp only [offset, offset', Option.isSome_some, Option.isSome_none, reduceCtorEq] at offsets
    · rfl
    · rfl
  · rfl

/-- Alike plans ask for filters, orders and pages with one text. -/
theorem pieces_compile {schema : Schema} {first second : Plan} {query other : RowQuery}
    (alike : first.Alike second) (compiled : compile schema first = .ok query)
    (compiled' : compile schema second = .ok other) :
    query.whereClause.pieces = other.whereClause.pieces ∧
      query.orderClause.pieces = other.orderClause.pieces ∧
      query.limitClause.pieces = other.limitClause.pieces := by
  have indexed := alike.index
  rcases Relational.compile_eq_ok compiled with
    ⟨key, index, rfl⟩ | ⟨index, tests, order, filter, keys, rfl⟩
  · rcases Relational.compile_eq_ok compiled' with
      ⟨key', -, rfl⟩ | ⟨index', -⟩
    · exact ⟨rfl, rfl, rfl⟩
    · rw [index, index'] at indexed
      cases indexed
  · rcases Relational.compile_eq_ok compiled' with
      ⟨key', index', -⟩ | ⟨-, tests', order', filter', keys', rfl⟩
    · rw [index, index'] at indexed
      cases indexed
    · refine ⟨pieces_whereClause ?_, pieces_orderClause ?_, pieces_limitClause alike rfl rfl⟩
      · refine List.rel_append (forall₂_of_partners ?_ alike.filter filter filter')
          (pieces_scope alike.scope)
        exact fun _ _ _ _ same => RowTest.pieces_ofPredicate same.1 same.2
      · refine forall₂_of_partners ?_ alike.order keys keys'
        exact fun _ _ _ _ same => pieces_sortKey same.1 same.2

/-! ### Columns that are named -/

theorem base_mem_of_ofPath {schema : Schema} {path : FieldPath} {term : Term}
    (read : Term.ofPath schema path = .ok term) :
    term.base.name ∈ schema.tableColumns.map Column.name := by
  obtain ⟨found, named, ⟨-, rfl⟩ | ⟨-, steps, rfl⟩⟩ := Term.ofPath_eq_ok read
  · exact List.mem_map_of_mem (List.mem_of_find?_eq_some named)
  · exact List.mem_map_of_mem (List.mem_of_find?_eq_some named)

/-- A test names the column of its term or nothing. -/
theorem named_ofTest {isList : Bool} {term : Term} {test : Test} {name : String}
    (member : name ∈ (RowTest.ofTest isList term test).named) : name = term.base.name := by
  unfold RowTest.ofTest RowTest.ofEquality RowTest.ofMembership at member
  repeat' split at member
  all_goals simp_all [RowTest.named]

/-- The columns that the tests and sort keys of a plan name are those of the table, if records
have a time of creation where the plan asks for it. -/
theorem named_compile {schema : Schema} {plan : Plan} {query : RowQuery}
    (timed : plan.checkScope schema = .ok ())
    (compiled : RowQuery.compile schema plan = .ok query) :
    (∀ test ∈ query.tests, ∀ name ∈ test.named, name ∈ schema.tableColumns.map Column.name) ∧
      ∀ key ∈ query.order, key.1.base.name ∈ schema.tableColumns.map Column.name := by
  rcases Relational.compile_eq_ok compiled with
    ⟨key, -, rfl⟩ | ⟨-, tests, order, filter, keys, rfl⟩
  · refine ⟨?_, fun key member => nomatch member⟩
    simp [RowTest.ofIndex, RowTest.named, Term.base, Schema.tableColumns]
  · constructor
    · refine List.forall_mem_append.mpr ⟨forall_of_forall₂ ?_ filter, fun test member => ?_⟩
      · intro predicate test read name named
        obtain ⟨term, found, rfl⟩ := RowTest.ofPredicate_eq_ok read
        rw [named_ofTest named]
        exact base_mem_of_ofPath found
      · cases scope : plan.scope with
        | none => simp [scope] at member
        | some window =>
            have stamped : schema.timestamps = true := by
              simpa [Plan.checkScope, scope] using timed
            rw [scope] at member
            obtain rfl := List.mem_singleton.mp member
            simp [RowTest.named, Schema.tableColumns, stamped, Column.ofTime]
    · refine forall_of_forall₂ (fun asked key read => ?_) keys
      exact base_mem_of_ofPath (sortKey_eq_ok read).1

end RowQuery

/-! ### Statements -/

/-- Statements that are made from plans which differ in nothing but values have one text, and
every identifier that is quoted in it is that of a column of the table. -/
theorem statements_ignore_values {schema : Schema} {first second : Plan} {query other : RowQuery}
    (alike : first.Alike second) (timed : first.checkScope schema = .ok ())
    (compiled : RowQuery.compile schema first = .ok query)
    (compiled' : RowQuery.compile schema second = .ok other) :
    query.whereClause.text = other.whereClause.text ∧
      query.orderClause.text = other.orderClause.text ∧
      query.limitClause.text = other.limitClause.text ∧
      ∀ name ∈ query.whereClause.quoted ++ query.orderClause.quoted ++ query.limitClause.quoted,
        name ∈ schema.tableColumns.map Column.name := by
  obtain ⟨filter, order, page⟩ := RowQuery.pieces_compile alike compiled compiled'
  obtain ⟨tests, keys⟩ := RowQuery.named_compile timed compiled
  refine ⟨Clause.text_eq_of_pieces filter, Clause.text_eq_of_pieces order,
    Clause.text_eq_of_pieces page, ?_⟩
  refine List.forall_mem_append.mpr ⟨List.forall_mem_append.mpr ⟨?_, ?_⟩, ?_⟩
  · exact (RowQuery.names_whereClause tests).quoted
  · exact (RowQuery.names_orderClause keys).quoted
  · exact query.unquoted_limitClause.names.quoted

/-- Operands that are made of statement text, places inside a column whose names hold quotes,
and other scopes and pages: the text is the same, and what it quotes are columns, one of which
has a quote in its name. -/
theorem statements_ignore_values_quotes :
    let model : Schema := ⟨"user", [("a\x22b", .scalar .string Traits.plain),
      ("data", .scalar .object Traits.plain), ("tags", .scalar .array Traits.plain)], true,
      Hooks.none⟩
    let inside (steps : List Segment) : FieldPath := ⟨"data", .name "data" :: steps, false⟩
    let plan (operand : Json) (steps : List Segment) (tags : List Json) (scope : Scope)
        (limit : Nat) : Plan :=
      ⟨none, [⟨FieldPath.field "a\x22b", .eq operand⟩, ⟨inside steps, .gt operand⟩,
        ⟨FieldPath.field "tags", .oneOf tags⟩], some scope, [(inside steps, .desc)], none,
        some limit, none, .none⟩
    let first := plan (.str "\x22 OR 1=1 --") [.name "\x22x\x22"] [.int 1, .null] .week 5
    let second := plan (.int 7) [.name "y", .index 3] [.str "'", .bool true] .year 0
    let text := " WHERE \x22a\x22\x22b\x22 = ? AND json_extract(\x22data\x22, ?) > ? AND " ++
      "EXISTS (SELECT 1 FROM json_each(\x22tags\x22) WHERE value IN (?, ?)) AND " ++
      "julianday('now') - julianday(\x22createdAt\x22) < ?"
    ∃ query other, RowQuery.compile model first = .ok query ∧
      RowQuery.compile model second = .ok other ∧ query.whereClause.text = text ∧
      other.whereClause.text = text ∧ query.orderClause.text = other.orderClause.text ∧
      ∀ name ∈ query.whereClause.quoted,
        name ∈ ["id", "a\x22b", "data", "tags", "createdAt", "updatedAt"] := by
  intro model inside plan first second text
  let name : Column := ⟨"a\x22b", .text, none, false⟩
  let data : Column := ⟨"data", .json, none, false⟩
  let tags : Column := ⟨"tags", .json, none, false⟩
  let query : RowQuery := ⟨[.compare (.column name) .eq (.text "\x22 OR 1=1 --"),
    .compare (.inner data [.name "\x22x\x22"]) .gt (.text "\x22 OR 1=1 --"),
    .hasElementIn (.column tags) [.int 1, .null], .createdWithin 7],
    [(.inner data [.name "\x22x\x22"], .desc)], .window 5 0⟩
  let other : RowQuery := ⟨[.compare (.column name) .eq (.int 7),
    .compare (.inner data [.name "y", .index 3]) .gt (.int 7),
    .hasElementIn (.column tags) [.text "'", .int 1], .createdWithin 365],
    [(.inner data [.name "y", .index 3], .desc)], .window 0 0⟩
  have compiled : RowQuery.compile model first = .ok query := by
    dsimp only [model, inside, plan, first, name, data, tags, query]
    rfl
  have compiled' : RowQuery.compile model second = .ok other := by
    dsimp only [model, inside, plan, second, name, data, tags, other]
    rfl
  have alike : first.Alike second := by
    have paths : (inside [.name "\x22x\x22"]).Alike (inside [.name "y", .index 3]) := ⟨rfl, rfl⟩
    have operands : OperandsAlike (.str "\x22 OR 1=1 --") (.int 7) := ⟨by decide +kernel, rfl⟩
    refine ⟨rfl, .cons ⟨⟨rfl, rfl⟩, .eq operands⟩ (.cons ⟨paths, .gt _ _⟩ ?_), rfl,
      .cons ⟨paths, rfl⟩ .nil, rfl, rfl⟩
    exact .cons ⟨⟨rfl, rfl⟩, .oneOf rfl⟩ .nil
  have spelled : query.whereClause.text = text := by
    dsimp only [query, name, data, tags, text]
    decide +kernel
  obtain ⟨filter, order, -, names⟩ := statements_ignore_values alike rfl compiled compiled'
  refine ⟨query, other, compiled, compiled', spelled, filter ▸ spelled, order, ?_⟩
  exact fun name member => names name (List.mem_append_left _ (List.mem_append_left _ member))

end RecordStore
