/-
Module: RecordStore.Proofs.Store.IntegerFilters
Purpose: Filters over integers select the same records on both stores.  A document store
  looks at the value of a field, which may be absent; a relational store at the cell that
  was stored for it, which is `null` then.  Test by test the two answers are the same, and
  so are the answers of the whole condition, also when the filter is read from its text.
Main exports: NumberField, IntegerTest, IntegerOrNothing, StoredAs, EntryAgrees,
  integer_filters_agree
-/
import RecordStore.Proofs.Number.Exact
import RecordStore.Proofs.Relational.Binding
import RecordStore.Proofs.Relational.Truth
import RecordStore.Proofs.Store.StoredFields

namespace RecordStore

open Binary64 (Exact)

/-! ### Fields, tests and values -/

/-- A stored field of numbers with a plain name that configures no query; no other column
has its name in any case. -/
structure NumberField (model : Schema) (name : String) : Prop where
  declared : ∃ field, (name, field) ∈ model.storedFields ∧ field.type = .number ∧
    field.isList = false ∧ ∀ column ∈ model.tableColumns,
      Text.sameFolded column.name name → column = Column.ofField (name, field)
  plain : PathGrammar.IsName name.toList
  free : name ∉ [indexKey, orderKey, offsetKey, limitKey, scopeKey]

/-- Comparison words that ask for equality or order. -/
def Operator.isOrdering (operator : Operator) : Bool := operator ∈ [.eq, .lt, .gt, .le, .ge]

/-- The condition values that compare with exact integers or ask whether there is a value. -/
inductive IntegerTest : Json → Prop where
  | bare {n : Int} (exact : Exact n) : IntegerTest (.int n)
  | compare {word : String} {operator : Operator} {n : Int}
      (named : Operator.ofWord? word = some operator) (ordering : operator.isOrdering)
      (exact : Exact n) : IntegerTest (.arr [.str word, .int n])
  | oneOf {word : String} {ns : List Int} (named : Operator.ofWord? word = some .oneOf)
      (exact : ∀ n ∈ ns, Exact n) : IntegerTest (.arr [.str word, .arr (ns.map Json.int)])
  | null : IntegerTest .null
  | isNull {word : String} (named : Operator.ofWord? word = some .eq) :
      IntegerTest (.arr [.str word, .null])
  | isNotNull {word : String} (named : Operator.ofWord? word = some .ne) :
      IntegerTest (.arr [.str word, .null])

/-- A value that is absent, `null` or an exact integer, and the cell that stores it. -/
inductive StoredAs : Option Json → SqlValue → Prop where
  | absent : StoredAs none .null
  | null : StoredAs (some .null) .null
  | integer {n : Int} (exact : Exact n) : StoredAs (some (.int n)) (.int n)

/-- A value that is absent, `null` or an exact integer. -/
inductive IntegerOrNothing : Option Json → Prop where
  | absent : IntegerOrNothing none
  | null : IntegerOrNothing (some .null)
  | integer {n : Int} (exact : Exact n) : IntegerOrNothing (some (.int n))

/-! ### Columns and cells -/

namespace NumberField

variable {model : Schema} {name : String}

/-- The column of a number field is the one that is found under its name. -/
theorem exists_column (number : NumberField model name) :
    ∃ column, model.tableColumns.find? (·.name == name) = some column ∧
      column.name = name ∧ column.kind = .numeric := by
  obtain ⟨field, stored, type, single, alone⟩ := number.declared
  have member : Column.ofField (name, field) ∈ model.tableColumns :=
    List.mem_cons_of_mem _ (List.mem_append_left _ (List.mem_map_of_mem stored))
  have kind : (Column.ofField (name, field)).kind = .numeric := by
    cases field with
    | scalar declared traits =>
        cases type
        simp only [Field.isList] at single
        simp [Column.ofField, ColumnKind.ofField, single]
    | nested inner members listed => cases type
  cases found : model.tableColumns.find? (·.name == name) with
  | none =>
      have none_named := List.find?_eq_none.mp found _ member
      simp [Column.ofField] at none_named
  | some column =>
      have named : column.name = name := by simpa using List.find?_some found
      have same := alone column (List.mem_of_find?_eq_some found)
        (by simp [named, Text.sameFolded])
      exact ⟨column, rfl, named, same ▸ kind⟩

/-- The cell stored for a number field. -/
theorem storedAs (number : NumberField model name) {record : Object}
    (value : IntegerOrNothing (record.get? name)) (key : Int) :
    StoredAs (record.get? name) ((storedRow model record key).get name) := by
  obtain ⟨column, found, named, kind⟩ := number.exists_column
  have cell : (storedRow model record key).get name =
      Affinity.numeric.convert (((record.get? name).map column.encode).getD .null) := by
    rw [Row.get, storedRow, Row.cell?_storedCell, found]
    simp [Table.storedCell, named, Relational.cell?_encodeRow, found, kind, Column.affinity,
      ColumnKind.affinity]
  rw [cell]
  generalize record.get? name = given at value
  cases value with
  | absent => exact .absent
  | null => exact .null
  | integer exact =>
      rename_i n
      have fits : n ≤ maxInt64 := by
        unfold Exact at exact
        unfold maxInt64
        omega
      have encoded : column.encode (.int n) = .int n := by
        simp [Column.encode, Json.int, kind, Column.encodeNumeric, SqlValue.ofNumber,
          Number.int64?, fits]
      simp only [Option.map_some, Option.getD_some, encoded]
      exact .integer exact

end NumberField

/-! ### One test on both stores -/

theorem SqlValue.ofOperand?_int {n : Int} (exact : Exact n) :
    SqlValue.ofOperand? (.int n) = some (.int n) := by
  have fits : n ≤ maxInt64 := by
    unfold Exact at exact
    unfold maxInt64
    omega
  simp [SqlValue.ofOperand?, Json.int, SqlValue.ofNumber, Number.int64?, fits]

namespace Document

theorem compare_int (a b : Int) :
    compare (.int a) (.int b) = (Binary64.ofInt a).compare? (Binary64.ofInt b) := rfl

theorem equal_int (a b : Int) :
    equal (.int a) (.int b) = (Binary64.ofInt a).sameValue (Binary64.ofInt b) := rfl

theorem anyElement_int (test : Json → Bool) (a : Int) :
    Matcher.anyElement test (some (.int a)) = test (.int a) := rfl

theorem containsEqual_int (a b : Int) :
    containsEqual (.int a) (.int b) = (Binary64.ofInt a).sameValue (Binary64.ofInt b) := by
  unfold containsEqual
  rw [equal_int]
  exact Bool.or_false _

end Document

/-- What a comparison with an exact integer answers: nothing compares with no value. -/
def comparesWith (comparison : Comparison) (n : Int) : SqlValue → Bool
  | .int i => comparison.allows (compare i n)
  | _ => false

section Alike

variable {now : Instant} {row : Row} {column : Column} {found : Option Json}

theorem holds_compare (numeric : column.kind = .numeric)
    (stored : StoredAs found (row.get column.name)) (comparison : Comparison) (n : Int) :
    (RowTest.compare (.column column) comparison (.int n)).holds now row =
      comparesWith comparison n (row.get column.name) := by
  have operand : (Term.column column).affinity.convert (.int n) = .int n := by
    simp only [Term.affinity, Column.affinity, numeric]
    rfl
  simp only [RowTest.holds, Term.value, operand]
  generalize row.get column.name = cell at stored
  cases stored with
  | absent => rfl
  | null => rfl
  | integer exact => rfl

/-- Equality with an exact integer in a document. -/
theorem any_containsEqual {cell : SqlValue} (stored : StoredAs found cell) {n : Int}
    (exact : Exact n) :
    found.any (Document.containsEqual · (.int n)) = comparesWith .eq n cell := by
  cases stored with
  | absent => rfl
  | null => rfl
  | integer own =>
      rw [Option.any_some, Document.containsEqual_int, Binary64.sameValue_ofInt own exact]
      rfl

/-- Order against an exact integer in a document. -/
theorem anyElement_ordered {cell : SqlValue} (stored : StoredAs found cell) {n : Int}
    (exact : Exact n) {ways : List Ordering} {comparison : Comparison}
    (asked : ∀ order, ways.contains order = comparison.allows order) :
    Document.Matcher.anyElement (Document.Matcher.ordered ways (.int n)) found =
      comparesWith comparison n cell := by
  cases stored with
  | absent => rfl
  | null => rfl
  | integer own =>
      rw [Document.anyElement_int, Document.Matcher.ordered, Document.compare_int,
        Binary64.compare?_ofInt own exact]
      exact asked _

end Alike

/-- A test that a document answers about a value as a row does about the cell of it. -/
structure AnsweredAlike (test : Test) (matcher : Document.Matcher) : Prop where
  read : Document.Matcher.ofTest test = .ok matcher
  plain : ∀ pattern, test ≠ .like pattern
  alike : ∀ (now : Instant) (row : Row) (column : Column) (found : Option Json),
    column.kind = .numeric → StoredAs found (row.get column.name) →
    matcher.accepts found = (RowTest.ofTest false (.column column) test).holds now row

namespace AnsweredAlike

variable {n : Int}

theorem eq (exact : Exact n) : AnsweredAlike (.eq (.int n)) (.eq (.int n)) := by
  refine ⟨rfl, nofun, fun now row column found numeric stored => ?_⟩
  have test : RowTest.ofTest false (.column column) (.eq (.int n)) =
      .compare (.column column) .eq (.int n) := by
    simp [RowTest.ofTest, RowTest.ofEquality, SqlValue.ofOperand?_int exact]
  rw [test, holds_compare numeric stored]
  exact any_containsEqual stored exact

/-- A test of order is one in documents and in rows. -/
theorem ordered (exact : Exact n) {test : Test} {matcher : Document.Matcher}
    {ways : List Ordering} {comparison : Comparison}
    (read : Document.Matcher.ofTest test = .ok matcher) (plain : ∀ pattern, test ≠ .like pattern)
    (inDocuments : ∀ found, matcher.accepts found =
      Document.Matcher.anyElement (Document.Matcher.ordered ways (.int n)) found)
    (inRows : ∀ term, RowTest.ofTest false term test =
      .compare term comparison (SqlValue.ofOperand (.int n)))
    (asked : ∀ order, ways.contains order = comparison.allows order) :
    AnsweredAlike test matcher := by
  refine ⟨read, plain, fun now row column found numeric stored => ?_⟩
  have operand : SqlValue.ofOperand (.int n) = .int n := by
    rw [SqlValue.ofOperand, SqlValue.ofOperand?_int exact]
    rfl
  rw [inDocuments, inRows, operand, holds_compare numeric stored]
  exact anyElement_ordered stored exact asked

theorem lt (exact : Exact n) : AnsweredAlike (.lt (.int n)) (.lt (.int n)) :=
  ordered exact rfl nofun (fun _ => rfl) (fun _ => rfl) fun order => by cases order <;> rfl

theorem gt (exact : Exact n) : AnsweredAlike (.gt (.int n)) (.gt (.int n)) :=
  ordered exact rfl nofun (fun _ => rfl) (fun _ => rfl) fun order => by cases order <;> rfl

theorem le (exact : Exact n) : AnsweredAlike (.le (.int n)) (.le (.int n)) :=
  ordered exact rfl nofun (fun _ => rfl) (fun _ => rfl) fun order => by cases order <;> rfl

theorem ge (exact : Exact n) : AnsweredAlike (.ge (.int n)) (.ge (.int n)) :=
  ordered exact rfl nofun (fun _ => rfl) (fun _ => rfl) fun order => by cases order <;> rfl

theorem isNull : AnsweredAlike .isNull .isNull := by
  refine ⟨rfl, nofun, fun now row column found numeric stored => ?_⟩
  change _ = (row.get column.name == .null)
  generalize row.get column.name = cell at stored
  cases stored <;> rfl

theorem isNotNull : AnsweredAlike .isNotNull .isNotNull := by
  refine ⟨rfl, nofun, fun now row column found numeric stored => ?_⟩
  change _ = (row.get column.name != .null)
  generalize row.get column.name = cell at stored
  cases stored <;> rfl

/-- Membership is equality with one of the elements, with none of an empty list. -/
theorem oneOf {ns : List Int} (exact : ∀ n ∈ ns, Exact n) :
    AnsweredAlike (.oneOf (ns.map Json.int)) (.oneOf (ns.map Json.int)) := by
  refine ⟨rfl, nofun, fun now row column found numeric stored => ?_⟩
  have inDocuments : (Document.Matcher.oneOf (ns.map Json.int)).accepts found =
      ns.any fun n => comparesWith .eq n (row.get column.name) := by
    have each : ∀ n ∈ ns, found.any (Document.containsEqual · (.int n)) =
        comparesWith .eq n (row.get column.name) := fun n member =>
      any_containsEqual stored (exact n member)
    have swapped : (Document.Matcher.oneOf (ns.map Json.int)).accepts found =
        ns.any fun n => found.any (Document.containsEqual · (.int n)) := by
      cases found with
      | none => simp [Document.Matcher.accepts]
      | some value => simp [Document.Matcher.accepts, List.any_map, Function.comp_def]
    rw [swapped, Bool.eq_iff_iff, List.any_eq_true, List.any_eq_true]
    exact exists_congr fun n => and_congr_right fun member => by rw [each n member]
  have operands : (ns.map Json.int).map SqlValue.ofOperand = ns.map SqlValue.int := by
    rw [List.map_map]
    refine List.map_congr_left fun n member => ?_
    rw [Function.comp_apply, SqlValue.ofOperand, SqlValue.ofOperand?_int (exact n member)]
    rfl
  rw [inDocuments]
  cases ns with
  | nil => rfl
  | cons first rest =>
      have test : RowTest.ofTest false (.column column) (.oneOf ((first :: rest).map Json.int)) =
          .oneOf (.column column) ((first :: rest).map SqlValue.int) := by
        rw [← operands]
        rfl
      rw [test, RowTest.holds, List.any_map]
      refine List.any_congr rfl fun n => ?_
      have compared := @holds_compare now row column found numeric stored .eq n
      exact compared.symm

end AnsweredAlike

/-- Every test of integers is answered alike. -/
theorem IntegerTest.exists_test {value : Json} (integer : IntegerTest value) (key : String) :
    ∃ test matcher, Test.ofValue key value = .ok test ∧ AnsweredAlike test matcher := by
  cases integer with
  | bare exact => exact ⟨_, _, rfl, .eq exact⟩
  | null => exact ⟨_, _, rfl, .isNull⟩
  | compare named ordering exact =>
      simp only [Test.ofValue, named]
      rename_i word operator n
      cases operator with
      | eq => exact ⟨_, _, rfl, .eq exact⟩
      | lt => exact ⟨_, _, rfl, .lt exact⟩
      | gt => exact ⟨_, _, rfl, .gt exact⟩
      | le => exact ⟨_, _, rfl, .le exact⟩
      | ge => exact ⟨_, _, rfl, .ge exact⟩
      | _ => cases ordering
  | oneOf named exact =>
      simp only [Test.ofValue, named]
      exact ⟨_, _, rfl, .oneOf exact⟩
  | isNull named =>
      simp only [Test.ofValue, named]
      exact ⟨_, _, rfl, .isNull⟩
  | isNotNull named =>
      simp only [Test.ofValue, named]
      exact ⟨_, _, rfl, .isNotNull⟩

/-! ### One entry of a condition -/

/-- An entry of a condition, as it is read into a plan and compiled for both stores, and
answered alike by both. -/
structure EntryAgrees (model : Schema) (entry : String × Json) (predicate : Predicate)
    (clause : Document.Clause) (test : RowTest) : Prop where
  read : ∀ plan : Plan, plan.readEntry entry.1 entry.2 =
    .ok { plan with filter := plan.filter ++ [predicate] }
  top : predicate.field.isTopLevel
  inDocuments : Document.Clause.ofPredicate predicate = .ok clause
  inRows : RowTest.ofPredicate model predicate = .ok test
  meant : ∀ row, ∃ truth, test.Means model.tableColumns row truth
  alike : ∀ (now : Instant) (record : Object) (key : Int),
    IntegerOrNothing (record.get? entry.1) →
    clause.matcher.accepts (record.lookup? clause.field) =
      test.holds now (storedRow model record key)

namespace NumberField

variable {model : Schema} {name : String}

/-- A plain name is read as the path of one step. -/
theorem path (number : NumberField model name) : Plan.field name = .ok (FieldPath.field name) :=
  Plan.field_of_isName number.plain

theorem term (number : NumberField model name) :
    ∃ column, Term.ofPath model (FieldPath.field name) = .ok (.column column) ∧
      model.tableColumns.find? (·.name == column.name) = some column ∧
      column.name = name ∧ column.kind = .numeric := by
  obtain ⟨column, found, named, kind⟩ := number.exists_column
  refine ⟨column, ?_, named ▸ found, named, kind⟩
  have root : (FieldPath.field name).root = name := rfl
  rw [Term.ofPath, root, found]
  rfl

/-- A test of integers on a number field is read and answered alike. -/
theorem exists_agreeing (number : NumberField model name) {value : Json}
    (integer : IntegerTest value) :
    ∃ predicate clause test, EntryAgrees model (name, value) predicate clause test := by
  obtain ⟨test, matcher, valued, answered⟩ := integer.exists_test name
  obtain ⟨column, term, found, named, kind⟩ := number.term
  have whole : (Term.column column).isList model = false := by
    simp [Term.isList, kind]
  have free := number.free
  simp only [List.mem_cons, List.not_mem_nil, or_false, not_or] at free
  refine ⟨⟨FieldPath.field name, test⟩, ⟨FieldPath.field name, matcher⟩,
    RowTest.ofTest false (.column column) test, ?_, rfl, ?_, ?_,
    fun row => RowTest.exists_means found answered.plain, ?_⟩
  · intro plan
    obtain ⟨index, order, offset, limit, scope⟩ := free
    simp only [Plan.readEntry, if_neg index, if_neg order, if_neg offset, if_neg limit,
      if_neg scope, Plan.predicate, number.path, valued]
    rfl
  · rw [Document.Clause.ofPredicate, answered.read]
    rfl
  · rw [RowTest.ofPredicate, term, ← whole]
    rfl
  · intro now record key value
    have stored := number.storedAs value key
    rw [← named] at stored
    have looked : record.lookup? (FieldPath.field name) = record.get? name := by
      simp [Object.lookup?, FieldPath.field, Json.walk?]
    rw [looked, ← named]
    exact answered.alike now _ column _ kind stored

end NumberField

/-! ### Whole conditions -/

/-- The entries of a condition are read into a plan one after the other, compiled for both
stores, and answered alike as a whole. -/
theorem exists_agreeing {model : Schema} {entries : List (String × Json)}
    (fields : ∀ entry ∈ entries, NumberField model entry.1)
    (integers : ∀ entry ∈ entries, IntegerTest entry.2) :
    ∃ predicates clauses tests,
      (∀ plan : Plan, plan.readEntries entries =
        .ok { plan with filter := plan.filter ++ predicates }) ∧
      (∀ predicate ∈ predicates, predicate.field.isTopLevel) ∧
      predicates.mapM Document.Clause.ofPredicate = .ok clauses ∧
      predicates.mapM (RowTest.ofPredicate model) = .ok tests ∧
      (∀ row, ∃ truths, List.Forall₂ (RowTest.Means model.tableColumns row) tests truths) ∧
      ∀ (now : Instant) (record : Object) (key : Int),
        (∀ entry ∈ entries, IntegerOrNothing (record.get? entry.1)) →
        (clauses.all fun clause => clause.matcher.accepts (record.lookup? clause.field)) =
          tests.all (·.holds now (storedRow model record key)) := by
  induction entries with
  | nil =>
      refine ⟨[], [], [], fun plan => ?_, by simp, rfl, rfl, fun _ => ⟨[], .nil⟩,
        fun _ _ _ _ => rfl⟩
      rw [Plan.readEntries, List.append_nil]
  | cons entry rest ih =>
      obtain ⟨predicates, clauses, tests, read, top, inDocuments, inRows, meant, alike⟩ :=
        ih (fun other member => fields other (List.mem_cons_of_mem _ member))
          fun other member => integers other (List.mem_cons_of_mem _ member)
      obtain ⟨predicate, clause, test, first⟩ :=
        (fields entry List.mem_cons_self).exists_agreeing (integers entry List.mem_cons_self)
      refine ⟨predicate :: predicates, clause :: clauses, test :: tests, fun plan => ?_,
        List.forall_mem_cons.mpr ⟨first.top, top⟩, ?_, ?_, fun row => ?_,
        fun now record key values => ?_⟩
      · obtain ⟨key, value⟩ := entry
        rw [Plan.readEntries, first.read plan]
        simp only [read, List.append_assoc, List.singleton_append]
      · rw [List.mapM_cons, first.inDocuments, inDocuments]
        rfl
      · rw [List.mapM_cons, first.inRows, inRows]
        rfl
      · obtain ⟨truth, here⟩ := first.meant row
        obtain ⟨truths, after⟩ := meant row
        exact ⟨truth :: truths, .cons here after⟩
      · rw [List.all_cons, List.all_cons,
          first.alike now record key (values entry List.mem_cons_self),
          alike now record key fun other member => values other (List.mem_cons_of_mem _ member)]

/-- A condition of integer tests on number fields is read into a plan that both stores can
run: the filter of the relational statement binds exactly its placeholders.  A document
that has exact integers, `null` or nothing in these fields passes the filter of the document
store if and only if the text of the statement's filter, read with its values and three truth
values, is true of the row that is stored for it, and so does the row pass. -/
theorem integer_filters_agree {model : Schema} {condition : Condition} (options : SelectOptions)
    (now : Instant) (fields : ∀ entry ∈ condition, NumberField model entry.1)
    (integers : ∀ entry ∈ condition, IntegerTest entry.2) :
    ∃ plan query rowQuery,
      Plan.ofCondition (some condition) options = .ok plan ∧
      plan.checkScope model = .ok () ∧
      Document.Query.compile plan now = .ok query ∧
      RowQuery.compile model plan = .ok rowQuery ∧
      rowQuery.whereClause.Binds rowQuery.spelledFilter ∧
      ∀ (record : Object) (key : Int),
        (∀ entry ∈ condition, IntegerOrNothing (record.get? entry.1)) →
        ∃ truth,
          rowQuery.whereClause.truth? model.tableColumns (storedRow model record key) =
            some truth ∧
          (query.accepts record ↔ truth = some true) ∧
          (rowQuery.accepts now (storedRow model record key) ↔ truth = some true) := by
  obtain ⟨predicates, clauses, tests, read, top, inDocuments, inRows, meant, alike⟩ :=
    exists_agreeing fields integers
  let plan : Plan := { Plan.everything options with filter := predicates }
  have unindexed : Plan.indexOf? condition = none := by
    refine Plan.indexOf?_eq_none fun entry member same => (fields entry member).free ?_
    rw [same]
    exact List.mem_cons_self
  have planned : Plan.ofCondition (some condition) options = .ok plan := by
    rw [Plan.ofCondition, unindexed]
    exact read (Plan.everything options)
  let rowQuery : RowQuery := ⟨tests ++ [], [], .all⟩
  have compiled : RowQuery.compile model plan = .ok rowQuery := by
    rw [RowQuery.compile, inRows]
    rfl
  have excess : rowQuery.excess = 0 := by
    rw [RowQuery.excess_compile compiled]
    refine List.countP_eq_zero.mpr fun predicate member => ?_
    unfold Predicate.picksInsideNothing
    split
    · simp [top predicate member]
    · exact Bool.false_ne_true
  refine ⟨plan, ⟨clauses ++ [], [], none, none⟩, rowQuery, planned, rfl, ?_,
    compiled, ?_, fun record key values => ?_⟩
  · rw [Document.Query.compile, inDocuments]
    rfl
  · exact (Clause.binds_iff (RowQuery.plain_whereClause _) _).mpr (RowQuery.whereClause_eq excess)
  · let row := storedRow model record key
    obtain ⟨truths, means⟩ := meant row
    have only : rowQuery.tests = tests := List.append_nil tests
    rw [← only] at means
    obtain ⟨truth, spelled, passes⟩ := RowQuery.exists_truth means now
    refine ⟨truth, spelled, ?_, passes⟩
    rw [← passes, Document.Query.accepts, RowQuery.accepts, only, List.append_nil,
      alike now record key values]

/-- Grown-ups without a size: a record with an age of twenty and no size passes on both
stores. -/
theorem integer_filters_agree_grown :
    let number : Field := .scalar .number Traits.plain
    let model : Schema := ⟨"user", [("age", number), ("size", number)], false, Hooks.none⟩
    let condition : Condition := [("age", .arr [.str ">=", .int 18]), ("size", .null)]
    let record : Object := [("age", .int 20)]
    ∃ plan query rowQuery,
      Plan.ofCondition (some condition) SelectOptions.plain = .ok plan ∧
      Document.Query.compile plan ⟨0, 0⟩ = .ok query ∧
      RowQuery.compile model plan = .ok rowQuery ∧
      ∃ truth,
        rowQuery.whereClause.truth? model.tableColumns (storedRow model record 1) = some truth ∧
        (query.accepts record ↔ truth = some true) ∧
        (rowQuery.accepts ⟨0, 0⟩ (storedRow model record 1) ↔ truth = some true) := by
  intro number model condition record
  have stored : model.storedFields = [("age", number), ("size", number)] := by
    simp [Schema.storedFields, model, number, Field.isVirtual, Field.isRelation, Field.traits,
      Traits.plain]
  have age : NumberField model "age" :=
    ⟨⟨number, by simp [stored], rfl, rfl, by decide⟩, by simp [PathGrammar.IsName], by decide⟩
  have size : NumberField model "size" :=
    ⟨⟨number, by simp [stored], rfl, rfl, by decide⟩, by simp [PathGrammar.IsName], by decide⟩
  have fields : ∀ entry ∈ condition, NumberField model entry.1 := by
    simp [condition, age, size]
  have integers : ∀ entry ∈ condition, IntegerTest entry.2 := by
    have adult : IntegerTest (.arr [.str ">=", .int 18]) :=
      .compare (by decide : Operator.ofWord? ">=" = some .ge) rfl (by decide)
    simp [condition, adult, IntegerTest.null]
  have values : ∀ entry ∈ condition, IntegerOrNothing (record.get? entry.1) := by
    have twenty : IntegerOrNothing (record.get? "age") := .integer (by decide)
    have nothing : IntegerOrNothing (record.get? "size") := .absent
    simp [condition, twenty, nothing]
  obtain ⟨plan, query, rowQuery, planned, -, inDocuments, inRows, -, agree⟩ :=
    integer_filters_agree SelectOptions.plain ⟨0, 0⟩ fields integers
  exact ⟨plan, query, rowQuery, planned, inDocuments, inRows, agree record 1 values⟩

end RecordStore
