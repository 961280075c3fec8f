/-
Module: RecordStore.Proofs.Store.StoredFields
Purpose: One stored field of a model on both stores: the cell that is stored for its value,
  and a condition with a single test of it, which is read into a plan of one predicate and
  compiled into a query of documents and a query of rows.
Main exports: storedRow, RowOf, StoredField, StoredField.get_rowOf, StoredField.get?_recordOf,
  Plan.testing, Plan.ofCondition_single, Document.compile_testing, StoredField.compile_testing
-/
import RecordStore.Document.Query
import RecordStore.Proofs.Document.Matching
import RecordStore.Proofs.Path.Reading
import RecordStore.Proofs.Relational.Creating

namespace RecordStore

/-- The row that is stored for a record under a key. -/
def storedRow (model : Schema) (record : Object) (key : Int) : Row :=
  model.tableColumns.map
    (Table.storedCell (Relational.encodeRow model.tableColumns record) key)

/-- The rows that stand for a record: the one that an insert stores and those that an
update leaves of a row. -/
inductive RowOf (model : Schema) (record : Object) : Row → Prop where
  | inserted (key : Int) : RowOf model record (storedRow model record key)
  | updated (before : Row) :
      RowOf model record
        (model.tableColumns.map
          (Table.storedCell (Relational.encodeAssignments model.tableColumns record ++ before)
            before.key))

/-- A name stands for the cell of the first column of the name, and behind the columns for
that of the rest. -/
theorem Row.cell?_map_append (columns : List Column) (value : Column → SqlValue) (rest : Row)
    (name : String) :
    Row.cell? (columns.map (fun column => (column.name, value column)) ++ rest) name =
      ((columns.find? (·.name == name)).map value).or (rest.cell? name) := by
  induction columns with
  | nil => rfl
  | cons column others ih =>
      rw [List.map_cons, List.cons_append, Row.cell?, List.find?_cons, ih]
      by_cases same : column.name = name
      · simp [same]
      · have other : (column.name == name) = false := beq_eq_false_iff_ne.mpr same
        simp [same, other]

theorem Row.cell?_storedCell (columns : List Column) (cells : Row) (key : Int) (name : String) :
    Row.cell? (columns.map (Table.storedCell cells key)) name =
      (columns.find? (·.name == name)).map fun column =>
        (Table.storedCell cells key column).2 := by
  have mapped := Row.cell?_map_append columns
    (fun column => (Table.storedCell cells key column).2) [] name
  rw [List.append_nil, Row.cell?, Option.or_none] at mapped
  exact mapped

/-- What is found among all is found among those that are kept with it. -/
theorem find?_filter_of_find? {α : Type} {items : List α} {wanted kept : α → Bool} {item : α}
    (found : items.find? wanted = some item) (keep : kept item) :
    (items.filter kept).find? wanted = some item := by
  induction items with
  | nil => cases found
  | cons first rest ih =>
      rw [List.find?_cons] at found
      split at found
      · rename_i same
        cases found
        rw [List.filter_cons_of_pos keep, List.find?_cons_of_pos same]
      · rename_i other
        cases keeps : kept first with
        | false => rw [List.filter_cons_of_neg (by simp [keeps]), ih found]
        | true => rw [List.filter_cons_of_pos keeps, List.find?_cons, other, ih found]

/-! ### Plans of one test -/

namespace Plan

/-- A plain name is read as the path of one step. -/
theorem field_of_isName {name : String} (plain : PathGrammar.IsName name.toList) :
    field name = .ok (FieldPath.field name) := by
  have derived : PathGrammar.PathText name.toList [.name name] false := by
    have piece := PathGrammar.PieceText.name plain
    rw [String.ofList_toList] at piece
    exact .piece piece
  rw [field, FieldPath.parse_of_pathText derived]
  rfl

/-- A condition without an entry for the key looks no key up. -/
theorem indexOf?_eq_none {condition : Condition}
    (free : ∀ entry ∈ condition, entry.1 ≠ indexKey) : indexOf? condition = none := by
  have absent : Object.get? condition indexKey = none := by
    induction condition with
    | nil => rfl
    | cons entry rest ih =>
        rw [Object.get?, if_neg (free entry List.mem_cons_self)]
        exact ih fun other member => free other (List.mem_cons_of_mem _ member)
  rw [indexOf?, absent]

/-- The plan that tests one field and asks for nothing else. -/
def testing (options : SelectOptions) (name : String) (test : Test) : Plan :=
  { everything options with filter := [⟨FieldPath.field name, test⟩] }

/-- A condition with one entry, under a plain name that does not configure the query, is read
into the plan of its test. -/
theorem ofCondition_single {name : String} {value : Json} {test : Test}
    (plain : PathGrammar.IsName name.toList)
    (free : name ∉ [indexKey, orderKey, offsetKey, limitKey, scopeKey])
    (read : Test.ofValue name value = .ok test) (options : SelectOptions) :
    ofCondition (some [(name, value)]) options = .ok (testing options name test) := by
  simp only [List.mem_cons, List.not_mem_nil, or_false, not_or] at free
  obtain ⟨index, order, offset, limit, scope⟩ := free
  have unindexed : indexOf? [(name, value)] = none :=
    indexOf?_eq_none (List.forall_mem_singleton.mpr index)
  rw [ofCondition, unindexed]
  simp only [readEntries, readEntry, if_neg index, if_neg order, if_neg offset, if_neg limit,
    if_neg scope, predicate, field_of_isName plain, read]
  rfl

end Plan

/-- A plan of one test as a query of documents. -/
theorem Document.compile_testing (options : SelectOptions) (name : String) {test : Test}
    {matcher : Matcher} (read : Matcher.ofTest test = .ok matcher) (now : Instant) :
    Query.compile (Plan.testing options name test) now =
      .ok ⟨[⟨FieldPath.field name, matcher⟩], [], none, none⟩ := by
  have clause : Clause.ofPredicate ⟨FieldPath.field name, test⟩ =
      .ok ⟨FieldPath.field name, matcher⟩ := by
    rw [Clause.ofPredicate, read]
    rfl
  rw [Query.compile, Plan.testing, List.mapM_cons, clause]
  rfl

/-- A query of one test accepts a record by the value of the field. -/
theorem Document.accepts_single (name : String) (matcher : Matcher) (record : Object) :
    (⟨[⟨FieldPath.field name, matcher⟩], [], none, none⟩ : Query).accepts record =
      matcher.accepts (record.get? name) := by
  have looked : record.lookup? (FieldPath.field name) = record.get? name := by
    simp [Object.lookup?, FieldPath.field, Json.walk?]
  simp [Query.accepts, looked]

/-- The records that a query of one test finds. -/
theorem Document.mem_run_single (name : String) (matcher : Matcher) {records : List Object}
    {record : Object} :
    record ∈ (⟨[⟨FieldPath.field name, matcher⟩], [], none, none⟩ : Query).run records ↔
      record ∈ records ∧ matcher.accepts (record.get? name) := by
  rw [Query.run, Query.paginate, Option.getD_none, List.drop_zero, (Query.sort_perm _ _).mem_iff,
    List.mem_filter, accepts_single]

/-- The rows that a query of one test finds. -/
theorem RowQuery.mem_run_single (test : RowTest) (now : Instant) {rows : List Row} {row : Row} :
    row ∈ (⟨[test], [], .all⟩ : RowQuery).run now rows ↔ row ∈ rows ∧ test.holds now row := by
  rw [(run_perm rfl now rows).mem_iff, List.mem_filter, accepts, List.all_cons, List.all_nil,
    Bool.and_true]

/-! ### Stored fields -/

/-- Whether the values of a field behave as lists. -/
def Field.isListed (field : Field) : Bool := field.isList || field.type == .array

/-- A declared field that records store, with a plain name that is neither a bookkeeping
field nor configures a query. -/
structure StoredField (model : Schema) (name : String) (field : Field) : Prop where
  declared : model.field? name = some field
  owned : field.isVirtual = false
  apart : model.implicitType? name = none
  plain : PathGrammar.IsName name.toList
  free : name ∉ [indexKey, orderKey, offsetKey, limitKey, scopeKey]

namespace StoredField

variable {model : Schema} {name : String} {field : Field}

theorem ne_id (stored : StoredField model name field) : name ≠ idField := by
  intro same
  have apart := stored.apart
  simp [Schema.implicitType?, same] at apart

/-- Among the stored fields the field is the first of its name. -/
theorem find?_storedFields {fields : List (String × Field)}
    (declared : Field.find? fields name = some field) (owned : field.isVirtual = false) :
    (fields.filter fun entry => !entry.2.isVirtual).find? (·.1 == name) = some (name, field) := by
  induction fields with
  | nil => cases declared
  | cons entry rest ih =>
      rw [Field.find?] at declared
      split at declared
      · rename_i same
        cases declared
        subst same
        simp [owned]
      · rename_i other
        cases virtual : entry.2.isVirtual <;> simp [virtual, other, ih declared]

/-- The column of the field is the one that is found under its name. -/
theorem find?_column (stored : StoredField model name field) :
    model.tableColumns.find? (·.name == name) = some (Column.ofField (name, field)) := by
  have key : (keyColumn.name == name) = false := beq_eq_false_iff_ne.mpr stored.ne_id.symm
  have found : (model.storedFields.map Column.ofField).find? (·.name == name) =
      some (Column.ofField (name, field)) := by
    have first := find?_storedFields stored.declared stored.owned
    rw [List.find?_map]
    exact congrArg (Option.map Column.ofField) first
  rw [Schema.tableColumns, List.find?_cons, key, List.find?_append, found]
  rfl

theorem kind_ne_key : ColumnKind.ofField field ≠ .key := by
  cases field with
  | scalar type traits =>
      cases listed : traits.isList <;> cases type <;> simp [ColumnKind.ofField, listed]
  | nested inner members isList => simp [ColumnKind.ofField]

/-- The cell that is stored for a value of the field. -/
theorem get_rowOf (stored : StoredField model name field) {record : Object} {row : Row}
    (given : RowOf model record row) :
    row.get name =
      (Column.ofField (name, field)).affinity.convert
        ((Column.ofField (name, field)).encode ((record.get? name).getD .null)) := by
  have other : ((Column.ofField (name, field)).kind == .key) = false :=
    beq_eq_false_iff_ne.mpr kind_ne_key
  have written {cells : Row} {key : Int} {cell : SqlValue}
      (held : (cells.cell? name).getD .null = cell) :
      Row.get (model.tableColumns.map (Table.storedCell cells key)) name =
        (Column.ofField (name, field)).affinity.convert cell := by
    have named : (Column.ofField (name, field)).name = name := rfl
    rw [Row.get, Row.cell?_storedCell, stored.find?_column, Option.map_some, Option.getD_some,
      ← held]
    simp only [Table.storedCell, other, Bool.false_eq_true, if_false, named]
  cases given with
  | inserted key =>
      refine written ?_
      rw [Relational.cell?_encodeRow, stored.find?_column, Option.bind_some]
      cases record.get? name <;> rfl
  | updated before =>
      refine written ?_
      have found : (model.tableColumns.filter fun column => column.kind != .key).find?
          (·.name == name) = some (Column.ofField (name, field)) :=
        find?_filter_of_find? stored.find?_column (by rw [bne, other]; rfl)
      rw [Relational.encodeAssignments, Row.cell?_map_append, found]
      rfl

/-- The value that the record of a row has of the field. -/
theorem get?_recordOf (stored : StoredField model name field) (row : Row) :
    (Relational.recordOf model.tableColumns row).get? name =
      some (((Column.ofField (name, field)).decode (.value (row.get name))).getD .null) :=
  Relational.get?_recordOf_of_find? stored.find?_column row

/-- The path of the field is its column. -/
theorem ofPath (stored : StoredField model name field) :
    Term.ofPath model (FieldPath.field name) = .ok (.column (Column.ofField (name, field))) := by
  have root : (FieldPath.field name).root = name := rfl
  rw [Term.ofPath, root, stored.find?_column]
  rfl

/-- The column is a list in statements if the field behaves as one. -/
theorem isList_column (stored : StoredField model name field) :
    (Term.column (Column.ofField (name, field))).isList model = field.isListed := by
  have declared : model.field? (Column.ofField (name, field)).name = some field := stored.declared
  rw [Term.isList, declared]
  cases field with
  | nested inner members isList =>
      cases isList <;> simp [Column.ofField, ColumnKind.ofField, Field.isListed, Field.isList,
        Field.type]
  | scalar type traits =>
      cases listed : traits.isList <;> cases type <;>
        simp [Column.ofField, ColumnKind.ofField, Field.isListed, Field.isList, Field.type, listed]

/-- A condition on the field alone is read into the plan of its test. -/
theorem ofCondition_single (stored : StoredField model name field) {value : Json} {test : Test}
    (read : Test.ofValue name value = .ok test) (options : SelectOptions) :
    Plan.ofCondition (some [(name, value)]) options = .ok (Plan.testing options name test) :=
  Plan.ofCondition_single stored.plain stored.free read options

/-- The plan of a test as a query of rows. -/
theorem compile_testing (stored : StoredField model name field) (options : SelectOptions)
    (test : Test) :
    RowQuery.compile model (Plan.testing options name test) =
      .ok ⟨[RowTest.ofTest field.isListed (.column (Column.ofField (name, field))) test], [],
        .all⟩ := by
  have predicate : RowTest.ofPredicate model ⟨FieldPath.field name, test⟩ =
      .ok (RowTest.ofTest field.isListed (.column (Column.ofField (name, field))) test) := by
    rw [RowTest.ofPredicate, stored.ofPath, ← stored.isList_column]
    rfl
  rw [RowQuery.compile, Plan.testing]
  simp only [Plan.everything, List.mapM_cons, predicate]
  rfl

end StoredField

/-! ### Users with a name -/

theorem storedField_name : StoredField namedUser "name" nameField where
  declared := rfl
  owned := by simp [Field.isVirtual, Field.isRelation, Field.traits, nameField, Traits.plain]
  apart := by decide
  plain := by simp [PathGrammar.IsName]
  free := by decide

end RecordStore
