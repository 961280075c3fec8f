/-
Module: RecordStore.Proofs.Relational.Creating
Purpose: What creating does to the table of a model.  A key that is no integer or is taken
  is refused before anything is written; otherwise one row is added, and the record of this
  row is found again under its key, because a table gives no key beyond 64 bits.  An import
  that succeeds has added as many rows as it answers.
Main exports: Table.insertRow_perm, newKey?_le, cell?_encodeRow, perform_fetch_row, create_eq_ok,
  insert_cases, create_cases, createEach_rows
-/
import RecordStore.Proofs.Relational.Keys
import RecordStore.Proofs.Store.Creating

namespace RecordStore

namespace Table

/-- A row that is put into its place is added to the others. -/
theorem insertRow_perm (row : Row) (rows : List Row) :
    (insertRow row rows).Perm (row :: rows) := by
  induction rows with
  | nil => exact .refl _
  | cons first rest ih =>
      unfold insertRow
      split
      · exact .refl _
      · exact (ih.cons first).trans (.swap row first rest)

end Table

/-! ### Keys -/

theorem Numeral.fitsInt64_of_int64? {text : String} {i : Int}
    (read : Numeral.int64? text = some i) : fitsInt64 i := by
  obtain ⟨n, -, fits⟩ := Option.bind_eq_some_iff.mp read
  simp only [Option.ite_none_right_eq_some, Option.some.injEq] at fits
  obtain ⟨fits, rfl⟩ := fits
  exact fits

/-- A value that is no integer beyond the largest one of 64 bits. -/
def SqlValue.Bounded (value : SqlValue) : Prop := ∀ i, value = .int i → i ≤ maxInt64

namespace SqlValue.Bounded

theorem null : SqlValue.null.Bounded := fun _ other => nomatch other

theorem text (written : String) : (SqlValue.text written).Bounded := fun _ other => nomatch other

theorem real (x : Binary64) : (SqlValue.real x).Bounded := fun _ other => nomatch other

theorem int {i : Int} (bounded : i ≤ maxInt64) : (SqlValue.int i).Bounded := by
  rintro _ ⟨⟩
  exact bounded

theorem ofInt64? {text : String} {i : Int} (read : Numeral.int64? text = some i) :
    (SqlValue.int i).Bounded := by
  have fits := Numeral.fitsInt64_of_int64? read
  rw [fitsInt64, Bool.and_eq_true, decide_eq_true_eq, decide_eq_true_eq] at fits
  exact int fits.2

theorem ofNumber (n : Number) : (SqlValue.ofNumber n).Bounded := by
  unfold SqlValue.ofNumber
  cases short : n.int64? with
  | none => exact real _
  | some i =>
      cases n with
      | float x => cases short
      | int value =>
          simp only [Number.int64?, Option.ite_none_right_eq_some, Option.some.injEq] at short
          exact int (short.2 ▸ short.1)

theorem ofKey (key : Json) : (SqlValue.ofKey key).Bounded := by
  unfold SqlValue.ofKey
  split
  · exact ofNumber _
  · split
    · rename_i read
      exact ofInt64? read
    · exact text _
  · exact text _

theorem readNumeral {value : SqlValue} (bounded : value.Bounded) :
    value.readNumeral.Bounded := by
  unfold SqlValue.readNumeral
  split
  · rename_i written
    unfold numeralOf?
    dsimp only
    split
    · rename_i read
      exact ofInt64? read
    · cases Numeral.decimal? _ with
      | none => exact bounded
      | some decimal => exact real _
  · exact bounded

theorem shorten {value : SqlValue} (bounded : value.Bounded) : value.shorten.Bounded := by
  unfold SqlValue.shorten
  split
  · rename_i x
    unfold integral?
    cases x.toInt? with
    | none => exact bounded
    | some i =>
        dsimp only
        split
        · rename_i inside
          rw [Bool.and_eq_true, decide_eq_true_eq, decide_eq_true_eq] at inside
          exact int (Int.le_of_lt inside.2)
        · exact bounded
  · exact bounded

/-- What a number column stores of a bounded value is bounded. -/
theorem convert {value : SqlValue} (bounded : value.Bounded) :
    (Affinity.numeric.convert value).Bounded :=
  bounded.readNumeral.shorten

end SqlValue.Bounded

/-- A parameter for the key column is bounded. -/
theorem Column.bounded_encode_key (value : Json) : (keyColumn.encode value).Bounded := by
  unfold Column.encode
  split
  · exact .null
  · exact .ofKey value

/-- A table gives no key beyond 64 bits. -/
theorem Table.newKey?_le {table : Table} {given : SqlValue} (bounded : given.Bounded) {key : Int}
    (made : table.newKey? given = some key) : key ≤ maxInt64 := by
  have stored := bounded.convert
  unfold newKey? at made
  split at made
  · split at made
    · cases made
      omega
    · cases made
  · rename_i i is
    cases made
    exact stored key is
  · cases made

namespace Relational

open RecordStore.Action (perform_bind_ok perform_bind_error perform_bind_eq_ok)

/-- The parameter under a name is that of the first column of this name, if the record has a
value for it. -/
theorem cell?_encodeRow (columns : List Column) (record : Object) (name : String) :
    (encodeRow columns record).cell? name =
      (columns.find? (·.name == name)).bind fun column =>
        (record.get? name).map column.encode := by
  unfold encodeRow
  induction columns with
  | nil => rfl
  | cons column rest ih =>
      rw [List.filterMap_cons, List.find?_cons]
      by_cases same : column.name = name
      · cases given : record.get? name with
        | none =>
            rw [given] at ih
            simpa [same, given] using ih
        | some value => simp [same, given, Row.cell?]
      · have other : (column.name == name) = false := beq_eq_false_iff_ne.mpr same
        cases given : record.get? column.name with
        | none => simpa [other, given] using ih
        | some value => simpa [same, other, given, Row.cell?] using ih

theorem cell?_encodeRow_key (model : Schema) (record : Object) :
    (encodeRow model.tableColumns record).cell? idField =
      (record.get? idField).map keyColumn.encode := by
  rw [cell?_encodeRow]
  rfl

/-- The key of a row that is inserted lies within 64 bits. -/
theorem key_le_of_insert? {model : Schema} {record : Object} {table after : Table} {key : Int}
    (made : table.insert? (encodeRow model.tableColumns record) = some (after, key)) :
    key ≤ maxInt64 := by
  have bounded : (((encodeRow model.tableColumns record).cell? idField).getD .null).Bounded := by
    rw [cell?_encodeRow_key]
    cases record.get? idField with
    | none => exact .null
    | some id => exact Column.bounded_encode_key id
  unfold Table.insert? at made
  split at made
  · cases made
  · rename_i key' assigned
    split at made
    · cases made
    · cases made
      exact Table.newKey?_le bounded assigned

variable {setting : Setting} {session after : Session Connection} {model : Schema}

/-! ### The new row -/

/-- A lookup of the key of a row finds this row. -/
theorem perform_fetch_row {row : Row} (opened : session.data.opened)
    (keyed : (session.data.database.tableFor model).Keyed)
    (member : row ∈ (session.data.database.tableFor model).rows) (bounded : row.key ≤ maxInt64) :
    (fetch model (.int row.key)).perform setting session =
      (.ok (some (recordOf model.tableColumns row)),
        { session with readings := session.readings + 1 }) := by
  have hit : hasKey (.int row.key) row :=
    (hasKey_iff_denotedKey? (keyed.integer row member)).mpr (denotedKey?_int bounded)
  have single := @filter_hasKey (.int row.key) nofun _ keyed
  have inside := List.mem_filter.mpr ⟨member, hit⟩
  rw [single, Option.mem_toList] at inside
  have fetched := @perform_fetch_key setting session model (.int row.key) nofun _ _
    (perform_tableOf_opened opened) keyed
  rw [fetched, inside]
  rfl

/-- A session after a record was inserted: the row that stores it is in the table of its
model. -/
structure Inserted (model : Schema) (record : Object) (row : Row) (after : Session Connection) :
    Prop where
  opened : after.data.opened
  stored : ∃ key, row = (after.data.database.tableFor model).columns.map
    (Table.storedCell (encodeRow model.tableColumns record) key)
  member : row ∈ (after.data.database.tableFor model).rows

/-- After a row was put into the table of a model, the record of the row is found under its
key. -/
theorem perform_insert_row {record : Object} {table : Table} {key : Int}
    (opened : session.data.opened) (keyed : session.data.database.Keyed)
    (made : (session.data.database.table? model.name).isSome)
    (inserted : (session.data.database.tableFor model).insert?
      (encodeRow model.tableColumns record) = some (table, key)) :
    ∃ row last, (do putTable table; reread model (.int key) (integerText key) :
        Action Connection Object).perform setting session =
        (.ok (recordOf model.tableColumns row), last) ∧
      (last.data.database.rows model.name).Perm
        (row :: session.data.database.rows model.name) ∧
      Inserted model record row last := by
  have keyedTable := keyed.tableFor model
  obtain ⟨-, is⟩ := Table.insert?_eq_some inserted
  let row : Row := (session.data.database.tableFor model).columns.map
    (Table.storedCell (encodeRow model.tableColumns record) key)
  have rows : table.rows = Table.insertRow row (session.data.database.tableFor model).rows := by
    rw [is]
  have named : Text.sameFolded table.name model.name := by
    rw [Table.Changed.name (.inserted inserted)]
    exact Database.tableFor_name _ model
  let put : Session Connection :=
    { session with data := { session.data with database := session.data.database.put table } }
  have working : put.data.database.tableFor model = table := Database.tableFor_put named made
  have its_key : row.key = key := Table.key_storedRow keyedTable.columns _ key
  have still : (put.data.database.tableFor model).Keyed := by
    rw [working]
    exact keyedTable.inserted inserted
  have member : row ∈ (put.data.database.tableFor model).rows := by
    rw [working, rows]
    exact Table.mem_insertRow.mpr (.inl rfl)
  have stored : row = (put.data.database.tableFor model).columns.map
      (Table.storedCell (encodeRow model.tableColumns record) key) := by
    rw [working, Table.Changed.columns (.inserted inserted)]
  have bounded : row.key ≤ maxInt64 := by
    rw [its_key]
    exact key_le_of_insert? inserted
  have fetched := @perform_fetch_row setting put model row opened still member bounded
  rw [its_key] at fetched
  have written : (putTable table).perform setting session = (.ok (), put) := rfl
  refine ⟨row, _, (perform_bind_ok _ _ written _).trans (perform_reread fetched), ?_,
    opened, ⟨key, stored⟩, member⟩
  change (put.data.database.rows model.name).Perm _
  rw [← Database.rows_tableFor, working, rows, ← Database.rows_tableFor]
  exact Table.insertRow_perm row _

/-- Where the model has no table, no row is written and no record is found. -/
theorem perform_insert_nowhere {table : Table} {key : Int}
    (named : Text.sameFolded table.name model.name)
    (unmade : session.data.database.table? model.name = none) :
    ∃ error last, (do putTable table; reread model (.int key) (integerText key) :
        Action Connection Object).perform setting session = (.error error, last) ∧
      ∀ name, last.data.database.rows name = session.data.database.rows name := by
  let put : Session Connection :=
    { session with data := { session.data with database := session.data.database.put table } }
  have unchanged : ∀ name, put.data.database.rows name = session.data.database.rows name := by
    intro name
    by_cases same : Text.sameFolded table.name name
    · have none_here : session.data.database.table? name = none := by
        rw [Text.sameFolded_iff] at named same
        rw [← unmade]
        simp only [Database.table?, Text.sameFolded, ← named, ← same]
      rw [Database.rows, Database.rows, Database.table?_put, none_here]
      split <;> rfl
    · exact Database.rows_put_of_ne _ same
  have written : (putTable table).perform setting session = (.ok (), put) := rfl
  rcases outcome : (reread model (.int key) (integerText key)).perform setting put with
    ⟨answer, last⟩
  have rows : ∀ name, last.data.database.rows name = session.data.database.rows name := by
    intro name
    have kept := @reread_keeps
      (fun _ database => database.rows name = session.data.database.rows name)
      (fun _ database same => (database.openAll_rows _ name).trans same) model
      (.int key) (integerText key) setting put (unchanged name)
    rw [outcome] at kept
    exact kept
  cases answer with
  | error error => exact ⟨error, last, (perform_bind_ok _ _ written _).trans outcome, rows⟩
  | ok stored =>
      obtain ⟨found, between, fetched, rest⟩ := (perform_bind_eq_ok _ _).mp outcome
      cases found with
      | none => cases rest
      | some record =>
          cases rest
          obtain ⟨plan, query, keyQuery⟩ := exists_keyQuery model (.int key)
          obtain ⟨-, -, row, member, -⟩ := fetch_some keyQuery fetched
          rw [Database.rows_tableFor, rows, Database.rows, unmade] at member
          cases member

/-- What an insert does once the new row is made: it answers the record of the row it added, or
fails where the model has no table. -/
theorem perform_insert_cases {record : Object} {table : Table} {key : Int}
    (opened : session.data.opened) (keyed : session.data.database.Keyed)
    (inserted : (session.data.database.tableFor model).insert?
      (encodeRow model.tableColumns record) = some (table, key)) :
    let writing : Action Connection Object := do
      putTable table
      reread model (.int key) (integerText key)
    (∃ error last, writing.perform setting session = (.error error, last) ∧
      ∀ name, last.data.database.rows name = session.data.database.rows name) ∨
    ∃ row last, writing.perform setting session =
        (.ok (recordOf model.tableColumns row), last) ∧
      (last.data.database.rows model.name).Perm
        (row :: session.data.database.rows model.name) ∧
      Inserted model record row last := by
  by_cases made : (session.data.database.table? model.name).isSome
  · exact .inr (perform_insert_row opened keyed made inserted)
  · rw [Option.not_isSome_iff_eq_none] at made
    have named : Text.sameFolded table.name model.name := by
      rw [Table.Changed.name (.inserted inserted)]
      exact Database.tableFor_name _ model
    exact .inl (perform_insert_nowhere named made)

/-- An insert is refused before a row is written, or it adds one row to the table and answers
the record of it. -/
theorem insert_cases (keyed : session.data.database.Keyed) (record : Object) :
    (∃ error after, (insert model record).perform setting session = (.error error, after) ∧
      ∀ name, after.data.database.rows name = session.data.database.rows name) ∨
    ∃ row after, (insert model record).perform setting session =
        (.ok (recordOf model.tableColumns row), after) ∧
      (after.data.database.rows model.name).Perm
        (row :: session.data.database.rows model.name) := by
  rcases connected : (tableOf model).perform setting session with ⟨answer, between⟩
  cases answer with
  | error error =>
      left
      refine ⟨error, between, perform_bind_error _ _ connected _, fun name => ?_⟩
      have kept := tableOf_keeps_rows model name _ setting session rfl
      rw [connected] at kept
      exact kept
  | ok table =>
      obtain ⟨still, same⟩ := tableOf_database keyed connected
      obtain ⟨opened, rfl⟩ := tableOf_eq_ok connected
      unfold insert
      rw [perform_bind_ok _ _ connected]
      split
      · exact .inl ⟨_, between, rfl, same⟩
      · rename_i written key inserted
        rcases @perform_insert_cases setting between model record written key opened still
          inserted with ⟨error, last, done, rows⟩ | ⟨row, last, done, rows, -⟩
        · exact .inl ⟨error, last, done, fun name => (rows name).trans (same name)⟩
        · rw [same] at rows
          exact .inr ⟨row, last, done, rows⟩

/-- A create fails and leaves the rows of every name as they were, or it adds one row to the
table of its model and answers the record of it. -/
theorem create_cases (keyed : session.data.database.Keyed) (schema : String) (values : Object) :
    (∃ error after, (backend.create schema values).perform setting session =
        (.error error, after) ∧
      ∀ name, after.data.database.rows name = session.data.database.rows name) ∨
    ∃ model row after, setting.registry.get schema = .ok model ∧
      (backend.create schema values).perform setting session =
        (.ok (recordOf model.tableColumns row), after) ∧
      (after.data.database.rows schema).Perm (row :: session.data.database.rows schema) := by
  cases known : setting.registry.get schema with
  | error error =>
      exact .inl ⟨_, session, Backend.perform_create_unknown known values, fun _ => rfl⟩
  | ok model =>
      let later : Session Connection := { session with readings := session.readings + 1 }
      let record := model.prepareCreate values (setting.clock session.readings).text
      have named : model.name = schema := Action.name_of_get known
      have start : (backend.create schema values).perform setting session = (do
          let stored ← insert model record
          Action.notify model .create stored
          return stored : Action Connection Object).perform setting later := by
        unfold Backend.create
        rw [perform_bind_ok _ _ ((Action.perform_schema_eq_ok setting session).mpr ⟨known, rfl⟩),
          perform_bind_ok _ _ (Action.perform_now setting session)]
        rfl
      rw [start]
      rcases @insert_cases setting later model keyed record with
        ⟨error, after, refused, rows⟩ | ⟨row, after, added, rows⟩
      · exact .inl ⟨error, after, perform_bind_error _ _ refused _, rows⟩
      · right
        rw [named] at rows
        exact ⟨model, row, _, rfl, perform_bind_ok _ _ added _, rows⟩

/-- Creating several records adds one row for each. -/
theorem createEach_rows {schema : String} {records : List Object} {count : Nat}
    (keyed : session.data.database.Keyed)
    (done : (backend.createEach schema records).perform setting session = (.ok count, after)) :
    ∃ added : List Row, added.length = count ∧
      (after.data.database.rows schema).Perm (added ++ session.data.database.rows schema) := by
  induction records generalizing session count with
  | nil =>
      obtain ⟨rfl, rfl⟩ := (Action.perform_pure_eq_ok _ _).mp done
      exact ⟨[], rfl, .refl _⟩
  | cons values rest ih =>
      obtain ⟨stored, between, more, first, others, rfl⟩ := Backend.createEach_cons_eq_ok done
      have still : ((backend.create schema values).perform setting session).2.data.database.Keyed :=
        preserves_keyed.create trivial values setting session keyed
      rw [first] at still
      obtain ⟨added, length, later⟩ := ih still others
      rcases create_cases keyed schema values with
        ⟨error, _, refused, -⟩ | ⟨model, row, _, -, put, rows⟩
      · cases refused.symm.trans first
      · cases put.symm.trans first
        refine ⟨row :: added, congrArg (· + 1) length, later.trans ?_⟩
        exact (rows.append_left added).trans List.perm_middle

end Relational

end RecordStore
