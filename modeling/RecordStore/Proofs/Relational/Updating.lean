/-
Module: RecordStore.Proofs.Relational.Updating
Purpose: Changing one record of a relational store.  If no row has the key the change is refused
  and no row changes; if the change is answered, exactly the row of the key is written, with what
  the patch makes of its record, and the answer is the record as it is read again.  Looking up
  `null` finds any row, and then nothing is written.
Main exports: Table.assigned, replace_eq_ok, Schema.reread, Table.Keyed.recordOf_assigned,
  saveOne_updates_row, saveOne_null_answers_unwritten
-/
import RecordStore.Proofs.Relational.Columns
import RecordStore.Proofs.Store.Decidable
import RecordStore.Proofs.Store.StoredFields

namespace RecordStore

/-! ### The row that is written -/

namespace Table

/-- A row as an update of some cells leaves it; an update of none is not made. -/
def assigned (table : Table) (cells row : Row) : Row :=
  if cells.isEmpty then row else table.columns.map (storedCell (cells ++ row) row.key)

namespace Keyed

variable {table : Table} (keyed : table.Keyed)
include keyed

theorem get_assigned (cells : Row) {row : Row} (integer : row.get idField = .int row.key) :
    Row.get (table.assigned cells row) idField = .int row.key := by
  unfold assigned
  split
  · exact integer
  · exact get_storedRow keyed.columns _ row.key

/-- An update of cells leaves a row its key. -/
theorem key_assigned (cells : Row) {row : Row} (integer : row.get idField = .int row.key) :
    Row.key (table.assigned cells row) = row.key := by
  rw [Row.key, keyed.get_assigned cells integer]

end Keyed

end Table

namespace Relational

open RecordStore.Action (perform_bind_ok perform_bind_error perform_bind_eq_ok)

variable {setting : Setting} {session after : Session Connection} {model : Schema} {id : Json}

/-- An update of the row of a key writes this row, which is found under the key again. -/
theorem rows_rewrite {table : Table} (keyed : table.Keyed) {row : Row} {earlier later : List Row}
    (cut : table.rows = earlier ++ row :: later) (hit : hasKey id row)
    (apart : ∀ other ∈ earlier ++ later, hasKey id other = false) {cells : Row}
    (given : cells.isEmpty = false) :
    table.rows.map (table.rewrite (hasKey id) cells) =
        earlier ++ table.assigned cells row :: later ∧
      (earlier ++ table.assigned cells row :: later).find? (hasKey id) =
        some (table.assigned cells row) := by
  have unchanged : ∀ other ∈ earlier ++ later, table.rewrite (hasKey id) cells other = other := by
    intro other member
    rw [Table.rewrite, apart other member, if_neg Bool.false_ne_true]
  have written : table.rewrite (hasKey id) cells row = table.assigned cells row := by
    rw [Table.rewrite, if_pos hit, Table.assigned, given, if_neg Bool.false_ne_true]
  have integer := keyed.integer row (by simp [cut])
  constructor
  · have front := List.map_congr_left fun other member =>
      unchanged other (List.mem_append_left later member)
    have back := List.map_congr_left fun other member =>
      unchanged other (List.mem_append_right earlier member)
    rw [cut, List.map_append, List.map_cons, written, front, back, List.map_id', List.map_id']
  · have again : hasKey id (table.assigned cells row) := by
      have same := keyed.key_assigned cells integer
      have still := keyed.get_assigned cells integer
      rw [← same] at still
      rw [hasKey_iff_denotedKey? still, same]
      exact (hasKey_iff_denotedKey? integer).mp hit
    refine List.find?_eq_some_iff_append.mpr ⟨again, earlier, later, rfl, fun other member => ?_⟩
    rw [apart other (List.mem_append_left later member)]
    rfl

/-- A replacement that is answered has written the row of the key, and answers its record. -/
theorem replace_eq_ok (present : id ≠ .null) (keyed : session.data.database.Keyed)
    (opened : session.data.opened) {row : Row}
    (found : (session.data.database.tableFor model).rows.find? (hasKey id) = some row)
    {changed stored : Object}
    (done : (replace model id changed).perform setting session = (.ok stored, after)) :
    let table := session.data.database.tableFor model
    let written := table.assigned (encodeAssignments model.tableColumns changed) row
    stored = recordOf model.tableColumns written ∧
      (after.data.database.tableFor model).columns = table.columns ∧
      ∃ earlier later, table.rows = earlier ++ row :: later ∧
        after.data.database.rows model.name = earlier ++ written :: later := by
  intro table written
  have keyedTable := keyed.tableFor model
  obtain ⟨earlier, later, cut, hit, apart⟩ := exists_cut keyedTable found
  have assigned : (assign model id (encodeAssignments model.tableColumns changed)).perform
      setting session = _ := perform_assign_opened opened
  rw [replace_eq] at done
  cases empty : (encodeAssignments model.tableColumns changed).isEmpty with
  | true =>
      rw [empty, if_pos rfl] at assigned
      have fetched := @perform_fetch_key setting session model id present _ _
        (perform_tableOf_opened opened) keyedTable
      rw [found] at fetched
      rw [perform_bind_ok _ _ assigned, perform_reread fetched] at done
      cases done
      have same : written = row := by
        simp only [written, Table.assigned, empty, if_true]
      rw [same]
      refine ⟨rfl, rfl, earlier, later, cut, ?_⟩
      rw [← cut]
      exact (Database.rows_tableFor _ model).symm
  | false =>
      rw [empty, if_neg Bool.false_ne_true] at assigned
      cases made : table.update? (hasKey id) (encodeAssignments model.tableColumns changed) with
      | none =>
          rw [made] at assigned
          rw [perform_bind_error _ _ assigned] at done
          cases done
      | some next =>
          rw [made] at assigned
          obtain ⟨rows, again⟩ := rows_rewrite keyedTable cut hit apart empty
          have updated := Table.update?_eq_some made
          have named : Text.sameFolded next.name model.name := by
            rw [Table.Changed.name (.updated made)]
            exact Database.tableFor_name _ model
          have there : (session.data.database.table? model.name).isSome :=
            Database.table?_isSome (List.mem_of_find?_eq_some found)
          have put : (session.data.database.put next).tableFor model = next :=
            Database.tableFor_put named there
          have nextRows : next.rows = earlier ++ written :: later := by
            rw [updated]
            exact rows
          have reopened : (tableOf model).perform setting { session with
              data := { session.data with database := session.data.database.put next } } = _ :=
            perform_tableOf_opened opened
          have fetched := @perform_fetch_key setting _ model id present _ _ reopened
            (put.symm ▸ keyedTable.updated made)
          dsimp only at fetched
          rw [put, nextRows, again] at fetched
          rw [perform_bind_ok _ _ assigned, perform_reread fetched] at done
          cases done
          refine ⟨rfl, ?_, earlier, later, cut, ?_⟩
          · change ((session.data.database.put next).tableFor model).columns = _
            rw [put, Table.Changed.columns (.updated made)]
          · change (session.data.database.put next).rows model.name = _
            rw [← Database.rows_tableFor, put, nextRows]

/-! ### What is read again -/

end Relational

/-- What is read of a value that was stored in a column. -/
def Column.reread (column : Column) (value : Json) : Json :=
  (column.decode (.value (column.affinity.convert (column.encode value)))).getD .null

/-- What is read of a record that was stored under a key. -/
def Schema.reread (model : Schema) (key : Int) (record : Object) : Object :=
  model.tableColumns.map fun column =>
    (column.name, if column.kind = .key then .int key
      else column.reread ((record.get? column.name).getD .null))

/-- Of the columns of a model only that of the key has the kind of a key. -/
theorem Schema.eq_keyColumn {model : Schema} {column : Column}
    (member : column ∈ model.tableColumns) (key : column.kind = .key) : column = keyColumn := by
  rcases List.mem_cons.mp member with rfl | member
  · rfl
  rcases List.mem_append.mp member with stored | time
  · obtain ⟨entry, -, rfl⟩ := List.mem_map.mp stored
    exact absurd key StoredField.kind_ne_key
  · split at time
    · rcases List.mem_cons.mp time with rfl | time
      · cases key
      · obtain rfl := List.mem_singleton.mp time
        cases key
    · cases time

section Reread

variable {model : Schema} {table : Table} (own : table.columns = model.tableColumns)
variable (distinct : (model.tableColumns.map Column.name).Nodup)
include own distinct

/-- The cell of a column after a record was written over a row. -/
theorem Table.Keyed.get_assigned_column (keyed : table.Keyed) {row : Row}
    (integer : row.get idField = .int row.key) (record : Object) {column : Column}
    (member : column ∈ model.tableColumns) :
    Row.get (table.assigned (Relational.encodeAssignments model.tableColumns record) row)
        column.name =
      if column.kind = .key then .int row.key
      else column.affinity.convert (column.encode ((record.get? column.name).getD .null)) := by
  by_cases key : column.kind = .key
  · rw [if_pos key, Schema.eq_keyColumn member key]
    exact keyed.get_assigned _ integer
  · rw [if_neg key]
    have found := Relational.find?_of_nodup distinct member
    have kept : (column.kind != .key) = true := bne_iff_ne.mpr key
    have assigned : (model.tableColumns.filter fun other => other.kind != .key).find?
        (·.name == column.name) = some column := find?_filter_of_find? found kept
    have present : (Relational.encodeAssignments model.tableColumns record).isEmpty = false := by
      rw [List.isEmpty_eq_false_iff_exists_mem]
      exact ⟨_, List.mem_map_of_mem (List.mem_filter.mpr ⟨member, kept⟩)⟩
    have cell : Row.cell? (Relational.encodeAssignments model.tableColumns record ++ row)
        column.name = some (column.encode ((record.get? column.name).getD .null)) := by
      rw [Relational.encodeAssignments, Row.cell?_map_append, assigned]
      rfl
    have other : (column.kind == .key) = false := beq_eq_false_iff_ne.mpr key
    rw [Table.assigned, present, if_neg Bool.false_ne_true, own, Row.get, Row.cell?_storedCell,
      found, Option.map_some, Option.getD_some]
    simp only [Table.storedCell, other, Bool.false_eq_true, if_false, cell, Option.getD_some]

/-- A record that was written over a row is read as the record that is read again. -/
theorem Table.Keyed.recordOf_assigned (keyed : table.Keyed) {row : Row}
    (integer : row.get idField = .int row.key) (record : Object) :
    Relational.recordOf model.tableColumns
        (table.assigned (Relational.encodeAssignments model.tableColumns record) row) =
      model.reread row.key record := by
  refine List.map_congr_left fun column member => ?_
  rw [keyed.get_assigned_column own distinct integer record member]
  by_cases key : column.kind = .key
  · rw [if_pos key, if_pos key]
    unfold Column.decode
    rw [key]
    rfl
  · rw [if_neg key, if_neg key, Column.reread]

end Reread

namespace Relational

open RecordStore.Action (perform_bind_ok perform_bind_error perform_bind_eq_ok)

variable {setting : Setting} {session after : Session Connection} {model : Schema} {id : Json}

/-! ### Changing one record -/

/-- Making the tables reads no clock and tells nothing. -/
theorem exists_connect (setting : Setting) (session : Session Connection) :
    ∃ data, (connect.perform setting session).2 = { session with data := data } := by
  by_cases opened : session.data.opened
  · rw [perform_connect_opened opened]
    exact ⟨session.data, rfl⟩
  · rw [perform_connect_first opened]
    dsimp only
    split
    · exact ⟨_, rfl⟩
    · split
      · exact ⟨_, rfl⟩
      · exact ⟨session.data, rfl⟩

/-- The table of a model after the tables were made. -/
theorem perform_tableOf {database : Database}
    (connected : connect.perform setting session = (.ok database, after)) :
    (tableOf model).perform setting session =
      (.ok (after.data.database.tableFor model), after) := by
  obtain ⟨-, rfl⟩ := connect_eq_ok connected
  unfold tableOf
  rw [perform_bind_ok _ _ connected]
  rfl

theorem tableOf_eq_frame {table : Table}
    (connected : (tableOf model).perform setting session = (.ok table, after)) :
    ∃ data, after = { session with data := data } := by
  obtain ⟨database, between, first, rest⟩ := (perform_bind_eq_ok _ _).mp connected
  obtain ⟨data, left⟩ := exists_connect setting session
  rw [first] at left
  cases rest
  exact ⟨data, left⟩

/-- A lookup that finds a record has found the row that has the key. -/
theorem fetch_key_eq_ok (keyed : session.data.database.Keyed) (present : id ≠ .null)
    {record : Object}
    (fetched : (fetch model id).perform setting session = (.ok (some record), after)) :
    ∃ row data, after = { session with data := data, readings := session.readings + 1 } ∧
      data.opened ∧ data.database.Keyed ∧
      (data.database.tableFor model).rows = session.data.database.rows model.name ∧
      (data.database.tableFor model).rows.find? (hasKey id) = some row ∧
      record = recordOf model.tableColumns row := by
  obtain ⟨plan, all, -, matched, -⟩ := fetch_eq_ok fetched
  obtain ⟨query, table, middle, -, connected, -, -, -⟩ := find_eq_ok matched
  obtain ⟨opened, is⟩ := tableOf_eq_ok connected
  obtain ⟨keyedTable, rows, -⟩ := tableOf_rows keyed connected
  obtain ⟨still, -⟩ := tableOf_database keyed connected
  obtain ⟨data, rfl⟩ := tableOf_eq_frame connected
  have looked := perform_fetch_key present connected keyedTable
  rw [fetched, Prod.mk.injEq, Except.ok.injEq] at looked
  obtain ⟨found, rfl⟩ := looked
  obtain ⟨row, hit, same⟩ := Option.map_eq_some_iff.mp found.symm
  subst is
  exact ⟨row, data, rfl, opened, still, rows, hit, same.symm⟩

section Change

variable {schema : String} {patch : Object} {options : SaveOptions}
variable (keyed : session.data.database.Keyed)
variable (known : setting.registry.get schema = .ok model) (present : id ≠ .null)
include keyed known present

/-- Without a row of the key the change is refused, and no row changes. -/
theorem persist_missing (absent : ∀ row ∈ session.data.database.rows schema,
    denotedKey? id ≠ some row.key) :
    ∃ error after, (backend.persist schema id patch options).perform setting session =
        (.error error, after) ∧
      (error = .recordNotFound schema id.looseText ∨
        connect.perform setting session = (.error error, after)) ∧
      after.notices = session.notices := by
  have named : model.name = schema := Action.name_of_get known
  have found := (Action.perform_schema_eq_ok setting session).mpr ⟨known, rfl⟩
  obtain ⟨data, left⟩ := exists_connect setting session
  unfold Backend.persist
  rw [perform_bind_ok _ _ found]
  rcases outcome : connect.perform setting session with ⟨answer, between⟩
  rw [outcome] at left
  cases answer with
  | error error =>
      have refused : (backend.fetch model id).perform setting session = (.error error, between) :=
        perform_fetch_refused present outcome
      obtain rfl : between = { session with data := data } := left
      exact ⟨error, _, perform_bind_error _ _ refused _, .inr rfl, rfl⟩
  | ok database =>
      have connected := @perform_tableOf setting session between model database outcome
      obtain ⟨keyedTable, rows, -⟩ := tableOf_rows keyed connected
      have none_found : (between.data.database.tableFor model).rows.find? (hasKey id) = none := by
        rw [List.find?_eq_none]
        intro row member
        rw [hasKey_iff_denotedKey? (keyedTable.integer row member)]
        rw [rows, named] at member
        exact absent row member
      have fetched : (backend.fetch model id).perform setting session = _ :=
        perform_fetch_key present connected keyedTable
      rw [none_found] at fetched
      obtain rfl : between = { session with data := data } := left
      exact ⟨_, _, (perform_bind_ok _ _ fetched _).trans rfl, .inl rfl, rfl⟩

/-- A change that is answered has written the row of the key. -/
theorem persist_eq_ok {stored : Object}
    (done : (backend.persist schema id patch options).perform setting session =
      (.ok stored, after)) :
    ∃ earlier row later report changed,
      session.data.database.rows schema = earlier ++ row :: later ∧
      denotedKey? id = some row.key ∧
      model.applyUpdate (recordOf model.tableColumns row) patch options.mode options.policy
        (setting.clock (session.readings + 1)).text = (.ok report, changed) ∧
      after.data.database.rows schema = earlier ++ (after.data.database.tableFor model).assigned
        (encodeAssignments model.tableColumns changed) row :: later ∧
      stored = recordOf model.tableColumns ((after.data.database.tableFor model).assigned
        (encodeAssignments model.tableColumns changed) row) := by
  have named : model.name = schema := Action.name_of_get known
  obtain ⟨other, record, between, report, changed, last, again, fetched, applied, replaced,
    data⟩ := Backend.persist_eq_ok done
  obtain rfl : model = other := Except.ok.inj (known.symm.trans again)
  obtain ⟨row, data', rfl, opened, still, rows, hit, rfl⟩ := fetch_key_eq_ok keyed present fetched
  obtain ⟨rfl, columns, earlier, later, cut, written⟩ := @replace_eq_ok setting
    { session with data := data', readings := session.readings + 1 + 1 } last model id present still
    opened row hit changed stored replaced
  dsimp only at columns cut written
  have kept : ∀ cells, (last.data.database.tableFor model).assigned cells row =
      (data'.database.tableFor model).assigned cells row := by
    intro cells
    rw [Table.assigned, Table.assigned, columns]
  have member := List.mem_of_find?_eq_some hit
  refine ⟨earlier, row, later, report, changed, ?_, ?_, applied, ?_, ?_⟩
  · rw [← named, ← rows, cut]
  · exact (hasKey_iff_denotedKey? ((still.tableFor model).integer row member)).mp
      (List.find?_some hit)
  · rw [data, kept, ← named]
    exact written
  · rw [data, kept]

end Change

theorem hasKey_null (row : Row) : hasKey .null row = false := by
  have nothing : Comparison.eq.holds (row.get idField) .null = false := by
    cases row.get idField <;> rfl
  exact nothing

/-- A change of the key `null` writes no row. -/
theorem saveOne_null_rows {schema : String} {patch : Object} {options : SaveOptions}
    (keyed : session.data.database.Keyed)
    (untouched : ¬ Backend.AddressesRelation (setting.registry.relationsOf schema) patch)
    {answer : Except StoreError Object}
    (done : (backend.saveOne schema .null patch options).perform setting session =
      (answer, after)) (name : String) :
    after.data.database.rows name = session.data.database.rows name := by
  by_cases same : Text.sameFolded schema name
  · rw [Backend.perform_saveOne_untouched untouched] at done
    cases answer with
    | error error => exact persist_error_rows keyed done name
    | ok stored =>
        have changes := persist_rows keyed done
        simp only [hasKey_null, Bool.false_eq_true, or_false] at changes
        have equal : List.Forall₂ Eq (after.data.database.rows schema)
          (session.data.database.rows schema) := changes.flip
        rw [List.forall₂_eq_eq_eq] at equal
        rw [← Database.rows_of_sameFolded same, ← Database.rows_of_sameFolded same, equal]
  · have frame := (preserves_rows name _).saveOne same .null patch options setting session rfl
    rw [done] at frame
    exact frame

section Answered

variable {kept : Bool} {schema : String} {patch : Object} {options : SaveOptions} {stored : Object}
variable (reached : Reached kept setting.registry session)
variable (done : (backend.saveOne schema id patch options).perform setting session =
  (.ok stored, after))
include reached done

/-- A change of one record leads to a reachable session again. -/
theorem reached_saveOne : Reached kept setting.registry after := by
  have called := Reachable.call reached (.saveOne schema id patch options) setting rfl
  have last : (((Call.saveOne schema id patch options).run backend).perform setting
      session).2 = after := by
    unfold Call.run
    exact congrArg Prod.snd (Action.perform_bind_ok _ _ done _)
  exact last ▸ called

/-- Where no other model shares the table, what is read of a row that was written is what is read
again of the record. -/
theorem recordOf_written (known : setting.registry.get schema = .ok model)
    (shared : ∀ other ∈ setting.registry.schemas, Text.sameFolded other.name schema →
      other.tableColumns = model.tableColumns)
    (filled : after.data.database.rows schema ≠ []) {row : Row}
    (integer : row.get idField = .int row.key) (record : Object) :
    recordOf model.tableColumns ((after.data.database.tableFor model).assigned
        (encodeAssignments model.tableColumns record) row) = model.reread row.key record := by
  have named : model.name = schema := Action.name_of_get known
  have again := reached_saveOne reached done
  have own := (database_madeFor again).columns_tableFor (named ▸ shared)
  obtain ⟨written, inside⟩ := List.exists_mem_of_ne_nil _ filled
  rw [← named, ← Database.rows_tableFor] at inside
  have distinct := (database_columnsDistinct again).tableColumns (Database.table?_isSome inside) own
  exact ((database_keyed again).tableFor model).recordOf_assigned own distinct integer record

end Answered

end Relational

/-- A change of one record of a relational store, of which no relation field is addressed, is
refused without a change if no row has the key that the id denotes; if it is answered, the row of
this key was written in its place with what the patch makes of its record, and read again.  The id
`null` denotes no key, and then no row is written. -/
theorem saveOne_updates_row {kept : Bool} {setting : Setting}
    {session : Session Relational.Connection} {schema : String} {model : Schema} {patch : Object}
    (reached : Relational.Reached kept setting.registry session)
    (known : setting.registry.get schema = .ok model)
    (untouched : ¬ Backend.AddressesRelation (setting.registry.relationsOf schema) patch)
    (id : Json) (options : SaveOptions) :
    (id ≠ .null →
      ((∀ row ∈ session.data.database.rows schema, denotedKey? id ≠ some row.key) →
        ∃ error after,
          (Relational.backend.saveOne schema id patch options).perform setting session =
            (.error error, after) ∧
          (error = .recordNotFound schema id.looseText ∨
            Relational.connect.perform setting session = (.error error, after)) ∧
          after.notices = session.notices ∧
          ∀ name, after.data.database.rows name = session.data.database.rows name) ∧
      ∀ stored after,
        (Relational.backend.saveOne schema id patch options).perform setting session =
          (.ok stored, after) →
        ∃ earlier row later report changed written,
          session.data.database.rows schema = earlier ++ row :: later ∧
          denotedKey? id = some row.key ∧
          model.applyUpdate (Relational.recordOf model.tableColumns row) patch options.mode
            options.policy (setting.clock (session.readings + 1)).text = (.ok report, changed) ∧
          written = (after.data.database.tableFor model).assigned
            (Relational.encodeAssignments model.tableColumns changed) row ∧
          Row.key written = row.key ∧
          after.data.database.rows schema = earlier ++ written :: later ∧
          stored = Relational.recordOf model.tableColumns written ∧
          (∀ name, ¬ Text.sameFolded schema name →
            after.data.database.rows name = session.data.database.rows name) ∧
          -- a model whose name differs in case alone would share the table
          ((∀ other ∈ setting.registry.schemas, Text.sameFolded other.name schema →
            other.tableColumns = model.tableColumns) →
            stored = model.reread row.key changed)) ∧
    (id = .null → ∀ answer after,
      (Relational.backend.saveOne schema id patch options).perform setting session =
        (answer, after) →
      ∀ name, after.data.database.rows name = session.data.database.rows name) := by
  have keyed := Relational.database_keyed reached
  refine ⟨fun present => ⟨fun absent => ?_, fun stored after done => ?_⟩, ?_⟩
  · obtain ⟨error, after, refused, missing, told⟩ := @Relational.persist_missing setting session
      model id schema patch options keyed known present absent
    refine ⟨error, after, ?_, missing, told, Relational.persist_error_rows keyed refused⟩
    rw [Backend.perform_saveOne_untouched untouched, refused]
  · have stores := done
    rw [Backend.perform_saveOne_untouched untouched] at stores
    obtain ⟨earlier, row, later, report, changed, before, denoted, applied, rows, rfl⟩ :=
      Relational.persist_eq_ok keyed known present stores
    have integer : row.get idField = .int row.key := by
      refine (keyed.tableFor model).integer row ?_
      rw [Database.rows_tableFor, Action.name_of_get known, before]
      exact List.mem_append_right earlier List.mem_cons_self
    refine ⟨earlier, row, later, report, changed, _, before, denoted, applied, rfl, ?_, rows, rfl,
      fun name apart => ?_, fun shared => ?_⟩
    · exact ((Relational.database_keyed (Relational.reached_saveOne reached done)).tableFor
        model).key_assigned _ integer
    · have frame := (Relational.preserves_rows name _).saveOne apart id patch options setting
        session rfl
      rw [done] at frame
      exact frame
    · have filled : after.data.database.rows schema ≠ [] := by simp [rows]
      exact Relational.recordOf_written reached done known shared filled integer changed
  · rintro rfl answer after done
    exact Relational.saveOne_null_rows keyed untouched done

/-- The key `"1"` changes the record of the key 1; the key 2 changes none. -/
theorem saveOne_updates_row_of_text :
    let setting := namedSetting
    let create : Call := .create "user" [("name", .str "a")]
    let session := ((create.run Relational.backend).perform setting (namedTables [] 0 1)).2
    let change (id : Json) := Relational.backend.saveOne "user" id [("name", .str "b")]
      ⟨.cover, .reject⟩
    (∃ error after, (change (.int 2)).perform setting session = (.error error, after) ∧
      error = .recordNotFound "user" "2" ∧
      ∀ name, after.data.database.rows name = session.data.database.rows name) ∧
    ∃ stored after earlier row later changed,
      (change (.str "1")).perform setting session = (.ok stored, after) ∧
      session.data.database.rows "user" = earlier ++ row :: later ∧
      row.key = 1 ∧
      after.data.database.rows "user" = earlier ++ (after.data.database.tableFor namedUser).assigned
        (Relational.encodeAssignments namedUser.tableColumns changed) row :: later ∧
      stored = namedUser.reread row.key changed := by
  intro setting create session change
  have created : session = namedTables [[("id", .int 1), ("name", .text "a")]] 1 3 := by
    decide +kernel
  have reached : Relational.Reached false setting.registry session :=
    .call reached_namedTables create setting rfl
  have untouched : ¬ Backend.AddressesRelation (setting.registry.relationsOf "user")
      [("name", .str "b")] := by
    rintro ⟨relation, member, -⟩
    cases member
  have known : setting.registry.get "user" = .ok namedUser := rfl
  constructor
  · have present : Json.int 2 ≠ .null := by rintro ⟨⟩
    obtain ⟨missing, -⟩ := (saveOne_updates_row reached known untouched (.int 2)
      ⟨.cover, .reject⟩).1 present
    obtain ⟨error, after, refused, cause, -, rows⟩ := missing (by rw [created]; decide)
    refine ⟨error, after, refused, cause.resolve_right fun unopened => ?_, rows⟩
    rw [created] at unopened
    cases unopened
  · obtain ⟨after, done⟩ : ∃ after, (change (.str "1")).perform setting session =
        (.ok [("id", .int 1), ("name", .str "b")], after) :=
      Action.exists_perform_eq (by decide +kernel)
    have present : Json.str "1" ≠ .null := by rintro ⟨⟩
    obtain ⟨earlier, found, later, report, changed, written, before, denoted, -, rfl, -, rows, -, -,
      again⟩ := ((saveOne_updates_row reached known untouched (.str "1") ⟨.cover, .reject⟩).1
        present).2 _ after done
    have key : denotedKey? (.str "1") = some 1 := by decide +kernel
    refine ⟨_, after, earlier, found, later, changed, done, before, ?_, rows, again ?_⟩
    · exact (Option.some.inj (key.symm.trans denoted)).symm
    · intro other listed _
      obtain rfl := List.mem_singleton.mp listed
      rfl

/-- The key `null` is answered with a record that it does not denote, and the change is not
stored. -/
theorem saveOne_null_answers_unwritten :
    let setting := namedSetting
    let create : Call := .create "user" [("name", .str "a")]
    let session := ((create.run Relational.backend).perform setting (namedTables [] 0 1)).2
    let record : Object := [("id", .int 1), ("name", .str "a")]
    Relational.Reached false setting.registry session ∧
      setting.registry.get "user" = .ok namedUser ∧
      ¬ Backend.AddressesRelation (setting.registry.relationsOf "user") [("name", .str "b")] ∧
      (session.data.database.rows "user").map (Relational.recordOf namedUser.tableColumns) =
        [record] ∧
      denotedKey? .null = none ∧
      ∃ after, (Relational.backend.saveOne "user" .null [("name", .str "b")]
          ⟨.cover, .reject⟩).perform setting session = (.ok record, after) ∧
        after.data.database.rows "user" = session.data.database.rows "user" := by
  intro setting create session record
  refine ⟨.call reached_namedTables create setting rfl, rfl, ?_, by decide +kernel, by decide, ?_⟩
  · rintro ⟨relation, member, -⟩
    cases member
  · exact ⟨namedTables [[("id", .int 1), ("name", .text "a")]] 1 6, by decide +kernel,
      by decide +kernel⟩

end RecordStore
