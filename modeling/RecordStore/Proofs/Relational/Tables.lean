/-
Module: RecordStore.Proofs.Relational.Tables
Purpose: What the tables of a database keep.  The columns of a table begin with the key and
  its rows stand in strict order of integer keys, through every insert, update and delete.
  Writing one table changes the rows of no other name, and making tables changes no rows.
Main exports: Table.Keyed, Table.Changed, Table.Changed.keyed, Database.Keyed,
  Database.rows, Database.openAll_rows, Database.rows_put_of_ne, Database.recreate_rows
-/
import RecordStore.Relational.Database

namespace RecordStore

/-! ### Rows -/

@[simp] theorem Row.get_cons_self (name : String) (value : SqlValue) (rest : Row) :
    Row.get ((name, value) :: rest) name = value := by
  simp [Row.get, Row.cell?]

namespace Table

/-- The columns begin with the key, and the rows stand in strict order of integer keys. -/
structure Keyed (table : Table) : Prop where
  columns : table.columns.head? = some keyColumn
  integer : ∀ row ∈ table.rows, row.get idField = .int row.key
  ordered : table.rows.Pairwise fun first second => first.key < second.key

theorem Keyed.empty (schema : Schema) : (Table.empty schema).Keyed :=
  ⟨rfl, by simp [Table.empty], .nil⟩

/-- A stored row has the key it was stored under. -/
theorem get_storedRow {columns : List Column} (first : columns.head? = some keyColumn)
    (cells : Row) (key : Int) :
    Row.get (columns.map (storedCell cells key)) idField = .int key := by
  cases columns with
  | nil => cases first
  | cons column rest =>
      cases first
      exact Row.get_cons_self idField (.int key) _

theorem key_storedRow {columns : List Column} (first : columns.head? = some keyColumn)
    (cells : Row) (key : Int) : Row.key (columns.map (storedCell cells key)) = key := by
  rw [Row.key, get_storedRow first]

theorem mem_insertRow {row other : Row} {rows : List Row} :
    other ∈ insertRow row rows ↔ other = row ∨ other ∈ rows := by
  induction rows with
  | nil => simp [insertRow]
  | cons head rest ih =>
      unfold insertRow
      split
      · simp
      · rw [List.mem_cons, ih, List.mem_cons]
        exact or_left_comm

theorem ordered_insertRow {row : Row} {rows : List Row}
    (ordered : rows.Pairwise fun first second => first.key < second.key)
    (fresh : ∀ other ∈ rows, other.key ≠ row.key) :
    (insertRow row rows).Pairwise fun first second => first.key < second.key := by
  induction rows with
  | nil => exact List.pairwise_singleton _ _
  | cons head rest ih =>
      obtain ⟨above, later⟩ := List.pairwise_cons.mp ordered
      unfold insertRow
      split
      · rename_i below
        refine List.pairwise_cons.mpr ⟨?_, ordered⟩
        intro other member
        rcases List.mem_cons.mp member with rfl | member
        · exact below
        · exact Int.lt_trans below (above other member)
      · rename_i notBelow
        have apart := fresh head List.mem_cons_self
        refine List.pairwise_cons.mpr ⟨?_, ih later fun other member =>
          fresh other (List.mem_cons_of_mem _ member)⟩
        intro other member
        rcases mem_insertRow.mp member with rfl | member
        · omega
        · exact above other member

/-- The tables that one write may turn a table into. -/
inductive Changed (table : Table) : Table → Prop where
  | inserted {cells : Row} {after : Table} {key : Int}
      (made : table.insert? cells = some (after, key)) : Changed table after
  | updated {accepts : Row → Bool} {cells : Row} {after : Table}
      (made : table.update? accepts cells = some after) : Changed table after
  | deleted (accepts : Row → Bool) : Changed table (table.delete accepts)

theorem insert?_eq_some {before after : Table} {cells : Row} {key : Int}
    (made : before.insert? cells = some (after, key)) :
    before.holdsKey key = false ∧
      after = { before with
        rows := insertRow (before.columns.map (storedCell cells key)) before.rows
        last := max before.last key } := by
  unfold insert? at made
  split at made
  · cases made
  · split at made
    · cases made
    · rename_i free
      cases made
      rw [Bool.or_eq_true, not_or, Bool.not_eq_true] at free
      exact ⟨free.1, rfl⟩

/-- A row as an update leaves it. -/
def rewrite (table : Table) (accepts : Row → Bool) (cells row : Row) : Row :=
  if accepts row then table.columns.map (storedCell (cells ++ row) row.key) else row

theorem update?_eq_some {before after : Table} {accepts : Row → Bool} {cells : Row}
    (made : before.update? accepts cells = some after) :
    after = { before with rows := before.rows.map (before.rewrite accepts cells) } := by
  unfold update? at made
  split at made
  · cases made
    rfl
  · cases made

theorem Changed.name {before after : Table} (changed : before.Changed after) :
    after.name = before.name := by
  cases changed with
  | inserted made => rw [(insert?_eq_some made).2]
  | updated made => rw [update?_eq_some made]
  | deleted accepts => rfl

theorem Changed.columns {before after : Table} (changed : before.Changed after) :
    after.columns = before.columns := by
  cases changed with
  | inserted made => rw [(insert?_eq_some made).2]
  | updated made => rw [update?_eq_some made]
  | deleted accepts => rfl

theorem Keyed.inserted {before after : Table} (keyed : before.Keyed) {cells : Row} {key : Int}
    (made : before.insert? cells = some (after, key)) : after.Keyed := by
  obtain ⟨free, rfl⟩ := insert?_eq_some made
  have named := key_storedRow keyed.columns cells key
  have fresh : ∀ other ∈ before.rows, other.key ≠ key := by
    intro other member taken
    rw [holdsKey, List.any_eq_false] at free
    exact free other member (beq_iff_eq.mpr taken)
  refine ⟨keyed.columns, ?_, ordered_insertRow keyed.ordered ?_⟩
  · intro row member
    rcases mem_insertRow.mp member with rfl | member
    · rw [named]
      exact get_storedRow keyed.columns cells key
    · exact keyed.integer row member
  · intro other member
    rw [named]
    exact fresh other member

/-- An update leaves every row its key. -/
theorem Keyed.get_rewrite {table : Table} (keyed : table.Keyed) (accepts : Row → Bool)
    (cells : Row) {row : Row} (member : row ∈ table.rows) :
    Row.get (table.rewrite accepts cells row) idField = Row.get row idField := by
  unfold rewrite
  split
  · rw [get_storedRow keyed.columns, keyed.integer row member]
  · rfl

theorem Keyed.key_rewrite {table : Table} (keyed : table.Keyed) (accepts : Row → Bool)
    (cells : Row) {row : Row} (member : row ∈ table.rows) :
    Row.key (table.rewrite accepts cells row) = row.key := by
  rw [Row.key, keyed.get_rewrite accepts cells member, Row.key]

theorem Keyed.updated {before after : Table} (keyed : before.Keyed) {accepts : Row → Bool}
    {cells : Row} (made : before.update? accepts cells = some after) : after.Keyed := by
  obtain rfl := update?_eq_some made
  refine ⟨keyed.columns, ?_, ?_⟩
  · intro row member
    obtain ⟨old, there, rfl⟩ := List.mem_map.mp member
    rw [keyed.get_rewrite accepts cells there, keyed.key_rewrite accepts cells there]
    exact keyed.integer old there
  · rw [List.pairwise_map]
    refine keyed.ordered.imp_of_mem fun first second below => ?_
    rw [keyed.key_rewrite accepts cells first, keyed.key_rewrite accepts cells second]
    exact below

theorem Changed.keyed {before after : Table} (changed : before.Changed after)
    (keyed : before.Keyed) : after.Keyed := by
  cases changed with
  | inserted made => exact keyed.inserted made
  | updated made => exact keyed.updated made
  | deleted accepts =>
      refine ⟨keyed.columns, ?_, keyed.ordered.sublist List.filter_sublist⟩
      intro row member
      exact keyed.integer row (List.mem_filter.mp member).1

end Table

/-! ### Tables by name -/

namespace Text

/-- Names are one when they have one lower-case form. -/
theorem sameFolded_iff (a b : String) : sameFolded a b ↔ lower a = lower b := by
  simp [sameFolded]

end Text

namespace Database

/-- Every table is keyed. -/
def Keyed (database : Database) : Prop := ∀ table ∈ database.tables, table.Keyed

/-- The rows of the table of a name; a name without a table has none. -/
def rows (database : Database) (name : String) : List Row :=
  ((database.table? name).map Table.rows).getD []

/-- Names that differ in case alone have the same rows. -/
theorem rows_of_sameFolded {database : Database} {name other : String}
    (same : Text.sameFolded name other) : database.rows name = database.rows other := by
  rw [Text.sameFolded_iff] at same
  simp only [rows, table?, Text.sameFolded, same]

theorem Keyed.table {database : Database} (keyed : database.Keyed) {name : String} {table : Table}
    (found : database.table? name = some table) : table.Keyed :=
  keyed table (List.mem_of_find?_eq_some found)

/-- A table takes the place of the one of its name. -/
theorem table?_put (database : Database) (table : Table) (name : String) :
    (database.put table).table? name =
      if Text.sameFolded table.name name then (database.table? name).map fun _ => table
      else database.table? name := by
  have folded : ∀ other : Table,
      Text.sameFolded (if Text.sameFolded other.name table.name then table else other).name name =
        Text.sameFolded other.name name := by
    intro other
    split
    · rename_i same
      rw [Text.sameFolded_iff] at same
      simp only [Text.sameFolded, same]
    · rfl
  unfold table? put
  rw [List.find?_map]
  simp only [Function.comp_def, folded]
  cases found : database.tables.find? fun other => Text.sameFolded other.name name with
  | none => simp
  | some other =>
      have hit : Text.sameFolded other.name name := by simpa using List.find?_some found
      have same : Text.sameFolded other.name table.name = Text.sameFolded table.name name := by
        rw [Text.sameFolded_iff] at hit
        simp only [Text.sameFolded, hit]
        exact Bool.beq_comm
      simp only [Option.map_some, same]
      split <;> rfl

theorem rows_put_of_ne (database : Database) {table : Table} {name : String}
    (apart : ¬ Text.sameFolded table.name name) :
    (database.put table).rows name = database.rows name := by
  rw [rows, table?_put, if_neg apart, rows]

theorem Keyed.put {database : Database} (keyed : database.Keyed) {table : Table}
    (written : table.Keyed) : (database.put table).Keyed := by
  intro other member
  obtain ⟨old, there, rfl⟩ := List.mem_map.mp member
  split
  · exact written
  · exact keyed old there

/-! ### Making tables -/

/-- What each step keeps, the run of all of them keeps, wherever it stops. -/
theorem runSteps_keeps {holds : Database → Prop} {steps : List (Database → Option Database)}
    (each : ∀ step ∈ steps, ∀ database next, step database = some next → holds database →
      holds next) (database : Database) (held : holds database) :
    holds (database.runSteps steps).2 := by
  induction steps generalizing database with
  | nil => exact held
  | cons step rest ih =>
      unfold runSteps
      split
      · rename_i next made
        have kept := each step List.mem_cons_self database next made held
        exact ih (fun other member => each other (List.mem_cons_of_mem _ member)) next kept
      · exact held

/-- A step that makes the table of a model or an index adds an empty table at most. -/
theorem creationSteps_cases {schema : Schema} {step : Database → Option Database}
    (member : step ∈ creationSteps schema) {database next : Database}
    (made : step database = some next) :
    next.tables = database.tables ∨
      next.tables = database.tables ++ [Table.empty schema] := by
  rcases List.mem_cons.mp member with rfl | member
  · dsimp only at made
    unfold createTable? at made
    split at made
    · cases made
    split at made
    · cases made
      exact .inl rfl
    split at made
    · cases made
    split at made
    · cases made
      exact .inr rfl
    · cases made
  · obtain ⟨name, -, rfl⟩ := List.mem_map.mp member
    dsimp only at made
    unfold createIndex? at made
    split at made
    · cases made
    split at made
    · cases made
      exact .inl rfl
    · cases made
      exact .inl rfl

theorem creationSteps_keyed {schema : Schema} {step : Database → Option Database}
    (member : step ∈ creationSteps schema) {database next : Database}
    (made : step database = some next) (keyed : database.Keyed) : next.Keyed := by
  unfold Keyed
  rcases creationSteps_cases member made with same | added
  · rw [same]
    exact keyed
  · rw [added]
    intro table inside
    rcases List.mem_append.mp inside with inside | inside
    · exact keyed table inside
    · obtain rfl := List.mem_singleton.mp inside
      exact .empty schema

/-- Making a table changes the rows of no name. -/
theorem creationSteps_rows {schema : Schema} {step : Database → Option Database}
    (member : step ∈ creationSteps schema) {database next : Database}
    (made : step database = some next) (name : String) : next.rows name = database.rows name := by
  unfold rows table?
  rcases creationSteps_cases member made with same | added
  · rw [same]
  · rw [added, List.find?_append]
    cases found : database.tables.find? fun table => Text.sameFolded table.name name with
    | some table => simp
    | none =>
        simp only [Option.none_or, Option.map_none, Option.getD_none]
        cases added : [Table.empty schema].find? fun table => Text.sameFolded table.name name with
        | none => rfl
        | some table =>
            obtain rfl := List.mem_singleton.mp (List.mem_of_find?_eq_some added)
            rfl

theorem Keyed.openAll {database : Database} (keyed : database.Keyed) (schemas : List Schema) :
    (database.openAll schemas).2.Keyed := by
  refine runSteps_keeps ?_ database keyed
  intro step member database next made keyed
  obtain ⟨schema, -, member⟩ := List.mem_flatMap.mp member
  exact creationSteps_keyed member made keyed

/-- Opening changes the rows of no name. -/
theorem openAll_rows (database : Database) (schemas : List Schema) (name : String) :
    (database.openAll schemas).2.rows name = database.rows name := by
  refine @runSteps_keeps (fun next => next.rows name = database.rows name) _ ?_ database rfl
  intro step member other next made same
  obtain ⟨schema, -, member⟩ := List.mem_flatMap.mp member
  rw [creationSteps_rows member made name, same]

/-- What a table is made anew from: the database without the table of the name. -/
theorem recreate?_eq_some {database made : Database} {schema : Schema}
    (done : database.recreate? schema = some made) :
    ∃ dropped : Database,
      dropped.tables =
        database.tables.filter (fun table => !Text.sameFolded table.name schema.name) ∧
      made = (dropped.runSteps (creationSteps schema)).2 := by
  unfold recreate? at done
  dsimp only at done
  split at done
  · rename_i run
    cases done
    exact ⟨_, rfl, by rw [run]⟩
  · cases done

theorem Keyed.recreate {database made : Database} (keyed : database.Keyed) {schema : Schema}
    (done : database.recreate? schema = some made) : made.Keyed := by
  obtain ⟨dropped, tables, rfl⟩ := recreate?_eq_some done
  have kept : dropped.Keyed := by
    intro table member
    rw [tables] at member
    exact keyed table (List.mem_filter.mp member).1
  refine runSteps_keeps ?_ dropped kept
  intro step member other next made keyed
  exact creationSteps_keyed member made keyed

/-- Making the table of a model anew changes the rows of no other name. -/
theorem recreate_rows {database made : Database} {schema : Schema}
    (done : database.recreate? schema = some made) {name : String}
    (apart : ¬ Text.sameFolded schema.name name) : made.rows name = database.rows name := by
  obtain ⟨dropped, tables, rfl⟩ := recreate?_eq_some done
  have kept : dropped.rows name = database.rows name := by
    unfold rows table?
    rw [tables, List.find?_filter]
    congr 3
    funext table
    cases named : Text.sameFolded table.name name with
    | false => simp
    | true =>
        have other : ¬ Text.sameFolded table.name schema.name := by
          intro same
          rw [Text.sameFolded_iff] at named same apart
          exact apart (same.symm.trans named)
        simp [other]
  refine @runSteps_keeps (fun next => next.rows name = database.rows name) _ ?_ dropped kept
  intro step member other next made same
  rw [creationSteps_rows member made name, same]

end Database

end RecordStore
