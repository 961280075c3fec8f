/-
Module: RecordStore.Proofs.Relational.Columns
Purpose: The columns of the tables of a relational store.  A table is made for a registered
  model and keeps its name and columns from then on, so that in every reachable session a
  model works on a table with its own columns, unless a model whose name differs in case
  alone has others: such models share a table.
Main exports: Database.MadeFor, MadeFor.columns_tableFor, Database.ColumnsDistinct,
  Relational.database_madeFor, Relational.database_columnsDistinct
-/
import RecordStore.Proofs.Relational.Operations

namespace RecordStore

namespace Database

/-- Every table has the name and the columns of one of the models. -/
def MadeFor (models : List Schema) (database : Database) : Prop :=
  ∀ table ∈ database.tables, ∃ model ∈ models,
    table.name = model.name ∧ table.columns = model.tableColumns

variable {models : List Schema} {database : Database}

theorem MadeFor.start : empty.MadeFor models := fun _ member => nomatch member

theorem MadeFor.step {schema : Schema} (listed : schema ∈ models)
    {step : Database → Option Database} (member : step ∈ creationSteps schema) {next : Database}
    (made : step database = some next) (held : database.MadeFor models) :
    next.MadeFor models := by
  intro table inside
  rcases creationSteps_cases member made with same | added
  · rw [same] at inside
    exact held table inside
  · rw [added] at inside
    rcases List.mem_append.mp inside with old | new
    · exact held table old
    · obtain rfl := List.mem_singleton.mp new
      exact ⟨schema, listed, rfl, rfl⟩

theorem MadeFor.openAll (held : database.MadeFor models) :
    (database.openAll models).2.MadeFor models := by
  refine runSteps_keeps ?_ database held
  intro step member before next made kept
  obtain ⟨schema, listed, member⟩ := List.mem_flatMap.mp member
  exact kept.step listed member made

theorem MadeFor.recreate {made : Database} {schema : Schema} (listed : schema ∈ models)
    (done : database.recreate? schema = some made) (held : database.MadeFor models) :
    made.MadeFor models := by
  obtain ⟨dropped, tables, rfl⟩ := recreate?_eq_some done
  have kept : dropped.MadeFor models := by
    intro table member
    rw [tables] at member
    exact held table (List.mem_filter.mp member).1
  refine runSteps_keeps ?_ dropped kept
  intro step member before next made kept
  exact kept.step listed member made

/-- After a changed table of a model was put, the tables are old ones, and the changed one if the
model had a table before. -/
theorem mem_put_changed {model : Schema} {table other : Table}
    (changed : (database.tableFor model).Changed table)
    (member : other ∈ (database.put table).tables) :
    other ∈ database.tables ∨ other = table ∧ database.tableFor model ∈ database.tables := by
  obtain ⟨old, there, rfl⟩ := List.mem_map.mp member
  split
  · rename_i same
    refine .inr ⟨rfl, ?_⟩
    have named := database.tableFor_name model
    unfold tableFor at named ⊢
    cases found : database.table? model.name with
    | some working => exact List.mem_of_find?_eq_some found
    | none =>
        -- the model has no table, so none of this name is there to be replaced
        have absent := List.find?_eq_none.mp found old there
        have kept := changed.name
        rw [tableFor, found] at kept
        rw [found] at named
        rw [Text.sameFolded_iff] at same named absent
        exact absurd (same.trans ((congrArg Text.lower kept).trans named)) absent
  · exact .inl there

/-- A changed table is put in place of one of the same name and columns. -/
theorem MadeFor.put (held : database.MadeFor models) {model : Schema} {table : Table}
    (changed : (database.tableFor model).Changed table) : (database.put table).MadeFor models := by
  intro other member
  rcases mem_put_changed changed member with old | ⟨rfl, there⟩
  · exact held other old
  · rw [changed.name, changed.columns]
    exact held _ there

/-- A model works on a table with its own columns, if no model that shares its table has
others. -/
theorem MadeFor.columns_tableFor (held : database.MadeFor models) {model : Schema}
    (shared : ∀ other ∈ models, Text.sameFolded other.name model.name →
      other.tableColumns = model.tableColumns) :
    (database.tableFor model).columns = model.tableColumns := by
  unfold tableFor
  cases found : database.table? model.name with
  | none => rfl
  | some table =>
      obtain ⟨other, listed, named, columns⟩ := held table (List.mem_of_find?_eq_some found)
      have hit : Text.sameFolded table.name model.name := by simpa using List.find?_some found
      exact columns.trans (shared other listed (named ▸ hit))

/-! ### Names of columns -/

/-- In every table the columns have distinct names. -/
def ColumnsDistinct (database : Database) : Prop :=
  ∀ table ∈ database.tables, (table.columns.map Column.name).Nodup

theorem nodup_of_areDistinct {names : List String} (distinct : areDistinct names) :
    names.Nodup := by
  induction names with
  | nil => exact .nil
  | cons name rest ih =>
      rw [areDistinct, Bool.and_eq_true, Bool.not_eq_true'] at distinct
      refine List.nodup_cons.mpr ⟨fun member => ?_, ih distinct.2⟩
      have apart := List.any_eq_false.mp distinct.1 name member
      exact apart ((Text.sameFolded_iff name name).mpr rfl)

namespace ColumnsDistinct

theorem start : empty.ColumnsDistinct := fun _ member => nomatch member

/-- A table is made with distinct columns only. -/
theorem step {schema : Schema} {step : Database → Option Database}
    (member : step ∈ creationSteps schema) {next : Database} (made : step database = some next)
    (held : database.ColumnsDistinct) : next.ColumnsDistinct := by
  rcases List.mem_cons.mp member with rfl | member
  · dsimp only at made
    unfold createTable? at made
    repeat' split at made
    all_goals cases made
    · exact held
    · rename_i distinct
      intro table inside
      rcases List.mem_append.mp inside with old | new
      · exact held table old
      · obtain rfl := List.mem_singleton.mp new
        exact nodup_of_areDistinct distinct
  · obtain ⟨name, -, rfl⟩ := List.mem_map.mp member
    dsimp only at made
    unfold createIndex? at made
    repeat' split at made
    all_goals cases made
    all_goals exact held

theorem openAll (held : database.ColumnsDistinct) (schemas : List Schema) :
    (database.openAll schemas).2.ColumnsDistinct := by
  refine runSteps_keeps ?_ database held
  intro step member before next made kept
  obtain ⟨schema, -, member⟩ := List.mem_flatMap.mp member
  exact kept.step member made

theorem recreate {made : Database} {schema : Schema} (done : database.recreate? schema = some made)
    (held : database.ColumnsDistinct) : made.ColumnsDistinct := by
  obtain ⟨dropped, tables, rfl⟩ := recreate?_eq_some done
  have kept : dropped.ColumnsDistinct := by
    intro table member
    rw [tables] at member
    exact held table (List.mem_filter.mp member).1
  refine runSteps_keeps ?_ dropped kept
  intro step member before next made kept
  exact kept.step member made

theorem put (held : database.ColumnsDistinct) {model : Schema} {table : Table}
    (changed : (database.tableFor model).Changed table) : (database.put table).ColumnsDistinct := by
  intro other member
  rcases mem_put_changed changed member with old | ⟨rfl, there⟩
  · exact held other old
  · rw [changed.columns]
    exact held _ there

/-- The columns of a model that works on a table of its own have distinct names. -/
theorem tableColumns (held : database.ColumnsDistinct) {model : Schema}
    (made : (database.table? model.name).isSome)
    (own : (database.tableFor model).columns = model.tableColumns) :
    (model.tableColumns.map Column.name).Nodup := by
  obtain ⟨table, found⟩ := Option.isSome_iff_exists.mp made
  rw [tableFor, found, Option.getD_some] at own
  rw [← own]
  exact held table (List.mem_of_find?_eq_some found)

end ColumnsDistinct

end Database

/-- A model that is found is one of the registered models. -/
theorem Registry.mem_of_get {registry : Registry} {name : String} {model : Schema}
    (found : registry.get name = .ok model) : model ∈ registry.schemas := by
  unfold get find? at found
  split at found
  · rename_i schema hit
    cases found
    exact List.mem_of_find?_eq_some hit
  · cases found

namespace Relational

/-- Every operation leaves tables that are made for registered models. -/
theorem preserves_madeFor :
    backend.Preserves (fun registry connection => connection.database.MadeFor registry.schemas)
      (fun _ => True) := by
  refine @backend_preserves (fun registry database => database.MadeFor registry.schemas) _ ?_ ?_ ?_
  · intro registry database held
    exact held.openAll
  · intro registry database model table _ changed held
    exact held.put changed
  · intro registry database model made _ known recreated held
    exact held.recreate (Registry.mem_of_get known) recreated

/-- In every reachable session the tables are made for registered models. -/
theorem database_madeFor {kept : Bool} {registry : Registry} {session : Session Connection}
    (reached : Reached kept registry session) :
    session.data.database.MadeFor registry.schemas := by
  refine reached.holds preserves_madeFor .start ?_
  intro connection held
  unfold Connection.reopen
  split
  · exact held
  · exact .start

/-- In every reachable session the columns of the tables have distinct names. -/
theorem database_columnsDistinct {kept : Bool} {registry : Registry} {session : Session Connection}
    (reached : Reached kept registry session) : session.data.database.ColumnsDistinct := by
  have preserved : backend.Preserves
      (fun _ connection => connection.database.ColumnsDistinct) (fun _ => True) := by
    refine @backend_preserves (fun _ database => database.ColumnsDistinct) _ ?_ ?_ ?_
    · intro registry database held
      exact held.openAll registry.schemas
    · intro registry database model table _ changed held
      exact held.put changed
    · intro registry database model made _ _ recreated held
      exact held.recreate recreated
  refine reached.holds preserved .start ?_
  intro connection held
  unfold Connection.reopen
  split
  · exact held
  · exact .start

end Relational

end RecordStore
