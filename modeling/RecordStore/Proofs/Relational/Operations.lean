/-
Module: RecordStore.Proofs.Relational.Operations
Purpose: How the basic operations of the relational backend run, and what they do to the
  database.  The first use makes the tables, which changes no rows; after it reads change
  nothing, and a write changes the table of its own model.  Hence the tables of every
  reachable session are keyed, and a call changes the rows of its own model only.
Main exports: tableOf_eq_ok, decodeRow_eq, find_eq_ok, perform_find, backend_preserves,
  preserves_keyed, database_keyed, preserves_rows, namedTables
-/
import Mathlib.Data.List.Nodup
import RecordStore.Proofs.Relational.Tables
import RecordStore.Proofs.Store.Reading
import RecordStore.Relational.Store

namespace RecordStore

/-- The table a model works on; a model without one works on an empty table. -/
def Database.tableFor (database : Database) (model : Schema) : Table :=
  (database.table? model.name).getD (Table.empty model)

theorem Database.tableFor_name (database : Database) (model : Schema) :
    Text.sameFolded (database.tableFor model).name model.name := by
  unfold tableFor
  cases found : database.table? model.name with
  | none => exact (Text.sameFolded_iff _ _).mpr rfl
  | some table => simpa using List.find?_some found

theorem Database.Keyed.tableFor {database : Database} (keyed : database.Keyed) (model : Schema) :
    (database.tableFor model).Keyed := by
  unfold Database.tableFor
  cases found : database.table? model.name with
  | none => exact .empty model
  | some table => exact keyed.table found

theorem Database.rows_tableFor (database : Database) (model : Schema) :
    (database.tableFor model).rows = database.rows model.name := by
  unfold tableFor rows
  cases database.table? model.name <;> rfl

/-- The table of a model after a table of its name was put. -/
theorem Database.tableFor_put {database : Database} {model : Schema} {table : Table}
    (named : Text.sameFolded table.name model.name)
    (made : (database.table? model.name).isSome) :
    (database.put table).tableFor model = table := by
  obtain ⟨old, found⟩ := Option.isSome_iff_exists.mp made
  rw [Database.tableFor, Database.table?_put, if_pos named, found]
  rfl

theorem Database.table?_isSome {database : Database} {model : Schema} {row : Row}
    (member : row ∈ (database.tableFor model).rows) : (database.table? model.name).isSome := by
  unfold tableFor at member
  cases found : database.table? model.name with
  | none =>
      rw [found] at member
      cases member
  | some table => rfl

/-- Deleting from the table of a model takes the rows from the name of the model. -/
theorem Database.rows_put_delete (database : Database) (model : Schema) (accepts : Row → Bool) :
    (database.put ((database.tableFor model).delete accepts)).rows model.name =
      (database.rows model.name).filter fun row => !accepts row := by
  rw [← rows_tableFor database]
  cases found : database.table? model.name with
  | none =>
      have absent : (database.tableFor model).rows = [] := by
        rw [rows_tableFor, rows, found]
        rfl
      rw [absent, rows, table?_put, found]
      split <;> rfl
  | some table =>
      have put : (database.put ((database.tableFor model).delete accepts)).tableFor model =
          (database.tableFor model).delete accepts :=
        tableFor_put (database.tableFor_name model) (by simp [found])
      rw [← rows_tableFor, put]
      rfl

namespace Relational

open RecordStore.Action (Keeps ReadsOnly perform_bind perform_bind_ok perform_bind_error
  perform_bind_eq_ok)

variable {setting : Setting} {session after : Session Connection} {model : Schema}

/-! ### Opening -/

theorem perform_connect_opened (opened : session.data.opened) :
    connect.perform setting session = (.ok session.data.database, session) := by
  unfold connect
  rw [perform_bind_ok _ _ (Action.perform_data setting session), if_pos opened]
  rfl

/-- The first use makes the tables of all models. -/
theorem perform_connect_first (unopened : ¬ session.data.opened) :
    connect.perform setting session =
      let opening := session.data.database.openAll setting.registry.schemas
      if opening.1 then
        (.ok opening.2,
          { session with data := { session.data with database := opening.2, opened := true } })
      else if session.data.kept then
        (.error (.database .createTable),
          { session with data := { session.data with database := opening.2 } })
      else (.error (.database .createTable), session) := by
  unfold connect
  rw [perform_bind_ok _ _ (Action.perform_data setting session), if_neg unopened,
    perform_bind_ok _ _ (Action.perform_read setting session)]
  dsimp only
  rcases session.data.database.openAll setting.registry.schemas with ⟨done, database⟩
  cases done with
  | true => rfl
  | false =>
      dsimp only
      cases session.data.kept <;> rfl

/-- After a use the tables are made. -/
theorem connect_eq_ok {database : Database}
    (done : connect.perform setting session = (.ok database, after)) :
    after.data.opened ∧ after.data.database = database := by
  by_cases opened : session.data.opened
  · rw [perform_connect_opened opened] at done
    cases done
    exact ⟨opened, rfl⟩
  · rw [perform_connect_first opened] at done
    dsimp only at done
    split at done
    · cases done
      exact ⟨rfl, rfl⟩
    · split at done <;> cases done

theorem tableOf_eq_ok {table : Table}
    (done : (tableOf model).perform setting session = (.ok table, after)) :
    after.data.opened ∧ table = after.data.database.tableFor model := by
  obtain ⟨database, between, connected, rest⟩ := (perform_bind_eq_ok _ _).mp done
  obtain ⟨opened, rfl⟩ := connect_eq_ok connected
  cases rest
  exact ⟨opened, rfl⟩

theorem perform_tableOf_opened (opened : session.data.opened) :
    (tableOf model).perform setting session =
      (.ok (session.data.database.tableFor model), session) := by
  unfold tableOf
  rw [perform_bind_ok _ _ (perform_connect_opened opened)]
  rfl

/-! ### Reading -/

/-- The record of a row. -/
def recordOf (columns : List Column) (row : Row) : Object :=
  columns.map fun column =>
    (column.name, (column.decode (.value (row.get column.name))).getD .null)

/-- Every cell that is stored can be read. -/
theorem decode_isSome (column : Column) (value : SqlValue) :
    (column.decode (.value value)).isSome := by
  have scalar : (Cell.scalar? (.value value)).isSome := by
    cases value with
    | real x =>
        unfold Cell.scalar?
        dsimp only
        cases Number.ofBinary64? x <;> rfl
    | _ => rfl
  unfold Column.decode
  split
  · rfl
  · rfl
  · exact scalar

theorem decodeRow_eq (columns : List Column) (row : Row) :
    decodeRow columns row = .ok (recordOf columns row) := by
  unfold decodeRow recordOf
  induction columns with
  | nil => rfl
  | cons column rest ih =>
      obtain ⟨value, decoded⟩ :=
        Option.isSome_iff_exists.mp (decode_isSome column (row.get column.name))
      rw [List.mapM_cons, ih]
      simp only [decodeCell, decoded, List.map_cons, Option.getD_some]
      rfl

/-- The record of a row has under a name what the cell of the first column of the name is
decoded to. -/
theorem get?_recordOf_of_find? {columns : List Column} {column : Column} {name : String}
    (found : columns.find? (·.name == name) = some column) (row : Row) :
    (recordOf columns row).get? name =
      some ((column.decode (.value (row.get column.name))).getD .null) := by
  induction columns with
  | nil => cases found
  | cons other rest ih =>
      rw [List.find?_cons] at found
      rw [recordOf, List.map_cons, Object.get?]
      split at found
      · rename_i same
        cases found
        exact if_pos (beq_iff_eq.mp same)
      · rename_i apart
        rw [if_neg (beq_eq_false_iff_ne.mp apart)]
        exact ih found

/-- Among columns of distinct names each is found under its own. -/
theorem find?_of_nodup {columns : List Column} (distinct : (columns.map Column.name).Nodup)
    {column : Column} (member : column ∈ columns) :
    columns.find? (·.name == column.name) = some column := by
  obtain ⟨other, found⟩ : ∃ other, columns.find? (·.name == column.name) = some other :=
    Option.isSome_iff_exists.mp (List.find?_isSome.mpr ⟨column, member, beq_self_eq_true _⟩)
  have named : other.name = column.name := by simpa using List.find?_some found
  rw [found, List.inj_on_of_nodup_map distinct (List.mem_of_find?_eq_some found) member named]

theorem decodeRows_eq (columns : List Column) (rows : List Row) :
    rows.mapM (decodeRow columns) = .ok (rows.map (recordOf columns)) := by
  induction rows with
  | nil => rfl
  | cons row rest ih =>
      rw [List.mapM_cons, decodeRow_eq, ih]
      rfl

/-- A query without a page returns as many rows as it accepts. -/
theorem length_select (table : Table) {query : RowQuery} (all : query.page = .all)
    (now : Instant) :
    (table.select now query).length = (table.rows.filter (query.accepts now)).length := by
  simp only [Table.select, RowQuery.run, RowQuery.paginate, all, RowQuery.sort,
    List.length_mergeSort]

/-- A query with a page returns as many rows as stand in the page. -/
theorem length_select_window (table : Table) {query : RowQuery} {limit offset : Nat}
    (window : query.page = .window limit offset) (now : Instant) :
    (table.select now query).length =
      min limit ((table.rows.filter (query.accepts now)).length - offset) := by
  simp only [Table.select, RowQuery.run, RowQuery.paginate, window, RowQuery.sort,
    List.length_take, List.length_drop, List.length_mergeSort]

/-- What a plan finds: the records of the rows that its query returns now. -/
theorem perform_find {plan : Plan} {query : RowQuery} {table : Table}
    (compiled : RowQuery.compile model plan = .ok query)
    (connected : (tableOf model).perform setting session = (.ok table, after))
    (balanced : query.allClauses.isBalanced) :
    (find model plan).perform setting session =
      (.ok ((table.select (setting.clock after.readings) query).map (recordOf model.tableColumns)),
        { after with readings := after.readings + 1 }) := by
  unfold find compile
  rw [perform_bind_ok _ _ ((Action.perform_lift_eq_ok setting session).mpr ⟨compiled, rfl⟩),
    perform_bind_ok _ _ connected, perform_bind_ok _ _ (Action.perform_now setting after),
    if_pos balanced, decodeRows_eq]
  rfl

theorem find_eq_ok {plan : Plan} {found : List Object}
    (done : (find model plan).perform setting session = (.ok found, after)) :
    ∃ query table between, RowQuery.compile model plan = .ok query ∧
      (tableOf model).perform setting session = (.ok table, between) ∧
      query.allClauses.isBalanced ∧
      found = (table.select (setting.clock between.readings) query).map
        (recordOf model.tableColumns) ∧
      after = { between with readings := between.readings + 1 } := by
  unfold find compile at done
  obtain ⟨query, _, lifted, rest⟩ := (perform_bind_eq_ok _ _).mp done
  obtain ⟨compiled, rfl⟩ := (Action.perform_lift_eq_ok _ _).mp lifted
  obtain ⟨table, between, connected, last⟩ := (perform_bind_eq_ok _ _).mp rest
  rw [perform_bind_ok _ _ (Action.perform_now setting between)] at last
  split at last
  · rename_i balanced
    rw [decodeRows_eq] at last
    cases last
    exact ⟨query, table, between, compiled, connected, balanced, rfl, rfl⟩
  · cases last

/-! ### Writing -/

/-- Whether a row has the key of a replacement. -/
def hasKey (id : Json) (row : Row) : Bool :=
  (RowTest.compare (.column keyColumn) .eq (keyColumn.encode id)).holds ⟨0, 0⟩ row

/-- Cells written over those of the row of a key. -/
def assign (model : Schema) (id : Json) (cells : Row) : Action Connection Unit := do
  if cells.isEmpty then return
  match (← tableOf model).update? (hasKey id) cells with
  | none => failed .update
  | some table => putTable table

/-- The record of a key as it is stored, which has to be there. -/
def reread (model : Schema) (id : Json) (text : String) : Action Connection Object := do
  match ← fetch model id with
  | some stored => return stored
  | none => throw (.recordNotFound model.name text)

/-- A replacement writes the cells and reads the record again. -/
theorem replace_eq (model : Schema) (id : Json) (record : Object) :
    replace model id record = (do
      assign model id (encodeAssignments model.tableColumns record)
      reread model id id.looseText) := by
  unfold replace assign
  dsimp only
  cases empty : (encodeAssignments model.tableColumns record).isEmpty with
  | true => rfl
  | false =>
      simp only [Bool.not_false, if_true, Bool.false_eq_true, if_false, bind_assoc]
      refine bind_congr fun table => ?_
      -- the test is written out where the replacement is defined
      split
      · rename_i outcome
        have refused : table.update? (hasKey id)
            (encodeAssignments model.tableColumns record) = none := outcome
        rw [refused]
        rfl
      · rename_i written outcome
        have updated : table.update? (hasKey id)
            (encodeAssignments model.tableColumns record) = some written := outcome
        rw [updated]
        rfl

/-! ### What is kept -/

section Preserves

variable {holds : Registry → Database → Prop} {writable : String → Prop}
variable (opening : ∀ registry database, holds registry database →
  holds registry (database.openAll registry.schemas).2)

section Reads

include opening

theorem connect_keeps : Keeps (fun registry connection => holds registry connection.database) connect := by
  intro setting session held
  by_cases opened : session.data.opened
  · rw [perform_connect_opened opened]
    exact held
  · have made := opening setting.registry session.data.database held
    rw [perform_connect_first opened]
    dsimp only
    split
    · exact made
    · split
      · exact made
      · exact held

theorem tableOf_keeps (model : Schema) :
    Keeps (fun registry connection => holds registry connection.database) (tableOf model) :=
  (connect_keeps opening).bind fun _ => .pure _

theorem find_keeps (model : Schema) (plan : Plan) :
    Keeps (fun registry connection => holds registry connection.database) (find model plan) := by
  refine (Keeps.lift _ _).bind fun query => ?_
  refine (tableOf_keeps opening model).bind fun table => ?_
  refine Keeps.now.bind fun now => ?_
  split
  · exact .ofExcept _
  · exact .throw _

theorem fetch_keeps (model : Schema) (id : Json) :
    Keeps (fun registry connection => holds registry connection.database) (fetch model id) := by
  refine (Keeps.lift _ _).bind fun plan => ?_
  exact (find_keeps opening model plan).bind fun found => .pure _

theorem matching_keeps (model : Schema) (query : RowQuery) (clause : Clause)
    (step : DatabaseStep) :
    Keeps (fun registry connection => holds registry connection.database) (matching model query clause step) := by
  refine (tableOf_keeps opening model).bind fun table => ?_
  refine Keeps.now.bind fun now => ?_
  split
  · exact .pure _
  · exact .throw _

end Reads

variable (putting : ∀ registry database model table, writable model.name →
  (database.tableFor model).Changed table → holds registry database →
  holds registry (database.put table))
include opening putting

omit opening in
theorem putTable_keeps (setting : Setting) (session : Session Connection) {model : Schema}
    {table : Table} (allowed : writable model.name)
    (changed : (session.data.database.tableFor model).Changed table)
    (held : holds setting.registry session.data.database) :
    holds setting.registry ((putTable table).perform setting session).2.data.database :=
  putting _ _ model table allowed changed held

omit putting in
theorem reread_keeps (model : Schema) (id : Json) (text : String) :
    Keeps (fun registry connection => holds registry connection.database) (reread model id text) := by
  refine (fetch_keeps opening model id).bind fun found => ?_
  cases found with
  | none => exact .throw _
  | some stored => exact .pure _

theorem insert_keeps (model : Schema) (record : Object) (allowed : writable model.name) :
    Keeps (fun registry connection => holds registry connection.database) (insert model record) := by
  refine Keeps.bind_of (fun table _ after => table = after.data.database.tableFor model)
    (tableOf_keeps opening model) (fun _ _ _ _ done => (tableOf_eq_ok done).2) ?_
  rintro setting session table rfl held
  split
  · exact held
  · rename_i after key made
    have written := putTable_keeps putting setting session allowed (.inserted made) held
    exact reread_keeps opening model (.int key) (integerText key) setting _ written

theorem assign_keeps (model : Schema) (id : Json) (cells : Row) (allowed : writable model.name) :
    Keeps (fun registry connection => holds registry connection.database) (assign model id cells) := by
  unfold assign
  split
  · exact .pure _
  · refine Keeps.bind_of (fun table _ after => table = after.data.database.tableFor model)
      (tableOf_keeps opening model) (fun _ _ _ _ done => (tableOf_eq_ok done).2) ?_
    rintro setting session table rfl held
    split
    · exact held
    · rename_i after made
      exact putTable_keeps putting setting session allowed (.updated made) held

theorem replace_keeps (model : Schema) (id : Json) (record : Object)
    (allowed : writable model.name) :
    Keeps (fun registry connection => holds registry connection.database) (replace model id record) := by
  rw [replace_eq]
  exact (assign_keeps opening putting model id _ allowed).bind fun _ =>
    reread_keeps opening model id _

theorem delete_keeps (model : Schema) (plan : Plan) (allowed : writable model.name) :
    Keeps (fun registry connection => holds registry connection.database) (delete model plan) := by
  refine (Keeps.lift _ _).bind fun query => ?_
  refine Keeps.bind_of
    (fun answer _ after => answer.1 = after.data.database.tableFor model)
    (matching_keeps opening model query _ _) ?_ ?_
  · intro setting session answer after done
    obtain ⟨table, between, connected, rest⟩ := (perform_bind_eq_ok _ _).mp done
    rw [perform_bind_ok _ _ (Action.perform_now setting between)] at rest
    split at rest
    · cases rest
      exact (tableOf_eq_ok connected).2
    · cases rest
  · rintro setting session ⟨table, accepts⟩ rfl held
    exact putTable_keeps putting setting session allowed (.deleted accepts) held

/-- The backend keeps what opening, writing a table and making it anew keep. -/
theorem backend_preserves
    (renewing : ∀ registry database (model : Schema) made, writable model.name →
      registry.get model.name = .ok model → database.recreate? model = some made →
      holds registry database → holds registry made) :
    backend.Preserves (fun registry connection => holds registry connection.database) writable where
  find model plan := find_keeps opening model plan
  fetch model id := fetch_keeps opening model id
  insert model record allowed := insert_keeps opening putting model record allowed
  replace model id record allowed := replace_keeps opening putting model id record allowed
  delete model plan allowed := delete_keeps opening putting model plan allowed
  count model plan := by
    refine (Keeps.lift _ _).bind fun query => ?_
    exact (matching_keeps opening model query _ _).bind fun matched => .pure _
  greatest model path plan := by
    refine (Keeps.lift _ _).bind fun query => ?_
    refine (Keeps.lift _ _).bind fun term => ?_
    exact (matching_keeps opening model query _ _).bind fun matched => .pure _
  reset model setting session allowed known held := by
    have between := connect_keeps opening setting session held
    change holds setting.registry ((connect >>= _).perform setting session).2.data.database
    rw [perform_bind]
    rcases outcome : connect.perform setting session with ⟨answer, after⟩
    rw [outcome] at between
    cases answer with
    | error error => exact between
    | ok database =>
        obtain ⟨-, rfl⟩ := connect_eq_ok outcome
        dsimp only
        split
        · exact between
        · rename_i made recreated
          exact renewing _ _ model made allowed known recreated between

end Preserves

/-! ### Sessions of relational stores -/

/-- The sessions that calls lead to from a store without tables, in memory or on file. -/
abbrev Reached (kept : Bool) (registry : Registry) : Session Connection → Prop :=
  Reachable backend (Connection.start kept) Connection.reopen registry

/-- Every operation keeps the tables keyed. -/
theorem preserves_keyed :
    backend.Preserves (fun _ connection => connection.database.Keyed) (fun _ => True) := by
  refine @backend_preserves (fun _ database => database.Keyed) _ ?_ ?_ ?_
  · intro registry database keyed
    exact keyed.openAll registry.schemas
  · intro registry database model table _ changed keyed
    exact keyed.put (changed.keyed (keyed.tableFor model))
  · intro registry database model made _ _ recreated keyed
    exact keyed.recreate recreated

/-- In every reachable session the tables are keyed. -/
theorem database_keyed {kept : Bool} {registry : Registry} {session : Session Connection}
    (reached : Reached kept registry session) : session.data.database.Keyed := by
  refine reached.holds preserves_keyed
    (by simp [Connection.start, Database.empty, Database.Keyed]) ?_
  intro connection keyed
  unfold Connection.reopen
  split
  · exact keyed
  · simp [Connection.start, Database.empty, Database.Keyed]

/-- Reads keep the rows of every name, writes those of every name but their model's. -/
theorem preserves_rows (other : String) (rows : List Row) :
    backend.Preserves (fun _ connection => connection.database.rows other = rows)
      (fun model => ¬ Text.sameFolded model other) := by
  refine @backend_preserves (fun _ database => database.rows other = rows) _ ?_ ?_ ?_
  · intro registry database same
    rw [Database.openAll_rows, same]
  · intro registry database model table apart changed same
    rw [Database.rows_put_of_ne, same]
    have named := database.tableFor_name model
    rw [Text.sameFolded_iff] at named apart ⊢
    rw [changed.name, named]
    exact apart
  · intro registry database model made apart _ recreated same
    rw [Database.recreate_rows recreated apart, same]

/-- Making the tables changes the rows of no name, also when it fails. -/
theorem tableOf_keeps_rows (model : Schema) (name : String) (rows : List Row) :
    Keeps (fun _ connection => connection.database.rows name = rows) (tableOf model) :=
  @tableOf_keeps (fun _ database => database.rows name = rows)
    (fun _ database same => (database.openAll_rows _ name).trans same) model

/-- Making the tables keeps them keyed and changes the rows of no name. -/
theorem tableOf_database {table : Table} (keyed : session.data.database.Keyed)
    (done : (tableOf model).perform setting session = (.ok table, after)) :
    after.data.database.Keyed ∧
      ∀ name, after.data.database.rows name = session.data.database.rows name := by
  constructor
  · have kept := @tableOf_keeps (fun _ database => database.Keyed)
      (fun _ _ keyed => keyed.openAll _) model setting session keyed
    rw [done] at kept
    exact kept
  · intro name
    have kept := tableOf_keeps_rows model name _ setting session rfl
    rw [done] at kept
    exact kept

/-- The table a model works on is keyed and has the rows it had before the tables were
made. -/
theorem tableOf_rows {table : Table} (keyed : session.data.database.Keyed)
    (done : (tableOf model).perform setting session = (.ok table, after)) :
    table.Keyed ∧ table.rows = session.data.database.rows model.name ∧
      ∀ name, after.data.database.rows name = session.data.database.rows name := by
  obtain ⟨still, same⟩ := tableOf_database keyed done
  obtain ⟨-, rfl⟩ := tableOf_eq_ok done
  exact ⟨still.tableFor model, by rw [Database.rows_tableFor, same], same⟩

end Relational

/-! ### Tables of users -/

/-- An opened database of users with the rows and the last key of their table. -/
def namedTables (rows : List Row) (last : Int) (readings : Nat) : Session Relational.Connection :=
  ⟨⟨⟨[⟨"user", namedUser.tableColumns, rows, last⟩], []⟩, true, false⟩, readings, 0, []⟩

theorem reached_namedTables : Relational.Reached false namedSetting.registry (namedTables [] 0 1) :=
  .call .fresh (.tally "user" none) namedSetting rfl

end RecordStore
