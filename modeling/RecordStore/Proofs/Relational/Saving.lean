/-
Module: RecordStore.Proofs.Relational.Saving
Purpose: Replacing a record in a table.  The plan of a key looks at nothing but the key
  cell, which an update leaves alone, so a record that was found is found again after it was
  replaced: a replacement fails before it writes or not at all.
Main exports: exists_keyQuery, perform_replace, replace_fetched, persist_error_rows, persist_rows
-/
import RecordStore.Proofs.Relational.Operations
import RecordStore.Proofs.Store.Saving

namespace RecordStore.Relational

open RecordStore.Action (Keeps perform_bind_ok perform_bind_error perform_bind_eq_ok
  perform_bind_eq_error)

variable {setting : Setting} {session after : Session Connection} {model : Schema}

/-! ### Looking up a key -/

/-- The plan of a key as a query: it runs, has no page, and accepts rows by their key
cells. -/
structure KeyQuery (model : Schema) (id : Json) (plan : Plan) (query : RowQuery) : Prop where
  read : Plan.ofCondition (some [(indexKey, id)]) SelectOptions.plain = .ok plan
  compiled : RowQuery.compile model plan = .ok query
  balanced : query.allClauses.isBalanced
  all : query.page = .all
  byKey : ∀ now later (row other : Row), Row.get row idField = Row.get other idField →
    query.accepts now row = query.accepts later other

/-- Every key has its query; that of `null` accepts every row. -/
theorem exists_keyQuery (model : Schema) (id : Json) :
    ∃ plan query, KeyQuery model id plan query := by
  cases id with
  | null => exact ⟨_, ⟨[], [], .all⟩, rfl, rfl, rfl, rfl, fun _ _ _ _ _ => rfl⟩
  | _ =>
      refine ⟨_, _, rfl, rfl, rfl, rfl, ?_⟩
      intro now later row other same
      simp only [RowQuery.accepts, RowTest.ofIndex, List.all_cons, RowTest.holds, Term.value,
        keyColumn, same]
      rfl

theorem fetch_eq_ok {id : Json} {record? : Option Object}
    (done : (fetch model id).perform setting session = (.ok record?, after)) :
    ∃ plan found, Plan.ofCondition (some [(indexKey, id)]) SelectOptions.plain = .ok plan ∧
      (find model plan).perform setting session = (.ok found, after) ∧
      record? = found.getLast? := by
  unfold fetch at done
  obtain ⟨plan, _, lifted, rest⟩ := (perform_bind_eq_ok _ _).mp done
  obtain ⟨read, rfl⟩ := (Action.perform_lift_eq_ok _ _).mp lifted
  obtain ⟨found, between, matched, last⟩ := (perform_bind_eq_ok _ _).mp rest
  cases last
  exact ⟨plan, found, read, matched, rfl⟩

/-- A lookup that finds a record leaves the tables made, and the table of the model has a
row that the query of the key accepts. -/
theorem fetch_some {id : Json} {record : Object} {plan : Plan} {query : RowQuery}
    (keyed : KeyQuery model id plan query)
    (done : (fetch model id).perform setting session = (.ok (some record), after)) :
    after.data.opened ∧ ∃ now, ∃ row ∈ (after.data.database.tableFor model).rows,
      query.accepts now row := by
  obtain ⟨other, found, read, matched, last⟩ := fetch_eq_ok done
  obtain rfl : plan = other := Except.ok.inj (keyed.read.symm.trans read)
  obtain ⟨again, table, between, compiled, connected, -, rfl, rfl⟩ := find_eq_ok matched
  obtain rfl : query = again := Except.ok.inj (keyed.compiled.symm.trans compiled)
  obtain ⟨opened, rfl⟩ := tableOf_eq_ok connected
  refine ⟨opened, setting.clock between.readings, ?_⟩
  have some_row : ((between.data.database.tableFor model).rows.filter
      (query.accepts (setting.clock between.readings))) ≠ [] := by
    intro none_accepted
    have empty := length_select (between.data.database.tableFor model) keyed.all
      (setting.clock between.readings)
    rw [none_accepted, List.length_nil, List.length_eq_zero_iff] at empty
    rw [empty] at last
    cases last
  obtain ⟨row, member⟩ := List.exists_mem_of_ne_nil _ some_row
  obtain ⟨inside, accepted⟩ := List.mem_filter.mp member
  exact ⟨row, inside, accepted⟩

/-- Where the tables are made and some row is accepted, a lookup finds a record and changes
nothing. -/
theorem perform_fetch_some {id : Json} {plan : Plan} {query : RowQuery}
    (keyed : KeyQuery model id plan query) (opened : session.data.opened) {now : Instant}
    {row : Row} (member : row ∈ (session.data.database.tableFor model).rows)
    (accepted : query.accepts now row) :
    ∃ record, (fetch model id).perform setting session =
      (.ok (some record), { session with readings := session.readings + 1 }) := by
  have matched : (find model plan).perform setting session = _ :=
    perform_find keyed.compiled (perform_tableOf_opened opened) keyed.balanced
  have some_found : ((session.data.database.tableFor model).select
      (setting.clock session.readings) query).map (recordOf model.tableColumns) ≠ [] := by
    intro empty
    have length := length_select (session.data.database.tableFor model) keyed.all
      (setting.clock session.readings)
    rw [List.map_eq_nil_iff.mp empty, List.length_nil, eq_comm, List.length_eq_zero_iff] at length
    have inside := List.mem_filter.mpr
      ⟨member, (keyed.byKey (setting.clock session.readings) now row row rfl).trans accepted⟩
    rw [length] at inside
    cases inside
  refine ⟨List.getLast _ some_found, ?_⟩
  unfold fetch
  rw [perform_bind_ok _ _ ((Action.perform_lift_eq_ok setting session).mpr ⟨keyed.read, rfl⟩),
    perform_bind_ok _ _ matched, List.getLast?_eq_some_getLast some_found]
  rfl

/-! ### Replacing -/

theorem perform_assign_opened {id : Json} {cells : Row} (opened : session.data.opened) :
    (assign model id cells).perform setting session =
      if cells.isEmpty then (.ok (), session)
      else
        match (session.data.database.tableFor model).update? (hasKey id) cells with
        | none => (.error (.database .update), session)
        | some table =>
          (.ok (), { session with
            data := { session.data with database := session.data.database.put table } }) := by
  unfold assign
  split
  · rfl
  · rw [perform_bind_ok _ _ (perform_tableOf_opened opened)]
    cases (session.data.database.tableFor model).update? (hasKey id) cells with
    | none => rfl
    | some table => rfl

theorem perform_reread {id : Json} {text : String} {record : Object}
    (fetched : (fetch model id).perform setting session = (.ok (some record), after)) :
    (reread model id text).perform setting session = (.ok record, after) := by
  unfold reread
  rw [perform_bind_ok _ _ fetched]
  rfl

/-- A replacement of a record that is there is refused without a write, or it changes no
row but those of the key and finds the record again. -/
theorem perform_replace {id : Json} {plan : Plan} {query : RowQuery}
    (keyQuery : KeyQuery model id plan query) (keyed : session.data.database.Keyed)
    (opened : session.data.opened) {now : Instant} {row : Row}
    (member : row ∈ (session.data.database.tableFor model).rows)
    (accepted : query.accepts now row) (changed : Object) :
    (∃ error, (replace model id changed).perform setting session = (.error error, session)) ∨
    ∃ stored last, (replace model id changed).perform setting session = (.ok stored, last) ∧
      List.Forall₂ (fun before after => after = before ∨ hasKey id before)
        (session.data.database.rows model.name) (last.data.database.rows model.name) := by
  have assigned : (assign model id (encodeAssignments model.tableColumns changed)).perform
      setting session = _ := perform_assign_opened opened
  rw [replace_eq]
  split at assigned
  · -- there is no column but the key's
    right
    obtain ⟨stored, refetched⟩ := perform_fetch_some keyQuery opened member accepted
    refine ⟨stored, _, (perform_bind_ok _ _ assigned _).trans (perform_reread refetched), ?_⟩
    exact List.forall₂_same.mpr fun _ _ => .inl rfl
  · split at assigned
    · left
      exact ⟨_, perform_bind_error _ _ assigned _⟩
    · rename_i table updated
      right
      have rewritten := Table.update?_eq_some updated
      have named : Text.sameFolded table.name model.name := by
        rw [Table.Changed.name (.updated updated)]
        exact Database.tableFor_name _ model
      have put := Database.tableFor_put named (Database.table?_isSome member)
      -- the row that was found is there again, under the key it had
      have there : (session.data.database.tableFor model).rewrite (hasKey id)
          (encodeAssignments model.tableColumns changed) row ∈
          ((session.data.database.put table).tableFor model).rows := by
        rw [put, rewritten]
        exact List.mem_map_of_mem member
      have same := (keyed.tableFor model).get_rewrite (hasKey id)
        (encodeAssignments model.tableColumns changed) member
      have found : ∃ stored, (fetch model id).perform setting { session with
          data := { session.data with database := session.data.database.put table } } =
          (.ok (some stored), _) :=
        perform_fetch_some keyQuery opened there ((keyQuery.byKey now now _ row same).trans accepted)
      obtain ⟨stored, refetched⟩ := found
      refine ⟨stored, _, (perform_bind_ok _ _ assigned _).trans (perform_reread refetched), ?_⟩
      change List.Forall₂ _ _ ((session.data.database.put table).rows model.name)
      rw [← Database.rows_tableFor, ← Database.rows_tableFor, put, rewritten,
        List.forall₂_map_right_iff, List.forall₂_same]
      intro other _
      unfold Table.rewrite
      split
      · rename_i hit
        exact .inr hit
      · exact .inl rfl

/-! ### Storing a changed record -/

/-- The tables stay keyed when a key is looked up, and no rows change. -/
theorem fetch_database {id : Json} {record? : Option Object}
    (keyed : session.data.database.Keyed)
    (done : (fetch model id).perform setting session = (.ok record?, after)) :
    after.data.database.Keyed ∧
      ∀ name, after.data.database.rows name = session.data.database.rows name := by
  constructor
  · have kept := @fetch_keeps (fun _ database => database.Keyed)
      (fun _ _ keyed => keyed.openAll _) model id setting session keyed
    rw [done] at kept
    exact kept
  · intro name
    have kept := (preserves_rows name _).fetch model id setting session rfl
    change ((fetch model id).perform setting session).2.data.database.rows name = _ at kept
    rw [done] at kept
    exact kept

/-- After a record was found its replacement is refused without a write, or changes no row
but those of the key. -/
theorem replace_fetched {id : Json} {record : Object} {between : Session Connection}
    (keyed : session.data.database.Keyed)
    (fetched : (fetch model id).perform setting session = (.ok (some record), between))
    (changed : Object) :
    let later : Session Connection := { between with readings := between.readings + 1 }
    (∃ error, (replace model id changed).perform setting later = (.error error, later)) ∨
    ∃ stored last, (replace model id changed).perform setting later = (.ok stored, last) ∧
      List.Forall₂ (fun before after => after = before ∨ hasKey id before)
        (session.data.database.rows model.name) (last.data.database.rows model.name) := by
  intro later
  obtain ⟨plan, query, keyQuery⟩ := exists_keyQuery model id
  obtain ⟨opened, now, row, member, accepted⟩ := fetch_some keyQuery fetched
  obtain ⟨still, rows⟩ := fetch_database keyed fetched
  rw [← rows model.name]
  exact @perform_replace setting later model id plan query keyQuery still opened now row member
    accepted changed

/-- A failure to store a changed record leaves all rows as they are. -/
theorem persist_error_rows {schema : String} {id : Json} {patch : Object} {options : SaveOptions}
    {error : StoreError} (keyed : session.data.database.Keyed)
    (done : (backend.persist schema id patch options).perform setting session =
      (.error error, after)) (name : String) :
    after.data.database.rows name = session.data.database.rows name := by
  have kept := @Backend.persist_error_keeps _ backend setting session after
    (fun _ connection => connection.database.rows name = session.data.database.rows name)
    schema id patch options error ?_ ?_ done rfl
  · exact kept
  · intro model
    exact (preserves_rows name _).fetch model id
  · intro model record between changed refusal last fetched refused same
    rcases replace_fetched keyed fetched changed with
      ⟨other, unwritten⟩ | ⟨stored, later, written, -⟩
    · cases unwritten.symm.trans refused
      exact same
    · cases written.symm.trans refused

/-- Storing a changed record changes no row but those of its key. -/
theorem persist_rows {schema : String} {id : Json} {patch : Object} {options : SaveOptions}
    {stored : Object} (keyed : session.data.database.Keyed)
    (done : (backend.persist schema id patch options).perform setting session =
      (.ok stored, after)) :
    List.Forall₂ (fun before after => after = before ∨ hasKey id before)
      (session.data.database.rows schema) (after.data.database.rows schema) := by
  obtain ⟨model, record, between, report, changed, last, known, fetched, -, replaced, data⟩ :=
    Backend.persist_eq_ok done
  have named : model.name = schema := Action.name_of_get known
  rw [data, ← named]
  rcases replace_fetched keyed fetched changed with
      ⟨error, refused⟩ | ⟨again, later, written, changes⟩
  · cases refused.symm.trans replaced
  · cases written.symm.trans replaced
    exact changes

end RecordStore.Relational
