/-
Module: RecordStore.Proofs.Store.Insertion
Purpose: What a create adds, on both stores.  A relational store refuses a key that is taken,
  so a create that succeeds adds one row and leaves the others alone.  A document store puts
  the record under its key in any case: it adds a record only where the key was free, and
  otherwise takes the place of the record that stood there.
Main exports: create_adds_or_replaces, create_takes_place
-/
import RecordStore.Proofs.Document.Creating
import RecordStore.Proofs.Relational.Creating
import RecordStore.Proofs.Store.Decidable

namespace RecordStore

/-- In every session of a document store a create fails and changes nothing, or puts the
record it answers: beside the others if its key is free, in place of the record of its key
if not.  An import has put as many records as it answers, and the number of records has
grown by so many exactly when no two of them have one key and no key was taken.  In every
session of a relational store a create fails and leaves all rows as they were, or adds one
row; an import that succeeds has added as many rows as it answers. -/
theorem create_adds_or_replaces (setting : Setting) (schema : String) (values : Object)
    (path : String) :
    (∀ session, Document.Reached setting.registry session →
      ((∃ error, (Document.backend.create schema values).perform setting session =
          (.error error, session)) ∨
        ∃ stored after id, (Document.backend.create schema values).perform setting session =
            (.ok stored, after) ∧
          stored.get? idField = some id ∧
          (session.data.tree schema).Puts (Document.keyOf id, Json.text (.obj stored))
            (after.data.tree schema) ∧
          ∀ other, other ≠ schema → after.data.tree other = session.data.tree other) ∧
      ∀ count after, (Document.backend.dump schema path).perform setting session =
          (.ok count, after) →
        ∃ created, created.length = count ∧
          (session.data.tree schema).Extended created (after.data.tree schema) ∧
          ((after.data.tree schema).length = (session.data.tree schema).length + count ↔
            (created.filterMap Document.recordKey? ++
              (session.data.tree schema).map Prod.fst).Nodup)) ∧
    (∀ kept session, Relational.Reached kept setting.registry session →
      ((∃ error after, (Relational.backend.create schema values).perform setting session =
            (.error error, after) ∧
          ∀ name, after.data.database.rows name = session.data.database.rows name) ∨
        ∃ model row after, setting.registry.get schema = .ok model ∧
          (Relational.backend.create schema values).perform setting session =
            (.ok (Relational.recordOf model.tableColumns row), after) ∧
          (after.data.database.rows schema).Perm (row :: session.data.database.rows schema) ∧
          ∀ name, ¬ Text.sameFolded schema name →
            after.data.database.rows name = session.data.database.rows name) ∧
      ∀ count after, (Relational.backend.dump schema path).perform setting session =
          (.ok count, after) →
        ∃ added : List Row, added.length = count ∧
          (after.data.database.rows schema).Perm
            (added ++ session.data.database.rows schema)) := by
  constructor
  · intro session reached
    have ordered := (Document.trees_keyed reached schema).ordered
    refine ⟨Document.create_cases setting session schema values ordered, ?_⟩
    intro count after done
    obtain ⟨records, created⟩ := Backend.exists_createEach_of_dump done
    obtain ⟨still, created, length, extended⟩ := Document.createEach_extended ordered created
    refine ⟨created, length, extended, ?_⟩
    rw [← length]
    exact extended.length_eq_iff still
  · intro kept session reached
    have keyed := Relational.database_keyed reached
    constructor
    · rcases @Relational.create_cases setting session keyed schema values with
        refused | ⟨model, row, after, known, done, rows⟩
      · exact .inl refused
      · refine .inr ⟨model, row, after, known, done, rows, fun name apart => ?_⟩
        have frame := (Relational.preserves_rows name _).create apart values setting session rfl
        rw [done] at frame
        exact frame
    · intro count after done
      obtain ⟨records, created⟩ := Backend.exists_createEach_of_dump done
      exact Relational.createEach_rows keyed created

/-- One user is stored and two more are imported: the import answers two and has added two,
under keys of their own, on both stores. -/
theorem create_adds_or_replaces_import :
    let file := "\x7b\x22data\x22:[\x7b\x22id\x22:2\x7d,\x7b\x22id\x22:3\x7d]\x7d"
    let setting := { namedSetting with files := fun _ => some file }
    let first : Call := .create "user" [("id", .int 1)]
    let documents := ((first.run Document.backend).perform setting (Session.start [])).2
    let tables := ((first.run Relational.backend).perform setting (namedTables [] 0 1)).2
    (∃ created after, (Document.backend.dump "user" "users.json").perform setting documents =
        (.ok 2, after) ∧
      created.length = 2 ∧
      (documents.data.tree "user").Extended created (after.data.tree "user") ∧
      (created.filterMap Document.recordKey? ++
        (documents.data.tree "user").map Prod.fst).Nodup) ∧
    ∃ (added : List Row) (after : Session Relational.Connection),
      (Relational.backend.dump "user" "users.json").perform setting tables = (.ok 2, after) ∧
      added.length = 2 ∧
      (after.data.database.rows "user").Perm (added ++ tables.data.database.rows "user") := by
  intro file setting first documents tables
  obtain ⟨onDocuments, onTables⟩ :=
    create_adds_or_replaces setting "user" [] "users.json"
  constructor
  · let entries : Document.Tree := [("1", "\x7b\x22id\x22:1\x7d"),
      ("2", "\x7b\x22id\x22:2\x7d"), ("3", "\x7b\x22id\x22:3\x7d")]
    have single : documents = ⟨[("user", entries.take 1)], 1, 0, []⟩ := by decide +kernel
    have done : (Document.backend.dump "user" "users.json").perform setting documents =
        (.ok 2, ⟨[("user", entries)], 3, 0, []⟩) := by decide +kernel
    obtain ⟨created, length, extended, grown⟩ :=
      (onDocuments documents (.call .fresh first setting rfl)).2 2 _ done
    refine ⟨created, _, done, length, extended, grown.mp ?_⟩
    rw [single]
    rfl
  · let row (id : Int) : Row := [("id", .int id), ("name", .null)]
    have done : (Relational.backend.dump "user" "users.json").perform setting tables =
        (.ok 2, namedTables [row 1, row 2, row 3] 3 7) := by decide +kernel
    have reached : Relational.Reached false setting.registry tables :=
      .call reached_namedTables first setting rfl
    obtain ⟨added, length, rows⟩ := (onTables false tables reached).2 2 _ done
    exact ⟨added, _, done, length, rows⟩

/-- A number and its text are one key: in a document store the second record takes the place
of the first, and an import of the two answers two where one is stored. -/
theorem create_takes_place :
    let file := "\x7b\x22data\x22:[\x7b\x22id\x22:1\x7d,\x7b\x22id\x22:\x221\x22\x7d]\x7d"
    let setting := { namedSetting with files := fun _ => some file }
    let first : Call := .create "user" [("id", .int 1), ("name", .str "a")]
    let session := ((first.run Document.backend).perform setting (Session.start [])).2
    Document.Reached setting.registry session ∧
      (∃ stored after, (Document.backend.create "user" [("id", .str "1"), ("name", .str "b")]).perform
          setting session = (.ok stored, after) ∧
        (after.data.tree "user").length = (session.data.tree "user").length ∧
        ∀ entry ∈ session.data.tree "user", entry ∉ after.data.tree "user") ∧
      ∃ after, (Document.backend.dump "user" "users.json").perform setting (Session.start []) =
          (.ok 2, after) ∧
        (after.data.tree "user").length = 1 := by
  intro file setting first session
  have created : session = ⟨[("user",
      [("1", "\x7b\x22id\x22:1,\x22name\x22:\x22a\x22\x7d")])], 1, 0, []⟩ := by decide +kernel
  refine ⟨.call .fresh first setting rfl, ?_, ?_⟩
  · rw [created]
    refine ⟨[("id", .str "1"), ("name", .str "b")], ⟨[("user",
      [("1", "\x7b\x22id\x22:\x221\x22,\x22name\x22:\x22b\x22\x7d")])], 2, 0, []⟩,
      by decide +kernel, rfl, ?_⟩
    decide
  · exact ⟨⟨[("user", [("1", "\x7b\x22id\x22:\x221\x22\x7d")])], 2, 0, []⟩, by decide +kernel, rfl⟩

end RecordStore
