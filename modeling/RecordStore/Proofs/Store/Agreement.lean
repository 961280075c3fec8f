/-
Module: RecordStore.Proofs.Store.Agreement
Purpose: Reading, counting and removing are about the same records, on both stores.  A
  document store cuts the page of a condition out for all three; a relational store only
  where it reads, so there they agree on the conditions without a page.
Main exports: selection_counted_and_removed, page_removed_whole
-/
import RecordStore.Proofs.Document.Matching
import RecordStore.Proofs.Relational.Matching
import RecordStore.Proofs.Store.Decidable

namespace RecordStore

namespace Document

/-- A removal that succeeds leaves the trees of all other models as they are. -/
theorem remove_other_tree {setting : Setting} {session after : Session Trees} {schema : String}
    {condition : Option Condition} {removed : Nat}
    (done : (backend.remove schema condition).perform setting session = (.ok removed, after))
    {other : String} (apart : other ≠ schema) :
    after.data.tree other = session.data.tree other := by
  have frame := (preserves_tree other _).remove apart condition setting session rfl
  rw [done] at frame
  exact frame

end Document

namespace Relational

/-- A removal that succeeds leaves the rows of all other models as they are. -/
theorem remove_other_rows {setting : Setting} {session after : Session Connection}
    {schema : String} {condition : Option Condition} {removed : Nat}
    (done : (backend.remove schema condition).perform setting session = (.ok removed, after))
    {other : String} (apart : ¬ Text.sameFolded schema other) :
    after.data.database.rows other = session.data.database.rows other := by
  have frame := (preserves_rows other _).remove apart condition setting session rfl
  rw [done] at frame
  exact frame

end Relational

/-- Where a select succeeds in a session of a document store, a count of its condition
answers the number of records it shows, and a removal takes the entries of these and no
others, if what is stored is read back as written.  In a session of a relational store it is
the same for a condition without offset and limit. -/
theorem selection_counted_and_removed (setting : Setting) (schema : String)
    (condition : Option Condition) (options : SelectOptions) (selection : Selection) :
    (∀ session after, Document.Reached setting.registry session →
      (Document.backend.select schema condition options).perform setting session =
        (.ok selection, after) →
      ∃ model found, setting.registry.get schema = .ok model ∧
        List.Forall₂ (Backend.Shows ((setting.registry.relationsOf schema).map Relation.field)
          (options.columns.getD (model.columnsFor .select))) found selection.records ∧
        (∃ last, (Document.backend.tally schema condition).perform setting session =
          (.ok selection.length, last)) ∧
        ∀ records, (session.data.tree schema).Holds records →
          (∀ record ∈ records, Document.ReadsBack record) →
          ∃ last, (Document.backend.remove schema condition).perform setting session =
              (.ok selection.length, last) ∧
            found.Subperm records ∧
            (session.data.tree schema).Without found (last.data.tree schema) ∧
            ∀ other, other ≠ schema → last.data.tree other = session.data.tree other) ∧
    (∀ kept session after, Relational.Reached kept setting.registry session →
      (∀ plan, Plan.ofCondition condition SelectOptions.plain = .ok plan →
        plan.offset = none ∧ plan.limit = none) →
      (Relational.backend.select schema condition options).perform setting session =
        (.ok selection, after) →
      ∃ model accepts picked, setting.registry.get schema = .ok model ∧
        List.Perm picked ((session.data.database.rows schema).filter accepts) ∧
        List.Forall₂ (Backend.Shows ((setting.registry.relationsOf schema).map Relation.field)
          (options.columns.getD (model.columnsFor .select)))
          (picked.map (Relational.recordOf model.tableColumns)) selection.records ∧
        (∃ last, (Relational.backend.tally schema condition).perform setting session =
          (.ok selection.length, last)) ∧
        ∃ last, (Relational.backend.remove schema condition).perform setting session =
            (.ok selection.length, last) ∧
          last.data.database.rows schema =
            (session.data.database.rows schema).filter (fun row => !accepts row) ∧
          ∀ other, ¬ Text.sameFolded schema other →
            last.data.database.rows other = session.data.database.rows other) := by
  constructor
  · intro session after reached done
    have ordered := (Document.trees_keyed reached schema).ordered
    obtain ⟨model, found, known, shown, counted, removed⟩ := Document.select_agrees ordered done
    refine ⟨model, found, known, shown, counted, ?_⟩
    intro records holds faithful
    obtain ⟨last, gone, picked, without⟩ := removed records holds faithful
    exact ⟨last, gone, picked, without, fun other apart => Document.remove_other_tree gone apart⟩
  · intro kept session after reached pageless done
    have keyed := Relational.database_keyed reached
    obtain ⟨model, plan, accepts, picked, known, read, -, whole, shown, ⟨counting, counted⟩,
      last, removed, rows⟩ := Relational.select_agrees keyed done
    obtain ⟨offset, limit⟩ := pageless plan read
    have all := whole offset limit
    -- The records shown are as many as the rows accepted: each is one row, cut to the columns.
    have length : ((session.data.database.rows schema).filter accepts).length =
        selection.length := by
      calc ((session.data.database.rows schema).filter accepts).length
          _ = picked.length := all.length_eq.symm
          _ = (picked.map (Relational.recordOf model.tableColumns)).length :=
            (List.length_map _).symm
          _ = selection.length := shown.length_eq
    rw [length] at counted removed
    exact ⟨model, accepts, picked, known, all, shown, ⟨counting, counted⟩, last, removed, rows,
      fun other apart => Relational.remove_other_rows removed apart⟩

/-- Two users, one without a name: a condition that asks for no name counts one of them on
both stores, and removes one. -/
theorem selection_counted_and_removed_nameless :
    let setting := namedSetting
    let first : Call := .create "user" [("id", .int 1), ("name", .null)]
    let second : Call := .create "user" [("id", .int 2), ("name", .str "b")]
    let nameless : Condition := [("name", .arr [.str "==", .str "null"])]
    let document := ((first.run Document.backend).perform setting (Session.start [])).2
    let documents := ((second.run Document.backend).perform setting document).2
    let table := ((first.run Relational.backend).perform setting (namedTables [] 0 1)).2
    let tables := ((second.run Relational.backend).perform setting table).2
    ((∃ last, (Document.backend.tally "user" (some nameless)).perform setting documents =
        (.ok 1, last)) ∧
      ∃ last, (Document.backend.remove "user" (some nameless)).perform setting documents =
        (.ok 1, last) ∧ (last.data.tree "user").length = 1) ∧
    (∃ last, (Relational.backend.tally "user" (some nameless)).perform setting tables =
        (.ok 1, last)) ∧
      ∃ last, (Relational.backend.remove "user" (some nameless)).perform setting tables =
        (.ok 1, last) := by
  intro setting first second nameless document documents table tables
  let one : Object := [("id", .int 1), ("name", .null)]
  let two : Object := [("id", .int 2), ("name", .str "b")]
  obtain ⟨onDocuments, onTables⟩ := selection_counted_and_removed setting "user"
    (some nameless) SelectOptions.plain (.many [one])
  constructor
  · let entries : Document.Tree := [("1", "\x7b\x22id\x22:1,\x22name\x22:null\x7d"),
      ("2", "\x7b\x22id\x22:2,\x22name\x22:\x22b\x22\x7d")]
    have done : (Document.backend.select "user" (some nameless) SelectOptions.plain).perform
        setting documents = (.ok (.many [one]), ⟨[("user", entries)], 3, 0, []⟩) := by
      decide +kernel
    obtain ⟨_, found, -, showing, counted, removed⟩ :=
      onDocuments documents _ (.call (.call .fresh first setting rfl) second setting rfl) done
    have tree : documents.data.tree "user" = entries := by decide +kernel
    have holds : (documents.data.tree "user").Holds [one, two] := by
      rw [tree]
      exact .cons ⟨.int 1, rfl, by decide +kernel, by decide +kernel⟩
        (.cons ⟨.int 2, rfl, by decide +kernel, by decide +kernel⟩ .nil)
    have faithful : ∀ stored ∈ [one, two], Document.ReadsBack stored := by
      have first : Document.readRecord (Json.text (.obj one)) = .ok one := by decide +kernel
      have second : Document.readRecord (Json.text (.obj two)) = .ok two := by decide +kernel
      intro stored member read readable
      rcases List.mem_pair.mp member with rfl | rfl
      · exact (Except.ok.inj (first.symm.trans readable)).symm
      · exact (Except.ok.inj (second.symm.trans readable)).symm
    obtain ⟨last, gone, -, without, -⟩ := removed _ holds faithful
    refine ⟨counted, last, gone, ?_⟩
    have lengths := without.length
    rw [tree, showing.length_eq] at lengths
    exact (Nat.succ.inj lengths).symm
  · let rows : List Row :=
      [[("id", .int 1), ("name", .null)], [("id", .int 2), ("name", .text "b")]]
    have done : (Relational.backend.select "user" (some nameless) SelectOptions.plain).perform
        setting tables = (.ok (.many [one]), namedTables rows 2 6) := by decide +kernel
    have reached : Relational.Reached false setting.registry tables :=
      .call (.call reached_namedTables first setting rfl) second setting rfl
    have pageless : ∀ plan, Plan.ofCondition (some nameless) SelectOptions.plain = .ok plan →
        plan.offset = .none ∧ plan.limit = .none := by
      intro plan read
      cases read
      exact ⟨rfl, rfl⟩
    obtain ⟨_, _, _, -, -, -, counted, last, removed, -, -⟩ :=
      onTables false tables _ reached pageless done
    exact ⟨counted, last, removed⟩

/-- On a relational store a removal takes no notice of a page: of two users a condition with
a limit of one shows one, counts two and removes both. -/
theorem page_removed_whole :
    let setting := namedSetting
    let create (id : Int) : Call := .create "user" [("id", .int id)]
    let table := (((create 1).run Relational.backend).perform setting (namedTables [] 0 1)).2
    let tables := (((create 2).run Relational.backend).perform setting table).2
    let page : Option Condition := some [("limit", .int 1)]
    Relational.Reached false setting.registry tables ∧
      (∃ selection last, (Relational.backend.select "user" page SelectOptions.plain).perform
        setting tables = (.ok selection, last) ∧ selection.length = 1) ∧
      (∃ last, (Relational.backend.tally "user" page).perform setting tables = (.ok 2, last)) ∧
      ∃ last, (Relational.backend.remove "user" page).perform setting tables = (.ok 2, last) ∧
        last.data.database.rows "user" = [] := by
  intro setting create table tables page
  let row (id : Int) : Row := [("id", .int id), ("name", .null)]
  have both : tables = namedTables [row 1, row 2] 2 5 := by decide +kernel
  refine ⟨.call (.call reached_namedTables (create 1) setting rfl) (create 2) setting rfl, ?_⟩
  rw [both]
  refine ⟨?_, ?_, ?_⟩
  · let plan : Plan := { Plan.everything .plain with limit := some 1 }
    have read : Plan.ofCondition page SelectOptions.plain = .ok plan := rfl
    have compiled : RowQuery.compile namedUser (plan.asking ⟨none, .none⟩) =
        .ok ⟨[], [], .window 1 0⟩ := rfl
    have found : (Relational.backend.find namedUser (plan.asking ⟨none, .none⟩)).perform setting
        (namedTables [row 1, row 2] 2 5) = _ :=
      Relational.perform_find compiled (Relational.perform_tableOf_opened rfl) rfl
    have selected := @Backend.perform_select_excluded _ Relational.backend setting
      (namedTables [row 1, row 2] 2 5) "user" page namedUser plan none rfl read rfl
    rw [found] at selected
    refine ⟨_, _, selected, ?_⟩
    -- the order of the rows is not computed: the length of the page does not depend on it
    change (List.map _ (List.map _ _)).length = 1
    rw [List.length_map, List.length_map, Relational.length_select_window _ rfl]
    decide +kernel
  · exact Action.exists_perform_eq (by decide +kernel)
  · exact ⟨namedTables [] 2 6, by decide +kernel, by decide +kernel⟩

end RecordStore
