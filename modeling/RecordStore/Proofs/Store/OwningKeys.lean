/-
Module: RecordStore.Proofs.Store.OwningKeys
Purpose: Resolving the keys of a relation against looking them up, on both stores.  A key is
  resolved to the record that its own lookup finds or to none, never to another.  Which of the two
  is decided differently: by a document store from the values of the keys, by a relational store
  from their texts.  In both some key finds a record that the relation leaves out.
Main exports: owning_keys_resolve, owning_key_unresolved
-/
import RecordStore.Proofs.Document.OwningKeys
import RecordStore.Proofs.Relational.OwningKeys
import RecordStore.Proofs.Store.Decidable

namespace RecordStore

/-- In every reachable session of either store a field that holds keys is resolved key by key, in
their order: each number or text to the record that its own lookup shows, or to none.  A document
store keeps the record if its id is equal to a key of the field, as a value of the same kind; this
is for models whose records can all be read under their keys.  A relational store keeps it if the
key has the loose text of its id; this is for tables that can be made, with keys of 64 bits. -/
theorem owning_keys_resolve {setting : Setting} {relation : Relation}
    (owning : relation.side = .owning) {model : Schema}
    (known : setting.registry.get relation.target = .ok model) (record : Object) :
    (∀ {session : Session Document.Trees} {records : List Object},
      Document.Reached setting.registry session →
      (session.data.tree relation.target).Reads records →
      Document.backend.ResolvesKeys setting session relation record fun _ =>
        Document.seenAmong (relatedKeys (record.get? relation.field))) ∧
    ∀ {kept : Bool} {session between : Session Relational.Connection} {database : Database},
      Relational.Reached kept setting.registry session →
      Relational.connect.perform setting session = (.ok database, between) →
      (∀ row ∈ session.data.database.rows relation.target, fitsInt64 row.key) →
      Relational.backend.ResolvesKeys setting session relation record fun key shown =>
        shown.hasKey key := by
  constructor
  · intro session records reached given
    exact Document.resolves_keys owning known (Document.trees_keyed reached relation.target).ordered
      given record
  · intro kept session between database reached connected bounded
    have opens : (Relational.tableOf model).perform setting session = _ :=
      Relational.perform_tableOf connected
    obtain ⟨keyed, rows, -⟩ := Relational.tableOf_rows (Relational.database_keyed reached) opens
    rw [Action.name_of_get known] at rows
    exact Relational.resolves_keys owning known opens keyed (rows ▸ bounded) record

/-- Two writings of the key of one organ: a document store shows the organ for the text `"1"` and
for the number, since its id is the one of them; a relational store shows it for the text `"1"` but
not for the text `"1.0"`, which finds it as well. -/
theorem owning_keys_resolve_two_writings :
    let setting := Setting.still ⟨[namedOrgan], []⟩
    let organs : Relation := ⟨"organs", "organ", true, .owning⟩
    let holder (other : Json) : Object := [("organs", .arr [.str "1", other])]
    let heart (id : Json) : Object := [("id", id), ("name", .str "heart")]
    let saved := (((Call.create "organ" (heart (.str "1"))).run Document.backend).perform setting
      (Session.start [])).2
    let opened := (((Call.tally "organ" none).run Relational.backend).perform setting
      (Session.start (Relational.Connection.start false))).2
    let inserted := (((Call.create "organ" [("name", .str "heart")]).run
      Relational.backend).perform setting opened).2
    Document.Reached setting.registry saved ∧
      (∃ last, (Document.backend.resolve organs (holder (.int 1))).perform setting saved =
        (.ok (.arr [.obj (heart (.str "1")), .obj (heart (.str "1"))]), last)) ∧
      Relational.Reached false setting.registry inserted ∧
      ∃ last, (Relational.backend.resolve organs (holder (.str "1.0"))).perform setting inserted =
        (.ok (.arr [.obj (heart (.int 1))]), last) := by
  intro setting organs holder heart saved opened inserted
  have known : setting.registry.get organs.target = .ok namedOrgan := rfl
  have spelled (other : Json) : ∀ key ∈ relatedKeys ((holder other).get? organs.field),
      key = .str "1" ∨ key = other := by
    simp [holder, organs, relatedKeys, Object.get?]
  have documents : saved =
      ⟨[("organ", [("1", Json.text (.obj (heart (.str "1"))))])], 1, 0, []⟩ := by
    decide +kernel
  let table (rows : List Row) (last : Int) : Table := ⟨"organ", namedOrgan.tableColumns, rows, last⟩
  let row : Row := [("id", .int 1), ("name", .text "heart")]
  have rows : inserted = ⟨⟨⟨[table [row] 1], []⟩, true, false⟩, 3, 0, []⟩ := by decide +kernel
  have reached : Document.Reached setting.registry saved :=
    .call .fresh (.create "organ" (heart (.str "1"))) setting rfl
  have reached' : Relational.Reached false setting.registry inserted :=
    .call (.call .fresh (.tally "organ" none) setting rfl)
      (.create "organ" [("name", .str "heart")]) setting rfl
  refine ⟨reached, ?_, reached', ?_⟩
  · have given : (saved.data.tree organs.target).Reads [heart (.str "1")] := by
      rw [documents]
      exact .cons ⟨by decide +kernel, rfl⟩ .nil
    have looks : ∀ key ∈ relatedKeys ((holder (.int 1)).get? organs.field), key.IsKey ∧ ∃ last,
        (Document.backend.select organs.target (some [(indexKey, key)]) .plain).perform setting
          saved = (.ok (.one (some (heart (.str "1")))), last) := by
      rw [documents]
      intro key listed
      rcases spelled (.int 1) key listed with rfl | rfl <;>
        exact ⟨trivial, Action.exists_perform_eq (by decide +kernel)⟩
    exact ((owning_keys_resolve rfl known (holder (.int 1))).1 reached given).perform_resolve looks
  · have connected : Relational.connect.perform setting inserted =
        (.ok inserted.data.database, inserted) := by
      rw [rows]
      rfl
    have bounded : ∀ row ∈ inserted.data.database.rows organs.target, fitsInt64 row.key := by
      rw [rows]
      decide
    have stored : inserted.data.database.tableFor namedOrgan = table [row] 1 := by
      rw [rows]
      decide +kernel
    have opens : (Relational.tableOf namedOrgan).perform setting inserted = _ :=
      Relational.perform_tableOf connected
    have keyed := (Relational.database_keyed reached').tableFor namedOrgan
    rw [stored] at opens keyed
    have looks : ∀ key ∈ relatedKeys ((holder (.str "1.0")).get? organs.field), key.IsKey ∧
        ∃ last, (Relational.backend.select organs.target (some [(indexKey, key)]) .plain).perform
          setting inserted = (.ok (.one (some (heart (.int 1)))), last) := by
      intro key listed
      obtain ⟨isKey, denoted⟩ : key.IsKey ∧ denotedKey? key = some 1 := by
        rcases spelled (.str "1.0") key listed with rfl | rfl <;> exact ⟨trivial, by decide +kernel⟩
      have found : (table [row] 1).rows.find? (Relational.hasKey key) = some row :=
        List.find?_cons_of_pos ((Relational.hasKey_iff_denotedKey? rfl).mpr denoted)
      have selected := Relational.perform_select_isKey known opens keyed isKey
      rw [found] at selected
      exact ⟨isKey, _, selected⟩
    obtain ⟨last, resolved⟩ := ((owning_keys_resolve rfl known (holder (.str "1.0"))).2 reached'
      connected bounded).perform_resolve looks
    have shown : ((relatedKeys ((holder (.str "1.0")).get? organs.field)).filterMap fun key =>
        (some (heart (.int 1))).filter (·.hasKey key)) = [heart (.int 1)] := by decide +kernel
    rw [shown] at resolved
    exact ⟨last, resolved⟩

/-- The text of an id that is a number finds the organ, and a relation that holds it does not show
the organ. -/
theorem owning_key_unresolved :
    let setting := Setting.still ⟨[namedOrgan], []⟩
    let organs : Relation := ⟨"organs", "organ", true, .owning⟩
    let heart : Object := [("id", .int 1), ("name", .str "heart")]
    let session := (((Call.create "organ" heart).run Document.backend).perform setting
      (Session.start [])).2
    Document.Reached setting.registry session ∧
      (Document.backend.select "organ" (some [(indexKey, .str "1")]) .plain).perform setting
        session = (.ok (.one (some heart)), session) ∧
      ∃ last, (Document.backend.resolve organs [("organs", .arr [.str "1"])]).perform setting
        session = (.ok (.arr []), last) := by
  intro setting organs heart session
  exact ⟨.call .fresh (.create "organ" heart) setting rfl, by decide +kernel,
    Action.exists_perform_eq (by decide +kernel)⟩

end RecordStore
