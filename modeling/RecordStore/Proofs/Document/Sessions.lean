/-
Module: RecordStore.Proofs.Document.Sessions
Purpose: What holds in every session of a document store.  Every model's tree holds records
  under the loose texts of their ids, so ids of one loose text stand for one record, which
  any key of that text finds; a removal takes exactly what its condition finds; a call works
  on one model.
Main exports: sessions_keyed
-/
import RecordStore.Proofs.Document.Matching
import RecordStore.Proofs.Store.Decidable

namespace RecordStore.Document

/-- In every session of a document store: each entry of a tree is that of a record; the
records of a tree have ids of different loose texts; a lookup with any key of an entry's
text finds the entry's record, if it is read back; a removal that succeeds erases the
entries of what its condition finds and answers their number, if what is stored is read back
as written; and a call changes the tree of its own model only. -/
theorem sessions_keyed {registry : Registry} {session : Session Trees}
    (reached : Reached registry session) :
    (∀ model, ∀ entry ∈ session.data.tree model, ∃ (record : Object) (id : Json),
      entry.2 = Json.text (.obj record) ∧ record.get? idField = some id ∧
        id.looseText = entry.1) ∧
    (∀ model records, (session.data.tree model).Holds records →
      (records.map fun record : Object => (record.get? idField).map Json.looseText).Nodup) ∧
    (∀ setting name model condition key entry record columns, setting.registry = registry →
      registry.get name = .ok model → Plan.indexOf? condition = some key →
      entry ∈ session.data.tree name → key.looseText = entry.1 →
      readRecord entry.2 = .ok record →
      (backend.select name (some condition) ⟨columns, .none⟩).perform setting session =
        (.ok (.one (some (record.project (columns.getD (model.columnsFor .select))))),
          session)) ∧
    (∀ setting name condition removed after records, setting.registry = registry →
      (backend.remove name condition).perform setting session = (.ok removed, after) →
      (session.data.tree name).Holds records → (∀ record ∈ records, ReadsBack record) →
      ∃ model plan found between, registry.get name = .ok model ∧
        Plan.ofCondition condition SelectOptions.plain = .ok plan ∧
        (find model plan).perform setting session = (.ok found, between) ∧
        found.Subperm records ∧ removed = found.length ∧
        (session.data.tree name).Without found (after.data.tree name)) ∧
    (∀ (call : Call) setting other, other ≠ call.schema →
      ((call.run backend).perform setting session).2.data.tree other =
        session.data.tree other) := by
  have keyed := trees_keyed reached
  refine ⟨?_, ?_, ?_, ?_, ?_⟩
  · intro model entry member
    obtain ⟨record, id, found, key, text⟩ := (keyed model).held entry member
    exact ⟨record, id, text.symm, found, key⟩
  · intro model records holds
    have keys : (records.map recordKey?).Nodup := by
      rw [holds.keys]
      exact (keyed model).ordered.nodup_keys.map fun _ _ same => Option.some.inj same
    exact keys
  · intro setting name model condition key entry record columns same known indexed member text read
    exact select_index (same ▸ known) (keyed name).ordered indexed member text read columns
  · intro setting name condition removed after records same done holds faithful
    exact same ▸ remove_eq_ok (keyed name).ordered holds faithful done
  · intro call setting other apart
    exact (preserves_tree other _).call call apart setting session rfl

/-- A record created under a number is found by the text of the number, and a removal that
goes by its name takes it. -/
theorem sessions_keyed_number_as_text :
    let setting := namedSetting
    let record : Object := [("id", .int 15), ("name", .str "a")]
    let session := (((Call.create "user" record).run backend).perform setting
      (Session.start [])).2
    (backend.select "user" (some [(indexKey, .str "15")]) SelectOptions.plain).perform setting
        session = (.ok (.one (some record)), session) ∧
      ∃ after, (backend.remove "user" (some [("name", .str "a")])).perform setting session =
          (.ok 1, after) ∧
        (session.data.tree "user").Without [record] (after.data.tree "user") := by
  intro setting record session
  have reached : Reached setting.registry session :=
    .call .fresh (.create "user" record) setting rfl
  obtain ⟨-, -, lookup, removal, -⟩ := sessions_keyed reached
  let entry : String × String := ("15", "\x7b\x22id\x22:15,\x22name\x22:\x22a\x22\x7d")
  have tree : session.data.tree "user" = [entry] := by decide +kernel
  have read : readRecord entry.2 = .ok record := by decide +kernel
  have holds : (session.data.tree "user").Holds [record] := by
    rw [tree]
    exact .cons ⟨.int 15, rfl, by decide +kernel, by decide +kernel⟩ .nil
  have faithful : ∀ other ∈ [record], ReadsBack other := by
    intro other member found readable
    obtain rfl := List.mem_singleton.mp member
    have text : Json.text (.obj record) = entry.2 := by decide +kernel
    rw [text, read] at readable
    exact (Except.ok.inj readable).symm
  constructor
  · exact lookup setting "user" namedUser _ (.str "15") entry record none rfl rfl rfl
      (by rw [tree]; exact List.mem_singleton_self entry) rfl read
  · have done : ∃ after, (backend.remove "user" (some [("name", .str "a")])).perform setting
        session = (.ok 1, after) := Action.exists_perform_eq (by decide +kernel)
    obtain ⟨after, done⟩ := done
    obtain ⟨_, _, found, _, -, -, -, picked, count, without⟩ :=
      removal setting "user" _ 1 after [record] rfl done holds faithful
    have all : found = [record] :=
      List.perm_singleton.mp (picked.perm_of_length_le (Nat.le_of_eq count))
    exact ⟨after, done, all ▸ without⟩

end RecordStore.Document
