/-
Module: RecordStore.Proofs.Store.FailedSave
Purpose: What a failed change of one record leaves behind, on both stores.  Usually nothing
  has changed; but a patch that addresses a relation field may be stored before the relation
  is resolved again, and then a failure to resolve it comes after the write.
Main exports: saveOne_error_stored, saveOne_error_after_write
-/
import RecordStore.Proofs.Document.Saving
import RecordStore.Proofs.Relational.Saving
import RecordStore.Proofs.Store.Decidable

namespace RecordStore

namespace Document

/-- On a document store a change of one record that fails has left every tree as it was, or
the patch addresses a relation field, the changed record is stored under its id and nothing
else changed, and the failure is that of resolving the addressed fields. -/
theorem saveOne_error {setting : Setting} {session after : Session Trees} {schema : String}
    {id : Json} {patch : Object} {options : SaveOptions} {error : StoreError}
    (done : (backend.saveOne schema id patch options).perform setting session =
      (.error error, after)) :
    after.data = session.data ∨
      Backend.AddressesRelation (setting.registry.relationsOf schema) patch ∧
      ∃ stored middle key,
        (backend.persist schema id patch options).perform setting session = (.ok stored, middle) ∧
        (backend.populatePatched schema patch stored).perform setting middle =
          (.error error, after) ∧
        stored.get? idField = some key ∧
        after.data = session.data.set schema
          ((session.data.tree schema).put (keyOf key) (Json.text (.obj stored))) := by
  rcases Backend.saveOne_eq_error done with refused | ⟨stored, middle, written, unresolved⟩
  · exact .inl (persist_error_data refused)
  · right
    have reads : Action.ReadsOnly (backend.populatePatched schema patch stored) :=
      fun data => Backend.populatePatched_keeps
        (fun model plan => find_readsOnly model plan data) schema patch stored
    have last := reads.data_eq setting middle
    rw [unresolved] at last
    obtain ⟨key, keyed, data⟩ := persist_data written
    exact ⟨Backend.addressesRelation_of_unresolved unresolved, stored, middle, key, written,
      unresolved, keyed, last.trans data⟩

end Document

namespace Relational

/-- On a relational store a change of one record that fails has left the rows of every name
as they were, or the patch addresses a relation field, the changed record is stored and no
row of another key changed, and the failure is that of resolving the addressed fields. -/
theorem saveOne_error {setting : Setting} {session after : Session Connection} {schema : String}
    {id : Json} {patch : Object} {options : SaveOptions} {error : StoreError}
    (keyed : session.data.database.Keyed)
    (done : (backend.saveOne schema id patch options).perform setting session =
      (.error error, after)) :
    (∀ name, after.data.database.rows name = session.data.database.rows name) ∨
      Backend.AddressesRelation (setting.registry.relationsOf schema) patch ∧
      ∃ stored middle,
        (backend.persist schema id patch options).perform setting session = (.ok stored, middle) ∧
        (backend.populatePatched schema patch stored).perform setting middle =
          (.error error, after) ∧
        (∀ name, after.data.database.rows name = middle.data.database.rows name) ∧
        List.Forall₂ (fun before after => after = before ∨ hasKey id before)
          (session.data.database.rows schema) (after.data.database.rows schema) ∧
        ∀ name, ¬ Text.sameFolded schema name →
          after.data.database.rows name = session.data.database.rows name := by
  rcases Backend.saveOne_eq_error done with refused | ⟨stored, middle, written, unresolved⟩
  · exact .inl (persist_error_rows keyed refused)
  · right
    have last : ∀ name, after.data.database.rows name = middle.data.database.rows name := by
      intro name
      have reads := Backend.populatePatched_keeps (preserves_rows name _).find schema patch stored
        setting middle rfl
      rw [unresolved] at reads
      exact reads
    have others : ∀ name, ¬ Text.sameFolded schema name →
        after.data.database.rows name = session.data.database.rows name := by
      intro name apart
      have frame := (preserves_rows name _).saveOne apart id patch options setting session rfl
      rw [done] at frame
      exact frame
    have changes := persist_rows keyed written
    rw [← last schema] at changes
    exact ⟨Backend.addressesRelation_of_unresolved unresolved, stored, middle, written, unresolved,
      last, changes, others⟩

end Relational

/-- A change of one record that fails has changed nothing, on either store and in every
session, unless the patch addresses a relation field.  Then the failure may come after the
changed record was stored, when its relation fields are resolved again: nothing but that
record has changed. -/
theorem saveOne_error_stored (setting : Setting) (schema : String) (id : Json) (patch : Object)
    (options : SaveOptions) (error : StoreError) :
    (∀ session after, Document.Reached setting.registry session →
      (Document.backend.saveOne schema id patch options).perform setting session =
        (.error error, after) →
      (∀ model, after.data.tree model = session.data.tree model) ∨
        Backend.AddressesRelation (setting.registry.relationsOf schema) patch ∧
        ∃ stored middle key,
          (Document.backend.persist schema id patch options).perform setting session =
            (.ok stored, middle) ∧
          (Document.backend.populatePatched schema patch stored).perform setting middle =
            (.error error, after) ∧
          stored.get? idField = some key ∧
          after.data = session.data.set schema ((session.data.tree schema).put
            (Document.keyOf key) (Json.text (.obj stored)))) ∧
    (∀ kept session after, Relational.Reached kept setting.registry session →
      (Relational.backend.saveOne schema id patch options).perform setting session =
        (.error error, after) →
      (∀ name, after.data.database.rows name = session.data.database.rows name) ∨
        Backend.AddressesRelation (setting.registry.relationsOf schema) patch ∧
        ∃ stored middle,
          (Relational.backend.persist schema id patch options).perform setting session =
            (.ok stored, middle) ∧
          (Relational.backend.populatePatched schema patch stored).perform setting middle =
            (.error error, after) ∧
          (∀ name, after.data.database.rows name = middle.data.database.rows name) ∧
          List.Forall₂ (fun before after => after = before ∨ Relational.hasKey id before)
            (session.data.database.rows schema) (after.data.database.rows schema) ∧
          ∀ name, ¬ Text.sameFolded schema name →
            after.data.database.rows name = session.data.database.rows name) := by
  constructor
  · intro session after _ done
    rcases Document.saveOne_error done with same | written
    · exact .inl fun model => by rw [same]
    · exact .inr written
  · intro kept session after reached done
    exact Relational.saveOne_error (Relational.database_keyed reached) done

/-- A text is added to, but the next key of the patch is refused: on both stores the record
is left as it was. -/
theorem saveOne_error_stored_refused :
    let setting := namedSetting
    let create : Call := .create "user" [("id", .int 1), ("name", .str "a")]
    let documents := ((create.run Document.backend).perform setting (Session.start [])).2
    let tables := ((create.run Relational.backend).perform setting (namedTables [] 0 1)).2
    let patch : Object := [("name", .str "b"), ("height", .int 2)]
    (∃ error after, (Document.backend.saveOne "user" (.int 1) patch ⟨.append, .reject⟩).perform
        setting documents = (.error error, after) ∧
      ∀ model, after.data.tree model = documents.data.tree model) ∧
    ∃ error after, (Relational.backend.saveOne "user" (.int 1) patch ⟨.append, .reject⟩).perform
        setting tables = (.error error, after) ∧
      ∀ name, after.data.database.rows name = tables.data.database.rows name := by
  intro setting create documents tables patch
  have apart : ¬ Backend.AddressesRelation (setting.registry.relationsOf "user") patch := by
    rintro ⟨relation, member, -⟩
    cases member
  have onDocuments := fun error => (saveOne_error_stored setting "user" (.int 1) patch
    ⟨.append, .reject⟩ error).1 documents
  have onTables := fun error => (saveOne_error_stored setting "user" (.int 1) patch
    ⟨.append, .reject⟩ error).2 false tables
  obtain ⟨after, refused⟩ : ∃ after, (Document.backend.saveOne "user" (.int 1) patch
      ⟨.append, .reject⟩).perform setting documents =
      (.error (.patch (.unknownField "user" "height")), after) :=
    Action.exists_perform_eq (by decide +kernel)
  obtain ⟨last, rejected⟩ : ∃ last, (Relational.backend.saveOne "user" (.int 1) patch
      ⟨.append, .reject⟩).perform setting tables =
      (.error (.patch (.unknownField "user" "height")), last) :=
    Action.exists_perform_eq (by decide +kernel)
  have unchanged := (onDocuments _ after (.call .fresh create setting rfl) refused).resolve_right
    fun written => apart written.1
  have reached : Relational.Reached false setting.registry tables :=
    .call reached_namedTables create setting rfl
  have kept := (onTables _ last reached rejected).resolve_right fun written => apart written.1
  exact ⟨⟨_, after, refused, unchanged⟩, _, last, rejected, kept⟩

/-- No condition can be written on the field `written..by`: a change that addresses the
relation through it is stored, and fails after that. -/
theorem saveOne_error_after_write :
    let definitions : List Definition := [
      ⟨"user", .obj [("name", .str "String"), ("posts", .arr [.obj [("type", .str "Id"),
        ("ref", .str "post"), ("belong", .bool false)]])], false, Hooks.none⟩,
      ⟨"post", .obj [("written..by", .obj [("type", .str "Id"), ("ref", .str "user")])], false,
        Hooks.none⟩]
    let user : Schema := ⟨"user", [("name", .scalar .string Traits.plain),
      ("posts", .scalar .id ⟨some "post", true, some false, [], none, false⟩)], false, Hooks.none⟩
    let post : Schema := ⟨"post", [("written..by",
      .scalar .id ⟨some "user", false, none, [], none, false⟩)], false, Hooks.none⟩
    let registry : Registry := ⟨[user, post],
      [("user", [⟨"posts", "post", true, .referenced "written..by"⟩]),
        ("post", [⟨"written..by", "user", false, .owning⟩])]⟩
    let setting := Setting.still registry
    let create : Call := .create "user" [("id", .str "u"), ("name", .str "a")]
    let session := ((create.run Document.backend).perform setting (Session.start [])).2
    let patch : Object := [("name", .str "b"), ("posts", .null)]
    Registry.build definitions = .ok registry ∧ Document.Reached registry session ∧
      ∃ error after, (Document.backend.saveOne "user" (.str "u") patch ⟨.append, .skip⟩).perform
          setting session = (.error error, after) ∧
        after.data.tree "user" ≠ session.data.tree "user" := by
  intro definitions user post registry setting create session patch
  let text (name : String) : String :=
    "\x7b\x22id\x22:\x22u\x22,\x22name\x22:\x22" ++ name ++ "\x22\x7d"
  have created : session = ⟨[("user", [("u", text "a")])], 1, 0, []⟩ := by decide +kernel
  refine ⟨rfl, .call .fresh create setting rfl, ?_⟩
  rw [created]
  refine ⟨.plan (.path (.parse "written..by" .emptySegment)),
    ⟨[("user", [("u", text "ab")])], 2, 0, []⟩, by decide +kernel, ?_⟩
  decide

end RecordStore
