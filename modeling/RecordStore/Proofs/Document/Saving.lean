/-
Module: RecordStore.Proofs.Document.Saving
Purpose: Storing a changed record in a tree.  A record without an id is refused before
  anything is written; any other is put under the loose text of its id.
Main exports: persist_error_data, perform_persist, persist_data
-/
import RecordStore.Proofs.Document.Operations
import RecordStore.Proofs.Store.Saving

namespace RecordStore.Document

open RecordStore.Action (perform_bind_ok)

/-- A record is written as it is, or refused without a write. -/
theorem write_cases (setting : Setting) (session : Session Trees) (model : Schema)
    (record : Object) :
    (∃ error, (write model record).perform setting session = (.error error, session)) ∨
    ∃ key, record.get? idField = some key ∧
      (write model record).perform setting session = (.ok record, { session with
        data := session.data.set model.name
          ((session.data.tree model.name).put (keyOf key) (Json.text (.obj record))) }) := by
  rw [perform_write]
  unfold storeRecord
  cases found : record.get? idField with
  | none => exact .inl ⟨_, rfl⟩
  | some key => exact .inr ⟨key, rfl, rfl⟩

variable {setting : Setting} {session after : Session Trees} {schema : String} {id : Json}
variable {patch : Object} {options : SaveOptions}

/-- A failure to store a changed record leaves the trees as they are. -/
theorem persist_error_data {error : StoreError}
    (done : (backend.persist schema id patch options).perform setting session =
      (.error error, after)) : after.data = session.data := by
  have kept := @Backend.persist_error_keeps _ backend setting session after
    (fun _ trees => trees = session.data) schema id patch options error ?_ ?_ done rfl
  · exact kept
  · intro model
    exact fetch_readsOnly model id session.data
  · intro model record between changed refusal last _ refused same
    change (write model changed).perform setting _ = _ at refused
    rcases write_cases setting { between with readings := between.readings + 1 } model changed
      with ⟨other, unwritten⟩ | ⟨key, -, written⟩
    · cases unwritten.symm.trans refused
      exact same
    · cases written.symm.trans refused

/-- A record that is fetched, changed by its patch and left with an id is stored. -/
theorem perform_persist {model : Schema} {record changed : Object} {report : PatchReport}
    {key : Json} (known : setting.registry.get schema = .ok model)
    (fetched : fetchRecord (session.data.tree schema) id = .ok (some record))
    (applied : model.applyUpdate record patch options.mode options.policy
      (setting.clock session.readings).text = (.ok report, changed))
    (keyed : changed.get? idField = some key) :
    ∃ last, (backend.persist schema id patch options).perform setting session =
      (.ok changed, last) := by
  have found : (fetch model id).perform setting session = (.ok (some record), session) := by
    rw [perform_fetch, Action.name_of_get known, fetched]
  let later : Session Trees := { session with readings := session.readings + 1 }
  obtain ⟨after, written⟩ : ∃ after, (write model changed).perform setting later =
      (.ok changed, after) := by
    rw [perform_write, storeRecord, keyed]
    exact ⟨_, rfl⟩
  refine ⟨((Action.notify model .update changed).perform setting after).2, ?_⟩
  unfold Backend.persist
  rw [perform_bind_ok _ _ ((Action.perform_schema_eq_ok setting session).mpr ⟨known, rfl⟩)]
  refine (perform_bind_ok _ _ found _).trans ?_
  rw [perform_bind_ok _ _ (Action.perform_now setting session)]
  simp only [applied]
  exact perform_bind_ok _ _ written _

/-- A changed record is put under the loose text of the id it has then. -/
theorem persist_data {stored : Object}
    (done : (backend.persist schema id patch options).perform setting session =
      (.ok stored, after)) :
    ∃ key, stored.get? idField = some key ∧
      after.data = session.data.set schema
        ((session.data.tree schema).put (keyOf key) (Json.text (.obj stored))) := by
  obtain ⟨model, record, between, report, changed, last, known, fetched, -, replaced, data⟩ :=
    Backend.persist_eq_ok done
  have named : model.name = schema := Action.name_of_get known
  have unchanged : between.data = session.data := by
    have read := (fetch_readsOnly model id).data_eq setting session
    change (fetch model id).perform setting session = _ at fetched
    rw [fetched] at read
    exact read
  change (write model changed).perform setting _ = _ at replaced
  rcases write_cases setting { between with readings := between.readings + 1 } model changed
    with ⟨error, refused⟩ | ⟨key, keyed, written⟩
  · cases refused.symm.trans replaced
  · cases written.symm.trans replaced
    refine ⟨key, keyed, ?_⟩
    rw [data, ← unchanged, named]

end RecordStore.Document
