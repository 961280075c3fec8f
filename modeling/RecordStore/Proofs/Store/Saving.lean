/-
Module: RecordStore.Proofs.Store.Saving
Purpose: The two parts of changing one record: the record is changed and stored, then the
  relation fields that the patch addresses are resolved again.  The first part fails before
  it stores anything, as long as the backend refuses a replacement without writing; the
  second reads only, and does nothing unless a relation field is addressed.
Main exports: Backend.persist, saveOne_eq, saveOne_eq_error, persist_error_keeps,
  persist_eq_ok, populatePatched_eq_ok, perform_populatePatched_untouched,
  perform_saveOne_untouched
-/
import RecordStore.Proofs.Store.Reading

namespace RecordStore.Backend

open RecordStore.Action (Keeps perform_bind_ok perform_bind_error perform_bind_eq_ok
  perform_bind_eq_error)

variable {δ : Type} {backend : Backend δ} {setting : Setting} {session after : Session δ}

/-- The first part of changing a record: it is fetched, changed and stored, and the
listeners are told. -/
def persist (backend : Backend δ) (schema : String) (id : Json) (patch : Object)
    (options : SaveOptions) : Action δ Object := do
  let model ← Action.schema schema
  match ← backend.fetch model id with
  | none => throw (.recordNotFound schema id.looseText)
  | some record =>
    let now ← Action.now
    match model.applyUpdate record patch options.mode options.policy now.text with
    | (.error error, _) => throw (.patch error)
    | (.ok _, changed) =>
      let stored ← backend.replace model id changed
      Action.notify model .update stored
      return stored

/-- Some key of a patch addresses a relation field. -/
def AddressesRelation (relations : List Relation) (patch : Object) : Prop :=
  ∃ relation ∈ relations, ∃ key ∈ patch.keys, touches relation.field key

/-- A record is stored, then its relation fields are resolved. -/
theorem saveOne_eq (schema : String) (id : Json) (patch : Object) (options : SaveOptions) :
    backend.saveOne schema id patch options = (do
      let stored ← backend.persist schema id patch options
      backend.populatePatched schema patch stored) := by
  unfold saveOne persist
  rw [bind_assoc]
  refine bind_congr fun model => ?_
  rw [bind_assoc]
  refine bind_congr fun found => ?_
  cases found with
  | none => rfl
  | some record =>
      dsimp only
      rw [bind_assoc]
      refine bind_congr fun now => ?_
      rcases model.applyUpdate record patch options.mode options.policy now.text with
        ⟨answer, changed⟩
      cases answer with
      | error error => rfl
      | ok report => simp only [bind_assoc, pure_bind]

/-- A change that fails has failed to store the record, or has stored it and failed to
resolve its relation fields. -/
theorem saveOne_eq_error {schema : String} {id : Json} {patch : Object} {options : SaveOptions}
    {error : StoreError}
    (done : (backend.saveOne schema id patch options).perform setting session =
      (.error error, after)) :
    (backend.persist schema id patch options).perform setting session = (.error error, after) ∨
      ∃ stored middle,
        (backend.persist schema id patch options).perform setting session =
          (.ok stored, middle) ∧
        (backend.populatePatched schema patch stored).perform setting middle =
          (.error error, after) := by
  rw [saveOne_eq] at done
  exact perform_bind_eq_error _ _ done

/-- Without an addressed relation field nothing is resolved, and nothing can fail. -/
theorem perform_populatePatched_untouched {schema : String} {patch : Object}
    (untouched : ¬ AddressesRelation (setting.registry.relationsOf schema) patch)
    (record : Object) :
    (backend.populatePatched schema patch record).perform setting session =
      (.ok record, session) := by
  have none_touched : ((setting.registry.relationsOf schema).filter fun relation =>
      patch.keys.any (touches relation.field)) = [] := by
    rw [List.filter_eq_nil_iff]
    intro relation member touched
    obtain ⟨key, there, addressed⟩ := List.any_eq_true.mp touched
    exact untouched ⟨relation, member, key, there, addressed⟩
  unfold populatePatched
  rw [perform_bind_ok _ _ (Action.perform_read setting session)]
  dsimp only
  rw [none_touched]
  refine (perform_bind_ok _ _ (perform_populate_excluded ?_ [record]) _).trans rfl
  intro relation _
  rfl

/-- Without an addressed relation field a change is answered as it was stored. -/
theorem perform_saveOne_untouched {schema : String} {patch : Object}
    (untouched : ¬ AddressesRelation (setting.registry.relationsOf schema) patch) (id : Json)
    (options : SaveOptions) :
    (backend.saveOne schema id patch options).perform setting session =
      (backend.persist schema id patch options).perform setting session := by
  rw [saveOne_eq]
  rcases outcome : (backend.persist schema id patch options).perform setting session with
    ⟨answer, middle⟩
  cases answer with
  | error error => exact perform_bind_error _ _ outcome _
  | ok stored => rw [perform_bind_ok _ _ outcome, perform_populatePatched_untouched untouched]

/-- Resolving the addressed relation fields replaces no field but relation fields. -/
theorem populatePatched_eq_ok {schema : String} {patch record resolved : Object}
    (done : (backend.populatePatched schema patch record).perform setting session =
      (.ok resolved, after)) :
    AgreesOutside ((setting.registry.relationsOf schema).map Relation.field) record resolved := by
  unfold populatePatched at done
  rw [perform_bind_ok _ _ (Action.perform_read setting session)] at done
  obtain ⟨populated, _, answered, rest⟩ := (perform_bind_eq_ok _ _).mp done
  cases rest
  obtain ⟨first, _, agree, none_left, rfl⟩ := List.forall₂_cons_left_iff.mp (populate_eq_ok answered)
  exact agree

/-- Resolving can fail only where a relation field is addressed. -/
theorem addressesRelation_of_unresolved {schema : String} {patch record : Object}
    {error : StoreError}
    (failed : (backend.populatePatched schema patch record).perform setting session =
      (.error error, after)) :
    AddressesRelation (setting.registry.relationsOf schema) patch := by
  by_contra untouched
  rw [perform_populatePatched_untouched untouched] at failed
  cases failed

/-- What fetching keeps, and a replacement that is refused, is kept by a failure to store
the record. -/
theorem persist_error_keeps {holds : Registry → δ → Prop} {schema : String} {id : Json} {patch : Object}
    {options : SaveOptions} {error : StoreError}
    (fetching : ∀ model, Keeps holds (backend.fetch model id))
    (replacing : ∀ model record between changed refusal last,
      (backend.fetch model id).perform setting session = (.ok (some record), between) →
      (backend.replace model id changed).perform setting
        { between with readings := between.readings + 1 } = (.error refusal, last) →
      holds setting.registry between.data → holds setting.registry last.data)
    (done : (backend.persist schema id patch options).perform setting session =
      (.error error, after))
    (held : holds setting.registry session.data) : holds setting.registry after.data := by
  unfold persist at done
  rcases perform_bind_eq_error _ _ done with unknown | ⟨model, _, known, rest⟩
  · have kept := Keeps.schema schema setting session held
    rw [unknown] at kept
    exact kept
  obtain ⟨-, rfl⟩ := (Action.perform_schema_eq_ok _ _).mp known
  rcases perform_bind_eq_error _ _ rest with unread | ⟨found, between, fetched, rest⟩
  · have kept := fetching model setting _ held
    rw [unread] at kept
    exact kept
  have kept := fetching model setting _ held
  rw [fetched] at kept
  cases found with
  | none =>
      cases rest
      exact kept
  | some record =>
      rw [perform_bind_ok _ _ (Action.perform_now setting between)] at rest
      split at rest
      · cases rest
        exact kept
      · rename_i report changed applied
        rcases perform_bind_eq_error _ _ rest with refused | ⟨stored, last, replaced, rest⟩
        · exact replacing model record between changed error after fetched refused kept
        · cases rest

/-- What it means that a record is stored: it was found, its patch applied, and the
backend took the replacement. -/
theorem persist_eq_ok {schema : String} {id : Json} {patch : Object} {options : SaveOptions}
    {stored : Object}
    (done : (backend.persist schema id patch options).perform setting session =
      (.ok stored, after)) :
    ∃ model record between report changed last,
      setting.registry.get schema = .ok model ∧
      (backend.fetch model id).perform setting session = (.ok (some record), between) ∧
      model.applyUpdate record patch options.mode options.policy
        (setting.clock between.readings).text = (.ok report, changed) ∧
      (backend.replace model id changed).perform setting
        { between with readings := between.readings + 1 } = (.ok stored, last) ∧
      after.data = last.data := by
  unfold persist at done
  obtain ⟨model, _, found, rest⟩ := (perform_bind_eq_ok _ _).mp done
  obtain ⟨known, rfl⟩ := (Action.perform_schema_eq_ok _ _).mp found
  obtain ⟨found, between, fetched, rest⟩ := (perform_bind_eq_ok _ _).mp rest
  cases found with
  | none => cases rest
  | some record =>
      rw [perform_bind_ok _ _ (Action.perform_now setting between)] at rest
      split at rest
      · cases rest
      · rename_i report changed applied
        obtain ⟨written, last, replaced, rest⟩ := (perform_bind_eq_ok _ _).mp rest
        cases rest
        exact ⟨model, record, between, report, changed, last, known, fetched, applied, replaced,
          rfl⟩

end RecordStore.Backend
