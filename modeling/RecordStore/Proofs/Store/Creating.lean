/-
Module: RecordStore.Proofs.Store.Creating
Purpose: What creates and imports of every store are made of.  A create on an unknown model
  fails before anything is done; an import creates the records of its file one after the
  other, and succeeds only if each of them does.
Main exports: perform_create_unknown, exists_model_of_create, insert_of_create,
  createEach_cons_eq_ok, Setting.fixture, perform_dump, exists_createEach_of_dump
-/
import RecordStore.Proofs.Store.Action

namespace RecordStore

/-- The records of a fixture file. -/
def Setting.fixture (setting : Setting) (path : String) : Except StoreError (List Object) :=
  match setting.files path with
  | none => .error (.missingFile path)
  | some text => (Fixture.parse text).mapError (.fixture path)

namespace Backend

open RecordStore.Action (perform_bind perform_bind_ok perform_bind_error perform_bind_eq_ok)

variable {δ : Type} {backend : Backend δ} {setting : Setting} {session after : Session δ}

/-- On an unknown model nothing is done. -/
theorem perform_create_unknown {schema : String} {error : SchemaError}
    (unknown : setting.registry.get schema = .error error) (values : Object) :
    (backend.create schema values).perform setting session = (.error (.schema error), session) := by
  have failed : (Action.schema schema : Action δ Schema).perform setting session =
      (.error (.schema error), session) := by
    rw [Action.perform_schema, unknown]
    rfl
  exact perform_bind_error _ _ failed _

/-- Only on a known model does a create succeed. -/
theorem exists_model_of_create {schema : String} {values stored : Object}
    (done : (backend.create schema values).perform setting session = (.ok stored, after)) :
    ∃ model, setting.registry.get schema = .ok model := by
  obtain ⟨model, _, found, -⟩ := (perform_bind_eq_ok _ _).mp done
  exact ⟨model, ((Action.perform_schema_eq_ok _ _).mp found).1⟩

/-- Creating several records succeeds when the first create and those of the others do. -/
theorem createEach_cons_eq_ok {schema : String} {values : Object} {rest : List Object}
    {count : Nat}
    (done : (backend.createEach schema (values :: rest)).perform setting session =
      (.ok count, after)) :
    ∃ stored between more, (backend.create schema values).perform setting session =
        (.ok stored, between) ∧
      (backend.createEach schema rest).perform setting between = (.ok more, after) ∧
      count = more + 1 := by
  obtain ⟨stored, between, first, others⟩ := (perform_bind_eq_ok _ _).mp done
  obtain ⟨more, last, later, counted⟩ := (perform_bind_eq_ok _ _).mp others
  obtain ⟨rfl, rfl⟩ := (Action.perform_pure_eq_ok _ _).mp counted
  exact ⟨stored, between, more, first, later, rfl⟩

theorem perform_readFixture (path : String) :
    (readFixture path : Action δ (List Object)).perform setting session =
      (setting.fixture path, session) := by
  unfold readFixture Setting.fixture
  rw [perform_bind_ok _ _ (Action.perform_read setting session)]
  cases setting.files path with
  | none => rfl
  | some text => exact Action.perform_lift setting session _ _

/-- An import reads its file, which changes nothing, and creates what is in it. -/
theorem perform_dump (schema path : String) :
    (backend.dump schema path).perform setting session =
      match setting.fixture path with
      | .ok records => (backend.createEach schema records).perform setting session
      | .error error => (.error error, session) := by
  unfold dump
  rw [perform_bind, perform_readFixture]
  cases setting.fixture path <;> rfl

theorem exists_createEach_of_dump {schema path : String} {count : Nat}
    (done : (backend.dump schema path).perform setting session = (.ok count, after)) :
    ∃ records, (backend.createEach schema records).perform setting session =
      (.ok count, after) := by
  rw [perform_dump] at done
  cases read : setting.fixture path with
  | error error =>
      rw [read] at done
      cases done
  | ok records =>
      rw [read] at done
      exact ⟨records, done⟩

end Backend

end RecordStore
