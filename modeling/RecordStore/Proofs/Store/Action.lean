/-
Module: RecordStore.Proofs.Store.Action
Purpose: How actions run.  One equation for each way of building an action gives its answer
  and the session it leaves, so that an operation is run step by step without opening the
  layers it is made of.  A property of the data that every step keeps is kept by the whole
  action, also when it fails on the way; it may speak of the models that are registered.
Main exports: Action.perform_bind, Action.perform_tryCatch, Action.Keeps, Action.Keeps.bind,
  Action.ReadsOnly
-/
import RecordStore.Store.Engine

namespace RecordStore.Action

/-! ### Running -/

section Run

variable {δ α β ε : Type} (setting : Setting) (session : Session δ)

@[simp] theorem perform_pure (value : α) :
    (pure value : Action δ α).perform setting session = (.ok value, session) := rfl

variable {setting session} in
/-- An action that has some answer leaves some session. -/
theorem exists_perform_eq {action : Action δ α} {answer : Except StoreError α}
    (answered : (action.perform setting session).1 = answer) :
    ∃ after, action.perform setting session = (answer, after) :=
  ⟨(action.perform setting session).2, Prod.ext answered rfl⟩

/-- A step that fails ends the action with what it had changed. -/
theorem perform_bind (action : Action δ α) (next : α → Action δ β) :
    (action >>= next).perform setting session =
      match action.perform setting session with
      | (.ok value, after) => (next value).perform setting after
      | (.error error, after) => (.error error, after) := by
  simp only [perform, ReaderT.run_bind, ExceptT.run_bind, StateT.run_bind]
  rcases (StateT.run (ExceptT.run (ReaderT.run action setting)) session) with ⟨answer, after⟩
  cases answer <;> rfl

/-- A step that goes through hands over its answer and its session. -/
theorem perform_bind_ok {action : Action δ α} {value : α} {after : Session δ}
    (done : action.perform setting session = (.ok value, after)) (next : α → Action δ β) :
    (action >>= next).perform setting session = (next value).perform setting after := by
  rw [perform_bind, done]

theorem perform_bind_error {action : Action δ α} {error : StoreError} {after : Session δ}
    (failed : action.perform setting session = (.error error, after)) (next : α → Action δ β) :
    (action >>= next).perform setting session = (.error error, after) := by
  rw [perform_bind, failed]

/-- Changing an answer that goes through changes nothing else. -/
theorem perform_bind_pure (action : Action δ α) (change : α → β) :
    (action >>= fun value => pure (change value)).perform setting session =
      ((action.perform setting session).1.map change, (action.perform setting session).2) := by
  rw [perform_bind]
  rcases action.perform setting session with ⟨answer, after⟩
  cases answer <;> rfl

/-- What goes through as a whole goes through at each of two steps. -/
theorem perform_bind_eq_ok {action : Action δ α} {next : α → Action δ β} {value : β}
    {last : Session δ} :
    (action >>= next).perform setting session = (.ok value, last) ↔
      ∃ first after, action.perform setting session = (.ok first, after) ∧
        (next first).perform setting after = (.ok value, last) := by
  constructor
  · intro done
    rw [perform_bind] at done
    rcases outcome : action.perform setting session with ⟨answer, after⟩
    rw [outcome] at done
    cases answer with
    | error error => cases done
    | ok first => exact ⟨first, after, rfl, done⟩
  · rintro ⟨first, after, done, rest⟩
    rw [perform_bind_ok setting session done, rest]

/-- What fails as a whole fails at the first step, or goes through it and fails after. -/
theorem perform_bind_eq_error {action : Action δ α} {next : α → Action δ β} {error : StoreError}
    {last : Session δ}
    (failed : (action >>= next).perform setting session = (.error error, last)) :
    action.perform setting session = (.error error, last) ∨
      ∃ first after, action.perform setting session = (.ok first, after) ∧
        (next first).perform setting after = (.error error, last) := by
  rw [perform_bind] at failed
  rcases outcome : action.perform setting session with ⟨answer, after⟩
  rw [outcome] at failed
  cases answer with
  | error refusal =>
      cases failed
      exact .inl rfl
  | ok first => exact .inr ⟨first, after, rfl, failed⟩

@[simp] theorem perform_throw (error : StoreError) :
    (throw error : Action δ α).perform setting session = (.error error, session) := rfl

theorem perform_tryCatch (action : Action δ α) (handle : StoreError → Action δ α) :
    (tryCatch action handle).perform setting session =
      match action.perform setting session with
      | (.ok value, after) => (.ok value, after)
      | (.error error, after) => (handle error).perform setting after := by
  rcases outcome : action.perform setting session with ⟨answer, after⟩
  simp only [perform, tryCatch, tryCatchThe, MonadExceptOf.tryCatch, ReaderT.run,
    ExceptT.tryCatch, ExceptT.run_mk, StateT.run_bind] at outcome ⊢
  change StateT.run (action setting) session = (answer, after) at outcome
  rw [outcome]
  cases answer <;> rfl

@[simp] theorem perform_read :
    (read : Action δ Setting).perform setting session = (.ok setting, session) := rfl

@[simp] theorem perform_now :
    (now : Action δ Instant).perform setting session =
      (.ok (setting.clock session.readings),
        { session with readings := session.readings + 1 }) := rfl

@[simp] theorem perform_freshKey :
    (freshKey : Action δ String).perform setting session =
      (.ok (setting.keys session.issued), { session with issued := session.issued + 1 }) := rfl

@[simp] theorem perform_data :
    (data : Action δ δ).perform setting session = (.ok session.data, session) := rfl

@[simp] theorem perform_ofExcept (answer : Except StoreError α) :
    (ofExcept answer : Action δ α).perform setting session = (answer, session) := by
  cases answer <;> rfl

@[simp] theorem perform_lift (wrap : ε → StoreError) (answer : Except ε α) :
    (lift wrap answer : Action δ α).perform setting session =
      (answer.mapError wrap, session) := by
  cases answer <;> rfl

theorem perform_pure_eq_ok {given value : α} {after : Session δ} :
    (pure given : Action δ α).perform setting session = (.ok value, after) ↔
      given = value ∧ after = session := by
  simp [eq_comm]

theorem perform_ofExcept_eq_ok {answer : Except StoreError α} {value : α} {after : Session δ} :
    (ofExcept answer : Action δ α).perform setting session = (.ok value, after) ↔
      answer = .ok value ∧ after = session := by
  simp [eq_comm]

theorem mapError_eq_ok {ε' : Type} {wrap : ε → ε'} {answer : Except ε α} {value : α} :
    answer.mapError wrap = .ok value ↔ answer = .ok value := by
  cases answer with
  | error error => exact ⟨nofun, nofun⟩
  | ok given => exact ⟨fun same => by cases same; rfl, fun same => by cases same; rfl⟩

theorem perform_lift_eq_ok {wrap : ε → StoreError} {answer : Except ε α} {value : α}
    {after : Session δ} :
    (lift wrap answer : Action δ α).perform setting session = (.ok value, after) ↔
      answer = .ok value ∧ after = session := by
  rw [perform_lift, Prod.mk.injEq, mapError_eq_ok, eq_comm (a := session)]

@[simp] theorem perform_schema (name : String) :
    (schema name : Action δ Schema).perform setting session =
      ((setting.registry.get name).mapError .schema, session) := by
  unfold schema
  rw [perform_bind_ok setting session (perform_read setting session)]
  exact perform_lift setting session _ _

theorem perform_schema_eq_ok {name : String} {model : Schema} {after : Session δ} :
    (schema name : Action δ Schema).perform setting session = (.ok model, after) ↔
      setting.registry.get name = .ok model ∧ after = session := by
  rw [perform_schema, Prod.mk.injEq, mapError_eq_ok, eq_comm (a := session)]

@[simp] theorem perform_attempt (action : Action δ α) :
    (Backend.attempt action).perform setting session =
      (.ok (action.perform setting session).1, (action.perform setting session).2) := by
  unfold Backend.attempt
  rw [perform_tryCatch, perform_bind]
  rcases action.perform setting session with ⟨answer, after⟩
  cases answer <;> rfl

end Run

/-- The model a name stands for has that name. -/
theorem name_of_get {registry : Registry} {name : String} {model : Schema}
    (found : registry.get name = .ok model) : model.name = name := by
  unfold Registry.get Registry.find? at found
  split at found
  · rename_i schema hit
    cases found
    simpa using List.find?_some hit
  · cases found

/-! ### What an action keeps -/

/-- A property of the stored data, beside the registered models, that holds after an action,
however it ends, if it held before. -/
def Keeps {δ α : Type} (holds : Registry → δ → Prop) (action : Action δ α) : Prop :=
  ∀ setting session, holds setting.registry session.data →
    holds setting.registry (action.perform setting session).2.data

/-- An action that leaves the stored data as they are. -/
def ReadsOnly {δ α : Type} (action : Action δ α) : Prop :=
  ∀ data, Keeps (fun _ after => after = data) action

section Keep

variable {δ α β ε : Type} {holds : Registry → δ → Prop}

theorem ReadsOnly.data_eq {action : Action δ α} (reads : ReadsOnly action) (setting : Setting)
    (session : Session δ) : (action.perform setting session).2.data = session.data :=
  reads session.data setting session rfl

/-- An action that only reads keeps everything. -/
theorem ReadsOnly.keeps {action : Action δ α} (reads : ReadsOnly action) : Keeps holds action := by
  intro setting session held
  rw [reads.data_eq]
  exact held

namespace Keeps

theorem pure (value : α) : Keeps holds (Pure.pure value : Action δ α) :=
  fun _ _ held => held

theorem throw (error : StoreError) : Keeps holds (MonadExcept.throw error : Action δ α) :=
  fun _ _ held => held

/-- The second step may rely on what the answer of the first says about the setting and the
session it leaves. -/
theorem bind_of {action : Action δ α} {next : α → Action δ β}
    (answers : α → Setting → Session δ → Prop) (first : Keeps holds action)
    (returned : ∀ setting session value after,
      action.perform setting session = (.ok value, after) → answers value setting after)
    (later : ∀ setting session value, answers value setting session →
      holds setting.registry session.data →
      holds setting.registry ((next value).perform setting session).2.data) :
    Keeps holds (action >>= next) := by
  intro setting session held
  have between := first setting session held
  rw [perform_bind]
  rcases outcome : action.perform setting session with ⟨answer, after⟩
  rw [outcome] at between
  cases answer with
  | error error => exact between
  | ok value => exact later setting after value (returned _ _ _ _ outcome) between

theorem bind {action : Action δ α} {next : α → Action δ β} (first : Keeps holds action)
    (later : ∀ value, Keeps holds (next value)) : Keeps holds (action >>= next) :=
  bind_of (fun _ _ _ => True) first (fun _ _ _ _ _ => trivial)
    fun setting session value _ held => later value setting session held

theorem map {action : Action δ α} (change : α → β) (keeps : Keeps holds action) :
    Keeps holds (change <$> action) := by
  rw [← bind_pure_comp]
  exact keeps.bind fun value => .pure (change value)

theorem read : Keeps holds (MonadReader.read : Action δ Setting) := fun _ _ held => held

theorem now : Keeps holds (Action.now : Action δ Instant) := fun _ _ held => held

theorem freshKey : Keeps holds (Action.freshKey : Action δ String) := fun _ _ held => held

theorem notify (model : Schema) (event : HookEvent) (record : Object) :
    Keeps holds (Action.notify model event record : Action δ Unit) := fun _ _ held => held

theorem ofExcept (answer : Except StoreError α) :
    Keeps holds (Action.ofExcept answer : Action δ α) := by
  intro setting session held
  rw [perform_ofExcept]
  exact held

theorem lift (wrap : ε → StoreError) (answer : Except ε α) :
    Keeps holds (Action.lift wrap answer : Action δ α) := by
  intro setting session held
  rw [perform_lift]
  exact held

theorem schema (name : String) : Keeps holds (Action.schema name : Action δ Schema) := by
  intro setting session held
  rw [perform_schema]
  exact held

/-- After the model of a name is found, it is registered under the name. -/
theorem schema_bind_of {name : String} {next : Schema → Action δ β}
    (later : ∀ model setting session, setting.registry.get name = .ok model →
      holds setting.registry session.data →
      holds setting.registry ((next model).perform setting session).2.data) :
    Keeps holds (Action.schema name >>= next) := by
  refine bind_of (fun model setting _ => setting.registry.get name = .ok model)
    (.schema name) ?_ ?_
  · intro setting session model after found
    exact ((perform_schema_eq_ok setting session).mp found).1
  · intro setting session model found held
    exact later model setting session found held

/-- After the model of a name is found, the model has that name. -/
theorem schema_bind {name : String} {next : Schema → Action δ β}
    (later : ∀ model, model.name = name → Keeps holds (next model)) :
    Keeps holds (Action.schema name >>= next) :=
  schema_bind_of fun model setting session found held =>
    later model (name_of_get found) setting session held

theorem attempt {action : Action δ α} (keeps : Keeps holds action) :
    Keeps holds (Backend.attempt action) := by
  intro setting session held
  rw [perform_attempt]
  exact keeps setting session held

theorem foldlM (step : β → α → Action δ β) (keeps : ∀ state item, Keeps holds (step state item))
    (items : List α) (state : β) : Keeps holds (items.foldlM step state) := by
  induction items generalizing state with
  | nil => exact .pure state
  | cons item rest ih =>
      rw [List.foldlM_cons]
      exact (keeps state item).bind fun next => ih next

theorem mapM (step : α → Action δ β) (keeps : ∀ item, Keeps holds (step item))
    (items : List α) : Keeps holds (items.mapM step) := by
  induction items with
  | nil =>
      rw [List.mapM_nil]
      exact .pure []
  | cons item rest ih =>
      rw [List.mapM_cons]
      exact (keeps item).bind fun value => ih.bind fun values => .pure (value :: values)

end Keeps

end Keep

end RecordStore.Action
