/-
Module: RecordStore.Proofs.Store.TwoRuns
Purpose: One action run twice, from sessions whose stored data agree in some way and that are
  given the same clock readings and generated keys from now on.  An action whose steps run
  alike, in answers and in what they leave, runs alike as a whole; it is enough to show this of
  the inserts of a backend to have it of its imports.
Main exports: SameInputs, Coupled, Action.RunsAlike, Action.RunsAlike.bind,
  Backend.dumpEach_runsAlike
-/
import RecordStore.Proofs.Store.Creating
import RecordStore.Store.Bootstrap

namespace RecordStore

section Coupling

variable {δ : Type}

/-- Two settings over the same models and files, that hand out the same clock readings and keys
to two sessions from now on, however many each of them has taken before. -/
structure SameInputs (first second : Setting) (here there : Session δ) : Prop where
  registry : second.registry = first.registry
  files : second.files = first.files
  clock : ∀ taken, second.clock (there.readings + taken) = first.clock (here.readings + taken)
  keys : ∀ taken, second.keys (there.issued + taken) = first.keys (here.issued + taken)

/-- Two sessions that are given the same, and whose stored data agree. -/
structure Coupled (agree : δ → δ → Prop) (first second : Setting) (here there : Session δ) :
    Prop where
  inputs : SameInputs first second here there
  data : agree here.data there.data

variable {agree : δ → δ → Prop} {first second : Setting} {here there : Session δ}

namespace SameInputs

/-- What is stored, and what listeners were told, plays no part in what is handed out. -/
theorem of_counts (inputs : SameInputs first second here there) {left right : Session δ}
    (readings : left.readings = here.readings ∧ right.readings = there.readings)
    (issued : left.issued = here.issued ∧ right.issued = there.issued) :
    SameInputs first second left right where
  registry := inputs.registry
  files := inputs.files
  clock := by
    rw [readings.1, readings.2]
    exact inputs.clock
  keys := by
    rw [issued.1, issued.2]
    exact inputs.keys

/-- After one more clock reading each. -/
theorem read (inputs : SameInputs first second here there) :
    SameInputs first second { here with readings := here.readings + 1 }
      { there with readings := there.readings + 1 } where
  registry := inputs.registry
  files := inputs.files
  clock taken := by
    rw [Nat.add_assoc, Nat.add_assoc]
    exact inputs.clock (1 + taken)
  keys := inputs.keys

/-- After one more key each. -/
theorem issue (inputs : SameInputs first second here there) :
    SameInputs first second { here with issued := here.issued + 1 }
      { there with issued := there.issued + 1 } where
  registry := inputs.registry
  files := inputs.files
  clock := inputs.clock
  keys taken := by
    rw [Nat.add_assoc, Nat.add_assoc]
    exact inputs.keys (1 + taken)

end SameInputs

end Coupling

namespace Action

variable {δ α β : Type} {agree : δ → δ → Prop} {first second : Setting}

/-- An action that answers the same from coupled sessions and leaves them coupled. -/
def RunsAlike (agree : δ → δ → Prop) (first second : Setting) (action : Action δ α) : Prop :=
  ∀ here there, Coupled agree first second here there →
    (action.perform second there).1 = (action.perform first here).1 ∧
      Coupled agree first second (action.perform first here).2 (action.perform second there).2

namespace RunsAlike

theorem pure (value : α) : RunsAlike agree first second (Pure.pure value : Action δ α) :=
  fun _ _ coupled => ⟨rfl, coupled⟩

theorem bind {action : Action δ α} {next : α → Action δ β}
    (step : RunsAlike agree first second action)
    (later : ∀ value, RunsAlike agree first second (next value)) :
    RunsAlike agree first second (action >>= next) := by
  intro here there coupled
  obtain ⟨answers, between⟩ := step here there coupled
  rw [perform_bind, perform_bind]
  rcases mine : action.perform first here with ⟨answer, left⟩
  rcases yours : action.perform second there with ⟨other, right⟩
  rw [mine, yours] at answers between
  obtain rfl : other = answer := answers
  cases other with
  | error error => exact ⟨rfl, between⟩
  | ok value => exact later value left right between

theorem now : RunsAlike agree first second (Action.now : Action δ Instant) := by
  intro here there coupled
  exact ⟨congrArg Except.ok (coupled.inputs.clock 0), coupled.inputs.read, coupled.data⟩

theorem freshKey : RunsAlike agree first second (Action.freshKey : Action δ String) := by
  intro here there coupled
  exact ⟨congrArg Except.ok (coupled.inputs.keys 0), coupled.inputs.issue, coupled.data⟩

theorem notify (model : Schema) (event : HookEvent) (record : Object) :
    RunsAlike agree first second (Action.notify model event record : Action δ Unit) := by
  intro here there coupled
  exact ⟨rfl, coupled.inputs.of_counts ⟨rfl, rfl⟩ ⟨rfl, rfl⟩, coupled.data⟩

/-- Both runs find the same model, or none; the rest of the action may rely on that it is
registered. -/
theorem schema_bind {name : String} {next : Schema → Action δ β}
    (later : ∀ model, first.registry.get name = .ok model →
      RunsAlike agree first second (next model)) :
    RunsAlike agree first second (Action.schema name >>= next) := by
  intro here there coupled
  rw [perform_bind, perform_bind, perform_schema, perform_schema, coupled.inputs.registry]
  cases known : first.registry.get name with
  | error error => exact ⟨rfl, coupled⟩
  | ok model => exact later model known here there coupled

end RunsAlike

end Action

namespace Backend

open RecordStore.Action (RunsAlike)

variable {δ : Type} {backend : Backend δ} {agree : δ → δ → Prop} {first second : Setting}

theorem readFixture_runsAlike (path : String) :
    RunsAlike agree first second (readFixture path : Action δ (List Object)) := by
  intro here there coupled
  have same : second.fixture path = first.fixture path := by
    rw [Setting.fixture, Setting.fixture, coupled.inputs.files]
  rw [perform_readFixture, perform_readFixture, same]
  exact ⟨rfl, coupled⟩

section Imports

variable (inserts : ∀ (name : String) (model : Schema) (record : Object),
  first.registry.get name = .ok model →
    RunsAlike agree first second (backend.insert model record))
include inserts

/-- Where inserts into registered models run alike, so do creates. -/
theorem create_runsAlike (schema : String) (values : Object) :
    RunsAlike agree first second (backend.create schema values) := by
  apply RunsAlike.schema_bind
  intro model known
  apply RunsAlike.now.bind
  intro now
  apply (inserts schema model _ known).bind
  intro stored
  exact (RunsAlike.notify model .create stored).bind fun _ => .pure stored

theorem createEach_runsAlike (schema : String) (records : List Object) :
    RunsAlike agree first second (backend.createEach schema records) := by
  induction records with
  | nil => exact .pure 0
  | cons values rest ih =>
      apply (create_runsAlike inserts schema values).bind
      intro _
      exact ih.bind fun more => .pure (more + 1)

/-- Where inserts into registered models run alike, so do imports. -/
theorem dumpEach_runsAlike (entries : List (String × String)) :
    RunsAlike agree first second (backend.dumpEach entries) := by
  induction entries with
  | nil => exact .pure []
  | cons entry rest ih =>
      have imported : RunsAlike agree first second (backend.dump entry.1 entry.2) :=
        (readFixture_runsAlike entry.2).bind fun records =>
          createEach_runsAlike inserts entry.1 records
      apply imported.bind
      intro inserted
      exact ih.bind fun more => .pure ((entry.1, inserted) :: more)

end Imports

end Backend

end RecordStore
