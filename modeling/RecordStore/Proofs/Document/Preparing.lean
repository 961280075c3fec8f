/-
Module: RecordStore.Proofs.Document.Preparing
Purpose: Preparing a document store with every model dropped.  Dropping a model empties its
  tree and cannot fail; after all of them are dropped, two stores hold the same whatever they
  held before, and the imports run alike in both: each insert reads the tree of its model only.
Main exports: Trees.AgreeOn, perform_syncEach, insert_runsAlike, prepare_forgets
-/
import RecordStore.Proofs.Document.Operations
import RecordStore.Proofs.Schema.Building
import RecordStore.Proofs.Store.Decidable
import RecordStore.Proofs.Store.Preparing
import RecordStore.Proofs.Store.TwoRuns

namespace RecordStore.Document

open RecordStore.Action (RunsAlike perform_bind_ok)

/-- Two collections of trees in which every registered model has the same tree. -/
def Trees.AgreeOn (registry : Registry) (here there : Trees) : Prop :=
  ∀ name, registry.contains name = true → there.tree name = here.tree name

/-! ### Dropping models -/

/-- Dropping a registered model empties its tree. -/
theorem perform_sync {setting : Setting} {session : Session Trees} {name : String}
    (known : setting.registry.contains name = true) :
    (backend.sync name).perform setting session =
      (.ok (), { session with data := session.data.set name [] }) := by
  obtain ⟨model, found⟩ := Registry.contains_iff_get.mp known
  have named : model.name = name := Action.name_of_get found
  unfold Backend.sync
  rw [perform_bind_ok _ _ ((Action.perform_schema_eq_ok setting session).mpr ⟨found, rfl⟩),
    ← named]
  rfl

/-- Dropping registered models empties the tree of each of them and no other. -/
theorem perform_syncEach {setting : Setting} {session : Session Trees} {names : List String}
    (known : ∀ name ∈ names, setting.registry.contains name = true) :
    ∃ trees, (backend.syncEach names).perform setting session =
        (.ok (), { session with data := trees }) ∧
      (∀ name ∈ names, trees.tree name = []) ∧
      ∀ name, name ∉ names → trees.tree name = session.data.tree name := by
  induction names generalizing session with
  | nil => exact ⟨session.data, rfl, nofun, fun _ _ => rfl⟩
  | cons name rest ih =>
      have dropped := @perform_sync setting session name (known name List.mem_cons_self)
      obtain ⟨trees, done, emptied, kept⟩ :=
        @ih { session with data := session.data.set name [] }
          fun other member => known other (List.mem_cons_of_mem _ member)
      refine ⟨trees, (perform_bind_ok _ _ dropped _).trans done, ?_, ?_⟩
      · intro other member
        by_cases again : other ∈ rest
        · exact emptied other again
        · obtain rfl := (List.mem_cons.mp member).resolve_right again
          rw [kept other again, Trees.tree_set_self]
      · intro other apart
        rw [List.mem_cons, not_or] at apart
        obtain ⟨different, later⟩ := apart
        rw [kept other later, Trees.tree_set_of_ne _ different]

/-! ### Inserting -/

section Insert

variable {first second : Setting}

/-- What a write stores depends on the tree of its model only. -/
theorem write_runsAlike {name : String} {model : Schema}
    (known : first.registry.get name = .ok model) (record : Object) :
    RunsAlike (Trees.AgreeOn first.registry) first second (write model record) := by
  intro here there coupled
  have registered : first.registry.contains model.name = true := by
    rw [Action.name_of_get known]
    exact Registry.contains_iff_get.mpr ⟨model, known⟩
  have same : there.data.tree model.name = here.data.tree model.name :=
    coupled.data model.name registered
  rw [perform_write, perform_write, same]
  cases storeRecord (here.data.tree model.name) record with
  | error error => exact ⟨rfl, coupled⟩
  | ok tree =>
      refine ⟨rfl, coupled.inputs.of_counts ⟨rfl, rfl⟩ ⟨rfl, rfl⟩, ?_⟩
      intro other inside
      by_cases own : other = model.name
      · rw [own, Trees.tree_set_self, Trees.tree_set_self]
      · rw [Trees.tree_set_of_ne _ own, Trees.tree_set_of_ne _ own]
        exact coupled.data other inside

theorem withKey_runsAlike (agree : Trees → Trees → Prop) (record : Object) :
    RunsAlike agree first second (withKey record) := by
  unfold withKey
  split
  · exact .pure record
  · have issued : RunsAlike agree first second newKey :=
      RunsAlike.freshKey.bind fun key => .pure (some (Json.str key))
    apply issued.bind
    intro key
    cases key with
    | none => exact .pure record
    | some key => exact .pure (record.insert idField key)

/-- An insert into a registered model gives a record the key that comes next, and puts it into
the tree of the model. -/
theorem insert_runsAlike (name : String) (model : Schema) (record : Object)
    (known : first.registry.get name = .ok model) :
    RunsAlike (Trees.AgreeOn first.registry) first second (backend.insert model record) := by
  apply (withKey_runsAlike _ record).bind
  intro keyed
  exact write_runsAlike known keyed

end Insert

/-! ### Preparations -/

/-- A preparation that drops every model forgets what was stored: from any two sessions that
are given the same clock readings and keys it gives the same answer, a report or an error, and
leaves the same tree of every registered model. -/
theorem prepare_forgets {first second : Setting} {here there : Session Trees}
    (inputs : SameInputs first second here there) {config : BootstrapConfig}
    (everything : config.sync = .all) :
    ((backend.prepare config).perform second there).1 =
        ((backend.prepare config).perform first here).1 ∧
      ∀ name, first.registry.contains name = true →
        ((backend.prepare config).perform second there).2.data.tree name =
          ((backend.prepare config).perform first here).2.data.tree name := by
  have listed : ∀ name, first.registry.contains name = true ↔ name ∈ first.registry.names :=
    fun name => Registry.find?_isSome_iff first.registry.schemas name
  obtain ⟨mine, dropped, emptied, -⟩ := @perform_syncEach first here first.registry.names
    fun name member => (listed name).mpr member
  obtain ⟨yours, droppedToo, emptiedToo, -⟩ := @perform_syncEach second there first.registry.names
    fun name member => by
      rw [inputs.registry]
      exact (listed name).mpr member
  -- whatever the stores held, they agree once every registered model is dropped
  have coupled : Coupled (Trees.AgreeOn first.registry) first second
      { here with data := mine } { there with data := yours } := by
    refine ⟨inputs.of_counts ⟨rfl, rfl⟩ ⟨rfl, rfl⟩, fun name inside => ?_⟩
    rw [emptied name ((listed name).mp inside), emptiedToo name ((listed name).mp inside)]
  have connected (setting : Setting) (session : Session Trees) :
      backend.connect.perform setting session = (.ok (), session) := rfl
  obtain ⟨answers, left⟩ :=
    Backend.dumpEach_runsAlike insert_runsAlike config.inits _ _ coupled
  rw [Backend.perform_prepare, Backend.perform_prepare, connected, connected, everything,
    inputs.registry]
  simp only [Backend.syncTargets]
  rw [perform_bind_ok _ _ dropped, perform_bind_ok _ _ droppedToo, Action.perform_bind_pure,
    Action.perform_bind_pure]
  exact ⟨congrArg (Except.map _) answers, left.data⟩

/-- An import of three users, two of them under one id and one without, into a fresh store and
into one that holds users and organs and has read the clock and taken keys before. -/
theorem prepare_forgets_users :
    let registry : Registry := ⟨[{ namedUser with timestamps := true }, namedOrgan], []⟩
    let file := "\x7b\x22data\x22:[\x7b\x22id\x22:1\x7d,\x7b\x22name\x22:\x22b\x22\x7d," ++
      "\x7b\x22id\x22:1\x7d]\x7d"
    let clock (reading : Nat) : Instant := ⟨reading, 0⟩
    let key (taken : Nat) : String := if taken = 0 then "k" else "l"
    let first : Setting := ⟨registry, clock, key, fun _ => some file⟩
    let second : Setting := ⟨registry, fun reading => clock (reading - 7),
      fun taken => key (taken - 2), fun _ => some file⟩
    let here : Session Trees := Session.start []
    let there : Session Trees := ⟨[("organ", [("1", "\x7b\x22id\x22:1\x7d")]),
      ("user", [("1", "\x7b\x22id\x22:1\x7d"), ("k", "\x7b\x22id\x22:\x22k\x22\x7d")])], 7, 2, []⟩
    let config : BootstrapConfig := ⟨.all, [("user", "users.json")]⟩
    SameInputs first second here there ∧ config.sync = .all ∧
      ((backend.prepare config).perform first here).1 =
        .ok (.ok ⟨["user", "organ"], [("user", 3)]⟩) ∧
      ((backend.prepare config).perform second there).1 =
        ((backend.prepare config).perform first here).1 ∧
      ((backend.prepare config).perform second there).2.data.tree "user" =
        ((backend.prepare config).perform first here).2.data.tree "user" := by
  intro registry file clock key first second here there config
  have inputs : SameInputs first second here there := by
    refine ⟨rfl, rfl, fun taken => ?_, fun taken => ?_⟩
    · change clock (7 + taken - 7) = clock (0 + taken)
      rw [Nat.add_sub_cancel_left, Nat.zero_add]
    · change key (2 + taken - 2) = key (0 + taken)
      rw [Nat.add_sub_cancel_left, Nat.zero_add]
  have answer : ((backend.prepare config).perform first here).1 =
      .ok (.ok ⟨["user", "organ"], [("user", 3)]⟩) := by decide +kernel
  obtain ⟨answers, left⟩ := @prepare_forgets first second here there inputs config rfl
  exact ⟨inputs, rfl, answer, answers, left "user" (by decide)⟩

end RecordStore.Document
