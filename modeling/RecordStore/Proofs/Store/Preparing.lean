/-
Module: RecordStore.Proofs.Store.Preparing
Purpose: What preparing a store is made of.  The models to drop are settled first, and an unknown
  one in a list ends the preparation once the store is open.  Then each of them is dropped, and
  each fixture file is imported.  An import of records into an unknown model fails at the first
  of them; what was dropped and imported before it stays so.  A preparation keeps what may be
  written for the models it drops or brings records for.
Main exports: Setting.Brings, BootstrapReport.Refused, BootstrapConfig.Touches, perform_prepare,
  prepare_unknown_target, prepare_unknown_init, prepare_keeps
-/
import RecordStore.Proofs.Store.Creating
import RecordStore.Proofs.Store.Reachable
import RecordStore.Store.Bootstrap

namespace RecordStore

open RecordStore.Action (Keeps perform_bind perform_bind_ok perform_bind_error)

/-- A model is registered where its name finds one. -/
theorem Registry.contains_iff_get {registry : Registry} {name : String} :
    registry.contains name = true ↔ ∃ model, registry.get name = .ok model := by
  unfold contains get
  cases find? registry.schemas name with
  | none => exact ⟨nofun, nofun⟩
  | some model => exact ⟨fun _ => ⟨model, rfl⟩, fun _ => rfl⟩

/-- An unknown name finds no model. -/
theorem Registry.get_of_not_contains {registry : Registry} {name : String}
    (unknown : registry.contains name = false) : registry.get name = .error (.unknown name) := by
  rw [contains, Option.isSome_eq_false_iff, Option.isNone_iff_eq_none] at unknown
  rw [get, unknown]

/-- A fixture file that can be read and holds a record. -/
def Setting.Brings (setting : Setting) (path : String) : Prop :=
  ∃ first rest, setting.fixture path = .ok (first :: rest)

/-- An answer of a preparation that is an error. -/
def BootstrapReport.Refused (answer : Except StoreError (Except BootstrapError BootstrapReport)) :
    Prop :=
  ∀ report, answer ≠ .ok (.ok report)

/-- A model that a preparation works on: one that it drops, or one that it brings records for. -/
def BootstrapConfig.Touches (config : BootstrapConfig) (setting : Setting) (model : String) :
    Prop :=
  (∃ targets, Backend.syncTargets setting.registry config.sync = .ok targets ∧ model ∈ targets) ∨
    ∃ entry ∈ config.inits, entry.1 = model ∧ setting.Brings entry.2

namespace Backend

variable {δ : Type} {backend : Backend δ} {setting : Setting} {session : Session δ}

/-! ### Models to drop -/

/-- The models to drop are refused where one of a list is unknown. -/
theorem exists_unknown_target {registry : Registry} {names : List String} {name : String}
    (asked : name ∈ names) (unknown : registry.contains name = false) :
    ∃ first, syncTargets registry (.named names) = .error first := by
  cases found : names.find? fun name => !registry.contains name with
  | none =>
      have known := List.find?_eq_none.mp found name asked
      simp [unknown] at known
  | some first => exact ⟨first, by simp only [syncTargets, found]⟩

/-! ### Imports -/

/-- An import that brings no record changes nothing. -/
theorem dump_of_not_brings {path : String} (empty : ¬ setting.Brings path) (schema : String) :
    ((backend.dump schema path).perform setting session).2 = session := by
  rw [perform_dump]
  cases read : setting.fixture path with
  | error error => rfl
  | ok records =>
      cases records with
      | nil => rfl
      | cons first rest => exact absurd ⟨first, rest, read⟩ empty

section Unknown

variable {schema path : String} (unknown : setting.registry.contains schema = false)
variable (brings : setting.Brings path)
include unknown brings

/-- An import of records into an unknown model fails before anything is done. -/
theorem perform_dump_unknown :
    (backend.dump schema path).perform setting session =
      (.error (.schema (.unknown schema)), session) := by
  obtain ⟨first, rest, read⟩ := brings
  rw [perform_dump, read]
  have missing := Registry.get_of_not_contains unknown
  exact perform_bind_error _ _ (perform_create_unknown missing first) _

/-- The imports fail where one of them brings records for an unknown model; those before it
are made, and none after. -/
theorem dumpEach_unknown (before rest : List (String × String)) :
    ∃ error, (backend.dumpEach (before ++ (schema, path) :: rest)).perform setting session =
      (.error error, ((backend.dumpEach before).perform setting session).2) := by
  induction before generalizing session with
  | nil =>
      have failed : (backend.dump schema path).perform setting session = _ :=
        perform_dump_unknown unknown brings
      exact ⟨_, perform_bind_error _ _ failed _⟩
  | cons entry more ih =>
      rcases imported : (backend.dump entry.1 entry.2).perform setting session with
        ⟨answer, between⟩
      rw [List.cons_append, dumpEach, dumpEach]
      cases answer with
      | error error =>
          rw [perform_bind_error _ _ imported, perform_bind_error _ _ imported]
          exact ⟨error, rfl⟩
      | ok count =>
          obtain ⟨error, failed⟩ := @ih between
          rw [perform_bind_ok _ _ imported, perform_bind_ok _ _ imported,
            perform_bind_error _ _ failed, Action.perform_bind_pure]
          exact ⟨error, rfl⟩

end Unknown

/-! ### Preparations -/

/-- A preparation opens the store and settles the models to drop before it changes any. -/
theorem perform_prepare (config : BootstrapConfig) :
    (backend.prepare config).perform setting session =
      match backend.connect.perform setting session with
      | (.error error, after) => (.error error, after)
      | (.ok (), after) =>
        match syncTargets setting.registry config.sync with
        | .error name => (.ok (.error (.unknownSchema name)), after)
        | .ok targets =>
          (backend.syncEach targets >>= fun _ => backend.dumpEach config.inits >>=
            fun imported => pure (.ok ⟨targets, imported⟩)).perform setting after := by
  unfold prepare
  rw [perform_bind]
  rcases backend.connect.perform setting session with ⟨answer, after⟩
  cases answer with
  | error error => rfl
  | ok opened =>
      dsimp only
      rw [perform_bind_ok _ _ (Action.perform_read setting after)]
      cases syncTargets setting.registry config.sync with
      | error name => rfl
      | ok targets => rfl

/-- A preparation with an unknown model among those to drop does no more than open the store. -/
theorem prepare_unknown_target {config : BootstrapConfig} {names : List String} {name : String}
    (listed : config.sync = .named names) (asked : name ∈ names)
    (unknown : setting.registry.contains name = false) :
    BootstrapReport.Refused ((backend.prepare config).perform setting session).1 ∧
      ((backend.prepare config).perform setting session).2 =
        (backend.connect.perform setting session).2 := by
  obtain ⟨first, refused⟩ := exists_unknown_target asked unknown
  rw [perform_prepare, listed, refused]
  rcases backend.connect.perform setting session with ⟨answer, after⟩
  cases answer with
  | error error => exact ⟨nofun, rfl⟩
  | ok opened => exact ⟨nofun, rfl⟩

/-- A preparation that comes to an import of records into an unknown model fails, and leaves
what the preparation without this import and those after it leaves. -/
theorem prepare_unknown_init {config : BootstrapConfig} {before rest : List (String × String)}
    {schema path : String} (inits : config.inits = before ++ (schema, path) :: rest)
    (unknown : setting.registry.contains schema = false) (brings : setting.Brings path) :
    BootstrapReport.Refused ((backend.prepare config).perform setting session).1 ∧
      ((backend.prepare config).perform setting session).2 =
        ((backend.prepare { config with inits := before }).perform setting session).2 := by
  rw [perform_prepare, perform_prepare]
  rcases backend.connect.perform setting session with ⟨answer, after⟩
  cases answer with
  | error error => exact ⟨nofun, rfl⟩
  | ok opened =>
      dsimp only
      cases syncTargets setting.registry config.sync with
      | error name => exact ⟨nofun, rfl⟩
      | ok targets =>
          dsimp only
          rcases emptied : (backend.syncEach targets).perform setting after with ⟨answer, between⟩
          cases answer with
          | error error =>
              rw [perform_bind_error _ _ emptied, perform_bind_error _ _ emptied]
              exact ⟨nofun, rfl⟩
          | ok finished =>
              obtain ⟨error, failed⟩ := @dumpEach_unknown _ backend setting between schema path
                unknown brings before rest
              rw [perform_bind_ok _ _ emptied, perform_bind_ok _ _ emptied, inits,
                perform_bind_error _ _ failed, Action.perform_bind_pure]
              exact ⟨nofun, rfl⟩

/-! ### What a preparation keeps -/

section Keep

variable {holds : Registry → δ → Prop} {writable : String → Prop}
variable (preserves : backend.Preserves holds writable)
include preserves

/-- Dropping models keeps what may be written for each of them. -/
theorem syncEach_keeps {names : List String} (allowed : ∀ name ∈ names, writable name) :
    Keeps holds (backend.syncEach names) := by
  induction names with
  | nil => exact .pure ()
  | cons name rest ih =>
      have first := preserves.sync (allowed name List.mem_cons_self)
      exact first.bind fun _ => ih fun other member => allowed other (List.mem_cons_of_mem _ member)

/-- Imports keep what may be written for each model that they bring records for. -/
theorem dumpEach_keeps {entries : List (String × String)}
    (allowed : ∀ entry ∈ entries, setting.Brings entry.2 → writable entry.1)
    (held : holds setting.registry session.data) :
    holds setting.registry ((backend.dumpEach entries).perform setting session).2.data := by
  induction entries generalizing session with
  | nil => exact held
  | cons entry more ih =>
      -- an import of an empty file may name any model, also one that may not be written
      have kept : holds setting.registry
          ((backend.dump entry.1 entry.2).perform setting session).2.data := by
        by_cases filled : setting.Brings entry.2
        · have writes := allowed entry List.mem_cons_self filled
          exact preserves.dump writes entry.2 setting session held
        · rw [dump_of_not_brings filled]
          exact held
      rcases imported : (backend.dump entry.1 entry.2).perform setting session with
        ⟨answer, between⟩
      rw [imported] at kept
      rw [dumpEach]
      cases answer with
      | error error =>
          rw [perform_bind_error _ _ imported]
          exact kept
      | ok count =>
          rw [perform_bind_ok _ _ imported, Action.perform_bind_pure]
          exact ih (fun other member => allowed other (List.mem_cons_of_mem _ member)) kept

/-- A preparation keeps what may be written for each model that it works on. -/
theorem prepare_keeps (opens : Keeps holds backend.connect) {config : BootstrapConfig}
    (allowed : ∀ model, config.Touches setting model → writable model)
    (held : holds setting.registry session.data) :
    holds setting.registry ((backend.prepare config).perform setting session).2.data := by
  have opened := opens setting session held
  rw [perform_prepare]
  rcases connected : backend.connect.perform setting session with ⟨answer, after⟩
  rw [connected] at opened
  cases answer with
  | error error => exact opened
  | ok done =>
      dsimp only
      cases settled : syncTargets setting.registry config.sync with
      | error name => exact opened
      | ok targets =>
          have dropped := syncEach_keeps preserves
            (fun name member => allowed name (.inl ⟨targets, settled, member⟩)) setting after opened
          dsimp only
          rcases emptied : (backend.syncEach targets).perform setting after with ⟨outcome, between⟩
          rw [emptied] at dropped
          cases outcome with
          | error error =>
              rw [perform_bind_error _ _ emptied]
              exact dropped
          | ok finished =>
              rw [perform_bind_ok _ _ emptied, Action.perform_bind_pure]
              exact dumpEach_keeps preserves
                (fun entry member filled => allowed entry.1 (.inr ⟨entry, member, rfl, filled⟩))
                dropped

end Keep

end Backend

end RecordStore
