/-
Module: RecordStore.Proofs.Store.UnknownModels
Purpose: Preparing a store under a configuration that names an unknown model.  The preparation
  is refused.  Where the model is one of a list of models to drop, nothing is stored
  differently; where records are to be imported into it, the store is left as the preparation
  leaves it that ends with the imports before, so that only the models dropped or imported by
  then have changed.
Main exports: Backend.Refuses, Backend.refuses_unknown_target, Backend.refuses_unknown_init,
  unknown_models_refused
-/
import RecordStore.Proofs.Document.Operations
import RecordStore.Proofs.Relational.Operations
import RecordStore.Proofs.Store.Decidable
import RecordStore.Proofs.Store.Preparing

namespace RecordStore

/-! ### Refusals -/

namespace Backend

variable {δ ρ : Type}

/-- The preparation of a store is refused, whatever is stored, and every model of a kind keeps
its records. -/
def Refuses (backend : Backend δ) (records : δ → String → ρ) (setting : Setting)
    (config : BootstrapConfig) (spared : String → Prop) : Prop :=
  ∀ session, BootstrapReport.Refused ((backend.prepare config).perform setting session).1 ∧
    ∀ model, spared model →
      records ((backend.prepare config).perform setting session).2.data model =
        records session.data model

variable {backend : Backend δ} {records : δ → String → ρ} {setting : Setting}
variable {config : BootstrapConfig}

/-- An unknown model to drop is refused with no record changed, if opening the store changes
none. -/
theorem refuses_unknown_target
    (opens : ∀ session model,
      records (backend.connect.perform setting session).2.data model = records session.data model)
    {names : List String} {name : String} (listed : config.sync = .named names)
    (asked : name ∈ names) (unknown : setting.registry.contains name = false) :
    backend.Refuses records setting config fun _ => True := by
  intro session
  obtain ⟨refused, left⟩ := prepare_unknown_target listed asked unknown
  refine ⟨refused, fun model _ => ?_⟩
  rw [left]
  exact opens session model

/-- Records for an unknown model are refused, with the records of those models kept that the
preparation with the imports before keeps. -/
theorem refuses_unknown_init {before rest : List (String × String)} {schema path : String}
    {spared : String → Prop}
    (keeps : ∀ session model, spared model →
      records ((backend.prepare { config with inits := before }).perform setting session).2.data
        model = records session.data model)
    (inits : config.inits = before ++ (schema, path) :: rest)
    (unknown : setting.registry.contains schema = false) (brings : setting.Brings path) :
    backend.Refuses records setting config spared := by
  intro session
  obtain ⟨refused, left⟩ := prepare_unknown_init inits unknown brings
  refine ⟨refused, fun model apart => ?_⟩
  rw [left]
  exact keeps session model apart

end Backend

/-! ### The two stores -/

section Sessions

variable {setting : Setting} {config : BootstrapConfig}

/-- Of a document store a preparation changes the models that it works on. -/
theorem Document.tree_prepare (session : Session Document.Trees) {model : String}
    (apart : ¬ config.Touches setting model) :
    ((backend.prepare config).perform setting session).2.data.tree model =
      session.data.tree model := by
  apply Backend.prepare_keeps (preserves_tree model (session.data.tree model)) (.pure ())
  · rintro touched works rfl
    exact apart works
  · rfl

namespace Relational

/-- The rows of a model in the database of a connection. -/
def Connection.rows (connection : Connection) (model : String) : List Row :=
  connection.database.rows model

/-- Making the store ready changes the rows of no model. -/
theorem connect_keeps_rows (model : String) (rows : List Row) :
    Action.Keeps (fun _ connection => connection.rows model = rows) backend.connect := by
  apply Action.Keeps.bind
  · exact @connect_keeps (fun _ database => database.rows model = rows)
      fun _ database same => (database.openAll_rows _ model).trans same
  · intro _
    exact .pure ()

/-- Of a relational store a preparation changes the models that it works on, and those whose
names differ from theirs in case only. -/
theorem rows_prepare (session : Session Connection) {model : String}
    (apart : ∀ touched, config.Touches setting touched → ¬ Text.sameFolded touched model) :
    ((backend.prepare config).perform setting session).2.data.rows model =
      session.data.rows model := by
  apply Backend.prepare_keeps (preserves_rows model (session.data.rows model))
    (connect_keeps_rows model _) apart
  rfl

end Relational

end Sessions

/-- A configuration that names an unknown model is refused.  An unknown model to drop changes
no record.  Records to import into an unknown model end the preparation there: the store is
left as without this import and those after it, and every model that is not worked on before
keeps its records. -/
theorem unknown_models_refused (setting : Setting) (config : BootstrapConfig) :
    (∀ names name, config.sync = .named names → name ∈ names →
      setting.registry.contains name = false →
      Document.backend.Refuses Document.Trees.tree setting config (fun _ => True) ∧
      Relational.backend.Refuses Relational.Connection.rows setting config (fun _ => True)) ∧
    ∀ before schema path rest, config.inits = before ++ (schema, path) :: rest →
      setting.registry.contains schema = false → setting.Brings path →
      let earlier : BootstrapConfig := { config with inits := before }
      (∀ (δ : Type) (backend : Backend δ) (session : Session δ),
        ((backend.prepare config).perform setting session).2 =
          ((backend.prepare earlier).perform setting session).2) ∧
      Document.backend.Refuses Document.Trees.tree setting config
        (fun model => ¬ earlier.Touches setting model) ∧
      Relational.backend.Refuses Relational.Connection.rows setting config
        (fun model => ∀ touched, earlier.Touches setting touched →
          ¬ Text.sameFolded touched model) := by
  constructor
  · intro names name listed asked unknown
    constructor
    · apply Backend.refuses_unknown_target _ listed asked unknown
      intro session model
      rfl
    · apply Backend.refuses_unknown_target _ listed asked unknown
      intro session model
      exact Relational.connect_keeps_rows model _ setting session rfl
  · intro before schema path rest inits unknown brings earlier
    refine ⟨?_, ?_, ?_⟩
    · intro δ backend session
      exact (Backend.prepare_unknown_init inits unknown brings).2
    · apply Backend.refuses_unknown_init _ inits unknown brings
      intro session model apart
      exact Document.tree_prepare session apart
    · apply Backend.refuses_unknown_init _ inits unknown brings
      intro session model apart
      exact Relational.rows_prepare session apart

/-- In a store of users and organs, a list with an unknown model is refused, and so are records
for an unknown model: only the users, which are dropped before, are lost. -/
theorem unknown_models_refused_ghosts :
    let file := "\x7b\x22data\x22:[\x7b\x22name\x22:\x22x\x22\x7d]\x7d"
    let setting : Setting :=
      { Setting.still ⟨[namedUser, namedOrgan], []⟩ with files := fun _ => some file }
    let listed : BootstrapConfig := ⟨.named ["user", "ghost"], []⟩
    let imported : BootstrapConfig := ⟨.named ["user"], [("ghost", "ghosts.json")]⟩
    setting.registry.contains "ghost" = false ∧ setting.Brings "ghosts.json" ∧
      Document.backend.Refuses Document.Trees.tree setting listed (fun _ => True) ∧
      Relational.backend.Refuses Relational.Connection.rows setting listed (fun _ => True) ∧
      Document.backend.Refuses Document.Trees.tree setting imported (· ≠ "user") ∧
      Relational.backend.Refuses Relational.Connection.rows setting imported
        (fun model => ¬ Text.sameFolded "user" model) := by
  intro file setting listed imported
  have unknown : setting.registry.contains "ghost" = false := by decide
  have brings : setting.Brings "ghosts.json" := ⟨[("name", .str "x")], [], by decide +kernel⟩
  have dropped : ∀ model,
      (⟨.named ["user"], []⟩ : BootstrapConfig).Touches setting model → model = "user" := by
    rintro model (⟨targets, settled, member⟩ | ⟨entry, member, -⟩)
    · obtain rfl : ["user"] = targets := Except.ok.inj settled
      exact List.mem_singleton.mp member
    · cases member
  obtain ⟨documents, tables⟩ := (unknown_models_refused setting listed).1 ["user", "ghost"] "ghost"
    rfl (by decide) unknown
  obtain ⟨-, partly, some⟩ := (unknown_models_refused setting imported).2 [] "ghost" "ghosts.json"
    [] rfl unknown brings
  refine ⟨unknown, brings, documents, tables, fun session => ?_, fun session => ?_⟩
  · obtain ⟨refused, kept⟩ := partly session
    exact ⟨refused, fun model apart => kept model fun touched => apart (dropped model touched)⟩
  · obtain ⟨refused, kept⟩ := some session
    refine ⟨refused, fun model apart => kept model fun touched works => ?_⟩
    rw [dropped touched works]
    exact apart

/-- Records for an unknown model end a preparation only after the models were dropped: the
preparation fails, and the users that were stored are gone. -/
theorem unknown_init_drops_records :
    let file := "\x7b\x22data\x22:[\x7b\x22name\x22:\x22x\x22\x7d]\x7d"
    let setting := { namedSetting with files := fun _ => some file }
    let config : BootstrapConfig := ⟨.all, [("ghost", "ghosts.json")]⟩
    let first : Call := .create "user" [("id", .int 1), ("name", .str "a")]
    let session := ((first.run Document.backend).perform setting (Session.start [])).2
    Document.Reached setting.registry session ∧
      setting.registry.contains "ghost" = false ∧ setting.Brings "ghosts.json" ∧
      ∃ after, (Document.backend.prepare config).perform setting session =
          (.error (.schema (.unknown "ghost")), after) ∧
        session.data.tree "user" = [("1", "\x7b\x22id\x22:1,\x22name\x22:\x22a\x22\x7d")] ∧
        after.data.tree "user" = [] := by
  intro file setting config first session
  have brings : setting.Brings "ghosts.json" := ⟨[("name", .str "x")], [], by decide +kernel⟩
  have unknown : setting.registry.contains "ghost" = false := by decide
  exact ⟨.call .fresh first setting rfl, unknown, brings, ⟨[("user", [])], 1, 0, []⟩,
    by decide +kernel, by decide +kernel, rfl⟩

end RecordStore
