/-
Module: RecordStore.Proofs.Store.Reachable
Purpose: The sessions that calls of a store lead to.  A property of the stored data that
  the basic operations of a backend keep is kept by every call, also by one that fails
  halfway, and so holds in every reachable session.  A basic operation that writes is asked
  to keep it only for the models that may be written.
Main exports: Call, Call.run, Reachable, Backend.Preserves, Backend.Preserves.call,
  Reachable.holds, Setting.still, namedUser, namedSetting
-/
import RecordStore.Proofs.Store.Action

namespace RecordStore

open RecordStore.Action (Keeps)

/-- A call of a store. -/
inductive Call where
  | create (schema : String) (values : Object)
  | saveOne (schema : String) (id : Json) (patch : Object) (options : SaveOptions)
  | save (schema : String) (values : Object) (condition : Option Condition)
      (options : SaveOptions)
  | remove (schema : String) (condition : Option Condition)
  | sync (schema : String)
  | dump (schema path : String)
  | select (schema : String) (condition : Option Condition) (options : SelectOptions)
  | tally (schema : String) (condition : Option Condition)
  | maximum (schema field : String) (condition : Option Condition)

namespace Call

/-- The model a call is made on. -/
def schema : Call → String
  | .create schema _ => schema
  | .saveOne schema _ _ _ => schema
  | .save schema _ _ _ => schema
  | .remove schema _ => schema
  | .sync schema => schema
  | .dump schema _ => schema
  | .select schema _ _ => schema
  | .tally schema _ => schema
  | .maximum schema _ _ => schema

/-- A call made on a backend, its answer dropped. -/
def run (backend : Backend δ) : Call → Action δ Unit
  | .create schema values => discard (backend.create schema values)
  | .saveOne schema id patch options => discard (backend.saveOne schema id patch options)
  | .save schema values condition options => discard (backend.save schema values condition options)
  | .remove schema condition => discard (backend.remove schema condition)
  | .sync schema => backend.sync schema
  | .dump schema path => discard (backend.dump schema path)
  | .select schema condition options => discard (backend.select schema condition options)
  | .tally schema condition => discard (backend.tally schema condition)
  | .maximum schema field condition => discard (backend.maximum schema field condition)

end Call

/-- The sessions of a store over a set of models: calls follow one another, whether they
succeed or fail and whatever the clock, the generated keys and the files are, and the store
may be opened anew in between. -/
inductive Reachable (backend : Backend δ) (fresh : δ) (reopened : δ → δ) (registry : Registry) :
    Session δ → Prop where
  | fresh : Reachable backend fresh reopened registry (Session.start fresh)
  | call {session : Session δ} (before : Reachable backend fresh reopened registry session)
      (call : Call) (setting : Setting) (known : setting.registry = registry) :
      Reachable backend fresh reopened registry ((call.run backend).perform setting session).2
  | reopen {session : Session δ} (before : Reachable backend fresh reopened registry session) :
      Reachable backend fresh reopened registry (Session.start (reopened session.data))

namespace Backend

/-- The basic operations of a backend keep a property of the stored data; those that write
a model have to keep it for the writable models only. -/
structure Preserves (backend : Backend δ) (holds : Registry → δ → Prop)
    (writable : String → Prop) : Prop where
  find : ∀ model plan, Keeps holds (backend.find model plan)
  fetch : ∀ model id, Keeps holds (backend.fetch model id)
  insert : ∀ model record, writable model.name → Keeps holds (backend.insert model record)
  replace : ∀ model id record, writable model.name →
    Keeps holds (backend.replace model id record)
  delete : ∀ model plan, writable model.name → Keeps holds (backend.delete model plan)
  count : ∀ model plan, Keeps holds (backend.count model plan)
  greatest : ∀ model path plan, Keeps holds (backend.greatest model path plan)
  /-- Only registered models are made anew. -/
  reset : ∀ model setting session, writable model.name →
    setting.registry.get model.name = .ok model → holds setting.registry session.data →
    holds setting.registry ((backend.reset model).perform setting session).2.data

section Reading

variable {δ : Type} {backend : Backend δ} {holds : Registry → δ → Prop}

theorem plan_keeps (model : Schema) (condition : Option Condition) (options : SelectOptions) :
    Keeps holds (plan model condition options : Action δ Plan) :=
  (Keeps.lift _ _).bind fun plan => (Keeps.lift _ _).bind fun _ => .pure plan

variable (find : ∀ model plan, Keeps holds (backend.find model plan))
include find

theorem related_keeps (target : String) (condition : Condition) :
    Keeps holds (backend.related target condition) := by
  refine (Keeps.schema target).bind fun model => ?_
  refine (plan_keeps model (some condition) _).bind fun plan => ?_
  exact (find model plan).bind fun found => .pure _

/-- Resolving a relation only reads. -/
theorem resolve_keeps (relation : Relation) (record : Object) :
    Keeps holds (backend.resolve relation record) := by
  unfold resolve
  dsimp only
  cases relation.side with
  | owning =>
      dsimp only
      split
      · exact .pure _
      · exact (related_keeps find _ _).bind fun found => .pure _
  | referenced back =>
      dsimp only
      split
      · exact .pure _
      · exact .pure _
      · exact (related_keeps find _ _).bind fun found => .pure _

theorem populateField_keeps (records : List Object) (relation : Relation) :
    Keeps holds (backend.populateField records relation) :=
  .mapM _ (fun record => (resolve_keeps find relation record).bind fun _ => .pure _) records

theorem populate_keeps (schema : String) (extend : Extend) (records : List Object) :
    Keeps holds (backend.populate schema extend records) :=
  Keeps.read.bind fun _ => .foldlM _ (populateField_keeps find) _ records

theorem populatePatched_keeps (schema : String) (patch record : Object) :
    Keeps holds (backend.populatePatched schema patch record) := by
  refine Keeps.read.bind fun setting => ?_
  exact (populate_keeps find schema _ [record]).bind fun populated => .pure _

theorem select_keeps (schema : String) (condition : Option Condition) (options : SelectOptions) :
    Keeps holds (backend.select schema condition options) := by
  refine (Keeps.schema schema).bind fun model => ?_
  refine (plan_keeps model condition options).bind fun plan => ?_
  refine (find model plan).bind fun found => ?_
  exact (populate_keeps find schema plan.extend found).bind fun populated => .pure _

end Reading

namespace Preserves

variable {δ : Type} {backend : Backend δ} {holds : Registry → δ → Prop}
  {writable : String → Prop}
variable (preserves : backend.Preserves holds writable)
include preserves

theorem create {schema : String} (allowed : writable schema) (values : Object) :
    Keeps holds (backend.create schema values) := by
  refine .schema_bind fun model named => ?_
  refine Keeps.now.bind fun now => ?_
  refine (preserves.insert model _ (named ▸ allowed)).bind fun stored => ?_
  exact (Keeps.notify model .create stored).bind fun _ => .pure stored

theorem saveOne {schema : String} (allowed : writable schema) (id : Json) (patch : Object)
    (options : SaveOptions) : Keeps holds (backend.saveOne schema id patch options) := by
  refine .schema_bind fun model named => ?_
  refine (preserves.fetch model id).bind fun found => ?_
  cases found with
  | none => exact .throw _
  | some record =>
      refine Keeps.now.bind fun now => ?_
      split
      · exact .throw _
      · refine (preserves.replace model id _ (named ▸ allowed)).bind fun stored => ?_
        refine (Keeps.notify model .update stored).bind fun _ => ?_
        exact populatePatched_keeps preserves.find schema patch stored

theorem saveEach {schema : String} (allowed : writable schema) (patch : Object)
    (options : SaveOptions) (ids : List Json) :
    Keeps holds (backend.saveEach schema patch options ids) := by
  induction ids with
  | nil => exact .pure _
  | cons id rest ih =>
      refine (Keeps.attempt (preserves.saveOne allowed id patch options)).bind fun outcome => ?_
      exact ih.bind fun outcomes => .pure _

theorem save {schema : String} (allowed : writable schema) (values : Object)
    (condition : Option Condition) (options : SaveOptions) :
    Keeps holds (backend.save schema values condition options) := by
  unfold Backend.save
  cases condition with
  | none => exact (preserves.create allowed values).bind fun record => .pure _
  | some condition =>
      dsimp only
      split
      · exact (preserves.saveOne allowed _ values options).bind fun record => .pure _
      · refine (select_keeps preserves.find schema (some condition) keyOnly).bind fun found => ?_
        exact (preserves.saveEach allowed values options _).bind fun outcomes => .pure _

omit preserves in
/-- The model a bulk operation reads its condition for is the one of its name. -/
theorem target_bind {schema : String} {condition : Option Condition} {α : Type}
    {next : Schema × Plan → Action δ α}
    (later : ∀ model plan, model.name = schema → Keeps holds (next (model, plan))) :
    Keeps holds (backend.target schema condition >>= next) := by
  unfold Backend.target
  split
  · rw [bind_assoc]
    refine (Keeps.lift _ _).bind fun plan => ?_
    rw [bind_assoc]
    refine .schema_bind fun model named => ?_
    rw [bind_assoc]
    refine (Keeps.lift _ _).bind fun _ => ?_
    rw [pure_bind]
    exact later model plan named
  · rw [bind_assoc]
    refine .schema_bind fun model named => ?_
    rw [bind_assoc]
    refine (plan_keeps model condition _).bind fun plan => ?_
    rw [pure_bind]
    exact later model plan named

theorem remove {schema : String} (allowed : writable schema) (condition : Option Condition) :
    Keeps holds (backend.remove schema condition) :=
  target_bind fun model plan named => preserves.delete model plan (named ▸ allowed)

theorem tally (schema : String) (condition : Option Condition) :
    Keeps holds (backend.tally schema condition) :=
  target_bind fun model plan _ => preserves.count model plan

theorem maximum (schema field : String) (condition : Option Condition) :
    Keeps holds (backend.maximum schema field condition) := by
  refine (Keeps.schema schema).bind fun model => ?_
  refine (Keeps.lift _ _).bind fun path => ?_
  refine (plan_keeps model condition _).bind fun plan => ?_
  exact (preserves.greatest model path plan).bind fun best => .pure _

theorem sync {schema : String} (allowed : writable schema) :
    Keeps holds (backend.sync schema) := by
  refine .schema_bind_of fun model setting session found held => ?_
  have named := Action.name_of_get found
  exact preserves.reset model setting session (named ▸ allowed) (named ▸ found) held

theorem createEach {schema : String} (allowed : writable schema) (records : List Object) :
    Keeps holds (backend.createEach schema records) := by
  induction records with
  | nil => exact .pure 0
  | cons values rest ih =>
      refine (preserves.create allowed values).bind fun _ => ?_
      exact ih.bind fun more => .pure _

theorem dump {schema : String} (allowed : writable schema) (path : String) :
    Keeps holds (backend.dump schema path) := by
  refine Keeps.bind ?_ fun records => preserves.createEach allowed records
  refine Keeps.read.bind fun setting => ?_
  split
  · exact .throw _
  · exact .lift _ _

/-- What the basic operations keep, every call keeps. -/
theorem call (call : Call) (allowed : writable call.schema) : Keeps holds (call.run backend) := by
  cases call with
  | create schema values => exact (preserves.create allowed values).map _
  | saveOne schema id patch options => exact (preserves.saveOne allowed id patch options).map _
  | save schema values condition options =>
      exact (preserves.save allowed values condition options).map _
  | remove schema condition => exact (preserves.remove allowed condition).map _
  | sync schema => exact preserves.sync allowed
  | dump schema path => exact (preserves.dump allowed path).map _
  | select schema condition options =>
      exact (select_keeps preserves.find schema condition options).map _
  | tally schema condition => exact (preserves.tally schema condition).map _
  | maximum schema field condition => exact (preserves.maximum schema field condition).map _

end Preserves

end Backend

/-- What fresh data satisfy and every operation keeps holds in every reachable session. -/
theorem Reachable.holds {backend : Backend δ} {fresh : δ} {reopened : δ → δ}
    {registry : Registry} {session : Session δ} {holds : Registry → δ → Prop}
    (reached : Reachable backend fresh reopened registry session)
    (preserves : backend.Preserves holds fun _ => True) (start : holds registry fresh)
    (again : ∀ data, holds registry data → holds registry (reopened data)) :
    holds registry session.data := by
  induction reached with
  | fresh => exact start
  | call before call setting known ih =>
      subst known
      exact preserves.call call trivial setting _ ih
  | reopen before ih => exact again _ ih

/-! ### Stores of users -/

/-- A field of texts. -/
def nameField : Field := .scalar .string Traits.plain

/-- Users with a name. -/
def namedUser : Schema := ⟨"user", [("name", nameField)], false, Hooks.none⟩

/-- Organs with a name. -/
def namedOrgan : Schema := { namedUser with name := "organ" }

/-- A setting without files, in which the clock stands still and every key is the same. -/
def Setting.still (registry : Registry) : Setting :=
  ⟨registry, fun _ => ⟨0, 0⟩, fun _ => "key", fun _ => none⟩

/-- The setting of a store of users with a name. -/
def namedSetting : Setting := .still ⟨[namedUser], []⟩

end RecordStore
