/-
Module: RecordStore.Proofs.Store.Reading
Purpose: What a read shows.  A select shows, one by one, the records that the plan of its
  condition finds, with the relation fields replaced and cut to the columns; the columns
  and relations asked for have no part in what is found.  A bulk operation works on the plan
  of the same condition.
Main exports: Plan.ofCondition_options, Plan.ofCondition_asks, Plan.index_of_readEntries,
  Object.get?_project, perform_plan_eq_ok, perform_target_eq_ok, Shows, forall₂_of_populateField,
  select_eq_ok
-/
import Mathlib.Data.List.Forall2
import RecordStore.Proofs.Answers
import RecordStore.Proofs.Json.Members
import RecordStore.Proofs.Store.Reachable

namespace RecordStore

/-! ### Plans -/

namespace Plan

/-- A plan with what is asked for beside the condition. -/
def asking (plan : Plan) (options : SelectOptions) : Plan :=
  { plan with columns := options.columns, extend := options.extend }

theorem readEntry_asking (plan : Plan) (options : SelectOptions) (key : String) (value : Json) :
    readEntry (plan.asking options) key value =
      (readEntry plan key value).map (·.asking options) := by
  unfold readEntry
  have through {α : Type} (answer : Except PlanError α) (change : Plan → α → Plan)
      (kept : ∀ found, change (plan.asking options) found = (change plan found).asking options) :
      answer.map (change (plan.asking options)) =
        (answer.map (change plan)).map (·.asking options) := by
    cases answer with
    | error error => rfl
    | ok found => exact congrArg Except.ok (kept found)
  split
  · rfl
  split
  · exact through _ (fun plan order => { plan with order := order }) fun _ => rfl
  split
  · exact through _ (fun plan offset => { plan with offset := offset }) fun _ => rfl
  split
  · exact through _ (fun plan limit => { plan with limit := limit }) fun _ => rfl
  split
  · exact through _ (fun plan scope => { plan with scope := scope }) fun _ => rfl
  · exact through _ (fun plan test => { plan with filter := plan.filter ++ [test] }) fun _ => rfl

theorem readEntries_asking (plan : Plan) (options : SelectOptions) (condition : Condition) :
    readEntries (plan.asking options) condition =
      (readEntries plan condition).map (·.asking options) := by
  induction condition generalizing plan with
  | nil => rfl
  | cons entry rest ih =>
      obtain ⟨key, value⟩ := entry
      simp only [readEntries, readEntry_asking]
      cases readEntry plan key value with
      | error error => rfl
      | ok next => exact ih next

/-- What is asked for beside the condition changes nothing else of the plan. -/
theorem ofCondition_options (condition : Option Condition) (options : SelectOptions) :
    ofCondition condition options =
      (ofCondition condition SelectOptions.plain).map (·.asking options) := by
  cases condition with
  | none => rfl
  | some condition =>
      simp only [ofCondition]
      cases indexOf? condition with
      | some key => rfl
      | none => exact readEntries_asking (everything SelectOptions.plain) options condition

/-- A plan asks for the columns and the relations that were asked for. -/
theorem ofCondition_asks {condition : Option Condition} {options : SelectOptions} {plan : Plan}
    (read : ofCondition condition options = .ok plan) :
    plan.columns = options.columns ∧ plan.extend = options.extend := by
  rw [ofCondition_options] at read
  obtain ⟨_, -, rfl⟩ := map_eq_ok_iff.mp read
  exact ⟨rfl, rfl⟩

/-- An entry of a condition other than a key to look up asks for no key. -/
theorem index_of_readEntry {plan next : Plan} {key : String} {value : Json}
    (read : readEntry plan key value = .ok next) : next.index = plan.index := by
  unfold readEntry at read
  split at read
  · cases read
    rfl
  repeat' split at read
  all_goals
    obtain ⟨_, -, rfl⟩ := map_eq_ok_iff.mp read
    rfl

theorem index_of_readEntries {plan next : Plan} {condition : Condition}
    (read : readEntries plan condition = .ok next) : next.index = plan.index := by
  induction condition generalizing plan with
  | nil =>
      cases read
      rfl
  | cons entry rest ih =>
      obtain ⟨key, value⟩ := entry
      simp only [readEntries] at read
      cases first : readEntry plan key value with
      | error error =>
          rw [first] at read
          cases read
      | ok between =>
          rw [first] at read
          exact (ih read).trans (index_of_readEntry first)

end Plan

/-- Where the step for a field puts down what is given for it, and the steps for others leave it
alone, the field has what is given once a step was for it. -/
theorem Object.get?_foldl {step : Object → String → Object} {name : String} {given : Option Json}
    (each : ∀ before column, (step before column).get? name =
      if name = column then given.or (before.get? name) else before.get? name)
    (columns : List String) (before : Object) :
    (columns.foldl step before).get? name =
      if name ∈ columns then given.or (before.get? name) else before.get? name := by
  induction columns generalizing before with
  | nil => rfl
  | cons column rest ih =>
      rw [List.foldl_cons, ih, each]
      by_cases same : name = column
      · cases given <;> simp [same]
      · simp [same]

/-- A record that is cut to columns has what it had in each of them. -/
theorem Object.get?_project (record : Object) (columns : List String) (name : String) :
    (record.project columns).get? name = if name ∈ columns then record.get? name else none := by
  unfold project
  rw [@Object.get?_foldl _ name (record.get? name) ?_ columns []]
  · split
    · exact Option.or_none
    · rfl
  · intro before column
    by_cases same : name = column
    · subst same
      cases found : record.get? name <;> simp
    · cases record.get? column <;> simp [same, Object.get?_insert_of_ne _ _ same]

namespace Backend

open RecordStore.Action (perform_bind perform_bind_ok perform_bind_eq_ok)

variable {δ : Type} {backend : Backend δ} {setting : Setting} {session after : Session δ}

/-- A plan is made of a condition that can be read, and has a window only on a model with
times. -/
theorem perform_plan_eq_ok {model : Schema} {condition : Option Condition}
    {options : SelectOptions} {plan : Plan} :
    (Backend.plan model condition options : Action δ Plan).perform setting session =
        (.ok plan, after) ↔
      after = session ∧ Plan.ofCondition condition options = .ok plan ∧
        plan.checkScope model = .ok () := by
  simp only [Backend.plan, perform_bind_eq_ok, Action.perform_lift_eq_ok,
    Action.perform_pure_eq_ok]
  constructor
  · rintro ⟨_, _, ⟨read, rfl⟩, _, _, ⟨checked, rfl⟩, rfl, rfl⟩
    exact ⟨rfl, read, checked⟩
  · rintro ⟨rfl, read, checked⟩
    exact ⟨_, _, ⟨read, rfl⟩, _, _, ⟨checked, rfl⟩, rfl, rfl⟩

/-- In whatever order a bulk operation reads its condition and the name of the model, it
works on the plan of the condition. -/
theorem perform_target_eq_ok {schema : String} {condition : Option Condition} {model : Schema}
    {plan : Plan} :
    (backend.target schema condition).perform setting session = (.ok (model, plan), after) ↔
      after = session ∧ setting.registry.get schema = .ok model ∧
        Plan.ofCondition condition SelectOptions.plain = .ok plan ∧
        plan.checkScope model = .ok () := by
  unfold Backend.target
  cases backend.conditionFirst with
  | true =>
      simp only [if_true, perform_bind_eq_ok, Action.perform_lift_eq_ok,
        Action.perform_schema_eq_ok, Action.perform_pure_eq_ok, Prod.mk.injEq]
      constructor
      · rintro ⟨_, _, ⟨read, rfl⟩, _, _, ⟨known, rfl⟩, _, _, ⟨checked, rfl⟩, ⟨rfl, rfl⟩, rfl⟩
        exact ⟨rfl, known, read, checked⟩
      · rintro ⟨rfl, known, read, checked⟩
        exact ⟨_, _, ⟨read, rfl⟩, _, _, ⟨known, rfl⟩, _, _, ⟨checked, rfl⟩, ⟨rfl, rfl⟩, rfl⟩
  | false =>
      simp only [Bool.false_eq_true, if_false, perform_bind_eq_ok, perform_plan_eq_ok,
        Action.perform_schema_eq_ok, Action.perform_pure_eq_ok, Prod.mk.injEq]
      constructor
      · rintro ⟨_, _, ⟨known, rfl⟩, _, _, ⟨rfl, read, checked⟩, ⟨rfl, rfl⟩, rfl⟩
        exact ⟨rfl, known, read, checked⟩
      · rintro ⟨rfl, known, read, checked⟩
        exact ⟨_, _, ⟨known, rfl⟩, _, _, ⟨rfl, read, checked⟩, ⟨rfl, rfl⟩, rfl⟩

section Target

variable {schema : String} {condition : Option Condition} {model : Schema} {plan : Plan}
variable (known : setting.registry.get schema = .ok model)
variable (read : Plan.ofCondition condition SelectOptions.plain = .ok plan)
variable (checked : plan.checkScope model = .ok ())
include known read checked

/-- A tally counts by the plan of its condition. -/
theorem perform_tally :
    (backend.tally schema condition).perform setting session =
      (backend.count model plan).perform setting session := by
  have target := (@perform_target_eq_ok δ backend setting session session _ _ _ _).mpr
    ⟨rfl, known, read, checked⟩
  exact perform_bind_ok setting session target _

/-- A removal deletes by the plan of its condition. -/
theorem perform_remove :
    (backend.remove schema condition).perform setting session =
      (backend.delete model plan).perform setting session := by
  have target := (@perform_target_eq_ok δ backend setting session session _ _ _ _).mpr
    ⟨rfl, known, read, checked⟩
  exact perform_bind_ok setting session target _

end Target

/-! ### What a select shows -/

/-- A record agrees with another outside some fields. -/
def AgreesOutside (fields : List String) (record resolved : Object) : Prop :=
  ∀ field, field ∉ fields → resolved.get? field = record.get? field

/-- A record is shown with some fields replaced and cut to the columns. -/
def Shows (fields columns : List String) (record shown : Object) : Prop :=
  ∃ resolved, AgreesOutside fields record resolved ∧ shown = resolved.project columns

/-- Replacing some fields and then others replaces no further field. -/
theorem agreesOutside_append {fields others : List String} {records resolved later : List Object}
    (first : List.Forall₂ (AgreesOutside fields) records resolved)
    (second : List.Forall₂ (AgreesOutside others) resolved later) :
    List.Forall₂ (AgreesOutside (fields ++ others)) records later := by
  refine forall₂_trans (fun record between last head next field absent => ?_) first second
  rw [List.mem_append, not_or] at absent
  rw [next field absent.2, head field absent.1]

/-- One relation is resolved in record after record, each in a session of which everything holds
that held before and that resolving keeps. -/
theorem forall₂_of_populateField (holds : Session δ → Prop) {relation : Relation}
    (keeps : ∀ record start value last, holds start →
      (backend.resolve relation record).perform setting start = (.ok value, last) → holds last)
    (held : holds session) {records populated : List Object}
    (done : (backend.populateField records relation).perform setting session =
      (.ok populated, after)) :
    List.Forall₂ (fun record shown => ∃ start value last, holds start ∧
      (backend.resolve relation record).perform setting start = (.ok value, last) ∧
      shown = record.insert relation.field value) records populated := by
  unfold populateField at done
  induction records generalizing session populated with
  | nil =>
      obtain ⟨rfl, -⟩ := (Action.perform_pure_eq_ok _ _).mp done
      exact .nil
  | cons record rest ih =>
      simp only [List.mapM_cons, perform_bind_eq_ok, Action.perform_pure_eq_ok] at done
      obtain ⟨_, between, ⟨value, _, resolved, rfl, rfl⟩, others, _, later, rfl, rfl⟩ := done
      exact .cons ⟨session, value, between, held, resolved, rfl⟩
        (ih (keeps record session value between held resolved) later)

theorem populateField_eq_ok {relation : Relation} {records populated : List Object}
    (done : (backend.populateField records relation).perform setting session =
      (.ok populated, after)) :
    List.Forall₂ (AgreesOutside [relation.field]) records populated := by
  refine (forall₂_of_populateField (fun _ => True) (fun _ _ _ _ _ _ => trivial) trivial
    done).imp ?_
  rintro record _ ⟨_, value, _, -, -, rfl⟩ field absent
  exact Object.get?_insert_of_ne _ _ (by simpa using absent)

theorem populateEach_eq_ok {relations : List Relation} {records populated : List Object}
    (done : (relations.foldlM backend.populateField records).perform setting session =
      (.ok populated, after)) :
    List.Forall₂ (AgreesOutside (relations.map Relation.field)) records populated := by
  induction relations generalizing session records with
  | nil =>
      obtain ⟨rfl, rfl⟩ := (Action.perform_pure_eq_ok _ _).mp done
      exact List.forall₂_same.mpr fun _ _ _ _ => rfl
  | cons relation rest ih =>
      rw [List.foldlM_cons, perform_bind_eq_ok] at done
      obtain ⟨between, _, first, later⟩ := done
      exact agreesOutside_append (populateField_eq_ok first) (ih later)

/-- Resolving relations keeps the number and order of the records, and replaces no field
but the relation fields of the model. -/
theorem populate_eq_ok {schema : String} {extend : Extend} {records populated : List Object}
    (done : (backend.populate schema extend records).perform setting session =
      (.ok populated, after)) :
    List.Forall₂ (AgreesOutside ((setting.registry.relationsOf schema).map Relation.field))
      records populated := by
  unfold Backend.populate at done
  rw [perform_bind_ok _ _ (Action.perform_read setting session)] at done
  refine (populateEach_eq_ok done).imp fun record resolved agree field absent => ?_
  refine agree field fun member => absent ?_
  obtain ⟨relation, kept, rfl⟩ := List.mem_map.mp member
  exact List.mem_map_of_mem (List.mem_filter.mp kept).1

/-- Where no relation field is included nothing is resolved. -/
theorem perform_populate_excluded {schema : String} {extend : Extend}
    (excluded : ∀ relation ∈ setting.registry.relationsOf schema,
      extend.includes relation.field = false) (records : List Object) :
    (backend.populate schema extend records).perform setting session =
      (.ok records, session) := by
  have relations : (setting.registry.relationsOf schema).filter
      (fun relation => extend.includes relation.field) = [] := by
    rw [List.filter_eq_nil_iff]
    intro relation member
    simp [excluded relation member]
  unfold Backend.populate
  rw [perform_bind_ok _ _ (Action.perform_read setting session), relations]
  rfl

/-- A select that succeeds shows what its plan finds, the last of it when it looks up a
key. -/
theorem select_eq_ok {schema : String} {condition : Option Condition} {options : SelectOptions}
    {selection : Selection}
    (done : (backend.select schema condition options).perform setting session =
      (.ok selection, after)) :
    ∃ model plan found between shown,
      setting.registry.get schema = .ok model ∧
      Plan.ofCondition condition SelectOptions.plain = .ok plan ∧
      plan.checkScope model = .ok () ∧
      (backend.find model (plan.asking options)).perform setting session = (.ok found, between) ∧
      List.Forall₂ (Shows ((setting.registry.relationsOf schema).map Relation.field)
        (options.columns.getD (model.columnsFor .select))) found shown ∧
      selection = if plan.index.isSome then .one shown.getLast? else .many shown := by
  unfold Backend.select at done
  simp only [perform_bind_eq_ok, perform_plan_eq_ok, Action.perform_schema_eq_ok,
    Action.perform_pure_eq_ok] at done
  obtain ⟨model, _, ⟨known, rfl⟩, asked, _, ⟨rfl, read, checked⟩, found, between, matched,
    populated, _, resolved, rfl, rfl⟩ := done
  rw [Plan.ofCondition_options] at read
  cases plain : Plan.ofCondition condition SelectOptions.plain with
  | error error =>
      rw [plain] at read
      cases read
  | ok plan =>
      rw [plain] at read
      cases read
      refine ⟨model, plan, found, between, populated.map _, known, rfl, checked, matched, ?_, rfl⟩
      rw [List.forall₂_map_right_iff]
      exact (populate_eq_ok resolved).imp fun record resolved agree => ⟨resolved, agree, rfl⟩

/-- A select without relations shows what its plan finds, cut to the columns, and fails as
finding fails. -/
theorem perform_select_excluded {schema : String} {condition : Option Condition} {model : Schema}
    {plan : Plan} {columns : Option (List String)}
    (known : setting.registry.get schema = .ok model)
    (read : Plan.ofCondition condition SelectOptions.plain = .ok plan)
    (checked : plan.checkScope model = .ok ()) :
    (backend.select schema condition ⟨columns, .none⟩).perform setting session =
      match (backend.find model (plan.asking ⟨columns, .none⟩)).perform setting session with
      | (.ok found, after) =>
        let shown := found.map (·.project (columns.getD (model.columnsFor .select)))
        (.ok (if plan.index.isSome then .one shown.getLast? else .many shown), after)
      | (.error error, after) => (.error error, after) := by
  have planned : (Backend.plan model condition ⟨columns, .none⟩ : Action δ Plan).perform setting
      session = (.ok (plan.asking ⟨columns, .none⟩), session) := by
    rw [perform_plan_eq_ok, Plan.ofCondition_options, read]
    exact ⟨rfl, rfl, checked⟩
  unfold Backend.select
  rw [perform_bind_ok _ _ ((Action.perform_schema_eq_ok setting session).mpr ⟨known, rfl⟩),
    perform_bind_ok _ _ planned, perform_bind]
  rcases (backend.find model (plan.asking ⟨columns, .none⟩)).perform setting session with
    ⟨answer, after⟩
  cases answer with
  | error error => rfl
  | ok found =>
      refine (perform_bind_ok _ _ (perform_populate_excluded ?_ found) _).trans rfl
      exact fun _ _ => rfl

/-- Where a lookup of a key finds at most one record, a selection shows everything that is
found. -/
theorem forall₂_records {relation : Object → Object → Prop} {found shown : List Object}
    {indexed : Bool} (showing : List.Forall₂ relation found shown)
    (single : indexed → found.length ≤ 1) :
    List.Forall₂ relation found
      (if indexed then Selection.one shown.getLast? else .many shown).records := by
  cases indexed with
  | false => exact showing
  | true =>
      have few := single rfl
      cases showing with
      | nil => exact .nil
      | cons head tail =>
          cases tail with
          | nil => exact .cons head .nil
          | cons next rest => simp at few

end Backend

end RecordStore
