/-
Module: RecordStore.Proofs.Store.Visibility
Purpose: What a read shows that asks for no columns of its own.  Relations are resolved in whole
  records, but by reads of their own, which cut the related records to the columns of their
  model; then the records are cut to the columns of theirs.  So a field that reads leave out is
  seen neither in a record nor in those that it is related to.
Main exports: Schema.Discreet, DiscreetRelation, Backend.resolve_eq_ok, Backend.resolve_discreet,
  Backend.populate_discreet, select_hides_excluded
-/
import RecordStore.Document.Store
import RecordStore.Proofs.Schema.Names
import RecordStore.Proofs.Store.Decidable
import RecordStore.Proofs.Store.KeyOrder
import RecordStore.Proofs.Store.Populating
import RecordStore.Relational.Store

namespace RecordStore

/-- A record keeps to the columns that reads of its model return, and so has no value in a
declared field that is excluded from reads, unless the field is called like the key or a time. -/
structure Schema.Discreet (schema : Schema) (record : Object) : Prop where
  columns : ∀ key ∈ record.keys, key ∈ schema.columnsFor .select
  hidden : ∀ entry ∈ schema.fields, entry.2.excludedFrom .select = true →
    schema.implicitType? entry.1 = none → entry.1 ∉ record.keys

theorem Object.mem_columns_of_project {record : Object} {columns : List String} {key : String}
    (listed : key ∈ (record.project columns).keys) : key ∈ columns := by
  obtain ⟨value, found⟩ := Object.exists_get? listed
  by_contra absent
  rw [Object.get?_project, if_neg absent] at found
  cases found

namespace Schema

/-- Fields that are excluded from an operation are none of its columns. -/
theorem not_mem_columnsFor {schema : Schema} (named : schema.Named) {operation : Operation}
    {entry : String × Field} (member : entry ∈ schema.fields)
    (excluded : entry.2.excludedFrom operation = true)
    (declared : schema.implicitType? entry.1 = none) :
    entry.1 ∉ schema.columnsFor operation := by
  intro listed
  rw [columnsFor, List.mem_cons, List.mem_append] at listed
  unfold implicitType? at declared
  rcases listed with key | field | time
  · rw [if_pos key] at declared
    cases declared
  · obtain ⟨other, kept, same⟩ := List.mem_map.mp field
    obtain ⟨there, included⟩ := List.mem_filter.mp kept
    obtain rfl := List.inj_on_of_nodup_map named.distinct there member same
    rw [excluded] at included
    cases included
  · cases timed : schema.timestamps with
    | false => simp [timed] at time
    | true =>
        have stamped : (entry.1 == createdAtField || entry.1 == updatedAtField) = true := by
          simpa [timed] using time
        rw [timed, stamped] at declared
        split at declared <;> cases declared

/-- What is cut to the columns of reads is discreet. -/
theorem discreet_project {schema : Schema} (named : schema.Named) (record : Object) :
    schema.Discreet (record.project (schema.columnsFor .select)) where
  columns := fun _ listed => Object.mem_columns_of_project listed
  hidden := fun _ member excluded declared listed =>
    not_mem_columnsFor named member excluded declared (Object.mem_columns_of_project listed)

end Schema

/-- The value of a relation field in which all records that are shown are discreet. -/
def DiscreetRelation (registry : Registry) (relation : Relation) (value : Json) : Prop :=
  ∃ related, value = relationValue relation.many related ∧
    ∀ record ∈ related, ∃ target, registry.get relation.target = .ok target ∧
      target.Discreet record

namespace Backend

open RecordStore.Action (perform_bind_ok perform_bind_eq_ok)

variable {δ : Type} {backend : Backend δ} {setting : Setting} {session after : Session δ}

/-! ### Relations -/

/-- A relation is resolved to nothing, or to records that one read of its model finds. -/
theorem resolve_eq_ok {relation : Relation} {record : Object} {value : Json}
    (done : (backend.resolve relation record).perform setting session = (.ok value, after)) :
    ∃ related, value = relationValue relation.many related ∧
      (related = [] ∨ ∃ condition found last,
        (backend.related relation.target condition).perform setting session = (.ok found, last) ∧
          related ⊆ found) := by
  have nothing (empty : (pure (relationValue relation.many []) : Action δ Json).perform setting
      session = (.ok value, after)) :
      ∃ related, value = relationValue relation.many related ∧
        (related = [] ∨ ∃ condition found last,
          (backend.related relation.target condition).perform setting session = (.ok found, last) ∧
            related ⊆ found) := by
    obtain ⟨rfl, -⟩ := (Action.perform_pure_eq_ok _ _).mp empty
    exact ⟨[], rfl, .inl rfl⟩
  unfold resolve at done
  cases side : relation.side with
  | owning =>
      simp only [side] at done
      split at done
      · exact nothing done
      · obtain ⟨found, last, read, shown⟩ := (perform_bind_eq_ok _ _).mp done
        obtain ⟨rfl, -⟩ := (Action.perform_pure_eq_ok _ _).mp shown
        exact ⟨_, rfl, .inr ⟨_, found, last, read, fun _ => mem_of_mem_inKeyOrder⟩⟩
  | referenced back =>
      simp only [side] at done
      split at done
      · exact nothing done
      · exact nothing done
      · obtain ⟨found, last, read, shown⟩ := (perform_bind_eq_ok _ _).mp done
        obtain ⟨rfl, -⟩ := (Action.perform_pure_eq_ok _ _).mp shown
        exact ⟨_, rfl, .inr ⟨_, found, last, read, List.Subset.refl _⟩⟩

section Resolve

variable (named : ∀ name model, setting.registry.get name = .ok model → model.Named)
include named

/-- The related records of a condition are discreet records of their model. -/
theorem related_discreet {target : String} {condition : Condition} {related : List Object}
    (done : (backend.related target condition).perform setting session = (.ok related, after)) :
    ∃ model, setting.registry.get target = .ok model ∧
      ∀ record ∈ related, model.Discreet record := by
  unfold Backend.related at done
  simp only [perform_bind_eq_ok, perform_plan_eq_ok, Action.perform_schema_eq_ok,
    Action.perform_pure_eq_ok] at done
  obtain ⟨model, _, ⟨known, rfl⟩, plan, _, ⟨rfl, read, -⟩, found, _, -, rfl, -⟩ := done
  have columns : model.selectColumns plan = model.columnsFor .select := by
    rw [Schema.selectColumns, (Plan.ofCondition_asks read).1]
    rfl
  have discreet : ∀ record ∈ found.map (·.project (model.selectColumns plan)),
      model.Discreet record := by
    rw [columns, List.forall_mem_map]
    exact fun record _ => Schema.discreet_project (named target model known) record
  refine ⟨model, known, fun record member => discreet record ?_⟩
  split at member
  · exact List.mem_of_getLast? (Option.mem_toList.mp member)
  · exact member

/-- What a relation is resolved to shows discreet records only, whichever side it is on. -/
theorem resolve_discreet {relation : Relation} {record : Object} {value : Json}
    (done : (backend.resolve relation record).perform setting session = (.ok value, after)) :
    DiscreetRelation setting.registry relation value := by
  obtain ⟨related, rfl, nothing | ⟨condition, found, _, read, inside⟩⟩ := resolve_eq_ok done
  · subst nothing
    exact ⟨[], rfl, List.forall_mem_nil _⟩
  · obtain ⟨target, known, discreet⟩ := related_discreet named read
    exact ⟨related, rfl, fun record member => ⟨target, known, discreet record (inside member)⟩⟩

/-- Where a relation is populated it shows discreet records only. -/
theorem populateField_discreet {relation : Relation} {records populated : List Object}
    (done : (backend.populateField records relation).perform setting session =
      (.ok populated, after)) :
    List.Forall₂ (fun _ shown => ∃ value, shown.get? relation.field = some value ∧
      DiscreetRelation setting.registry relation value) records populated := by
  refine (forall₂_of_populateField (fun _ => True) (fun _ _ _ _ _ _ => trivial) trivial
    done).imp ?_
  rintro record _ ⟨_, value, _, -, resolved, rfl⟩
  exact ⟨value, Object.get?_insert_self _ _ _, resolve_discreet named resolved⟩

/-- Populating keeps what it resolved for one relation when it goes on to the next. -/
theorem populate_discreet {schema : String} {extend : Extend} {relation : Relation}
    (distinct : ((setting.registry.relationsOf schema).map Relation.field).Nodup)
    (member : relation ∈ setting.registry.relationsOf schema)
    (included : extend.includes relation.field) {records populated : List Object}
    (done : (backend.populate schema extend records).perform setting session =
      (.ok populated, after)) :
    ∀ shown ∈ populated, ∃ value, shown.get? relation.field = some value ∧
      DiscreetRelation setting.registry relation value := by
  obtain ⟨front, back, cut, -, -, untouched⟩ := exists_cut distinct member included
  unfold Backend.populate at done
  rw [perform_bind_ok _ _ (Action.perform_read setting session), cut, List.foldlM_append] at done
  simp only [List.foldlM_cons, perform_bind_eq_ok] at done
  obtain ⟨before, _, -, _, _, here, behind⟩ := done
  have shows : List.Forall₂ (fun _ shown => ∃ value, shown.get? relation.field = some value ∧
      DiscreetRelation setting.registry relation value) before populated := by
    refine forall₂_trans (fun _ between shown given agree => ?_)
      (populateField_discreet named here) (populateEach_eq_ok behind)
    obtain ⟨value, found, discreet⟩ := given
    exact ⟨value, (agree _ untouched).trans found, discreet⟩
  refine forall_of_forall₂ ?_ shows
  exact fun _ _ given => given

end Resolve

end Backend

/-- A read that asks for no columns shows no field that its model leaves out of reads, in whatever
state of whichever store, with all relations, some or none: every record keeps to the columns of
the model, and every record in a relation field that is populated keeps to the columns of the
model that the relation leads to. -/
theorem select_hides_excluded {δ : Type} (backend : Backend δ) {definitions : List Definition}
    {setting : Setting} (built : Registry.build definitions = .ok setting.registry)
    (settled : ∀ definition ∈ definitions, definition.Settled) {session after : Session δ}
    {schema : String} {condition : Option Condition} {extend : Extend} {selection : Selection}
    (done : (backend.select schema condition ⟨none, extend⟩).perform setting session =
      (.ok selection, after)) :
    ∃ model, setting.registry.get schema = .ok model ∧
      ∀ record ∈ selection.records, model.Discreet record ∧
        ∀ relation ∈ setting.registry.relationsOf schema, extend.includes relation.field →
          ∀ value, record.get? relation.field = some value →
            DiscreetRelation setting.registry relation value := by
  have named : ∀ name model, setting.registry.get name = .ok model → model.Named :=
    fun _ _ known => Registry.named_of_get built settled known
  unfold Backend.select at done
  simp only [Action.perform_bind_eq_ok, Backend.perform_plan_eq_ok, Action.perform_schema_eq_ok,
    Action.perform_pure_eq_ok] at done
  obtain ⟨model, _, ⟨known, rfl⟩, plan, _, ⟨rfl, read, -⟩, found, _, -, populated, _, resolved,
    rfl, -⟩ := done
  obtain ⟨columns, asked⟩ := Plan.ofCondition_asks read
  rw [asked] at resolved
  have shows : ∀ record ∈ populated.map (·.project (model.selectColumns plan)),
      ∃ whole ∈ populated, record = whole.project (model.columnsFor .select) := by
    rw [Schema.selectColumns, columns, List.forall_mem_map]
    exact fun whole member => ⟨whole, member, rfl⟩
  refine ⟨model, known, fun record member => ?_⟩
  obtain ⟨whole, there, rfl⟩ := shows record (by
    split at member
    · exact List.mem_of_getLast? (Option.mem_toList.mp member)
    · exact member)
  refine ⟨Schema.discreet_project (named schema model known) whole, ?_⟩
  intro relation related included value shown
  obtain ⟨-, distinct, -⟩ := Registry.relationNames_of_build built settled related
  obtain ⟨resolution, populated, discreet⟩ :=
    Backend.populate_discreet named distinct related included resolved whole there
  rw [Object.get?_project] at shown
  split at shown
  · cases populated.symm.trans shown
    exact discreet
  · cases shown

/-- A user and an organ of theirs, each with a text that reads leave out: both stores show the user
with the organ, and neither of the texts. -/
theorem select_hides_excluded_user :
    let hidden : Json := .obj [("type", .str "String"), ("excludes", .str "select")]
    let user : Definition := ⟨"user", .obj [("pin", hidden), ("organs", .arr [.obj
      [("type", .str "Id"), ("ref", .str "organ"), ("belong", .bool false)]])], false, Hooks.none⟩
    let organ : Definition := ⟨"organ", .obj [("code", hidden), ("owner", .obj
      [("type", .str "Id"), ("ref", .str "user")])], false, Hooks.none⟩
    let text : Field := .scalar .string { Traits.plain with excluded := [.select] }
    let organs : Field :=
      .scalar .id { Traits.plain with target := some "organ", isList := true, belongs := some false }
    let owner : Field := .scalar .id { Traits.plain with target := some "user" }
    let userModel : Schema := ⟨"user", [("pin", text), ("organs", organs)], false, Hooks.none⟩
    let organModel : Schema := ⟨"organ", [("code", text), ("owner", owner)], false, Hooks.none⟩
    let relation : Relation := ⟨"organs", "organ", true, .referenced "owner"⟩
    let registry : Registry := ⟨[userModel, organModel],
      [("user", [relation]), ("organ", [⟨"owner", "user", false, .owning⟩])]⟩
    let setting := Setting.still registry
    let documents : Session Document.Trees := Session.start
      [("user", [("f", Json.text (.obj [("id", .str "f"), ("pin", .str "p")]))]),
        ("organ", [("h", Json.text (.obj
          [("id", .str "h"), ("code", .str "c"), ("owner", .str "f")]))])]
    let tables : Session Relational.Connection := Session.start ⟨⟨[
      ⟨"user", userModel.tableColumns, [[("id", .int 1), ("pin", .text "p")]], 1⟩,
      ⟨"organ", organModel.tableColumns, [[("id", .int 2), ("code", .text "c"), ("owner", .int 1)]],
        2⟩], []⟩, true, false⟩
    let shown (user organ : Json) : Object :=
      [("id", user), ("organs", .arr [.obj [("id", organ), ("owner", user)]])]
    Registry.build [user, organ] = .ok registry ∧
      (∃ after, (Document.backend.select "user" none ⟨none, .all⟩).perform setting documents =
        (.ok (.many [shown (.str "f") (.str "h")]), after)) ∧
      (∃ after, (Relational.backend.select "user" none ⟨none, .all⟩).perform setting tables =
        (.ok (.many [shown (.int 1) (.int 2)]), after)) ∧
      userModel.Discreet (shown (.str "f") (.str "h")) ∧
      DiscreetRelation registry relation (.arr [.obj [("id", .int 2), ("owner", .int 1)]]) := by
  intro hidden user organ text organs owner userModel organModel relation registry setting
    documents tables shown
  have built : Registry.build [user, organ] = .ok setting.registry := rfl
  have settled : ∀ definition ∈ [user, organ], definition.Settled := by decide
  have onDocuments : ∃ after, (Document.backend.select "user" none ⟨none, .all⟩).perform setting
      documents = (.ok (.many [shown (.str "f") (.str "h")]), after) :=
    Action.exists_perform_eq (by decide +kernel)
  have onTables : ∃ after, (Relational.backend.select "user" none ⟨none, .all⟩).perform setting
      tables = (.ok (.many [shown (.int 1) (.int 2)]), after) :=
    Action.exists_perform_eq (by decide +kernel)
  refine ⟨built, onDocuments, onTables, ?_, ?_⟩
  · obtain ⟨_, selected⟩ := onDocuments
    obtain ⟨_, ⟨⟩, discreet⟩ := select_hides_excluded Document.backend built settled selected
    exact (discreet _ List.mem_cons_self).1
  · obtain ⟨_, selected⟩ := onTables
    obtain ⟨_, ⟨⟩, discreet⟩ := select_hides_excluded Relational.backend built settled selected
    exact (discreet _ List.mem_cons_self).2 relation List.mem_cons_self rfl _ rfl

end RecordStore
