/-
Module: RecordStore.Proofs.Query.FieldNames
Purpose: The name of a field as the key of a condition and as the key of a patch.  A patch takes
  the name of a field for that field whatever characters it holds.  A condition does not know the
  model: keys that configure the query never test anything, and every other key is read by the
  grammar of paths.  The two agree on every name of the grammar that does not configure.
Main exports: Plan.configuringKeys, Plan.readEntry_of_free, Plan.filter_of_single,
  Plan.filter_of_single_configuring, condition_reads_field, condition_reads_field_otherwise
-/
import RecordStore.Proofs.Answers
import RecordStore.Proofs.Path.Spelling
import RecordStore.Proofs.Store.StoredFields
import RecordStore.Schema.Registry

namespace RecordStore

open PathGrammar

/-- Values that are neither lists nor objects. -/
def Json.IsScalar : Json → Prop
  | .arr _ => False
  | .obj _ => False
  | _ => True

/-- A value that is no list opens no tuple, so it is a test of any field. -/
theorem Test.exists_ofValue {value : Json} (scalar : value.IsScalar) (key : String) :
    ∃ test, ofValue key value = .ok test := by
  cases value with
  | arr items => exact scalar.elim
  | _ => exact ⟨_, rfl⟩

/-- The name of a declared or bookkeeping field stands for that field in a patch. -/
theorem Schema.path_of_hasField {schema : Schema} {name : String}
    (declared : schema.hasField name = true) (filled : name ≠ "") :
    schema.path name = .ok (FieldPath.field name) := by
  rw [Schema.path, FieldPath.parseWith, if_pos]
  simp [filled, declared]

namespace Plan

/-- The keys that configure a query. -/
def configuringKeys : List String := [indexKey, orderKey, offsetKey, limitKey, scopeKey]

variable {plan next : Plan} {key : String} {value : Json} {options : SelectOptions}

/-! ### One entry -/

/-- An entry under a key that configures the query adds no test. -/
theorem filter_of_readEntry (configures : key ∈ configuringKeys)
    (read : readEntry plan key value = .ok next) : next.filter = plan.filter := by
  simp only [configuringKeys, List.mem_cons, List.not_mem_nil, or_false] at configures
  rcases configures with rfl | rfl | rfl | rfl | rfl
  · cases read
    rfl
  · obtain ⟨order, -, rfl⟩ := map_eq_ok_iff.mp read
    rfl
  · obtain ⟨offset, -, rfl⟩ := map_eq_ok_iff.mp read
    rfl
  · obtain ⟨limit, -, rfl⟩ := map_eq_ok_iff.mp read
    rfl
  · obtain ⟨scope, -, rfl⟩ := map_eq_ok_iff.mp read
    rfl

/-- Every other entry adds its test, or is refused with it. -/
theorem readEntry_of_free (free : key ∉ configuringKeys) (plan : Plan) (value : Json) :
    readEntry plan key value =
      (predicate key value).map fun test => { plan with filter := plan.filter ++ [test] } := by
  simp only [configuringKeys, List.mem_cons, List.not_mem_nil, or_false, not_or] at free
  obtain ⟨index, order, offset, limit, scope⟩ := free
  rw [readEntry, if_neg index, if_neg order, if_neg offset, if_neg limit, if_neg scope]

/-- A test is on the path that its key is read as. -/
theorem field_of_predicate {test : Predicate} (read : predicate key value = .ok test) :
    field key = .ok test.field := by
  unfold predicate at read
  cases parsed : field key with
  | error error =>
      rw [parsed] at read
      cases read
  | ok path =>
      rw [parsed] at read
      obtain ⟨test, -, rfl⟩ := map_eq_ok_iff.mp read
      rfl

/-! ### A condition of one entry -/

/-- A condition of one entry that does not look a key up is the plan of that entry. -/
theorem ofCondition_single_eq (unindexed : indexOf? [(key, value)] = none)
    (options : SelectOptions) :
    ofCondition (some [(key, value)]) options = readEntry (everything options) key value := by
  rw [ofCondition, unindexed]
  simp only [readEntries]
  cases readEntry (everything options) key value <;> rfl

/-- One entry that does not configure the query is one test. -/
theorem filter_of_single (free : key ∉ configuringKeys)
    (read : ofCondition (some [(key, value)]) options = .ok plan) :
    ∃ test, predicate key value = .ok test ∧ plan.filter = [test] := by
  have other : key ≠ indexKey := by
    rintro rfl
    exact free List.mem_cons_self
  rw [ofCondition_single_eq (indexOf?_eq_none (List.forall_mem_singleton.mpr other)),
    readEntry_of_free free] at read
  obtain ⟨test, tests, rfl⟩ := map_eq_ok_iff.mp read
  exact ⟨test, tests, rfl⟩

/-- One entry that configures the query is no test. -/
theorem filter_of_single_configuring (configures : key ∈ configuringKeys)
    (read : ofCondition (some [(key, value)]) options = .ok plan) : plan.filter = [] := by
  cases looked : indexOf? [(key, value)] with
  | none =>
      rw [ofCondition_single_eq looked] at read
      exact filter_of_readEntry configures read
  | some found =>
      rw [ofCondition, looked] at read
      cases read
      rfl

end Plan

/-! ### Fields of a model -/

/-- The name of a declared or bookkeeping field is the path of one step in a patch.  Unless it
configures the query, a condition of this one entry is a plan of one test whenever it is read;
and if the name is one of the grammar, the test is on the steps of that path, and every scalar
is read.  A name that configures the query never becomes a test. -/
theorem condition_reads_field (schema : Schema) {name : String}
    (declared : schema.hasField name = true) (filled : name ≠ "") (value : Json)
    (options : SelectOptions) :
    ∃ path, schema.path name = .ok path ∧ path.segments = [.name name] ∧
      (name ∉ Plan.configuringKeys →
        (∀ plan, Plan.ofCondition (some [(name, value)]) options = .ok plan →
          ∃ test, plan.filter = [test] ∧
            (IsName name.toList → test.field.segments = path.segments)) ∧
        (IsName name.toList → value.IsScalar →
          ∃ plan, Plan.ofCondition (some [(name, value)]) options = .ok plan)) ∧
      (name ∈ Plan.configuringKeys →
        ∀ plan, Plan.ofCondition (some [(name, value)]) options = .ok plan →
          plan.filter = []) := by
  refine ⟨FieldPath.field name, Schema.path_of_hasField declared filled, rfl, ?_, ?_⟩
  · intro free
    constructor
    · intro plan read
      obtain ⟨test, tests, filter⟩ := Plan.filter_of_single free read
      refine ⟨test, filter, fun plain => ?_⟩
      have same := (Plan.field_of_predicate tests).symm.trans (Plan.field_of_isName plain)
      rw [Except.ok.inj same]
    · intro plain scalar
      obtain ⟨test, read⟩ := Test.exists_ofValue scalar name
      exact ⟨_, Plan.ofCondition_single plain free read options⟩
  · intro configures plan read
    exact Plan.filter_of_single_configuring configures read

/-- The time of creation, tested by a text and by a tuple, and a field that is called like the
size of a page. -/
theorem condition_reads_field_created :
    let limit : String × Field := ("limit", .scalar .number Traits.plain)
    let schema : Schema := ⟨"note", [limit], true, Hooks.none⟩
    let later : Json := .arr [.str " > ", .str "2024"]
    schema.hasField "createdAt" = true ∧ schema.hasField "limit" = true ∧
      IsName "createdAt".toList ∧ "createdAt" ∉ Plan.configuringKeys ∧
      (∃ plan, Plan.ofCondition (some [("createdAt", .str "2024")]) .plain = .ok plan) ∧
      (∃ path plan test, schema.path "createdAt" = .ok path ∧
        Plan.ofCondition (some [("createdAt", later)]) .plain = .ok plan ∧
        plan.filter = [test] ∧ test.field.segments = path.segments) ∧
      ∃ plan, Plan.ofCondition (some [("limit", .int 5)]) .plain = .ok plan ∧
        plan.filter = [] := by
  intro limit schema later
  have free : "createdAt" ∉ Plan.configuringKeys := by decide
  have plain : IsName "createdAt".toList := by decide
  have kept : schema.hasField "createdAt" = true := by decide
  have declared : schema.hasField "limit" = true := by decide
  have text := condition_reads_field schema kept (by decide) (.str "2024") .plain
  have tuple := condition_reads_field schema kept (by decide) later .plain
  have page := condition_reads_field schema declared (by decide) (.int 5) .plain
  obtain ⟨_, -, -, tests, -⟩ := text
  obtain ⟨path, reads, -, compares, -⟩ := tuple
  obtain ⟨_, -, -, -, configures⟩ := page
  have planned : ∃ plan, Plan.ofCondition (some [("createdAt", later)]) .plain = .ok plan :=
    ⟨_, by rfl⟩
  obtain ⟨plan, read⟩ := planned
  obtain ⟨test, filter, same⟩ := (compares free).1 plan read
  have limited : ∃ plan, Plan.ofCondition (some [("limit", .int 5)]) .plain = .ok plan :=
    ⟨_, by rfl⟩
  obtain ⟨paged, bounded⟩ := limited
  exact ⟨kept, declared, plain, free, (tests free).2 plain trivial,
    ⟨path, plan, test, reads, read, filter, same plain⟩,
    paged, bounded, configures (by decide) paged bounded⟩

/-- A registry accepts fields called `limit`, `a.b` and by an empty name.  A condition on the
first limits the page and tests nothing, one on the second tests a member `b` of a field `a`,
which a patch takes for one field, and one on the third is refused. -/
theorem condition_reads_field_otherwise :
    let definition : Definition := ⟨"note", .obj [("limit", .str "Number"),
      ("a.b", .str "String"), ("", .str "String")], false, Hooks.none⟩
    ∃ registry schema, Registry.build [definition] = .ok registry ∧
      registry.get "note" = .ok schema ∧
      (schema.hasField "limit" = true ∧
        ∃ plan, Plan.ofCondition (some [("limit", .int 5)]) .plain = .ok plan ∧
          plan.filter = []) ∧
      (schema.hasField "a.b" = true ∧ schema.path "a.b" = .ok (FieldPath.field "a.b") ∧
        ∃ plan test, Plan.ofCondition (some [("a.b", .int 5)]) .plain = .ok plan ∧
          plan.filter = [test] ∧ test.field.segments = [.name "a", .name "b"]) ∧
      schema.hasField "" = true ∧
      Plan.ofCondition (some [("", .int 5)]) .plain = .error (.path (.parse "" .empty)) := by
  intro definition
  let field (type : FieldType) : Field := .scalar type Traits.plain
  let schema : Schema := ⟨"note", [("limit", field .number), ("a.b", field .string),
    ("", field .string)], false, Hooks.none⟩
  have built : Registry.build [definition] = .ok ⟨[schema], [("note", [])]⟩ := by rfl
  exact ⟨_, schema, built, by rfl, ⟨by decide, _, by rfl, by rfl⟩,
    ⟨by decide, by rfl, _, _, by rfl, by rfl, by rfl⟩, by decide, by rfl⟩

end RecordStore
