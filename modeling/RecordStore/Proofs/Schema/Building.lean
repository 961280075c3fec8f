/-
Module: RecordStore.Proofs.Schema.Building
Purpose: Which sets of models are accepted and what is made of them.  Reading the
  definitions one after the other and then resolving the relations against all of them
  accepts exactly the consistent sets, whatever order they are in; the order of the
  definitions shows in the order of the names and nowhere else.
Main exports: Field.Below, Field.PointsTo, Definition.Declares, Consistent, Relates,
  build_consistent
-/
import Mathlib.Data.List.Forall2
import Mathlib.Data.List.Nodup
import Mathlib.Data.List.Perm.Basic
import RecordStore.Proofs.Answers
import RecordStore.Schema.Registry

namespace RecordStore

/-! ### Consistent sets of models -/

namespace Field

/-- A field is declared inside another one, at some depth. -/
inductive Below (inner : Field) : Field → Prop where
  | member {name : String} {members : List (String × Field)} {isList : Bool} {key : String}
      (listed : (key, inner) ∈ members) : Below inner (.nested name members isList)
  | deeper {name : String} {members : List (String × Field)} {isList : Bool} {key : String}
      {between : Field} (listed : (key, between) ∈ members) (below : Below inner between) :
      Below inner (.nested name members isList)

/-- A field is the owning side of a relation to a model: it stores keys of that model. -/
def PointsTo (field : Field) (model : String) : Prop :=
  field.traits.target = some model ∧ field.traits.belongs ≠ some false

end Field

/-- The fields that a definition declares. -/
def Definition.Declares (definition : Definition) (fields : List (String × Field)) : Prop :=
  Field.parseAll definition.name definition.fields = .ok fields

/-- A set of models that go together: no two have one name, the fields of each can be read,
fields inside other fields point at no model, every other field that points at a model points
at one of the set, and to a field that stores no keys the model it points at has a field
that stores keys of its own model. -/
structure Consistent (definitions : List Definition) : Prop where
  distinct : (definitions.map Definition.name).Nodup
  declared : ∀ definition ∈ definitions, ∃ fields, definition.Declares fields
  flat : ∀ definition ∈ definitions, ∀ fields, definition.Declares fields →
    ∀ entry ∈ fields, ∀ inner, Field.Below inner entry.2 → inner.traits.target = none
  defined : ∀ definition ∈ definitions, ∀ fields, definition.Declares fields →
    ∀ entry ∈ fields, ∀ name, entry.2.traits.target = some name →
      ∃ target ∈ definitions, target.name = name
  answered : ∀ definition ∈ definitions, ∀ fields, definition.Declares fields →
    ∀ entry ∈ fields, ∀ name, entry.2.traits.target = some name →
      entry.2.traits.belongs = some false →
      ∃ target ∈ definitions, target.name = name ∧ ∃ others, target.Declares others ∧
        ∃ back ∈ others, back.2.PointsTo definition.name

/-- A relation is that of a declared field of a model: it leads to the model the field points
at, and where the field stores no keys it leads back through the first field of that model
which stores keys of the owner. -/
structure Relates (registry : Registry) (owner : String) (entry : String × Field)
    (relation : Relation) : Prop where
  field : relation.field = entry.1
  target : entry.2.traits.target = some relation.target
  many : relation.many = entry.2.isList
  owning : entry.2.traits.belongs ≠ some false → relation.side = .owning
  referenced : entry.2.traits.belongs = some false →
    ∃ target before back after, registry.get relation.target = .ok target ∧
      target.fields = before ++ back :: after ∧ (∀ other ∈ before, ¬ other.2.PointsTo owner) ∧
      back.2.PointsTo owner ∧ relation.side = .referenced back.1

namespace Registry

/-! ### Reading the definitions -/

mutual

/-- The check below a field finds nothing exactly when no field inside points at a model. -/
theorem checkNested_eq_ok_iff (schema path : String) : ∀ field,
    checkNested schema path field = .ok () ↔
      ∀ inner, Field.Below inner field → inner.traits.target = none
  | .scalar type traits => by
      refine ⟨fun _ inner below => ?_, fun _ => rfl⟩
      cases below
  | .nested name members isList => by
      rw [checkNested, checkMembers_eq_ok_iff schema path members]
      constructor
      · rintro flat inner (listed | ⟨listed, below⟩)
        · exact (flat _ listed).1
        · exact (flat _ listed).2 inner below
      · intro flat entry listed
        exact ⟨flat _ (.member listed), fun inner below => flat inner (.deeper listed below)⟩

/-- The check among the members of a nested record finds nothing exactly when none of them
points at a model, and no field inside them does. -/
theorem checkMembers_eq_ok_iff (schema path : String) : ∀ members,
    checkMembers schema path members = .ok () ↔
      ∀ entry ∈ members, entry.2.traits.target = none ∧
        ∀ inner, Field.Below inner entry.2 → inner.traits.target = none
  | [] => by simp [checkMembers]
  | (name, field) :: rest => by
      have below := checkNested_eq_ok_iff schema (path ++ "." ++ name) field
      have later := checkMembers_eq_ok_iff schema path rest
      rw [List.forall_mem_cons, ← below, ← later, checkMembers]
      cases pointing : field.traits.target with
      | some target => simp [Field.isRelation, pointing]
      | none =>
          cases checkNested schema (path ++ "." ++ name) field <;>
            simp [Field.isRelation, pointing]

end

theorem checkFields_eq_ok_iff (schema : String) (fields : List (String × Field)) :
    checkFields schema fields = .ok () ↔
      ∀ entry ∈ fields, ∀ inner, Field.Below inner entry.2 → inner.traits.target = none := by
  induction fields with
  | nil => simp [checkFields]
  | cons entry rest ih =>
      obtain ⟨name, field⟩ := entry
      rw [List.forall_mem_cons, ← checkNested_eq_ok_iff schema name field, ← ih, checkFields]
      cases checkNested schema name field <;> simp

/-- A definition is accepted when its fields can be read and no field inside another one
points at a model; the model is made of what is defined and nothing else. -/
theorem define_eq_ok_iff {definition : Definition} {schema : Schema} :
    define definition = .ok schema ↔ ∃ fields, definition.Declares fields ∧
      (∀ entry ∈ fields, ∀ inner, Field.Below inner entry.2 → inner.traits.target = none) ∧
      schema = ⟨definition.name, fields, definition.timestamps, definition.hooks⟩ := by
  unfold define Definition.Declares
  cases Field.parseAll definition.name definition.fields with
  | error error => simp
  | ok fields =>
      simp only [Except.ok.injEq, exists_eq_left', ← checkFields_eq_ok_iff definition.name fields]
      cases checkFields definition.name fields <;> simp [Except.map, eq_comm]

theorem name_of_define {definition : Definition} {schema : Schema}
    (made : define definition = .ok schema) : schema.name = definition.name := by
  obtain ⟨fields, -, -, rfl⟩ := define_eq_ok_iff.mp made
  rfl

theorem find?_isSome_iff (schemas : List Schema) (name : String) :
    (find? schemas name).isSome ↔ name ∈ schemas.map Schema.name := by
  simp [find?]

/-- Definitions are accepted one after the other when each is, and no name comes twice. -/
theorem collect_eq_ok_iff {defined schemas : List Schema} {definitions : List Definition}
    (distinct : (defined.map Schema.name).Nodup) :
    collect defined definitions = .ok schemas ↔
      (defined.map Schema.name ++ definitions.map Definition.name).Nodup ∧
        ∃ added, definitions.map define = added.map .ok ∧ schemas = defined ++ added := by
  induction definitions generalizing defined with
  | nil => simp [collect, distinct, eq_comm]
  | cons definition rest ih =>
      rw [collect]
      by_cases taken : definition.name ∈ defined.map Schema.name
      · rw [if_pos ((find?_isSome_iff defined _).mpr taken)]
        refine ⟨nofun, fun ⟨names, _⟩ => ?_⟩
        exact absurd rfl ((List.nodup_append.mp names).2.2 _ taken _ List.mem_cons_self)
      · rw [if_neg fun found => taken ((find?_isSome_iff defined _).mp found)]
        cases made : define definition with
        | error error =>
            refine ⟨nofun, fun ⟨_, added, all, _⟩ => ?_⟩
            cases added <;> simp [made] at all
        | ok schema =>
            have named := name_of_define made
            have fresh : ((defined ++ [schema]).map Schema.name).Nodup := by
              simpa [List.nodup_append, distinct, named] using taken
            simp only [ih fresh, List.map_append, List.map_cons, List.map_nil, named,
              List.append_assoc, List.singleton_append, made]
            refine and_congr_right fun _ => ?_
            constructor
            · rintro ⟨added, all, rfl⟩
              exact ⟨schema :: added, by simp [all], rfl⟩
            · rintro ⟨added, all, rfl⟩
              cases added with
              | nil => cases all
              | cons first others =>
                  obtain ⟨head, tail⟩ := List.cons_eq_cons.mp all
                  cases head
                  exact ⟨others, tail, rfl⟩

/-! ### Resolving the relations -/

/-- Where names are distinct, the model of a name is the one that bears it. -/
theorem find?_eq_some_iff {schemas : List Schema} (distinct : (schemas.map Schema.name).Nodup)
    {name : String} {schema : Schema} :
    find? schemas name = some schema ↔ schema ∈ schemas ∧ schema.name = name := by
  constructor
  · intro found
    exact ⟨List.mem_of_find?_eq_some found, by simpa using List.find?_some found⟩
  · rintro ⟨member, rfl⟩
    have found := (find?_isSome_iff schemas schema.name).mpr (List.mem_map_of_mem member)
    obtain ⟨other, hit⟩ := Option.isSome_iff_exists.mp found
    have same : other.name = schema.name := by simpa using List.find?_some hit
    rw [hit, List.inj_on_of_nodup_map distinct (List.mem_of_find?_eq_some hit) member same]

/-- The order of the models has no part in which one a name stands for. -/
theorem find?_perm {schemas others : List Schema} (distinct : (schemas.map Schema.name).Nodup)
    (same : others.Perm schemas) : find? others = find? schemas := by
  have still : (others.map Schema.name).Nodup := (same.map Schema.name).nodup_iff.mpr distinct
  funext name
  refine Option.ext fun schema => ?_
  rw [find?_eq_some_iff distinct, find?_eq_some_iff still, same.mem_iff]

/-- What a relation leads to is all that resolving it reads of the models. -/
theorem relateAll_congr {schemas others : List Schema} (same : find? others = find? schemas)
    (schema : Schema) : relateAll others schema = relateAll schemas schema := by
  unfold relateAll relate
  rw [same]

theorem pointsTo_iff {field : Field} {name : String} :
    (field.isOwning && field.traits.target == some name) = true ↔ field.PointsTo name := by
  simp [Field.isOwning, Field.PointsTo, and_comm]

/-- A back reference is the name of the first field that points to the model. -/
theorem backReference?_eq_some {target : Schema} {name back : String}
    (found : backReference? target name = some back) :
    ∃ before field after, target.fields = before ++ (back, field) :: after ∧
      (∀ other ∈ before, ¬ other.2.PointsTo name) ∧ field.PointsTo name := by
  obtain ⟨entry, hit, rfl⟩ := Option.map_eq_some_iff.mp found
  obtain ⟨points, before, after, cut, first⟩ := List.find?_eq_some_iff_append.mp hit
  refine ⟨before, entry.2, after, cut, fun other member => ?_, pointsTo_iff.mp points⟩
  rw [← pointsTo_iff, Bool.not_eq_true, ← Bool.not_eq_true']
  exact first other member

theorem backReference?_isSome_iff {target : Schema} {name : String} :
    (backReference? target name).isSome ↔ ∃ back ∈ target.fields, back.2.PointsTo name := by
  simp only [backReference?, Option.isSome_map, List.find?_isSome, pointsTo_iff]

/-- The relation that is resolved for a field is that of the field. -/
theorem relates_of_relate {registry : Registry} {schema : Schema} {entry : String × Field}
    {relation : Relation} (pointing : entry.2.isRelation)
    (resolved : relate registry.schemas schema entry.1 entry.2 = .ok relation) :
    Relates registry schema.name entry relation := by
  obtain ⟨name, points⟩ := Option.isSome_iff_exists.mp pointing
  simp only [relate, points, Option.getD_some] at resolved
  cases found : find? registry.schemas name with
  | none => simp [found] at resolved
  | some target =>
      simp only [found] at resolved
      cases owns : entry.2.isOwning with
      | true =>
          have stored : entry.2.traits.belongs ≠ some false := by simpa [Field.isOwning] using owns
          simp only [owns, if_true, Except.ok.injEq] at resolved
          subst resolved
          exact ⟨rfl, points, rfl, fun _ => rfl, fun virtual => absurd virtual stored⟩
      | false =>
          have virtual : entry.2.traits.belongs = some false := by
            simpa [Field.isOwning] using owns
          simp only [owns, Bool.false_eq_true, if_false] at resolved
          cases answer : backReference? target schema.name with
          | none => simp [answer] at resolved
          | some back =>
              simp only [answer, Except.ok.injEq] at resolved
              subst resolved
              obtain ⟨before, field, after, cut, first, points_back⟩ :=
                backReference?_eq_some answer
              have known : registry.get name = .ok target := by rw [get, found]
              exact ⟨rfl, points, rfl, fun stored => absurd virtual stored, fun _ =>
                ⟨target, before, (back, field), after, known, cut, first, points_back, rfl⟩⟩

/-- A field that points at a model is resolved when that model is there and, unless the field
stores keys itself, has a field that points back. -/
theorem exists_relate_iff {schemas : List Schema} {schema : Schema} {entry : String × Field}
    {name : String} (points : entry.2.traits.target = some name) :
    (∃ relation, relate schemas schema entry.1 entry.2 = .ok relation) ↔
      ∃ target, find? schemas name = some target ∧
        (entry.2.traits.belongs = some false →
          ∃ back ∈ target.fields, back.2.PointsTo schema.name) := by
  simp only [relate, points, Option.getD_some, ← backReference?_isSome_iff]
  cases find? schemas name with
  | none => simp
  | some target =>
      cases owns : entry.2.isOwning with
      | true =>
          have stored : entry.2.traits.belongs ≠ some false := by simpa [Field.isOwning] using owns
          simp [stored]
      | false =>
          have virtual : entry.2.traits.belongs = some false := by
            simpa [Field.isOwning] using owns
          cases answer : backReference? target schema.name <;> simp [virtual, answer]

/-! ### The set that is built -/

/-- A set is built when the definitions are accepted and the relations of every model are
resolved. -/
theorem build_eq_ok_iff {definitions : List Definition} {registry : Registry} :
    build definitions = .ok registry ↔
      (definitions.map Definition.name).Nodup ∧
        definitions.map define = registry.schemas.map .ok ∧
        (registry.schemas.map fun schema =>
            (relateAll registry.schemas schema).map fun found => (schema.name, found)) =
          registry.relations.map .ok := by
  have collected := @collect_eq_ok_iff [] registry.schemas definitions List.nodup_nil
  simp only [List.map_nil, List.nil_append, exists_eq_right'] at collected
  rw [← @mapM_eq_ok_iff _ _ _ _ registry.schemas, ← and_assoc, ← collected, build]
  cases collect [] definitions with
  | error error => simp
  | ok schemas =>
      simp only [Except.ok.injEq]
      constructor
      · intro built
        obtain ⟨relations, resolved, rfl⟩ := map_eq_ok_iff.mp built
        exact ⟨rfl, resolved⟩
      · rintro ⟨rfl, resolved⟩
        rw [resolved]
        rfl

/-- The models of a set are those its definitions make. -/
theorem mem_schemas_iff {definitions : List Definition} {schemas : List Schema}
    (made : definitions.map define = schemas.map .ok) {schema : Schema} :
    schema ∈ schemas ↔ ∃ definition ∈ definitions, define definition = .ok schema := by
  rw [← List.mem_map, made, List.mem_map]
  simp

theorem names_of_define {definitions : List Definition} {schemas : List Schema}
    (made : definitions.map define = schemas.map .ok) :
    schemas.map Schema.name = definitions.map Definition.name := by
  induction definitions generalizing schemas with
  | nil =>
      cases schemas with
      | nil => rfl
      | cons schema others => cases made
  | cons definition rest ih =>
      cases schemas with
      | nil => cases made
      | cons schema others =>
          obtain ⟨first, later⟩ := List.cons_eq_cons.mp made
          rw [List.map_cons, List.map_cons, name_of_define first, ih later]

/-- The models of a set are under their names what its definitions make. -/
theorem find?_of_define {definitions : List Definition} {schemas : List Schema}
    (distinct : (definitions.map Definition.name).Nodup)
    (made : definitions.map define = schemas.map .ok) {name : String} {schema : Schema} :
    find? schemas name = some schema ↔
      ∃ definition ∈ definitions, definition.name = name ∧ define definition = .ok schema := by
  rw [← names_of_define made] at distinct
  rw [find?_eq_some_iff distinct, mem_schemas_iff made]
  constructor
  · rintro ⟨⟨definition, member, accepted⟩, rfl⟩
    exact ⟨definition, member, (name_of_define accepted).symm, accepted⟩
  · rintro ⟨definition, member, rfl, accepted⟩
    exact ⟨⟨definition, member, accepted⟩, name_of_define accepted⟩

/-- The relations of all models are resolved when every field that points at a model points
at one of them and, unless it stores keys itself, that model has a field that points back. -/
theorem exists_relations_iff {schemas : List Schema} :
    (∃ relations : List (String × List Relation),
        (schemas.map fun schema =>
            (relateAll schemas schema).map fun found => (schema.name, found)) =
          relations.map .ok) ↔
      ∀ schema ∈ schemas, ∀ entry ∈ schema.fields, ∀ name, entry.2.traits.target = some name →
        ∃ target, find? schemas name = some target ∧
          (entry.2.traits.belongs = some false →
            ∃ back ∈ target.fields, back.2.PointsTo schema.name) := by
  simp only [← mapM_eq_ok_iff, exists_mapM_iff, map_eq_ok_iff]
  refine forall₂_congr fun schema _ => ?_
  have each : (∃ relations, relateAll schemas schema = .ok relations) ↔
      ∀ entry ∈ schema.relationFields, ∃ relation,
        relate schemas schema entry.1 entry.2 = .ok relation := exists_mapM_iff
  have named : (∃ answer value, relateAll schemas schema = .ok value ∧
      (schema.name, value) = answer) ↔ ∃ relations, relateAll schemas schema = .ok relations :=
    ⟨fun ⟨_, value, resolved, _⟩ => ⟨value, resolved⟩,
      fun ⟨value, resolved⟩ => ⟨_, value, resolved, rfl⟩⟩
  rw [named, each]
  constructor
  · intro resolved entry member name points
    have pointing : entry.2.isRelation = true := by simp [Field.isRelation, points]
    exact (exists_relate_iff points).mp
      (resolved entry (List.mem_filter.mpr ⟨member, pointing⟩))
  · intro answered entry member
    obtain ⟨listed, pointing⟩ := List.mem_filter.mp member
    obtain ⟨name, points⟩ := Option.isSome_iff_exists.mp pointing
    exact (exists_relate_iff points).mpr (answered entry listed name points)

/-- The sets that are built are the consistent ones. -/
theorem exists_build_iff {definitions : List Definition} :
    (∃ registry, build definitions = .ok registry) ↔ Consistent definitions := by
  constructor
  · rintro ⟨registry, built⟩
    obtain ⟨distinct, made, resolved⟩ := build_eq_ok_iff.mp built
    have answered := exists_relations_iff.mp ⟨_, resolved⟩
    have accepted : ∀ definition ∈ definitions, ∃ fields, definition.Declares fields ∧
        (∀ entry ∈ fields, ∀ inner, Field.Below inner entry.2 → inner.traits.target = none) ∧
        ⟨definition.name, fields, definition.timestamps, definition.hooks⟩ ∈ registry.schemas := by
      intro definition member
      have listed : define definition ∈ registry.schemas.map .ok := by
        rw [← made]
        exact List.mem_map_of_mem member
      obtain ⟨schema, known, given⟩ := List.mem_map.mp listed
      obtain ⟨fields, declared, flat, rfl⟩ := define_eq_ok_iff.mp given.symm
      exact ⟨fields, declared, flat, known⟩
    refine ⟨distinct, fun definition member => ?declared, fun definition member fields declared =>
      ?flat, fun definition member fields declared entry listed name points => ?defined,
      fun definition member fields declared entry listed name points virtual => ?answered⟩
    all_goals obtain ⟨own, given, flat, known⟩ := accepted definition member
    case declared => exact ⟨own, given⟩
    all_goals obtain rfl : own = fields := Except.ok.inj (given.symm.trans declared)
    case flat => exact flat
    all_goals
      obtain ⟨target, found, back⟩ := answered _ known entry listed name points
      obtain ⟨other, among, rfl, makes⟩ := (find?_of_define distinct made).mp found
    case defined => exact ⟨other, among, rfl⟩
    case answered =>
      obtain ⟨others, declares, -, rfl⟩ := define_eq_ok_iff.mp makes
      exact ⟨other, among, rfl, others, declares, back virtual⟩
  · intro consistent
    obtain ⟨schemas, collected⟩ : ∃ schemas, definitions.mapM define = .ok schemas := by
      refine exists_mapM_iff.mpr fun definition member => ?_
      obtain ⟨fields, declared⟩ := consistent.declared definition member
      exact ⟨_, define_eq_ok_iff.mpr
        ⟨fields, declared, consistent.flat definition member fields declared, rfl⟩⟩
    have made := mapM_eq_ok_iff.mp collected
    have answered : ∀ schema ∈ schemas, ∀ entry ∈ schema.fields, ∀ name,
        entry.2.traits.target = some name → ∃ target, find? schemas name = some target ∧
          (entry.2.traits.belongs = some false →
            ∃ back ∈ target.fields, back.2.PointsTo schema.name) := by
      intro schema known entry listed name points
      obtain ⟨definition, member, accepted⟩ := (mem_schemas_iff made).mp known
      obtain ⟨fields, declared, -, rfl⟩ := define_eq_ok_iff.mp accepted
      have standing : ∀ other ∈ definitions, ∀ others, other.Declares others →
          find? schemas other.name =
            some ⟨other.name, others, other.timestamps, other.hooks⟩ := by
        intro other among others declares
        exact (find?_of_define consistent.distinct made).mpr ⟨other, among, rfl,
          define_eq_ok_iff.mpr
            ⟨others, declares, consistent.flat other among others declares, rfl⟩⟩
      by_cases virtual : entry.2.traits.belongs = some false
      · obtain ⟨other, among, rfl, others, declares, back⟩ :=
          consistent.answered definition member fields declared entry listed name points virtual
        exact ⟨_, standing other among others declares, fun _ => back⟩
      · obtain ⟨other, among, rfl⟩ :=
          consistent.defined definition member fields declared entry listed name points
        obtain ⟨others, declares⟩ := consistent.declared other among
        exact ⟨_, standing other among others declares, fun stored => absurd stored virtual⟩
    obtain ⟨relations, resolved⟩ := exists_relations_iff.mpr answered
    exact ⟨⟨schemas, relations⟩, build_eq_ok_iff.mpr ⟨consistent.distinct, made, resolved⟩⟩

/-! ### What is built -/

/-- Answers that are listed under names are those of the models of the names. -/
theorem find?_of_answers {ε α : Type} {read : Schema → Except ε α} {schemas : List Schema}
    {answers : List (String × α)}
    (all : (schemas.map fun schema => (read schema).map fun found => (schema.name, found)) =
      answers.map .ok) (name : String) :
    ((answers.find? fun entry => entry.1 == name).map Prod.snd) =
      (find? schemas name).bind fun schema => (read schema).toOption := by
  induction schemas generalizing answers with
  | nil =>
      cases answers with
      | nil => rfl
      | cons entry others => cases all
  | cons schema rest ih =>
      cases answers with
      | nil => cases all
      | cons entry others =>
          obtain ⟨first, later⟩ := List.cons_eq_cons.mp all
          obtain ⟨found, given, rfl⟩ := map_eq_ok_iff.mp first
          by_cases same : schema.name = name
          · simp [find?, same, given, Except.toOption]
          · simpa [find?, same] using ih later

/-- The relations of a model are those that are resolved for it. -/
theorem relationsOf_of_build {definitions : List Definition} {registry : Registry}
    (built : build definitions = .ok registry) (name : String) :
    registry.relationsOf name =
      ((find? registry.schemas name).bind fun schema =>
        (relateAll registry.schemas schema).toOption).getD [] := by
  obtain ⟨-, -, resolved⟩ := build_eq_ok_iff.mp built
  rw [relationsOf, find?_of_answers resolved]

/-- Every model that is defined is registered as it is defined, with the relations of its
fields in declared order. -/
theorem registered_of_build {definitions : List Definition} {registry : Registry}
    (built : build definitions = .ok registry) {definition : Definition}
    (member : definition ∈ definitions) :
    ∃ fields, definition.Declares fields ∧
      registry.get definition.name =
        .ok ⟨definition.name, fields, definition.timestamps, definition.hooks⟩ ∧
      List.Forall₂ (Relates registry definition.name)
        (fields.filter fun entry => entry.2.isRelation) (registry.relationsOf definition.name) := by
  have consistent := exists_build_iff.mp ⟨registry, built⟩
  obtain ⟨distinct, made, resolved⟩ := build_eq_ok_iff.mp built
  obtain ⟨fields, declared⟩ := consistent.declared definition member
  have found := (find?_of_define distinct made).mpr ⟨definition, member, rfl,
    define_eq_ok_iff.mpr ⟨fields, declared, consistent.flat definition member fields declared, rfl⟩⟩
  refine ⟨fields, declared, by rw [get, found], ?_⟩
  have known := List.mem_of_find?_eq_some found
  have read := exists_mapM_iff.mp ⟨_, mapM_eq_ok_iff.mpr resolved⟩ _ known
  obtain ⟨-, relations, given, -⟩ := read.imp fun _ => map_eq_ok_iff.mp
  rw [relationsOf_of_build built, found, Option.bind_some, given]
  have pointing : ∀ entry ∈ fields.filter fun entry => entry.2.isRelation,
      entry.2.isRelation = true := fun entry listed => (List.mem_filter.mp listed).2
  exact ((List.forall₂_and_left _ _).mpr ⟨pointing, forall₂_of_mapM given⟩).imp
    fun entry relation resolved => relates_of_relate resolved.1 resolved.2

/-- Definitions in another order make the same models. -/
theorem schemas_perm {definitions others : List Definition} {schemas schemas' : List Schema}
    (made : definitions.map define = schemas.map .ok)
    (made' : others.map define = schemas'.map .ok) (same : others.Perm definitions) :
    schemas'.Perm schemas := by
  have answers := same.map define
  rw [made, made'] at answers
  exact (List.map_perm_map_iff fun _ _ => Except.ok.inj).mp answers

/-- Another order of the definitions gives every name the same model and relations. -/
theorem registered_perm {definitions others : List Definition} {registry other : Registry}
    (built : build definitions = .ok registry) (built' : build others = .ok other)
    (same : others.Perm definitions) :
    (∀ name, other.get name = registry.get name ∧
      other.relationsOf name = registry.relationsOf name) ∧
      other.names.Perm registry.names := by
  obtain ⟨distinct, made, -⟩ := build_eq_ok_iff.mp built
  obtain ⟨-, made', -⟩ := build_eq_ok_iff.mp built'
  have models := schemas_perm made made' same
  rw [← names_of_define made] at distinct
  have known := find?_perm distinct models
  refine ⟨fun name => ⟨by rw [get, get, known], ?_⟩, models.map Schema.name⟩
  rw [relationsOf_of_build built, relationsOf_of_build built', known]
  simp only [relateAll_congr known]

end Registry

theorem Consistent.perm {definitions others : List Definition}
    (consistent : Consistent definitions) (same : others.Perm definitions) :
    Consistent others := by
  have among : ∀ definition, definition ∈ others ↔ definition ∈ definitions :=
    fun definition => same.mem_iff
  refine ⟨(same.map Definition.name).nodup_iff.mpr consistent.distinct, ?_, ?_, ?_, ?_⟩
  · simpa only [among] using consistent.declared
  · simpa only [among] using consistent.flat
  · simpa only [among] using consistent.defined
  · simpa only [among] using consistent.answered

/-- The sets of models that are accepted are the consistent ones.  Every model stands as it is
defined, in the order of the definitions, with the relations of its fields in declared order.
Another order of the definitions is accepted when this one is, and gives every name the same
model and the same relations. -/
theorem build_consistent (definitions : List Definition) :
    ((∃ registry, Registry.build definitions = .ok registry) ↔ Consistent definitions) ∧
      (∀ registry, Registry.build definitions = .ok registry →
        registry.names = definitions.map Definition.name ∧
        ∀ definition ∈ definitions, ∃ fields, definition.Declares fields ∧
          registry.get definition.name =
            .ok ⟨definition.name, fields, definition.timestamps, definition.hooks⟩ ∧
          List.Forall₂ (Relates registry definition.name)
            (fields.filter fun entry => entry.2.isRelation)
            (registry.relationsOf definition.name)) ∧
      ∀ others : List Definition, others.Perm definitions →
        ((∃ other, Registry.build others = .ok other) ↔
          ∃ registry, Registry.build definitions = .ok registry) ∧
        ∀ registry other, Registry.build definitions = .ok registry →
          Registry.build others = .ok other →
          (∀ name, other.get name = registry.get name ∧
            other.relationsOf name = registry.relationsOf name) ∧
          other.names.Perm registry.names := by
  refine ⟨Registry.exists_build_iff, fun registry built => ⟨?_, fun definition member =>
    Registry.registered_of_build built member⟩, fun others same => ⟨?_,
    fun registry other built built' => Registry.registered_perm built built' same⟩⟩
  · obtain ⟨-, made, -⟩ := Registry.build_eq_ok_iff.mp built
    exact Registry.names_of_define made
  · rw [Registry.exists_build_iff, Registry.exists_build_iff]
    exact ⟨fun consistent => consistent.perm same.symm, fun consistent => consistent.perm same⟩

/-- Users hold the keys of their organs, which lead back to them: either model may come
first. -/
theorem build_consistent_organs :
    let user : Definition := ⟨"user", .obj [("name", .str "String"), ("organs", .arr [.obj
      [("type", .str "Id"), ("ref", .str "organ")]])], true, Hooks.none⟩
    let organ : Definition := ⟨"organ", .obj [("name", .str "String"), ("users", .arr [.obj
      [("type", .str "Id"), ("ref", .str "user"), ("belong", .bool false)]])], true, Hooks.none⟩
    Consistent [user, organ] ∧ ∃ registry other,
      Registry.build [user, organ] = .ok registry ∧ Registry.build [organ, user] = .ok other ∧
        registry.names = ["user", "organ"] ∧ other.get "organ" = registry.get "organ" ∧
        other.relationsOf "organ" = registry.relationsOf "organ" ∧
        registry.relationsOf "organ" = [⟨"users", "user", true, .referenced "organs"⟩] ∧
        ∃ entry, Relates registry "organ" entry ⟨"users", "user", true, .referenced "organs"⟩ := by
  intro user organ
  obtain ⟨accepted, registered, reordered⟩ := build_consistent [user, organ]
  obtain ⟨registry, built, relations⟩ : ∃ registry,
      Registry.build [user, organ] = .ok registry ∧
        registry.relationsOf "organ" = [⟨"users", "user", true, .referenced "organs"⟩] :=
    ⟨_, rfl, rfl⟩
  obtain ⟨names, each⟩ := registered registry built
  obtain ⟨either, same⟩ := reordered [organ, user] (List.Perm.swap user organ [])
  obtain ⟨other, built'⟩ := either.mpr ⟨registry, built⟩
  obtain ⟨looked, led⟩ := (same registry other built built').1 "organ"
  obtain ⟨fields, -, -, related⟩ := each organ (List.mem_cons_of_mem _ List.mem_cons_self)
  obtain ⟨entry, _, relates, -⟩ : ∃ entry rest, Relates registry "organ" entry
      ⟨"users", "user", true, .referenced "organs"⟩ ∧
      fields.filter (fun entry => entry.2.isRelation) = entry :: rest := by
    rw [relations] at related
    obtain ⟨entry, rest, relates, -, cut⟩ := List.forall₂_cons_right_iff.mp related
    exact ⟨entry, rest, relates, cut⟩
  exact ⟨accepted.mp ⟨registry, built⟩, registry, other, built, built', names, looked, led,
    relations, entry, relates⟩

end RecordStore
