/-
Module: RecordStore.Proofs.Schema.Names
Purpose: The names of the fields of models that are defined.  Where no key comes twice in a
  definition the fields of its model have distinct names, none of which is that of the key, and
  so have the relations that are resolved for it.
Main exports: Definition.Settled, Schema.Named, Definition.Settled.named, Registry.named_of_get,
  Registry.relationNames_of_get, Registry.relationNames_of_build
-/
import RecordStore.Proofs.Schema.Building

namespace RecordStore

/-- The fields of a definition are an object in which no key comes twice, as in every object
that is read from a text. -/
def Definition.Settled (definition : Definition) : Prop :=
  ∀ members, definition.fields = .obj members → (Object.keys members).Nodup

instance (definition : Definition) : Decidable definition.Settled :=
  match shape : definition.fields with
  | .obj members =>
    decidable_of_iff (Object.keys members).Nodup
      ⟨fun distinct _ same => Json.obj.inj (shape.symm.trans same) ▸ distinct,
        fun settled => settled members shape⟩
  | .null => .isTrue fun _ same => nomatch shape.symm.trans same
  | .bool _ => .isTrue fun _ same => nomatch shape.symm.trans same
  | .num _ => .isTrue fun _ same => nomatch shape.symm.trans same
  | .str _ => .isTrue fun _ same => nomatch shape.symm.trans same
  | .arr _ => .isTrue fun _ same => nomatch shape.symm.trans same

namespace Schema

/-- The declared fields have distinct names, none of which is that of the key. -/
structure Named (schema : Schema) : Prop where
  distinct : (schema.fields.map Prod.fst).Nodup
  keyless : idField ∉ schema.fields.map Prod.fst

end Schema

theorem Field.find?_eq_none {fields : List (String × Field)} {name : String}
    (absent : name ∉ fields.map Prod.fst) : find? fields name = none := by
  induction fields with
  | nil => rfl
  | cons entry rest ih =>
      rw [List.map_cons, List.mem_cons, not_or] at absent
      rw [find?, if_neg (Ne.symm absent.1), ih absent.2]

/-- The fields that are read have the names that are declared, but for those passed over. -/
theorem Field.names_of_parseMembers {schema : String} {members : List (String × Json)}
    {fields : List (String × Field)} (read : parseMembers schema members = .ok fields) :
    fields.map Prod.fst =
      (members.map Prod.fst).filter fun name => name ≠ modelNameMarker ∧ name ≠ idField := by
  induction members generalizing fields with
  | nil =>
      cases read
      rfl
  | cons member rest ih =>
      obtain ⟨name, raw⟩ := member
      rw [parseMembers] at read
      by_cases passed : name = modelNameMarker || name = idField
      · rw [if_pos passed] at read
        rw [ih read, List.map_cons, List.filter_cons_of_neg]
        simpa [← not_or] using passed
      · rw [if_neg passed] at read
        cases first : parse schema name raw with
        | error error => simp [first] at read
        | ok field =>
            rw [first] at read
            obtain ⟨more, others, rfl⟩ := map_eq_ok_iff.mp read
            rw [List.map_cons, ih others, List.map_cons, List.filter_cons_of_pos]
            simpa [not_or] using passed

/-- The models of settled definitions are named. -/
theorem Definition.Settled.named {definition : Definition} (settled : definition.Settled)
    {schema : Schema} (made : Registry.define definition = .ok schema) : schema.Named := by
  obtain ⟨fields, declared, -, rfl⟩ := Registry.define_eq_ok_iff.mp made
  unfold Declares Field.parseAll at declared
  cases shape : definition.fields with
  | obj members =>
      rw [shape] at declared
      have names := Field.names_of_parseMembers declared
      refine ⟨?_, ?_⟩
      · rw [names]
        exact (settled members shape).filter _
      · rw [names, List.mem_filter]
        simp
  | _ => simp [shape] at declared

namespace Registry

/-- A model that is registered is that of a definition. -/
theorem exists_define_of_get {definitions : List Definition} {registry : Registry}
    (built : build definitions = .ok registry) {name : String} {schema : Schema}
    (known : registry.get name = .ok schema) :
    ∃ definition ∈ definitions, definition.name = name ∧ define definition = .ok schema := by
  obtain ⟨distinct, made, -⟩ := build_eq_ok_iff.mp built
  unfold get at known
  split at known
  · rename_i found
    cases known
    exact (find?_of_define distinct made).mp found
  · cases known

/-- The models of a set that is built are named. -/
theorem named_of_get {definitions : List Definition} {registry : Registry}
    (built : build definitions = .ok registry)
    (settled : ∀ definition ∈ definitions, definition.Settled) {name : String} {schema : Schema}
    (known : registry.get name = .ok schema) : schema.Named := by
  obtain ⟨definition, listed, -, defined⟩ := exists_define_of_get built known
  exact (settled definition listed).named defined

/-- The relations of a model have the names of its relation fields. -/
theorem relationNames_of_get {definitions : List Definition} {registry : Registry}
    (built : build definitions = .ok registry) {name : String} {schema : Schema}
    (known : registry.get name = .ok schema) :
    (registry.relationsOf name).map Relation.field = schema.relationFields.map Prod.fst := by
  obtain ⟨definition, listed, rfl, -⟩ := exists_define_of_get built known
  obtain ⟨fields, -, registered, related⟩ := registered_of_build built listed
  cases known.symm.trans registered
  exact (map_eq_map_iff_forall₂.mpr (related.imp fun _ _ relates => relates.field.symm)).symm

/-- A model that has relations is registered, and its relations have the names of fields: they
are distinct, and none is that of the key. -/
theorem relationNames_of_build {definitions : List Definition} {registry : Registry}
    (built : build definitions = .ok registry)
    (settled : ∀ definition ∈ definitions, definition.Settled) {name : String}
    {relation : Relation} (member : relation ∈ registry.relationsOf name) :
    (∃ schema, registry.get name = .ok schema) ∧
      ((registry.relationsOf name).map Relation.field).Nodup ∧
      idField ∉ (registry.relationsOf name).map Relation.field := by
  cases found : find? registry.schemas name with
  | none =>
      rw [relationsOf_of_build built, found] at member
      cases member
  | some schema =>
      have known : registry.get name = .ok schema := by rw [get, found]
      have named := named_of_get built settled known
      have among : (schema.relationFields.map Prod.fst).Sublist (schema.fields.map Prod.fst) :=
        List.filter_sublist.map Prod.fst
      refine ⟨⟨schema, known⟩, ?_⟩
      rw [relationNames_of_get built known]
      exact ⟨named.distinct.sublist among, fun inside => named.keyless (among.subset inside)⟩

end Registry

end RecordStore
