/-
Module: RecordStore.Proofs.Schema.Addressing
Purpose: Declared fields can be addressed.  A chain of keys that leads through nested records of
  a declaration is written as a path, with the first element of a list picked behind the key of
  the list.  If the declaration is read, the path resolves to what is declared at the end of the
  chain.  A key that no path can name, and a key that reading passes over, are out of reach.
Main exports: Field.DeclaresType, Field.Leads, Field.walk?_of_leads, nested_field_resolves,
  declared_keys_out_of_reach
-/
import RecordStore.Proofs.Answers
import RecordStore.Proofs.Json.Members
import RecordStore.Proofs.Path.Spelling
import RecordStore.Schema.Descriptor
import RecordStore.Schema.Resolution

namespace RecordStore

namespace Field

/-! ### Declarations -/

/-- The type that a declaration names: by a tag, by the tag of a typed object, or by being a
record; a list names the type of its elements. -/
inductive DeclaresType : Json → FieldType → Prop where
  | tag {tag : String} {type : FieldType} (named : FieldType.ofTag? tag = some type) :
      DeclaresType (.str tag) type
  | typed {members : Object} {type : FieldType} (tagged : tagOf? members = some type) :
      DeclaresType (.obj members) type
  | record {members : Object} (untagged : tagOf? members = none) :
      DeclaresType (.obj members) .object
  | list {item : Json} {type : FieldType} (each : DeclaresType item type) :
      DeclaresType (.arr [item]) type

/-- Keys that lead from the members of a record to a declaration, as the steps of a path: into a
nested record by its key, and into a list of nested records by its key and its first element. -/
inductive Leads : Object → List WrittenStep → Json → Prop where
  | field {members : Object} {key : String} {declared : Json}
      (found : members.get? key = some declared) : Leads members [⟨key, none⟩] declared
  | record {members inner : Object} {key : String} {steps : List WrittenStep} {declared : Json}
      (found : members.get? key = some (.obj inner)) (untagged : tagOf? inner = none)
      (further : Leads inner steps declared) : Leads members (⟨key, none⟩ :: steps) declared
  | element {members inner : Object} {key : String} {steps : List WrittenStep} {declared : Json}
      (found : members.get? key = some (.arr [.obj inner])) (untagged : tagOf? inner = none)
      (further : Leads inner steps declared) :
      Leads members (⟨key, some (.index 0)⟩ :: steps) declared

theorem Leads.ne_nil {members : Object} {steps : List WrittenStep} {declared : Json}
    (leads : Leads members steps declared) : steps ≠ [] := by
  cases leads <;> exact List.cons_ne_nil _ _

/-! ### What is read of a declaration -/

@[simp] theorem type_asList (field : Field) : field.asList.type = field.type := by
  cases field <;> rfl

/-- A list declaration holds one declaration, and is read as a list of what that declares. -/
theorem parse_list_eq_ok {schema name : String} {items : List Json} {field : Field}
    (read : parse schema name (.arr items) = .ok field) :
    ∃ item inner, items = [item] ∧ parse schema name item = .ok inner ∧ field = inner.asList := by
  rw [parse] at read
  match items with
  | [] => cases read
  | _ :: _ :: _ => cases read
  | [item] =>
      rw [parseList] at read
      split at read
      case isTrue => cases read
      case isFalse =>
        cases each : parse schema name item with
        | error error =>
            rw [each] at read
            cases read
        | ok inner =>
            rw [each] at read
            dsimp only at read
            split at read
            case isTrue => cases read
            case isFalse =>
              cases read
              exact ⟨item, inner, rfl, each, rfl⟩

/-- An object without a type tag is read as a nested record. -/
theorem parse_record_eq_ok {schema name : String} {members : Object} {field : Field}
    (untagged : tagOf? members = none) (read : parse schema name (.obj members) = .ok field) :
    ∃ fields, parseMembers (schema ++ "." ++ name) members = .ok fields ∧
      field = .nested (schema ++ "." ++ name) fields false := by
  rw [parse, untagged] at read
  obtain ⟨fields, inside, rfl⟩ := map_eq_ok_iff.mp read
  exact ⟨fields, inside, rfl⟩

theorem exists_scalar_of_located {schema name : String} {type : FieldType} {field : Field}
    {answer : Except DescriptorFault Traits}
    (read : located schema name (answer.map (.scalar type ·)) = .ok field) :
    ∃ traits, field = .scalar type traits := by
  cases answer with
  | error fault => cases read
  | ok traits =>
      cases read
      exact ⟨traits, rfl⟩

/-- A declaration is read as a field of the type that it names. -/
theorem declaresType_of_parse {schema name : String} : ∀ {declared : Json} {field : Field},
    parse schema name declared = .ok field → DeclaresType declared field.type
  | .str tag, field, read => by
      rw [parse] at read
      cases named : FieldType.ofTag? tag with
      | none =>
          rw [named] at read
          cases read
      | some type =>
          rw [named] at read
          cases read
          exact .tag named
  | .obj members, field, read => by
      cases tagged : tagOf? members with
      | none =>
          obtain ⟨fields, -, rfl⟩ := parse_record_eq_ok tagged read
          exact .record tagged
      | some type =>
          rw [parse, tagged] at read
          obtain ⟨traits, rfl⟩ := exists_scalar_of_located read
          exact .typed tagged
  | .arr items, field, read => by
      obtain ⟨item, inner, rfl, each, rfl⟩ := parse_list_eq_ok read
      rw [type_asList]
      exact .list (declaresType_of_parse each)
  | .null, field, read => by
      rw [parse] at read
      cases read
  | .bool _, field, read => by
      rw [parse] at read
      cases read
  | .num _, field, read => by
      rw [parse] at read
      cases read

/-- What is declared under a key that is not passed over is found among the fields. -/
theorem find?_of_parseMembers {schema : String} {members : Object} {fields : List (String × Field)}
    (read : parseMembers schema members = .ok fields) {key : String} {declared : Json}
    (found : members.get? key = some declared) (unmarked : key ≠ modelNameMarker)
    (keyless : key ≠ idField) :
    ∃ field, find? fields key = some field ∧ parse schema key declared = .ok field := by
  induction members generalizing fields with
  | nil => cases found
  | cons member rest ih =>
      obtain ⟨name, raw⟩ := member
      rw [parseMembers] at read
      by_cases here : name = key
      · subst here
        rw [Object.get?_cons_self] at found
        cases found
        rw [if_neg (by simp [unmarked, keyless])] at read
        cases first : parse schema name declared with
        | error error =>
            rw [first] at read
            cases read
        | ok field =>
            rw [first] at read
            obtain ⟨more, -, rfl⟩ := map_eq_ok_iff.mp read
            exact ⟨field, if_pos rfl, rfl⟩
      · rw [Object.get?_cons_of_ne here] at found
        split at read
        case isTrue => exact ih read found
        case isFalse =>
          cases first : parse schema name raw with
          | error error =>
              rw [first] at read
              cases read
          | ok other =>
              rw [first] at read
              obtain ⟨more, others, rfl⟩ := map_eq_ok_iff.mp read
              obtain ⟨field, later, parsed⟩ := ih others found
              exact ⟨field, (if_neg here).trans later, parsed⟩

/-! ### The walk along a chain -/

/-- A key that is not passed over when a declaration is read. -/
def IsKept (key : String) : Prop := key ≠ modelNameMarker ∧ key ≠ idField

instance : DecidablePred IsKept := fun _ => inferInstanceAs (Decidable (_ ∧ _))

/-- Along a chain of kept keys the walk from the first field ends at the field that is read of
the declaration at the end. -/
theorem walk?_of_leads {members : Object} {steps : List WrittenStep} {declared : Json}
    (leads : Leads members steps declared) (kept : ∀ step ∈ steps, IsKept step.name)
    {schema : String} {fields : List (String × Field)}
    (read : parseMembers schema members = .ok fields) :
    ∃ key rest field last, steps.flatMap WrittenStep.segments = .name key :: rest ∧
      find? fields key = some field ∧
      (TypeCursor.field field).walk? rest = some (.field last) ∧
      ∃ within name, parse within name declared = .ok last := by
  induction leads generalizing schema fields with
  | @field members key declared found =>
      obtain ⟨unmarked, keyless⟩ := kept _ List.mem_cons_self
      obtain ⟨field, present, parsed⟩ := find?_of_parseMembers read found unmarked keyless
      exact ⟨key, [], field, field, rfl, present, rfl, schema, key, parsed⟩
  | @record members inner key steps declared found untagged _ ih =>
      obtain ⟨unmarked, keyless⟩ := kept _ List.mem_cons_self
      obtain ⟨field, present, parsed⟩ := find?_of_parseMembers read found unmarked keyless
      obtain ⟨within, inside, rfl⟩ := parse_record_eq_ok untagged parsed
      obtain ⟨next, rest, child, last, steps', below, walked, parsed'⟩ :=
        ih (fun step member => kept step (List.mem_cons_of_mem _ member)) inside
      refine ⟨key, .name next :: rest, _, last, ?_, present, ?_, parsed'⟩
      · rw [List.flatMap_cons, steps']
        rfl
      · simpa [TypeCursor.walk?, TypeCursor.step?, TypeCursor.member?, Field.isList, below]
          using walked
  | @element members inner key steps declared found untagged _ ih =>
      obtain ⟨unmarked, keyless⟩ := kept _ List.mem_cons_self
      obtain ⟨field, present, parsed⟩ := find?_of_parseMembers read found unmarked keyless
      obtain ⟨item, each, same, parsed, rfl⟩ := parse_list_eq_ok parsed
      obtain rfl := List.singleton_inj.mp same
      obtain ⟨within, inside, rfl⟩ := parse_record_eq_ok untagged parsed
      obtain ⟨next, rest, child, last, steps', below, walked, parsed'⟩ :=
        ih (fun step member => kept step (List.mem_cons_of_mem _ member)) inside
      refine ⟨key, .index 0 :: .name next :: rest, _, last, ?_, present, ?_, parsed'⟩
      · rw [List.flatMap_cons, steps']
        rfl
      · simpa [TypeCursor.walk?, TypeCursor.step?, TypeCursor.member?, Field.isList, Field.asList,
          below] using walked

/-- The first element of a list has a position, so what stands in a chain can be written. -/
theorem Leads.writable {members : Object} {steps : List WrittenStep} {declared : Json}
    (leads : Leads members steps declared)
    (named : ∀ step ∈ steps, PathGrammar.IsName step.name.toList) :
    ∀ step ∈ steps, step.Writable := by
  induction leads with
  | field found =>
      intro step member
      refine ⟨named step member, ?_⟩
      obtain rfl := List.mem_singleton.mp member
      rintro _ ⟨⟩
  | record found untagged _ ih =>
      refine List.forall_mem_cons.mpr ⟨⟨named _ List.mem_cons_self, ?_⟩,
        ih fun step member => named step (List.mem_cons_of_mem _ member)⟩
      rintro _ ⟨⟩
  | element found untagged _ ih =>
      refine List.forall_mem_cons.mpr ⟨⟨named _ List.mem_cons_self, ?_⟩,
        ih fun step member => named step (List.mem_cons_of_mem _ member)⟩
      rintro _ ⟨⟩
      decide

end Field

namespace FieldPath

/-- The path of the steps that are written. -/
def ofSteps (steps : List WrittenStep) : FieldPath :=
  ⟨written steps false, steps.flatMap WrittenStep.segments, false⟩

/-- A path of several steps is no name without a dot. -/
theorem ofSteps_raw_ne {first second : WrittenStep} {rest : List WrittenStep} {name : String}
    (plain : '.' ∉ name.toList) : (ofSteps (first :: second :: rest)).raw ≠ name := by
  rintro rfl
  simp [ofSteps, written, List.intercalate_cons_cons] at plain

end FieldPath

/-- The path of several steps does not stand for a bookkeeping field. -/
theorem Schema.implicitType?_ofSteps (schema : Schema) (first second : WrittenStep)
    (rest : List WrittenStep) :
    schema.implicitType? (FieldPath.ofSteps (first :: second :: rest)).raw = none := by
  have apart {name : String} (plain : '.' ∉ name.toList) :
      (FieldPath.ofSteps (first :: second :: rest)).raw ≠ name := FieldPath.ofSteps_raw_ne plain
  have keyless := @apart idField (by decide)
  have created := @apart createdAtField (by decide)
  have updated := @apart updatedAtField (by decide)
  simp [Schema.implicitType?, keyless, created, updated]

/-- Every declared field can be addressed.  A chain of keys through nested records, directly or in
a list, is written as a path, if no key is empty, holds a dot or a bracket, or is passed over when
the declaration is read; the path resolves to the type at the end of the chain, and to a list
where a list is declared.  The model reads the text as this path, unless one of its fields has
the whole text for a name. -/
theorem nested_field_resolves {name : String} {members : Object} {fields : List (String × Field)}
    {steps : List WrittenStep} {declared : Json}
    (read : Field.parseAll name (.obj members) = .ok fields)
    (leads : Field.Leads members steps declared)
    (addressable : ∀ step ∈ steps, PathGrammar.IsName step.name.toList ∧ Field.IsKept step.name)
    (timestamps : Bool) (hooks : Hooks) :
    let schema : Schema := ⟨name, fields, timestamps, hooks⟩
    let path := FieldPath.ofSteps steps
    FieldPath.parse path.raw = .ok path ∧
      (∃ type field, Field.DeclaresType declared type ∧
        (∃ within key, Field.parse within key declared = .ok field) ∧
        schema.resolve? path = some ⟨type, field.isList⟩) ∧
      (steps.length = 1 ∨ schema.field? path.raw = none → schema.path path.raw = .ok path) := by
  intro schema path
  have writable := leads.writable fun step member => (addressable step member).1
  have parsed : FieldPath.parse path.raw = .ok path :=
    FieldPath.parse_of_pathText (FieldPath.pathText_written leads.ne_nil writable false)
  obtain ⟨key, rest, field, last, segments, present, walked, within, under, described⟩ :=
    Field.walk?_of_leads leads (fun step member => (addressable step member).2) read
  refine ⟨parsed, ⟨last.type, last, Field.declaresType_of_parse described,
    ⟨within, under, described⟩, ?_⟩, ?_⟩
  · have steps' : path.segments = .name key :: rest := segments
    have top : schema.field? key = some field := present
    simp only [Schema.resolve?, steps', Schema.cursor?, top, Option.bind_some, walked,
      Option.map_some, TypeCursor.resolved]
    simp [path, FieldPath.ofSteps]
  · intro plain
    unfold Schema.path FieldPath.parseWith
    split
    case isFalse => exact parsed
    case isTrue taken =>
      rcases steps with _ | ⟨first, _ | ⟨second, others⟩⟩
      · exact absurd rfl leads.ne_nil
      · -- a single step is a name, which stands for the same place
        cases leads with
        | field found =>
            simp [path, FieldPath.ofSteps, FieldPath.field, FieldPath.written, WrittenStep.text,
              WrittenStep.segments, List.intercalate]
        | record _ _ further => exact absurd rfl further.ne_nil
        | element _ _ further => exact absurd rfl further.ne_nil
      · have bookkeeping := schema.implicitType?_ofSteps first second others
        have absent := plain.resolve_left (by simp)
        simp [Schema.hasField, path, absent, bookkeeping] at taken

/-- A list of texts in each of a list of nested records. -/
theorem nested_field_resolves_tags :
    let members : Object := [("name", .str "String"), ("pets", .arr [.obj [("name", .str "String"),
      ("tags", .arr [.str "String"])]])]
    let steps : List WrittenStep := [⟨"pets", some (.index 0)⟩, ⟨"tags", none⟩]
    let path : FieldPath := ⟨"pets[0].tags", [.name "pets", .index 0, .name "tags"], false⟩
    ∃ fields, Field.parseAll "user" (.obj members) = .ok fields ∧
      Field.Leads members steps (.arr [.str "String"]) ∧
      (∀ step ∈ steps, PathGrammar.IsName step.name.toList ∧ Field.IsKept step.name) ∧
      FieldPath.parse "pets[0].tags" = .ok path ∧
      (Schema.mk "user" fields true Hooks.none).path "pets[0].tags" = .ok path ∧
      (Schema.mk "user" fields true Hooks.none).resolve? path = some ⟨.string, true⟩ := by
  intro members steps path
  have read : ∃ fields, Field.parseAll "user" (.obj members) = .ok fields := ⟨_, rfl⟩
  obtain ⟨fields, read⟩ := read
  have leads : Field.Leads members steps (.arr [.str "String"]) := .element rfl rfl (.field rfl)
  have addressable : ∀ step ∈ steps,
      PathGrammar.IsName step.name.toList ∧ Field.IsKept step.name := by decide
  have written : FieldPath.ofSteps steps = path := rfl
  obtain ⟨parsed, ⟨type, field, declares, ⟨within, key, last⟩, resolves⟩, taken⟩ :=
    nested_field_resolves read leads addressable true Hooks.none
  rw [written] at parsed taken resolves
  have absent : (Schema.mk "user" fields true Hooks.none).field? path.raw = none := by
    cases read
    rfl
  cases declares with
  | list each =>
      cases each with
      | tag named =>
          cases named
          cases last
          exact ⟨fields, read, leads, addressable, parsed, taken (.inr absent), resolves⟩

/-- The empty key is a key, but no path; and `id` is passed over in nested records too, where no
bookkeeping field takes its place. -/
theorem declared_keys_out_of_reach :
    let members : Object := [("address", .obj [("id", .str "String"), ("city", .str "String")]),
      ("", .str "String")]
    let path : FieldPath := ⟨"address.id", [.name "address", .name "id"], false⟩
    ∃ fields, Field.parseAll "user" (.obj members) = .ok fields ∧
      Field.Leads members [⟨"", none⟩] (.str "String") ∧
      FieldPath.parse "" = .error (.parse "" .empty) ∧
      Field.Leads members [⟨"address", none⟩, ⟨"id", none⟩] (.str "String") ∧
      FieldPath.parse "address.id" = .ok path ∧
      (Schema.mk "user" fields false Hooks.none).resolve? path = none :=
  ⟨_, rfl, .field rfl, rfl, .record rfl rfl (.field rfl), rfl, rfl⟩

end RecordStore
