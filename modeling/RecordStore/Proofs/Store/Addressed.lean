/-
Module: RecordStore.Proofs.Store.Addressed
Purpose: The relation fields that a patch addresses.  Whether a key addresses a field is judged by
  its text, before the key is read as a path: the name of the field stands in front, and behind it
  nothing, a dot or a bracket.  So does the name that a path starts from, whether the key is the
  name of a field or follows the grammar; and where no name holds dots or brackets no other name
  stands there.  A relation field that is addressed is shown as it is resolved in its turn.
Main exports: touches_iff, Schema.root_of_path, Schema.touches_root,
  Schema.Unpunctuated.path_of_touches, Backend.ShownInTurn, Backend.shownInTurn_of_populatePatched,
  addressed_relations_populated
-/
import RecordStore.Document.Store
import RecordStore.Proofs.Path.Reading
import RecordStore.Proofs.Schema.Names
import RecordStore.Proofs.Store.Decidable
import RecordStore.Proofs.Store.Populating

namespace RecordStore

open PathGrammar

/-! ### The beginning of a key -/

/-- A key touches a field whose name stands in front of it as a name stands in a path. -/
theorem touches_iff {field key : String} :
    touches field key = true ↔ ∃ tail, key.toList = field.toList ++ tail ∧ EndsName tail := by
  unfold touches
  constructor
  · intro touched
    rcases Bool.or_eq_true_iff.mp touched with same | longer
    · exact ⟨[], by simp [beq_iff_eq.mp same], nofun⟩
    · obtain ⟨inFront, behind⟩ := Bool.and_eq_true_iff.mp longer
      obtain ⟨tail, split⟩ := List.isPrefixOf_iff_prefix.mp inFront
      refine ⟨tail, split.symm, fun c first => ?_⟩
      rw [← split, ← String.length_toList, List.drop_left] at behind
      cases tail with
      | nil => cases first
      | cons d rest =>
          obtain rfl : d = c := by simpa using first
          simpa using behind
  · rintro ⟨tail, split, ends⟩
    cases tail with
    | nil =>
        rw [List.append_nil] at split
        simp [String.toList_inj.mp split]
    | cons c rest =>
        have stops := ends c rfl
        rw [split, ← String.length_toList, List.drop_left]
        simp [stops]

namespace Schema

variable {schema : Schema} {field key : String} {path : FieldPath}

/-- A key is the name that its path starts from, with what can stand behind a name; the name is
that of a field, or one of the grammar. -/
theorem root_of_path (read : schema.path key = .ok path) :
    ∃ tail, key.toList = path.root.toList ++ tail ∧ EndsName tail ∧
      (schema.hasField path.root = true ∨ IsName path.root.toList) := by
  unfold Schema.path FieldPath.parseWith at read
  split at read
  · rename_i existing
    cases read
    exact ⟨[], (List.append_nil _).symm, nofun, .inl (Bool.and_eq_true_iff.mp existing).2⟩
  · obtain ⟨name, tail, rest, named, split, ends, starts⟩ :=
      (FieldPath.pathText_of_parse read).root
    have root : path.root = String.ofList name := by
      rw [FieldPath.root, starts]
      rfl
    rw [root, String.toList_ofList]
    exact ⟨tail, split, ends, .inr named⟩

/-- A key that is read as a path touches the field that the path starts from. -/
theorem touches_root (read : schema.path key = .ok path) : touches path.root key = true := by
  obtain ⟨tail, split, ends, -⟩ := root_of_path read
  exact touches_iff.mpr ⟨tail, split, ends⟩

/-- No field has a dot or a bracket in its name. -/
def Unpunctuated (schema : Schema) : Prop :=
  ∀ entry ∈ schema.fields, ∀ c ∈ entry.1.toList, c ≠ '.' ∧ c ≠ '[' ∧ c ≠ ']'

namespace Unpunctuated

variable (plain : schema.Unpunctuated)
include plain

/-- Nor has a bookkeeping field. -/
theorem of_hasField {name : String} (known : schema.hasField name = true) :
    ∀ c ∈ name.toList, c ≠ '.' ∧ c ≠ '[' := by
  rcases Bool.or_eq_true_iff.mp known with declared | implicit
  · have listed : name ∈ schema.fields.map Prod.fst := by
      by_contra absent
      rw [field?, Field.find?_eq_none absent] at declared
      cases declared
    obtain ⟨entry, member, rfl⟩ := List.mem_map.mp listed
    exact fun c inside => ⟨(plain entry member c inside).1, (plain entry member c inside).2.1⟩
  · have bookkeeping : name = idField ∨ name = createdAtField ∨ name = updatedAtField := by
      unfold implicitType? at implicit
      by_cases key : name = idField
      · exact .inl key
      · rw [if_neg key] at implicit
        split at implicit
        · rename_i timed
          exact .inr (by simpa using (Bool.and_eq_true_iff.mp timed).2)
        · cases implicit
    rcases bookkeeping with rfl | rfl | rfl <;> simp [idField, createdAtField, updatedAtField]

/-- A key that touches a field is read as a path that starts from it, or as none. -/
theorem path_of_touches (declared : field ∈ schema.fields.map Prod.fst)
    (touched : touches field key = true) :
    (∃ path, schema.path key = .ok path ∧ path.root = field) ∨
      ∃ error, schema.path key = .error error := by
  cases read : schema.path key with
  | error error => exact .inr ⟨error, rfl⟩
  | ok path =>
      refine .inl ⟨path, rfl, ?_⟩
      obtain ⟨tail, split, ends, known⟩ := root_of_path read
      obtain ⟨rest, split', ends'⟩ := touches_iff.mp touched
      have free : ∀ c ∈ field.toList, c ≠ '.' ∧ c ≠ '[' := by
        obtain ⟨entry, listed, rfl⟩ := List.mem_map.mp declared
        exact fun c inside => ⟨(plain entry listed c inside).1, (plain entry listed c inside).2.1⟩
      have rootFree : ∀ c ∈ path.root.toList, c ≠ '.' ∧ c ≠ '[' := by
        rcases known with existing | named
        · exact plain.of_hasField existing
        · exact fun c inside => ⟨(named.2 c inside).1, (named.2 c inside).2.1⟩
      refine String.toList_inj.mp ?_
      rw [← EndsName.takeWhile_eq rootFree ends, ← split, split', EndsName.takeWhile_eq free ends']

end Unpunctuated

end Schema

/-! ### Resolving what is addressed -/

namespace Backend

open RecordStore.Action (perform_bind_ok perform_bind_eq_ok)

variable {δ : Type} {backend : Backend δ} {setting : Setting} {session after : Session δ}

/-- The relations whose fields a patch addresses. -/
def addressed (relations : List Relation) (patch : Object) : List Relation :=
  relations.filter fun relation => patch.keys.any (touches relation.field)

/-- Among some relations that are resolved in a record one after the other, one is shown as it is
resolved in its turn: in the record as it was given, and in the session that those before it
leave. -/
def ShownInTurn (backend : Backend δ) (setting : Setting) (session : Session δ)
    (relations : List Relation) (record answer : Object) (relation : Relation) : Prop :=
  ∃ front back between start value last, relations = front ++ relation :: back ∧
    (front.foldlM backend.populateField [record]).perform setting session = (.ok between, start) ∧
    (backend.resolve relation record).perform setting start = (.ok value, last) ∧
    answer.get? relation.field = some value

/-- Resolving reads nothing of a record but the field of the relation and the key. -/
theorem resolve_congr {relation : Relation} {record other : Object}
    (field : other.get? relation.field = record.get? relation.field)
    (key : other.get? idField = record.get? idField) :
    backend.resolve relation other = backend.resolve relation record := by
  unfold resolve
  rw [field, key]

/-- The choice of the fields that are addressed is that of the relations. -/
theorem filter_includes_addressed (relations : List Relation) (patch : Object) :
    (relations.filter fun relation =>
      (Extend.fields ((addressed relations patch).map Relation.field)).includes relation.field) =
      addressed relations patch := by
  refine List.filter_congr fun relation member => ?_
  rw [Bool.eq_iff_iff, Extend.includes, List.contains_iff_mem, List.mem_map]
  constructor
  · rintro ⟨other, kept, same⟩
    rw [← same]
    exact (List.mem_filter.mp kept).2
  · exact fun touched => ⟨relation, List.mem_filter.mpr ⟨member, touched⟩, rfl⟩

/-- The relations that are addressed are resolved one after the other. -/
theorem addressed_of_populatePatched {name : String} {patch record answer : Object}
    (done : (backend.populatePatched name patch record).perform setting session =
      (.ok answer, after)) :
    ((addressed (setting.registry.relationsOf name) patch).foldlM backend.populateField
      [record]).perform setting session = (.ok [answer], after) := by
  unfold populatePatched at done
  rw [perform_bind_ok _ _ (Action.perform_read setting session)] at done
  obtain ⟨populated, _, resolved, rest⟩ := (perform_bind_eq_ok _ _).mp done
  obtain ⟨rfl, rfl⟩ := (Action.perform_pure_eq_ok _ _).mp rest
  obtain ⟨first, _, -, none_left, rfl⟩ := List.forall₂_cons_left_iff.mp (populate_eq_ok resolved)
  obtain rfl := List.forall₂_nil_left_iff.mp none_left
  unfold Backend.populate at resolved
  rw [perform_bind_ok _ _ (Action.perform_read setting session)] at resolved
  rw [← filter_includes_addressed]
  exact resolved

/-- Every relation that is addressed is shown as it is resolved in its turn. -/
theorem shownInTurn_of_populatePatched {name : String} {patch record answer : Object}
    (names : ((setting.registry.relationsOf name).map Relation.field).Nodup)
    (keyless : idField ∉ (setting.registry.relationsOf name).map Relation.field)
    {relation : Relation} (member : relation ∈ setting.registry.relationsOf name)
    (touched : patch.keys.any (touches relation.field))
    (done : (backend.populatePatched name patch record).perform setting session =
      (.ok answer, after)) :
    backend.ShownInTurn setting session (addressed (setting.registry.relationsOf name) patch) record
      answer relation := by
  have included : (Extend.fields ((addressed (setting.registry.relationsOf name) patch).map
      Relation.field)).includes relation.field := by
    rw [Extend.includes, List.contains_iff_mem]
    exact List.mem_map_of_mem (List.mem_filter.mpr ⟨member, touched⟩)
  obtain ⟨front, back, cut, known, fresh, untouched⟩ := exists_cut names member included
  rw [filter_includes_addressed] at cut
  have folded := addressed_of_populatePatched done
  rw [cut, List.foldlM_append] at folded
  simp only [List.foldlM_cons, perform_bind_eq_ok] at folded
  obtain ⟨between, start, before, shown, _, here, behind⟩ := folded
  -- what stands before the relation replaces neither its field nor the key
  obtain ⟨middle, _, agrees, none_left, rfl⟩ :=
    List.forall₂_cons_left_iff.mp (populateEach_eq_ok before)
  obtain rfl := List.forall₂_nil_left_iff.mp none_left
  have same : backend.resolve relation middle = backend.resolve relation record :=
    resolve_congr (agrees _ fresh) (agrees _ fun inside => keyless (known _ inside))
  unfold populateField at here
  simp only [List.mapM_cons, List.mapM_nil, perform_bind_eq_ok, Action.perform_pure_eq_ok] at here
  obtain ⟨_, _, ⟨value, _, resolved, rfl, rfl⟩, _, _, ⟨rfl, rfl⟩, rfl, rfl⟩ := here
  obtain ⟨_, _, kept, -, ⟨⟩⟩ := List.forall₂_cons_left_iff.mp (populateEach_eq_ok behind)
  refine ⟨front, back, [middle], start, value, _, cut, before, same ▸ resolved, ?_⟩
  exact (kept _ untouched).trans (Object.get?_insert_self _ _ _)

end Backend

/-- The test on the text of a key finds every relation field that the patch addresses, whatever
fields the model has: a relation field that the path of some key starts from is touched, and so the
answer of every store shows it as it is resolved in its turn.  Where no name of the model holds
dots or brackets it finds no other: if a relation field is touched, the path of some key starts
from it, or some key is no path. -/
theorem addressed_relations_populated (schema : Schema) (patch : Object) {entry : String × Field}
    (relational : entry ∈ schema.relationFields) :
    ((∃ key ∈ patch.keys, ∃ path, schema.path key = .ok path ∧ path.root = entry.1) →
      patch.keys.any (touches entry.1) = true ∧
      ∀ {δ : Type} (backend : Backend δ) {definitions : List Definition} {setting : Setting}
        {name : String} {session after : Session δ} {record answer : Object},
        Registry.build definitions = .ok setting.registry →
        (∀ definition ∈ definitions, definition.Settled) →
        setting.registry.get name = .ok schema →
        (backend.populatePatched name patch record).perform setting session =
          (.ok answer, after) →
        ∃ relation ∈ setting.registry.relationsOf name, relation.field = entry.1 ∧
          backend.ShownInTurn setting session
            (Backend.addressed (setting.registry.relationsOf name) patch) record answer
            relation) ∧
    (schema.Unpunctuated → patch.keys.any (touches entry.1) = true →
      ∃ key ∈ patch.keys, (∃ path, schema.path key = .ok path ∧ path.root = entry.1) ∨
        ∃ error, schema.path key = .error error) := by
  constructor
  · rintro ⟨key, listed, path, read, starts⟩
    have touched : patch.keys.any (touches entry.1) = true :=
      List.any_eq_true.mpr ⟨key, listed, starts ▸ Schema.touches_root read⟩
    refine ⟨touched, ?_⟩
    intro δ backend definitions setting name session after record answer built settled known done
    have named : entry.1 ∈ (setting.registry.relationsOf name).map Relation.field := by
      rw [Registry.relationNames_of_get built known]
      exact List.mem_map_of_mem relational
    obtain ⟨relation, member, same⟩ := List.mem_map.mp named
    obtain ⟨-, distinct, keyless⟩ := Registry.relationNames_of_build built settled member
    exact ⟨relation, member, same, Backend.shownInTurn_of_populatePatched distinct keyless member
      (same ▸ touched) done⟩
  · intro plain touched
    obtain ⟨key, listed, here⟩ := List.any_eq_true.mp touched
    have declared : entry.1 ∈ schema.fields.map Prod.fst :=
      List.mem_map_of_mem (List.mem_filter.mp relational).1
    exact ⟨key, listed, plain.path_of_touches declared here⟩

/-- A user with a field `organ` and a field `organs`: a patch at `organs[0]` touches the second
and not the first, and the answer of a document store shows the organ in it. -/
theorem addressed_relations_populated_prefix :
    let reference : Json := .obj [("type", .str "Id"), ("ref", .str "organ")]
    let user : Definition := ⟨"user", .obj [("organ", reference), ("organs", .arr [reference])],
      false, Hooks.none⟩
    let organ : Definition := ⟨"organ", .obj [("name", .str "String")], false, Hooks.none⟩
    let one : Field := .scalar .id { Traits.plain with target := some "organ" }
    let many : Field := .scalar .id { Traits.plain with target := some "organ", isList := true }
    let model : Schema := ⟨"user", [("organ", one), ("organs", many)], false, Hooks.none⟩
    let registry : Registry := ⟨[model, namedOrgan],
      [("user", [⟨"organ", "organ", false, .owning⟩, ⟨"organs", "organ", true, .owning⟩]),
        ("organ", [])]⟩
    let setting := Setting.still registry
    let heart : Object := [("id", .str "1"), ("name", .str "heart")]
    let session : Session Document.Trees :=
      Session.start [("organ", [("1", Json.text (.obj heart))])]
    let patch : Object := [("organs[0]", .str "1")]
    let record : Object := [("id", .str "f"), ("organ", .str "1"), ("organs", .arr [.str "1"])]
    let answer : Object :=
      [("id", .str "f"), ("organ", .str "1"), ("organs", .arr [.obj heart])]
    Registry.build [user, organ] = .ok registry ∧
      patch.keys.any (touches "organs") = true ∧ patch.keys.any (touches "organ") = false ∧
      (∃ after, (Document.backend.populatePatched "user" patch record).perform setting session =
        (.ok answer, after)) ∧
      (∃ relation ∈ registry.relationsOf "user", relation.field = "organs" ∧
        Document.backend.ShownInTurn setting session
          (Backend.addressed (registry.relationsOf "user") patch) record answer relation) ∧
      ∃ key ∈ patch.keys, (∃ path, model.path key = .ok path ∧ path.root = "organs") ∨
        ∃ error, model.path key = .error error := by
  intro reference user organ one many model registry setting heart session patch record answer
  have built : Registry.build [user, organ] = .ok setting.registry := rfl
  have settled : ∀ definition ∈ [user, organ], definition.Settled := by decide
  have plain : model.Unpunctuated := by
    simp [Schema.Unpunctuated, model]
  have answered : ∃ after, (Document.backend.populatePatched "user" patch record).perform setting
      session = (.ok answer, after) := Action.exists_perform_eq (by decide +kernel)
  have relational : ("organs", many) ∈ model.relationFields :=
    List.mem_cons_of_mem _ List.mem_cons_self
  obtain ⟨complete, sound⟩ := addressed_relations_populated model patch relational
  obtain ⟨touched, shows⟩ := complete ⟨"organs[0]", List.mem_cons_self,
    ⟨"organs[0]", [.name "organs", .index 0], false⟩, rfl, rfl⟩
  refine ⟨built, touched, by decide, answered, ?_, sound plain touched⟩
  obtain ⟨_, done⟩ := answered
  exact shows Document.backend built settled rfl done

end RecordStore
