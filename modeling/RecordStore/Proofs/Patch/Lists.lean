/-
Module: RecordStore.Proofs.Patch.Lists
Purpose: Whether list fields keep holding lists when operands are added, cleared or merged.  A
  path that goes into a list selects an element first, and an edit below an element leaves the
  list a list; a path that ends at a list is given operands of lists, as long as it is resolved to
  the list.  With a dot behind it the name of a list is resolved to the type of the elements, and
  still stands for the list: then a single value may take the place of the list.
Main exports: HoldsList, UpdateMode.rewrites, Schema.MistakesList, edit_holdsList,
  Patch.apply_listEffect, Patch.applyPair_holdsList, Patch.applyAll_keeps_lists,
  Patch.exists_applyAll_loses_list
-/
import RecordStore.Proofs.Patch.Independence

namespace RecordStore

open Json

/-- What is stored under a name is a list, `null` or nothing. -/
def HoldsList : Option Json → Prop
  | none => True
  | some .null => True
  | some (.arr _) => True
  | some _ => False

/-! ### Edits below an element -/

/-- An edit that leaves an array where it edits an element. -/
def Edit.KeepsArrays {α : Type} (edit : Edit α) : Prop :=
  ∀ items index, ∃ left, (edit (.element items index)).2 = .arr left

section Edits

variable {α : Type} {edit : Edit α} {path : FieldPath}

/-- A place in an array is one of its elements. -/
theorem element_of_placeOf {items : List Json} {last : Segment} {place : Place}
    (named : placeOf path (.arr items) last = .ok place) :
    ∃ index, place = .element items index := by
  cases last with
  | name key => cases named
  | index index =>
      simp only [placeOf] at named
      split at named <;> cases named
      exact ⟨index, rfl⟩
  | element key text =>
      simp only [placeOf] at named
      split at named <;> cases named
      exact ⟨_, rfl⟩

/-- The writing walk from an array leaves an array. -/
theorem descendTo_arr (keeps : edit.KeepsArrays) (items : List Json) (segments : List Segment) :
    ∃ left, (descendTo path edit (.arr items) segments).2 = .arr left := by
  cases segments with
  | nil => exact ⟨items, rfl⟩
  | cons segment rest =>
      cases rest with
      | nil =>
          rw [descendTo, editLast_eq]
          cases named : placeOf path (.arr items) segment with
          | error error => exact ⟨items, rfl⟩
          | ok place =>
              obtain ⟨index, rfl⟩ := element_of_placeOf named
              exact keeps items index
      | cons next more =>
          rw [descendTo_cons]
          cases enterStep path (.arr items) segment next with
          | error error => exact ⟨items, rfl⟩
          | ok reached =>
              obtain ⟨step, inner⟩ := reached
              cases step <;> exact ⟨_, rfl⟩

/-- What a name leads to in front of a selector is an array. -/
theorem exists_arr_of_enterStep {record : Object} {name : String} {next : Segment}
    (selects : next.isSelector = true) {step : Segment} {inner : Json}
    (entered : enterStep path (.obj record) (.name name) next = .ok (step, inner)) :
    step = .name name ∧ ∃ items, inner = .arr items := by
  simp only [enterStep] at entered
  split at entered
  · cases entered
  · unfold openContainer at entered
    rw [if_pos selects] at entered
    split at entered <;> cases entered
    exact ⟨rfl, _, rfl⟩

/-- An edit through a field and a selector leaves a list in the field, if it had one. -/
theorem edit_holdsList (keeps : edit.KeepsArrays) {record : Object} {name : String}
    {selector : Segment} {rest : List Segment}
    (steps : path.segments = .name name :: selector :: rest)
    (selects : selector.isSelector = true) (held : HoldsList (record.get? name)) :
    HoldsList ((record.edit path edit).2.get? name) := by
  unfold Object.edit
  cases checkWritable record path with
  | error error => exact held
  | ok done =>
      rw [steps, descendTo_cons]
      cases entered : enterStep path (.obj record) (.name name) selector with
      | error error => exact held
      | ok reached =>
          obtain ⟨step, inner⟩ := reached
          obtain ⟨rfl, items, rfl⟩ := exists_arr_of_enterStep selects entered
          obtain ⟨left, made⟩ := @descendTo_arr α edit path keeps items (selector :: rest)
          change HoldsList ((record.insert name _).get? name)
          rw [Object.get?_insert_self, made]
          trivial

end Edits

/-! ### Edits of the field itself -/

namespace Object

variable {record : Object} {path : FieldPath} {name : String}

/-- A write to a field of a record goes through. -/
theorem set_field (steps : path.segments = [.name name]) (value : Json) :
    record.set path value = (.ok (), record.insert name value) := by
  simp only [set, edit, checkWritable, steps]
  rfl

/-- A removed field is gone. -/
theorem get?_remove_field (distinct : record.keys.Nodup) (steps : path.segments = [.name name]) :
    (record.remove path).2.get? name = none := by
  have read : record.lookup? path = record.get? name := by
    simp only [lookup?, steps]
    cases record.get? name <;> rfl
  unfold remove
  rw [read]
  cases found : record.get? name with
  | none => exact found
  | some value =>
      simp only [take, edit, checkWritable, steps]
      exact get?_erase_self distinct name

end Object

/-! ### One operand -/

/-- Whether a mode writes a value of the type, and no list, where one value of the type is
addressed. -/
def UpdateMode.rewrites : UpdateMode → FieldType → Bool
  | .cover, _ => true
  | .append, type => type != .array && type != .object
  | .delete, type => type.isText || type.isNumeric
  | .merge, type => type == .object

namespace Patch

/-- The changes that leave a list where there was one: a kept or refused one, the writing of a
list, and a removal. -/
inductive ListEffect (record : Object) (path : FieldPath) : Change Unit → Prop where
  | kept : ListEffect record path (.ok (), record)
  | refused (fault : ValueFault) : ListEffect record path (refuse record path fault)
  | written (items : List Json) : ListEffect record path (cover record path (.arr items))
  | removed : ListEffect record path (removeAt record path)

section Operands

variable (record : Object) (path : FieldPath) (operand : Json)

theorem appendItems_listEffect : ListEffect record path (appendItems record path operand) := by
  unfold appendItems
  split
  · exact .written _
  · exact .written _
  · exact .refused .storedNotAnArray

theorem deleteItem_listEffect : ListEffect record path (deleteItem record path operand) := by
  unfold deleteItem
  split
  · split
    · exact .written _
    · exact .kept
  · exact .kept

/-- An operand that is added, cleared or merged writes nothing but a list, where the path is
resolved to a list or the mode does not write values of the type. -/
theorem apply_listEffect {mode : UpdateMode} (partly : mode ≠ .cover) {resolved : Resolved}
    (list : resolved.isArrayLike = true ∨ mode.rewrites resolved.type = false) :
    ListEffect record path (apply record path operand mode resolved) := by
  cases mode with
  | cover => exact absurd rfl partly
  | append =>
      cases whole : resolved.isArrayLike with
      | true =>
          simp only [apply, append, whole, if_true]
          exact appendItems_listEffect record path operand
      | false =>
          have other : resolved.type ≠ .array := by
            rintro array
            simp [Resolved.isArrayLike, array] at whole
          have object : resolved.type = .object := by
            simpa [whole, UpdateMode.rewrites, other] using list
          simp only [apply, append, whole, object, Bool.false_eq_true, if_false]
          exact .kept
  | delete =>
      simp only [apply, delete]
      split
      · exact .removed
      split
      · exact deleteItem_listEffect record path operand
      · rename_i whole
        have other : resolved.type.isText = false ∧ resolved.type.isNumeric = false := by
          simpa [whole, UpdateMode.rewrites] using list
        rw [other.1, other.2]
        exact .removed
  | merge =>
      have left : (resolved.type != .object || resolved.isList) = true := by
        rcases list with whole | kept
        · cases single : resolved.isList with
          | true => simp
          | false =>
              have array : resolved.type = .array := by
                simpa [Resolved.isArrayLike, single] using whole
              simp [array]
        · have other : resolved.type ≠ .object := by simpa [UpdateMode.rewrites] using kept
          simp [other]
      simp only [apply, merge, left, if_true]
      exact .kept

end Operands

section Fields

variable {record : Object} {path : FieldPath} {name : String}
variable {change : Change Unit}

/-- Whatever an operand comes to below an element of a list field, the field holds a list. -/
theorem Effect.holdsList {selector : Segment} {rest : List Segment}
    (steps : path.segments = .name name :: selector :: rest)
    (selects : selector.isSelector = true) (held : HoldsList (record.get? name))
    (effect : Effect record path change) : HoldsList (change.2.get? name) := by
  cases effect with
  | kept => exact held
  | refused fault => exact held
  | written value =>
      rw [cover_eq]
      exact edit_holdsList (fun _ _ => ⟨_, rfl⟩) steps selects held
  | removed =>
      rw [removeAt_eq, Object.remove]
      cases record.lookup? path with
      | none => exact held
      | some value => exact edit_holdsList (fun _ _ => ⟨_, rfl⟩) steps selects held

/-- A change of a list field that writes nothing but a list leaves it holding one. -/
theorem ListEffect.holdsList (distinct : record.keys.Nodup) (steps : path.segments = [.name name])
    (held : HoldsList (record.get? name)) (effect : ListEffect record path change) :
    HoldsList (change.2.get? name) := by
  cases effect with
  | kept => exact held
  | refused fault => exact held
  | written items =>
      rw [cover_eq, Object.set_field steps, Object.get?_insert_self]
      trivial
  | removed =>
      rw [removeAt_eq, Object.get?_remove_field distinct steps]
      trivial

end Fields

end Patch

/-! ### Keys of a patch -/

namespace Schema

variable {schema : Schema} {path : FieldPath} {name : String} {declared : Field}

/-- Where a path that starts from a list field ends: at the whole field, or below an element of
it. -/
theorem resolve?_list (field : schema.field? name = some declared)
    (listed : declared.isList = true ∨ declared.type = .array) {rest : List Segment}
    (steps : path.segments = .name name :: rest) {resolved : Resolved}
    (resolves : schema.resolve? path = some resolved) :
    rest = [] ∧ resolved = ⟨declared.type, declared.isList && !path.descend⟩ ∨
      ∃ selector more, rest = selector :: more ∧ selector.isSelector = true := by
  simp only [resolve?, steps, cursor?, field, Option.bind_some] at resolves
  cases rest with
  | nil =>
      cases resolves
      exact .inl ⟨rfl, rfl⟩
  | cons segment more =>
      cases segment with
      | name key =>
          -- a list has no members, and an array that is no declared list has none either
          have closed : (TypeCursor.field declared).step? (.name key) = none := by
            rcases listed with many | array
            · simp [TypeCursor.step?, many]
            · cases declared with
              | nested other members isList => cases array
              | scalar type traits =>
                  obtain rfl : type = .array := array
                  simp [TypeCursor.step?, TypeCursor.member?, FieldType.isOpaque]
          simp [TypeCursor.walk?, closed] at resolves
      | index index => exact .inr ⟨_, _, rfl, rfl⟩
      | element key text => exact .inr ⟨_, _, rfl, rfl⟩

/-- A patch key is the name of a declared list with a dot behind it, and the mode writes single
values of the type of the elements: what is meant for an element is written over the list. -/
def MistakesList (schema : Schema) (mode : UpdateMode) (name key : String) : Prop :=
  ∃ path declared, schema.path key = .ok path ∧ path.segments = [.name name] ∧
    path.descend = true ∧ schema.field? name = some declared ∧ declared.isList = true ∧
    mode.rewrites declared.type = true

/-- Another key that ends at a list field is resolved to a list, or to a type that the mode does
not write. -/
theorem list_of_not_mistakesList {mode : UpdateMode} {key : String}
    (field : schema.field? name = some declared)
    (listed : declared.isList = true ∨ declared.type = .array)
    (read : schema.path key = .ok path) (steps : path.segments = [.name name])
    (fair : ¬ schema.MistakesList mode name key) :
    (⟨declared.type, declared.isList && !path.descend⟩ : Resolved).isArrayLike = true ∨
      mode.rewrites declared.type = false := by
  cases array : declared.type == .array with
  | true => exact .inl (by simp [Resolved.isArrayLike, array])
  | false =>
      have many : declared.isList = true :=
        listed.resolve_right fun same => by simp [same] at array
      cases descends : path.descend with
      | false => exact .inl (by simp [Resolved.isArrayLike, many])
      | true =>
          refine .inr (Bool.eq_false_iff.mpr fun rewrites => fair ?_)
          exact ⟨path, declared, read, steps, descends, field, many, rewrites⟩

end Schema

namespace Patch

variable (schema : Schema) {mode : UpdateMode} (policy : UnknownFieldPolicy)
variable {name : String} {declared : Field}

/-- A pair that does not mistake a list field leaves it holding a list. -/
theorem applyPair_holdsList (partly : mode ≠ .cover) (field : schema.field? name = some declared)
    (listed : declared.isList = true ∨ declared.type = .array) {record : Object}
    (distinct : record.keys.Nodup) (held : HoldsList (record.get? name)) {key : String}
    (fair : ¬ schema.MistakesList mode name key) (operand : Json) :
    HoldsList ((applyPair schema mode policy record key operand).2.get? name) := by
  rcases applyPair_record schema mode policy record key operand with
    kept | ⟨path, resolved, read, -, resolves, left⟩
  · rw [kept]
    exact held
  rw [left]
  by_cases root : path.root = name
  · obtain ⟨rest, steps⟩ := Schema.steps_of_resolve? resolves
    rw [root] at steps
    rcases Schema.resolve?_list field listed steps resolves with
      ⟨rfl, rfl⟩ | ⟨selector, more, rfl, selects⟩
    · have list := Schema.list_of_not_mistakesList field listed read steps fair
      exact (apply_listEffect record path operand partly list).holdsList distinct steps held
    · exact (apply_effect record path operand resolved mode).holdsList steps selects held
  · have changed := apply_changedAt record path operand mode resolved
    rw [changed.get?_of_ne distinct (Ne.symm root)]
    exact held

/-- A patch none of whose keys mistakes a list field leaves it holding a list, whether it goes
through or stops. -/
theorem applyAll_holdsList (partly : mode ≠ .cover) (field : schema.field? name = some declared)
    (listed : declared.isList = true ∨ declared.type = .array) {record : Object}
    (distinct : record.keys.Nodup) (held : HoldsList (record.get? name)) {patch : Object}
    (fair : ∀ pair ∈ patch, ¬ schema.MistakesList mode name pair.1) :
    HoldsList ((applyAll schema mode policy record patch).2.get? name) := by
  induction patch generalizing record with
  | nil => exact held
  | cons pair rest ih =>
      obtain ⟨key, operand⟩ := pair
      obtain ⟨first, others⟩ := List.forall_mem_cons.mp fair
      have still := (applyPair_frame schema mode policy distinct key operand).1
      have kept := applyPair_holdsList schema policy partly field listed distinct held first operand
      rcases outcome : applyPair schema mode policy record key operand with ⟨answer, between⟩
      rw [outcome] at still kept
      cases answer with
      | error error =>
          rw [applyAll_cons_error outcome]
          exact kept
      | ok applied =>
          rw [(applyAll_cons_ok outcome rest).2]
          exact ih still kept others

/-- Where a mode writes values of a type, some operand makes a field that holds nothing hold a
value that is no list. -/
theorem exists_apply_rewrites {type : FieldType} (rewrites : mode.rewrites type = true)
    {path : FieldPath} (steps : path.segments = [.name name]) :
    ∃ operand, ¬ HoldsList ((apply [] path operand mode ⟨type, false⟩).2.get? name) := by
  have covers {value : Json} (other : ¬ HoldsList (some value)) :
      ¬ HoldsList ((cover [] path value).2.get? name) := by
    rwa [cover_eq, Object.set_field steps, Object.get?_insert_self]
  have nothing : stored? [] path = none := by
    simp only [stored?, Object.lookup?, steps]
    rfl
  have single (other : type ≠ .array) : (⟨type, false⟩ : Resolved).isArrayLike = false := by
    simp [Resolved.isArrayLike, other]
  cases mode with
  | cover => exact ⟨.int 1, covers id⟩
  | append =>
      refine ⟨.int 1, ?_⟩
      have other : type ≠ .array := by
        rintro rfl
        cases rewrites
      simp only [apply, append, single other, Bool.false_eq_true, if_false]
      split
      · rw [appendText]
        exact covers id
      split
      · have sum : sum? (.int 0) (.int 1) = some (.int 1) := by decide
        simp only [appendNumber, Json.int, number?, nothing, Option.map_none, Option.getD_none, sum]
        exact covers id
      split
      · rename_i object
        rw [beq_iff_eq.mp object] at rewrites
        cases rewrites
      · exact covers id
  | delete =>
      refine ⟨.null, ?_⟩
      have ends : path.endsWithSelector = false := by
        simp [FieldPath.endsWithSelector, FieldPath.last?, steps, Segment.isSelector]
      have other : type ≠ .array := by
        rintro rfl
        cases rewrites
      simp only [apply, delete, ends, single other, Bool.false_eq_true, if_false]
      split
      · exact covers id
      split
      · exact covers id
      · rename_i text number
        simp [UpdateMode.rewrites, text, number] at rewrites
  | merge =>
      obtain rfl : type = .object := beq_iff_eq.mp rewrites
      exact ⟨.obj [], covers id⟩

/-- A key that mistakes a list field can make it hold a value that is no list. -/
theorem exists_applyAll_loses_list (patchable : schema.Patchable name) {key : String}
    (mistakes : schema.MistakesList mode name key) :
    ∃ operand, ¬ HoldsList ((applyAll schema mode policy [] [(key, operand)]).2.get? name) := by
  obtain ⟨path, declared, read, steps, descends, field, many, rewrites⟩ := mistakes
  have root : path.root = name := by simp [FieldPath.root, steps, Segment.name?]
  have unprotected : isProtected schema path = false := by
    rw [Schema.not_isProtected_iff, root]
    exact patchable.2
  have resolves : schema.resolve? path = some ⟨declared.type, false⟩ := by
    simp only [Schema.resolve?, steps, Schema.cursor?, field, Option.bind_some, TypeCursor.walk?,
      Option.map_some, TypeCursor.resolved, descends, Bool.not_true, Bool.and_false]
  obtain ⟨operand, lost⟩ := exists_apply_rewrites rewrites steps
  refine ⟨operand, ?_⟩
  rcases outcome : apply [] path operand mode ⟨declared.type, false⟩ with ⟨answer, after⟩
  rw [outcome] at lost
  simp only [applyAll, applyPair, read, unprotected, resolves, outcome]
  cases answer <;> exact lost

/-- Adding, clearing and merging keep lists where they are: whatever the patch, a list field of a
record, in which no key occurs twice, holds a list, `null` or nothing afterwards if it did before,
unless some key of the patch is the name of the field with a dot behind it and the mode writes
values of the type of its elements.  Such a key can indeed put a value that is no list into a
field that may be patched. -/
theorem applyAll_keeps_lists (partly : mode ≠ .cover) (field : schema.field? name = some declared)
    (listed : declared.isList = true ∨ declared.type = .array) :
    (∀ record patch : Object, record.keys.Nodup → HoldsList (record.get? name) →
      (∀ pair ∈ patch, ¬ schema.MistakesList mode name pair.1) →
      HoldsList ((applyAll schema mode policy record patch).2.get? name)) ∧
    ∀ key, schema.Patchable name → schema.MistakesList mode name key →
      ∃ operand, ¬ HoldsList ((applyAll schema mode policy [] [(key, operand)]).2.get? name) := by
  refine ⟨fun record patch distinct held fair => ?_, fun key patchable mistakes => ?_⟩
  · exact applyAll_holdsList schema policy partly field listed distinct held fair
  · exact exists_applyAll_loses_list schema policy patchable mistakes

/-- Texts are appended to the first element of a list and to the list, which keeps it one; the name
of the list with a dot behind it is a key that can lose it. -/
theorem applyAll_keeps_lists_selected :
    let tags : Field := .scalar .string { Traits.plain with isList := true }
    let schema : Schema := ⟨"user", [("tags", tags)], false, Hooks.none⟩
    let record : Object := [("tags", .arr [.str "a"])]
    let patch : Object := [("tags[0]", .str "b"), ("tags", .str "c")]
    let after : Object := [("tags", .arr [.str "ab", .str "c"])]
    schema.field? "tags" = some tags ∧ HoldsList (record.get? "tags") ∧
      (∀ pair ∈ patch, ¬ schema.MistakesList .append "tags" pair.1) ∧
      applyAll schema .append .skip record patch = (.ok ⟨["tags[0]", "tags"], []⟩, after) ∧
      HoldsList (after.get? "tags") ∧ schema.MistakesList .append "tags" "tags." ∧
      ∃ operand, ¬ HoldsList
        ((applyAll schema .append .skip [] [("tags.", operand)]).2.get? "tags") := by
  intro tags schema record patch after
  have field : schema.field? "tags" = some tags := rfl
  obtain ⟨keeps, loses⟩ := @applyAll_keeps_lists schema .append .skip "tags" tags nofun field
    (.inl rfl)
  have fair : ∀ pair ∈ patch, ¬ schema.MistakesList .append "tags" pair.1 := by
    intro pair member
    simp only [patch, List.mem_cons, List.not_mem_nil, or_false] at member
    rcases member with rfl | rfl
    all_goals
      rintro ⟨path, declared, read, -, descends, -⟩
      cases read
      cases descends
  have done : applyAll schema .append .skip record patch =
      (.ok ⟨["tags[0]", "tags"], []⟩, after) := rfl
  have kept := keeps record patch (by decide) trivial fair
  rw [done] at kept
  have mistakes : schema.MistakesList .append "tags" "tags." :=
    ⟨⟨"tags.", [.name "tags"], true⟩, tags, rfl, rfl, rfl, field, rfl, rfl⟩
  have patchable : schema.Patchable "tags" := by
    refine ⟨rfl, by decide, ?_⟩
    rintro _ ⟨⟩
    exact ⟨rfl, rfl⟩
  exact ⟨field, trivial, fair, done, kept, mistakes, loses "tags." patchable mistakes⟩

/-- Appending to a list by its name with a dot behind it joins the text of the whole list to the
operand: the list is a text afterwards. -/
theorem descending_key_loses_list :
    ¬ ∀ (schema : Schema) (mode : UpdateMode) (policy : UnknownFieldPolicy)
      (record patch : Object), mode ≠ .cover → record.keys.Nodup →
      (∀ name declared, schema.field? name = some declared →
        declared.isList = true ∨ declared.type = .array → HoldsList (record.get? name)) →
      ∀ name declared, schema.field? name = some declared →
        declared.isList = true ∨ declared.type = .array →
        HoldsList ((applyAll schema mode policy record patch).2.get? name) := by
  intro always
  let tags : Field := .scalar .string { Traits.plain with isList := true }
  let schema : Schema := ⟨"user", [("tags", tags)], false, Hooks.none⟩
  let record : Object := [("tags", .arr [.str "a"])]
  have held : ∀ name declared, schema.field? name = some declared →
      declared.isList = true ∨ declared.type = .array → HoldsList (record.get? name) := by
    intro name declared field listed
    by_cases same : "tags" = name
    · subst same
      trivial
    · simp [schema, Schema.field?, Field.find?, same] at field
  have kept := always schema .append .skip record [("tags.", .str "x")] nofun (by decide) held
    "tags" tags rfl (.inl rfl)
  have left : (applyAll schema .append .skip record [("tags.", .str "x")]).2 =
      [("tags", .str "[\x22a\x22]x")] := by rfl
  rw [left] at kept
  exact kept

end Patch

end RecordStore
