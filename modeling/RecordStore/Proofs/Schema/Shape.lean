/-
Module: RecordStore.Proofs.Schema.Shape
Purpose: Records of the declared shape, and what the resolution of a path says about them.
  The resolving walk over a model, the reading walk and the writing walk over a record go
  side by side: as long as the first stands on what the model declares, the value that the
  others stand on has the declared shape.  So a resolved path reads a value of its type, and
  a write through it can miss its place but never meets a container of the wrong kind.
Main exports: FieldType.fits, Field.fits, Schema.shapes, Schema.declares,
  Schema.resolve?_eq_walk?, resolved_value_fits
-/
import RecordStore.Proofs.Path.WriteLaw
import RecordStore.Schema.Resolution

namespace RecordStore

/-! ### Values of a declared shape -/

/-- Whether a value is of a type.  Keys and values of any type are of all kinds. -/
def FieldType.fits : FieldType → Json → Bool
  | .id, _ => true
  | .any, _ => true
  | .string, .str _ => true
  | .longText, .str _ => true
  | .dateTime, .str _ => true
  | .number, .num _ => true
  | .decimal, .num _ => true
  | .boolean, .bool _ => true
  | .array, .arr _ => true
  | .object, .obj _ => true
  | _, _ => false

/-- Whether a value is `null`, or as asked: by itself or, in a list, element by element,
where `null` may stand for any element. -/
def Json.isHeld (isList : Bool) (asked : Json → Bool) (value : Json) : Bool :=
  value.isNull ||
    if isList then
      match value with
      | .arr items => items.all fun item => item.isNull || asked item
      | _ => false
    else asked value

namespace Field

mutual

/-- Whether a value is one of those a field declares: of its type or, for a nested record,
an object whose members are as declared. -/
def fitsOne : Field → Json → Bool
  | .scalar type _, value => type.fits value
  | .nested _ members _, value =>
    match value with
    | .obj record => membersFit members record
    | _ => false

/-- Whether a record holds under every declared name what the field declares, or nothing. -/
def membersFit : List (String × Field) → Object → Bool
  | [], _ => true
  | (name, declared) :: rest, record =>
    (record.get? name).all (Json.isHeld declared.isList fun value => fitsOne declared value) &&
      membersFit rest record

end

/-- Whether a value is `null` or what the field declares, which may be a list. -/
def fits (declared : Field) (value : Json) : Bool :=
  value.isHeld declared.isList declared.fitsOne

end Field

namespace Schema

/-- The fields that records carry without declaring them. -/
def bookkeeping (schema : Schema) : List (String × Field) :=
  (idField, .scalar .id Traits.plain) ::
    if schema.timestamps then
      [(createdAtField, .scalar .dateTime Traits.plain),
        (updatedAtField, .scalar .dateTime Traits.plain)]
    else []

/-- A model as a nested record: its declared fields, and the bookkeeping ones that no
declared field hides. -/
def asRecord (schema : Schema) : Field :=
  .nested schema.name
    (schema.fields ++ schema.bookkeeping.filter fun entry => (schema.field? entry.1).isNone) false

/-- Whether a record has the shape its model declares. -/
def shapes (schema : Schema) (record : Object) : Bool := schema.asRecord.fitsOne (.obj record)

end Schema

namespace TypeCursor

/-- Whether the walk stands on what the model declares, and not inside a value whose
structure it leaves open. -/
def isDeclared : TypeCursor → Bool
  | .undeclared _ => false
  | _ => true

/-- Whether every step of the walk leads to a declared place. -/
def declares (cursor : TypeCursor) : List Segment → Bool
  | [] => true
  | segment :: rest =>
    match cursor.step? segment with
    | some next => next.isDeclared && next.declares rest
    | none => false

/-- Whether a value may stand where the walk stands. -/
def fits : TypeCursor → Json → Bool
  | .field declared, value => declared.fits value
  | .element declared, value => value.isNull || declared.fitsOne value
  | .undeclared _, _ => true

end TypeCursor

/-- Whether a path stays on what a model declares: it steps neither into a container whose
members are not declared nor to an element of an array that is not a declared list. -/
def Schema.declares (schema : Schema) (path : FieldPath) : Bool :=
  (TypeCursor.field schema.asRecord).declares path.segments

/-- Whether a value is what a path was resolved to. -/
def Resolved.fits (resolved : Resolved) (value : Json) : Bool :=
  if resolved.isList then
    match value with
    | .arr items => items.all fun item => item.isNull || resolved.type.fits item
    | _ => false
  else resolved.type.fits value

/-- A write did not find the place of its path: something on the way is absent, or a
position is past the end of its array. -/
def FieldPath.Misses (path : FieldPath) (error : PathError) : Prop :=
  error = .notFound path.raw ∨ ∃ index length, error = .indexOutOfRange path.raw index length

/-! ### The resolving walk starts on the model -/

namespace Field

theorem find?_append (front back : List (String × Field)) (name : String) :
    find? (front ++ back) name = (find? front name).or (find? back name) := by
  induction front with
  | nil => rfl
  | cons entry rest ih =>
      simp only [List.cons_append, find?]
      split
      · rfl
      · exact ih

/-- Looking a kept name up among the entries whose names are kept. -/
theorem find?_filter (keeps : String → Bool) {name : String} (kept : keeps name)
    (entries : List (String × Field)) :
    find? (entries.filter fun entry => keeps entry.1) name = find? entries name := by
  induction entries with
  | nil => rfl
  | cons entry rest ih =>
      by_cases same : entry.1 = name
      · subst same
        simp [find?, kept]
      · cases keep : keeps entry.1 <;> simp [keep, find?, same, ih]

end Field

/-- The bookkeeping fields are those with an implicit type. -/
theorem Schema.find?_bookkeeping (schema : Schema) (name : String) :
    Field.find? schema.bookkeeping name =
      (schema.implicitType? name).map fun type => .scalar type Traits.plain := by
  unfold Schema.bookkeeping Schema.implicitType?
  by_cases isId : name = idField
  · simp [Field.find?, isId]
  · by_cases isCreated : name = createdAtField
    · cases timed : schema.timestamps <;> simp [Field.find?, isCreated, createdAtField, idField]
    · by_cases isUpdated : name = updatedAtField
      · cases timed : schema.timestamps <;>
          simp [Field.find?, isUpdated, createdAtField, updatedAtField, idField]
      · cases timed : schema.timestamps <;>
          simp [Field.find?, Ne.symm isId, Ne.symm isCreated, Ne.symm isUpdated, isId, isCreated,
            isUpdated]

namespace TypeCursor

/-- No step leads on from a value that is no container. -/
theorem walk?_bare {type : FieldType} (bare : type.isOpaque = false) (notArray : type ≠ .array)
    (steps : List Segment) (descend : Bool) :
    ((undeclared type).walk? steps).map (resolved descend) =
      ((field (.scalar type Traits.plain)).walk? steps).map (resolved descend) := by
  cases steps with
  | nil => rfl
  | cons segment rest =>
      cases segment <;>
        simp [walk?, step?, member?, Field.isList, Field.type, Traits.plain, bare, notArray]

end TypeCursor

/-- The types of bookkeeping fields are no containers. -/
theorem Schema.implicitType?_bare {schema : Schema} {name : String} {type : FieldType}
    (implicit : schema.implicitType? name = some type) :
    type.isOpaque = false ∧ type ≠ .array := by
  unfold Schema.implicitType? at implicit
  split at implicit
  · cases implicit
    decide
  · split at implicit <;> cases implicit
    decide

/-- The members of a model as a nested record are its fields and bookkeeping fields. -/
theorem Schema.member?_asRecord (schema : Schema) (name : String) :
    TypeCursor.member? schema.asRecord name =
      match schema.field? name with
      | some declared => some (.field declared)
      | none => (schema.implicitType? name).map fun type => .field (.scalar type Traits.plain) := by
  unfold TypeCursor.member? Schema.asRecord
  simp only [Field.find?_append]
  cases declared : schema.field? name with
  | some field =>
      have found : Field.find? schema.fields name = some field := declared
      simp [found]
  | none =>
      have missing : Field.find? schema.fields name = none := declared
      have kept : (schema.field? name).isNone = true := by simp [declared]
      rw [missing, Field.find?_filter (fun name => (schema.field? name).isNone) kept,
        Schema.find?_bookkeeping]
      cases schema.implicitType? name <;> rfl

/-- Resolving a path is walking it from the model as a nested record. -/
theorem Schema.resolve?_eq_walk? (schema : Schema) {path : FieldPath} (some : path.segments ≠ []) :
    schema.resolve? path =
      ((TypeCursor.field schema.asRecord).walk? path.segments).map
        (TypeCursor.resolved path.descend) := by
  unfold Schema.resolve?
  cases steps : path.segments with
  | nil => exact absurd steps some
  | cons first rest =>
      cases first with
      | name name =>
          have entered : (TypeCursor.field schema.asRecord).step? (.name name) =
              TypeCursor.member? schema.asRecord name := rfl
          rw [TypeCursor.walk?, entered, schema.member?_asRecord]
          simp only [Schema.cursor?]
          cases schema.field? name with
          | some declared => rfl
          | none =>
              cases implicit : schema.implicitType? name with
              | none => rfl
              | some type =>
                  obtain ⟨bare, notArray⟩ := Schema.implicitType?_bare implicit
                  exact TypeCursor.walk?_bare bare notArray rest path.descend
      | _ => rfl

/-! ### One step of the walks -/

namespace Field

/-- What stands under a declared name of a record is as declared. -/
theorem fits_of_membersFit {members : List (String × Field)} {record : Object}
    (shaped : membersFit members record) {name : String} {declared : Field} {value : Json}
    (found : find? members name = some declared) (present : record.get? name = some value) :
    declared.fits value := by
  induction members with
  | nil => cases found
  | cons entry rest ih =>
      obtain ⟨own, others⟩ : _ ∧ _ := by simpa [membersFit] using shaped
      simp only [find?] at found
      split at found
      · rename_i same
        cases found
        subst same
        simpa [present, fits] using own
      · exact ih others found

/-- A record that holds nothing has every shape. -/
theorem membersFit_nil (members : List (String × Field)) : membersFit members [] := by
  induction members with
  | nil => rfl
  | cons entry rest ih => simpa [membersFit, Object.get?] using ih

end Field

namespace TypeCursor

variable {cursor next : TypeCursor} {segment : Segment}

/-- A name leads to a declared place from one nested record. -/
theorem step?_name_inv {key : String} (stepped : cursor.step? (.name key) = some next)
    (declared : next.isDeclared) :
    ∃ name members isList inner,
      (cursor = .field (.nested name members false) ∨
        cursor = .element (.nested name members isList)) ∧
      Field.find? members key = some inner ∧ next = .field inner := by
  have single {field : Field} (member : member? field key = some next) :
      ∃ name members isList inner, field = .nested name members isList ∧
        Field.find? members key = some inner ∧ next = .field inner := by
    cases field with
    | scalar type traits =>
        simp only [member?] at member
        split at member <;> cases member
        cases declared
    | nested name members isList =>
        obtain ⟨inner, found, rfl⟩ := Option.map_eq_some_iff.mp member
        exact ⟨name, members, isList, inner, rfl, found, rfl⟩
  cases cursor with
  | field field =>
      simp only [step?] at stepped
      split at stepped
      · cases stepped
      · rename_i one
        obtain ⟨name, members, isList, inner, rfl, found, rfl⟩ := single stepped
        obtain rfl : isList = false := by simpa [Field.isList] using one
        exact ⟨name, members, false, inner, .inl rfl, found, rfl⟩
  | element field =>
      obtain ⟨name, members, isList, inner, rfl, found, rfl⟩ := single stepped
      exact ⟨name, members, isList, inner, .inr rfl, found, rfl⟩
  | undeclared type =>
      simp only [step?] at stepped
      split at stepped <;> cases stepped
      cases declared

/-- A selector leads to a declared place from a declared list. -/
theorem step?_selector_inv (selects : segment.isSelector)
    (stepped : cursor.step? segment = some next) (declared : next.isDeclared) :
    ∃ listed, cursor = .field listed ∧ listed.isList ∧ next = .element listed := by
  cases cursor with
  | field field =>
      cases segment with
      | name key => cases selects
      | _ =>
          simp only [step?] at stepped
          split at stepped
          · rename_i many
            cases stepped
            exact ⟨field, rfl, many, rfl⟩
          · split at stepped <;> cases stepped
            cases declared
  | element field =>
      cases segment with
      | name key => cases selects
      | _ =>
          simp only [step?] at stepped
          split at stepped <;> cases stepped
          cases declared
  | undeclared type =>
      cases segment with
      | name key => cases selects
      | _ =>
          simp only [step?] at stepped
          split at stepped <;> cases stepped
          cases declared

/-- In front of a name stands a record, if anything, whose member is as declared. -/
theorem fits_before_name {key : String} (stepped : cursor.step? (.name key) = some next)
    (declared : next.isDeclared) {value : Json} (shaped : cursor.fits value) :
    value = .null ∨ ∃ record, value = .obj record ∧
      ∀ inner, Object.get? record key = some inner → next.fits inner := by
  obtain ⟨name, members, isList, inner, stands, found, rfl⟩ := step?_name_inv stepped declared
  have one : value.isNull ∨ (Field.nested name members isList).fitsOne value := by
    rcases stands with rfl | rfl <;>
      simpa [fits, Field.fits, Json.isHeld, Field.isList, Field.fitsOne] using shaped
  cases value with
  | null => exact .inl rfl
  | obj record =>
      have shaped : Field.membersFit members record := by simpa [Json.isNull, Field.fitsOne] using one
      exact .inr ⟨record, rfl, fun _ present => Field.fits_of_membersFit shaped found present⟩
  | _ => simp [Json.isNull, Field.fitsOne] at one

/-- In front of a selector stands a list, if anything, whose elements are as declared. -/
theorem fits_before_selector (selects : segment.isSelector)
    (stepped : cursor.step? segment = some next) (declared : next.isDeclared) {value : Json}
    (shaped : cursor.fits value) :
    value = .null ∨ ∃ items, value = .arr items ∧ ∀ item ∈ items, next.fits item := by
  obtain ⟨listed, rfl, many, rfl⟩ := step?_selector_inv selects stepped declared
  cases value with
  | null => exact .inl rfl
  | arr items =>
      have all : ∀ item ∈ items, (TypeCursor.element listed).fits item := by
        simpa [fits, Field.fits, Json.isHeld, many, Json.isNull] using shaped
      exact .inr ⟨items, rfl, all⟩
  | _ => simp [fits, Field.fits, Json.isHeld, many, Json.isNull] at shaped

/-- `null` may stand everywhere. -/
theorem fits_null (cursor : TypeCursor) : cursor.fits .null := by cases cursor <;> rfl

/-- Where a name leads on, the object that a write makes of `null` is as declared. -/
theorem fits_made {key : String} (stepped : cursor.step? (.name key) = some next)
    (declared : next.isDeclared) : cursor.fits (.obj []) := by
  obtain ⟨name, members, isList, inner, stands, -, -⟩ := step?_name_inv stepped declared
  rcases stands with rfl | rfl <;>
    simp [fits, Field.fits, Json.isHeld, Field.isList, Field.fitsOne, Field.membersFit_nil]

end TypeCursor

/-! ### Reading -/

namespace TypeCursor

variable {cursor last : TypeCursor}

/-- One step of reading goes side by side with a declared step of resolving. -/
theorem fits_step? {next : TypeCursor} {segment : Segment}
    (stepped : cursor.step? segment = some next) (declared : next.isDeclared)
    {here value : Json} (shaped : cursor.fits here) (read : here.step? segment = some value) :
    next.fits value := by
  cases segment with
  | name key =>
      rcases fits_before_name stepped declared shaped with rfl | ⟨record, rfl, members⟩
      · cases read
      · exact members value read
  | index index =>
      rcases fits_before_selector rfl stepped declared shaped with rfl | ⟨items, rfl, elements⟩
      · cases read
      · exact elements value (List.mem_of_getElem? read)
  | element key text =>
      rcases fits_before_selector rfl stepped declared shaped with rfl | ⟨items, rfl, elements⟩
      · cases read
      · exact elements value (List.mem_of_find?_eq_some read)

/-- The first of several declared steps. -/
theorem declares_cons {segment : Segment} {rest : List Segment}
    (declared : cursor.declares (segment :: rest)) :
    ∃ next, cursor.step? segment = some next ∧ next.isDeclared ∧ next.declares rest := by
  simp only [declares] at declared
  split at declared
  · rename_i next stepped
    exact ⟨next, stepped, by simpa using declared⟩
  · cases declared

/-- What is read at the end of declared steps is as declared. -/
theorem fits_walk? {segments : List Segment} (declared : cursor.declares segments)
    (walked : cursor.walk? segments = some last) {here value : Json} (shaped : cursor.fits here)
    (read : here.walk? segments = some value) : last.fits value := by
  induction segments generalizing cursor here with
  | nil =>
      cases walked
      cases read
      exact shaped
  | cons segment rest ih =>
      obtain ⟨next, stepped, place, others⟩ := declares_cons declared
      obtain ⟨inner, entered, beyond⟩ := Option.bind_eq_some_iff.mp read
      simp only [walk?, stepped, Option.bind_some] at walked
      exact ih others walked (fits_step? stepped place shaped entered) beyond

/-- Declared steps end at a declared place. -/
theorem isDeclared_walk? {segments : List Segment} (place : cursor.isDeclared)
    (declared : cursor.declares segments) (walked : cursor.walk? segments = some last) :
    last.isDeclared := by
  induction segments generalizing cursor with
  | nil =>
      cases walked
      exact place
  | cons segment rest ih =>
      obtain ⟨next, stepped, inner, others⟩ := declares_cons declared
      simp only [walk?, stepped, Option.bind_some] at walked
      exact ih inner others walked

end TypeCursor

/-- What a field declares is of the type of the field. -/
theorem Field.type_fits {declared : Field} {value : Json} (shaped : declared.fitsOne value) :
    declared.type.fits value := by
  cases declared with
  | scalar type traits => exact shaped
  | nested name members isList =>
      cases value with
      | obj record => rfl
      | _ => simp [Field.fitsOne] at shaped

/-- A value that may stand at a declared place is what the place is resolved to. -/
theorem Resolved.fits_of_cursor {cursor : TypeCursor} (place : cursor.isDeclared) {value : Json}
    (shaped : cursor.fits value) (present : value.isNull = false) :
    (cursor.resolved false).fits value := by
  cases cursor with
  | field declared =>
      simp only [TypeCursor.fits, Field.fits, Json.isHeld, present, Bool.false_or] at shaped
      cases many : declared.isList with
      | false =>
          rw [many] at shaped
          simpa [Resolved.fits, TypeCursor.resolved, many] using Field.type_fits shaped
      | true =>
          cases value with
          | arr items =>
              simp only [many, if_true, List.all_eq_true, Bool.or_eq_true] at shaped
              simp only [Resolved.fits, TypeCursor.resolved, many, Bool.not_false, Bool.and_true,
                if_true, List.all_eq_true, Bool.or_eq_true]
              exact fun item mem => (shaped item mem).imp_right Field.type_fits
          | _ => simp [many] at shaped
  | element declared =>
      simp only [TypeCursor.fits, present, Bool.false_or] at shaped
      simpa [Resolved.fits, TypeCursor.resolved] using Field.type_fits shaped
  | undeclared type => cases place

/-! ### Writing -/

/-- Whether a value is the kind of container that a step goes into. -/
def Json.admits : Json → Segment → Bool
  | .obj _, .name _ => true
  | .arr _, .index _ => true
  | .arr _, .element _ _ => true
  | _, _ => false

section Writing

variable {cursor next : TypeCursor} {segment : Segment} (path : FieldPath)

/-- A child that may stand in front of the next step is opened for it, where `null` only
stands in front of names. -/
theorem openContainer_declared {child : Json} (shaped : cursor.fits child)
    (stepped : cursor.step? segment = some next) (declared : next.isDeclared)
    (present : segment.isSelector → child ≠ .null) :
    ∃ inner, openContainer path child segment = .ok inner ∧ cursor.fits inner ∧
      inner.admits segment := by
  cases segment with
  | name key =>
      rcases TypeCursor.fits_before_name stepped declared shaped with rfl | ⟨record, rfl, -⟩
      · exact ⟨.obj [], rfl, TypeCursor.fits_made stepped declared, rfl⟩
      · exact ⟨.obj record, rfl, shaped, rfl⟩
  | _ =>
      rcases TypeCursor.fits_before_selector rfl stepped declared shaped with
        rfl | ⟨items, rfl, -⟩
      · exact absurd rfl (present rfl)
      · exact ⟨.arr items, rfl, shaped, rfl⟩

/-- Two selectors in a row leave what is declared. -/
theorem not_selector_after_selector {after : Segment} {beyond : TypeCursor}
    (selects : segment.isSelector) (stepped : cursor.step? segment = some next)
    (place : next.isDeclared) (further : next.step? after = some beyond)
    (declared : beyond.isDeclared) : after.isSelector = false := by
  cases again : after.isSelector with
  | false => rfl
  | true =>
      obtain ⟨listed, -, -, rfl⟩ := TypeCursor.step?_selector_inv selects stepped place
      obtain ⟨other, wrong, -⟩ := TypeCursor.step?_selector_inv again further declared
      cases wrong

/-- One step of writing goes side by side with a declared step of resolving: it reaches a
container for the next step, or misses. -/
theorem enterStep_declared {here : Json} {after : Segment} {beyond : TypeCursor}
    (shaped : cursor.fits here) (admitted : here.admits segment)
    (stepped : cursor.step? segment = some next) (place : next.isDeclared)
    (further : next.step? after = some beyond) (declared : beyond.isDeclared) :
    (∃ step inner, enterStep path here segment after = .ok (step, inner) ∧ next.fits inner ∧
      inner.admits after) ∨
    ∃ error, enterStep path here segment after = .error error ∧ path.Misses error := by
  have opening {child : Json} (step : Segment) (fits : next.fits child)
      (present : after.isSelector → child ≠ .null) :
      ∃ inner, (openContainer path child after).map (fun inner => (step, inner)) =
        .ok (step, inner) ∧ next.fits inner ∧ inner.admits after := by
    obtain ⟨inner, opened, fits, admits⟩ :=
      openContainer_declared path fits further declared present
    exact ⟨inner, by rw [opened]; rfl, fits, admits⟩
  cases segment with
  | name key =>
      rcases TypeCursor.fits_before_name stepped place shaped with rfl | ⟨record, rfl, members⟩
      · cases admitted
      · have fits : next.fits ((Object.get? record key).getD .null) := by
          cases present : Object.get? record key with
          | none => exact next.fits_null
          | some inner => exact members inner present
        simp only [enterStep]
        split
        · exact .inr ⟨_, rfl, .inl rfl⟩
        · rename_i passes
          refine .inl ⟨.name key, opening _ fits ?_⟩
          intro selects missing
          cases present : Object.get? record key with
          | none => simp [present, selects] at passes
          | some inner =>
              obtain rfl : inner = .null := by simpa [present] using missing
              simp [present, selects, Json.isNull] at passes
  | index index =>
      rcases TypeCursor.fits_before_selector rfl stepped place shaped with
        rfl | ⟨items, rfl, elements⟩
      · cases admitted
      · have named := not_selector_after_selector rfl stepped place further declared
        simp only [enterStep]
        cases found : items[index]? with
        | none => exact .inr ⟨_, rfl, .inr ⟨index, items.length, rfl⟩⟩
        | some child =>
            exact .inl ⟨.index index, opening _ (elements child (List.mem_of_getElem? found))
              (by simp [named])⟩
  | element key text =>
      rcases TypeCursor.fits_before_selector rfl stepped place shaped with
        rfl | ⟨items, rfl, elements⟩
      · cases admitted
      · have named := not_selector_after_selector rfl stepped place further declared
        simp only [enterStep]
        cases found : Json.findElement? items key text with
        | none => exact .inr ⟨_, rfl, .inl rfl⟩
        | some index =>
            have inside : index < items.length :=
              (List.findIdx?_eq_some_iff_getElem.mp found).1
            have fits : next.fits (items[index]?.getD .null) := by
              rw [List.getElem?_eq_getElem inside]
              exact elements _ (List.getElem_mem inside)
            exact .inl ⟨.index index, opening _ fits (by simp [named])⟩

/-- The last step of a write into a container that admits it names a place, or misses. -/
theorem placeOf_admitted {here : Json} (admitted : here.admits segment) {error : PathError}
    (refused : placeOf path here segment = .error error) : path.Misses error := by
  cases here with
  | obj record =>
      cases segment with
      | name key => cases refused
      | _ => cases admitted
  | arr items =>
      cases segment with
      | name key => cases admitted
      | index index =>
          simp only [placeOf] at refused
          split at refused <;> cases refused
          exact .inr ⟨index, items.length, rfl⟩
      | element key text =>
          simp only [placeOf] at refused
          split at refused <;> cases refused
          exact .inl rfl
  | _ => cases segment <;> cases admitted

/-- A write along declared steps ends at a place or misses it, whatever the edit. -/
theorem descendTo_declared {α : Type} (edit : Edit α) {rest : List Segment}
    (declared : cursor.declares (segment :: rest)) {here : Json} (shaped : cursor.fits here)
    (admitted : here.admits segment) {error : PathError} {after : Json}
    (failed : descendTo path edit here (segment :: rest) = (.error error, after)) :
    path.Misses error := by
  induction rest generalizing cursor segment here after with
  | nil =>
      rw [descendTo, editLast_eq] at failed
      cases reached : placeOf path here segment with
      | ok place => rw [reached] at failed; cases failed
      | error refusal =>
          rw [reached] at failed
          cases failed
          exact placeOf_admitted path admitted reached
  | cons second others ih =>
      obtain ⟨next, stepped, place, remaining⟩ := TypeCursor.declares_cons declared
      obtain ⟨beyond, further, inner, -⟩ := TypeCursor.declares_cons remaining
      rw [descendTo_cons] at failed
      rcases enterStep_declared path shaped admitted stepped place further inner with
        ⟨step, child, entered, fits, admits⟩ | ⟨refusal, entered, missed⟩
      · rw [entered] at failed
        simp only [Prod.mk.injEq] at failed
        exact ih remaining fits admits (Prod.ext failed.1 rfl)
      · rw [entered] at failed
        cases failed
        exact missed

end Writing

/-! ### Records -/

/-- A path that a model resolves addresses, in a record of the declared shape, values of
the resolved type or nothing, as long as it stays on what the model declares; and a write
through it misses its place or succeeds, but never meets a value of the wrong kind. -/
theorem resolved_value_fits {schema : Schema} {record : Object} {path : FieldPath}
    {resolved : Resolved} (shaped : schema.shapes record) (whole : path.descend = false)
    (described : schema.resolve? path = some resolved) (declared : schema.declares path) :
    (∀ value, record.lookup? path = some value → value.isNull = false → resolved.fits value) ∧
      ∀ value error after, record.set path value = (.error error, after) → path.Misses error := by
  have start : (TypeCursor.field schema.asRecord).fits (.obj record) := by
    simp only [TypeCursor.fits, Field.fits, Json.isHeld, Bool.or_eq_true]
    exact .inr shaped
  have nonempty : path.segments ≠ [] := by
    intro none
    simp [Schema.resolve?, none] at described
  rw [schema.resolve?_eq_walk? nonempty, whole] at described
  obtain ⟨last, walked, rfl⟩ := Option.map_eq_some_iff.mp described
  constructor
  · intro value read present
    rw [Object.lookup?_eq_walk? record nonempty] at read
    exact Resolved.fits_of_cursor (TypeCursor.isDeclared_walk? rfl declared walked)
      (TypeCursor.fits_walk? declared walked start read) present
  · intro value error after failed
    have refused := (edit_error failed).1
    rw [checkWritable_eq fun place => ((), place.assign value)] at refused
    cases steps : path.segments with
    | nil => exact absurd steps nonempty
    | cons first rest =>
        cases first with
        | name key =>
            rw [Schema.declares, steps] at declared
            rw [steps] at refused
            rcases ran : descendTo path (fun place => ((), place.assign value)) (.obj record)
              (.name key :: rest) with ⟨outcome, left⟩
            rw [ran] at refused
            cases outcome with
            | ok answer => cases refused
            | error refusal =>
                cases refused
                exact descendTo_declared path _ declared start rfl ran
        | _ => rw [steps] at walked; cases walked

/-- Through a predicate, past a `null` element, to a list in a nested record. -/
theorem resolved_value_fits_in_list :
    let schema : Schema :=
      ⟨"user", [("pets", .nested "user.pets"
        [("name", .scalar .string Traits.plain),
          ("tags", .scalar .string { Traits.plain with isList := true })] true)], true, Hooks.none⟩
    let record : Object :=
      [("id", .int 1), ("createdAt", .str "2024-01-01"),
        ("pets", .arr [.null, .obj [("name", .str "rex"), ("tags", .arr [.str "good", .null])]])]
    let path : FieldPath :=
      ⟨"pets[\x7bname:rex\x7d].tags", [.name "pets", .element "name" "rex", .name "tags"], false⟩
    let missed : FieldPath := ⟨"pets[7].name", [.name "pets", .index 7, .name "name"], false⟩
    schema.resolve? path = some ⟨.string, true⟩ ∧
      record.lookup? path = some (.arr [.str "good", .null]) ∧
      (⟨.string, true⟩ : Resolved).fits (.arr [.str "good", .null]) ∧
      (record.set missed .null).1 = .error (.indexOutOfRange missed.raw 7 2) ∧
      missed.Misses (.indexOutOfRange missed.raw 7 2) := by
  intro schema record path missed
  have shaped : schema.shapes record := by decide
  have described : schema.resolve? path = some ⟨.string, true⟩ := rfl
  have reads := resolved_value_fits shaped rfl described (by decide)
  have writes := resolved_value_fits shaped rfl
    (show schema.resolve? missed = some ⟨.string, false⟩ from rfl) (by decide)
  exact ⟨rfl, rfl, reads.1 _ rfl rfl, rfl, writes.2 .null _ _ rfl⟩

end RecordStore
