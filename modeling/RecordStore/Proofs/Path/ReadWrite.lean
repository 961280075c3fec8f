/-
Module: RecordStore.Proofs.Path.ReadWrite
Purpose: Reading and writing through a path lead to the same place.  What a read finds can be
  written back, which changes nothing, and the place that a write ends at holds what a read
  would have answered, also where the write had to make objects on the way.
Main exports: Json.walk?_pin, Json.writeAt_of_walk?, descendTo_of_walk?, descendTo_current,
  read_meets_write
-/
import RecordStore.Proofs.Path.WriteLaw

namespace RecordStore

open Json

/-! ### Putting back what is there -/

namespace Json

/-- Fixing the predicates of a path keeps what it reads. -/
theorem walk?_pin (here : Json) (segments : List Segment) :
    here.walk? (here.pin segments) = here.walk? segments := by
  induction segments generalizing here with
  | nil => rfl
  | cons segment rest ih =>
      rw [pin, walk?_cons, walk?_cons, step?_pinStep]
      cases found : here.step? segment with
      | none => rfl
      | some next =>
          rw [child_of_step? found]
          exact ih next

/-- Only a container that is there is stepped into. -/
theorem opened_of_step? {here value : Json} {step : Segment}
    (found : here.step? step = some value) : here.opened = here := by
  cases here with
  | null => cases step <;> cases found
  | _ => rfl

theorem put_of_step? {here value : Json} {step : Segment}
    (found : here.step? step = some value) : here.put step value = here := by
  cases here with
  | obj members =>
      cases step with
      | name key => exact congrArg Json.obj (Object.insert_of_get? found)
      | _ => rfl
  | arr items =>
      cases step with
      | index index =>
          obtain ⟨inside, rfl⟩ := List.getElem?_eq_some_iff.mp found
          exact congrArg Json.arr (List.set_getElem_self inside)
      | _ => rfl
  | _ => rfl

/-- Writing at a place the value that is read there changes nothing. -/
theorem writeAt_of_walk? {here value : Json} {steps : List Segment}
    (found : here.walk? steps = some value) : writeAt value here steps = here := by
  induction steps generalizing here with
  | nil => exact (Option.some.inj found).symm
  | cons step rest ih =>
      obtain ⟨next, reached, below⟩ := Option.bind_eq_some_iff.mp found
      rw [writeAt, opened_of_step? reached, child_of_step? reached, ih below]
      exact put_of_step? reached

end Json

/-! ### A walk that reads can write -/

section Walk

variable {α : Type} {path : FieldPath}

/-- A step that reads a value which the next step goes into is a step of the writing walk, and
nothing has to be made for it. -/
theorem enterStep_of_step? {here inner deeper : Json} {segment next : Segment}
    (reached : here.step? segment = some inner) (below : inner.step? next = some deeper) :
    enterStep path here segment next = .ok (here.pinStep segment, inner) := by
  have opening : openContainer path inner next = .ok inner := by
    cases inner with
    | obj members =>
        cases next with
        | name key => rfl
        | _ => cases below
    | arr items =>
        cases next with
        | name key => cases below
        | _ => rfl
    | _ => cases next <;> cases below
  have standing : inner.isNull = false := by
    cases inner with
    | null => cases next <;> cases below
    | _ => rfl
  cases here with
  | obj members =>
      cases segment with
      | name key =>
          change Object.get? members key = some inner at reached
          simp only [enterStep, reached, Option.map_some, Option.getD_some, standing,
            Bool.and_false, Bool.false_eq_true, if_false, opening]
          rfl
      | _ => cases reached
  | arr items =>
      cases segment with
      | name key => cases reached
      | index index =>
          change items[index]? = some inner at reached
          simp only [enterStep, reached, opening]
          rfl
      | element key text =>
          change items.find? (memberReads key text) = some inner at reached
          rw [List.find?_eq_bind_findIdx?_getElem?, ← findElement?] at reached
          obtain ⟨index, found, stands⟩ := Option.bind_eq_some_iff.mp reached
          simp only [enterStep, pinStep, found, stands, Option.getD_some, opening]
          rfl
  | _ => cases segment <;> cases reached

variable (path) in
/-- A last step that reads a value names a place. -/
theorem exists_placeOf {here value : Json} {last : Segment}
    (reached : here.step? last = some value) : ∃ place, placeOf path here last = .ok place := by
  cases here with
  | obj members =>
      cases last with
      | name key => exact ⟨_, rfl⟩
      | _ => cases reached
  | arr items =>
      cases last with
      | name key => cases reached
      | index index =>
          obtain ⟨inside, -⟩ := List.getElem?_eq_some_iff.mp reached
          exact ⟨_, if_pos inside⟩
      | element key text =>
          change items.find? (memberReads key text) = some value at reached
          rw [List.find?_eq_bind_findIdx?_getElem?, ← findElement?] at reached
          obtain ⟨index, found, -⟩ := Option.bind_eq_some_iff.mp reached
          exact ⟨.element items index, by simp only [placeOf, found]⟩
  | _ => cases last <;> cases reached

variable (path) in
/-- Where a walk reads a value the writing walk reaches its place. -/
theorem descendTo_of_walk? (edit : Edit α) {here value : Json} {segments : List Segment}
    (filled : segments ≠ []) (found : here.walk? segments = some value) :
    ∃ answer after, descendTo path edit here segments = (.ok answer, after) := by
  induction segments generalizing here with
  | nil => exact absurd rfl filled
  | cons segment rest ih =>
      obtain ⟨inner, reached, below⟩ := Option.bind_eq_some_iff.mp found
      cases rest with
      | nil =>
          obtain ⟨place, named⟩ := exists_placeOf path reached
          refine ⟨(edit place).1, (edit place).2, ?_⟩
          rw [descendTo, editLast_eq, named]
      | cons next more =>
          obtain ⟨deeper, deep, -⟩ := Option.bind_eq_some_iff.mp below
          obtain ⟨answer, left, walked⟩ := ih (List.cons_ne_nil next more) below
          refine ⟨answer, here.put (here.pinStep segment) left, ?_⟩
          rw [descendTo_cons, enterStep_of_step? reached deep]
          simp only [walked]

/-! ### What stands at the place of a write -/

/-- The place that a last step names holds what the step reads. -/
theorem current_of_placeOf {here : Json} {last : Segment} {place : Place}
    (named : placeOf path here last = .ok place) : place.current = here.step? last := by
  cases here with
  | obj members =>
      cases last with
      | name key =>
          cases named
          rfl
      | _ => cases named
  | arr items =>
      cases last with
      | name key => cases named
      | index index =>
          simp only [placeOf] at named
          split at named
          · cases named
            rfl
          · cases named
      | element key text =>
          cases found : findElement? items key text with
          | none => simp [placeOf, found] at named
          | some index =>
              simp only [placeOf, found, Except.ok.injEq] at named
              subst named
              rw [step?, List.find?_eq_bind_findIdx?_getElem?, ← findElement?, found]
              rfl
  | _ => cases last <;> cases named

/-- A writing walk that succeeds has edited a place that holds what the reading walk reads. -/
theorem descendTo_current {edit : Edit α} {here after : Json} {segments : List Segment}
    {answer : α} (walked : descendTo path edit here segments = (.ok answer, after)) :
    ∃ place, answer = (edit place).1 ∧ place.current = here.walk? segments := by
  induction segments generalizing here after with
  | nil => cases walked
  | cons segment rest ih =>
      cases rest with
      | nil =>
          rw [descendTo, editLast_eq] at walked
          cases named : placeOf path here segment with
          | error error =>
              rw [named] at walked
              cases walked
          | ok place =>
              rw [named] at walked
              cases walked
              refine ⟨place, rfl, ?_⟩
              rw [current_of_placeOf named, walk?_cons]
              cases here.step? segment <;> rfl
      | cons next more =>
          rw [descendTo_cons] at walked
          cases entered : enterStep path here segment next with
          | error error =>
              rw [entered] at walked
              cases walked
          | ok reached =>
              obtain ⟨step, inner⟩ := reached
              obtain ⟨-, -, rfl⟩ := enterStep_ok entered
              rcases below : descendTo path edit (here.child segment).opened (next :: more) with
                ⟨outcome, left⟩
              rw [entered] at walked
              simp only [below, Prod.mk.injEq] at walked
              obtain ⟨rfl, -⟩ := walked
              obtain ⟨place, answered, current⟩ := ih below
              refine ⟨place, answered, ?_⟩
              -- an object made on the way is empty where nothing was read
              rw [current, walk?_cons, step?_opened, ← walk?_cons]
              exact walk?_child here segment (List.cons_ne_nil next more)

end Walk

/-! ### Records -/

namespace Object

variable {record : Object} {path : FieldPath}

/-- Writing the value that is read at a path succeeds and leaves the record as it was. -/
theorem set_of_lookup? {value : Json} (found : record.lookup? path = some value) :
    record.set path value = (.ok (), record) := by
  have filled : path.segments ≠ [] := by
    intro none
    rw [lookup?, none] at found
    cases found
  rw [lookup?_eq_walk? record filled] at found
  let assign : Edit Unit := fun place => ((), place.assign value)
  obtain ⟨answer, after, walked⟩ := descendTo_of_walk? path assign filled found
  have kept : after = .obj record := by
    obtain ⟨-, overwritten⟩ := descendTo_assign walked
    rw [overwritten]
    apply writeAt_of_walk?
    rw [walk?_pin, found]
  have checked : checkWritable record path = .ok () := by
    rw [checkWritable_eq assign, walked]
    rfl
  rw [set, edit, checked]
  simp only [assign] at walked
  rw [walked, kept]
  rfl

/-- The place of a write that succeeds holds what a read of the record before it answers. -/
theorem current_of_locate {after : Object} {place : Place}
    (located : record.locate path = (.ok place, after)) : place.current = record.lookup? path := by
  rw [locate, edit] at located
  cases checked : checkWritable record path with
  | error error =>
      rw [checked] at located
      cases located
  | ok done =>
      rcases walked : descendTo path (fun place => (place, place.container)) (.obj record)
        path.segments with ⟨outcome, left⟩
      rw [checked] at located
      simp only [walked, Prod.mk.injEq] at located
      obtain ⟨rfl, -⟩ := located
      obtain ⟨reached, rfl, current⟩ := descendTo_current walked
      have filled : path.segments ≠ [] := by
        intro none
        rw [none] at walked
        cases walked
      rw [lookup?_eq_walk? record filled]
      exact current

end Object

/-- What a read finds through a path can be written back, and the record is then as it was,
with its keys in their order; and the place that a write ends at holds what a read of the record
before the write answers, nothing where the write had to make objects on the way. -/
theorem read_meets_write (record : Object) (path : FieldPath) :
    (∀ value, record.lookup? path = some value → record.set path value = (.ok (), record)) ∧
    ∀ place after, record.locate path = (.ok place, after) →
      place.current = record.lookup? path :=
  ⟨fun _ found => record.set_of_lookup? found, fun _ _ located => record.current_of_locate located⟩

/-- The second element of a list is written back through its number, behind an element that is
`null` and one that has the number under another key; of a `null` that is opened nothing is read
before, and nothing is found at the place. -/
theorem read_meets_write_opened :
    let items : Json := .arr [.null, .obj [("name", .str "15")],
      .obj [("name", .str "a"), ("num", .str "15")]]
    let record : Object := [("items", items), ("info", .null)]
    let name : FieldPath :=
      ⟨"items[\x7bnum:15\x7d].name", [.name "items", .element "num" "15", .name "name"], false⟩
    let note : FieldPath := ⟨"info.note", [.name "info", .name "note"], false⟩
    record.lookup? name = some (.str "a") ∧ record.set name (.str "a") = (.ok (), record) ∧
      ∃ place after, record.locate note = (.ok place, after) ∧ after ≠ record ∧
        place.current = none ∧ place.current = record.lookup? note := by
  intro items record name note
  obtain ⟨back, -⟩ := read_meets_write record name
  obtain ⟨-, meets⟩ := read_meets_write record note
  have opened : record.locate note =
      (.ok (.member [] "note"), [("items", items), ("info", .obj [])]) := rfl
  exact ⟨rfl, back _ rfl, _, _, opened, by simp [record], rfl, meets _ _ opened⟩

end RecordStore
