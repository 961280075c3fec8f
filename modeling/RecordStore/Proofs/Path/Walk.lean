/-
Module: RecordStore.Proofs.Path.Walk
Purpose: The writing walk step by step, and its agreement with the checking walk.  Both
  stand on the same container after every step, where the check sees an object that is
  still to be made as the empty one the walk makes; so one fails exactly when the other
  does, with the same error.
Main exports: enterStep, placeOf, descendTo_cons, checkFrom_eq_descendTo,
  check_decides_write
-/
import RecordStore.Path.Write
import RecordStore.Proofs.Path.Place

namespace RecordStore

open Json

variable {α : Type} {path : FieldPath}

/-! ### The steps of the writing walk -/

/-- One step of the writing walk: the step with its predicate fixed, and the child opened
as the container that the next step needs. -/
def enterStep (path : FieldPath) (here : Json) (segment next : Segment) :
    Except PathError (Segment × Json) :=
  match here, segment with
  | .obj members, .name key =>
      let child := Object.get? members key
      if next.isSelector && (child.map Json.isNull).getD true then .error (.notFound path.raw)
      else (openContainer path (child.getD .null) next).map fun inner => (.name key, inner)
  | .arr items, .index index =>
      match items[index]? with
      | none => .error (.indexOutOfRange path.raw index items.length)
      | some child => (openContainer path child next).map fun inner => (.index index, inner)
  | .arr items, .element key text =>
      match findElement? items key text with
      | none => .error (.notFound path.raw)
      | some index =>
          (openContainer path (items[index]?.getD .null) next).map fun inner =>
            (.index index, inner)
  | .arr _, .name _ => .error (.typeMismatch path.raw .object)
  | _, _ => .error (.typeMismatch path.raw .array)

/-- The place that the last step of a write names in a container. -/
def placeOf (path : FieldPath) (here : Json) (last : Segment) : Except PathError Place :=
  match here, last with
  | .obj members, .name key => .ok (.member members key)
  | .arr items, .index index =>
      if index < items.length then .ok (.element items index)
      else .error (.indexOutOfRange path.raw index items.length)
  | .arr items, .element key text =>
      match findElement? items key text with
      | some index => .ok (.element items index)
      | none => .error (.notFound path.raw)
  | .arr _, .name _ => .error (.typeMismatch path.raw .object)
  | _, _ => .error (.typeMismatch path.raw .array)

/-- The last step either fails and keeps the container, or edits its place. -/
theorem editLast_eq (edit : Edit α) (here : Json) (last : Segment) :
    editLast path edit here last =
      match placeOf path here last with
      | .error error => (.error error, here)
      | .ok place => (.ok (edit place).1, (edit place).2) := by
  cases here with
  | obj members => cases last <;> rfl
  | arr items =>
      cases last with
      | name key => rfl
      | index index =>
          by_cases inside : index < items.length <;> simp [editLast, placeOf, inside]
      | element key text =>
          cases found : findElement? items key text <;> simp [editLast, placeOf, found]
  | _ => cases last <;> rfl

/-- A step before the last either fails and keeps the container, or puts back the child as
the rest of the walk leaves it. -/
theorem descendTo_cons (edit : Edit α) (here : Json) (segment next : Segment)
    (rest : List Segment) :
    descendTo path edit here (segment :: next :: rest) =
      match enterStep path here segment next with
      | .error error => (.error error, here)
      | .ok (step, inner) =>
          ((descendTo path edit inner (next :: rest)).1,
            here.put step (descendTo path edit inner (next :: rest)).2) := by
  cases here with
  | obj members =>
      cases segment with
      | name key =>
          simp only [descendTo, enterStep]
          split
          · rfl
          · cases openContainer path ((Object.get? members key).getD .null) next <;> rfl
      | _ => rfl
  | arr items =>
      cases segment with
      | name key => rfl
      | index index =>
          simp only [descendTo, enterStep]
          cases items[index]? with
          | none => rfl
          | some child => cases opened : openContainer path child next <;> simp [opened, Except.map, put]
      | element key text =>
          simp only [descendTo, enterStep]
          cases findElement? items key text with
          | none => rfl
          | some index =>
              cases opened : openContainer path (items[index]?.getD .null) next <;>
                simp [opened, Except.map, put]
  | _ => cases segment <;> rfl

/-! ### Agreement of the two walks -/

/-- The container a view stands for; one still to be made is empty. -/
def View.container : View → Json
  | .object members => .obj (members.getD [])
  | .array items => .arr items

/-- One step of the checking walk with the opening of the child. -/
def checkEnter (path : FieldPath) (view : View) (segment next : Segment) : Except PathError View :=
  (checkStep path view segment next).bind fun child => checkContainer path child next

theorem checkFrom_cons (view : View) (segment next : Segment) (rest : List Segment) :
    checkFrom path view (segment :: next :: rest) =
      (checkEnter path view segment next).bind fun inner => checkFrom path inner (next :: rest) := by
  simp only [checkFrom, checkEnter]
  cases checkStep path view segment next with
  | error error => rfl
  | ok child =>
      simp only [Except.bind]
      cases checkContainer path child next <;> rfl

/-- Opening a child gives the container the checking walk sees. -/
theorem checkContainer_eq (child : Option Json) (next : Segment) :
    (checkContainer path child next).map View.container =
      openContainer path (child.getD .null) next := by
  cases selects : next.isSelector with
  | true =>
      cases child with
      | none => simp [checkContainer, openContainer, selects, Except.map]
      | some value =>
          cases value <;>
            simp [checkContainer, openContainer, selects, Except.map, View.container]
  | false =>
      cases child with
      | none => simp [checkContainer, openContainer, selects, Except.map, View.container]
      | some value =>
          cases value <;>
            simp [checkContainer, openContainer, selects, Except.map, View.container]

/-- The two walks take a step to the same container, or refuse it alike. -/
theorem checkEnter_eq (path : FieldPath) (view : View) (segment next : Segment) :
    (checkEnter path view segment next).map View.container =
      (enterStep path view.container segment next).map Prod.snd := by
  have opening (child : Option Json) (step : Segment) :
      (checkContainer path child next).map View.container =
        ((openContainer path (child.getD .null) next).map
          fun inner => (step, inner)).map Prod.snd := by
    rw [checkContainer_eq]
    cases openContainer path (child.getD .null) next <;> rfl
  cases view with
  | object members =>
      cases segment with
      | name key =>
          have same : Object.get? (members.getD []) key = members.bind (Object.get? · key) := by
            cases members <;> rfl
          simp only [checkEnter, checkStep, View.container, enterStep, same]
          split
          · rfl
          · exact opening _ _
      | _ => rfl
  | array items =>
      cases segment with
      | name key => rfl
      | index index =>
          simp only [checkEnter, checkStep, View.container, enterStep]
          cases items[index]? with
          | none => rfl
          | some child => exact opening (some child) _
      | element key text =>
          simp only [checkEnter, checkStep, View.container, enterStep]
          rw [List.find?_eq_bind_findIdx?_getElem?, ← findElement?]
          cases found : findElement? items key text with
          | none => rfl
          | some index =>
              have inside : index < items.length :=
                (List.findIdx?_eq_some_iff_getElem.mp found).1
              simp only [Option.bind_some, List.getElem?_eq_getElem inside]
              exact opening (some _) _

theorem checkLast_eq (view : View) (last : Segment) :
    checkLast path view last = (placeOf path view.container last).map fun _ => () := by
  cases view with
  | object members => cases last <;> rfl
  | array items =>
      cases last with
      | name key => rfl
      | index index =>
          by_cases inside : index < items.length <;>
            simp [checkLast, placeOf, View.container, inside, Except.map]
      | element key text =>
          cases found : findElement? items key text <;>
            simp [checkLast, placeOf, View.container, found, Except.map]

/-- The checking walk answers what the writing walk would, whatever the edit. -/
theorem checkFrom_eq_descendTo (edit : Edit α) (view : View) (segments : List Segment) :
    checkFrom path view segments =
      (descendTo path edit view.container segments).1.map fun _ => () := by
  induction segments generalizing view with
  | nil => cases view <;> rfl
  | cons segment rest ih =>
      cases rest with
      | nil =>
          simp only [checkFrom, descendTo]
          rw [checkLast_eq, editLast_eq]
          cases placeOf path view.container segment <;> rfl
      | cons next more =>
          rw [checkFrom_cons, descendTo_cons]
          have step := checkEnter_eq path view segment next
          cases checked : checkEnter path view segment next with
          | error error =>
              cases entered : enterStep path view.container segment next with
              | error other =>
                  rw [checked, entered] at step
                  cases step
                  rfl
              | ok reached => rw [checked, entered] at step; cases step
          | ok inner =>
              cases entered : enterStep path view.container segment next with
              | error other => rw [checked, entered] at step; cases step
              | ok reached =>
                  rw [checked, entered] at step
                  have same : inner.container = reached.2 := Except.ok.inj step
                  simp only [Except.bind]
                  rw [ih inner, same]

/-- The check of a record answers what the writing walk from that record would. -/
theorem checkWritable_eq (edit : Edit α) (record : Object) :
    checkWritable record path =
      (descendTo path edit (.obj record) path.segments).1.map fun _ => () :=
  checkFrom_eq_descendTo edit (.object (some record)) path.segments

/-- After a check that passes, the writing walk reaches its place. -/
theorem descendTo_ok_of_check {record : Object} (checked : checkWritable record path = .ok ())
    (edit : Edit α) :
    ∃ answer after, descendTo path edit (.obj record) path.segments = (.ok answer, after) := by
  rw [checkWritable_eq edit] at checked
  rcases walked : descendTo path edit (.obj record) path.segments with ⟨outcome, after⟩
  rw [walked] at checked
  cases outcome with
  | error error => cases checked
  | ok answer => exact ⟨answer, after, rfl⟩

/-- An edit that fails was refused by the check and keeps the record. -/
theorem edit_error {record after : Object} {change : Edit α} {error : PathError}
    (failed : record.edit path change = (.error error, after)) :
    checkWritable record path = .error error ∧ after = record := by
  unfold Object.edit at failed
  cases checked : checkWritable record path with
  | error refusal =>
      rw [checked] at failed
      cases failed
      exact ⟨rfl, rfl⟩
  | ok done =>
      obtain ⟨answer, left, walked⟩ := descendTo_ok_of_check checked change
      rw [checked] at failed
      simp only [walked] at failed
      cases failed

/-- The check and the writing walk succeed and fail together, with the same error, for
every edit; so a write that fails leaves the record as it was, and after a check that
passes no step of the walk fails. -/
theorem check_decides_write (record : Object) (path : FieldPath) :
    (∀ (α : Type) (edit : Edit α),
      checkWritable record path =
        (descendTo path edit (.obj record) path.segments).1.map fun _ => ()) ∧
    (∀ error after, record.locate path = (.error error, after) → after = record) ∧
    (∀ value error after, record.set path value = (.error error, after) → after = record) ∧
    (checkWritable record path = .ok () → ∀ (α : Type) (edit : Edit α),
      ∃ answer after, descendTo path edit (.obj record) path.segments = (.ok answer, after)) := by
  refine ⟨fun α edit => checkWritable_eq edit record, ?_, ?_, ?_⟩
  · intro error after failed
    exact (edit_error failed).2
  · intro value error after failed
    exact (edit_error failed).2
  · intro checked α edit
    exact descendTo_ok_of_check checked edit

/-- Two missing objects on the way to a list that is not there: the write is refused and
makes neither of them, while the path to a member of the same object passes. -/
theorem check_decides_write_missing :
    let record : Object := [("name", .str "x")]
    let list : FieldPath := ⟨"a.b[0]", [.name "a", .name "b", .index 0], false⟩
    let member : FieldPath := ⟨"a.b", [.name "a", .name "b"], false⟩
    (∃ after, record.locate list = (.error (.notFound "a.b[0]"), after) ∧ after = record) ∧
      (∃ after, record.set list (.int 1) = (.error (.notFound "a.b[0]"), after) ∧
        after = record) ∧
      checkWritable record member = .ok () ∧
      ∃ answer after, descendTo member (fun place => ((), place.assign (.int 1)))
        (.obj record) member.segments = (.ok answer, after) := by
  intro record list member
  have refused := check_decides_write record list
  have passed := check_decides_write record member
  exact ⟨⟨_, rfl, refused.2.1 _ _ rfl⟩, ⟨_, rfl, refused.2.2.1 (.int 1) _ _ rfl⟩, rfl,
    passed.2.2.2 rfl _ _⟩

end RecordStore
