/-
Module: RecordStore.Proofs.Path.WriteLaw
Purpose: What a successful write through a path does to a record, read off the places of
  the record before and after.  A write that succeeds overwrites the pinned place of its
  path and nothing else.
Main exports: FieldPath.pinned, WriteLaw, descendTo_assign, writeLaw_of_set,
  object_made_at_null_element
-/
import RecordStore.Path.Parser
import RecordStore.Proofs.Path.Overwrite
import RecordStore.Proofs.Path.Walk

namespace RecordStore

open Json Object Segment

/-! ### The writing walk as overwriting -/

/-- The opened child is what opening answers. -/
theorem openContainer_ok {path : FieldPath} {child inner : Json} {next : Segment}
    (answer : openContainer path child next = .ok inner) : inner = child.opened := by
  unfold openContainer at answer
  split at answer <;> split at answer <;> cases answer <;> rfl

/-- A step that succeeds stands on the pinned place, and goes on from the opened child. -/
theorem enterStep_ok {path : FieldPath} {here : Json} {segment next : Segment}
    {entered : Segment × Json} (answer : enterStep path here segment next = .ok entered) :
    entered.1 = here.pinStep segment ∧ here.Holds (here.pinStep segment) ∧
      entered.2 = (here.child segment).opened := by
  have opening {child : Json} {step : Segment}
      (answer : (openContainer path child next).map (fun inner => (step, inner)) = .ok entered) :
      entered.1 = step ∧ entered.2 = child.opened := by
    cases reached : openContainer path child next with
    | error error => rw [reached] at answer; cases answer
    | ok inner =>
        rw [reached] at answer
        cases answer
        exact ⟨rfl, openContainer_ok reached⟩
  cases here with
  | obj members =>
      cases segment with
      | name key =>
          simp only [enterStep] at answer
          split at answer
          · cases answer
          · obtain ⟨step, inner⟩ := opening answer
            exact ⟨step, trivial, inner⟩
      | _ => cases answer
  | arr items =>
      cases segment with
      | name key => cases answer
      | index index =>
          simp only [enterStep] at answer
          cases present : items[index]? with
          | none => rw [present] at answer; cases answer
          | some child =>
              rw [present] at answer
              obtain ⟨step, inner⟩ := opening answer
              have inside : index < items.length := (List.getElem?_eq_some_iff.mp present).1
              have reached : (Json.arr items).step? (.index index) = some child := present
              refine ⟨step, inside, ?_⟩
              rw [inner, child_of_step? reached]
      | element key text =>
          simp only [enterStep] at answer
          cases found : findElement? items key text with
          | none => rw [found] at answer; cases answer
          | some index =>
              rw [found] at answer
              obtain ⟨step, inner⟩ := opening answer
              have pinned : pinStep (.arr items) (.element key text) = .index index := by
                simp [pinStep, found]
              have inside : index < items.length :=
                (List.findIdx?_eq_some_iff_getElem.mp found).1
              rw [pinned]
              refine ⟨step, inside, ?_⟩
              rw [inner, ← child_pinStep, pinned]
              rfl
  | _ => cases segment <;> cases answer

/-- A last step that succeeds stands on the pinned place. -/
theorem placeOf_ok {path : FieldPath} {here : Json} {last : Segment} {place : Place}
    (answer : placeOf path here last = .ok place) :
    here.Holds (here.pinStep last) ∧
      ∀ value, place.assign value = here.put (here.pinStep last) value := by
  cases here with
  | obj members =>
      cases last with
      | name key => cases answer; exact ⟨trivial, fun _ => rfl⟩
      | _ => cases answer
  | arr items =>
      cases last with
      | name key => cases answer
      | index index =>
          simp only [placeOf] at answer
          split at answer
          · rename_i inside
            cases answer
            exact ⟨inside, fun _ => rfl⟩
          · cases answer
      | element key text =>
          cases found : findElement? items key text with
          | none => simp [placeOf, found] at answer
          | some index =>
              simp only [placeOf, found, Except.ok.injEq] at answer
              subst answer
              have inside : index < items.length :=
                (List.findIdx?_eq_some_iff_getElem.mp found).1
              simp only [pinStep, found]
              exact ⟨inside, fun _ => rfl⟩
  | _ => cases last <;> cases answer

/-- A writing walk that succeeds overwrites the pinned place of its steps. -/
theorem descendTo_assign {path : FieldPath} {here after value : Json} {segments : List Segment}
    (walked : descendTo path (fun place => ((), place.assign value)) here segments =
      (.ok (), after)) :
    here.Fits (here.pin segments) ∧ after = writeAt value here (here.pin segments) := by
  induction segments generalizing here after with
  | nil => cases walked
  | cons segment rest ih =>
      cases rest with
      | nil =>
          simp only [descendTo] at walked
          rw [editLast_eq] at walked
          cases reached : placeOf path here segment with
          | error error => rw [reached] at walked; cases walked
          | ok place =>
              rw [reached] at walked
              cases walked
              obtain ⟨holds, assign⟩ := placeOf_ok reached
              simp only [pin, Fits, writeAt, holds.opened_eq, assign]
              exact ⟨⟨holds, trivial⟩, trivial⟩
      | cons next more =>
          rw [descendTo_cons] at walked
          cases entered : enterStep path here segment next with
          | error error => rw [entered] at walked; cases walked
          | ok reached =>
              obtain ⟨step, inner⟩ := reached
              obtain ⟨rfl, holds, rfl⟩ := enterStep_ok entered
              rcases below : descendTo path (fun place => ((), place.assign value))
                (here.child segment).opened (next :: more) with ⟨outcome, left⟩
              simp only [entered, below, Prod.mk.injEq] at walked
              obtain ⟨rfl, rfl⟩ := walked
              obtain ⟨fits, rfl⟩ := ih below
              simp only [pin_opened, fits_opened, writeAt_opened] at fits ⊢
              rw [pin, Fits, writeAt, holds.opened_eq, child_pinStep]
              exact ⟨⟨holds, fits⟩, rfl⟩

/-! ### The law of a write to a record -/

namespace FieldPath

/-- The path with every predicate replaced by the position of the first element it matches
on the walk through a record. -/
def pinned (path : FieldPath) (record : Object) : FieldPath :=
  { path with segments := Json.pin (.obj record) path.segments }

/-- Some steps end at a name of the path that stood for nothing or for `null`. -/
def AbsentName (path : FieldPath) (record : Object) (steps : List Segment) : Prop :=
  ∃ depth key, path.segments[depth]? = some (.name key) ∧
    steps = (path.pinned record).segments.take (depth + 1) ∧
    (walk? (.obj record) steps = none ∨ walk? (.obj record) steps = some .null)

/-- Some steps end at a position of the path at which `null` stood. -/
def NullElement (path : FieldPath) (record : Object) (steps : List Segment) : Prop :=
  ∃ depth index, path.segments[depth]? = some (.index index) ∧
    steps = (path.pinned record).segments.take (depth + 1) ∧
    walk? (.obj record) steps = some .null

end FieldPath

/-- `after` is what a write of a value through a path leaves of the record `before`. -/
structure WriteLaw (before after : Object) (path : FieldPath) (value : Json) : Prop where
  /-- The value is read back at the pinned path. -/
  reads : after.lookup? (path.pinned before) = some value
  /-- A path of names and positions apart from the pinned one reads as before. -/
  frame : ∀ other : FieldPath, AllPlain other.segments →
    ¬ other.segments <+: (path.pinned before).segments →
    ¬ (path.pinned before).segments <+: other.segments →
    after.lookup? other = before.lookup? other
  /-- Arrays that are not in the written value keep their length. -/
  arrays : ∀ steps items, AllPlain steps → ¬ (path.pinned before).segments <+: steps →
    walk? (.obj before) steps = some (.arr items) →
    ∃ now, walk? (.obj after) steps = some (.arr now) ∧ now.length = items.length
  /-- Objects that are not in the written value keep their keys in order, in front of new
  ones. -/
  objects : ∀ steps members, AllPlain steps → ¬ (path.pinned before).segments <+: steps →
    walk? (.obj before) steps = some (.obj members) →
    ∃ now fresh, walk? (.obj after) steps = some (.obj now) ∧
      Object.keys now = Object.keys members ++ fresh
  /-- An object that is made stands at a name of the path that stood for nothing or for
  `null`, or at a position of the path at which `null` stood. -/
  made : ∀ steps members, AllPlain steps → ¬ (path.pinned before).segments <+: steps →
    walk? (.obj after) steps = some (.obj members) →
    (∃ old, walk? (.obj before) steps = some (.obj old)) ∨
      path.AbsentName before steps ∨ path.NullElement before steps

/-- Lookup walks from the record as an object. -/
theorem Object.lookup?_eq_walk? (record : Object) {path : FieldPath} (some : path.segments ≠ []) :
    record.lookup? path = walk? (.obj record) path.segments := by
  unfold Object.lookup?
  cases steps : path.segments with
  | nil => exact absurd steps some
  | cons first rest => cases first <;> rfl

/-- The element a predicate matches is an object. -/
private theorem object_of_pinStep {here : Json} {key text : String} {index : Nat}
    (pinned : here.pinStep (.element key text) = .index index) :
    ∃ members, here.step? (.index index) = some (.obj members) := by
  cases here with
  | arr items =>
      cases found : findElement? items key text with
      | none => simp [pinStep, found] at pinned
      | some position =>
          simp only [pinStep, found, Segment.index.injEq] at pinned
          subst pinned
          obtain ⟨inside, matched, -⟩ := List.findIdx?_eq_some_iff_getElem.mp found
          simp only [step?, List.getElem?_eq_getElem inside]
          cases shape : items[position] with
          | obj members => exact ⟨members, rfl⟩
          | _ => rw [shape] at matched; simp [memberReads] at matched
  | _ => simp [pinStep] at pinned

/-- A vacant place one pinned step away belongs to a name or a position, since no predicate
matches `null`. -/
theorem origin_of_vacant_step {here : Json} {segment : Segment}
    (plain : (here.pinStep segment).IsPlain) (vacant : here.Vacant [here.pinStep segment]) :
    (∃ key, segment = .name key) ∨
      (∃ index, segment = .index index) ∧ here.walk? [here.pinStep segment] = some .null := by
  cases segment with
  | name key => exact .inl ⟨key, rfl⟩
  | index index =>
      have kept : here.pinStep (.index index) = .index index := by cases here <;> rfl
      rcases vacant with stood | ⟨-, front, key, shape⟩
      · exact .inr ⟨⟨index, rfl⟩, stood⟩
      · rw [kept] at shape
        cases front <;> simp at shape
  | element key text =>
      cases pinned : here.pinStep (.element key text) with
      | name other =>
          cases here <;> simp only [pinStep] at pinned <;> try cases pinned
          split at pinned <;> cases pinned
      | index index =>
          obtain ⟨members, reached⟩ := object_of_pinStep pinned
          rw [pinned] at vacant
          simp [Vacant, reached] at vacant
      | element _ _ =>
          rw [pinned] at plain
          exact False.elim plain

/-- A vacant place on the way to a pinned place ends at a name or a position of the path. -/
theorem origin_of_vacant {here : Json} {segments steps : List Segment}
    (above : steps <+: here.pin segments) (below : steps ≠ []) (plain : AllPlain steps)
    (vacant : here.Vacant steps) :
    ∃ depth, steps = (here.pin segments).take (depth + 1) ∧
      ((∃ key, segments[depth]? = some (.name key)) ∨
        (∃ index, segments[depth]? = some (.index index)) ∧ here.walk? steps = some .null) := by
  induction segments generalizing here steps with
  | nil => exact absurd (List.prefix_nil.mp above) below
  | cons segment rest ih =>
      cases steps with
      | nil => exact absurd rfl below
      | cons first more =>
          obtain ⟨rfl, beneath⟩ := List.cons_prefix_cons.mp above
          cases more with
          | nil =>
              refine ⟨0, by simp [pin], ?_⟩
              simpa using origin_of_vacant_step plain.head vacant
          | cons second others =>
              have some := List.cons_ne_nil second others
              rw [← vacant_child_iff here _ some, child_pinStep] at vacant
              obtain ⟨depth, taken, origin⟩ := ih beneath some plain.tail vacant
              rw [← child_pinStep, walk?_child here _ some] at origin
              exact ⟨depth + 1, by rw [pin, List.take_succ_cons, ← taken], by simpa using origin⟩

theorem pin_ne_nil {here : Json} {segments : List Segment} (some : segments ≠ []) :
    here.pin segments ≠ [] := by
  cases segments with
  | nil => exact absurd rfl some
  | cons first rest => simp [pin]

/-- Writing below a record leaves a record. -/
theorem obj_ofJson_writeAt {record : Object} {place : List Segment} {value : Json}
    (some : place ≠ []) (fits : (Json.obj record).Fits place) :
    Json.obj (ofJson (writeAt value (.obj record) place)) = writeAt value (.obj record) place := by
  cases place with
  | nil => exact absurd rfl some
  | cons first rest =>
      cases first with
      | name key => rfl
      | _ => exact False.elim fits.1

/-- A write that succeeds leaves the record as writing at the pinned place makes it. -/
theorem writeAt_of_set {record after : Object} {path : FieldPath} {value : Json}
    (written : record.set path value = (.ok (), after)) :
    path.segments ≠ [] ∧ (Json.obj record).Fits (path.pinned record).segments ∧
      Json.obj after = writeAt value (.obj record) (path.pinned record).segments := by
  unfold Object.set Object.edit at written
  cases checked : checkWritable record path with
  | error error => rw [checked] at written; cases written
  | ok done =>
      rcases walked : descendTo path (fun place => ((), place.assign value)) (.obj record)
        path.segments with ⟨outcome, left⟩
      simp only [checked, walked, Prod.mk.injEq] at written
      obtain ⟨rfl, rfl⟩ := written
      obtain ⟨fits, rfl⟩ := descendTo_assign walked
      have nonempty : path.segments ≠ [] := by
        intro none
        rw [none] at walked
        cases walked
      exact ⟨nonempty, fits, obj_ofJson_writeAt (pin_ne_nil nonempty) fits⟩

/-- A write that succeeds leaves the record with the pinned place overwritten. -/
theorem overwritten_of_set {record after : Object} {path : FieldPath} {value : Json}
    (written : record.set path value = (.ok (), after)) :
    path.segments ≠ [] ∧
      Overwritten (.obj record) (.obj after) (path.pinned record).segments value := by
  obtain ⟨nonempty, fits, left⟩ := writeAt_of_set written
  rw [left]
  exact ⟨nonempty, overwritten_writeAt fits value⟩

/-- What is written is read at the pinned path then. -/
theorem Object.lookup?_pinned_of_set {record after : Object} {path : FieldPath} {value : Json}
    (written : record.set path value = (.ok (), after)) :
    after.lookup? (path.pinned record) = some value := by
  obtain ⟨nonempty, law⟩ := overwritten_of_set written
  rw [lookup?_eq_walk? after (pin_ne_nil nonempty)]
  exact law.reads

/-- A write that succeeds is read back at the pinned path and keeps everything else: the
places apart from it, the lengths of arrays, and the keys of objects in their order.
Objects are made only where a step of the path stood for `null`, or a name for nothing. -/
theorem writeLaw_of_set {record after : Object} {path : FieldPath} {value : Json}
    (written : record.set path value = (.ok (), after)) : WriteLaw record after path value := by
  obtain ⟨nonempty, law⟩ := overwritten_of_set written
  have pinned_nonempty : (path.pinned record).segments ≠ [] := pin_ne_nil nonempty
  constructor
  case reads =>
    rw [Object.lookup?_eq_walk? after pinned_nonempty]
    exact law.reads
  case frame =>
    intro other plain above below
    have other_nonempty : other.segments ≠ [] := fun none => above (none ▸ List.nil_prefix)
    rw [Object.lookup?_eq_walk? after other_nonempty, Object.lookup?_eq_walk? record other_nonempty]
    exact law.frame other.segments plain above below
  case arrays => exact law.arrays
  case objects => exact law.objects
  case made =>
    intro steps members plain below stands
    rcases law.made steps members plain below stands with old | ⟨above, vacant⟩
    · exact .inl old
    · right
      cases steps with
      | nil => simp [Vacant] at vacant
      | cons first more =>
          obtain ⟨depth, taken, origin⟩ := origin_of_vacant above (by simp) plain vacant
          rcases origin with ⟨key, named⟩ | ⟨⟨index, counted⟩, null⟩
          · exact .inl ⟨depth, key, named, taken, vacant.symm.imp And.left id⟩
          · exact .inr ⟨depth, index, counted, taken, null⟩

/-- A write through a predicate fills the element it matched, and makes an object of the
`null` below it. -/
theorem writeLaw_of_set_predicate :
    let path : FieldPath := ⟨"items[\x7bnum:15\x7d].info.note",
      [.name "items", .element "num" "15", .name "info", .name "note"], false⟩
    let before : Object := [("items", .arr [.null, .obj [("num", .int 15), ("info", .null)]])]
    let after : Object :=
      [("items", .arr [.null, .obj [("num", .int 15), ("info", .obj [("note", .bool true)])]])]
    before.set path (.bool true) = (.ok (), after) ∧ WriteLaw before after path (.bool true) :=
  ⟨rfl, writeLaw_of_set rfl⟩

/-- Names are not the only steps at which objects are made: on the way to `a[0].b` the
`null` at the position `0` becomes an object too. -/
theorem object_made_at_null_element :
    ¬ ∀ (record after : Object) (path : FieldPath) (value : Json),
      FieldPath.parse path.raw = .ok path → record.set path value = (.ok (), after) →
      ∀ steps members, AllPlain steps → ¬ (path.pinned record).segments <+: steps →
        walk? (.obj after) steps = some (.obj members) →
        (∃ old, walk? (.obj record) steps = some (.obj old)) ∨ path.AbsentName record steps := by
  intro onlyNames
  have made := onlyNames [("a", .arr [.null])] [("a", .arr [.obj [("b", .bool true)]])]
    ⟨"a[0].b", [.name "a", .index 0, .name "b"], false⟩ (.bool true) rfl rfl
    [.name "a", .index 0] [("b", .bool true)]
    (by intro step mem; simp at mem; rcases mem with rfl | rfl <;> trivial) (by decide) rfl
  rcases made with ⟨old, stood⟩ | ⟨depth, key, named, taken, -⟩
  · cases stood
  · have long := congrArg List.length taken
    obtain rfl : depth = 1 := by
      simp only [FieldPath.pinned, pin, List.length_take, List.length_cons, List.length_nil] at long
      omega
    cases named

end RecordStore
