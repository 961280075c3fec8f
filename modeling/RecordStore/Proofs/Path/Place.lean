/-
Module: RecordStore.Proofs.Path.Place
Purpose: Places inside a value, given by names and positions only, the fixing of a path
  with predicates to such a place, and the laws of one step to or into a place.
Main exports: Segment.IsPlain, Json.pin, Json.Holds, Json.Fits, Json.put, Json.writeAt
-/
import RecordStore.Path.Lookup
import RecordStore.Proofs.Json.Members

namespace RecordStore

/-!
A step that is a name or a position stands for one place of a container; a predicate
stands for a place only relative to what the container holds.  `Json.pin` fixes the
predicates of a path on a value, and `Json.writeAt` then overwrites without looking for
anything.  The writing walk is compared with it in `RecordStore.Proofs.Path.Walk`.
-/

/-- Steps that stand for the same place whatever a container holds. -/
def Segment.IsPlain : Segment → Prop
  | .name _ => True
  | .index _ => True
  | .element _ _ => False

/-- Steps that are names and positions only. -/
def Segment.AllPlain (steps : List Segment) : Prop := ∀ step ∈ steps, step.IsPlain

instance : DecidablePred Segment.IsPlain
  | .name _ => .isTrue trivial
  | .index _ => .isTrue trivial
  | .element _ _ => .isFalse id

instance : DecidablePred Segment.AllPlain :=
  fun steps => inferInstanceAs (Decidable (∀ step ∈ steps, step.IsPlain))

namespace Segment.AllPlain

variable {step : Segment} {rest : List Segment}

theorem head (plain : AllPlain (step :: rest)) : step.IsPlain := plain step (.head _)

theorem tail (plain : AllPlain (step :: rest)) : AllPlain rest :=
  fun other mem => plain other (.tail _ mem)

end Segment.AllPlain

namespace Json

/-- A step with a predicate replaced by the position of the first element it matches. -/
def pinStep (here : Json) (segment : Segment) : Segment :=
  match here, segment with
  | .arr items, .element key text =>
      match findElement? items key text with
      | some index => .index index
      | none => segment
  | _, _ => segment

/-- The value one step away, with `null` for an absent one. -/
def child (here : Json) (segment : Segment) : Json := (here.step? segment).getD .null

/-- The steps with every predicate replaced by a position on the walk through a value. -/
def pin : Json → List Segment → List Segment
  | _, [] => []
  | here, segment :: rest => here.pinStep segment :: pin (here.child segment) rest

/-- Whether a step stands for a place of a container that can be written: any name in an
object, a present position in an array. -/
def Holds : Json → Segment → Prop
  | .obj _, .name _ => True
  | .arr items, .index index => index < items.length
  | _, _ => False

/-- `null` opened as an empty object; every other value as it is. -/
def opened : Json → Json
  | .null => .obj []
  | value => value

/-- A container with a value at the place of a step. -/
def put : Json → Segment → Json → Json
  | .obj members, .name key, value => .obj (Object.insert members key value)
  | .arr items, .index index, value => .arr (items.set index value)
  | here, _, _ => here

/-- Whether every step finds its place, where `null` and absent values are opened. -/
def Fits : Json → List Segment → Prop
  | _, [] => True
  | here, step :: rest => here.opened.Holds step ∧ Fits (here.child step) rest

/-- A value with another one at the end of the steps; what is absent on the way is made. -/
def writeAt (value : Json) : Json → List Segment → Json
  | _, [] => value
  | here, step :: rest => here.opened.put step (writeAt value (here.child step) rest)

/-- Some steps lead to a place at which a write makes an object: `null` stands there, or
nothing at all under a name. -/
def Vacant (here : Json) (steps : List Segment) : Prop :=
  here.walk? steps = some .null ∨
    here.walk? steps = none ∧ ∃ front key, steps = front ++ [.name key]

@[simp] theorem walk?_nil (here : Json) : here.walk? [] = some here := rfl

@[simp] theorem walk?_cons (here : Json) (step : Segment) (rest : List Segment) :
    here.walk? (step :: rest) = (here.step? step).bind (walk? · rest) := rfl

/-- A walk over two parts goes on from where the first ends. -/
theorem walk?_append (here : Json) (front back : List Segment) :
    here.walk? (front ++ back) = (here.walk? front).bind (walk? · back) := by
  induction front generalizing here with
  | nil => rfl
  | cons step rest ih =>
      rw [List.cons_append, walk?_cons, walk?_cons]
      cases here.step? step with
      | none => rfl
      | some next => exact ih next

/-! ### Opening -/

@[simp] theorem opened_opened (here : Json) : here.opened.opened = here.opened := by
  cases here <;> rfl

@[simp] theorem step?_opened (here : Json) (step : Segment) :
    here.opened.step? step = here.step? step := by
  cases here <;> cases step <;> rfl

@[simp] theorem child_opened (here : Json) (step : Segment) :
    here.opened.child step = here.child step := by
  simp [child]

@[simp] theorem pin_opened (here : Json) (steps : List Segment) :
    here.opened.pin steps = here.pin steps := by
  cases steps with
  | nil => rfl
  | cons step rest =>
      have same : here.opened.pinStep step = here.pinStep step := by
        cases here <;> cases step <;> rfl
      simp [pin, same]

@[simp] theorem fits_opened (here : Json) (steps : List Segment) :
    here.opened.Fits steps ↔ here.Fits steps := by
  cases steps with
  | nil => exact Iff.rfl
  | cons step rest => simp [Fits]

@[simp] theorem writeAt_opened (value here : Json) (steps : List Segment) :
    writeAt value here.opened steps = writeAt value here steps := by
  cases steps with
  | nil => rfl
  | cons step rest => simp [writeAt]

theorem Holds.opened_eq {here : Json} {step : Segment} (holds : here.Holds step) :
    here.opened = here := by
  cases here with
  | null => exact False.elim holds
  | _ => rfl

/-! ### Absent values -/

/-- Nothing stands below `null`. -/
theorem walk?_null {steps : List Segment} (some : steps ≠ []) : walk? .null steps = none := by
  cases steps with
  | nil => exact absurd rfl some
  | cons step rest => cases step <;> rfl

/-- The child of a step that reads a value is that value. -/
theorem child_of_step? {here value : Json} {step : Segment} (found : here.step? step = some value) :
    here.child step = value := by
  simp [child, found]

/-- Below a child, absent or not, a walk reads what it reads from the parent. -/
theorem walk?_child (here : Json) (step : Segment) {rest : List Segment} (some : rest ≠ []) :
    (here.child step).walk? rest = here.walk? (step :: rest) := by
  unfold child
  cases found : here.step? step with
  | none => simp [found, walk?_null some]
  | some value => simp [found]

/-- A place below a child is vacant exactly when it is so below the step. -/
theorem vacant_child_iff (here : Json) (step : Segment) {rest : List Segment} (some : rest ≠ []) :
    (here.child step).Vacant rest ↔ here.Vacant (step :: rest) := by
  unfold Vacant
  rw [walk?_child here step some]
  constructor
  · rintro (stood | ⟨missing, front, key, rfl⟩)
    · exact .inl stood
    · exact .inr ⟨missing, step :: front, key, rfl⟩
  · rintro (stood | ⟨missing, front, key, shape⟩)
    · exact .inl stood
    · cases front with
      | nil => exact absurd (List.cons.inj shape).2 some
      | cons first front => exact .inr ⟨missing, front, key, (List.cons.inj shape).2⟩

/-! ### One step -/

theorem step?_put_self {here : Json} {step : Segment} (holds : here.Holds step) (value : Json) :
    (here.put step value).step? step = some value := by
  cases here <;> cases step <;> simp_all [Holds, put, step?]

theorem step?_put_of_ne (here : Json) {step other : Segment} (value : Json)
    (plain : other.IsPlain) (apart : other ≠ step) :
    (here.put step value).step? other = here.step? other := by
  cases here with
  | obj members =>
      cases step <;> cases other <;> simp_all [put, step?, Object.get?_insert_of_ne]
  | arr items =>
      cases step <;> cases other <;> simp_all [put, step?, Segment.IsPlain]
      exact List.getElem?_set_ne (Ne.symm apart)
  | _ => rfl

/-- Away from the step that is put, a walk reads what it read before. -/
theorem walk?_put_of_ne (here : Json) {step other : Segment} (value : Json)
    (plain : other.IsPlain) (apart : other ≠ step) (rest : List Segment) :
    (here.put step value).walk? (other :: rest) = here.walk? (other :: rest) := by
  simp [step?_put_of_ne here value plain apart]

theorem walk?_put_self {here : Json} {step : Segment} (holds : here.Holds step) (value : Json)
    (rest : List Segment) :
    (here.put step value).walk? (step :: rest) = value.walk? rest := by
  simp [step?_put_self holds]

/-- The pinned step of a matching predicate leads where the predicate leads. -/
theorem step?_pinStep (here : Json) (segment : Segment) :
    here.step? (here.pinStep segment) = here.step? segment := by
  cases here with
  | arr items =>
      cases segment with
      | element key text =>
          cases found : findElement? items key text with
          | none => simp [pinStep, found]
          | some index =>
              simp only [pinStep, found, step?]
              rw [List.find?_eq_bind_findIdx?_getElem?]
              unfold findElement? at found
              simp [found]
      | _ => rfl
  | _ => rfl

@[simp] theorem child_pinStep (here : Json) (segment : Segment) :
    here.child (here.pinStep segment) = here.child segment := by
  simp [child, step?_pinStep]

end Json

end RecordStore
