/-
Module: RecordStore.Proofs.Path.Overwrite
Purpose: What overwriting one place of a value does to the rest of it.  The new value reads
  back, places apart from it read as before, arrays keep their length, objects keep their
  keys in order, and an object is only made where something was absent or `null`.
Main exports: Overwritten, Overwritten.cons, overwritten_writeAt
-/
import RecordStore.Proofs.Path.Place

namespace RecordStore

open Json Segment

/-- `after` is `before` with the value at a place overwritten.  What stands at the place or
below it belongs to the new value; the shape laws are about everything else. -/
structure Overwritten (before after : Json) (place : List Segment) (value : Json) : Prop where
  /-- The new value is read back. -/
  reads : after.walk? place = some value
  /-- A place apart from the written one reads as before. -/
  frame : ∀ steps, AllPlain steps → ¬ steps <+: place → ¬ place <+: steps →
    after.walk? steps = before.walk? steps
  /-- Arrays stay arrays of the same length. -/
  arrays : ∀ steps items, AllPlain steps → ¬ place <+: steps →
    before.walk? steps = some (.arr items) →
    ∃ now, after.walk? steps = some (.arr now) ∧ now.length = items.length
  /-- Objects stay objects, with new keys behind the old ones only. -/
  objects : ∀ steps members, AllPlain steps → ¬ place <+: steps →
    before.walk? steps = some (.obj members) →
    ∃ now fresh, after.walk? steps = some (.obj now) ∧ Object.keys now = Object.keys members ++ fresh
  /-- An object that was not one stands on the way to the place, where `null` stood, or
  nothing under a name. -/
  made : ∀ steps members, AllPlain steps → ¬ place <+: steps →
    after.walk? steps = some (.obj members) →
    (∃ old, before.walk? steps = some (.obj old)) ∨ steps <+: place ∧ before.Vacant steps

namespace Overwritten

/-- At the empty place the value itself is replaced. -/
theorem nil (before value : Json) : Overwritten before value [] value where
  reads := rfl
  frame := fun _ _ _ below => absurd List.nil_prefix below
  arrays := fun _ _ _ below => absurd List.nil_prefix below
  objects := fun _ _ _ below => absurd List.nil_prefix below
  made := fun _ _ _ below => absurd List.nil_prefix below

section Step

variable {here inner value : Json} {step : Segment} {rest : List Segment}

/-- A present value below a child stands below the step. -/
private theorem walk?_of_child {found : Json} {steps : List Segment}
    (below : (here.child step).walk? steps = some found) (present : found ≠ .null) :
    here.walk? (step :: steps) = some found := by
  cases steps with
  | nil =>
      cases reached : here.step? step with
      | none =>
          simp only [child, reached, Option.getD_none, walk?_nil, Option.some.injEq] at below
          exact absurd below.symm present
      | some other =>
          rw [child_of_step? reached] at below
          simpa [reached] using below
  | cons next more => rw [← walk?_child here step (by simp)]; exact below

private theorem child_of_walk? {found : Json} {steps : List Segment}
    (below : here.walk? (step :: steps) = some found) :
    (here.child step).walk? steps = some found := by
  rw [walk?_cons, Option.bind_eq_some_iff] at below
  obtain ⟨next, reached, rest⟩ := below
  rw [child_of_step? reached]
  exact rest

/-- A step that holds but leads nowhere is a name. -/
private theorem name_of_absent (holds : here.opened.Holds step) (absent : here.step? step = none) :
    ∃ key, step = .name key := by
  cases here <;> cases step <;> simp_all [opened, Holds, step?]

/-- A vacant place below a child is vacant below the step. -/
private theorem vacant_of_child (holds : here.opened.Holds step) {steps : List Segment}
    (below : (here.child step).Vacant steps) : here.Vacant (step :: steps) := by
  cases steps with
  | nil =>
      cases reached : here.step? step with
      | none =>
          obtain ⟨key, rfl⟩ := name_of_absent holds reached
          exact .inr ⟨by simp [reached], [], key, rfl⟩
      | some other =>
          rw [child_of_step? reached] at below
          rcases below with stands | ⟨missing, -⟩
          · exact .inl (by simpa [reached] using stands)
          · simp at missing
  | cons next more => exact (vacant_child_iff here step (List.cons_ne_nil next more)).mp below

/-- Putting an overwritten child back overwrites the container one step further up. -/
theorem cons (holds : here.opened.Holds step)
    (below : Overwritten (here.child step) inner rest value) :
    Overwritten here (here.opened.put step inner) (step :: rest) value where
  reads := by
    rw [walk?_put_self holds]
    exact below.reads
  frame := by
    intro steps plain above beneath
    cases steps with
    | nil => exact absurd List.nil_prefix above
    | cons first more =>
        by_cases same : first = step
        · subst same
          rw [List.cons_prefix_cons, not_and] at above beneath
          have more_ne : more ≠ [] := by
            rintro rfl
            exact above rfl List.nil_prefix
          rw [walk?_put_self holds, ← walk?_child here first more_ne]
          exact below.frame more plain.tail (above rfl) (beneath rfl)
        · rw [walk?_put_of_ne _ _ plain.head same]
          simp
  arrays := by
    intro steps items plain beneath stood
    cases steps with
    | nil =>
        obtain rfl : here = .arr items := by simpa using stood
        cases step with
        | index index => exact ⟨_, rfl, List.length_set⟩
        | _ => exact False.elim holds
    | cons first more =>
        by_cases same : first = step
        · subst same
          rw [walk?_put_self holds]
          exact below.arrays more items plain.tail
            (fun reached => beneath (List.cons_prefix_cons.mpr ⟨rfl, reached⟩))
            (child_of_walk? stood)
        · rw [walk?_put_of_ne _ _ plain.head same]
          exact ⟨items, by simpa using stood, rfl⟩
  objects := by
    intro steps members plain beneath stood
    cases steps with
    | nil =>
        obtain rfl : here = .obj members := by simpa using stood
        cases step with
        | name key =>
            obtain ⟨fresh, keys⟩ := Object.exists_keys_insert members key inner
            exact ⟨_, fresh, rfl, keys⟩
        | _ => exact False.elim holds
    | cons first more =>
        by_cases same : first = step
        · subst same
          rw [walk?_put_self holds]
          exact below.objects more members plain.tail
            (fun reached => beneath (List.cons_prefix_cons.mpr ⟨rfl, reached⟩))
            (child_of_walk? stood)
        · rw [walk?_put_of_ne _ _ plain.head same]
          exact ⟨members, [], by simpa using stood, by simp⟩
  made := by
    intro steps members plain beneath stands
    cases steps with
    | nil =>
        cases here with
        | null => exact .inr ⟨List.nil_prefix, .inl rfl⟩
        | obj old => exact .inl ⟨old, rfl⟩
        | arr items => cases step <;> simp [opened, put] at stands
        | _ => exact False.elim holds
    | cons first more =>
        by_cases same : first = step
        · subst same
          rw [walk?_put_self holds] at stands
          have outcome := below.made more members plain.tail
            (fun reached => beneath (List.cons_prefix_cons.mpr ⟨rfl, reached⟩)) stands
          rcases outcome with ⟨old, stood⟩ | ⟨above, vacant⟩
          · exact .inl ⟨old, walk?_of_child stood (by simp)⟩
          · exact .inr ⟨List.cons_prefix_cons.mpr ⟨rfl, above⟩, vacant_of_child holds vacant⟩
        · rw [walk?_put_of_ne _ _ plain.head same] at stands
          exact .inl ⟨members, by simpa using stands⟩

end Step

end Overwritten

/-- Writing at a place that fits overwrites exactly that place. -/
theorem overwritten_writeAt {here : Json} {place : List Segment} (fits : here.Fits place)
    (value : Json) : Overwritten here (writeAt value here place) place value := by
  induction place generalizing here with
  | nil => exact .nil here value
  | cons step rest ih =>
      obtain ⟨holds, below⟩ := fits
      exact .cons holds (ih below)

end RecordStore
