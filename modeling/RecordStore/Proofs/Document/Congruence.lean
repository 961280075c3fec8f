/-
Module: RecordStore.Proofs.Document.Congruence
Purpose: Operands that no test tells apart.  Two values that are the same as written are equal to
  the same stored values, stand in the same order to them, and are found in the same arrays.
Main exports: Document.compare_congr, Document.containsEqual_congr
-/
import RecordStore.Document.Query
import RecordStore.Proofs.Json.Alike

namespace RecordStore

/-- Doubles of one value stand in one order to every other. -/
theorem Binary64.compare?_congr {y z : Binary64} (equal : y.sameValue z) (x : Binary64) :
    x.compare? y = x.compare? z := by
  obtain ⟨left, right, place⟩ := sameValue_iff.mp equal
  rw [compare?, compare?, left, right, place]

/-- Numbers that are the same as written are one integer or doubles of one value. -/
theorem Number.compare?_congr {m n : Number} (equal : m.same n) (x : Binary64) :
    x.compare? m.toBinary64 = x.compare? n.toBinary64 := by
  cases m with
  | int i =>
      cases n with
      | int j =>
          obtain rfl : i = j := by simpa [same] using equal
          rfl
      | float y => cases equal
  | float y =>
      cases n with
      | int j => cases equal
      | float z => exact Binary64.compare?_congr equal x

namespace Document

/-- What a value is that is the same as another. -/
theorem same_cases {v w : Json} (equal : v.same w) :
    v = w ∨ (∃ m n, v = .num m ∧ w = .num n ∧ m.same n) ∨
      (∃ xs ys, v = .arr xs ∧ w = .arr ys) ∨ ∃ xs ys, v = .obj xs ∧ w = .obj ys := by
  cases v <;> cases w <;> first | cases equal; done | simp_all [Json.same]

/-- Values that are the same are of one kind, and one value if they are no numbers, arrays or
objects. -/
theorem kind_of_same {v w : Json} (equal : v.same w) :
    v.isNull = w.isNull ∧ v.isArr = w.isArr ∧ v.bool? = w.bool? ∧ v.str? = w.str? := by
  rcases same_cases equal with rfl | ⟨_, _, rfl, rfl, -⟩ | ⟨_, _, rfl, rfl⟩ | ⟨_, _, rfl, rfl⟩
  all_goals exact ⟨rfl, rfl, rfl, rfl⟩

/-- A stored value stands in one order to bounds that are the same. -/
theorem compare_congr {v w : Json} (equal : v.same w) (actual : Json) :
    compare actual v = compare actual w := by
  rcases same_cases equal with rfl | ⟨m, n, rfl, rfl, numbers⟩ | ⟨xs, ys, rfl, rfl⟩ |
    ⟨xs, ys, rfl, rfl⟩
  · rfl
  · have each : compareNumbers actual (.num m) = compareNumbers actual (.num n) := by
      unfold compareNumbers
      cases number? actual with
      | none => rfl
      | some x => exact Number.compare?_congr numbers x
    cases actual <;> exact each
  · cases actual <;> rfl
  · cases actual <;> rfl

section Equality

variable {v w : Json} (left : v.KeysDistinct) (right : w.KeysDistinct) (equal : v.same w)
include left right equal

theorem equal_congr {actual : Json} (stored : actual.KeysDistinct) :
    Document.equal actual v = Document.equal actual w := by
  have written := Json.same_congr left right equal stored
  cases actual with
  | num x =>
      rcases same_cases equal with rfl | ⟨m, n, rfl, rfl, numbers⟩ | ⟨xs, ys, rfl, rfl⟩ |
        ⟨xs, ys, rfl, rfl⟩
      · rfl
      · exact congrArg (· == some .eq) (Number.compare?_congr numbers x.toBinary64)
      · rfl
      · rfl
  | _ => exact written

/-- Operands that are the same are found in the same values and the same arrays. -/
theorem containsEqual_congr {actual : Json} (stored : actual.KeysDistinct) :
    containsEqual actual v = containsEqual actual w := by
  obtain ⟨-, kind, -, -⟩ := kind_of_same equal
  have whole := equal_congr left right equal stored
  cases actual with
  | arr items =>
      have each : items.any (Document.equal · v) = items.any (Document.equal · w) := by
        rw [Bool.eq_iff_iff, List.any_eq_true, List.any_eq_true]
        refine exists_congr fun item => and_congr_right fun listed => ?_
        obtain ⟨i, inside, rfl⟩ := List.getElem_of_mem listed
        rw [equal_congr left right equal (stored.item (List.getElem?_eq_getElem inside))]
      simp only [containsEqual, whole, each, kind]
  | _ => simp only [containsEqual, whole]

end Equality

end Document

end RecordStore
