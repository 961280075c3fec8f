/-
Module: RecordStore.Proofs.Document.Equality
Purpose: When documents find two values equal.  Two numbers are equal when they have one value,
  however they are written.  Inside arrays and objects numbers have to be written in the same kind
  as well: an array or an object equals another when the two are alike by the values of their
  numbers and the numbers that stand at one place are both written as integers or both with a
  point.
Main exports: Number.integer?, Number.SameValue, Number.SameKind, Json.NumbersExact,
  Document.equal_num_iff, Document.equal_iff_alike
-/
import RecordStore.Document.Query
import RecordStore.Proofs.Json.Alike
import RecordStore.Proofs.Number.Integral
import RecordStore.Query.Planning

namespace RecordStore

open Binary64 (Exact)

/-! ### Values of numbers -/

namespace Number

/-- The integer that a number is, in whatever kind it is written. -/
def integer? : Number → Option Int
  | .int i => some i
  | .float x => x.toInt?

/-- A number that is an integer held without rounding. -/
def IsExact (n : Number) : Prop := ∃ i, n.integer? = some i ∧ Exact i

/-- Numbers that are one integer. -/
def SameValue (m n : Number) : Prop := m.integer? = n.integer?

/-- Whether a number is written without a point. -/
def isInt : Number → Bool
  | .int _ => true
  | .float _ => false

/-- Numbers that are both written as integers or both with a point. -/
def SameKind (m n : Number) : Prop := m.isInt = n.isInt

/-- The double of a number that is an exact integer is in the place of that integer. -/
theorem toBinary64_of_integer? {n : Number} {i : Int} (value : n.integer? = some i)
    (exact : Exact i) :
    n.toBinary64.isNaN = false ∧ n.toBinary64.rank = (Binary64.ofInt i).rank := by
  cases n with
  | int j =>
      cases value
      exact ⟨Binary64.isNaN_ofInt i, rfl⟩
  | float x =>
      have finite := (Binary64.toInt?_eq_some_iff.mp value).1
      exact ⟨Binary64.isNaN_of_isFinite finite, Binary64.rank_of_toInt? value exact⟩

section Exact

variable {m n : Number} (left : m.IsExact) (right : n.IsExact)
include left right

/-- The doubles of exact integers have one value when the integers are one. -/
theorem sameValue_toBinary64_iff : m.toBinary64.sameValue n.toBinary64 ↔ m.SameValue n := by
  obtain ⟨i, value, exact⟩ := left
  obtain ⟨j, value', exact'⟩ := right
  obtain ⟨number, place⟩ := toBinary64_of_integer? value exact
  obtain ⟨number', place'⟩ := toBinary64_of_integer? value' exact'
  rw [Binary64.sameValue_iff, and_iff_right number, and_iff_right number', place, place',
    SameValue, value, value', Option.some.injEq]
  constructor
  · intro same
    rcases Int.lt_trichotomy i j with less | equal | greater
    · exact absurd same (Int.ne_of_lt (Binary64.rank_ofInt_lt less exact exact'))
    · exact equal
    · exact absurd same (Int.ne_of_gt (Binary64.rank_ofInt_lt greater exact' exact))
  · rintro rfl
    rfl

/-- Numbers that are the same as written are of one value and of one kind. -/
theorem same_iff : m.same n ↔ m.SameValue n ∧ m.SameKind n := by
  have values := sameValue_toBinary64_iff left right
  cases m with
  | int i =>
      cases n with
      | int j => simp [same, SameValue, SameKind, integer?, isInt]
      | float y => simp [same, SameKind, isInt]
  | float x =>
      cases n with
      | int j => simp [same, SameKind, isInt]
      | float y =>
          simp only [SameKind, isInt, and_true]
          exact values

end Exact

end Number

/-- Every number in a value is an exact integer. -/
def Json.NumbersExact (value : Json) : Prop :=
  value.Throughout fun inner => ∀ n, inner = .num n → n.IsExact

namespace Document

open Json (Alike)

/-- Two numbers are equal when they have one value. -/
theorem equal_num_iff {m n : Number} (left : m.IsExact) (right : n.IsExact) :
    equal (.num m) (.num n) ↔ m.SameValue n :=
  Number.sameValue_toBinary64_iff left right

/-- Values that are not both numbers are equal when they are the same as written. -/
theorem equal_eq_same {x y : Json} (other : ∀ n, x ≠ .num n) : equal x y = x.same y := by
  cases x with
  | num n => exact absurd rfl (other n)
  | _ => rfl

/-- When two values are equal whose numbers are exact integers and whose objects repeat no key.
They always have one structure with numbers of one value; two numbers need no more, while arrays
and objects need besides that the numbers at each place are written in one kind. -/
theorem equal_iff_alike {x y : Json} (left : x.KeysDistinct) (right : y.KeysDistinct)
    (exact : x.NumbersExact) (exact' : y.NumbersExact) :
    equal x y ↔ Alike Number.SameValue x y ∧
      ((∃ n, x = .num n) ∨ Alike Number.SameKind x y) := by
  by_cases number : ∃ n, x = .num n
  · obtain ⟨m, rfl⟩ := number
    cases y with
    | num n =>
        rw [equal_num_iff (exact [] _ rfl m rfl) (exact' [] _ rfl n rfl)]
        constructor
        · exact fun value => ⟨.num value, .inl ⟨m, rfl⟩⟩
        · rintro ⟨alike, -⟩
          cases alike with
          | num value => exact value
    | _ => exact ⟨nofun, fun alike => nomatch alike.1⟩
  · rw [equal_eq_same (not_exists.mp number), Json.same_iff_alike left right,
      or_iff_right number, ← Json.alike_and_iff]
    have each (steps : List Segment) (m n : Number) (here : x.walk? steps = some (.num m))
        (there : y.walk? steps = some (.num n)) :
        m.same n ↔ m.SameValue n ∧ m.SameKind n :=
      Number.same_iff (exact steps _ here m rfl) (exact' steps _ there n rfl)
    constructor
    · exact fun alike => alike.imp fun steps m n here there => (each steps m n here there).mp
    · exact fun alike => alike.imp fun steps m n here there => (each steps m n here there).mpr

/-- A point with its numbers written as they are stored, its keys in another order. -/
theorem equal_iff_alike_point :
    let two : Number := .float ⟨false, 4611686018427387904⟩
    let stored : Json := .obj [("name", .str "p"), ("at", .arr [.int 1, .num two])]
    let asked : Json := .obj [("at", .arr [.int 1, .num two]), ("name", .str "p")]
    stored.KeysDistinct ∧ asked.KeysDistinct ∧ stored.NumbersExact ∧ asked.NumbersExact ∧
      equal stored asked ∧ Alike Number.SameValue stored asked ∧
      ((∃ n, stored = .num n) ∨ Alike Number.SameKind stored asked) := by
  intro two stored asked
  have one : Number.IsExact (.int 1) := ⟨1, rfl, by decide⟩
  have decimal : two.IsExact := ⟨2, by decide +kernel, by decide⟩
  have number {n : Number} (exact : n.IsExact) : (Json.num n).NumbersExact :=
    .num fun _ same => by cases same; exact exact
  have place : (Json.arr [.int 1, .num two]).NumbersExact :=
    .arr nofun (by simpa using ⟨number one, number decimal⟩)
  have name : (Json.str "p").NumbersExact := .str nofun
  have exact : stored.NumbersExact := .obj nofun (by simpa using ⟨name, place⟩)
  have exact' : asked.NumbersExact := .obj nofun (by simpa using ⟨place, name⟩)
  have places : (Json.arr [.int 1, .num two]).KeysDistinct :=
    .arr (by simpa using ⟨.leaf fun _ => rfl, .leaf fun _ => rfl⟩)
  have names : (Json.str "p").KeysDistinct := .leaf fun _ => rfl
  have left : stored.KeysDistinct := .obj (by decide) (by simpa using ⟨names, places⟩)
  have right : asked.KeysDistinct := .obj (by decide) (by simpa using ⟨places, names⟩)
  have same : equal stored asked := by decide +kernel
  obtain ⟨alike, kinds⟩ := (equal_iff_alike left right exact exact').mp same
  exact ⟨left, right, exact, exact', same, alike, kinds⟩

/-- One is equal to `1.0`, but an object with the one is not equal to an object with the other, and
a filter for the one does not find the other. -/
theorem unequal_inside_object :
    let one : Number := .float ⟨false, 4607182418800017408⟩
    let found (asked stored : Json) : Prop := ∃ plan query,
      Plan.ofCondition (some [("a", .arr [.str "==", asked])]) .plain = .ok plan ∧
      Query.compile plan ⟨0, 0⟩ = .ok query ∧ query.accepts [("a", stored)]
    Alike Number.SameValue (.obj [("n", .int 1)]) (.obj [("n", .num one)]) ∧
      equal (.int 1) (.num one) ∧ found (.int 1) (.num one) ∧
      ¬ equal (.obj [("n", .int 1)]) (.obj [("n", .num one)]) ∧
      ¬ found (.obj [("n", .int 1)]) (.obj [("n", .num one)]) := by
  intro one found
  have value : Number.SameValue (.int 1) one := by
    unfold Number.SameValue
    decide +kernel
  have alike : Alike Number.SameValue (.obj [("n", .int 1)]) (.obj [("n", .num one)]) := by
    refine .obj (fun key => .rfl) fun key x y here there => ?_
    simp only [Object.get?, Option.ite_none_right_eq_some, Option.some.injEq] at here there
    obtain ⟨-, rfl⟩ := here
    obtain ⟨-, rfl⟩ := there
    exact .num value
  refine ⟨alike, by decide +kernel, ⟨_, _, rfl, rfl, by decide +kernel⟩, by decide +kernel, ?_⟩
  rintro ⟨plan, query, read, compiled, accepted⟩
  cases read
  cases compiled
  revert accepted
  decide +kernel

end Document

end RecordStore
