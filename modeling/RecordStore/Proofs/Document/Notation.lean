/-
Module: RecordStore.Proofs.Document.Notation
Purpose: The meaning of a filter in the notation of document stores.  Operators that stand
  together ask for all that each asks, `null` asks for no value, and any other value for equality;
  a filter asks for what is under each key at the path that the key is.  Filters that are the same,
  whatever the order of their keys, accept the same records.
Main exports: Mark, Document.entryAccepts, Document.filterAccepts, Document.filterAccepts_congr
-/
import RecordStore.Path.Parser
import RecordStore.Proofs.Document.Congruence

namespace RecordStore

/-! ### The meaning of the notation -/

/-- The operators of the notation. -/
inductive Mark where
  | ne
  | present
  | lt
  | gt
  | le
  | ge
  | oneOf
  | regex
deriving DecidableEq, Repr

namespace Mark

/-- The operator of a word. -/
def ofWord? : String → Option Mark
  | "$ne" => some .ne
  | "$exists" => some .present
  | "$lt" => some .lt
  | "$gt" => some .gt
  | "$lte" => some .le
  | "$gte" => some .ge
  | "$in" => some .oneOf
  | "$regex" => some .regex
  | _ => none

open Document (Matcher)

/-- Whether the value of a field is what an operator with its operand asks for.  To differ from
`null` is to be there. -/
def asks (mark : Mark) (operand : Json) (actual : Option Json) : Bool :=
  match mark with
  | .ne =>
    if operand.isNull then Matcher.isNotNull.accepts actual
    else (Matcher.ne operand).accepts actual
  | .present => operand.bool? == some actual.isSome
  | .lt => (Matcher.lt operand).accepts actual
  | .gt => (Matcher.gt operand).accepts actual
  | .le => (Matcher.le operand).accepts actual
  | .ge => (Matcher.ge operand).accepts actual
  | .oneOf => operand.arr?.any fun operands => (Matcher.oneOf operands).accepts actual
  | .regex => operand.str?.any fun source =>
      (Pattern.parse? source).any fun pattern => (Matcher.like source pattern).accepts actual

end Mark

namespace Document

/-- Objects that are read as operators: all their keys are operators, of which there is one. -/
def isOperators (members : Object) : Bool :=
  !members.isEmpty && members.all fun member => (Mark.ofWord? member.1).isSome

/-- Whether the value of a field is what one entry of a filter asks for. -/
def entryAccepts (written : Json) (actual : Option Json) : Bool :=
  match written with
  | .null => Matcher.isNull.accepts actual
  | .obj members =>
    if isOperators members then
      members.all fun member => (Mark.ofWord? member.1).any fun mark => mark.asks member.2 actual
    else (Matcher.eq written).accepts actual
  | _ => (Matcher.eq written).accepts actual

/-- Whether a record has what each entry of a filter asks for at the path that its key is. -/
def filterAccepts (filter record : Object) : Bool :=
  filter.all fun entry =>
    match FieldPath.parse entry.1 with
    | .ok path => entryAccepts entry.2 (record.lookup? path)
    | .error _ => false

end Document

/-! ### Filters that are the same -/

namespace Object

variable {xs ys : Object} {p q : String × Json → Bool}

/-- All members of an object that repeats no key are those found under its keys. -/
theorem all_iff (distinct : xs.keys.Nodup) :
    xs.all p ↔ ∀ key value, xs.get? key = some value → p (key, value) := by
  rw [List.all_eq_true]
  constructor
  · exact fun all key value found => all _ (mem_of_get? found)
  · exact fun each member listed => each _ _ (get?_of_mem distinct listed)

/-- Objects with the same keys agree on what holds of all their members if they agree on the
values under each key. -/
theorem all_congr (left : xs.keys.Nodup) (right : ys.keys.Nodup)
    (keys : ∀ key, key ∈ xs.keys ↔ key ∈ ys.keys)
    (each : ∀ key x y, xs.get? key = some x → ys.get? key = some y → p (key, x) = q (key, y)) :
    xs.all p = ys.all q := by
  rw [Bool.eq_iff_iff, all_iff left, all_iff right]
  constructor
  · intro all key y there
    have listed := (keys key).mpr (List.mem_map_of_mem (mem_of_get? there))
    obtain ⟨x, here⟩ := exists_get? listed
    exact each key x y here there ▸ all key x here
  · intro all key x here
    have listed := (keys key).mp (List.mem_map_of_mem (mem_of_get? here))
    obtain ⟨y, there⟩ := exists_get? listed
    exact each key x y here there ▸ all key y there

end Object

section Congruence

open Document

variable {v w : Json} (left : v.KeysDistinct) (right : w.KeysDistinct) (equal : v.same w)

include equal in
/-- Bounds that are the same are one bound. -/
theorem Document.accepts_ordered_congr (ways : List Ordering) (actual : Option Json) :
    Matcher.anyElement (Matcher.ordered ways v) actual =
      Matcher.anyElement (Matcher.ordered ways w) actual := by
  have each : Matcher.ordered ways v = Matcher.ordered ways w := by
    funext value
    rw [Matcher.ordered, Matcher.ordered, compare_congr equal]
  rw [each]

include left right equal

/-- Equality with operands that are the same is one test. -/
theorem Document.accepts_eq_congr {actual : Option Json}
    (stored : ∀ value, actual = some value → value.KeysDistinct) :
    (Matcher.eq v).accepts actual = (Matcher.eq w).accepts actual := by
  cases actual with
  | none => rfl
  | some value => exact containsEqual_congr left right equal (stored value rfl)

/-- Lists of candidates that are the same are one test. -/
theorem Document.accepts_oneOf_congr {actual : Option Json}
    (stored : ∀ value, actual = some value → value.KeysDistinct) :
    (v.arr?.any fun operands => (Matcher.oneOf operands).accepts actual) =
      w.arr?.any fun operands => (Matcher.oneOf operands).accepts actual := by
  rcases same_cases equal with rfl | ⟨_, _, rfl, rfl, -⟩ | ⟨xs, ys, rfl, rfl⟩ | ⟨_, _, rfl, rfl⟩
  · rfl
  · rfl
  · obtain ⟨length, each⟩ := Json.sameItems_iff.mp equal
    cases actual with
    | none => rfl
    | some value =>
        have tests : xs.map (containsEqual value) = ys.map (containsEqual value) := by
          refine List.ext_getElem (by simpa using length) fun i inside inside' => ?_
          rw [List.length_map] at inside inside'
          have here := List.getElem?_eq_getElem inside
          have there := List.getElem?_eq_getElem inside'
          rw [List.getElem_map, List.getElem_map]
          exact containsEqual_congr (left.item here) (right.item there) (each i _ _ here there)
            (stored value rfl)
        have found := congrArg (List.any · id) tests
        rw [List.any_map, List.any_map] at found
        exact found
  · rfl

/-- An operator asks for one thing of operands that are the same. -/
theorem Mark.asks_congr (mark : Mark) {actual : Option Json}
    (stored : ∀ value, actual = some value → value.KeysDistinct) :
    mark.asks v actual = mark.asks w actual := by
  have order := fun ways => accepts_ordered_congr equal ways actual
  obtain ⟨null, -, told, text⟩ := kind_of_same equal
  cases mark with
  | ne =>
      have equality := accepts_eq_congr left right equal stored
      rw [asks, asks, null]
      exact congrArg (fun hit => if w.isNull then _ else !hit) equality
  | present => rw [asks, asks, told]
  | lt => exact order [.lt]
  | gt => exact order [.gt]
  | le => exact order [.lt, .eq]
  | ge => exact order [.gt, .eq]
  | oneOf => exact accepts_oneOf_congr left right equal stored
  | regex => rw [asks, asks, text]

/-- Entries that are the same ask for one thing. -/
theorem Document.entryAccepts_congr {actual : Option Json}
    (stored : ∀ value, actual = some value → value.KeysDistinct) :
    entryAccepts v actual = entryAccepts w actual := by
  have equality := accepts_eq_congr left right equal stored
  rcases same_cases equal with rfl | ⟨_, _, rfl, rfl, -⟩ | ⟨_, _, rfl, rfl⟩ | ⟨xs, ys, rfl, rfl⟩
  · rfl
  · exact equality
  · exact equality
  · obtain ⟨keys, each⟩ := (Json.same_obj_iff left.nodup right.nodup).mp equal
    have words : isOperators xs = isOperators ys := by
      have empty : xs.isEmpty = ys.isEmpty := by
        rw [Json.same, Bool.and_eq_true, beq_iff_eq] at equal
        rw [Bool.eq_iff_iff, List.isEmpty_iff_length_eq_zero, List.isEmpty_iff_length_eq_zero,
          equal.1]
      have known := Object.all_congr (p := fun member => (Mark.ofWord? member.1).isSome)
        (q := fun member => (Mark.ofWord? member.1).isSome) left.nodup right.nodup keys
        fun _ _ _ _ _ => rfl
      rw [isOperators, isOperators, known, empty]
    have asked : (xs.all fun member =>
          (Mark.ofWord? member.1).any fun mark => mark.asks member.2 actual) =
        ys.all fun member =>
          (Mark.ofWord? member.1).any fun mark => mark.asks member.2 actual := by
      refine Object.all_congr left.nodup right.nodup keys fun key x y here there => ?_
      have same := each key x y here there
      cases Mark.ofWord? key with
      | none => rfl
      | some mark => exact mark.asks_congr (left.member here) (right.member there) same stored
    simp only [entryAccepts, words, asked, equality]

end Congruence

/-- Filters that are the same accept the same records. -/
theorem Document.filterAccepts_congr {filter other record : Object}
    (left : (Json.obj filter).KeysDistinct) (right : (Json.obj other).KeysDistinct)
    (equal : (Json.obj filter).same (.obj other)) (stored : (Json.obj record).KeysDistinct) :
    filterAccepts filter record = filterAccepts other record := by
  obtain ⟨keys, each⟩ := (Json.same_obj_iff left.nodup right.nodup).mp equal
  refine Object.all_congr left.nodup right.nodup keys fun key x y here there => ?_
  have same := each key x y here there
  cases FieldPath.parse key with
  | error error => rfl
  | ok path =>
      exact entryAccepts_congr (left.member here) (right.member there) same fun _ => stored.lookup?

end RecordStore
