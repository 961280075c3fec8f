/-
Module: RecordStore.Proofs.Document.Integers
Purpose: Integers of 64 bits compared in documents.  A comparison looks at the nearest doubles, so
  it tells two integers apart and puts them in their order, unless they are merged: then they
  count as equal.  A filter with an integer for its operand goes by this comparison, whichever of
  the comparison words it is written with.
Main exports: Operator.comparison?, ComparesWith, ComparesAs, ComparesWith.exists_query,
  integers_compare
-/
import RecordStore.Proofs.Number.Order
import RecordStore.Proofs.Patch.Counting
import RecordStore.Proofs.Store.IntegerFilters

namespace RecordStore

open Binary64 (Merged)

/-- The comparison that a word asks for; membership is equality with an operand. -/
def Operator.comparison? : Operator → Option Comparison
  | .lt => some .lt
  | .gt => some .gt
  | .le => some .le
  | .ge => some .ge
  | .eq => some .eq
  | .ne => some .ne
  | .oneOf => some .eq
  | .like => none

namespace Document

/-- The condition values that ask how a field compares with an integer. -/
inductive ComparesWith (b : Int) : Comparison → Json → Prop where
  | bare : ComparesWith b .eq (.int b)
  | word {word : String} {operator : Operator} {comparison : Comparison}
      (named : Operator.ofWord? word = some operator)
      (asked : operator.comparison? = some comparison) :
      ComparesWith b comparison (.arr [.str word, .int b])
  | listed {word : String} (named : Operator.ofWord? word = some .oneOf) :
      ComparesWith b .eq (.arr [.str word, .arr [.int b]])

/-- The matcher of a comparison with an operand. -/
def Matcher.comparing (operand : Json) : Comparison → Matcher
  | .eq => .eq operand
  | .ne => .ne operand
  | .lt => .lt operand
  | .gt => .gt operand
  | .le => .le operand
  | .ge => .ge operand

/-- A stored value and an operand that compare in one way, which is also what decides whether they
are equal. -/
structure ComparesAs (value operand : Json) (order : Ordering) : Prop where
  equal : containsEqual value operand = Comparison.eq.allows order
  ordered : ∀ ways, Matcher.anyElement (Matcher.ordered ways operand) (some value) =
    ways.contains order

namespace ComparesAs

variable {value operand : Json} {order : Ordering} (compares : ComparesAs value operand order)
include compares

/-- Whether a value meets a comparison goes by how it compares. -/
theorem accepts_comparing (comparison : Comparison) :
    (Matcher.comparing operand comparison).accepts (some value) = comparison.allows order := by
  cases comparison with
  | eq => exact compares.equal
  | ne => exact (congrArg not compares.equal).trans (by cases order <;> rfl)
  | _ => exact (compares.ordered _).trans (by cases order <;> rfl)

theorem accepts_oneOf :
    (Matcher.oneOf [operand]).accepts (some value) = Comparison.eq.allows order :=
  (Bool.or_false _).trans compares.equal

end ComparesAs

/-- Integers compare as their nearest doubles do. -/
theorem comparesAs_int {a b : Int} {order : Ordering}
    (compared : compare (.int a) (.int b) = some order) :
    ComparesAs (.int a) (.int b) order where
  equal := by
    rw [compare_int] at compared
    rw [containsEqual_int, Binary64.sameValue, compared]
    rfl
  ordered ways := by rw [anyElement_int, Matcher.ordered, compared]

/-- A condition value that compares with an integer is read and compiled into a matcher that
answers by how a value compares with the integer. -/
theorem ComparesWith.exists_matcher {b : Int} {comparison : Comparison} {value : Json}
    (asks : ComparesWith b comparison value) (key : String) :
    ∃ test matcher, Test.ofValue key value = .ok test ∧ Matcher.ofTest test = .ok matcher ∧
      ∀ stored order, ComparesAs stored (.int b) order →
        matcher.accepts (some stored) = comparison.allows order := by
  cases asks with
  | bare => exact ⟨_, _, rfl, rfl, fun _ _ compares => compares.accepts_comparing .eq⟩
  | listed named =>
      simp only [Test.ofValue, named]
      exact ⟨_, _, rfl, rfl, fun _ _ compares => compares.accepts_oneOf⟩
  | @word _ operator comparison named asked =>
      simp only [Test.ofValue, named]
      cases operator with
      | like => cases asked
      | oneOf =>
          cases asked
          exact ⟨_, _, rfl, rfl, fun _ _ compares => compares.accepts_oneOf⟩
      | _ =>
          refine ⟨_, Matcher.comparing (.int b) comparison, rfl, ?_,
            fun _ _ compares => compares.accepts_comparing comparison⟩
          cases asked
          rfl

/-- A condition that compares a field with an integer answers by how the field's value compares. -/
theorem ComparesWith.exists_query {b : Int} {comparison : Comparison} {value : Json}
    (asks : ComparesWith b comparison value) {name : String}
    (plain : PathGrammar.IsName name.toList)
    (free : name ∉ [indexKey, orderKey, offsetKey, limitKey, scopeKey])
    (options : SelectOptions) (now : Instant) :
    ∃ plan query, Plan.ofCondition (some [(name, value)]) options = .ok plan ∧
      Query.compile plan now = .ok query ∧
      ∀ (record : Object) (stored : Json) (order : Ordering), record.get? name = some stored →
        ComparesAs stored (.int b) order → query.accepts record = comparison.allows order := by
  obtain ⟨test, matcher, read, matched, answers⟩ := asks.exists_matcher name
  refine ⟨_, _, Plan.ofCondition_single plain free read options,
    compile_testing options name matched now, fun record stored order holds compares => ?_⟩
  rw [accepts_single, holds]
  exact answers stored order compares

/-- How two integers of 64 bits compare, and what every filter with the second of them for its
operand answers about a record that holds the first.  They compare in their own order unless they
are merged by rounding; then both lie at or beyond `2 ^ 53`, at most `2 ^ 11` apart, and compare
as equal. -/
theorem integers_compare {a b : Int} (left : IsInteger64 a) (right : IsInteger64 b) :
    ∃ order, compare (.int a) (.int b) = some order ∧
      (¬ Merged a b → order = Ord.compare a b) ∧
      (Merged a b → order = .eq ∧ 2 ^ 53 ≤ a.natAbs ∧ 2 ^ 53 ≤ b.natAbs ∧
        (a - b).natAbs ≤ 2 ^ 11) ∧
      ∀ comparison value, ComparesWith b comparison value →
        ∀ (name : String) (options : SelectOptions) (now : Instant),
          PathGrammar.IsName name.toList →
          name ∉ [indexKey, orderKey, offsetKey, limitKey, scopeKey] →
          ∃ plan query, Plan.ofCondition (some [(name, value)]) options = .ok plan ∧
            Query.compile plan now = .ok query ∧
            ∀ record : Object, record.get? name = some (.int a) →
              query.accepts record = comparison.allows order := by
  have ordered : ∃ order, compare (.int a) (.int b) = some order ∧
      (¬ Merged a b → order = Ord.compare a b) ∧ (Merged a b → order = .eq) := by
    rw [compare_int]
    by_cases merged : Merged a b
    · exact ⟨.eq, Binary64.compare?_ofInt_of_merged merged, absurd merged, fun _ => rfl⟩
    · exact ⟨_, Binary64.compare?_ofInt_of_not_merged merged, fun _ => rfl, (absurd · merged)⟩
  obtain ⟨order, compared, apart, equal⟩ := ordered
  refine ⟨order, compared, apart, fun merged => ?_, ?_⟩
  · obtain ⟨far, far'⟩ := merged.large
    exact ⟨equal merged, far, far', merged.near left.natAbs_le right.natAbs_le⟩
  · intro comparison value asks name options now plain free
    obtain ⟨plan, query, read, compiled, answers⟩ := asks.exists_query plain free options now
    exact ⟨plan, query, read, compiled, fun record holds =>
      answers record _ order holds (comparesAs_int compared)⟩

/-- Of two counters just beyond `2 ^ 53` the second is found to be the greater, although a
double lies only at every other integer there. -/
theorem integers_compare_counters :
    IsInteger64 9007199254740993 ∧ IsInteger64 9007199254740990 ∧
      ¬ Merged 9007199254740993 9007199254740990 ∧
      compare (.int 9007199254740993) (.int 9007199254740990) = some .gt ∧
      ComparesWith 9007199254740990 .gt (.arr [.str ">", .int 9007199254740990]) ∧
      ∃ plan query,
        Plan.ofCondition (some [("n", .arr [.str ">", .int 9007199254740990])]) .plain =
          .ok plan ∧
        Query.compile plan ⟨0, 0⟩ = .ok query ∧
        query.accepts [("n", .int 9007199254740993)] := by
  have left : IsInteger64 9007199254740993 := by decide
  have right : IsInteger64 9007199254740990 := by decide
  have apart : ¬ Merged 9007199254740993 9007199254740990 := by
    intro merged
    exact absurd merged.large (by decide)
  have asks : ComparesWith 9007199254740990 .gt (.arr [.str ">", .int 9007199254740990]) :=
    .word (by decide : Operator.ofWord? ">" = some .gt) rfl
  obtain ⟨order, compared, ordered, -, filters⟩ := integers_compare left right
  obtain rfl : order = .gt := (ordered apart).trans (by decide)
  obtain ⟨plan, query, read, compiled, answers⟩ :=
    filters _ _ asks "n" .plain ⟨0, 0⟩ (by simp [PathGrammar.IsName]) (by decide)
  exact ⟨left, right, apart, compared, asks, plan, query, read, compiled,
    answers _ rfl⟩

/-- The integer after `2 ^ 53` compares as equal to it, and a record that holds the one is found
by asking for the other. -/
theorem neighbour_compares_equal :
    IsInteger64 9007199254740993 ∧ IsInteger64 9007199254740992 ∧
      Ord.compare (9007199254740993 : Int) 9007199254740992 = .gt ∧
      compare (.int 9007199254740993) (.int 9007199254740992) = some .eq ∧
      ∃ plan query,
        Plan.ofCondition (some [("n", .int 9007199254740992)]) .plain = .ok plan ∧
        Query.compile plan ⟨0, 0⟩ = .ok query ∧
        query.accepts [("n", .int 9007199254740993)] := by
  have compared : compare (.int 9007199254740993) (.int 9007199254740992) = some .eq := by
    decide +kernel
  refine ⟨by decide, by decide, by decide, compared, _, _, rfl, rfl, ?_⟩
  decide +kernel

end Document

end RecordStore
