/-
Module: RecordStore.Proofs.Relational.Truth
Purpose: What the text of a filter means to a database.  A reader takes the pieces of a
  clause from left to right, gives each hole the next of the bound values, and answers one
  of three truth values: a comparison with `null` is neither true nor false.  It knows
  nothing of tests; on the clauses of tests of whole columns it answers true exactly where
  the tests hold.
Main exports: Truth, Clause.truth?, RowTest.Means, RowTest.exists_means,
  RowQuery.truth?_whereClause, RowQuery.exists_truth
-/
import Mathlib.Data.List.Forall2
import RecordStore.Relational.Evaluation
import RecordStore.Relational.Statement

namespace RecordStore

/-! ### Three truth values -/

/-- A truth value of a condition; `none` is neither true nor false. -/
abbrev Truth := Option Bool

namespace Truth

/-- Both of two conditions: false if one of them is false. -/
def both : Truth → Truth → Truth
  | some false, _ => some false
  | _, some false => some false
  | some true, some true => some true
  | _, _ => none

/-- One of two conditions: true if one of them is true. -/
def either : Truth → Truth → Truth
  | some true, _ => some true
  | _, some true => some true
  | some false, some false => some false
  | _, _ => none

theorem both_true (truth : Truth) : truth.both (some true) = truth := by
  rcases truth with _ | _ | _ <;> rfl

theorem both_eq_true {first second : Truth} :
    first.both second = some true ↔ first = some true ∧ second = some true := by
  rcases first with _ | _ | _ <;> rcases second with _ | _ | _ <;> decide

theorem either_eq_true {first second : Truth} :
    first.either second = some true ↔ first = some true ∨ second = some true := by
  rcases first with _ | _ | _ <;> rcases second with _ | _ | _ <;> decide

end Truth

/-- A comparison with `null` is neither true nor false. -/
def Comparison.truth (comparison : Comparison) (left right : SqlValue) : Truth :=
  (left.compare? right).map comparison.allows

/-- Membership is equality with one of the operands. -/
def SqlValue.membership (cell : SqlValue) (operands : List SqlValue) : Truth :=
  operands.foldr (fun operand others => (Comparison.eq.truth cell operand).either others)
    (some false)

theorem Comparison.truth_eq_true {comparison : Comparison} {left right : SqlValue} :
    comparison.truth left right = some true ↔ comparison.holds left right := by
  unfold Comparison.truth Comparison.holds
  cases left.compare? right <;> simp

theorem SqlValue.membership_eq_true {cell : SqlValue} {operands : List SqlValue} :
    cell.membership operands = some true ↔ operands.any (Comparison.eq.holds cell ·) := by
  induction operands with
  | nil => simp [membership]
  | cons operand others ih =>
      rw [List.any_cons, Bool.or_eq_true, ← ih, ← Comparison.truth_eq_true]
      exact Truth.either_eq_true

/-! ### Reading a clause -/

namespace Clause

/-- What is left of a clause: pieces of text, and values for their holes. -/
abbrev Unread := List Piece × List SqlValue

/-- The operands of a list up to its closing bracket. -/
def operands? : List Piece → List SqlValue → Option (List SqlValue × Unread)
  | .hole :: .words between :: rest, value :: values =>
    if between = ")" then some ([value], rest, values)
    else if between = ", " then
      (operands? rest values).map fun read => (value :: read.1, read.2)
    else none
  | _, _ => none

/-- The comparison that words between two operands ask for. -/
def comparison? (between : String) : Option Comparison :=
  [Comparison.eq, .ne, .lt, .gt, .le, .ge].find? fun comparison =>
    between == " " ++ comparison.symbol ++ " "

section Reading

variable (columns : List Column) (row : Row)

/-- An operand takes the affinity of the column it is compared with. -/
def converted (name : String) (operand : SqlValue) : SqlValue :=
  ((columns.find? (·.name == name)).map Column.affinity).getD .none |>.convert operand

/-- One condition on a column, and what follows it. -/
def condition? : List Piece → List SqlValue → Option (Truth × Unread)
  | .words text :: rest, values => if text = "0 = 1" then some (some false, rest, values) else none
  | .name name :: .words between :: rest, values =>
    if between = " IS NULL" then some (some (row.get name == .null), rest, values)
    else if between = " IS NOT NULL" then some (some (row.get name != .null), rest, values)
    else if between = " IN (" then
      (operands? rest values).map fun read =>
        ((row.get name).membership (read.1.map (converted columns name)), read.2)
    else
      match comparison? between, rest, values with
      | some comparison, .hole :: rest, value :: values =>
        some (comparison.truth (row.get name) (converted columns name value), rest, values)
      | _, _, _ => none
  | _, _ => none

/-- Conditions with `AND` between them, at most so many. -/
def conditions? : Nat → List Piece → List SqlValue → Option Truth
  | 0, _, _ => none
  | more + 1, pieces, values =>
    match condition? columns row pieces values with
    | some (truth, [], []) => some truth
    | some (truth, .words between :: rest, values) =>
      if between = " AND " then (conditions? more rest values).map truth.both else none
    | _ => none

/-- What a filter says of a row: nothing at all is true. -/
def truth? (clause : Clause) : Option Truth :=
  match clause.pieces, clause.params with
  | [], [] => some (some true)
  | .words text :: rest, values =>
    if text = " WHERE " then conditions? columns row rest.length rest values else none
  | _, _ => none

end Reading

end Clause

/-! ### Clauses of tests -/

namespace RowTest

variable {columns : List Column} {row : Row}

/-- The truth value of a test on a whole column of a table. -/
inductive Means (columns : List Column) (row : Row) : RowTest → Truth → Prop where
  | compare {column : Column} (found : columns.find? (·.name == column.name) = some column)
      (comparison : Comparison) (operand : SqlValue) :
      Means columns row (.compare (.column column) comparison operand)
        (comparison.truth (row.get column.name) (column.affinity.convert operand))
  | isNull (column : Column) :
      Means columns row (.isNull (.column column)) (some (row.get column.name == .null))
  | isNotNull (column : Column) :
      Means columns row (.isNotNull (.column column)) (some (row.get column.name != .null))
  | oneOf {column : Column} (found : columns.find? (·.name == column.name) = some column)
      (first : SqlValue) (others : List SqlValue) :
      Means columns row (.oneOf (.column column) (first :: others))
        ((row.get column.name).membership ((first :: others).map column.affinity.convert))
  | never (column : Column) : Means columns row (.never (.column column)) (some false)

/-- A test holds exactly where its truth value is true. -/
theorem Means.holds_iff {test : RowTest} {truth : Truth} (means : Means columns row test truth)
    (now : Instant) : test.holds now row ↔ truth = some true := by
  cases means with
  | compare found comparison operand => exact Comparison.truth_eq_true.symm
  | isNull column => simp [holds, Term.value]
  | isNotNull column => simp [holds, Term.value]
  | oneOf found first others =>
      rw [SqlValue.membership_eq_true, List.any_map]
      rfl
  | never column => simp [holds]

/-- Tests hold together exactly where their truth values are true together. -/
theorem all_holds_iff {tests : List RowTest} {truths : List Truth}
    (means : List.Forall₂ (Means columns row) tests truths) (now : Instant) :
    tests.all (·.holds now row) ↔ truths.foldr Truth.both (some true) = some true := by
  induction means with
  | nil => simp
  | cons first rest ih =>
      rw [List.all_cons, Bool.and_eq_true, List.foldr_cons, Truth.both_eq_true,
        first.holds_iff now, ih]

/-- Every test but that of a pattern has a truth value on a column that stores no list. -/
theorem exists_means {column : Column}
    (found : columns.find? (·.name == column.name) = some column) {test : Test}
    (plain : ∀ pattern, test ≠ .like pattern) :
    ∃ truth, Means columns row (ofTest false (.column column) test) truth := by
  have equality (negated : Bool) (operand : Json) :
      ∃ truth, Means columns row (ofEquality negated false (.column column) operand) truth := by
    unfold ofEquality
    cases SqlValue.ofOperand? operand with
    | none =>
        cases negated with
        | true => exact ⟨_, .isNotNull column⟩
        | false => exact ⟨_, .isNull column⟩
    | some value => exact ⟨_, .compare found _ value⟩
  cases test with
  | eq operand => exact equality false operand
  | ne operand => exact equality true operand
  | lt operand => exact ⟨_, .compare found _ _⟩
  | gt operand => exact ⟨_, .compare found _ _⟩
  | le operand => exact ⟨_, .compare found _ _⟩
  | ge operand => exact ⟨_, .compare found _ _⟩
  | isNull => exact ⟨_, .isNull column⟩
  | isNotNull => exact ⟨_, .isNotNull column⟩
  | oneOf operands =>
      cases operands with
      | nil => exact ⟨_, .never column⟩
      | cons first others => exact ⟨_, .oneOf found _ _⟩
  | like pattern => exact absurd rfl (plain pattern)

end RowTest

/-! ### Reading the clauses of tests -/

namespace Clause

/-- The operands of a list are read as they were bound. -/
theorem operands?_boundList (first : SqlValue) (others : List SqlValue) (rest : List Piece)
    (values : List SqlValue) :
    operands? ((boundList (first :: others)).pieces ++ .words ")" :: rest)
        ((boundList (first :: others)).params ++ values) =
      some (first :: others, rest, values) := by
  induction others generalizing first with
  | nil => rfl
  | cons next later ih =>
      have separator : ", " ≠ ")" := by decide
      have read := ih next
      change operands? (.hole :: .words ", " :: ((boundList (next :: later)).pieces ++
        .words ")" :: rest)) (first :: ((boundList (next :: later)).params ++ values)) = _
      rw [operands?, if_neg separator, if_pos rfl, read]
      rfl

theorem comparison?_symbol (comparison : Comparison) :
    comparison? (" " ++ comparison.symbol ++ " ") = some comparison := by
  cases comparison <;> decide

variable {columns : List Column} {row : Row}

theorem converted_of_find? {column : Column}
    (found : columns.find? (·.name == column.name) = some column) :
    converted columns column.name = column.affinity.convert := by
  funext operand
  rw [converted, found]
  rfl

/-- The clause of a test is read as one condition with the truth value of the test. -/
theorem condition?_clause {test : RowTest} {truth : Truth} (means : test.Means columns row truth)
    (rest : List Piece) (values : List SqlValue) :
    condition? columns row (test.clause.pieces ++ rest) (test.clause.params ++ values) =
      some (truth, rest, values) := by
  cases means with
  | @compare column found comparison operand =>
      have other : " " ++ comparison.symbol ++ " " ≠ " IS NULL" ∧
          " " ++ comparison.symbol ++ " " ≠ " IS NOT NULL" ∧
          " " ++ comparison.symbol ++ " " ≠ " IN (" := by
        cases comparison <;> decide
      change condition? columns row (.name column.name ::
        .words (" " ++ comparison.symbol ++ " ") :: .hole :: rest) (operand :: values) = _
      simp only [condition?, if_neg other.1, if_neg other.2.1, if_neg other.2.2,
        comparison?_symbol, converted_of_find? found]
  | isNull column => rfl
  | isNotNull column => rfl
  | @oneOf column found first others =>
      have read := operands?_boundList first others rest values
      have layout : (RowTest.oneOf (.column column) (first :: others)).clause.pieces ++ rest =
          .name column.name :: .words " IN (" ::
            ((boundList (first :: others)).pieces ++ .words ")" :: rest) := by
        change .name column.name :: .words " IN (" ::
          (((boundList (first :: others)).pieces ++ [.words ")"]) ++ rest) = _
        rw [List.append_assoc]
        rfl
      have given : (RowTest.oneOf (.column column) (first :: others)).clause.params =
          (boundList (first :: others)).params := List.append_nil _
      have other : " IN (" ≠ " IS NULL" ∧ " IN (" ≠ " IS NOT NULL" := by decide
      rw [layout, given]
      simp only [condition?, if_neg other.1, if_neg other.2, if_true, read,
        converted_of_find? found, Option.map_some]
  | never column => rfl

/-- There are at least as many pieces as parts. -/
theorem length_le_pieces_joined (separator : String) {parts : List Clause}
    (written : ∀ part ∈ parts, part.pieces ≠ []) :
    parts.length ≤ (joined separator parts).pieces.length := by
  induction parts with
  | nil => exact Nat.le_refl 0
  | cons part rest ih =>
      have first := List.length_pos_iff.mpr (written part List.mem_cons_self)
      have later := ih fun other member => written other (List.mem_cons_of_mem _ member)
      cases rest with
      | nil => exact first
      | cons next others =>
          have length : (joined separator (part :: next :: others)).pieces.length =
              part.pieces.length + 1 + (joined separator (next :: others)).pieces.length := by
            change ((part.pieces ++ [Piece.words separator]) ++ _).length = _
            rw [List.length_append, List.length_append, List.length_singleton]
          rw [length, List.length_cons]
          omega

/-- The clauses of tests with `AND` between them are true together. -/
theorem conditions?_joined {test : RowTest} {tests : List RowTest} {truth : Truth}
    {truths : List Truth}
    (means : List.Forall₂ (RowTest.Means columns row) (test :: tests) (truth :: truths))
    {more : Nat} (enough : tests.length < more) :
    conditions? columns row more (joined " AND " ((test :: tests).map RowTest.clause)).pieces
        (joined " AND " ((test :: tests).map RowTest.clause)).params =
      some ((truth :: truths).foldr Truth.both (some true)) := by
  obtain ⟨more, rfl⟩ : ∃ fewer, more = fewer + 1 := ⟨more - 1, by omega⟩
  induction tests generalizing test truth truths more with
  | nil =>
      obtain ⟨first, rest⟩ := List.forall₂_cons.mp means
      cases rest
      have read := condition?_clause first [] []
      rw [List.append_nil, List.append_nil] at read
      simp only [List.map_cons, List.map_nil, joined, conditions?, read, List.foldr_cons,
        List.foldr_nil, Truth.both_true]
  | cons next others ih =>
      obtain ⟨first, rest⟩ := List.forall₂_cons.mp means
      cases rest with
      | @cons _ second _ later here after =>
          obtain ⟨fewer, rfl⟩ : ∃ fewer, more = fewer + 1 := by
            refine ⟨more - 1, ?_⟩
            rw [List.length_cons] at enough
            omega
          have remaining := ih (.cons here after) fewer
            (by rw [List.length_cons] at enough; omega)
          let tail := joined " AND " ((next :: others).map RowTest.clause)
          have layout : (joined " AND " ((test :: next :: others).map RowTest.clause)).pieces =
              test.clause.pieces ++ .words " AND " :: tail.pieces := by
            change (test.clause.pieces ++ [Piece.words " AND "]) ++ tail.pieces = _
            rw [List.append_assoc]
            rfl
          have given : (joined " AND " ((test :: next :: others).map RowTest.clause)).params =
              test.clause.params ++ tail.params := by
            change (test.clause.params ++ []) ++ tail.params = _
            rw [List.append_nil]
          rw [layout, given, conditions?, condition?_clause first]
          simp only [if_true, tail, remaining, Option.map_some, List.foldr_cons]

theorem pieces_ne_nil {test : RowTest} {truth : Truth} (means : test.Means columns row truth) :
    test.clause.pieces ≠ [] := by
  cases means <;> exact List.cons_ne_nil _ _

/-- A whole clause has enough pieces for all its tests. -/
theorem length_le_pieces {tests : List RowTest} {truths : List Truth}
    (means : List.Forall₂ (RowTest.Means columns row) tests truths) :
    tests.length ≤ (joined " AND " (tests.map RowTest.clause)).pieces.length := by
  have written : ∀ part ∈ tests.map RowTest.clause, part.pieces ≠ [] := by
    induction means with
    | nil => simp
    | cons first rest ih => exact List.forall_mem_cons.mpr ⟨pieces_ne_nil first, ih⟩
  have bound := length_le_pieces_joined " AND " written
  rwa [List.length_map] at bound

end Clause

namespace RowQuery

variable {columns : List Column} {row : Row} {query : RowQuery} {truths : List Truth}

/-- A filter over whole columns is read, and says of a row that all tests are true together. -/
theorem truth?_whereClause
    (means : List.Forall₂ (RowTest.Means columns row) query.tests truths) :
    query.whereClause.truth? columns row = some (truths.foldr Truth.both (some true)) := by
  obtain ⟨tests, order, page⟩ := query
  cases means with
  | nil => rfl
  | cons first rest =>
      have whole := List.Forall₂.cons first rest
      exact Clause.conditions?_joined whole (Clause.length_le_pieces whole)

/-- The text of a filter over whole columns is read, and is true of a row exactly where the
filter accepts it. -/
theorem exists_truth (means : List.Forall₂ (RowTest.Means columns row) query.tests truths)
    (now : Instant) :
    ∃ truth, query.whereClause.truth? columns row = some truth ∧
      (query.accepts now row ↔ truth = some true) :=
  ⟨_, truth?_whereClause means, RowTest.all_holds_iff means now⟩

end RowQuery

end RecordStore
