/-
Module: RecordStore.Proofs.Store.Inequality
Purpose: Whether `!=` selects what `==` does not.  In documents it does, because one test is
  the opposite of the other.  In rows it does for lists, whose elements are looked for, and
  for cells that hold a value; but nothing compares with the cell of a value that is absent
  or `null`, so a scalar field that holds none is selected by neither.
Main exports: ScalarOperand, SqlValue.isComparable, compare?_isSome, isComparable_convert,
  isComparable_encode, inequality_selects, inequality_misses_absent
-/
import RecordStore.Proofs.Relational.Codec
import RecordStore.Proofs.Store.StoredFields

namespace RecordStore

/-- Operands that are no containers and do not stand for `null`. -/
inductive ScalarOperand : Json → Prop where
  | bool (b : Bool) : ScalarOperand (.bool b)
  | num {n : Number} (proper : n.IsProper) : ScalarOperand (.num n)
  | str {text : String} (word : Text.sameFolded text "null" = false) : ScalarOperand (.str text)

/-- Whether a record has a value other than `null` under a name. -/
def Object.holdsValue (record : Object) (name : String) : Bool :=
  (record.get? name).any fun value => !value.isNull

/-! ### Values that compare -/

namespace SqlValue

/-- Whether a value compares with others: it is neither `null` nor a real that is no number. -/
def isComparable : SqlValue → Bool
  | .null => false
  | .real x => !x.isNaN
  | _ => true

/-- Values that compare with others compare with one another. -/
theorem compare?_isSome {a b : SqlValue} (left : a.isComparable) (right : b.isComparable) :
    (a.compare? b).isSome := by
  have number {x : Binary64} (given : (SqlValue.real x).isComparable) : x.isNaN = false := by
    simpa [isComparable] using given
  have whole (i : Int) {x : Binary64} (given : (SqlValue.real x).isComparable) :
      (Binary64.compareInt? i x).isSome := by
    unfold Binary64.compareInt?
    rw [number given]
    cases x.isFinite <;> rfl
  cases a with
  | null => cases left
  | text a => cases b <;> first | rfl | cases right
  | int a =>
      cases b with
      | null => cases right
      | int b => rfl
      | text b => rfl
      | real y => exact whole a right
  | real x =>
      cases b with
      | null => cases right
      | text b => rfl
      | int b =>
          simp only [compare?, Option.isSome_map]
          exact whole b left
      | real y => simp [compare?, Binary64.compare?, number left, number right]

/-- Two values are unequal if they compare and are not equal. -/
theorem holds_ne (a b : SqlValue) :
    Comparison.ne.holds a b = ((a.compare? b).isSome && !Comparison.eq.holds a b) := by
  unfold Comparison.holds
  cases a.compare? b with
  | none => rfl
  | some order => cases order <;> rfl

theorem isNaN_nearest (negative : Bool) (d : Decimal) :
    (Decimal.nearest negative d).isNaN = false := by
  have bounded : (Decimal.nearest negative d).word ≤ Binary64.infinityWord := by
    unfold Decimal.nearest
    dsimp only
    split
    · exact Nat.zero_le _
    split
    · exact Nat.le_refl _
    split
    · exact Nat.zero_le _
    · exact Nat.min_le_right _ _
  exact decide_eq_false (Nat.not_lt.mpr bounded)

/-- What a text looks like is a number. -/
theorem isComparable_numeralOf? {text : String} {value : SqlValue}
    (read : numeralOf? text = some value) : value.isComparable := by
  unfold numeralOf? at read
  dsimp only at read
  split at read
  · cases read
    rfl
  · obtain ⟨d, -, rfl⟩ := Option.map_eq_some_iff.mp read
    simp [isComparable, isNaN_nearest]

/-- Conversion to an affinity keeps `null` apart from the values that compare. -/
theorem isComparable_convert (affinity : Affinity) {value : SqlValue}
    (given : value.isComparable) : (affinity.convert value).isComparable := by
  have spelled : value.spell.isComparable := by cases value <;> first | rfl | cases given
  have read : value.readNumeral.isComparable := by
    cases value with
    | text written =>
        simp only [readNumeral]
        cases number : numeralOf? written with
        | none => rfl
        | some value => exact isComparable_numeralOf? number
    | _ => exact given
  have shortened {value : SqlValue} (given : value.isComparable) : value.shorten.isComparable := by
    cases value with
    | real x =>
        simp only [shorten]
        cases integral? x with
        | none => exact given
        | some i => rfl
    | _ => exact given
  cases affinity with
  | none => exact given
  | text => exact spelled
  | numeric => exact shortened read

theorem isComparable_ofNumber {n : Number} (proper : n.IsProper) :
    (ofNumber n).isComparable := by
  cases n with
  | float x =>
      have number : x.isNaN = false := Binary64.isNaN_of_isFinite proper
      simp [ofNumber, Number.int64?, Number.toBinary64, isComparable, number]
  | int i =>
      unfold ofNumber
      split
      · rfl
      · simp [isComparable, Number.toBinary64, Binary64.isNaN_ofInt]

theorem isComparable_ofNumericText? {text : String} {value : SqlValue}
    (read : ofNumericText? text = some value) : value.isComparable := by
  rcases ofNumericText?_cases read with ⟨i, -, rfl⟩ | ⟨x, -, finite, rfl⟩
  · rfl
  · simp [isComparable, Binary64.isNaN_of_isFinite finite]

/-- A scalar operand is a parameter that compares. -/
theorem exists_ofOperand? {operand : Json} (scalar : ScalarOperand operand) :
    ∃ value, ofOperand? operand = some value ∧ value.isComparable := by
  cases scalar with
  | bool b => exact ⟨_, rfl, rfl⟩
  | num proper => exact ⟨_, rfl, isComparable_ofNumber proper⟩
  | @str text word =>
      simp only [ofOperand?, word, Bool.false_eq_true, if_false]
      split
      · exact ⟨_, rfl, rfl⟩
      split
      · exact ⟨_, rfl, rfl⟩
      refine ⟨_, rfl, ?_⟩
      cases read : ofNumericText? text with
      | none => rfl
      | some value => exact isComparable_ofNumericText? read

end SqlValue

/-! ### Cells that compare -/

theorem Affinity.convert_null (affinity : Affinity) : affinity.convert .null = .null := by
  cases affinity <;> rfl

/-- What a column stores of a value compares, unless the value is `null`. -/
theorem Column.isComparable_encode (column : Column) {value : Json}
    (proper : ∀ n, value = .num n → n.IsProper) (present : value ≠ .null) :
    (column.encode value).isComparable := by
  have key : (SqlValue.ofKey value).isComparable := by
    cases value with
    | num n => exact SqlValue.isComparable_ofNumber (proper n rfl)
    | str text =>
        unfold SqlValue.ofKey
        dsimp only
        split <;> rfl
    | _ => rfl
  have numeric : (encodeNumeric value).isComparable := by
    cases value with
    | num n => exact SqlValue.isComparable_ofNumber (proper n rfl)
    | str text =>
        change ((SqlValue.ofNumericText? text).getD (.text text)).isComparable
        cases read : SqlValue.ofNumericText? text with
        | none => rfl
        | some value => exact SqlValue.isComparable_ofNumericText? read
    | _ => rfl
  have truth : (encodeBoolean value).isComparable := by
    cases value with
    | str text =>
        unfold encodeBoolean
        dsimp only
        split
        · rfl
        · split <;> rfl
    | _ => rfl
  cases value with
  | null => exact absurd rfl present
  | _ =>
      unfold encode
      cases column.kind with
      | key => exact key
      | id => exact key
      | numeric => exact numeric
      | boolean => exact truth
      | text => rfl
      | json => rfl

namespace StoredField

variable {model : Schema} {name : String} {field : Field}

/-- The cell of a field compares if the record holds a value, and is `null` if not. -/
theorem cell_cases (stored : StoredField model name field) {record : Object} {row : Row}
    (given : RowOf model record row)
    (proper : ∀ n, record.get? name = some (.num n) → n.IsProper) :
    if record.holdsValue name then (row.get name).isComparable else row.get name = .null := by
  have convert := (Column.ofField (name, field)).affinity.convert_null
  unfold Object.holdsValue
  rw [stored.get_rowOf given]
  cases found : record.get? name with
  | none => exact convert
  | some value =>
      by_cases present : value = .null
      · rw [present]
        exact convert
      · have held : (!value.isNull) = true := by
          cases value with
          | null => exact absurd rfl present
          | _ => rfl
        rw [Option.any_some, held, if_pos rfl, Option.getD_some]
        refine SqlValue.isComparable_convert _ (Column.isComparable_encode _ ?_ present)
        rintro n rfl
        exact proper n found

end StoredField

/-! ### The two tests on both stores -/

/-- In rows the opposite of a test of equality holds where the test does not, unless it is a
comparison with a cell that is `null`; then neither holds. -/
theorem RowTest.holds_ofEquality {operand : Json} (scalar : ScalarOperand operand)
    (column : Column) (listed : Bool) (now : Instant) (row : Row)
    (cell : (row.get column.name).isComparable ∨ row.get column.name = .null) :
    let equal := (ofTest listed (.column column) (.eq operand)).holds now row
    let unequal := (ofTest listed (.column column) (.ne operand)).holds now row
    if listed || row.get column.name != .null then unequal = !equal
    else equal = false ∧ unequal = false := by
  obtain ⟨value, parameter, comparable⟩ := SqlValue.exists_ofOperand? scalar
  have single : operand.isArr = false := by cases scalar <;> rfl
  intro equal unequal
  cases listed with
  | true =>
      have element (negated : Bool) : ofEquality negated true (.column column) operand =
          .hasElement negated (.column column) value := by
        simp only [ofEquality, parameter, single, Bool.not_false, Bool.and_self, if_true]
      simp only [equal, unequal, ofTest, element, holds, Bool.true_or, if_true, Bool.bne_false,
        Bool.bne_true]
  | false =>
      have compare (negated : Bool) : ofEquality negated false (.column column) operand =
          .compare (.column column) (if negated then .ne else .eq) value := by
        simp only [ofEquality, parameter, Bool.false_and, Bool.false_eq_true, if_false]
      simp only [equal, unequal, ofTest, compare, holds, Term.value, Bool.false_or,
        Bool.false_eq_true, if_false, if_true]
      rcases cell with present | absent
      · have other : row.get column.name ≠ .null := by
          intro null
          rw [null] at present
          cases present
        have both := SqlValue.compare?_isSome present
          (SqlValue.isComparable_convert (Term.column column).affinity comparable)
        rw [if_pos (bne_iff_ne.mpr other), SqlValue.holds_ne, both, Bool.true_and]
      · rw [absent, if_neg (by simp)]
        exact ⟨rfl, rfl⟩

/-- A scalar operand behind `==` or `!=` is tested for itself. -/
theorem ScalarOperand.ofValue {operand : Json} (scalar : ScalarOperand operand) (key : String) :
    Test.ofValue key (.arr [.str "==", operand]) = .ok (.eq operand) ∧
      Test.ofValue key (.arr [.str "!=", operand]) = .ok (.ne operand) := by
  have value : Test.meansNull operand = false := by
    cases scalar with
    | bool b => rfl
    | num proper => rfl
    | str word => exact word
  have same : Operator.ofWord? "==" = some .eq := by decide
  have other : Operator.ofWord? "!=" = some .ne := by decide
  simp [Test.ofValue, Test.ofOperands, Test.ofOperand, same, other, value]

/-- The conditions that a field equals a scalar operand and that it does not are read and
compiled for both stores.  Of records that are kept as documents each is selected by exactly
one of them.  Of rows too, if the field is a list or the record holds a value of it; rows of
any other record are selected by neither. -/
theorem inequality_selects {model : Schema} {name : String} {field : Field}
    (stored : StoredField model name field) {operand : Json} (scalar : ScalarOperand operand)
    (options : SelectOptions) (now : Instant) :
    ∃ equal unequal : Plan, ∃ same other : Document.Query, ∃ sameRows otherRows : RowQuery,
      Plan.ofCondition (some [(name, .arr [.str "==", operand])]) options = .ok equal ∧
      Plan.ofCondition (some [(name, .arr [.str "!=", operand])]) options = .ok unequal ∧
      Document.Query.compile equal now = .ok same ∧
      Document.Query.compile unequal now = .ok other ∧
      RowQuery.compile model equal = .ok sameRows ∧
      RowQuery.compile model unequal = .ok otherRows ∧
      (∀ records, ∀ record ∈ records,
        (record ∈ other.run records ↔ record ∉ same.run records)) ∧
      ∀ rows, ∀ row ∈ rows, ∀ record, RowOf model record row →
        (∀ n, record.get? name = some (.num n) → n.IsProper) →
        if field.isListed || record.holdsValue name then
          (row ∈ otherRows.run now rows ↔ row ∉ sameRows.run now rows)
        else row ∉ sameRows.run now rows ∧ row ∉ otherRows.run now rows := by
  obtain ⟨equal, unequal⟩ := scalar.ofValue name
  refine ⟨_, _, _, _, _, _, stored.ofCondition_single equal options,
    stored.ofCondition_single unequal options, Document.compile_testing options name rfl now,
    Document.compile_testing options name rfl now, stored.compile_testing options _,
    stored.compile_testing options _, fun records record member => ?_,
    fun rows row member record given proper => ?_⟩
  · simp only [Document.mem_run_single, member, true_and, Document.Matcher.accepts,
      Bool.not_eq_true', Bool.not_eq_true]
  · have cell := stored.cell_cases given proper
    have compares : (row.get name).isComparable ∨ row.get name = .null := by
      split at cell
      · exact .inl cell
      · exact .inr cell
    have held : (row.get name != .null) = record.holdsValue name := by
      cases holds : record.holdsValue name with
      | false => simpa [holds] using cell
      | true =>
          rw [holds, if_pos rfl] at cell
          refine bne_iff_ne.mpr fun null => ?_
          rw [null] at cell
          cases cell
    have tests := RowTest.holds_ofEquality scalar (Column.ofField (name, field)) field.isListed
      now row compares
    have named : (Column.ofField (name, field)).name = name := rfl
    simp only [named, held] at tests
    simp only [RowQuery.mem_run_single, member, true_and]
    split at tests
    · rename_i opposite
      rw [if_pos opposite, tests, Bool.not_eq_true', Bool.not_eq_true]
    · rename_i neither
      rw [if_neg neither, tests.1, tests.2]
      exact ⟨Bool.false_ne_true, Bool.false_ne_true⟩

/-- Of two users the one that has another name is selected by the opposite condition, the one
without a name by neither. -/
theorem inequality_selects_names :
    let records : List Object := [[("name", .str "b")], []]
    let rows : List Row := [storedRow namedUser [("name", .str "b")] 1, storedRow namedUser [] 2]
    ∃ equal unequal : Plan, ∃ same other : Document.Query, ∃ sameRows otherRows : RowQuery,
      Plan.ofCondition (some [("name", .arr [.str "==", .str "a"])]) .plain = .ok equal ∧
      Plan.ofCondition (some [("name", .arr [.str "!=", .str "a"])]) .plain = .ok unequal ∧
      Document.Query.compile equal ⟨0, 0⟩ = .ok same ∧
      Document.Query.compile unequal ⟨0, 0⟩ = .ok other ∧
      RowQuery.compile namedUser equal = .ok sameRows ∧
      RowQuery.compile namedUser unequal = .ok otherRows ∧
      (∀ record ∈ records, (record ∈ other.run records ↔ record ∉ same.run records)) ∧
      (storedRow namedUser [("name", .str "b")] 1 ∈ otherRows.run ⟨0, 0⟩ rows ↔
        storedRow namedUser [("name", .str "b")] 1 ∉ sameRows.run ⟨0, 0⟩ rows) ∧
      storedRow namedUser [] 2 ∉ sameRows.run ⟨0, 0⟩ rows ∧
      storedRow namedUser [] 2 ∉ otherRows.run ⟨0, 0⟩ rows := by
  intro records rows
  have scalar : ScalarOperand (.str "a") := .str (by decide)
  obtain ⟨equal, unequal, same, other, sameRows, otherRows, planned, opposed, sameDocs, otherDocs,
    sameCompiled, otherCompiled, inDocuments, inRows⟩ :=
    inequality_selects storedField_name scalar .plain ⟨0, 0⟩
  have named := inRows rows _ List.mem_cons_self _ (.inserted 1) (by simp [Object.get?])
  have nameless := inRows rows _ (List.mem_cons_of_mem _ List.mem_cons_self) _ (.inserted 2)
    (by simp [Object.get?])
  exact ⟨equal, unequal, same, other, sameRows, otherRows, planned, opposed, sameDocs, otherDocs,
    sameCompiled, otherCompiled, inDocuments records, named, nameless⟩

/-- The row of a user without a name is found neither by the name nor by any other. -/
theorem inequality_misses_absent :
    let row := storedRow namedUser [] 1
    ∃ equal unequal : Plan, ∃ sameRows otherRows : RowQuery,
      Plan.ofCondition (some [("name", .arr [.str "==", .str "a"])]) .plain = .ok equal ∧
      Plan.ofCondition (some [("name", .arr [.str "!=", .str "a"])]) .plain = .ok unequal ∧
      RowQuery.compile namedUser equal = .ok sameRows ∧
      RowQuery.compile namedUser unequal = .ok otherRows ∧
      row ∉ sameRows.run ⟨0, 0⟩ [row] ∧ row ∉ otherRows.run ⟨0, 0⟩ [row] := by
  intro row
  obtain ⟨equal, unequal⟩ := (ScalarOperand.str (by decide : Text.sameFolded "a" "null" = false)).ofValue "name"
  refine ⟨_, _, _, _, storedField_name.ofCondition_single equal _,
    storedField_name.ofCondition_single unequal _, storedField_name.compile_testing _ _,
    storedField_name.compile_testing _ _, ?_, ?_⟩
  · rw [RowQuery.mem_run_single, not_and]
    exact fun _ => by decide
  · rw [RowQuery.mem_run_single, not_and]
    exact fun _ => by decide

end RecordStore
