/-
Module: RecordStore.Proofs.Patch.Counting
Purpose: Counters, that is, integers appended to stored integers.  A text that spells an integer of
  64 bits adds like the integer itself, as a signed integer or as the double nearest to it.  The
  sum is exact while it and both integers are signed integers of 64 bits; beyond that it is the
  double that adds the nearest doubles, finite and near to the sum, and nothing is refused.
Main exports: IsInteger64, Numeral.integer?, Json.Spells, Number.AddsLike, Number.SumOf,
  Patch.number?_of_spells, Patch.sum?_of_addsLike, Patch.append_adds
-/
import Mathlib.Data.Nat.Digits.Defs
import RecordStore.Proofs.Json.Tokens
import RecordStore.Proofs.Number.Rounding
import RecordStore.Proofs.Patch.Sequencing
import RecordStore.Proofs.Path.Reading
import RecordStore.Proofs.Path.WriteLaw

namespace RecordStore

/-! ### Integers in digits -/

/-- A signed or an unsigned integer of 64 bits. -/
def IsInteger64 (i : Int) : Prop := minInt64 ≤ i ∧ i ≤ maxNat64

instance (i : Int) : Decidable (IsInteger64 i) := inferInstanceAs (Decidable (_ ∧ _))

theorem IsInteger64.natAbs_le {i : Int} (small : IsInteger64 i) : i.natAbs ≤ 2 ^ 64 := by
  unfold IsInteger64 minInt64 maxNat64 at small
  omega

/-- An integer in digits is the double nearest to it. -/
theorem Decimal.nearest_natCast {n : Nat} (small : n ≤ maxNat64) :
    Decimal.nearest false ⟨n, 0⟩ = Binary64.ofInt n := by
  have few : (digitsOf n).length ≤ 20 := by
    apply Nat.toDigits_length 10 n 20 (by decide)
    exact Nat.lt_of_le_of_lt small (by decide)
  have whole : Binary64.ofInt n = Binary64.nearest false n 1 := by
    rw [Binary64.ofInt, Int.natAbs_natCast, decide_eq_false (Int.not_lt.mpr (Int.natCast_nonneg n))]
  unfold Decimal.nearest
  dsimp only
  split_ifs with zero high low
  · rw [whole, zero]
    exact congrArg (Binary64.mk false) Binary64.wordOf_zero.symm
  · omega
  · omega
  · rw [whole]
    exact congrArg (Binary64.nearest false · 1) (Nat.mul_one n)

namespace Numeral

/-- The integer of any size that a text spells: an optional sign, then digits, with blanks around
them. -/
def integer? (text : String) : Option Int :=
  let signed := sign (Text.trim text).toList
  (nat? signed.2).map fun n : Nat => if signed.1 then -(n : Int) else (n : Int)

/-- Digits are a decimal without a point and an exponent. -/
theorem decimal?_of_digits {cs : List Char} (digits : ∀ c ∈ cs, c.isDigit) (nonempty : cs ≠ []) :
    decimal? cs = some ⟨natOf cs, 0⟩ := by
  have read := Json.span_digits digits
  have whole : fraction [] = ([], []) := rfl
  simp only [decimal?, read, whole, List.append_nil, List.isEmpty_eq_false_iff.mpr nonempty,
    Bool.false_eq_true, if_false]
  rfl

/-- An unsigned integer in digits is read as the double nearest to it. -/
theorem binary64?_of_nat? {text : String} {n : Nat} (unsigned : (sign text.toList).1 = false)
    (spelled : nat? (sign text.toList).2 = some n) (small : n ≤ maxNat64) :
    binary64? text = some (Binary64.ofInt n) := by
  obtain ⟨nonempty, digits, rfl⟩ := FieldPath.nat?_eq_some_iff.mp spelled
  have plain : ∀ c ∈ (sign text.toList).2, c = '-' ∨ c.isDigit := fun c member =>
    .inr (digits c member)
  have inf : Text.lower (String.ofList (sign text.toList).2) ≠ "inf" :=
    lower_ne_of_plain plain ⟨'i', by simp, by decide⟩
  have infinity : Text.lower (String.ofList (sign text.toList).2) ≠ "infinity" :=
    lower_ne_of_plain plain ⟨'i', by simp, by decide⟩
  have nan : Text.lower (String.ofList (sign text.toList).2) ≠ "nan" :=
    lower_ne_of_plain plain ⟨'n', by simp, by decide⟩
  simp only [binary64?, inf, infinity, nan, Bool.or_self, decide_false, Bool.false_eq_true,
    if_false, decimal?_of_digits digits nonempty, Option.map_some, unsigned,
    Decimal.nearest_natCast small]

end Numeral

/-! ### Operands that are integers -/

/-- A value is an integer, or a text that spells it. -/
inductive Json.Spells : Json → Int → Prop where
  | number (i : Int) : Spells (.num (.int i)) i
  | text {text : String} {i : Int} (spelled : Numeral.integer? text = some i) : Spells (.str text) i

/-- A number that is added like an integer: it has the same nearest double, and it counts as a
signed integer of 64 bits if the integer is not too large for one. -/
structure Number.AddsLike (n : Number) (i : Int) : Prop where
  rounds : n.toBinary64 = Binary64.ofInt i
  counts : n.int64? = if i ≤ maxInt64 then some i else none

theorem Number.addsLike_int (i : Int) : (Number.int i).AddsLike i := ⟨rfl, rfl⟩

/-- An integer that is too large for a signed one is added like the double nearest to it. -/
theorem Number.addsLike_float {i : Int} (large : maxInt64 < i) :
    (Number.float (Binary64.ofInt i)).AddsLike i := by
  have unsigned : ¬ i ≤ maxInt64 := Int.not_le.mpr large
  constructor
  · rw [Number.toBinary64]
  · rw [Number.int64?, if_neg unsigned]

/-- The number that adds two integers: their sum, while both and the sum are signed integers of 64
bits; otherwise the double that adds the doubles nearest to them, which is finite, at most `2 ^ 12`
away from the sum, and the sum itself if all three are doubles. -/
inductive Number.SumOf (a b : Int) : Number → Prop where
  | exact (first : a ≤ maxInt64) (second : b ≤ maxInt64) (fits : fitsInt64 (a + b)) :
      SumOf a b (.int (a + b))
  | rounded (large : ¬ (a ≤ maxInt64 ∧ b ≤ maxInt64 ∧ fitsInt64 (a + b)))
      (finite : ((Binary64.ofInt a).add (Binary64.ofInt b)).isFinite)
      (near : (((Binary64.ofInt a).add (Binary64.ofInt b)).signedSteps -
        (a + b) * (Binary64.stepsInOne : Int)).natAbs ≤ 2 ^ 12 * Binary64.stepsInOne)
      (kept : Binary64.Representable a → Binary64.Representable b →
        Binary64.Representable (a + b) →
        ((Binary64.ofInt a).add (Binary64.ofInt b)).signedSteps =
          (a + b) * (Binary64.stepsInOne : Int)) :
      SumOf a b (.float ((Binary64.ofInt a).add (Binary64.ofInt b)))

namespace Patch

/-- A text that is no signed integer but a finite double is read as this double. -/
theorem textNumber?_of_binary64? {text : String} {x : Binary64}
    (unread : Numeral.int64? (Text.trim text) = none)
    (read : Numeral.binary64? (Text.trim text) = some x) (finite : x.isFinite) :
    textNumber? text = some (.float x) := by
  unfold textNumber?
  dsimp only
  rw [unread, read]
  exact if_pos finite

/-- A text that spells an integer of 64 bits is read as a number that is added like it. -/
theorem textNumber?_of_integer? {text : String} {i : Int}
    (spelled : Numeral.integer? text = some i) (small : IsInteger64 i) :
    ∃ n, textNumber? text = some n ∧ n.AddsLike i := by
  unfold Numeral.integer? at spelled
  obtain ⟨n, digits, value⟩ := Option.map_eq_some_iff.mp spelled
  by_cases fits : fitsInt64 i
  · have read : Numeral.int64? (Text.trim text) = some i := by
      simp only [Numeral.int64?, digits, Option.bind_some, value, fits, if_true]
    refine ⟨.int i, ?_, Number.addsLike_int i⟩
    unfold textNumber?
    dsimp only
    rw [read]
  · -- what a signed integer cannot hold lies above it, so it has no sign and becomes a double
    have large : maxInt64 < i := by
      unfold IsInteger64 at small
      unfold fitsInt64 at fits
      simp only [small.1, decide_true, Bool.true_and, decide_eq_true_eq] at fits
      exact Int.not_le.mp fits
    have unsigned : (Numeral.sign (Text.trim text).toList).1 = false := by
      by_contra signed
      rw [Bool.not_eq_false] at signed
      rw [signed, if_pos rfl] at value
      unfold maxInt64 at large
      omega
    rw [unsigned, if_neg Bool.false_ne_true] at value
    have unread : Numeral.int64? (Text.trim text) = none := by
      simp only [Numeral.int64?, digits, Option.bind_some, unsigned, Bool.false_eq_true, if_false,
        value, fits]
    have double : Numeral.binary64? (Text.trim text) = some (Binary64.ofInt i) := by
      rw [← value]
      apply Numeral.binary64?_of_nat? unsigned digits
      have below := small.2
      omega
    have finite : (Binary64.ofInt i).isFinite := (Binary64.ofInt_near small.natAbs_le).1
    exact ⟨_, textNumber?_of_binary64? unread double finite, Number.addsLike_float large⟩

/-- An operand that is an integer of 64 bits, or spells one, is a number that is added like it. -/
theorem number?_of_spells {operand : Json} {i : Int} (spells : operand.Spells i)
    (small : IsInteger64 i) : ∃ n, number? operand = some n ∧ n.AddsLike i := by
  cases spells with
  | number => exact ⟨.int i, rfl, Number.addsLike_int i⟩
  | text spelled =>
      rw [number?]
      exact textNumber?_of_integer? spelled small

/-! ### Sums -/

/-- Two numbers that are added like integers of 64 bits always have a sum. -/
theorem sum?_of_addsLike {left right : Number} {a b : Int} (first : left.AddsLike a)
    (second : right.AddsLike b) (small : IsInteger64 a) (small' : IsInteger64 b) :
    ∃ sum, sum? left right = some sum ∧ Number.SumOf a b sum := by
  obtain ⟨finite, near⟩ := Binary64.add_ofInt_near small.natAbs_le small'.natAbs_le
  have kept := Binary64.add_ofInt_exact small.natAbs_le small'.natAbs_le
  have double : Number.ofBinary64? (left.toBinary64.add right.toBinary64) =
      some (.float ((Binary64.ofInt a).add (Binary64.ofInt b))) := by
    rw [first.rounds, second.rounds, Number.ofBinary64?, if_pos finite]
  by_cases signed : a ≤ maxInt64 ∧ b ≤ maxInt64 ∧ fitsInt64 (a + b)
  · obtain ⟨below, below', fits⟩ := signed
    refine ⟨.int (a + b), ?_, .exact below below' fits⟩
    simp only [sum?, first.counts, second.counts, below, below', fits, if_true]
  · refine ⟨_, ?_, .rounded signed finite near kept⟩
    rw [← double]
    unfold sum?
    rw [first.counts, second.counts]
    split_ifs with below below'
    · -- both are signed, so it is their sum that is not
      simp only [below, below', true_and] at signed
      exact if_neg signed
    · rfl
    · rfl
    · rfl

/-! ### Counters -/

variable {record : Object} {path : FieldPath}

/-- What is stored at a path is an integer, or nothing or `null`, which count as zero. -/
def Counts (record : Object) (path : FieldPath) (i : Int) : Prop :=
  (stored? record path).getD (.int 0) = .int i

/-- An integer is appended to a counter by writing their sum. -/
theorem appendNumber_of_counts {a b : Int} (counts : Counts record path a) (small : IsInteger64 a)
    {operand : Json} (spells : operand.Spells b) (small' : IsInteger64 b) :
    ∃ sum, Number.SumOf a b sum ∧
      appendNumber record path operand = cover record path (.num sum) := by
  obtain ⟨addend, read, adds⟩ := number?_of_spells spells small'
  have current : ((stored? record path).map number?).getD (some (.int 0)) = some (.int a) := by
    unfold Counts at counts
    cases found : stored? record path with
    | none =>
        rw [found] at counts
        cases counts
        rfl
    | some value =>
        rw [found] at counts
        cases counts
        rfl
  obtain ⟨sum, added, sumOf⟩ := sum?_of_addsLike (Number.addsLike_int a) adds small small'
  refine ⟨sum, sumOf, ?_⟩
  simp only [appendNumber, read, current, added]

/-- Appending an integer of 64 bits to a counter, or a text that spells one, writes a number that
adds the two.  The number is exact while the integers and their sum are signed integers of 64 bits,
and otherwise rounded; no sum is refused.  Only the path can fail, and the record is as it was
then. -/
theorem append_adds (record : Object) {path : FieldPath} {resolved : Resolved}
    (numeric : resolved.type.isNumeric = true) (single : resolved.isList = false) {a b : Int}
    (counts : Counts record path a) (small : IsInteger64 a) {operand : Json}
    (spells : operand.Spells b) (small' : IsInteger64 b) :
    ∃ sum, Number.SumOf a b sum ∧
      apply record path operand .append resolved = cover record path (.num sum) ∧
      (∀ after, apply record path operand .append resolved = (.ok (), after) →
        after.lookup? (path.pinned record) = some (.num sum)) ∧
      ∀ error after, apply record path operand .append resolved = (.error error, after) →
        after = record ∧ ∃ fault, error = .path fault := by
  obtain ⟨sum, sumOf, adds⟩ := appendNumber_of_counts counts small spells small'
  have writes : apply record path operand .append resolved = cover record path (.num sum) := by
    rw [← adds]
    obtain ⟨type, isList⟩ := resolved
    cases single
    cases type <;> first | rfl | cases numeric
  refine ⟨sum, sumOf, writes, ?_, ?_⟩
  · intro after succeeded
    rw [writes, cover_eq_ok_iff] at succeeded
    exact Object.lookup?_pinned_of_set succeeded
  · intro error after failed
    have kept := apply_atomic record path operand .append resolved error after failed
    rw [writes, cover_eq_error_iff] at failed
    obtain ⟨fault, refused, -⟩ := failed
    exact ⟨kept, fault, refused⟩

/-- A counter goes down exactly from the greatest signed integer, and one up it is rounded. -/
theorem append_adds_beyond :
    let record : Object := [("n", .int 9223372036854775807)]
    let path : FieldPath := ⟨"n", [.name "n"], false⟩
    apply record path (.int (-7)) .append ⟨.number, false⟩ =
        (.ok (), [("n", .int 9223372036854775800)]) ∧
      apply record path (.str " +1 ") .append ⟨.decimal, false⟩ =
        (.ok (), [("n", .num (.float (Binary64.ofInt 9223372036854775808)))]) := by
  intro record path
  have counts : Counts record path 9223372036854775807 := rfl
  have spells : (Json.str " +1 ").Spells 1 := .text (by decide)
  constructor
  · obtain ⟨sum, sumOf, writes, -⟩ := @append_adds record path ⟨.number, false⟩ rfl rfl _ _ counts
      (by decide) _ (.number (-7)) (by decide)
    refine writes.trans ?_
    cases sumOf with
    | exact => rfl
    | rounded large => exact absurd (by decide) large
  · obtain ⟨sum, sumOf, writes, -⟩ := @append_adds record path ⟨.decimal, false⟩ rfl rfl _ _ counts
      (by decide) _ spells (by decide)
    rw [writes]
    cases sumOf with
    | exact _ _ fits => exact absurd fits (by decide)
    | rounded =>
        have value : (Binary64.ofInt 9223372036854775807).add (Binary64.ofInt 1) =
            Binary64.ofInt 9223372036854775808 := by decide +kernel
        rw [value]
        rfl

/-- A sum that is rounded is stored without a word: two below the least signed integer a counter
stays where it is, and a counter beyond the greatest signed integer is brought back to it only
nearly, although the sum itself is a signed integer. -/
theorem append_rounds_quietly :
    let path : FieldPath := ⟨"n", [.name "n"], false⟩
    (∃ x, apply [("n", .int (-9223372036854775808))] path (.int (-2)) .append ⟨.number, false⟩ =
        (.ok (), [("n", .num (.float x))]) ∧ x.toInt? = some (-9223372036854775808)) ∧
      ∃ x, apply [("n", .int 18446744073709551615)] path (.str "-9223372036854775808") .append
          ⟨.number, false⟩ = (.ok (), [("n", .num (.float x))]) ∧
        x.toInt? = some 9223372036854775808 := by
  intro path
  have adds {a : Int} {operand : Json} {addend : Number} {x : Binary64}
      (read : number? operand = some addend) (sum : sum? (.int a) addend = some (.float x)) :
      apply [("n", .int a)] path operand .append ⟨.number, false⟩ =
        (.ok (), [("n", .num (.float x))]) := by
    have current : ((stored? [("n", .int a)] path).map number?).getD (some (.int 0)) =
        some (.int a) := rfl
    change appendNumber [("n", .int a)] path operand = _
    rw [appendNumber, read]
    dsimp only
    rw [current]
    dsimp only
    rw [sum]
    rfl
  constructor
  · have sum : sum? (.int (-9223372036854775808)) (.int (-2)) =
        some (.float (Binary64.ofInt (-9223372036854775808))) := by decide +kernel
    exact ⟨_, adds rfl sum, by decide +kernel⟩
  · have read : number? (.str "-9223372036854775808") = some (.int (-9223372036854775808)) := by
      decide
    have sum : sum? (.int 18446744073709551615) (.int (-9223372036854775808)) =
        some (.float (Binary64.ofInt 9223372036854775808)) := by decide +kernel
    exact ⟨_, adds read sum, by decide +kernel⟩

end Patch

end RecordStore
