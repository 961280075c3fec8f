/-
Module: RecordStore.Proofs.Number.Exact
Purpose: Integers as doubles.  Those of 64 bits are finite.  The word of an integer of
  magnitude up to `2 ^ 53` is found without rounding, and words grow with the integers, so
  these doubles compare as the integers do.
Main exports: Binary64.Exact, Binary64.isFinite_ofInt, Binary64.compare?_ofInt,
  Binary64.sameValue_ofInt
-/
import Mathlib.Algebra.Ring.Nat
import RecordStore.Number.Binary64

namespace RecordStore.Binary64

/-- The integers a double holds without rounding, with all that lie nearer to zero. -/
def Exact (i : Int) : Prop := i.natAbs ≤ 2 ^ 53

instance (i : Int) : Decidable (Exact i) := inferInstanceAs (Decidable (_ ≤ _))

/-! ### Words of integers -/

theorem divHalfEven_mul {den : Nat} (positive : 0 < den) (quotient : Nat) :
    divHalfEven (quotient * den) den = quotient := by
  simp [divHalfEven, Nat.mul_div_cancel _ positive, positive]

/-- Rounding a quotient adds at most one. -/
theorem divHalfEven_le (num den : Nat) : divHalfEven num den ≤ num / den + 1 := by
  unfold divHalfEven
  dsimp only
  split_ifs <;> omega

theorem log2_mul_two_pow {n : Nat} (positive : n ≠ 0) (k : Nat) :
    Nat.log2 (n * 2 ^ k) = Nat.log2 n + k := by
  have scaled : n * 2 ^ k ≠ 0 := Nat.mul_ne_zero positive (Nat.ne_of_gt (Nat.two_pow_pos k))
  refine (Nat.log2_eq_iff scaled).mpr ⟨?_, ?_⟩
  · rw [Nat.pow_add]
    exact Nat.mul_le_mul_right _ (Nat.log2_self_le positive)
  · rw [Nat.add_right_comm, Nat.pow_add]
    exact Nat.mul_lt_mul_of_pos_right Nat.lt_log2_self (Nat.two_pow_pos k)

/-- A number shifted so that its first bit is bit 52. -/
def leading (n : Nat) : Nat := n * 2 ^ 52 / 2 ^ Nat.log2 n

section Leading

variable {n : Nat} (positive : n ≠ 0) (small : n ≤ 2 ^ 53)
include positive small

theorem log2_le : Nat.log2 n ≤ 53 := by
  have above := Nat.le_trans (Nat.log2_self_le positive) small
  exact (Nat.pow_le_pow_iff_right (by decide)).mp above

/-- No bit is lost in the shift. -/
theorem leading_mul : leading n * 2 ^ Nat.log2 n = n * 2 ^ 52 := by
  refine Nat.div_mul_cancel ?_
  rcases Nat.lt_or_ge 52 (Nat.log2 n) with large | fits
  · have above := Nat.log2_self_le positive
    have log : Nat.log2 n = 53 := Nat.le_antisymm (log2_le positive small) large
    rw [log] at above ⊢
    rw [Nat.le_antisymm small above]
    exact Nat.dvd_mul_right _ _
  · exact Nat.dvd_mul_left_of_dvd (Nat.pow_dvd_pow 2 fits) n

theorem le_leading : 2 ^ 52 ≤ leading n := by
  refine Nat.le_of_mul_le_mul_right ?_ (Nat.two_pow_pos (Nat.log2 n))
  rw [leading_mul positive small, Nat.mul_comm]
  exact Nat.mul_le_mul_right _ (Nat.log2_self_le positive)

theorem leading_lt : leading n < 2 ^ 53 := by
  refine Nat.lt_of_mul_lt_mul_right (a := 2 ^ Nat.log2 n) ?_
  rw [leading_mul positive small]
  have below := Nat.mul_lt_mul_of_pos_right (Nat.lt_log2_self (n := n)) (Nat.two_pow_pos 52)
  rw [Nat.pow_succ] at below
  omega

/-- The word of a number is found without rounding: the binade of its first bit, and its
bits after that. -/
theorem nearestWord_mul {k : Nat} (enough : 52 ≤ k) :
    nearestWord (n * 2 ^ k) 1 =
      min ((Nat.log2 n + (k - 52)) * wordsInBinade + leading n) infinityWord := by
  have surplus : Nat.log2 (n * 2 ^ k / 1) - 52 = Nat.log2 n + (k - 52) := by
    rw [Nat.div_one, log2_mul_two_pow positive]
    omega
  have shifted : n * 2 ^ k = leading n * 2 ^ (Nat.log2 n + (k - 52)) := by
    rw [Nat.pow_add, ← Nat.mul_assoc, leading_mul positive small, Nat.mul_assoc, ← Nat.pow_add]
    congr 2
    omega
  unfold nearestWord
  simp only [surplus]
  rw [shifted, Nat.one_mul]
  exact congrArg (fun bits => min (_ + bits) infinityWord)
    (divHalfEven_mul (Nat.two_pow_pos _) (leading n))

end Leading

/-- The word of a number lies in the binade of its first bit, or at the start of the next
when the bits after it are rounded up. -/
theorem nearestWord_le {n k : Nat} (positive : n ≠ 0) (enough : 52 ≤ k) :
    nearestWord (n * 2 ^ k) 1 ≤ (Nat.log2 n + (k - 52)) * wordsInBinade + 2 ^ 53 := by
  have surplus : Nat.log2 (n * 2 ^ k / 1) - 52 = Nat.log2 n + (k - 52) := by
    rw [Nat.div_one, log2_mul_two_pow positive]
    omega
  have quotient : n * 2 ^ k / (1 * 2 ^ (Nat.log2 n + (k - 52))) < 2 ^ 53 := by
    have shifted : 53 + (Nat.log2 n + (k - 52)) = Nat.log2 n + 1 + k := by omega
    rw [Nat.one_mul, Nat.div_lt_iff_lt_mul (Nat.two_pow_pos _), ← Nat.pow_add, shifted,
      Nat.pow_add]
    exact Nat.mul_lt_mul_of_pos_right Nat.lt_log2_self (Nat.two_pow_pos _)
  have rounded := divHalfEven_le (n * 2 ^ k) (1 * 2 ^ (Nat.log2 n + (k - 52)))
  unfold nearestWord
  simp only [surplus, Nat.pow_eq]
  exact Nat.le_trans (Nat.min_le_left _ _)
    (Nat.add_le_add_left (Nat.le_trans rounded quotient) _)

theorem stepsInOne_pos : 0 < stepsInOne := by
  unfold stepsInOne
  generalize 1074 = places
  exact Nat.two_pow_pos places

/-- The word of a number. -/
def wordOf (n : Nat) : Nat := nearestWord (n * stepsInOne) 1

theorem wordOf_zero : wordOf 0 = 0 := by
  rw [wordOf, Nat.zero_mul]
  decide

theorem wordOf_eq {n : Nat} (positive : n ≠ 0) (small : n ≤ 2 ^ 53) :
    wordOf n = (Nat.log2 n + 1022) * wordsInBinade + leading n := by
  have log := log2_le positive small
  have below := leading_lt positive small
  have finite : (Nat.log2 n + 1022) * wordsInBinade + leading n ≤ infinityWord := by
    unfold infinityWord wordsInBinade
    omega
  unfold wordOf stepsInOne
  -- the exponent is kept from being evaluated as a power
  generalize places : 1074 = k
  refine (nearestWord_mul positive small (by omega)).trans ?_
  rw [← places]
  exact Nat.min_eq_left finite

/-- Words grow with the numbers. -/
theorem wordOf_lt {m n : Nat} (less : m < n) (small : n ≤ 2 ^ 53) : wordOf m < wordOf n := by
  have positive : n ≠ 0 := by omega
  have above := le_leading positive small
  rw [wordOf_eq positive small]
  by_cases zero : m = 0
  · rw [zero, wordOf_zero]
    unfold wordsInBinade
    omega
  · have smaller : m ≤ 2 ^ 53 := by omega
    have below := leading_lt zero smaller
    rw [wordOf_eq zero smaller]
    have logs : Nat.log2 m ≤ Nat.log2 n :=
      (Nat.le_log2 positive).mpr (Nat.le_trans (Nat.log2_self_le zero) (Nat.le_of_lt less))
    unfold wordsInBinade
    rcases Nat.lt_or_eq_of_le logs with higher | same
    · omega
    · have order : leading m < leading n := by
        refine Nat.lt_of_mul_lt_mul_right (a := 2 ^ Nat.log2 n) ?_
        rw [leading_mul positive small, ← same, leading_mul zero smaller]
        exact Nat.mul_lt_mul_of_pos_right less (Nat.two_pow_pos 52)
      rw [same]
      omega

/-- A finite number is a number. -/
theorem isNaN_of_isFinite {x : Binary64} (finite : x.isFinite) : x.isNaN = false := by
  have below : x.word < infinityWord := of_decide_eq_true finite
  exact decide_eq_false (Nat.not_lt.mpr (Nat.le_of_lt below))

/-- Integers of 64 bits are finite as doubles. -/
theorem isFinite_ofInt {i : Int} (small : i.natAbs < 2 ^ 64) : (ofInt i).isFinite := by
  have below : wordOf i.natAbs < infinityWord := by
    by_cases zero : i.natAbs = 0
    · rw [zero, wordOf_zero]
      decide
    · have log : Nat.log2 i.natAbs < 64 := (Nat.log2_lt zero).mpr small
      unfold wordOf stepsInOne
      -- the exponent is kept from being evaluated as a power
      generalize places : 1074 = k
      refine Nat.lt_of_le_of_lt (nearestWord_le zero (by omega)) ?_
      rw [← places]
      unfold infinityWord wordsInBinade
      omega
  exact decide_eq_true below

/-! ### Order of integers as doubles -/

theorem isNaN_ofInt (i : Int) : (ofInt i).isNaN = false :=
  decide_eq_false (Nat.not_lt.mpr (Nat.min_le_right _ _))

theorem rank_ofInt (i : Int) :
    (ofInt i).rank = if i < 0 then -(wordOf i.natAbs : Int) else (wordOf i.natAbs : Int) := by
  by_cases negative : i < 0 <;> simp [rank, ofInt, nearest, wordOf, negative]

theorem rank_ofInt_lt {a b : Int} (less : a < b) (left : Exact a) (right : Exact b) :
    (ofInt a).rank < (ofInt b).rank := by
  rw [rank_ofInt, rank_ofInt]
  by_cases below : a < 0
  · rw [if_pos below]
    have positive : 0 < wordOf a.natAbs := by
      have above := wordOf_lt (m := 0) (by omega) left
      rwa [wordOf_zero] at above
    by_cases under : b < 0
    · rw [if_pos under]
      have words := wordOf_lt (m := b.natAbs) (by omega) left
      omega
    · rw [if_neg under]
      omega
  · rw [if_neg below, if_neg (by omega)]
    exact Int.ofNat_lt.mpr (wordOf_lt (by omega) right)

/-- Exact integers compare as doubles as they do themselves. -/
theorem compare?_ofInt {a b : Int} (left : Exact a) (right : Exact b) :
    (ofInt a).compare? (ofInt b) = some (compare a b) := by
  have same : compare (ofInt a).rank (ofInt b).rank = compare a b := by
    rcases Int.lt_trichotomy a b with less | rfl | greater
    · rw [Std.compare_eq_lt.mpr less, Std.compare_eq_lt.mpr (rank_ofInt_lt less left right)]
    · rw [Std.ReflOrd.compare_self, Std.ReflOrd.compare_self]
    · rw [Std.compare_eq_gt.mpr greater, Std.compare_eq_gt.mpr (rank_ofInt_lt greater right left)]
  simp [compare?, isNaN_ofInt, same]

/-- Exact integers are equal as doubles only if they are equal. -/
theorem sameValue_ofInt {a b : Int} (left : Exact a) (right : Exact b) :
    (ofInt a).sameValue (ofInt b) = (compare a b == .eq) := by
  rw [sameValue, compare?_ofInt left right]
  rfl

end RecordStore.Binary64
