/-
Module: RecordStore.Proofs.Number.Rounding
Purpose: How far rounding goes.  A magnitude in smallest steps is rounded to a coefficient of at
  most 53 bits times a power of two, at most half that power away from it.  Integers of 64 bits
  are rounded to doubles by at most `2 ^ 10`, and the double that adds two of them is at most
  `2 ^ 12` away from their sum.
Main exports: Binary64.coefficient, Binary64.stepsOf_nearestWord, Binary64.ofSignedSteps_near,
  Binary64.add_ofInt_near, Binary64.add_ofInt_exact
-/
import RecordStore.Proofs.Number.Exact

namespace RecordStore.Binary64

/-! ### Coefficients -/

/-- A quotient is rounded by at most half. -/
theorem divHalfEven_near {den : Nat} (positive : 0 < den) (num : Nat) :
    2 * ((divHalfEven num den * den : Nat) - (num : Int)).natAbs ≤ den := by
  have parts := Nat.div_add_mod num den
  have less := Nat.mod_lt num positive
  have next : (num / den + 1) * den = num / den * den + den := Nat.succ_mul _ _
  rw [Nat.mul_comm] at parts
  unfold divHalfEven
  dsimp only
  split_ifs with below above
  · omega
  · omega
  · -- a half goes to the even neighbour, which is as far away as the other
    rcases Nat.mod_two_eq_zero_or_one (num / den) with even | odd
    · rw [even, Nat.add_zero]
      omega
    · rw [odd]
      omega

/-- The number of bits of a magnitude that a double does not keep. -/
def surplus (n : Nat) : Nat := Nat.log2 n - 52

/-- The bits of a magnitude that a double keeps, after rounding. -/
def coefficient (n : Nat) : Nat := divHalfEven n (2 ^ surplus n)

theorem nearestWord_eq (n : Nat) :
    nearestWord n 1 = min (surplus n * wordsInBinade + coefficient n) infinityWord := by
  simp only [nearestWord, surplus, coefficient, Nat.div_one, Nat.one_mul, Nat.pow_eq]

theorem coefficient_le (n : Nat) : coefficient n ≤ 2 ^ 53 := by
  have rounded := divHalfEven_le n (2 ^ surplus n)
  have floor : n / 2 ^ surplus n < 2 ^ 53 := by
    rw [Nat.div_lt_iff_lt_mul (Nat.two_pow_pos _), ← Nat.pow_add]
    have enough : Nat.log2 n + 1 ≤ 53 + surplus n := by
      unfold surplus
      omega
    exact Nat.lt_of_lt_of_le Nat.lt_log2_self (Nat.pow_le_pow_right (by decide) enough)
  exact Nat.le_trans rounded floor

/-- A coefficient has all its bits, unless nothing is rounded. -/
theorem le_coefficient (n : Nat) : 2 ^ 52 ≤ coefficient n ∨ surplus n = 0 := by
  rcases Nat.lt_or_ge 52 (Nat.log2 n) with large | small
  · left
    have positive : n ≠ 0 := by
      rintro rfl
      cases large
    have floor : 2 ^ 52 ≤ n / 2 ^ surplus n := by
      have bits : 52 + surplus n = Nat.log2 n := by
        unfold surplus
        omega
      rw [Nat.le_div_iff_mul_le (Nat.two_pow_pos _), ← Nat.pow_add, bits]
      exact Nat.log2_self_le positive
    have kept : n / 2 ^ surplus n ≤ coefficient n := by
      unfold coefficient divHalfEven
      dsimp only
      split_ifs <;> omega
    exact Nat.le_trans floor kept
  · right
    exact Nat.sub_eq_zero_of_le small

/-- The magnitude of a word that is made of a power of two and a coefficient. -/
theorem stepsOf_word {power bits : Nat} (low : 2 ^ 52 ≤ bits ∨ power = 0) (high : bits ≤ 2 ^ 53) :
    stepsOf (power * wordsInBinade + bits) = bits * 2 ^ power := by
  have binade : wordsInBinade = 2 ^ 52 := rfl
  rcases Nat.lt_or_ge bits (2 ^ 52) with short | full
  · -- the smallest magnitudes stand for themselves
    obtain rfl : power = 0 := low.resolve_left (Nat.not_le.mpr short)
    rw [← binade] at short
    simp [stepsOf, Nat.div_eq_of_lt short, Nat.mod_eq_of_lt short]
  rcases Nat.lt_or_eq_of_le high with less | rfl
  · have cut : power * wordsInBinade + bits = (bits - 2 ^ 52) + wordsInBinade * (power + 1) := by
      rw [binade, Nat.mul_add, Nat.mul_comm]
      omega
    have inside : bits - 2 ^ 52 < wordsInBinade := by
      rw [binade]
      omega
    have exponent : (power * wordsInBinade + bits) / wordsInBinade = power + 1 := by
      rw [cut, Nat.add_mul_div_left _ _ (by decide), Nat.div_eq_of_lt inside, Nat.zero_add]
    have fraction : (power * wordsInBinade + bits) % wordsInBinade = bits - 2 ^ 52 := by
      rw [cut, Nat.add_mul_mod_self_left, Nat.mod_eq_of_lt inside]
    have whole : wordsInBinade + (bits - 2 ^ 52) = bits := by
      rw [binade]
      omega
    simp only [stepsOf, exponent, fraction, whole, Nat.add_sub_cancel, Nat.pow_eq]
    exact if_neg (Nat.succ_ne_zero power)
  · -- a coefficient that was rounded up to the next power of two opens the next binade
    have cut : power * wordsInBinade + 2 ^ 53 = wordsInBinade * (power + 2) := by
      rw [binade]
      omega
    have twice : wordsInBinade * 2 ^ (power + 1) = 2 ^ 53 * 2 ^ power := by
      rw [binade, ← Nat.pow_add, ← Nat.pow_add]
      congr 1
      omega
    simp only [stepsOf, cut, Nat.mul_div_cancel_left _ (show 0 < wordsInBinade by decide),
      Nat.mul_mod_right, Nat.add_zero, Nat.pow_eq]
    exact (if_neg (Nat.succ_ne_zero _)).trans twice

/-! ### Magnitudes -/

section Magnitude

variable {n : Nat} (finite : surplus n ≤ 2000)
include finite

theorem nearestWord_finite :
    nearestWord n 1 = surplus n * wordsInBinade + coefficient n ∧
      nearestWord n 1 < infinityWord := by
  have high := coefficient_le n
  have below : surplus n * wordsInBinade + coefficient n < infinityWord := by
    unfold infinityWord wordsInBinade
    omega
  rw [nearestWord_eq, Nat.min_eq_left (Nat.le_of_lt below)]
  exact ⟨rfl, below⟩

/-- A magnitude is rounded to its coefficient times a power of two. -/
theorem stepsOf_nearestWord : stepsOf (nearestWord n 1) = coefficient n * 2 ^ surplus n := by
  rw [(nearestWord_finite finite).1]
  exact stepsOf_word (le_coefficient n) (coefficient_le n)

end Magnitude

/-- What is smaller than a power of two has no more surplus bits than it. -/
theorem surplus_le {n places : Nat} (small : n < 2 ^ (53 + places)) : surplus n ≤ places := by
  by_cases zero : n = 0
  · simp [zero, surplus]
  · have log := (Nat.log2_lt zero).mpr small
    unfold surplus
    omega

/-- A magnitude up to a power of two is rounded to one that is not greater than this power, and by
at most half the place of the last of the 53 bits before it. -/
theorem stepsOf_nearestWord_near {n places : Nat} (bound : n ≤ 2 ^ (53 + places))
    (finite : places < 2000) :
    stepsOf (nearestWord n 1) ≤ 2 ^ (53 + places) ∧
      2 * ((stepsOf (nearestWord n 1) : Int) - n).natAbs ≤ 2 ^ places := by
  rcases Nat.lt_or_eq_of_le bound with less | rfl
  · have few := surplus_le less
    have power : 2 ^ surplus n ≤ 2 ^ places := Nat.pow_le_pow_right (by decide) few
    rw [stepsOf_nearestWord (by omega)]
    constructor
    · rw [Nat.pow_add]
      exact Nat.mul_le_mul (coefficient_le n) power
    · exact Nat.le_trans (divHalfEven_near (Nat.two_pow_pos _) n) power
  · -- a power of two is kept as it is
    have bits : surplus (2 ^ (53 + places)) = places + 1 := by
      rw [surplus, Nat.log2_two_pow]
      omega
    have exact_ : coefficient (2 ^ (53 + places)) * 2 ^ surplus (2 ^ (53 + places)) =
        2 ^ (53 + places) := by
      have cut : 2 ^ (53 + places) = 2 ^ 52 * 2 ^ (places + 1) := by
        rw [← Nat.pow_add]
        congr 1
        omega
      rw [coefficient, bits, cut, divHalfEven_mul (Nat.two_pow_pos _)]
    rw [stepsOf_nearestWord (by omega), exact_]
    simp

/-! ### Signed values -/

/-- A signed number of steps is rounded by at most half the place of its last kept bit. -/
theorem ofSignedSteps_near {s : Int} {places : Nat} (bound : s.natAbs ≤ 2 ^ (53 + places))
    (finite : places < 2000) :
    (ofSignedSteps s).isFinite ∧ (ofSignedSteps s).signedSteps.natAbs ≤ 2 ^ (53 + places) ∧
      2 * ((ofSignedSteps s).signedSteps - s).natAbs ≤ 2 ^ places := by
  obtain ⟨small, near⟩ := stepsOf_nearestWord_near bound finite
  have few : surplus s.natAbs ≤ places + 1 := by
    apply surplus_le
    exact Nat.lt_of_le_of_lt bound (Nat.pow_lt_pow_right (by decide) (by omega))
  have below : nearestWord s.natAbs 1 < infinityWord := (nearestWord_finite (by omega)).2
  have value : (ofSignedSteps s).signedSteps =
      if s < 0 then -(stepsOf (nearestWord s.natAbs 1) : Int)
      else (stepsOf (nearestWord s.natAbs 1) : Int) := by
    by_cases negative : s < 0 <;> simp [ofSignedSteps, signedSteps, steps, negative]
  rw [value]
  refine ⟨decide_eq_true below, ?_⟩
  -- only the magnitude and the two powers matter for the signed value
  clear value below few
  generalize stepsOf (nearestWord s.natAbs 1) = magnitude at small near ⊢
  generalize 2 ^ (53 + places) = limit at small ⊢
  generalize 2 ^ places = place at near ⊢
  split_ifs <;> omega

/-- An integer is rounded as a signed number of steps. -/
theorem ofInt_eq (i : Int) : ofInt i = ofSignedSteps (i * (stepsInOne : Int)) := by
  have positive : 0 < (stepsInOne : Int) := Int.natCast_pos.mpr stepsInOne_pos
  have sign : i * (stepsInOne : Int) < 0 ↔ i < 0 := by
    constructor
    · intro negative
      exact Int.neg_of_mul_neg_left negative positive
    · exact fun negative => Int.mul_neg_of_neg_of_pos negative positive
  rw [ofInt, nearest, ofSignedSteps, Int.natAbs_mul, Int.natAbs_natCast]
  simp only [sign]

/-- One is a power of two of smallest steps. -/
theorem exists_stepsInOne_eq : ∃ places, places = 1074 ∧ stepsInOne = 2 ^ places := by
  unfold stepsInOne
  -- the exponent is kept from being evaluated as a power
  generalize 1074 = places
  exact ⟨places, rfl, rfl⟩

/-- An integer of 64 bits is rounded by at most `2 ^ 10`. -/
theorem ofInt_near {i : Int} (small : i.natAbs ≤ 2 ^ 64) :
    (ofInt i).isFinite ∧ (ofInt i).signedSteps.natAbs ≤ 2 ^ 64 * stepsInOne ∧
      2 * ((ofInt i).signedSteps - i * (stepsInOne : Int)).natAbs ≤ 2 ^ 11 * stepsInOne := by
  obtain ⟨places, size, one⟩ := exists_stepsInOne_eq
  have limit : 2 ^ 64 * stepsInOne = 2 ^ (53 + (11 + places)) := by
    rw [one, ← Nat.pow_add, ← Nat.add_assoc]
  have half : 2 ^ 11 * stepsInOne = 2 ^ (11 + places) := by rw [one, ← Nat.pow_add]
  have bound : (i * (stepsInOne : Int)).natAbs ≤ 2 ^ (53 + (11 + places)) := by
    rw [Int.natAbs_mul, Int.natAbs_natCast, ← limit]
    exact Nat.mul_le_mul_right _ small
  rw [ofInt_eq, limit, half]
  exact ofSignedSteps_near bound (by omega)

/-! ### Sums -/

/-- An integer that is a double without rounding. -/
def Representable (i : Int) : Prop := (ofInt i).signedSteps = i * (stepsInOne : Int)

theorem signedSteps_zero (negative : Bool) : (zero negative).signedSteps = 0 := by
  cases negative <;> rfl

section Sums

variable {a b : Int} (left : a.natAbs ≤ 2 ^ 64) (right : b.natAbs ≤ 2 ^ 64)
include left right

/-- The doubles nearest to two integers are added as signed numbers of steps. -/
theorem add_ofInt :
    (ofInt a).add (ofInt b) =
      if (ofInt a).signedSteps + (ofInt b).signedSteps = 0 then
        zero ((ofInt a).negative && (ofInt b).negative)
      else ofSignedSteps ((ofInt a).signedSteps + (ofInt b).signedSteps) := by
  have finite := (ofInt_near left).1
  have finite' := (ofInt_near right).1
  simp only [add, isNaN_ofInt, finite, finite', Bool.or_self, Bool.false_eq_true, if_false, if_true]

/-- The double that adds two integers of 64 bits is finite and at most `2 ^ 12` away from their
sum. -/
theorem add_ofInt_near :
    ((ofInt a).add (ofInt b)).isFinite ∧
      (((ofInt a).add (ofInt b)).signedSteps - (a + b) * (stepsInOne : Int)).natAbs ≤
        2 ^ 12 * stepsInOne := by
  obtain ⟨-, magnitude, near⟩ := ofInt_near left
  obtain ⟨-, magnitude', near'⟩ := ofInt_near right
  have total : (a + b) * (stepsInOne : Int) = a * stepsInOne + b * stepsInOne := Int.add_mul a b _
  rw [add_ofInt left right, total]
  clear total
  generalize (ofInt a).signedSteps = x at *
  generalize (ofInt b).signedSteps = y at *
  generalize a * (stepsInOne : Int) = exactA at *
  generalize b * (stepsInOne : Int) = exactB at *
  split_ifs with none
  · refine ⟨rfl, ?_⟩
    rw [signedSteps_zero]
    omega
  · obtain ⟨places, size, one⟩ := exists_stepsInOne_eq
    have bits : (64 + places).succ = 53 + (12 + places) := by omega
    have limit : 2 * (2 ^ 64 * stepsInOne) = 2 ^ (53 + (12 + places)) := by
      rw [one, ← Nat.pow_add, ← Nat.pow_succ', bits]
    have half : 2 ^ 12 * stepsInOne = 2 ^ (12 + places) := by rw [one, ← Nat.pow_add]
    have bound : (x + y).natAbs ≤ 2 ^ (53 + (12 + places)) := by
      rw [← limit]
      omega
    obtain ⟨rounded, -, close⟩ := ofSignedSteps_near bound (by omega)
    refine ⟨rounded, ?_⟩
    rw [← half] at close
    omega

/-- The double that adds two integers is their sum, if no one of the three has to be rounded. -/
theorem add_ofInt_exact (first : Representable a) (second : Representable b)
    (sum : Representable (a + b)) :
    ((ofInt a).add (ofInt b)).signedSteps = (a + b) * (stepsInOne : Int) := by
  have total : (ofInt a).signedSteps + (ofInt b).signedSteps = (a + b) * (stepsInOne : Int) := by
    rw [first, second, Int.add_mul]
  rw [add_ofInt left right, total]
  split_ifs with none
  · rw [signedSteps_zero, none]
  · rw [← ofInt_eq]
    exact sum

end Sums

end RecordStore.Binary64
