/-
Module: RecordStore.Proofs.Number.Integral
Purpose: Doubles that are integers.  A double has an integer for its value when its magnitude is
  that many times one; magnitudes grow with the words, so a double is known by its value, and one
  whose value is an exact integer is in the place of the double nearest to it.
Main exports: Binary64.toInt?_eq_some_iff, Binary64.stepsOf_strictMono, Binary64.rank_eq_iff,
  Binary64.signedSteps_ofInt, Binary64.rank_of_toInt?
-/
import Mathlib.Order.Monotone.Basic
import RecordStore.Proofs.Number.Order

namespace RecordStore.Binary64

/-! ### Values that are integers -/

/-- A number of steps is an integer when that of one divides it. -/
theorem mul_eq_steps_iff {one steps : Nat} (positive : 0 < one) {i : Int} :
    i * (one : Int) = steps ↔ steps % one = 0 ∧ ((steps / one : Nat) : Int) = i := by
  constructor
  · intro same
    have divides : one ∣ steps := Int.natCast_dvd_natCast.mp ⟨i, by rw [← same, Int.mul_comm]⟩
    refine ⟨Nat.mod_eq_zero_of_dvd divides, ?_⟩
    rw [Int.natCast_ediv, ← same,
      Int.mul_ediv_cancel _ (Int.natCast_ne_zero.mpr (Nat.ne_of_gt positive))]
  · rintro ⟨divides, rfl⟩
    rw [← Int.natCast_mul, Nat.div_mul_cancel (Nat.dvd_of_mod_eq_zero divides)]

/-- A double has the value of an integer when it has as many steps. -/
theorem toInt?_eq_some_iff {x : Binary64} {i : Int} :
    x.toInt? = some i ↔ x.isFinite ∧ i * (stepsInOne : Int) = x.signedSteps := by
  have positive := stepsInOne_pos
  unfold toInt? signedSteps
  -- the number of steps in one is kept from being evaluated as a power
  generalize stepsInOne = one at positive ⊢
  generalize x.steps = steps
  cases x.isFinite with
  | false => simp
  | true =>
      simp only [Bool.true_and, beq_iff_eq, Option.ite_none_right_eq_some, Option.some.injEq,
        true_and]
      cases x.negative with
      | false => exact (mul_eq_steps_iff positive).symm
      | true =>
          have turned : i * (one : Int) = -(steps : Int) ↔ -i * (one : Int) = steps := by
            rw [Int.neg_mul, Int.neg_eq_comm, eq_comm]
          simp only [if_true]
          rw [turned, mul_eq_steps_iff positive, Int.neg_eq_comm, eq_comm (a := -i)]

/-! ### Doubles known by their values -/

/-- Magnitudes grow with the words. -/
theorem stepsOf_strictMono : StrictMono stepsOf := by
  refine strictMono_nat_of_lt_succ fun word => ?_
  have inside := Nat.mod_lt word (show 0 < wordsInBinade by decide)
  have parts := Nat.div_add_mod word wordsInBinade
  rcases Nat.lt_or_eq_of_le inside with within | last
  · -- the next word is in the same binade
    have same : (word + 1) / wordsInBinade = word / wordsInBinade :=
      Nat.div_eq_of_lt_le (by rw [Nat.mul_comm]; omega) (by rw [Nat.mul_comm, Nat.mul_succ]; omega)
    have next : (word + 1) % wordsInBinade = word % wordsInBinade + 1 := by
      have parts' := Nat.div_add_mod (word + 1) wordsInBinade
      rw [same] at parts'
      omega
    unfold stepsOf
    simp only [same, next, Nat.pow_eq]
    split_ifs
    · omega
    · exact Nat.mul_lt_mul_of_pos_right (by omega) (Nat.two_pow_pos _)
  · -- the next word opens the next binade
    have whole : word + 1 = (word / wordsInBinade + 1) * wordsInBinade := by
      rw [Nat.succ_mul, Nat.mul_comm]
      omega
    have next : (word + 1) / wordsInBinade = word / wordsInBinade + 1 := by
      rw [whole, Nat.mul_div_cancel _ (by decide)]
    have first : (word + 1) % wordsInBinade = 0 := by
      rw [whole, Nat.mul_mod_left]
    unfold stepsOf
    simp only [next, first, Nat.pow_eq, Nat.add_zero, Nat.add_sub_cancel, Nat.succ_ne_zero,
      if_false]
    split_ifs with subnormal
    · rw [subnormal]
      omega
    · obtain ⟨below, above⟩ := Nat.exists_eq_succ_of_ne_zero subnormal
      rw [above, Nat.succ_sub_one, Nat.pow_succ', ← Nat.mul_assoc]
      exact Nat.mul_lt_mul_of_pos_right (by omega) (Nat.two_pow_pos _)

/-- Doubles of one value have one place in the order. -/
theorem rank_eq_iff {x y : Binary64} : x.rank = y.rank ↔ x.signedSteps = y.signedSteps := by
  have known : ∀ word : Nat, stepsOf word = 0 ↔ word = 0 := fun word =>
    stepsOf_strictMono.injective.eq_iff' rfl
  rw [signedSteps_eq, signedSteps_eq]
  constructor
  · intro same
    rw [same]
  · intro same
    have zero := known x.rank.natAbs
    have zero' := known y.rank.natAbs
    have words : stepsOf x.rank.natAbs = stepsOf y.rank.natAbs ↔ x.rank.natAbs = y.rank.natAbs :=
      stepsOf_strictMono.injective.eq_iff
    split_ifs at same <;> omega

/-- An exact integer is held without rounding. -/
theorem signedSteps_ofInt {i : Int} (exact : Exact i) : Representable i := by
  have magnitude {n : Nat} (small : n ≤ 2 ^ 53) : stepsOf (wordOf n) = n * stepsInOne := by
    by_cases zero : n = 0
    · rw [zero, wordOf_zero, Nat.zero_mul]
      rfl
    · obtain ⟨places, size, one⟩ := exists_stepsInOne_eq
      have bits : places = 52 + 1022 := size
      rw [wordOf_eq zero small, stepsOf_word (.inl (le_leading zero small))
        (Nat.le_of_lt (leading_lt zero small)), Nat.pow_add, ← Nat.mul_assoc,
        leading_mul zero small, one, bits, Nat.pow_add, Nat.mul_assoc]
  have value : (ofInt i).signedSteps =
      if i < 0 then -(stepsOf (wordOf i.natAbs) : Int) else stepsOf (wordOf i.natAbs) := by
    by_cases negative : i < 0 <;>
      simp [ofInt, nearest, signedSteps, steps, wordOf, negative]
  unfold Representable
  rw [value, magnitude exact, Int.natCast_mul]
  split_ifs with negative
  · rw [← Int.neg_mul, Int.ofNat_natAbs_of_nonpos (Int.le_of_lt negative), Int.neg_neg]
  · rw [Int.natAbs_of_nonneg (Int.not_lt.mp negative)]

/-- A double with the value of an exact integer is in the place of the nearest double. -/
theorem rank_of_toInt? {x : Binary64} {i : Int} (value : x.toInt? = some i) (exact : Exact i) :
    x.rank = (ofInt i).rank := by
  rw [rank_eq_iff, signedSteps_ofInt exact]
  exact (toInt?_eq_some_iff.mp value).2.symm

end RecordStore.Binary64
