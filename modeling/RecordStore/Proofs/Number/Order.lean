/-
Module: RecordStore.Proofs.Number.Order
Purpose: Rounding keeps the order of integers, though not their difference.  Words never fall as
  magnitudes grow, so the doubles nearest to two integers are ordered as the integers are, or are
  one double; that happens to different integers only where both lie at or beyond `2 ^ 53` and are
  no further apart than the doubles are there.
Main exports: Binary64.nearestWord_mono, Binary64.rank_ofInt_le, Binary64.Merged,
  Binary64.Merged.near, Binary64.compare?_ofInt_of_merged, Binary64.compare?_ofInt_of_not_merged
-/
import RecordStore.Proofs.Number.Rounding

namespace RecordStore.Binary64

/-! ### Words grow with magnitudes -/

/-- Of two quotients by one divisor the greater is not rounded to less. -/
theorem divHalfEven_mono {m n den : Nat} (positive : 0 < den) (less : m ≤ n) :
    divHalfEven m den ≤ divHalfEven n den := by
  have near := divHalfEven_near positive m
  have near' := divHalfEven_near positive n
  rcases Nat.lt_or_eq_of_le less with lower | rfl
  · by_contra above
    -- otherwise the two quotients would be a half on either side of one point
    have step : divHalfEven n den * den + den ≤ divHalfEven m den * den := by
      rw [← Nat.succ_mul]
      exact Nat.mul_le_mul_right den (Nat.lt_of_not_le above)
    omega
  · exact Nat.le_refl _

/-- The words nearest to growing numbers of steps do not fall. -/
theorem nearestWord_mono {m n : Nat} (less : m ≤ n) : nearestWord m 1 ≤ nearestWord n 1 := by
  have binade : wordsInBinade = 2 ^ 52 := rfl
  have order : surplus m ≤ surplus n := by
    have logs : Nat.log2 m ≤ Nat.log2 n := by
      by_cases zero : n = 0
      · obtain rfl : m = n := by omega
        exact Nat.le_refl _
      · by_cases none : m = 0
        · simp [none]
        · exact (Nat.le_log2 zero).mpr (Nat.le_trans (Nat.log2_self_le none) less)
    unfold surplus
    omega
  rw [nearestWord_eq, nearestWord_eq]
  refine Nat.le_min.mpr ⟨Nat.le_trans (Nat.min_le_left _ _) ?_, Nat.min_le_right _ _⟩
  rcases Nat.lt_or_eq_of_le order with fewer | same
  · -- the greater one begins in a later binade
    have high := coefficient_le m
    have low : 2 ^ 52 ≤ coefficient n := (le_coefficient n).resolve_right (by omega)
    have places : (surplus m + 1) * wordsInBinade ≤ surplus n * wordsInBinade :=
      Nat.mul_le_mul_right _ fewer
    rw [Nat.succ_mul] at places
    omega
  · rw [coefficient, coefficient, same]
    exact Nat.add_le_add_left (divHalfEven_mono (Nat.two_pow_pos _) less) _

theorem wordOf_le {m n : Nat} (less : m ≤ n) : wordOf m ≤ wordOf n :=
  nearestWord_mono (Nat.mul_le_mul_right _ less)

/-! ### Integers in order -/

/-- The doubles nearest to growing integers do not fall. -/
theorem rank_ofInt_le {a b : Int} (less : a ≤ b) : (ofInt a).rank ≤ (ofInt b).rank := by
  rw [rank_ofInt, rank_ofInt]
  by_cases below : a < 0
  · by_cases under : b < 0
    · have words := wordOf_le (m := b.natAbs) (n := a.natAbs) (by omega)
      rw [if_pos below, if_pos under]
      omega
    · rw [if_pos below, if_neg under]
      omega
  · rw [if_neg below, if_neg (by omega)]
    exact Int.ofNat_le.mpr (wordOf_le (by omega))

/-- An integer that is held with its neighbours is kept apart from every other one. -/
theorem rank_ofInt_lt_of_small {a b : Int} (less : a < b)
    (small : a.natAbs < 2 ^ 53 ∨ b.natAbs < 2 ^ 53) : (ofInt a).rank < (ofInt b).rank := by
  rcases small with low | high
  · have next : (ofInt a).rank < (ofInt (a + 1)).rank :=
      rank_ofInt_lt (by omega) (by unfold Exact; omega) (by unfold Exact; omega)
    exact Int.lt_of_lt_of_le next (rank_ofInt_le less)
  · have before : (ofInt (b - 1)).rank < (ofInt b).rank :=
      rank_ofInt_lt (by omega) (by unfold Exact; omega) (by unfold Exact; omega)
    exact Int.lt_of_le_of_lt (rank_ofInt_le (by omega)) before

/-- The value of a double goes by its place in the order. -/
theorem signedSteps_eq (x : Binary64) :
    x.signedSteps =
      if x.rank < 0 then -(stepsOf x.rank.natAbs : Int) else stepsOf x.rank.natAbs := by
  unfold signedSteps rank steps
  cases x.negative with
  | false =>
      have above : ¬ (x.word : Int) < 0 := by omega
      simp [above]
  | true =>
      by_cases zero : x.word = 0
      · simp [zero, stepsOf]
      · simp [Nat.pos_of_ne_zero zero]

/-- Different integers that have one nearest double. -/
def Merged (a b : Int) : Prop := a ≠ b ∧ (ofInt a).rank = (ofInt b).rank

instance (a b : Int) : Decidable (Merged a b) := inferInstanceAs (Decidable (_ ∧ _))

namespace Merged

variable {a b : Int} (merged : Merged a b)
include merged

theorem large : 2 ^ 53 ≤ a.natAbs ∧ 2 ^ 53 ≤ b.natAbs := by
  by_contra small
  have either : a.natAbs < 2 ^ 53 ∨ b.natAbs < 2 ^ 53 := by omega
  rcases Int.lt_or_gt_of_ne merged.1 with less | greater
  · exact absurd merged.2 (Int.ne_of_lt (rank_ofInt_lt_of_small less either))
  · exact absurd merged.2 (Int.ne_of_gt (rank_ofInt_lt_of_small greater either.symm))

/-- Integers of 64 bits that share a double are at most `2 ^ 11` apart. -/
theorem near (left : a.natAbs ≤ 2 ^ 64) (right : b.natAbs ≤ 2 ^ 64) :
    (a - b).natAbs ≤ 2 ^ 11 := by
  have steps : (ofInt a).signedSteps = (ofInt b).signedSteps := by
    rw [signedSteps_eq, signedSteps_eq, merged.2]
  have close := (ofInt_near left).2.2
  have close' := (ofInt_near right).2.2
  have apart : ((a - b).natAbs * stepsInOne : Nat) ≤ 2 ^ 11 * stepsInOne := by
    have distance : (((a - b).natAbs * stepsInOne : Nat) : Int) =
        (a * stepsInOne - b * stepsInOne).natAbs := by
      rw [← Int.sub_mul, Int.natAbs_mul, Int.natAbs_natCast]
    rw [steps] at close
    generalize (ofInt b).signedSteps = x at close close'
    generalize a * (stepsInOne : Int) = exactA at close distance
    generalize b * (stepsInOne : Int) = exactB at close' distance
    generalize (a - b).natAbs * stepsInOne = gap at distance ⊢
    omega
  exact Nat.le_of_mul_le_mul_right apart stepsInOne_pos

end Merged

/-- Integers of one double compare as equal. -/
theorem compare?_ofInt_of_merged {a b : Int} (merged : Merged a b) :
    (ofInt a).compare? (ofInt b) = some .eq := by
  simp [compare?, isNaN_ofInt, merged.2]

/-- Integers of different doubles compare as they do themselves. -/
theorem compare?_ofInt_of_not_merged {a b : Int} (apart : ¬ Merged a b) :
    (ofInt a).compare? (ofInt b) = some (compare a b) := by
  have order : compare (ofInt a).rank (ofInt b).rank = compare a b := by
    rcases Int.lt_trichotomy a b with less | rfl | greater
    · have ranks : (ofInt a).rank ≠ (ofInt b).rank := fun same =>
        apart ⟨Int.ne_of_lt less, same⟩
      rw [Std.compare_eq_lt.mpr less, Std.compare_eq_lt.mpr
        (Int.lt_iff_le_and_ne.mpr ⟨rank_ofInt_le (Int.le_of_lt less), ranks⟩)]
    · rw [Std.ReflOrd.compare_self, Std.ReflOrd.compare_self]
    · have ranks : (ofInt b).rank ≠ (ofInt a).rank := fun same =>
        apart ⟨Int.ne_of_gt greater, same.symm⟩
      rw [Std.compare_eq_gt.mpr greater, Std.compare_eq_gt.mpr
        (Int.lt_iff_le_and_ne.mpr ⟨rank_ofInt_le (Int.le_of_lt greater), ranks⟩)]
  simp [compare?, isNaN_ofInt, order]

end RecordStore.Binary64
