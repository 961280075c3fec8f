/-
Module: RecordStore.Proofs.Json.LooseText
Purpose: Loose texts of keys.  A number or a text is loosely equal to what has its loose text.  An
  integer has its loose text in common with its decimal text and with the double that it is, if
  that is below `10 ^ 15`, and with nothing else.
Main exports: integerText_injective, Json.IsKey, Json.looselyEqual_iff, Json.looselyEqual_int_cases
-/
import RecordStore.Proofs.Json.Alike
import RecordStore.Proofs.Json.Tokens
import RecordStore.Proofs.Number.Integral

namespace RecordStore

/-! ### Texts of integers -/

theorem integerChars_decimal {i : Int} {c : Char} (listed : c ∈ integerChars i) :
    c = '-' ∨ c.isDigit := by
  unfold integerChars at listed
  split at listed
  · rcases List.mem_cons.mp listed with rfl | digit
    · exact .inl rfl
    · exact .inr (Json.isDigit_of_mem_digitsOf digit)
  · exact .inr (Json.isDigit_of_mem_digitsOf listed)

theorem digitsOf_injective {m n : Nat} (same : digitsOf m = digitsOf n) : m = n := by
  rw [← Json.natOf_digitsOf m, same, Json.natOf_digitsOf]

theorem integerText_injective {i j : Int} (same : integerText i = integerText j) : i = j := by
  have chars : integerChars i = integerChars j := String.ofList_injective same
  -- a sign is no digit
  have signed (n : Nat) (rest : List Char) : digitsOf n ≠ '-' :: rest := fun equal => by
    have digit := Json.isDigit_of_mem_digitsOf (equal ▸ List.mem_cons_self)
    exact absurd digit (by decide)
  unfold integerChars at chars
  split at chars <;> split at chars
  · have magnitudes := digitsOf_injective (List.tail_eq_of_cons_eq chars)
    omega
  · exact absurd chars.symm (signed _ _)
  · exact absurd chars (signed _ _)
  · have magnitudes := digitsOf_injective chars
    omega

/-- The text of a double has a point or an exponent. -/
theorem DecimalLayout.exists_mark (layout : DecimalLayout) (d : Decimal) :
    ∃ c ∈ layout.chars d, c = '.' ∨ c = 'e' := by
  unfold chars
  dsimp only
  split
  · split
    · exact ⟨'.', by simp, .inl rfl⟩
    · split
      · exact ⟨'.', by simp, .inl rfl⟩
      · exact ⟨'.', by simp, .inl rfl⟩
  · exact ⟨'e', by simp [exponentChars], .inr rfl⟩

/-- No double is written like an integer. -/
theorem text_float_ne (x : Binary64) (i : Int) : (Number.float x).text ≠ integerText i := by
  intro same
  have chars : x.jsonChars = integerChars i := String.ofList_injective same
  have marked : ∃ c ∈ x.jsonChars, c = '.' ∨ c = 'e' := by
    by_cases zero : x.word = 0
    · exact ⟨'.', by simp [Binary64.jsonChars, zero], .inl rfl⟩
    · obtain ⟨c, listed, mark⟩ := jsonLayout.exists_mark (Decimal.shortest x.word)
      exact ⟨c, by simp [Binary64.jsonChars, zero, listed], mark⟩
  obtain ⟨c, listed, mark⟩ := marked
  rw [chars] at listed
  rcases integerChars_decimal listed with rfl | digit
  · revert mark
    decide
  · rcases mark with rfl | rfl <;> exact absurd digit (by decide)

/-! ### Doubles of one value -/

namespace Binary64

theorem toInt?_congr {x y : Binary64} (equal : x.sameValue y) : x.toInt? = y.toInt? := by
  obtain ⟨-, -, place⟩ := sameValue_iff.mp equal
  have finite : x.isFinite = y.isFinite := by
    have words : x.word = y.word := by
      unfold rank at place
      split at place <;> split at place <;> omega
    rw [isFinite, isFinite, words]
  ext i
  rw [toInt?_eq_some_iff, toInt?_eq_some_iff, finite, rank_eq_iff.mp place]

/-- Doubles of one value are one double, or both zeros. -/
theorem eq_or_zero {x y : Binary64} (equal : x.sameValue y) : x = y ∨ x.word = 0 := by
  obtain ⟨-, -, place⟩ := sameValue_iff.mp equal
  obtain ⟨sign, word⟩ := x
  obtain ⟨sign', word'⟩ := y
  by_cases zero : word = 0
  · exact .inr zero
  · left
    cases sign <;> cases sign' <;> simp only [rank, if_true, Bool.false_eq_true, if_false] at place
    · rw [Int.natCast_inj.mp place]
    · omega
    · omega
    · rw [Int.natCast_inj.mp (Int.neg_inj.mp place)]

end Binary64

namespace Number

theorem looseText_congr {m n : Number} (equal : m.same n) : m.looseText = n.looseText := by
  cases m with
  | int i =>
      cases n with
      | int j =>
          obtain rfl : i = j := by simpa [same] using equal
          rfl
      | float y => cases equal
  | float x =>
      cases n with
      | int j => cases equal
      | float y =>
          rcases Binary64.eq_or_zero equal with rfl | zero
          · rfl
          · have value : x.toInt? = some 0 := by
              rw [Binary64.toInt?_eq_some_iff, Int.zero_mul, Binary64.isFinite,
                Binary64.signedSteps, Binary64.steps, zero]
              exact ⟨by decide, by cases x.negative <;> rfl⟩
            have value' : y.toInt? = some 0 := Binary64.toInt?_congr equal ▸ value
            simp [looseText, value, value']

/-- A number has the loose text of an integer when it is the integer, or the double of that value
below `10 ^ 15`. -/
theorem looseText_eq_iff {n : Number} {i : Int} :
    n.looseText = integerText i ↔ n = .int i ∨
      ∃ x, n = .float x ∧ x.toInt? = some i ∧ i.natAbs < 1000000000000000 := by
  cases n with
  | int j =>
      constructor
      · intro same
        rw [integerText_injective (i := j) same]
        exact .inl rfl
      · rintro (⟨⟨⟩⟩ | ⟨x, ⟨⟩, -⟩)
        rfl
  | float x =>
      have text := text_float_ne x i
      constructor
      · intro same
        refine .inr ⟨x, rfl, ?_⟩
        unfold looseText at same
        dsimp only at same
        split at same
        · next whole value =>
            split at same
            · next small =>
                obtain rfl := integerText_injective same
                exact ⟨value, small⟩
            · exact absurd same text
        · exact absurd same text
      · rintro (⟨⟨⟩⟩ | ⟨y, ⟨⟩, value, small⟩)
        simp only [looseText, value, small, if_true]

end Number

namespace Json

/-- Values that are keys: numbers and texts. -/
def IsKey : Json → Prop
  | .num _ => True
  | .str _ => True
  | _ => False

/-- A key is loosely equal to what has its loose text. -/
theorem looselyEqual_iff {id key : Json} (isKey : key.IsKey) :
    id.looselyEqual key ↔ id.looseText = key.looseText := by
  rw [looselyEqual, Bool.or_eq_true, beq_iff_eq, or_iff_right_iff_imp]
  intro equal
  cases key with
  | num n =>
      cases id with
      | num m => exact Number.looseText_congr equal
      | _ => cases equal
  | str text =>
      cases id with
      | str other =>
          obtain rfl : other = text := by simpa [same] using equal
          rfl
      | _ => cases equal
  | _ => exact isKey.elim

/-- An integer is loosely equal to itself, to its text, to the double that it is below `10 ^ 15`,
and to no other value. -/
theorem looselyEqual_int_cases {i : Int} {key : Json} (loose : (Json.int i).looselyEqual key) :
    key = .int i ∨ key = .str (integerText i) ∨ ∃ x, key = .num (.float x) ∧ x.toInt? = some i := by
  have texts : (Json.int i).looseText = key.looseText ∨ (Json.int i).same key := by
    rw [looselyEqual, Bool.or_eq_true, beq_iff_eq] at loose
    exact loose.symm
  -- the text of an integer begins with a sign or a digit
  have apart {c : Char} {rest : List Char} (written : key.looseText = String.ofList (c :: rest))
      (other : ¬ (c = '-' ∨ c.isDigit)) (differs : (Json.int i).same key = false) : False := by
    rcases texts with text | equal
    · have spelled : integerChars i = c :: rest := String.ofList_injective (text.trans written)
      exact other (integerChars_decimal (spelled ▸ List.mem_cons_self))
    · exact Bool.false_ne_true (differs.symm.trans equal)
  cases key with
  | num n =>
      have spelled : n.looseText = integerText i ∨ n = .int i := by
        rcases texts with text | equal
        · exact .inl text.symm
        · cases n with
          | int j =>
              obtain rfl : i = j := by simpa [int, same, Number.same] using equal
              exact .inr rfl
          | float x => cases equal
      rcases spelled with text | rfl
      · rcases Number.looseText_eq_iff.mp text with rfl | ⟨x, rfl, value, -⟩
        · exact .inl rfl
        · exact .inr (.inr ⟨x, rfl, value⟩)
      · exact .inl rfl
  | str text =>
      rcases texts with same | equal
      · exact .inr (.inl (congrArg Json.str same.symm))
      · cases equal
  | null => exact (apart rfl (by decide) rfl).elim
  | bool b => cases b <;> exact (apart rfl (by decide) rfl).elim
  | arr items => exact (apart rfl (by decide) rfl).elim
  | obj members => exact (apart rfl (by decide) rfl).elim

end Json

end RecordStore
