/-
Module: RecordStore.Proofs.Json.Tokens
Purpose: Texts and numbers, the words of JSON text, read back.  A quoted text reads back
  whatever stands behind it.  A number reads on while it can, so what stands behind it must
  not continue it; what was read of a number alone is read in front of such a rest.
Main exports: string?_quoted, Stops, numberText?_append, Number.Legible,
  Number.legible_int, Numeral.int64?_integerText
-/
import Mathlib.Data.List.TakeDrop
import Mathlib.Data.List.TakeWhile
import Mathlib.Tactic.SplitIfs
import RecordStore.Json.Printer
import RecordStore.Json.Reader

namespace RecordStore.Json

/-! ### Texts -/

theorem hexValue?_hexDigit : ∀ n < 16, hexValue? (hexDigit n) = some n := by decide

/-- The escape of a control character reads back. -/
theorem hexFour?_control {c : Char} (control : c.toNat < 32) :
    hexFour? '0' '0' (hexDigit (c.toNat / 16)) (hexDigit (c.toNat % 16)) = some c.toNat := by
  have zero : hexValue? '0' = some 0 := by decide
  have high := hexValue?_hexDigit (c.toNat / 16) (by omega)
  have low := hexValue?_hexDigit (c.toNat % 16) (by omega)
  rw [hexFour?, zero, high, low]
  simp only [Option.bind_eq_bind, Option.bind_some, Option.pure_def, Option.some.injEq]
  omega

section Characters

variable (rest : List Char)

/-- An escape of two characters reads as the character it stands for. -/
theorem stringTail?_simple {e plain : Char} (simple : simpleEscape? e = some plain) :
    stringTail? ('\\' :: e :: rest) =
      (stringTail? rest).map fun read => (plain :: read.1, read.2) := by
  have other : e ≠ 'u' := by
    rintro rfl
    cases simple
  rw [stringTail?.eq_def]
  simp only [if_neg other, simple]
  rfl

/-- A control character is read from its code. -/
theorem stringTail?_control {c : Char} (control : c.toNat < 32) :
    stringTail? ('\\' :: 'u' :: '0' :: '0' :: hexDigit (c.toNat / 16) ::
        hexDigit (c.toNat % 16) :: rest) =
      (stringTail? rest).map fun read => (c :: read.1, read.2) := by
  have plain : ¬ (0xDC00 ≤ c.toNat ∧ c.toNat ≤ 0xDFFF) ∧
      ¬ (0xD800 ≤ c.toNat ∧ c.toNat ≤ 0xDBFF) := by
    omega
  rw [stringTail?.eq_def]
  simp only [hexFour?_control control, if_neg plain.1, if_neg plain.2, Char.ofNat_toNat]
  rfl

/-- One character of a quoted text reads back. -/
theorem stringTail?_escaped (c : Char) :
    stringTail? (escaped c ++ rest) =
      (stringTail? rest).map fun read => (c :: read.1, read.2) := by
  unfold escaped
  split_ifs with quote backslash backspace feed line back tab control
  · exact quote ▸ stringTail?_simple rest (e := '\x22') rfl
  · exact backslash ▸ stringTail?_simple rest (e := '\\') rfl
  · exact backspace ▸ stringTail?_simple rest (e := 'b') rfl
  · exact feed ▸ stringTail?_simple rest (e := 'f') rfl
  · exact line ▸ stringTail?_simple rest (e := 'n') rfl
  · exact back ▸ stringTail?_simple rest (e := 'r') rfl
  · exact tab ▸ stringTail?_simple rest (e := 't') rfl
  · exact stringTail?_control rest control
  · rw [List.singleton_append, stringTail?.eq_def]
    simp only [if_neg quote, if_neg backslash, if_neg control]

/-- The characters of a quoted text read back up to the closing quote. -/
theorem stringTail?_quoted (cs : List Char) :
    stringTail? (cs.flatMap escaped ++ '\x22' :: rest) = some (cs, rest) := by
  induction cs with
  | nil =>
      rw [stringTail?.eq_def]
      rfl
  | cons c cs ih =>
      rw [List.flatMap_cons, List.append_assoc, stringTail?_escaped, ih]
      rfl

/-- A quoted text reads back whatever stands behind it. -/
theorem string?_quoted (s : String) : string? (quoted s ++ rest) = some (s, rest) := by
  have closed : quoted s ++ rest = '\x22' :: (s.toList.flatMap escaped ++ '\x22' :: rest) := by
    simp [quoted]
  rw [closed, string?, if_pos rfl, stringTail?_quoted]
  simp

end Characters

/-! ### Numbers -/

/-- A rest that does not continue a number. -/
def Stops (rest : List Char) : Prop :=
  ∀ c ∈ rest.head?, c.isDigit = false ∧ c ≠ '.' ∧ c ≠ 'e' ∧ c ≠ 'E'

theorem Stops.nil : Stops [] := fun _ none => nomatch none

theorem Stops.cons {c : Char} (rest : List Char)
    (other : c.isDigit = false ∧ c ≠ '.' ∧ c ≠ 'e' ∧ c ≠ 'E') : Stops (c :: rest) := by
  intro d first
  cases first
  exact other

/-- A number at the head of the input, behind its sign. -/
def unsignedText? (negative : Bool) (cs : List Char) : Option (NumberText × List Char) :=
  let whole := cs.span Char.isDigit
  if whole.1.isEmpty || (whole.1.length != 1 && whole.1.head? == some '0') then none
  else (fractionText? whole.2).bind fun part =>
    (exponentText? part.2).bind fun power =>
      some (⟨negative, whole.1, part.1, power.1⟩, power.2)

theorem numberText?_minus (cs : List Char) :
    numberText? ('-' :: cs) = unsignedText? true cs := by
  simp only [numberText?, unsignedText?]
  split <;> rfl

theorem numberText?_plain {c : Char} (plain : c ≠ '-') (cs : List Char) :
    numberText? (c :: cs) = unsignedText? false (c :: cs) := by
  simp only [numberText?, unsignedText?]
  split
  · rename_i same
    cases same
    exact absurd rfl plain
  · dsimp only
    split <;> rfl

theorem sign_append (c : Char) (more rest : List Char) :
    Numeral.sign (c :: more ++ rest) =
      ((Numeral.sign (c :: more)).1, (Numeral.sign (c :: more)).2 ++ rest) := by
  by_cases minus : c = '-'
  · rw [minus]
    rfl
  · by_cases plus : c = '+'
    · rw [plus]
      rfl
    · simp [Numeral.sign, minus, plus]

/-- A run of digits is taken whole. -/
theorem span_digits {cs : List Char} (digits : ∀ c ∈ cs, c.isDigit) :
    cs.span Char.isDigit = (cs, []) := by
  rw [List.span_eq_takeWhile_dropWhile, List.takeWhile_eq_self_iff.mpr digits,
    List.dropWhile_eq_nil_iff.mpr digits]

section Numbers

variable {rest : List Char} (stops : Stops rest)
include stops

theorem span_append (cs : List Char) :
    (cs ++ rest).span Char.isDigit =
      ((cs.span Char.isDigit).1, (cs.span Char.isDigit).2 ++ rest) := by
  simp only [List.span_eq_takeWhile_dropWhile]
  induction cs with
  | nil =>
      cases rest with
      | nil => rfl
      | cons c others =>
          have other := (stops c rfl).1
          simp [other]
  | cons c cs ih =>
      by_cases digit : c.isDigit
      · simp only [List.cons_append, List.takeWhile_cons, List.dropWhile_cons, digit, if_true,
          Prod.mk.injEq, List.cons.injEq, true_and]
        exact Prod.mk.inj ih
      · simp [digit]

theorem fractionText?_append {cs left : List Char} {part : Option (List Char)}
    (read : fractionText? cs = some (part, left)) :
    fractionText? (cs ++ rest) = some (part, left ++ rest) := by
  unfold fractionText? at read
  split at read
  · rename_i more
    dsimp only at read
    split at read
    · cases read
    · rename_i digits
      cases read
      simp only [List.cons_append, fractionText?, span_append stops, if_neg digits]
  · rename_i other
    cases read
    unfold fractionText?
    split
    · rename_i more same
      cases cs with
      | nil =>
          have first : '.' ∈ rest.head? := by
            rw [List.nil_append] at same
            rw [same]
            rfl
          exact absurd rfl (stops '.' first).2.1
      | cons c cs =>
          cases same
          exact absurd rfl (other cs)
    · rfl

theorem exponentText?_append {cs left : List Char} {part : Option (Bool × List Char)}
    (read : exponentText? cs = some (part, left)) :
    exponentText? (cs ++ rest) = some (part, left ++ rest) := by
  cases cs with
  | nil =>
      cases read
      cases rest with
      | nil => rfl
      | cons c others =>
          obtain ⟨-, -, small, large⟩ := stops c rfl
          simp [exponentText?, small, large]
  | cons e more =>
      simp only [exponentText?, List.cons_append] at read ⊢
      by_cases marked : (decide (e = 'e') || decide (e = 'E')) = true
      · rw [if_pos marked] at read ⊢
        cases more with
        | nil => cases read
        | cons c more =>
            rw [sign_append, span_append stops]
            split at read
            · cases read
            · rename_i digits
              cases read
              rw [if_neg digits]
      · rw [if_neg marked] at read ⊢
        cases read
        rfl

theorem unsignedText?_append {negative : Bool} {cs left : List Char} {n : NumberText}
    (read : unsignedText? negative cs = some (n, left)) :
    unsignedText? negative (cs ++ rest) = some (n, left ++ rest) := by
  unfold unsignedText? at read ⊢
  rw [span_append stops]
  dsimp only at read ⊢
  split at read
  · cases read
  · rename_i digits
    rw [if_neg digits]
    obtain ⟨part, fraction, read⟩ := Option.bind_eq_some_iff.mp read
    obtain ⟨power, exponent, same⟩ := Option.bind_eq_some_iff.mp read
    cases same
    rw [fractionText?_append stops fraction, Option.bind_some,
      exponentText?_append stops exponent]
    rfl

/-- A number is read in front of what does not continue it as it is read alone. -/
theorem numberText?_append {cs left : List Char} {n : NumberText}
    (read : numberText? cs = some (n, left)) :
    numberText? (cs ++ rest) = some (n, left ++ rest) := by
  cases cs with
  | nil => cases read
  | cons c cs =>
      by_cases minus : c = '-'
      · subst minus
        rw [numberText?_minus] at read
        rw [List.cons_append, numberText?_minus]
        exact unsignedText?_append stops read
      · rw [numberText?_plain minus] at read
        rw [List.cons_append, numberText?_plain minus, ← List.cons_append]
        exact unsignedText?_append stops read

end Numbers

/-! ### Numbers that read back -/

/-- A number whose text is read as the number itself. -/
def Legible (n : Number) : Prop :=
  ∃ text, numberText? n.chars = some (text, []) ∧ text.toNumber? standard = some n

/-- A legible number reads back in front of what does not continue it. -/
theorem Legible.read {n : Number} (legible : Legible n) {rest : List Char} (stops : Stops rest) :
    ∃ text, numberText? (n.chars ++ rest) = some (text, rest) ∧
      text.toNumber? standard = some n := by
  obtain ⟨text, read, same⟩ := legible
  exact ⟨text, numberText?_append stops read, same⟩

/-- The text of a number begins with a sign or a digit. -/
theorem exists_first_of_numberText? {cs left : List Char} {text : NumberText}
    (read : numberText? cs = some (text, left)) :
    ∃ c more, cs = c :: more ∧ (c = '-' ∨ c.isDigit) := by
  cases cs with
  | nil => cases read
  | cons c more =>
      refine ⟨c, more, rfl, or_iff_not_imp_left.mpr fun plain => ?_⟩
      rw [numberText?_plain plain] at read
      by_contra other
      have none_read : (c :: more).span Char.isDigit = ([], c :: more) := by
        rw [List.span_eq_takeWhile_dropWhile]
        simp [other]
      simp only [unsignedText?, none_read] at read
      cases read

theorem natOf_digitsOf (n : Nat) : Numeral.natOf (digitsOf n) = n := by
  have folds : ∀ (cs : List Char) (start : Nat), Nat.ofDigitChars 10 cs start =
      cs.foldl (fun n c => n * 10 + Numeral.digitValue c) start := by
    intro cs
    induction cs with
    | nil => exact fun _ => rfl
    | cons c cs ih =>
        intro start
        rw [Nat.ofDigitChars_cons, ih, List.foldl_cons, Nat.mul_comm]
        rfl
  exact (folds (digitsOf n) 0).symm.trans Nat.ofDigitChars_ten_toDigits

/-- A number of several digits does not begin with zero. -/
theorem head?_digitsOf {n : Nat} (positive : n ≠ 0) : (digitsOf n).head? ≠ some '0' := by
  induction n using Nat.strongRecOn with
  | ind n ih =>
      unfold digitsOf
      rw [Nat.toDigits_eq_if (by decide)]
      split
      · rename_i small
        have digits : ∀ d < 10, d ≠ 0 → [Nat.digitChar d].head? ≠ some '0' := by decide
        exact digits n small positive
      · rename_i large
        have first := ih (n / 10) (by omega) (by omega)
        obtain ⟨c, more, digits⟩ := List.exists_cons_of_ne_nil
          (show digitsOf (n / 10) ≠ [] from Nat.toDigits_ne_nil)
        rw [digits] at first
        change (digitsOf (n / 10) ++ _).head? ≠ _
        rw [digits]
        exact first

theorem isDigit_of_mem_digitsOf {n : Nat} {c : Char} (member : c ∈ digitsOf n) : c.isDigit :=
  Nat.isDigit_of_mem_toDigits (by decide) (by decide) member

/-- The digits of a number are read as the number. -/
theorem unsignedText?_digitsOf (negative : Bool) (n : Nat) :
    unsignedText? negative (digitsOf n) = some (⟨negative, digitsOf n, none, none⟩, []) := by
  have digits : ∀ c ∈ digitsOf n, c.isDigit := fun c => isDigit_of_mem_digitsOf
  have all := span_digits digits
  have some_digit : (digitsOf n).isEmpty = false := by
    rw [List.isEmpty_eq_false_iff]
    exact Nat.toDigits_ne_nil
  have no_zero : ((digitsOf n).length != 1 && (digitsOf n).head? == some '0') = false := by
    by_cases zero : n = 0
    · rw [zero]
      decide
    · simp [head?_digitsOf zero]
  simp only [unsignedText?, all, some_digit, no_zero, Bool.or_self]
  rfl

/-- Integers of 64 bits, signed or unsigned, read back. -/
theorem legible_int {i : Int} (low : minInt64 ≤ i) (high : i ≤ maxNat64) : Legible (.int i) := by
  by_cases negative : i < 0
  · refine ⟨⟨true, digitsOf i.natAbs, none, none⟩, ?_, ?_⟩
    · rw [Number.chars, integerChars, if_pos negative, numberText?_minus]
      exact unsignedText?_digitsOf true i.natAbs
    · have value : -(i.natAbs : Int) = i := by omega
      have fits : fitsInt64 i = true := by
        unfold fitsInt64 maxInt64
        simp only [Bool.and_eq_true, decide_eq_true_eq]
        omega
      have positive : 0 < i.natAbs := by omega
      simp only [NumberText.toNumber?, natOf_digitsOf, value, fits, positive, Option.isNone_none,
        decide_true, Bool.and_self, if_true]
  · refine ⟨⟨false, digitsOf i.natAbs, none, none⟩, ?_, ?_⟩
    · rw [Number.chars, integerChars, if_neg negative]
      obtain ⟨c, more, digits⟩ := List.exists_cons_of_ne_nil
        (show digitsOf i.natAbs ≠ [] from Nat.toDigits_ne_nil)
      have plain : c ≠ '-' := by
        rintro rfl
        have sign : '-' ∈ digitsOf i.natAbs := digits ▸ List.mem_cons_self
        exact absurd (isDigit_of_mem_digitsOf sign) (by decide)
      rw [digits, numberText?_plain plain, ← digits]
      exact unsignedText?_digitsOf false i.natAbs
    · have value : (i.natAbs : Int) = i := by omega
      have fits : i.natAbs ≤ maxNat64 := by omega
      simp [NumberText.toNumber?, natOf_digitsOf, value, fits]

end RecordStore.Json

namespace RecordStore.Numeral

theorem sign_of_isDigit {cs : List Char} (first : ∀ c ∈ cs.head?, c.isDigit) :
    sign cs = (false, cs) := by
  unfold sign
  split
  case h_1 => exact absurd (first '-' rfl) (by decide)
  case h_2 => exact absurd (first '+' rfl) (by decide)
  case h_3 => rfl

/-- Signs and digits are no word, in small letters or not. -/
theorem lower_ne_of_plain {cs : List Char} (plain : ∀ c ∈ cs, c = '-' ∨ c.isDigit)
    {word : String} (letter : ∃ c ∈ word.toList, ¬ (c = '-' ∨ c.isDigit)) :
    Text.lower (String.ofList cs) ≠ word := by
  rintro rfl
  obtain ⟨c, member, other⟩ := letter
  rw [Text.lower, String.toList_ofList, String.toList_ofList] at member
  obtain ⟨d, among, rfl⟩ := List.mem_map.mp member
  rcases plain d among with rfl | digit
  · exact other (.inl rfl)
  · have bounds : '0'.val ≤ d.val ∧ d.val ≤ '9'.val := by simpa [Char.isDigit] using digit
    -- the capitals lie above the digits
    have small : ¬ (d.val ≥ 'A'.val ∧ d.val ≤ 'Z'.val) :=
      fun capital => absurd (UInt32.le_trans capital.1 bounds.2) (by decide)
    have kept : d.toLower = d := dif_neg small
    rw [kept] at other
    exact other (.inr digit)

/-- The text of an integer of 64 bits spells it. -/
theorem int64?_integerText {i : Int} (fits : fitsInt64 i) : int64? (integerText i) = some i := by
  have read : nat? (digitsOf i.natAbs) = some i.natAbs := by
    have nonempty : (digitsOf i.natAbs).isEmpty = false :=
      List.isEmpty_eq_false_iff.mpr Nat.toDigits_ne_nil
    have digits : (digitsOf i.natAbs).all Char.isDigit :=
      List.all_eq_true.mpr fun c => Json.isDigit_of_mem_digitsOf
    rw [nat?, nonempty, digits, Json.natOf_digitsOf]
    rfl
  unfold int64? integerText integerChars
  rw [String.toList_ofList]
  by_cases negative : i < 0
  · have value : -(i.natAbs : Int) = i := by omega
    simp only [if_pos negative, sign, read, Option.bind_some, if_true, value, fits]
  · have value : (i.natAbs : Int) = i := by omega
    have unsigned : sign (digitsOf i.natAbs) = (false, digitsOf i.natAbs) :=
      sign_of_isDigit fun c first => Json.isDigit_of_mem_digitsOf (List.mem_of_head? first)
    simp only [if_neg negative, unsigned, read, Option.bind_some, Bool.false_eq_true, if_false,
      value, fits, if_true]

end RecordStore.Numeral
