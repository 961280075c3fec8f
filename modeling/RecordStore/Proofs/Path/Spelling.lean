/-
Module: RecordStore.Proofs.Path.Spelling
Purpose: Paths written out.  Names stand with dots between them, a position in brackets, and
  the key and the value of a predicate in quotes that they do not hold themselves.  Whatever
  else they hold, dots, brackets, braces, commas, colons or blanks, the text is read as the
  steps that were written: nothing of a quoted value is taken for the path around it.
Main exports: WrittenSelector, WrittenStep, FieldPath.written, pathText_written,
  FieldPath.parse_written
-/
import RecordStore.Proofs.Json.Tokens
import RecordStore.Proofs.Path.Reading

namespace RecordStore

open PathGrammar

/-! ### Steps to write -/

instance : DecidablePred QuoteMark := fun _ => inferInstanceAs (Decidable (_ ∨ _))

instance : DecidablePred PlainChar := fun _ => inferInstanceAs (Decidable (_ ∧ _))

/-- The characters of the name are gone through, not all that there are. -/
instance : DecidablePred IsName := fun name =>
  haveI := List.decidableBAll (fun c => c ≠ '.' ∧ c ≠ '[' ∧ c ≠ ']') name
  inferInstanceAs (Decidable (_ ∧ _))

/-- What picks an element behind a name: a position, or a member with its value, which is
written between two equal marks. -/
inductive WrittenSelector where
  | index (position : Nat)
  | element (key value : String) (mark : Char)
deriving DecidableEq, Repr

namespace WrittenSelector

/-- The text between the brackets. -/
def text : WrittenSelector → List Char
  | .index position => digitsOf position
  | .element key value mark =>
    '\x7b' ::
      ((('\x22' :: (key.toList ++ ['\x22'])) ++ ':' :: (mark :: (value.toList ++ [mark]))) ++
        ['\x7d'])

/-- The step that is written. -/
def segment : WrittenSelector → Segment
  | .index position => .index position
  | .element key value _ => .element key value

/-- Positions have 64 bits; keys are not empty and hold no comma, colon or quote; values do not
hold the mark that they are quoted with. -/
def Writable : WrittenSelector → Prop
  | .index position => position < UInt64.size
  | .element key value mark =>
    key ≠ "" ∧ (∀ c ∈ key.toList, c ≠ ',' ∧ c ≠ ':' ∧ ¬ QuoteMark c) ∧ QuoteMark mark ∧
      mark ∉ value.toList

instance : DecidablePred Writable
  | .index _ => inferInstanceAs (Decidable (_ < _))
  | .element key _ _ =>
    haveI := List.decidableBAll (fun c => c ≠ ',' ∧ c ≠ ':' ∧ ¬ QuoteMark c) key.toList
    inferInstanceAs (Decidable (_ ∧ _))

end WrittenSelector

/-- A name, and what picks an element behind it. -/
structure WrittenStep where
  name : String
  selector : Option WrittenSelector
deriving DecidableEq, Repr

namespace WrittenStep

/-- The text of a step. -/
def text (step : WrittenStep) : List Char :=
  match step.selector with
  | none => step.name.toList
  | some selector => step.name.toList ++ '[' :: (selector.text ++ [']'])

/-- The steps of a path that are written. -/
def segments (step : WrittenStep) : List Segment :=
  .name step.name :: (step.selector.map WrittenSelector.segment).toList

/-- A name of the grammar, and a selector that can be written behind it. -/
def Writable (step : WrittenStep) : Prop :=
  IsName step.name.toList ∧ ∀ selector ∈ step.selector, selector.Writable

instance : DecidablePred Writable := fun _ => inferInstanceAs (Decidable (_ ∧ _))

end WrittenStep

/-- The text of a path: its steps with dots between them, and one more dot if it descends. -/
def FieldPath.written (steps : List WrittenStep) (descend : Bool) : String :=
  String.ofList (List.intercalate ['.'] (steps.map WrittenStep.text) ++
    if descend then ['.'] else [])

/-! ### Texts that trimming leaves alone -/

namespace Text

theorem dropWhile_isBlank_of_head {cs : List Char} (solid : ∀ c ∈ cs.head?, isBlank c = false) :
    cs.dropWhile isBlank = cs := by
  cases cs with
  | nil => rfl
  | cons c rest => rw [List.dropWhile_cons_of_neg (by simp [solid c rfl])]

/-- Nothing is trimmed of a text that neither begins nor ends with a blank. -/
theorem trimChars_eq_self {cs : List Char} (first : ∀ c ∈ cs.head?, isBlank c = false)
    (last : ∀ c ∈ cs.getLast?, isBlank c = false) : trimChars cs = cs := by
  rw [← List.head?_reverse] at last
  rw [trimChars, dropWhile_isBlank_of_head first, dropWhile_isBlank_of_head last,
    List.reverse_reverse]

/-- Nothing is trimmed between two characters that are no blanks. -/
theorem trimChars_between {first last : Char} (opens : isBlank first = false)
    (closes : isBlank last = false) (inner : List Char) :
    trimChars (first :: (inner ++ [last])) = first :: (inner ++ [last]) := by
  refine trimChars_eq_self (by simpa using opens) ?_
  rw [← List.cons_append, List.getLast?_concat]
  simpa using closes

theorem isBlank_of_isDigit {c : Char} (digit : c.isDigit) : isBlank c = false := by
  have bounds : 48 ≤ c.toNat ∧ c.toNat ≤ 57 := by
    simpa [Char.isDigit, UInt32.le_iff_toNat_le] using digit
  simp only [isBlank, Bool.or_eq_false_iff, Bool.and_eq_false_iff, decide_eq_false_iff_not,
    beq_eq_false_iff_ne]
  omega

/-- Nothing is trimmed of digits. -/
theorem trimChars_digits {cs : List Char} (digits : ∀ c ∈ cs, c.isDigit) : trimChars cs = cs :=
  trimChars_eq_self (fun c head => isBlank_of_isDigit (digits c (List.mem_of_head? head)))
    fun c last => isBlank_of_isDigit (digits c (List.mem_of_getLast? last))

end Text

theorem PathGrammar.QuoteMark.isBlank {mark : Char} (quotes : QuoteMark mark) :
    Text.isBlank mark = false := by
  rcases quotes with rfl | rfl <;> decide

namespace WrittenSelector

/-! ### Selectors -/

/-- Digits neither quote nor bracket. -/
theorem balanced_digits {cs : List Char} (digits : ∀ c ∈ cs, c.isDigit) : Balanced cs := by
  induction cs with
  | nil => exact .nil
  | cons c rest ih =>
      have ordinary : PlainChar c := by
        have digit := digits c List.mem_cons_self
        refine ⟨?_, ?_, ?_⟩
        · rintro (rfl | rfl) <;> exact absurd digit (by decide)
        · rintro rfl
          exact absurd digit (by decide)
        · rintro rfl
          exact absurd digit (by decide)
      exact .plain ordinary (ih fun other member => digits other (List.mem_cons_of_mem _ member))

/-- A written selector is balanced: its brackets and quotes stand inside its quotes. -/
theorem Writable.balanced {selector : WrittenSelector} (writable : selector.Writable) :
    Balanced selector.text := by
  cases selector with
  | index position => exact balanced_digits fun c => Json.isDigit_of_mem_digitsOf
  | element key value mark =>
      obtain ⟨-, plain, quotes, absent⟩ := writable
      have unquoted : '\x22' ∉ key.toList := fun member => (plain _ member).2.2 (.inl rfl)
      have valued : Balanced (mark :: (value.toList ++ mark :: ['\x7d'])) :=
        .quoted quotes absent (.plain (by decide) .nil)
      have keyed : Balanced ('\x22' :: (key.toList ++ '\x22' :: ':' ::
          mark :: (value.toList ++ mark :: ['\x7d']))) :=
        .quoted (.inl rfl) unquoted (.plain (by decide) valued)
      have whole := Balanced.plain (c := '\x7b') (by decide) keyed
      simpa [text] using whole

/-- A written selector stands for its step. -/
theorem Writable.selects {selector : WrittenSelector} (writable : selector.Writable) :
    SelectorText selector.text selector.segment := by
  cases selector with
  | index position =>
      have digits : ∀ c ∈ digitsOf position, c.isDigit := fun c => Json.isDigit_of_mem_digitsOf
      have trimmed := Text.trimChars_digits digits
      have number : Numeral.natOf (Text.trimChars (digitsOf position)) = position := by
        rw [trimmed, Json.natOf_digitsOf]
      have filled : Text.trimChars (digitsOf position) ≠ [] := by
        rw [trimmed]
        exact Nat.toDigits_ne_nil
      have selects : SelectorText (digitsOf position)
          (.index (Numeral.natOf (Text.trimChars (digitsOf position)))) :=
        .index filled (by rwa [trimmed]) (by rwa [number])
      rwa [number] at selects
  | element key value mark =>
      obtain ⟨filled, plain, quotes, absent⟩ := writable
      have unquoted : '\x22' ∉ key.toList := fun member => (plain _ member).2.2 (.inl rfl)
      have keyed : KeyText ('\x22' :: (key.toList ++ ['\x22'])) key.toList := by
        refine ⟨.inl ⟨'\x22', .inl rfl, ?_, unquoted⟩, ?_, fun c member => ?_⟩
        · exact Text.trimChars_between (by decide) (by decide) _
        · exact fun empty => filled (String.toList_eq_nil_iff.mp empty)
        · exact ⟨(plain c member).1, (plain c member).2.2⟩
      have valued : ValueText (mark :: (value.toList ++ [mark])) value.toList :=
        .inl ⟨mark, quotes, Text.trimChars_between quotes.isBlank quotes.isBlank _, absent⟩
      have first : ':' ∉ '\x22' :: (key.toList ++ ['\x22']) := by
        simpa using fun member => (plain ':' member).2.1 rfl
      have selects := SelectorText.element
        (Text.trimChars_between (by decide) (by decide) _) first keyed valued
      rwa [String.ofList_toList, String.ofList_toList] at selects

end WrittenSelector

/-! ### Paths -/

/-- A written step is a piece of the grammar. -/
theorem WrittenStep.Writable.piece {step : WrittenStep} (writable : step.Writable) :
    PieceText step.text step.segments := by
  obtain ⟨name, selector⟩ := step
  obtain ⟨named, selectable⟩ := writable
  cases selector with
  | none =>
      have piece := PieceText.name named
      rwa [String.ofList_toList] at piece
  | some selector =>
      have writable := selectable selector rfl
      have piece := PieceText.selected named writable.balanced writable.selects
      rwa [String.ofList_toList] at piece

namespace FieldPath

/-- Written steps are a path of the grammar. -/
theorem pathText_written {steps : List WrittenStep} (nonempty : steps ≠ [])
    (writable : ∀ step ∈ steps, step.Writable) (descend : Bool) :
    PathText (written steps descend).toList (steps.flatMap WrittenStep.segments) descend := by
  rw [written, String.toList_ofList]
  induction steps with
  | nil => exact absurd rfl nonempty
  | cons step rest ih =>
      have head := (writable step List.mem_cons_self).piece
      cases rest with
      | nil =>
          cases descend with
          | false => simpa [List.intercalate] using PathText.piece head
          | true => simpa [List.intercalate] using PathText.descending head
      | cons next others =>
          have tail := ih (List.cons_ne_nil next others) fun other member =>
            writable other (List.mem_cons_of_mem _ member)
          have path := PathText.dotted head tail
          rw [List.map_cons, List.map_cons, List.intercalate_cons_cons]
          simpa using path

/-- Reading a written path gives back the steps that were written, and whether it was written
to descend: the keys and values of predicates may hold every character that paths are made
of. -/
theorem parse_written {steps : List WrittenStep} (nonempty : steps ≠ [])
    (writable : ∀ step ∈ steps, step.Writable) (descend : Bool) :
    parse (written steps descend) =
      .ok ⟨written steps descend, steps.flatMap WrittenStep.segments, descend⟩ :=
  parse_of_pathText (pathText_written nonempty writable descend)

/-- A value that looks like the rest of a path, a key with a dot and a bracket, and a value that
is empty, on a path that descends. -/
theorem parse_written_punctuated :
    let value := "x'\x7d].y[0], \x7b'z': 1\x7d"
    let steps : List WrittenStep := [⟨"items", some (.element " a.b] " value '\x22')⟩,
      ⟨"tags", some (.index 12)⟩, ⟨"last", some (.element "k" "" '\x27')⟩]
    let segments : List Segment := [.name "items", .element " a.b] " value, .name "tags",
      .index 12, .name "last", .element "k" ""]
    (∀ step ∈ steps, step.Writable) ∧
      parse (written steps true) = .ok ⟨written steps true, segments, true⟩ := by
  intro value steps segments
  have writable : ∀ step ∈ steps, step.Writable := by decide
  exact ⟨writable, parse_written (List.cons_ne_nil _ _) writable true⟩

end FieldPath

end RecordStore
