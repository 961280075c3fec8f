/-
Module: RecordStore.Proofs.Path.Reading
Purpose: Reading a path text accepts exactly the texts of the grammar, with the steps the
  grammar gives.  The scanner that splits at dots and the one that looks for an early
  bracket run through a selector in step, one bracket apart; a text that both let through
  is balanced, and a balanced text stops neither.
Main exports: scanEnd, balanced_iff, exists_first_piece, selector_eq_ok_iff, read_eq_ok_iff,
  parse_eq_ok_iff
-/
import RecordStore.Path.Parser
import RecordStore.Proofs.Path.Grammar

namespace RecordStore

/-! ### Cutting a text at a mark -/

namespace Text

theorem cutAt_eq_none_iff {mark : Char} {cs : List Char} : cutAt mark cs = none ↔ mark ∉ cs := by
  induction cs with
  | nil => simp [cutAt]
  | cons c rest ih =>
      by_cases same : c = mark
      · simp [cutAt, same]
      · simp [cutAt, same, ih, Ne.symm same]

/-- Cutting finds the first mark. -/
theorem cutAt_eq_some_iff {mark : Char} {cs left right : List Char} :
    cutAt mark cs = some (left, right) ↔ cs = left ++ mark :: right ∧ mark ∉ left := by
  induction cs generalizing left with
  | nil => simp [cutAt]
  | cons c rest ih =>
      by_cases same : c = mark
      · subst same
        cases left with
        | nil => simp [cutAt, eq_comm]
        | cons head left => simp [cutAt]; intro equal; simp [equal]
      · cases left with
        | nil =>
            simp [cutAt, same]
        | cons head left =>
            simp only [cutAt, same, if_false, Option.map_eq_some_iff, Prod.exists, Prod.mk.injEq,
              List.cons.injEq, List.cons_append, List.mem_cons, not_or]
            constructor
            · rintro ⟨front, back, cut, ⟨rfl, rfl⟩, rfl⟩
              obtain ⟨shape, first⟩ := ih.mp cut
              exact ⟨⟨rfl, shape⟩, Ne.symm same, first⟩
            · rintro ⟨⟨rfl, shape⟩, -, first⟩
              exact ⟨left, right, ih.mpr ⟨shape, first⟩, ⟨rfl, rfl⟩, rfl⟩

end Text

namespace FieldPath

open PathGrammar

theorem isQuote_iff {c : Char} : isQuote c = true ↔ QuoteMark c := by
  simp [isQuote, QuoteMark]

/-! ### Scanning a selector -/

/-- The open brackets and the open quote after a selector text, or nothing when a bracket
closes early. -/
def scanEnd (depth : Nat) (quote : Option Char) : List Char → Option (Nat × Option Char)
  | [] => some (depth, quote)
  | c :: rest =>
      match quote with
      | some mark => scanEnd depth (if c = mark then none else quote) rest
      | none =>
          if isQuote c then scanEnd depth (some c) rest
          else if c = '[' then scanEnd (depth + 1) none rest
          else if c = ']' then
            match depth with
            | 0 => none
            | depth + 1 => scanEnd depth none rest
          else scanEnd depth none rest

/-- A bracket closes early exactly when the scan stops. -/
theorem closesEarly_eq (depth : Nat) (quote : Option Char) (cs : List Char) :
    closesEarly depth quote cs = (scanEnd depth quote cs).isNone := by
  fun_induction closesEarly depth quote cs <;> simp_all [scanEnd]

/-- One character of a selector stops the scan, or moves the scan and the split alike. -/
theorem scanEnd_cases (depth : Nat) (quote : Option Char) (c : Char) :
    (∀ rest, scanEnd depth quote (c :: rest) = none) ∨
    ∃ deeper left, (∀ rest, scanEnd depth quote (c :: rest) = scanEnd deeper left rest) ∧
      ∀ piece rest, pieces (depth + 1) quote piece (c :: rest) =
        pieces (deeper + 1) left (c :: piece) rest := by
  cases quote with
  | some mark =>
      exact .inr ⟨depth, if c = mark then none else some mark, fun _ => rfl, fun _ _ => rfl⟩
  | none =>
      by_cases quotes : isQuote c = true
      · exact .inr ⟨depth, some c, fun _ => by simp [scanEnd, quotes],
          fun _ _ => by simp [pieces, quotes]⟩
      by_cases opens : c = '['
      · subst opens
        exact .inr ⟨depth + 1, none, fun _ => by simp [scanEnd, isQuote],
          fun _ _ => by simp [pieces, isQuote]⟩
      by_cases closes : c = ']'
      · subst closes
        cases depth with
        | zero => exact .inl fun _ => by simp [scanEnd, isQuote]
        | succ outer =>
            exact .inr ⟨outer, none, fun _ => by simp [scanEnd, isQuote],
              fun _ _ => by simp [pieces, isQuote]⟩
      · exact .inr ⟨depth, none, fun _ => by simp [scanEnd, quotes, opens, closes],
          fun _ _ => by simp [pieces, quotes, opens, closes]⟩

/-- Splitting runs through a selector one bracket deeper than the scan. -/
theorem pieces_of_scanEnd {depth deeper : Nat} {quote left : Option Char} {cs : List Char}
    (scanned : scanEnd depth quote cs = some (deeper, left)) (piece rest : List Char) :
    pieces (depth + 1) quote piece (cs ++ rest) =
      pieces (deeper + 1) left (cs.reverse ++ piece) rest := by
  induction cs generalizing depth quote piece with
  | nil =>
      cases scanned
      rfl
  | cons c more ih =>
      rw [List.cons_append, List.reverse_cons, List.append_assoc, List.singleton_append]
      rcases scanEnd_cases depth quote c with stops | ⟨inner, mark, scans, splits⟩
      · rw [stops] at scanned
        cases scanned
      · rw [scans] at scanned
        rw [splits]
        exact ih scanned _

/-- An open quote ends at the next equal mark. -/
theorem scanEnd_quoted {mark : Char} {inner : List Char} (inside : mark ∉ inner) (depth : Nat)
    (rest : List Char) :
    scanEnd depth (some mark) (inner ++ mark :: rest) = scanEnd depth none rest := by
  induction inner with
  | nil => simp [scanEnd]
  | cons c more ih =>
      rw [List.mem_cons, not_or] at inside
      simp only [List.cons_append, scanEnd, Ne.symm inside.1, if_false]
      exact ih inside.2

/-- A scan that ends outside quotes has closed the one it began in. -/
theorem exists_quoted {mark : Char} {cs : List Char} {depth final : Nat}
    (scanned : scanEnd depth (some mark) cs = some (final, none)) :
    ∃ inner rest, cs = inner ++ mark :: rest ∧ mark ∉ inner ∧
      scanEnd depth none rest = some (final, none) := by
  induction cs with
  | nil => cases scanned
  | cons c more ih =>
      simp only [scanEnd] at scanned
      by_cases closes : c = mark
      · subst closes
        simp only [if_true] at scanned
        exact ⟨[], more, rfl, by simp, scanned⟩
      · simp only [closes, if_false] at scanned
        obtain ⟨inner, rest, rfl, inside, after⟩ := ih scanned
        exact ⟨c :: inner, rest, rfl, by simp [Ne.symm closes, inside], after⟩

/-- A balanced text leaves the scan as it was. -/
theorem scanEnd_balanced {cs : List Char} (balanced : Balanced cs) (depth : Nat)
    (rest : List Char) : scanEnd depth none (cs ++ rest) = scanEnd depth none rest := by
  induction balanced generalizing depth rest with
  | nil => rfl
  | @plain c more ordinary _ ih =>
      have quotes : isQuote c = false := by
        rw [Bool.eq_false_iff, Ne, isQuote_iff]
        exact ordinary.1
      simp only [List.cons_append, scanEnd, quotes, ordinary.2.1, ordinary.2.2, if_false]
      exact ih depth rest
  | @quoted mark inner more quotes inside _ ih =>
      simp only [List.cons_append, List.append_assoc, scanEnd, isQuote_iff.mpr quotes, if_true]
      rw [scanEnd_quoted inside]
      exact ih depth rest
  | @bracketed inner more _ _ withinIH tailIH =>
      have opens : isQuote '[' = false := by decide
      have closes : isQuote ']' = false := by decide
      simp only [List.cons_append, List.append_assoc, scanEnd, opens, if_true]
      rw [withinIH]
      simp only [scanEnd, closes]
      exact tailIH depth rest

/-- A scan that ends with everything closed reads a balanced text up to the bracket that
closes the innermost open one. -/
theorem exists_balanced : ∀ {depth : Nat} {cs : List Char},
    scanEnd depth none cs = some (0, none) →
    ∃ inner tail, cs = inner ++ tail ∧ Balanced inner ∧
      (depth = 0 ∧ tail = [] ∨ ∃ outer rest, depth = outer + 1 ∧ tail = ']' :: rest ∧
        scanEnd outer none rest = some (0, none))
  | depth, [], scanned => by
      cases scanned
      exact ⟨[], [], rfl, .nil, .inl ⟨rfl, rfl⟩⟩
  | depth, c :: rest, scanned => by
      simp only [scanEnd] at scanned
      split at scanned
      · rename_i quotes
        obtain ⟨quoted, more, shape, inside, after⟩ := exists_quoted scanned
        have shorter : more.length < (c :: rest).length := by simp [shape]; omega
        obtain ⟨inner, tail, rfl, balanced, closing⟩ := exists_balanced after
        exact ⟨c :: (quoted ++ c :: inner), tail, by simp [shape],
          .quoted (isQuote_iff.mp quotes) inside balanced, closing⟩
      · rename_i notQuote
        split at scanned
        · rename_i opens
          subst opens
          -- the bracket that opens here closes first, then the one around it
          obtain ⟨within, after, shape, balanced, closing⟩ := exists_balanced scanned
          rcases closing with ⟨impossible, -⟩ | ⟨outer, more, depths, rfl, further⟩
          · cases impossible
          · cases depths
            have shorter : more.length < ('[' :: rest).length := by simp [shape]; omega
            obtain ⟨inner, tail, rfl, follows, closing⟩ := exists_balanced further
            exact ⟨'[' :: (within ++ ']' :: inner), tail, by simp [shape],
              .bracketed balanced follows, closing⟩
        · rename_i notOpen
          split at scanned
          · rename_i closes
            subst closes
            cases depth with
            | zero => cases scanned
            | succ outer => exact ⟨[], ']' :: rest, rfl, .nil, .inr ⟨outer, rest, rfl, rfl, scanned⟩⟩
          · rename_i notClosed
            have ordinary : PlainChar c :=
              ⟨fun mark => notQuote (isQuote_iff.mpr mark), notOpen, notClosed⟩
            obtain ⟨inner, tail, rfl, balanced, closing⟩ := exists_balanced scanned
            exact ⟨c :: inner, tail, rfl, .plain ordinary balanced, closing⟩
termination_by _ cs => cs.length

/-- The scan of a text ends where it began exactly when the text is balanced. -/
theorem balanced_iff {cs : List Char} : Balanced cs ↔ scanEnd 0 none cs = some (0, none) := by
  constructor
  · intro balanced
    simpa [scanEnd] using scanEnd_balanced balanced 0 []
  · intro scanned
    obtain ⟨inner, tail, rfl, balanced, ⟨-, rfl⟩ | ⟨outer, rest, impossible, -⟩⟩ :=
      exists_balanced scanned
    · simpa using balanced
    · cases impossible

/-! ### Splitting at dots -/

/-- One character either ends the split with a fault, ends a piece, or joins the piece. -/
theorem pieces_cases (depth : Nat) (quote : Option Char) (c : Char) :
    (∃ fault, ∀ piece rest, pieces depth quote piece (c :: rest) = .error fault) ∨
    (c = '.' ∧ depth = 0 ∧ quote = none) ∨
    ∃ deeper left, ∀ piece rest,
      pieces depth quote piece (c :: rest) = pieces deeper left (c :: piece) rest := by
  cases quote with
  | some mark => exact .inr (.inr ⟨depth, if c = mark then none else some mark, fun _ _ => rfl⟩)
  | none =>
      by_cases quotes : (isQuote c && decide (0 < depth)) = true
      · exact .inr (.inr ⟨depth, some c, fun _ _ => by simp only [pieces, quotes, if_true]⟩)
      by_cases opens : c = '['
      · exact .inr (.inr ⟨depth + 1, none, fun _ _ => by
          simp only [pieces, opens, if_true]; simp [isQuote]⟩)
      by_cases closes : c = ']'
      · subst closes
        cases depth with
        | zero => exact .inl ⟨.unbalanced, fun _ _ => by simp [pieces, isQuote]⟩
        | succ outer => exact .inr (.inr ⟨outer, none, fun _ _ => by simp [pieces, isQuote]⟩)
      by_cases dot : c = '.' ∧ depth = 0
      · exact .inr (.inl ⟨dot.1, dot.2, rfl⟩)
      · refine .inr (.inr ⟨depth, none, fun _ _ => ?_⟩)
        have joins : (decide (c = '.') && depth == 0) = false := by
          simpa using dot
        simp only [pieces, quotes, opens, closes, joins, if_false]
        simp

theorem pieces_dot (piece rest : List Char) :
    pieces 0 none piece ('.' :: rest) =
      (pieces 0 none [] rest).map fun more => piece.reverse :: more := by
  simp [pieces, isQuote]

theorem pieces_open (piece rest : List Char) :
    pieces 0 none piece ('[' :: rest) = pieces 1 none ('[' :: piece) rest := by
  simp [pieces, isQuote]

theorem pieces_close (piece rest : List Char) :
    pieces 1 none piece (']' :: rest) = pieces 0 none (']' :: piece) rest := by
  simp [pieces, isQuote]

/-- A split that succeeds cuts the first piece off at the first dot that separates. -/
theorem exists_first_piece {depth : Nat} {quote : Option Char} {piece cs : List Char}
    {found : List (List Char)} (split : pieces depth quote piece cs = .ok found) :
    ∃ head more, found = (piece.reverse ++ head) :: more ∧
      (∀ front, pieces depth quote front head = .ok [front.reverse ++ head]) ∧
      (cs = head ∧ more = [] ∨
        ∃ tail, cs = head ++ '.' :: tail ∧ pieces 0 none [] tail = .ok more) := by
  induction cs generalizing depth quote piece with
  | nil =>
      have closed : (depth ≠ 0 || quote.isSome) = false := by
        rw [Bool.eq_false_iff]
        intro stuck
        simp only [pieces, stuck, if_true] at split
        cases split
      simp only [pieces, closed] at split
      cases split
      refine ⟨[], [], by simp, ?_, .inl ⟨rfl, rfl⟩⟩
      intro front
      simp only [pieces, closed]
      simp
  | cons c rest ih =>
      rcases pieces_cases depth quote c with ⟨fault, fails⟩ | ⟨rfl, rfl, rfl⟩ | ⟨deeper, left, joins⟩
      · rw [fails] at split
        cases split
      · rw [pieces_dot] at split
        cases after : pieces 0 none [] rest with
        | error fault => rw [after] at split; cases split
        | ok more =>
            rw [after] at split
            cases split
            exact ⟨[], more, by simp, fun front => by simp [pieces], .inr ⟨rest, rfl, after⟩⟩
      · rw [joins] at split
        obtain ⟨head, more, rfl, alone, outcome⟩ := ih split
        refine ⟨c :: head, more, by simp, ?_, ?_⟩
        · intro front
          rw [joins, alone]
          simp
        · rcases outcome with ⟨rfl, rfl⟩ | ⟨tail, rfl, after⟩
          · exact .inl ⟨rfl, rfl⟩
          · exact .inr ⟨tail, rfl, after⟩

theorem pieces_ne_nil {depth : Nat} {quote : Option Char} {piece cs : List Char} :
    pieces depth quote piece cs ≠ .ok [] := by
  intro split
  obtain ⟨head, more, impossible, -⟩ := exists_first_piece split
  cases impossible

/-- The characters of a name join the piece. -/
theorem pieces_name {name : List Char} (free : ∀ c ∈ name, c ≠ '.' ∧ c ≠ '[' ∧ c ≠ ']')
    (piece rest : List Char) :
    pieces 0 none piece (name ++ rest) = pieces 0 none (name.reverse ++ piece) rest := by
  induction name generalizing piece with
  | nil => rfl
  | cons c more ih =>
      obtain ⟨dot, opens, closes⟩ := free c (.head _)
      have step : pieces 0 none piece (c :: (more ++ rest)) =
          pieces 0 none (c :: piece) (more ++ rest) := by
        simp [pieces, dot, opens, closes]
      rw [List.cons_append, step, ih fun d mem => free d (.tail _ mem)]
      simp

/-- What stands before the first bracket of a single piece is free of dots and brackets. -/
theorem name_of_single {name tail piece whole : List Char}
    (split : pieces 0 none piece (name ++ tail) = .ok [whole]) (unbracketed : '[' ∉ name) :
    ∀ c ∈ name, c ≠ '.' ∧ c ≠ '[' ∧ c ≠ ']' := by
  induction name generalizing piece with
  | nil => simp
  | cons c more ih =>
      rw [List.mem_cons, not_or] at unbracketed
      have opens : c ≠ '[' := Ne.symm unbracketed.1
      rw [List.cons_append] at split
      have closes : c ≠ ']' := by
        rintro rfl
        simp [pieces, isQuote] at split
      have dot : c ≠ '.' := by
        rintro rfl
        rw [pieces_dot] at split
        cases after : pieces 0 none [] (more ++ tail) with
        | error fault => rw [after] at split; cases split
        | ok found =>
            rw [after] at split
            cases split
            exact pieces_ne_nil after
      have step : pieces 0 none piece (c :: (more ++ tail)) =
          pieces 0 none (c :: piece) (more ++ tail) := by
        simp [pieces, dot, opens, closes]
      rw [step] at split
      intro d mem
      rcases List.mem_cons.mp mem with rfl | mem
      · exact ⟨dot, opens, closes⟩
      · exact ih split unbracketed.2 d mem

/-! ### Selectors -/

theorem unquote?_eq_some_iff {text inner : List Char} :
    unquote? text = some inner ↔ Quoted text inner := by
  cases text with
  | nil => simp [unquote?, Quoted]
  | cons mark rest =>
      simp only [unquote?]
      constructor
      · intro found
        split at found
        · rename_i marks
          simp only [Bool.and_eq_true, beq_iff_eq, Bool.not_eq_true'] at marks
          obtain ⟨⟨quotes, last⟩, inside⟩ := marks
          obtain ⟨front, rfl⟩ := List.getLast?_eq_some_iff.mp last
          cases found
          simp only [List.dropLast_concat] at inside ⊢
          exact ⟨mark, isQuote_iff.mp quotes, rfl, by simpa using inside⟩
        · cases found
      · rintro ⟨other, quotes, shape, inside⟩
        obtain ⟨rfl, rfl⟩ := List.cons.inj shape
        simp [isQuote_iff.mpr quotes, inside]

theorem unquote?_eq_none_iff {text : List Char} :
    unquote? text = none ↔ ¬ ∃ inner, Quoted text inner := by
  rw [Option.eq_none_iff_forall_ne_some, not_exists]
  exact forall_congr' fun inner => not_congr unquote?_eq_some_iff

/-- Quotes around a text are stripped as the grammar says. -/
theorem stripped_iff {text inner : List Char} :
    (unquote? text).getD text = inner ↔ Stripped text inner := by
  unfold Stripped
  cases found : unquote? text with
  | none =>
      have bare := unquote?_eq_none_iff.mp found
      constructor
      · intro same
        exact .inr ⟨bare, same.symm⟩
      · rintro (quoted | ⟨-, same⟩)
        · exact absurd ⟨inner, quoted⟩ bare
        · exact same.symm
  | some other =>
      have quoted := unquote?_eq_some_iff.mp found
      constructor
      · rintro rfl
        exact .inl quoted
      · rintro (same | ⟨bare, -⟩)
        · rw [← unquote?_eq_some_iff, found] at same
          exact Option.some.inj same
        · exact absurd ⟨other, quoted⟩ bare

theorem predicateKey_eq_ok_iff {text key : List Char} :
    predicateKey text = .ok key ↔ KeyText text key := by
  simp only [predicateKey, KeyText]
  generalize stripped : (unquote? (Text.trimChars text)).getD (Text.trimChars text) = inner
  rw [stripped_iff] at stripped
  constructor
  · intro read
    split at read
    · cases read
    · rename_i sound
      cases read
      simp only [Bool.or_eq_true, List.isEmpty_iff, List.any_eq_true, beq_iff_eq, isQuote_iff,
        not_or, not_exists, not_and] at sound
      exact ⟨stripped, sound.1, sound.2⟩
  · rintro ⟨same, some, sound⟩
    obtain rfl : inner = key := by
      rw [← stripped_iff] at same stripped
      exact stripped.symm.trans same
    have passes : (inner.isEmpty || inner.any fun c => c == ',' || isQuote c) = false := by
      rw [Bool.eq_false_iff]
      simpa [List.isEmpty_iff, isQuote_iff, some] using fun c mem => sound c mem
    simp only [passes]
    rfl

theorem predicateValue_eq_ok_iff {text value : List Char} :
    predicateValue text = .ok value ↔ ValueText text value := by
  simp only [predicateValue, ValueText]
  cases found : unquote? (Text.trimChars text) with
  | some inner =>
      have quoted := unquote?_eq_some_iff.mp found
      constructor
      · intro read
        cases read
        exact .inl quoted
      · rintro (same | ⟨bare, -⟩)
        · rw [← unquote?_eq_some_iff, found] at same
          simpa using same
        · exact absurd ⟨inner, quoted⟩ bare
  | none =>
      have bare := unquote?_eq_none_iff.mp found
      constructor
      · intro read
        simp only at read
        split at read
        · cases read
        · rename_i some
          split at read
          · cases read
          · rename_i sound
            cases read
            simp only [List.any_eq_true, Bool.or_eq_true, beq_iff_eq, not_exists, not_and,
              not_or] at sound
            exact .inr ⟨bare, rfl, by simpa using some, sound⟩
      · rintro (quoted | ⟨-, rfl, some, sound⟩)
        · exact absurd ⟨value, quoted⟩ bare
        · have passes : ((Text.trimChars text).any fun c => c == ',' || c == ':') = false := by
            rw [Bool.eq_false_iff]
            simpa using fun c mem => sound c mem
          simp [some, passes]

/-- The body of a predicate is a key and a value around its first colon. -/
theorem predicate_eq_ok_iff {body : List Char} {segment : Segment} :
    predicate body = .ok segment ↔
      ∃ left right key value, body = left ++ ':' :: right ∧ ':' ∉ left ∧ KeyText left key ∧
        ValueText right value ∧
        segment = .element (String.ofList key) (String.ofList value) := by
  unfold predicate
  cases cut : Text.cutAt ':' body with
  | none =>
      have absent := Text.cutAt_eq_none_iff.mp cut
      constructor
      · intro read
        cases read
      · rintro ⟨left, right, key, value, rfl, -⟩
        simp at absent
  | some halves =>
      obtain ⟨left, right⟩ := halves
      obtain ⟨rfl, first⟩ := Text.cutAt_eq_some_iff.mp cut
      dsimp only
      constructor
      · intro read
        cases named : predicateKey left with
        | error fault => rw [named] at read; cases read
        | ok key =>
            cases valued : predicateValue right with
            | error fault => rw [named, valued] at read; cases read
            | ok value =>
                rw [named, valued] at read
                cases read
                exact ⟨left, right, key, value, rfl, first, predicateKey_eq_ok_iff.mp named,
                  predicateValue_eq_ok_iff.mp valued, rfl⟩
      · rintro ⟨front, back, key, value, shape, firstToo, named, valued, rfl⟩
        have same := Text.cutAt_eq_some_iff.mpr ⟨shape, firstToo⟩
        rw [cut] at same
        cases same
        rw [predicateKey_eq_ok_iff.mpr named, predicateValue_eq_ok_iff.mpr valued]
        rfl

theorem nat?_eq_some_iff {cs : List Char} {n : Nat} :
    Numeral.nat? cs = some n ↔ cs ≠ [] ∧ (∀ c ∈ cs, c.isDigit) ∧ n = Numeral.natOf cs := by
  unfold Numeral.nat?
  split
  · rename_i digits
    simp only [Bool.and_eq_true, Bool.not_eq_true', List.isEmpty_eq_false_iff,
      List.all_eq_true] at digits
    simp only [Option.some.injEq]
    exact ⟨fun same => ⟨digits.1, digits.2, same.symm⟩, fun whole => whole.2.2.symm⟩
  · rename_i other
    simp only [Bool.and_eq_true, Bool.not_eq_true', List.isEmpty_eq_false_iff,
      List.all_eq_true, not_and] at other
    constructor
    · intro found
      cases found
    · rintro ⟨some, digits, -⟩
      exact absurd digits (other some)

/-- A selector text reads as the grammar says. -/
theorem selector_eq_ok_iff {text : List Char} {segment : Segment} :
    selector text = .ok segment ↔ SelectorText text segment := by
  constructor
  · intro read
    simp only [selector] at read
    split at read
    · rename_i body braced
      split at read
      · rename_i last
        obtain ⟨front, rfl⟩ := List.getLast?_eq_some_iff.mp last
        rw [List.dropLast_concat, predicate_eq_ok_iff] at read
        obtain ⟨left, right, key, value, rfl, first, named, valued, rfl⟩ := read
        exact .element braced first named valued
      · cases read
    · split at read
      · cases read
      · rename_i n found
        obtain ⟨some, digits, rfl⟩ := nat?_eq_some_iff.mp found
        split at read
        · rename_i small
          cases read
          exact .index some digits (Nat.lt_succ_of_le small)
        · cases read
  · intro selects
    cases selects with
    | index some digits small =>
        have found := nat?_eq_some_iff.mpr ⟨some, digits, rfl⟩
        simp only [selector]
        split
        · rename_i body braced
          rw [braced] at digits
          exact absurd (digits '\x7b' (.head _)) (by decide)
        · have within : Numeral.natOf (Text.trimChars text) ≤ indexLimit :=
            Nat.le_of_lt_succ small
          simp only [found, within, if_true]
    | @element left right key value braced first named valued =>
        have read : predicate (left ++ ':' :: right) =
            .ok (.element (String.ofList key) (String.ofList value)) :=
          predicate_eq_ok_iff.mpr ⟨left, right, key, value, rfl, first, named, valued, rfl⟩
        simp only [selector, braced, List.getLast?_concat, if_true, List.dropLast_concat]
        exact read

/-! ### Pieces and paths -/

/-- A selector that no bracket closes early, in a piece that the split leaves whole, is
balanced. -/
theorem balanced_of_single {name inner whole : List Char}
    (free : ∀ c ∈ name, c ≠ '.' ∧ c ≠ '[' ∧ c ≠ ']')
    (split : pieces 0 none [] (name ++ '[' :: (inner ++ [']'])) = .ok [whole])
    (late : closesEarly 0 none inner = false) : Balanced inner := by
  rw [closesEarly_eq] at late
  cases scanned : scanEnd 0 none inner with
  | none => simp [scanned] at late
  | some left =>
      obtain ⟨deeper, quote⟩ := left
      rw [pieces_name free, pieces_open, pieces_of_scanEnd scanned] at split
      -- only a closed scan lets the split end behind the last bracket
      rw [balanced_iff, scanned]
      cases quote with
      | some mark => simp [pieces] at split
      | none =>
          cases deeper with
          | zero => rfl
          | succ deeper => simp [pieces, isQuote] at split

/-- A piece that the split leaves whole reads as the grammar says. -/
theorem pieceText_of_read {piece : List Char} {segments : List Segment}
    (whole : pieces 0 none [] piece = .ok [piece]) (some : piece ≠ [])
    (read : pieceSegments piece = .ok segments) : PieceText piece segments := by
  unfold pieceSegments at read
  cases cut : Text.cutAt '[' piece with
  | none =>
      rw [cut] at read
      cases read
      have single : pieces 0 none [] (piece ++ []) = .ok [piece] := by simpa using whole
      exact .name ⟨some, name_of_single single (Text.cutAt_eq_none_iff.mp cut)⟩
  | some halves =>
      obtain ⟨name, tail⟩ := halves
      obtain ⟨rfl, first⟩ := Text.cutAt_eq_some_iff.mp cut
      have free := name_of_single whole first
      rw [cut] at read
      cases name with
      | nil => cases read
      | cons c rest =>
          simp only at read
          split at read
          · cases read
          · rename_i closed
            rw [Bool.or_eq_true, not_or] at closed
            obtain ⟨inner, rfl⟩ : ∃ inner, tail = inner ++ [']'] := by
              exact List.getLast?_eq_some_iff.mp (by simpa using closed.1)
            rw [List.dropLast_concat] at read closed
            cases selected : selector inner with
            | error fault => rw [selected] at read; cases read
            | ok segment =>
                rw [selected] at read
                cases read
                have balanced := balanced_of_single free whole (by simpa using closed.2)
                exact .selected ⟨by simp, free⟩ balanced (selector_eq_ok_iff.mp selected)

/-- A piece of the grammar is read, and left whole by the split. -/
theorem read_of_pieceText {piece : List Char} {segments : List Segment}
    (derived : PieceText piece segments) :
    pieceSegments piece = .ok segments ∧ ∀ front rest,
      pieces 0 none front (piece ++ rest) = pieces 0 none (piece.reverse ++ front) rest := by
  cases derived with
  | name named =>
      refine ⟨?_, pieces_name named.2⟩
      have uncut := Text.cutAt_eq_none_iff.mpr fun mem => (named.2 '[' mem).2.1 rfl
      simp only [pieceSegments, uncut]
  | @selected name inner segment named balanced selects =>
      have scanned := balanced_iff.mp balanced
      constructor
      · have cut : Text.cutAt '[' (name ++ '[' :: (inner ++ [']'])) = some (name, inner ++ [']']) :=
          Text.cutAt_eq_some_iff.mpr ⟨rfl, fun mem => (named.2 '[' mem).2.1 rfl⟩
        have closed : closesEarly 0 none inner = false := by simp [closesEarly_eq, scanned]
        unfold pieceSegments
        rw [cut]
        cases name with
        | nil => exact absurd rfl named.1
        | cons c more => simp [closed, selector_eq_ok_iff.mpr selects, Except.map]
      · intro front rest
        rw [List.append_assoc, pieces_name named.2, List.cons_append, pieces_open,
          List.append_assoc, pieces_of_scanEnd scanned, List.singleton_append, pieces_close]
        simp

/-- The last piece is read, or is the nothing behind a final dot. -/
theorem assemble_last_eq_ok_iff {first : Bool} {piece : List Char} {segments : List Segment}
    {descend : Bool} :
    assemble first [piece] = .ok (segments, descend) ↔
      piece ≠ [] ∧ pieceSegments piece = .ok segments ∧ descend = false ∨
        piece = [] ∧ first = false ∧ segments = [] ∧ descend = true := by
  cases piece with
  | nil => cases first <;> simp [assemble, eq_comm]
  | cons c rest =>
      simp only [assemble, List.isEmpty_cons]
      cases pieceSegments (c :: rest) <;> simp [Except.map, eq_comm]

/-- A piece that is not the last is read in front of the others. -/
theorem assemble_cons_eq_ok_iff {first : Bool} {piece second : List Char}
    {others : List (List Char)} {segments : List Segment} {descend : Bool} :
    assemble first (piece :: second :: others) = .ok (segments, descend) ↔
      piece ≠ [] ∧ ∃ steps more, pieceSegments piece = .ok steps ∧
        assemble false (second :: others) = .ok (more, descend) ∧ segments = steps ++ more := by
  cases piece with
  | nil => simp [assemble]
  | cons c rest =>
      simp only [assemble, List.isEmpty_cons]
      cases pieceSegments (c :: rest) with
      | error fault => simp [bind, Except.bind]
      | ok steps =>
          rcases assemble false (second :: others) with fault | ⟨more, ends⟩
          · simp [bind, Except.bind]
          · simp only [bind, Except.bind, pure, Except.pure]
            constructor
            · intro done
              cases done
              exact ⟨List.cons_ne_nil c rest, steps, more, rfl, rfl, rfl⟩
            · rintro ⟨-, front, back, read, below, rfl⟩
              cases read
              cases below
              rfl

/-- What the pieces behind a dot assemble to: nothing but the dot, or a path. -/
theorem pathText_of_assemble {cs : List Char} {found : List (List Char)}
    {segments : List Segment} {descend first : Bool}
    (split : pieces 0 none [] cs = .ok found)
    (read : assemble first found = .ok (segments, descend)) :
    PathText cs segments descend ∨
      first = false ∧ cs = [] ∧ segments = [] ∧ descend = true := by
  induction found generalizing cs segments first with
  | nil => exact absurd split pieces_ne_nil
  | cons piece more ih =>
      obtain ⟨head, others, shape, alone, outcome⟩ := exists_first_piece split
      simp only [List.reverse_nil, List.nil_append, List.cons.injEq] at shape
      obtain ⟨rfl, rfl⟩ := shape
      have whole : pieces 0 none [] piece = .ok [piece] := by simpa using alone []
      cases more with
      | nil =>
          rcases outcome with ⟨rfl, -⟩ | ⟨tail, -, after⟩
          · rcases assemble_last_eq_ok_iff.mp read with ⟨some, done, rfl⟩ | ⟨rfl, ends⟩
            · exact .inl (.piece (pieceText_of_read whole some done))
            · exact .inr ⟨ends.1, rfl, ends.2⟩
          · exact absurd after pieces_ne_nil
      | cons second others =>
          rcases outcome with ⟨-, impossible⟩ | ⟨tail, rfl, after⟩
          · cases impossible
          · obtain ⟨some, steps, rest, done, below, rfl⟩ := assemble_cons_eq_ok_iff.mp read
            have head := pieceText_of_read whole some done
            rcases ih after below with path | ⟨-, rfl, rfl, rfl⟩
            · exact .inl (.dotted head path)
            · rw [List.append_nil]
              exact .inl (.descending head)

/-- A path of the grammar is split and assembled to its steps. -/
theorem assemble_of_pathText {cs : List Char} {segments : List Segment} {descend : Bool}
    (derived : PathText cs segments descend) (first : Bool) :
    ∃ found, pieces 0 none [] cs = .ok found ∧ assemble first found = .ok (segments, descend) := by
  induction derived generalizing first with
  | @piece text segments head =>
      obtain ⟨read, whole⟩ := read_of_pieceText head
      have single : pieces 0 none [] text = .ok [text] := by simpa [pieces] using whole [] []
      exact ⟨[text], single, assemble_last_eq_ok_iff.mpr (.inl ⟨head.ne_nil, read, rfl⟩)⟩
  | @descending text segments head =>
      obtain ⟨read, whole⟩ := read_of_pieceText head
      have split : pieces 0 none [] (text ++ ['.']) = .ok [text, []] := by
        rw [whole, pieces_dot]
        simp [pieces, Except.map]
      have last : assemble false [[]] = .ok ([], true) :=
        assemble_last_eq_ok_iff.mpr (.inr ⟨rfl, rfl, rfl, rfl⟩)
      exact ⟨_, split, assemble_cons_eq_ok_iff.mpr
        ⟨head.ne_nil, segments, [], read, last, (List.append_nil segments).symm⟩⟩
  | @dotted text rest segments more descend head tail ih =>
      obtain ⟨read, whole⟩ := read_of_pieceText head
      obtain ⟨found, split, assembled⟩ := ih false
      cases found with
      | nil => exact absurd split pieces_ne_nil
      | cons second others =>
          have joined : pieces 0 none [] (text ++ '.' :: rest) = .ok (text :: second :: others) := by
            rw [whole, pieces_dot, split]
            simp [Except.map]
          exact ⟨_, joined, assemble_cons_eq_ok_iff.mpr
            ⟨head.ne_nil, segments, more, read, assembled, rfl⟩⟩

theorem read_eq_ok_iff {cs : List Char} {segments : List Segment} {descend : Bool} :
    read cs = .ok (segments, descend) ↔ PathText cs segments descend := by
  unfold read
  constructor
  · intro done
    split at done
    · cases done
    · rename_i some
      cases split : pieces 0 none [] cs with
      | error fault => rw [split] at done; cases done
      | ok found =>
          rw [split] at done
          rcases pathText_of_assemble split done with derived | ⟨impossible, -⟩
          · exact derived
          · cases impossible
  · intro derived
    obtain ⟨found, split, assembled⟩ := assemble_of_pathText derived true
    rw [if_neg (by simpa using derived.ne_nil), split]
    exact assembled

/-- A text of the grammar is read as the steps it stands for. -/
theorem parse_of_pathText {raw : String} {segments : List Segment} {descend : Bool}
    (derived : PathText raw.toList segments descend) :
    parse raw = .ok ⟨raw, segments, descend⟩ := by
  rw [parse, read_eq_ok_iff.mpr derived]

/-- What is read is a text of the grammar. -/
theorem pathText_of_parse {raw : String} {path : FieldPath} (parsed : parse raw = .ok path) :
    PathText raw.toList path.segments path.descend := by
  unfold parse at parsed
  cases done : FieldPath.read raw.toList with
  | error fault =>
      rw [done] at parsed
      cases parsed
  | ok answer =>
      rw [done] at parsed
      cases parsed
      exact read_eq_ok_iff.mp done

/-- Reading a path text succeeds exactly on the texts of the grammar, and then gives the
steps of the grammar: the first is a name, every selector stands behind a name, and the
path descends exactly when its text ends in a dot. -/
theorem parse_eq_ok_iff (raw : String) :
    (∀ path, parse raw = .ok path ↔
      path.raw = raw ∧ PathText raw.toList path.segments path.descend) ∧
    ∀ path, parse raw = .ok path →
      (∃ name rest, path.segments = .name name :: rest) ∧
      SelectorsFollowNames path.segments ∧
      (path.descend = true ↔ raw.toList.getLast? = some '.') := by
  have exact_iff : ∀ path, parse raw = .ok path ↔
      path.raw = raw ∧ PathText raw.toList path.segments path.descend := by
    rintro ⟨text, segments, descend⟩
    rw [← read_eq_ok_iff]
    unfold parse
    cases done : FieldPath.read raw.toList with
    | error fault => simp
    | ok answer =>
        simp only [Except.ok.injEq, FieldPath.mk.injEq, Prod.ext_iff]
        exact and_congr_left' eq_comm
  refine ⟨exact_iff, ?_⟩
  intro path parsed
  obtain ⟨-, derived⟩ := (exact_iff path).mp parsed
  exact ⟨derived.starts, derived.selectorsFollowNames, derived.descend_iff⟩

/-- Colons and blanks inside a predicate, a position, and a dot at the end. -/
theorem parse_eq_ok_iff_quoted :
    ∃ path, parse "items[\x7b 'id' : '10:30' \x7d].tags[2]." = .ok path ∧
      path.segments = [.name "items", .element "id" "10:30", .name "tags", .index 2] ∧
      PathText "items[\x7b 'id' : '10:30' \x7d].tags[2].".toList path.segments path.descend ∧
      (∃ name rest, path.segments = .name name :: rest) ∧
      SelectorsFollowNames path.segments ∧
      (path.descend = true ↔
        "items[\x7b 'id' : '10:30' \x7d].tags[2].".toList.getLast? = some '.') := by
  have parsed : parse "items[\x7b 'id' : '10:30' \x7d].tags[2]." =
      .ok ⟨"items[\x7b 'id' : '10:30' \x7d].tags[2].",
        [.name "items", .element "id" "10:30", .name "tags", .index 2], true⟩ := by rfl
  have law := parse_eq_ok_iff "items[\x7b 'id' : '10:30' \x7d].tags[2]."
  exact ⟨_, parsed, rfl, ((law.1 _).mp parsed).2, law.2 _ parsed⟩

end FieldPath

end RecordStore
