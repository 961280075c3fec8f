/-
Module: RecordStore.Proofs.Path.Grammar
Purpose: The grammar of path texts as relations between a text and what it stands for,
  without a scanner.  The relations say how a text is put together; which steps a text has
  is read off its parts.
Main exports: Balanced, KeyText, ValueText, SelectorText, PieceText, PathText,
  PathText.descend_iff, PathText.selectorsFollowNames, EndsName, PathText.root
-/
import RecordStore.Path.Basic
import RecordStore.Number.Numeral

namespace RecordStore.PathGrammar

/-- The marks that quote: `"` and the apostrophe. -/
def QuoteMark (c : Char) : Prop := c = '\x22' ∨ c = '\x27'

/-- A character that neither quotes nor brackets. -/
def PlainChar (c : Char) : Prop := ¬ QuoteMark c ∧ c ≠ '[' ∧ c ≠ ']'

/-- Texts with balanced brackets and closed quotes.  A quote mark opens a span up to the
next equal mark, in which nothing counts. -/
inductive Balanced : List Char → Prop where
  | nil : Balanced []
  | plain {c : Char} {rest : List Char} (ordinary : PlainChar c) (tail : Balanced rest) :
      Balanced (c :: rest)
  | quoted {mark : Char} {inner rest : List Char} (quotes : QuoteMark mark)
      (inside : mark ∉ inner) (tail : Balanced rest) :
      Balanced (mark :: (inner ++ mark :: rest))
  | bracketed {inner rest : List Char} (within : Balanced inner) (tail : Balanced rest) :
      Balanced ('[' :: (inner ++ ']' :: rest))

/-- A text that stands as a whole between two equal marks, with its inside. -/
def Quoted (text inner : List Char) : Prop :=
  ∃ mark, QuoteMark mark ∧ text = mark :: (inner ++ [mark]) ∧ mark ∉ inner

/-- A text without the pair of quotes around it, if it has one. -/
def Stripped (text inner : List Char) : Prop :=
  Quoted text inner ∨ (¬ ∃ other, Quoted text other) ∧ inner = text

/-- The text before the colon of a predicate stands for a key. -/
def KeyText (text key : List Char) : Prop :=
  Stripped (Text.trimChars text) key ∧ key ≠ [] ∧ ∀ c ∈ key, c ≠ ',' ∧ ¬ QuoteMark c

/-- The text after the colon of a predicate stands for a value; a comma, a colon or nothing
at all is only meant between quotes. -/
def ValueText (text value : List Char) : Prop :=
  Quoted (Text.trimChars text) value ∨
    (¬ ∃ other, Quoted (Text.trimChars text) other) ∧ value = Text.trimChars text ∧
      value ≠ [] ∧ ∀ c ∈ value, c ≠ ',' ∧ c ≠ ':'

/-- The text between the brackets stands for a selector. -/
inductive SelectorText (text : List Char) : Segment → Prop where
  | index (some : Text.trimChars text ≠ []) (digits : ∀ c ∈ Text.trimChars text, c.isDigit)
      (small : Numeral.natOf (Text.trimChars text) < UInt64.size) :
      SelectorText text (.index (Numeral.natOf (Text.trimChars text)))
  | element {left right key value : List Char}
      (braced : Text.trimChars text = '\x7b' :: ((left ++ ':' :: right) ++ ['\x7d']))
      (first : ':' ∉ left) (named : KeyText left key) (valued : ValueText right value) :
      SelectorText text (.element (String.ofList key) (String.ofList value))

/-- Names are not empty and hold no dot and no bracket. -/
def IsName (name : List Char) : Prop :=
  name ≠ [] ∧ ∀ c ∈ name, c ≠ '.' ∧ c ≠ '[' ∧ c ≠ ']'

/-- A piece is a name, or a name with one selector. -/
inductive PieceText : List Char → List Segment → Prop where
  | name {name : List Char} (named : IsName name) :
      PieceText name [.name (String.ofList name)]
  | selected {name inner : List Char} {segment : Segment} (named : IsName name)
      (balanced : Balanced inner) (selects : SelectorText inner segment) :
      PieceText (name ++ '[' :: (inner ++ [']'])) [.name (String.ofList name), segment]

/-- A path is one piece or several with dots between them, and may end in one more dot. -/
inductive PathText : List Char → List Segment → Bool → Prop where
  | piece {text : List Char} {segments : List Segment} (head : PieceText text segments) :
      PathText text segments false
  | descending {text : List Char} {segments : List Segment} (head : PieceText text segments) :
      PathText (text ++ ['.']) segments true
  | dotted {text rest : List Char} {segments more : List Segment} {descend : Bool}
      (head : PieceText text segments) (tail : PathText rest more descend) :
      PathText (text ++ '.' :: rest) (segments ++ more) descend

/-! ### Facts read off a derivation -/

theorem SelectorText.isSelector {text : List Char} {segment : Segment}
    (selects : SelectorText text segment) : segment.isSelector = true := by
  cases selects <;> rfl

theorem PieceText.ne_nil {text : List Char} {segments : List Segment}
    (piece : PieceText text segments) : text ≠ [] := by
  cases piece with
  | name named => exact named.1
  | selected => simp

theorem PathText.ne_nil {text : List Char} {segments : List Segment} {descend : Bool}
    (path : PathText text segments descend) : text ≠ [] := by
  cases path with
  | piece head => exact head.ne_nil
  | descending => simp
  | dotted => simp

/-- No piece ends in a dot. -/
theorem PieceText.getLast?_ne_dot {text : List Char} {segments : List Segment}
    (piece : PieceText text segments) : text.getLast? ≠ some '.' := by
  cases piece with
  | name named =>
      intro last
      exact (named.2 '.' (List.mem_of_getLast? last)).1 rfl
  | @selected name inner _ _ _ _ =>
      have shape : name ++ '[' :: (inner ++ [']']) = (name ++ '[' :: inner) ++ [']'] := by simp
      rw [shape, List.getLast?_concat]
      decide

/-- A path descends exactly when its text ends in a dot. -/
theorem PathText.descend_iff {text : List Char} {segments : List Segment} {descend : Bool}
    (path : PathText text segments descend) :
    descend = true ↔ text.getLast? = some '.' := by
  induction path with
  | piece head => simp [head.getLast?_ne_dot]
  | descending head => simp
  | @dotted text rest _ _ _ head tail ih =>
      have last : (text ++ '.' :: rest).getLast? = rest.getLast? := by
        cases rest with
        | nil => exact absurd rfl tail.ne_nil
        | cons c more => simp [List.getLast?_append, List.getLast?_cons]
      rw [last]
      exact ih

/-- Every selector among some steps stands directly behind a name. -/
def SelectorsFollowNames (segments : List Segment) : Prop :=
  ∀ position segment, segments[position]? = some segment → segment.isSelector = true →
    ∃ before name, position = before + 1 ∧ segments[before]? = some (.name name)

namespace SelectorsFollowNames

theorem nil : SelectorsFollowNames [] := by
  intro position segment found
  simp at found

/-- A name in front keeps selectors behind names. -/
theorem cons_name (name : String) {more : List Segment} (follow : SelectorsFollowNames more) :
    SelectorsFollowNames (.name name :: more) := by
  intro position segment found selects
  cases position with
  | zero =>
      obtain rfl : Segment.name name = segment := by simpa using found
      cases selects
  | succ position =>
      obtain ⟨before, other, rfl, named⟩ := follow position segment (by simpa using found) selects
      exact ⟨before + 1, other, rfl, by simpa using named⟩

/-- So does a name with any step behind it. -/
theorem cons_selected (name : String) (selector : Segment) {more : List Segment}
    (follow : SelectorsFollowNames more) :
    SelectorsFollowNames (.name name :: selector :: more) := by
  intro position segment found selects
  match position with
  | 0 =>
      obtain rfl : Segment.name name = segment := by simpa using found
      cases selects
  | 1 => exact ⟨0, name, rfl, rfl⟩
  | position + 2 =>
      obtain ⟨before, other, rfl, named⟩ := follow position segment (by simpa using found) selects
      exact ⟨before + 2, other, rfl, by simpa using named⟩

end SelectorsFollowNames

theorem PieceText.followNames {text : List Char} {segments more : List Segment}
    (piece : PieceText text segments) (follow : SelectorsFollowNames more) :
    SelectorsFollowNames (segments ++ more) := by
  cases piece with
  | name => exact follow.cons_name _
  | selected => exact follow.cons_selected _ _

theorem PathText.selectorsFollowNames {text : List Char} {segments : List Segment}
    {descend : Bool} (path : PathText text segments descend) : SelectorsFollowNames segments := by
  induction path with
  | piece head => simpa using head.followNames .nil
  | descending head => simpa using head.followNames .nil
  | dotted head _ ih => exact head.followNames ih

/-- What stands behind a name in a path is nothing, or starts with a dot or a bracket. -/
def EndsName (tail : List Char) : Prop := ∀ c ∈ tail.head?, c = '.' ∨ c = '['

theorem EndsName.append_dot {tail : List Char} (ends : EndsName tail) (rest : List Char) :
    EndsName (tail ++ '.' :: rest) := by
  cases tail with
  | nil => exact fun c first => .inl (Option.some.inj first).symm
  | cons _ _ => exact ends

/-- The name before such a tail is what stands before the first dot or bracket. -/
theorem EndsName.takeWhile_eq {name tail : List Char} (plain : ∀ c ∈ name, c ≠ '.' ∧ c ≠ '[')
    (ends : EndsName tail) : (name ++ tail).takeWhile (fun c => c ≠ '.' ∧ c ≠ '[') = name := by
  rw [List.takeWhile_append_of_pos (by simpa using plain)]
  cases tail with
  | nil => rw [List.takeWhile_nil, List.append_nil]
  | cons c rest =>
      rw [List.takeWhile_cons_of_neg, List.append_nil]
      rcases ends c rfl with rfl | rfl <;> simp

theorem PieceText.root {text : List Char} {segments : List Segment}
    (piece : PieceText text segments) :
    ∃ name tail rest, IsName name ∧ text = name ++ tail ∧ EndsName tail ∧
      segments = .name (String.ofList name) :: rest := by
  cases piece with
  | name named => exact ⟨_, [], [], named, (List.append_nil _).symm, nofun, rfl⟩
  | selected named =>
      exact ⟨_, _, _, named, rfl, fun c first => .inr (Option.some.inj first).symm, rfl⟩

/-- A path text is the name that its path starts from, with what can stand behind a name. -/
theorem PathText.root {text : List Char} {segments : List Segment} {descend : Bool}
    (path : PathText text segments descend) :
    ∃ name tail rest, IsName name ∧ text = name ++ tail ∧ EndsName tail ∧
      segments = .name (String.ofList name) :: rest := by
  cases path with
  | piece head => exact head.root
  | descending head =>
      obtain ⟨name, tail, rest, named, rfl, ends, rfl⟩ := head.root
      exact ⟨name, _, rest, named, List.append_assoc _ _ _, ends.append_dot [], rfl⟩
  | dotted head _ =>
      obtain ⟨name, tail, rest, named, rfl, ends, rfl⟩ := head.root
      exact ⟨name, _, _, named, List.append_assoc _ _ _, ends.append_dot _, rfl⟩

/-- The first step of a path is a name. -/
theorem PathText.starts {text : List Char} {segments : List Segment} {descend : Bool}
    (path : PathText text segments descend) : ∃ name rest, segments = .name name :: rest := by
  obtain ⟨_, _, rest, -, -, -, shape⟩ := path.root
  exact ⟨_, rest, shape⟩

end RecordStore.PathGrammar
