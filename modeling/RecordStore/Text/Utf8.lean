/-
Module: RecordStore.Text.Utf8
Purpose: Reading bytes as UTF-8.  A byte sequence is cut into scalars and
  maximal ill-formed pieces; the strict reading refuses any such piece, the
  lossy reading writes U+FFFD for each.
Main exports: Utf8.decode?, Utf8.decodeLossy
-/

namespace RecordStore.Utf8

/-- Whether `b` lies between `lo` and `hi`. -/
def within (lo hi b : Nat) : Bool := lo ≤ b && b ≤ hi

/-- A continuation byte. -/
def isTail (b : Nat) : Bool := within 0x80 0xBF b

/-- Range of the byte after the lead byte of a sequence of three or four. -/
def secondRange (lead : Nat) : Nat × Nat :=
  if lead = 0xE0 then (0xA0, 0xBF)
  else if lead = 0xED then (0x80, 0x9F)
  else if lead = 0xF0 then (0x90, 0xBF)
  else if lead = 0xF4 then (0x80, 0x8F)
  else (0x80, 0xBF)

/-- The number of bytes a lead byte announces after itself. -/
def announced (lead : Nat) : Option Nat :=
  if lead < 0x80 then some 0
  else if within 0xC2 0xDF lead then some 1
  else if within 0xE0 0xEF lead then some 2
  else if within 0xF0 0xF4 lead then some 3
  else none

/-- The tail bytes of `rest` that fit after `lead`, at most `count` of them. -/
def fittingTail (lead count : Nat) (rest : List Nat) : List Nat :=
  match rest with
  | [] => []
  | second :: more =>
    let range := secondRange lead
    if count = 0 then []
    else if within range.1 range.2 second then second :: (more.take (count - 1)).takeWhile isTail
    else []

/-- The payload bits of a lead byte that announces `count` bytes. -/
def leadBits (lead count : Nat) : Nat :=
  if count = 0 then lead
  else if count = 1 then lead - 0xC0
  else if count = 2 then lead - 0xE0
  else lead - 0xF0

/-- The first piece of `lead :: rest`: a scalar or `none` for an ill-formed
piece, with the number of bytes of `rest` it takes. -/
def firstPiece (lead : Nat) (rest : List Nat) : Option Char × Nat :=
  match announced lead with
  | none => (none, 0)
  | some count =>
    let tail := fittingTail lead count rest
    if tail.length = count then
      (some (Char.ofNat (tail.foldl (fun n b => n * 64 + (b - 0x80)) (leadBits lead count))), count)
    else (none, tail.length)

/-- All pieces of a byte sequence. -/
def pieces : List Nat → List (Option Char)
  | [] => []
  | lead :: rest =>
    let first := firstPiece lead rest
    first.1 :: pieces (rest.drop first.2)
termination_by bytes => bytes.length
decreasing_by simp only [List.length_drop, List.length_cons]; omega

/-- The text of well-formed bytes. -/
def decode? (bytes : List Nat) : Option String :=
  ((pieces bytes).mapM id).map String.ofList

/-- The text with U+FFFD in place of every ill-formed piece. -/
def decodeLossy (bytes : List Nat) : String :=
  String.ofList ((pieces bytes).map fun piece => piece.getD '\uFFFD')

end RecordStore.Utf8
