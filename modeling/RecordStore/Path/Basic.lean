/-
Module: RecordStore.Path.Basic
Purpose: Paths that address a value inside a record, and the errors of reading a
  path from text and of writing through one.
Main exports: Segment, FieldPath, PathFault, PathError, PathError.message
-/

namespace RecordStore

/-- One step of a path. -/
inductive Segment where
  /-- A member of an object. -/
  | name (name : String)
  /-- An array element by position. -/
  | index (index : Nat)
  /-- The first array element whose member `key` reads as `value`. -/
  | element (key : String) (value : String)
deriving DecidableEq, Repr, Inhabited

namespace Segment

/-- Steps that pick one array element. -/
def isSelector : Segment → Bool
  | .name _ => false
  | .index _ => true
  | .element _ _ => true

/-- The name of a member step. -/
def name? : Segment → Option String
  | .name key => some key
  | _ => none

/-- A step as it is shown in texts. -/
def text : Segment → String
  | .name key => key
  | .index position => "[" ++ toString position ++ "]"
  | .element key value => "[\x7b" ++ key ++ ":" ++ value ++ "\x7d]"

end Segment

/-- A path: the text it was written as, its steps, and whether it ends in a dot, which
addresses the children of its last step. -/
structure FieldPath where
  raw : String
  segments : List Segment
  descend : Bool
deriving DecidableEq, Repr, Inhabited

namespace FieldPath

/-- The path of a single field whatever characters its name holds. -/
def field (name : String) : FieldPath := ⟨name, [.name name], false⟩

/-- The name of the top-level field a path starts from. -/
def root (path : FieldPath) : String :=
  ((path.segments.head?).bind Segment.name?).getD ""

/-- The last step. -/
def last? (path : FieldPath) : Option Segment := path.segments.getLast?

/-- Whether the last step picks an array element. -/
def endsWithSelector (path : FieldPath) : Bool :=
  match path.last? with
  | some segment => segment.isSelector
  | none => false

/-- Whether a path addresses a top-level field and nothing below it. -/
def isTopLevel (path : FieldPath) : Bool := path.segments.length == 1

end FieldPath

/-- What is wrong with the text of a path. -/
inductive PathFault where
  | empty
  | emptySegment
  | unbalanced
  | unterminated
  | selectorFirst
  | trailing
  | openPredicate
  | notAnIndex (text : String)
  | indexTooLarge (text : String)
  | malformedPredicate
  | emptyPredicateValue
deriving DecidableEq, Repr

/-- The words for a fault. -/
def PathFault.reason : PathFault → String
  | .empty => "path is empty"
  | .emptySegment => "empty segment"
  | .unbalanced => "unbalanced ']'"
  | .unterminated => "unterminated '['"
  | .selectorFirst => "segment must start with a field name"
  | .trailing => "unexpected characters after ']'"
  | .openPredicate => "predicate must be written as [\x7bkey:value\x7d]"
  | .notAnIndex text => "index '" ++ text ++ "' is not a non-negative integer"
  | .indexTooLarge text => "index '" ++ text ++ "' is too large"
  | .malformedPredicate => "predicate must contain exactly one key:value pair"
  | .emptyPredicateValue => "predicate value is empty"

/-- The kind of container a step needs. -/
inductive Container where
  | array
  | object
deriving DecidableEq, Repr

/-- The word for a kind of container. -/
def Container.text : Container → String
  | .array => "array"
  | .object => "object"

/-- Why a path cannot be read or written through. -/
inductive PathError where
  | parse (path : String) (fault : PathFault)
  | notFound (path : String)
  | indexOutOfRange (path : String) (index : Nat) (length : Nat)
  | typeMismatch (path : String) (expected : Container)
deriving DecidableEq, Repr

/-- The message of a path error. -/
def PathError.message : PathError → String
  | .parse path fault => "Invalid path '" ++ path ++ "': " ++ fault.reason
  | .notFound path => "Path not found: " ++ path
  | .indexOutOfRange path index length =>
    "Index " ++ toString index ++ " out of range for '" ++ path ++ "' (length " ++
      toString length ++ ")"
  | .typeMismatch path expected =>
    "Type mismatch at '" ++ path ++ "': expected " ++ expected.text

end RecordStore
