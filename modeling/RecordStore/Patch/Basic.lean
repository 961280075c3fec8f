/-
Module: RecordStore.Patch.Basic
Purpose: How a patch changes values, what happens to keys the model does not describe, and
  the errors of patching.
Main exports: UpdateMode, UnknownFieldPolicy, PatchError, PatchReport
-/
import RecordStore.Path.Basic
import RecordStore.Text.Blank

namespace RecordStore

/-- The four ways of changing a value: replace it, add to it, clear it, or combine
objects one level deep. -/
inductive UpdateMode where
  | cover
  | append
  | delete
  | merge
deriving DecidableEq, Repr, Inhabited

namespace UpdateMode

/-- The mode of a word in any case and among blanks; an unknown word means `cover`. -/
def ofWord (word : String) : UpdateMode :=
  match Text.lower (Text.trim word) with
  | "append" => .append
  | "delete" => .delete
  | "merge" => .merge
  | _ => .cover

/-- The word for a mode. -/
def text : UpdateMode → String
  | .cover => "cover"
  | .append => "append"
  | .delete => "delete"
  | .merge => "merge"

end UpdateMode

/-- What to do with a patch key that the model does not describe. -/
inductive UnknownFieldPolicy where
  | skip
  | reject
deriving DecidableEq, Repr, Inhabited

namespace UnknownFieldPolicy

/-- The policy of a word. -/
def ofWord? (word : String) : Option UnknownFieldPolicy :=
  match word with
  | "skip" => some .skip
  | "reject" => some .reject
  | _ => none

/-- The word for a policy. -/
def text : UnknownFieldPolicy → String
  | .skip => "skip"
  | .reject => "reject"

end UnknownFieldPolicy

/-- Why an operand cannot be combined with the stored value. -/
inductive ValueFault where
  | operandNotANumber
  | storedNotANumber
  | sumNotFinite
  | operandNotAnObject
  | storedNotAnArray
deriving DecidableEq, Repr

/-- The words for a fault. -/
def ValueFault.reason : ValueFault → String
  | .operandNotANumber => "operand is not a number"
  | .storedNotANumber => "stored value is not a number"
  | .sumNotFinite => "sum is not a finite number"
  | .operandNotAnObject => "merge operand must be an object"
  | .storedNotAnArray => "stored value is not an array"

/-- Why a patch cannot be applied. -/
inductive PatchError where
  | path (error : PathError)
  | unknownField (schema field : String)
  | invalidValue (path : String) (fault : ValueFault)
deriving DecidableEq, Repr

/-- The message of a patch error. -/
def PatchError.message : PatchError → String
  | .path error => error.message
  | .unknownField schema field =>
    "Field '" ++ field ++ "' is not declared on '" ++ schema ++ "'"
  | .invalidValue place fault => "Invalid value for '" ++ place ++ "': " ++ fault.reason

/-- The keys of a patch that were applied and those that were left out. -/
structure PatchReport where
  applied : List String
  skipped : List String
deriving DecidableEq, Repr, Inhabited

/-- The report of a pair in front of the report of the pairs after it. -/
def PatchReport.cons (key : String) (wasApplied : Bool) (rest : PatchReport) : PatchReport :=
  if wasApplied then { rest with applied := key :: rest.applied }
  else { rest with skipped := key :: rest.skipped }

end RecordStore
