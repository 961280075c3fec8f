/-
Module: RecordStore.Proofs.Store.Decidable
Purpose: Values, answers and sessions can be compared, so what an operation does on given
  data can be decided by running it.  Values are compared as they are written: the order of
  members counts, and numbers are compared in their kind and bit by bit.
Main exports: Json.identical_iff, the instances of DecidableEq
-/
import Mathlib.Control.Monad.Basic
import RecordStore.Store.Basic

namespace RecordStore

namespace Json

mutual

/-- Equality of values as they are written. -/
def identical : Json → Json → Bool
  | .null, .null => true
  | .bool a, .bool b => a == b
  | .num a, .num b => a == b
  | .str a, .str b => a == b
  | .arr a, .arr b => identicalItems a b
  | .obj a, .obj b => identicalMembers a b
  | _, _ => false

/-- Equality element by element. -/
def identicalItems : List Json → List Json → Bool
  | [], [] => true
  | a :: as, b :: bs => a.identical b && identicalItems as bs
  | _, _ => false

/-- Equality member by member. -/
def identicalMembers : List (String × Json) → List (String × Json) → Bool
  | [], [] => true
  | (key, a) :: as, (key', b) :: bs => key == key' && a.identical b && identicalMembers as bs
  | _, _ => false

end

mutual

theorem identical_iff (a b : Json) : a.identical b = true ↔ a = b := by
  cases a <;> cases b <;>
    simp [Json.identical, identicalItems_iff, identicalMembers_iff]

theorem identicalItems_iff (as bs : List Json) : identicalItems as bs = true ↔ as = bs := by
  match as, bs with
  | [], [] | [], _ :: _ | _ :: _, [] => simp [identicalItems]
  | a :: as, b :: bs => simp [identicalItems, identical_iff a b, identicalItems_iff as bs]

theorem identicalMembers_iff (as bs : List (String × Json)) :
    identicalMembers as bs = true ↔ as = bs := by
  match as, bs with
  | [], [] | [], _ :: _ | _ :: _, [] => simp [identicalMembers]
  | (key, a) :: as, (key', b) :: bs =>
      simp [identicalMembers, identical_iff a b, identicalMembers_iff as bs]

end

instance : DecidableEq Json := fun a b => decidable_of_iff _ (identical_iff a b)

end Json

deriving instance DecidableEq for Selection, SaveOutcome, Notice, Session

end RecordStore
