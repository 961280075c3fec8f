/-
Module: RecordStore.Proofs.Patch.Sequencing
Purpose: A patch is applied pair by pair, and each pair as a whole.  An operand that is
  refused leaves the record untouched in every mode, because everything that can fail is
  read off the record before the one write is made.  So a patch that is cut in two runs as
  its two parts in turn, and a patch that fails leaves what the pairs before the failing
  one make.
Main exports: Patch.Change.Atomic, Patch.apply_atomic, PatchReport.append, Patch.applyAll_append,
  Patch.applyAll_error, Patch.applyAll_pairwise
-/
import RecordStore.Proofs.Patch.Effect
import RecordStore.Proofs.Path.Walk

namespace RecordStore

/-- The report of some pairs in front of the report of the pairs after them. -/
def PatchReport.append (report rest : PatchReport) : PatchReport :=
  ⟨report.applied ++ rest.applied, report.skipped ++ rest.skipped⟩

namespace PatchReport

@[simp] theorem nil_append (rest : PatchReport) : append ⟨[], []⟩ rest = rest := rfl

theorem cons_append (key : String) (applied : Bool) (report rest : PatchReport) :
    (cons key applied report).append rest = cons key applied (report.append rest) := by
  cases applied <;> rfl

end PatchReport

namespace Patch

/-! ### One operand -/

/-- A change of a record that, when it fails, leaves the record as it was. -/
def Change.Atomic {α : Type} (record : Object) (change : Change α) : Prop :=
  ∀ error after, change = (.error error, after) → after = record

section Operands

variable (record : Object) (path : FieldPath)

/-- A change that goes through is atomic, whatever it leaves. -/
theorem atomic_ok {α : Type} (value : α) (after : Object) :
    Change.Atomic record (.ok value, after) := by
  intro error left failed
  cases failed

/-- Refusing a value before anything is written is atomic. -/
theorem atomic_error {α : Type} (error : PatchError) :
    Change.Atomic record ((.error error, record) : Change α) := by
  intro other left failed
  cases failed
  rfl

theorem cover_atomic (value : Json) : Change.Atomic record (cover record path value) := by
  intro error after failed
  obtain ⟨fault, -, refused⟩ := (cover_eq_error_iff record path).mp failed
  exact (edit_error refused).2

theorem removeAt_atomic : Change.Atomic record (removeAt record path) := by
  intro error after failed
  unfold removeAt at failed
  rcases outcome : record.remove path with ⟨answer, left⟩
  rw [outcome] at failed
  cases answer with
  | ok done => cases failed
  | error refusal =>
      cases failed
      unfold Object.remove at outcome
      cases found : record.lookup? path with
      | none => rw [found] at outcome; cases outcome
      | some value =>
          rw [found] at outcome
          exact (edit_error outcome).2

theorem Effect.atomic {change : Change Unit} (effect : Effect record path change) :
    Change.Atomic record change := by
  cases effect with
  | kept => exact atomic_ok record () record
  | refused fault => exact atomic_error record _
  | written value => exact cover_atomic record path value
  | removed => exact removeAt_atomic record path

/-- In every mode an operand that is refused leaves the record as it was. -/
theorem apply_atomic (operand : Json) (mode : UpdateMode) (resolved : Resolved) :
    Change.Atomic record (apply record path operand mode resolved) :=
  (apply_effect record path operand resolved mode).atomic

end Operands

/-! ### Pairs in turn -/

variable (schema : Schema) (mode : UpdateMode) (policy : UnknownFieldPolicy)

/-- A pair that fails, at its path, at the policy or at its operand, changes nothing. -/
theorem applyPair_atomic (record : Object) (key : String) (operand : Json) :
    Change.Atomic record (applyPair schema mode policy record key operand) := by
  unfold applyPair
  split
  · exact atomic_error record _
  · rename_i path read
    split
    · exact atomic_ok record false record
    · split
      · cases policy with
        | skip => exact atomic_ok record false record
        | reject => exact atomic_error record _
      · rename_i resolved resolves
        intro error after failed
        rcases outcome : apply record path operand mode resolved with ⟨answer, left⟩
        rw [outcome] at failed
        cases answer with
        | ok done => cases failed
        | error refusal =>
            cases failed
            exact apply_atomic record path operand mode resolved _ _ outcome

/-- A patch in two parts, of which the first goes through: the second runs on the record the
first leaves, and the reports stand one after the other. -/
theorem applyAll_append {record between : Object} {first : Object} {report : PatchReport}
    (done : applyAll schema mode policy record first = (.ok report, between)) (second : Object) :
    applyAll schema mode policy record (first ++ second) =
      ((applyAll schema mode policy between second).1.map report.append,
        (applyAll schema mode policy between second).2) := by
  induction first generalizing record report with
  | nil =>
      cases done
      rcases outcome : applyAll schema mode policy between second with ⟨answer, after⟩
      cases answer <;> simp [outcome, Except.map]
  | cons entry rest ih =>
      obtain ⟨key, operand⟩ := entry
      obtain ⟨applied, next, more, pair, later, rfl⟩ := applyAll_cons_eq_ok_iff.mp done
      simp only [List.cons_append, applyAll, pair, ih later]
      rcases applyAll schema mode policy between second with ⟨answer, after⟩
      cases answer <;> simp [Except.map, PatchReport.cons_append]

/-- A patch that fails has a first pair that fails, and the record it leaves is the one that
the pairs before that pair make. -/
theorem applyAll_error {record after : Object} {patch : Object} {error : PatchError}
    (failed : applyAll schema mode policy record patch = (.error error, after)) :
    ∃ before key operand rest report, patch = before ++ (key, operand) :: rest ∧
      applyAll schema mode policy record before = (.ok report, after) ∧
      applyPair schema mode policy after key operand = (.error error, after) := by
  induction patch generalizing record with
  | nil => cases failed
  | cons entry rest ih =>
      obtain ⟨key, operand⟩ := entry
      simp only [applyAll] at failed
      rcases pair : applyPair schema mode policy record key operand with ⟨answer, next⟩
      rw [pair] at failed
      cases answer with
      | error refusal =>
          cases failed
          obtain rfl := applyPair_atomic schema mode policy record key operand _ _ pair
          exact ⟨[], key, operand, rest, ⟨[], []⟩, rfl, rfl, pair⟩
      | ok applied =>
          rcases later : applyAll schema mode policy next rest with ⟨outcome, last⟩
          simp only [later] at failed
          cases outcome with
          | ok more => cases failed
          | error refusal =>
              cases failed
              obtain ⟨before, key', operand', rest', report, cut, done, stop⟩ := ih later
              refine ⟨(key, operand) :: before, key', operand', rest', report.cons key applied, ?_,
                ?_, stop⟩
              · rw [cut]
                rfl
              · simp only [applyAll, pair, done]

/-- A patch is applied pair by pair, each pair as a whole.  An operand that is refused keeps
the record.  If the first of two parts goes through, the patch runs as the second part on
the record the first leaves, with the reports one after the other.  A patch that fails
leaves exactly what the pairs before its failing pair make. -/
theorem applyAll_pairwise :
    (∀ record path operand resolved error after,
      apply record path operand mode resolved = (.error error, after) → after = record) ∧
    (∀ record between first report,
      applyAll schema mode policy record first = (.ok report, between) →
      ∀ second, applyAll schema mode policy record (first ++ second) =
        ((applyAll schema mode policy between second).1.map report.append,
          (applyAll schema mode policy between second).2)) ∧
    (∀ record patch error after,
      applyAll schema mode policy record patch = (.error error, after) →
      ∃ before key operand rest report, patch = before ++ (key, operand) :: rest ∧
        applyAll schema mode policy record before = (.ok report, after) ∧
        applyPair schema mode policy after key operand = (.error error, after)) := by
  refine ⟨?_, ?_, ?_⟩
  · intro record path operand resolved error after failed
    exact apply_atomic record path operand mode resolved error after failed
  · intro record between first report done second
    exact applyAll_append schema mode policy done second
  · intro record patch error after failed
    exact applyAll_error schema mode policy failed

/-- Two numbers are added and a text is refused as the third addend: the patch stops there
with the first two sums made and the last pair not reached. -/
theorem applyAll_pairwise_refused :
    let schema : Schema := ⟨"account", [("age", .scalar .number Traits.plain),
      ("height", .scalar .number Traits.plain), ("name", .scalar .string Traits.plain)], false,
      Hooks.none⟩
    let record : Object := [("age", .int 1), ("name", .str "x")]
    let sums : Object := [("age", .int 2), ("height", .int 5)]
    let refused : Object := [("age.", .str "lots"), ("name", .str "y")]
    let summed : Object := [("age", .int 3), ("name", .str "x"), ("height", .int 5)]
    let error : PatchError := .invalidValue "age." .operandNotANumber
    applyAll schema .append .skip record sums = (.ok ⟨["age", "height"], []⟩, summed) ∧
      applyAll schema .append .skip record (sums ++ refused) = (.error error, summed) ∧
      (∃ before key operand rest report, sums ++ refused = before ++ (key, operand) :: rest ∧
        applyAll schema .append .skip record before = (.ok report, summed) ∧
        applyPair schema .append .skip summed key operand = (.error error, summed)) ∧
      ∃ after, apply summed ⟨"age.", [.name "age"], true⟩ (.str "lots") .append ⟨.number, false⟩ =
        (.error error, after) ∧ after = summed := by
  intro schema record sums refused summed error
  obtain ⟨atomic, parts, stops⟩ := applyAll_pairwise schema .append .skip
  have done : applyAll schema .append .skip record sums =
      (.ok ⟨["age", "height"], []⟩, summed) := by rfl
  have failed :
      applyAll schema .append .skip record (sums ++ refused) = (.error error, summed) := by
    rw [parts _ _ _ _ done refused]
    rfl
  have alone : apply summed ⟨"age.", [.name "age"], true⟩ (.str "lots") .append ⟨.number, false⟩ =
      (.error error, summed) := by rfl
  exact ⟨done, failed, stops _ _ _ _ failed, summed, alone, atomic _ _ _ _ _ _ alone⟩

end Patch

end RecordStore
