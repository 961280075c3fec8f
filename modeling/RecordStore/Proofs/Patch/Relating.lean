/-
Module: RecordStore.Proofs.Patch.Relating
Purpose: Adding one element to a stored list and taking it out again.  An element that the list
  does not hold, loosely, is appended behind all others and is then the first that is found, so
  that deleting it gives the record back; of an element that the list does hold the first
  occurrence goes, and the others keep their order.
Main exports: FirstLike, exists_firstLike, Patch.cover_of_lookup?, Patch.deleteItem_of_firstLike,
  Patch.delete_undoes_append
-/
import RecordStore.Proofs.Patch.Accumulating

namespace RecordStore

open Json Segment

/-! ### The first element of a list that is like a value -/

/-- A list cut at its first element that is loosely equal to a value. -/
structure FirstLike (value : Json) (items before : List Json) (item : Json) (behind : List Json) :
    Prop where
  cut : items = before ++ item :: behind
  like : item.looselyEqual value = true
  earlier : ∀ other ∈ before, other.looselyEqual value = false

/-- Every value is loosely equal to itself, for it has one loose text. -/
theorem Json.looselyEqual_self (value : Json) : value.looselyEqual value = true := by
  simp [looselyEqual]

section FirstLike

variable {value item : Json} {items before behind : List Json}

theorem exists_firstLike (held : ∃ item ∈ items, item.looselyEqual value = true) :
    ∃ before item behind, FirstLike value items before item behind := by
  obtain ⟨item, found⟩ := Option.isSome_iff_exists.mp (List.find?_isSome.mpr held)
  obtain ⟨like, before, behind, cut, earlier⟩ := List.find?_eq_some_iff_append.mp found
  exact ⟨before, item, behind, cut, like, fun other member => by simpa using earlier other member⟩

/-- A value behind a list that has nothing like it is the first of its kind. -/
theorem firstLike_append (fresh : ∀ item ∈ items, item.looselyEqual value = false) :
    FirstLike value (items ++ [value]) items value [] :=
  ⟨rfl, value.looselyEqual_self, fresh⟩

/-- The search for a value ends at the first element that is like it. -/
theorem FirstLike.findIdx? (first : FirstLike value items before item behind) :
    items.findIdx? (·.looselyEqual value) = some before.length := by
  have none : before.findIdx? (·.looselyEqual value) = none := by
    apply List.findIdx?_eq_none_iff.mpr
    exact first.earlier
  rw [first.cut, List.findIdx?_append, none, List.findIdx?_cons, first.like]
  simp

/-- Without its first element like a value a list keeps the others in their order. -/
theorem FirstLike.eraseIdx (first : FirstLike value items before item behind) :
    items.eraseIdx before.length = before ++ behind := by
  rw [first.cut, List.eraseIdx_append_of_length_le (Nat.le_refl _), Nat.sub_self]
  rfl

end FirstLike

namespace Patch

variable {record : Object} {path : FieldPath}

/-- Where a path of names and positions reads a value another one can be written, which is read
then; writing the old one back restores the record. -/
theorem cover_of_lookup? (plain : AllPlain path.segments) {old : Json}
    (found : record.lookup? path = some old) (value : Json) :
    ∃ after, cover record path value = (.ok (), after) ∧ after.lookup? path = some value ∧
      after.set path old = (.ok (), record) := by
  have kept : record.set path old = (.ok (), record) := Object.set_of_lookup? found
  obtain ⟨after, written⟩ := Object.exists_set_of_set kept value
  have restored : after.set path old = (.ok (), record) := by
    rw [Object.set_set plain written old, kept]
  have covered : cover record path value = (.ok (), after) := by rw [cover, written]
  exact ⟨after, covered, Object.lookup?_of_set plain written, restored⟩

/-- Deleting from a list writes it without the first element that is like the operand. -/
theorem deleteItem_of_firstLike {operand item : Json} {items before behind : List Json}
    (held : record.lookup? path = some (.arr items))
    (first : FirstLike operand items before item behind) :
    deleteItem record path operand = cover record path (.arr (before ++ behind)) := by
  simp only [deleteItem, held, first.findIdx?, first.eraseIdx]

/-- Deleting undoes appending.  At a path of names and positions that addresses a whole list, an
operand that is no list and that no element is loosely equal to is appended behind the elements,
and deleting it then gives back the record, with its keys in their order.  If elements are loosely
equal to the operand, deleting takes out the first of them and keeps the others in their order;
nothing else of the record changes, for writing the old list at the path restores it. -/
theorem delete_undoes_append (record : Object) {path : FieldPath} (plain : AllPlain path.segments)
    (whole : path.endsWithSelector = false) {resolved : Resolved}
    (list : resolved.isArrayLike = true) {items : List Json}
    (held : record.lookup? path = some (.arr items)) {operand : Json}
    (single : operand.isArr = false) :
    ((∀ item ∈ items, item.looselyEqual operand = false) →
      ∃ related, apply record path operand .append resolved = (.ok (), related) ∧
        related.lookup? path = some (.arr (items ++ [operand])) ∧
        apply related path operand .delete resolved = (.ok (), record)) ∧
      ((∃ item ∈ items, item.looselyEqual operand = true) →
        ∃ before item behind, FirstLike operand items before item behind ∧
          ∃ after, apply record path operand .delete resolved = (.ok (), after) ∧
            after.lookup? path = some (.arr (before ++ behind)) ∧
            after.set path (.arr items) = (.ok (), record)) := by
  have deletes (current : Object) :
      apply current path operand .delete resolved = deleteItem current path operand := by
    simp only [apply, delete, whole, list, if_true, Bool.false_eq_true, if_false]
  constructor
  case left =>
    intro fresh
    have appends : apply record path operand .append resolved =
        cover record path (.arr (items ++ [operand])) := by
      have one : addedItems operand = [operand] := by
        cases operand with
        | arr more => cases single
        | _ => rfl
      simp only [apply, append, list, if_true, appendItems, stored?_of_lookup? held rfl, one]
    obtain ⟨related, covered, reads, restores⟩ :=
      cover_of_lookup? plain held (.arr (items ++ [operand]))
    refine ⟨related, appends.trans covered, reads, ?_⟩
    rw [deletes, deleteItem_of_firstLike reads (firstLike_append fresh), List.append_nil, cover,
      restores]
  case right =>
    intro like
    obtain ⟨before, item, behind, first⟩ := exists_firstLike like
    obtain ⟨after, covered, reads, restores⟩ :=
      cover_of_lookup? plain held (.arr (before ++ behind))
    refine ⟨before, item, behind, first, after, ?_, reads, restores⟩
    rw [deletes, deleteItem_of_firstLike held first, covered]

/-- A key is related and unrelated in a list below the second element of another; of the two
elements that read as `7` the number goes, which stands in front of the text. -/
theorem delete_undoes_append_loosely :
    let items : List Json := [.null, .int 7, .obj [], .str "7"]
    let record : Object := [("teams", .arr [.null, .obj [("keys", .arr items)]]), ("name", .str "x")]
    let path : FieldPath := ⟨"teams[1].keys", [.name "teams", .index 1, .name "keys"], false⟩
    record.lookup? path = some (.arr items) ∧
      (∃ related, apply record path (.int 8) .append ⟨.id, true⟩ = (.ok (), related) ∧
        apply related path (.int 8) .delete ⟨.id, true⟩ = (.ok (), record)) ∧
      ∃ after, apply record path (.str "7") .delete ⟨.id, true⟩ = (.ok (), after) ∧
        after.lookup? path = some (.arr [.null, .obj [], .str "7"]) ∧
        after.set path (.arr items) = (.ok (), record) := by
  intro items record path
  have plain : AllPlain path.segments := by decide
  have held : record.lookup? path = some (.arr items) := rfl
  obtain ⟨undone, -⟩ := @delete_undoes_append record path plain rfl ⟨.id, true⟩ rfl items held
    (.int 8) rfl
  obtain ⟨-, taken⟩ := @delete_undoes_append record path plain rfl ⟨.id, true⟩ rfl items held
    (.str "7") rfl
  have fresh : ∀ item ∈ items, item.looselyEqual (.int 8) = false := by
    simp only [items, List.forall_mem_cons]
    exact ⟨rfl, rfl, rfl, rfl, nofun⟩
  obtain ⟨related, appended, -, restored⟩ := undone fresh
  obtain ⟨before, item, behind, -, after, deleted, -, back⟩ := taken ⟨.int 7, by simp [items], rfl⟩
  have left : after = [("teams", .arr [.null, .obj [("keys", .arr [.null, .obj [], .str "7"])]]),
      ("name", .str "x")] := congrArg Prod.snd deleted.symm
  refine ⟨held, ⟨related, appended, restored⟩, after, deleted, ?_, back⟩
  rw [left]
  rfl

end Patch

end RecordStore
