/-
Module: RecordStore.Proofs.Patch.Accumulating
Purpose: Two operands applied at one path, one after the other.  Through names and positions a
  second write reads what the first one wrote and takes its place, also where the first had to
  make objects on the way; so what two appends or two merges come to is what one comes to with
  the operands put together first, in the record, in the order of its keys, and in the error.
Main exports: Json.writeAt_writeAt, Object.set_set, Patch.Change.andThen, Patch.cover_andThen,
  Patch.append_in_turn, Patch.merge_in_turn
-/
import RecordStore.Proofs.Json.Overlay
import RecordStore.Proofs.Patch.Sequencing
import RecordStore.Proofs.Path.ReadWrite

namespace RecordStore

open Segment

/-! ### Two writes to one place -/

namespace Json

/-- The second of two values put at one step stays. -/
theorem put_put (here : Json) (step : Segment) (first second : Json) :
    (here.put step first).put step second = here.put step second := by
  cases here with
  | obj members =>
      cases step with
      | name key => exact congrArg Json.obj (Object.insert_insert_self members key first second)
      | _ => rfl
  | arr items =>
      cases step with
      | index index => exact congrArg Json.arr (List.set_set first)
      | _ => rfl
  | _ => rfl

/-- The second of two writes to one place takes the place of the first. -/
theorem writeAt_writeAt {here : Json} {place : List Segment} (fits : here.Fits place)
    (first second : Json) :
    writeAt second (writeAt first here place) place = writeAt second here place := by
  induction place generalizing here with
  | nil => rfl
  | cons step rest ih =>
      obtain ⟨holds, below⟩ := fits
      have reached := step?_put_self holds (writeAt first (here.child step) rest)
      rw [writeAt, writeAt, opened_of_step? reached, child_of_step? reached, ih below, put_put,
        ← writeAt]

/-- Names and positions stand for themselves. -/
theorem pin_of_plain {steps : List Segment} (plain : AllPlain steps) (here : Json) :
    here.pin steps = steps := by
  induction steps generalizing here with
  | nil => rfl
  | cons step rest ih =>
      have kept : here.pinStep step = step := by
        cases step with
        | element key text => exact plain.head.elim
        | _ => cases here <;> rfl
      rw [pin, kept, ih plain.tail]

end Json

namespace Object

variable {record mid : Object} {path : FieldPath}

/-- What is written through names and positions is what the path reads then. -/
theorem lookup?_of_set (plain : AllPlain path.segments) {value : Json}
    (written : record.set path value = (.ok (), mid)) : mid.lookup? path = some value := by
  have reads := lookup?_pinned_of_set written
  rw [FieldPath.pinned, Json.pin_of_plain plain] at reads
  exact reads

/-- Whether a write goes through does not depend on the value. -/
theorem exists_set_of_set {first : Json} (written : record.set path first = (.ok (), mid))
    (second : Json) : ∃ after, record.set path second = (.ok (), after) := by
  have checked : checkWritable record path = .ok () := by
    unfold set edit at written
    cases checked : checkWritable record path with
    | error error =>
        rw [checked] at written
        cases written
    | ok done => rfl
  obtain ⟨answer, after, walked⟩ :=
    descendTo_ok_of_check checked fun place => ((), place.assign second)
  refine ⟨ofJson after, ?_⟩
  simp only [set, edit, checked, walked]

/-- A second write through names and positions leaves what it would have left without the
first. -/
theorem set_set (plain : AllPlain path.segments) {first : Json}
    (written : record.set path first = (.ok (), mid)) (second : Json) :
    mid.set path second = record.set path second := by
  have again : mid.set path first = (.ok (), mid) := set_of_lookup? (lookup?_of_set plain written)
  obtain ⟨after, alone⟩ := exists_set_of_set written second
  obtain ⟨last, twice⟩ := exists_set_of_set again second
  obtain ⟨-, fits, left⟩ := writeAt_of_set written
  obtain ⟨-, -, once⟩ := writeAt_of_set alone
  obtain ⟨-, -, both⟩ := writeAt_of_set twice
  rw [FieldPath.pinned, Json.pin_of_plain plain] at fits left once both
  have same : Json.obj last = Json.obj after := by
    rw [both, left, once, Json.writeAt_writeAt fits]
  rw [alone, twice, Json.obj.inj same]

end Object

namespace Patch

/-! ### Two changes in turn -/

/-- A change followed by another, which starts on the record that the first leaves and is not
reached when the first fails. -/
def Change.andThen {α β : Type} (first : Change α) (second : Object → Change β) : Change β :=
  match first with
  | (.ok _, left) => second left
  | (.error error, left) => (.error error, left)

variable {record : Object} {path : FieldPath}

/-- Two changes of which the first writes a value and the second, where that value is read,
writes another, are one write of the other. -/
theorem cover_andThen (plain : AllPlain path.segments) (value : Json) {final : Json}
    {second : Object → Change Unit}
    (follows : ∀ mid, mid.lookup? path = some value → second mid = cover mid path final) :
    (cover record path value).andThen second = cover record path final := by
  rcases written : record.set path value with ⟨answer, mid⟩
  cases answer with
  | ok done =>
      have first : cover record path value = (.ok (), mid) := by rw [cover, written]
      have next := follows mid (Object.lookup?_of_set plain written)
      rw [first, Change.andThen, next, cover, Object.set_set plain written, ← cover]
  | error error =>
      obtain ⟨refused, rfl⟩ := edit_error written
      have first : cover mid path value = (.error (.path error), mid) := by rw [cover, written]
      have alone : mid.set path final = (.error error, mid) := by
        rw [Object.set, Object.edit, refused]
      rw [first, Change.andThen, cover, alone]

/-! ### Appending -/

/-- A stored value other than `null` is found as it stands. -/
theorem stored?_of_lookup? {value : Json} (found : record.lookup? path = some value)
    (present : value.isNull = false) : stored? record path = some value := by
  unfold stored?
  rw [found]
  cases value with
  | null => cases present
  | _ => rfl

/-- Two lists appended in turn are appended as one list. -/
theorem appendItems_appendItems (plain : AllPlain path.segments) (first second : List Json) :
    (appendItems record path (.arr first)).andThen
        (fun mid => appendItems mid path (.arr second)) =
      appendItems record path (.arr (first ++ second)) := by
  have follows (items : List Json) : ∀ mid, mid.lookup? path = some (.arr (items ++ first)) →
      appendItems mid path (.arr second) =
        cover mid path (.arr (items ++ (first ++ second))) := by
    intro mid found
    rw [appendItems, stored?_of_lookup? found rfl, ← List.append_assoc]
    rfl
  unfold appendItems
  cases stored? record path with
  | none => exact cover_andThen plain _ (follows [])
  | some value =>
      cases value with
      | arr items => exact cover_andThen plain _ (follows items)
      | _ => rfl

/-- Two texts appended in turn are appended as one text. -/
theorem appendText_appendText (plain : AllPlain path.segments) (first second : String) :
    (appendText record path (.str first)).andThen (fun mid => appendText mid path (.str second)) =
      appendText record path (.str (first ++ second)) := by
  have follows (before : String) : ∀ mid, mid.lookup? path = some (.str (before ++ first)) →
      appendText mid path (.str second) =
        cover mid path (.str (before ++ (first ++ second))) := by
    intro mid found
    rw [appendText, stored?_of_lookup? found rfl, ← String.append_assoc]
    rfl
  exact cover_andThen plain _ (follows _)

/-- Appending through names and positions goes by the sum of what is appended.  To a list, two
lists come in turn as one list, and a single value as a list of it alone; to a text, two texts
come in turn as one text, whatever is stored.  Records and errors are the same, and a failed
append leaves the record as it was. -/
theorem append_in_turn (record : Object) {path : FieldPath} (plain : AllPlain path.segments)
    (resolved : Resolved) :
    (resolved.isArrayLike = true →
      (∀ first second : List Json,
        (apply record path (.arr first) .append resolved).andThen
            (fun mid => apply mid path (.arr second) .append resolved) =
          apply record path (.arr (first ++ second)) .append resolved) ∧
        ∀ operand : Json, operand.isArr = false →
          apply record path operand .append resolved =
            apply record path (.arr [operand]) .append resolved) ∧
      (resolved.isArrayLike = false → resolved.type.isText = true → ∀ first second : String,
        (apply record path (.str first) .append resolved).andThen
            (fun mid => apply mid path (.str second) .append resolved) =
          apply record path (.str (first ++ second)) .append resolved) ∧
      ∀ operand error after, apply record path operand .append resolved = (.error error, after) →
        after = record := by
  refine ⟨fun list => ⟨fun first second => ?_, fun operand single => ?_⟩,
    fun one text first second => ?_, fun operand error after failed => ?_⟩
  · simp only [apply, append, list, if_true]
    exact appendItems_appendItems plain first second
  · simp only [apply, append, list, if_true]
    have same : addedItems operand = addedItems (.arr [operand]) := by
      cases operand with
      | arr items => cases single
      | _ => rfl
    rw [appendItems, appendItems, same]
  · simp only [apply, append, one, text, Bool.false_eq_true, if_false, if_true]
    exact appendText_appendText plain first second
  · exact apply_atomic record path operand .append resolved error after failed

/-- Two texts are appended to a number, and two lists to one that has to be made inside an object
that is not there yet. -/
theorem append_in_turn_made :
    let record : Object := [("notes", .arr [.obj [("n", .int 15)]])]
    let text : FieldPath := ⟨"notes[0].n", [.name "notes", .index 0, .name "n"], false⟩
    let list : FieldPath := ⟨"info.tags", [.name "info", .name "tags"], false⟩
    let joined : Object := [("notes", .arr [.obj [("n", .str "15ab")]])]
    let listed : Object := [("notes", .arr [.obj [("n", .int 15)]]),
      ("info", .obj [("tags", .arr [.null, .str "x"])])]
    (apply record text (.str "a") .append ⟨.string, false⟩).andThen
        (fun mid => apply mid text (.str "b") .append ⟨.string, false⟩) = (.ok (), joined) ∧
      (apply record list (.arr [.null]) .append ⟨.string, true⟩).andThen
        (fun mid => apply mid list (.arr [.str "x"]) .append ⟨.string, true⟩) =
          (.ok (), listed) ∧
      apply record list (.str "x") .append ⟨.string, true⟩ =
        apply record list (.arr [.str "x"]) .append ⟨.string, true⟩ ∧
      ∃ after, apply record text (.arr []) .append ⟨.string, true⟩ =
        (.error (.invalidValue "notes[0].n" .storedNotAnArray), after) ∧ after = record := by
  intro record text list joined listed
  have throughText : AllPlain text.segments := by simp [text, AllPlain, IsPlain]
  have throughList : AllPlain list.segments := by simp [list, AllPlain, IsPlain]
  obtain ⟨-, texts, -⟩ := append_in_turn record throughText ⟨.string, false⟩
  obtain ⟨lists, -, -⟩ := append_in_turn record throughList ⟨.string, true⟩
  obtain ⟨-, -, kept⟩ := append_in_turn record throughText ⟨.string, true⟩
  refine ⟨?_, ?_, (lists rfl).2 _ rfl, record, rfl, kept (.arr []) _ _ rfl⟩
  · rw [texts rfl rfl]
    rfl
  · rw [(lists rfl).1]
    rfl

/-! ### Merging -/

/-- The object that is read at a path is the stored one. -/
theorem storedObject_of_lookup? {members : Object}
    (found : record.lookup? path = some (.obj members)) : storedObject record path = members := by
  rw [storedObject, found]

/-- A merge of objects is one write. -/
theorem merge_obj (record : Object) (path : FieldPath) (incoming : Object) :
    apply record path (.obj incoming) .merge ⟨.object, false⟩ =
      cover record path (.obj ((storedObject record path).overlay incoming)) := rfl

/-- A value that is covered through names and positions is read then. -/
theorem lookup?_of_cover (plain : AllPlain path.segments) {value : Json} {after : Object}
    (covered : cover record path value = (.ok (), after)) : after.lookup? path = some value := by
  have written := (cover_eq_ok_iff record path).mp covered
  exact Object.lookup?_of_set plain written

/-- Merging through names and positions writes the members of the operand over those of the
stored object, which keep their order and, under other keys, their values; where no object is
stored the operand stands alone.  Two merges in turn are one merge of the second operand written
over the first, in the record and in the error, and a failed merge leaves the record as it was. -/
theorem merge_in_turn (record : Object) {path : FieldPath} (plain : AllPlain path.segments) :
    (∀ incoming after : Object, incoming.keys.Nodup →
      apply record path (.obj incoming) .merge ⟨.object, false⟩ = (.ok (), after) →
      (∀ stored : Object, record.lookup? path = some (.obj stored) →
        ∃ merged : Object, after.lookup? path = some (.obj merged) ∧
          (∀ key, merged.get? key = (incoming.get? key).or (stored.get? key)) ∧
          merged.keys = stored.keys ++ incoming.keys.filter fun key => !stored.contains key) ∧
        ((∀ stored, record.lookup? path ≠ some (.obj stored)) →
          after.lookup? path = some (.obj incoming))) ∧
      (∀ first second : Object, first.keys.Nodup →
        (apply record path (.obj first) .merge ⟨.object, false⟩).andThen
            (fun mid => apply mid path (.obj second) .merge ⟨.object, false⟩) =
          apply record path (.obj (first.overlay second)) .merge ⟨.object, false⟩) ∧
      ∀ operand error after,
        apply record path operand .merge ⟨.object, false⟩ = (.error error, after) →
        after = record := by
  refine ⟨fun incoming after distinct merged => ⟨fun stored found => ?_, fun none => ?_⟩,
    fun first second distinct => ?_, fun operand error after failed => ?_⟩
  · rw [merge_obj, storedObject_of_lookup? found] at merged
    exact ⟨_, lookup?_of_cover plain merged, stored.get?_overlay distinct,
      stored.keys_overlay distinct⟩
  · have empty : storedObject record path = [] := by
      unfold storedObject
      split
      · rename_i stored found
        exact absurd found (none stored)
      · rfl
    rw [merge_obj, empty, Object.overlay_of_fresh distinct fun _ _ => List.not_mem_nil] at merged
    exact lookup?_of_cover plain merged
  · simp only [merge_obj]
    apply cover_andThen plain
    intro mid found
    rw [storedObject_of_lookup? found, Object.overlay_overlay _ distinct]
  · exact apply_atomic record path operand .merge ⟨.object, false⟩ error after failed

/-- Two merges into an object inside a list: a key of both operands keeps the place it has, and
the new keys stand in the order in which they came. -/
theorem merge_in_turn_listed :
    let stored : Object := [("a", .int 1), ("b", .obj [("x", .int 1)])]
    let record : Object := [("items", .arr [.obj [("info", .obj stored)]]), ("kept", .null)]
    let path : FieldPath := ⟨"items[0].info", [.name "items", .index 0, .name "info"], false⟩
    let first : Object := [("c", .int 3), ("b", .obj [("y", .int 2)])]
    let second : Object := [("d", .null), ("c", .int 4)]
    let once : Object := [("a", .int 1), ("b", .obj [("y", .int 2)]), ("c", .int 3)]
    let twice : Object := [("a", .int 1), ("b", .obj [("y", .int 2)]), ("c", .int 4), ("d", .null)]
    (∃ after, apply record path (.obj first) .merge ⟨.object, false⟩ = (.ok (), after) ∧
      ∃ merged : Object, merged = once ∧ after.lookup? path = some (.obj merged) ∧
        merged.keys = stored.keys ++ ["c"]) ∧
      (apply record path (.obj first) .merge ⟨.object, false⟩).andThen
          (fun mid => apply mid path (.obj second) .merge ⟨.object, false⟩) =
        (.ok (), [("items", .arr [.obj [("info", .obj twice)]]), ("kept", .null)]) ∧
      ∃ after, apply record path .null .merge ⟨.object, false⟩ =
        (.error (.invalidValue "items[0].info" .operandNotAnObject), after) ∧ after = record := by
  intro stored record path first second once twice
  have plain : AllPlain path.segments := by simp [path, AllPlain, IsPlain]
  have distinct : first.keys.Nodup := by decide
  obtain ⟨merges, composes, fails⟩ := merge_in_turn record plain
  have done : apply record path (.obj first) .merge ⟨.object, false⟩ =
      (.ok (), [("items", .arr [.obj [("info", .obj once)]]), ("kept", .null)]) := rfl
  obtain ⟨merged, read, -, keys⟩ := (merges first _ distinct done).1 stored rfl
  have same : merged = once := Json.obj.inj (Option.some.inj read).symm
  refine ⟨⟨_, done, merged, same, read, keys⟩, ?_, record, rfl, fails .null _ _ rfl⟩
  rw [composes first second distinct]
  rfl

end Patch

end RecordStore
