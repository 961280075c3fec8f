/-
Module: RecordStore.Proofs.Document.OwningKeys
Purpose: Keys of a relation between the records of a document store.  The lookup of one key goes
  by the loose text of the key; the lookup of all keys compares the ids with the keys as values of
  a kind.  So a key shows the record that its own lookup finds only if the id of this record is
  equal to one of the keys.
Main exports: Tree.Reads.fetchRecord, perform_select_isKey, resolves_keys
-/
import RecordStore.Proofs.Document.Relations
import RecordStore.Proofs.Store.KeyOrder

namespace RecordStore.Document

namespace Tree.Reads

variable {tree : Tree} {records : List Object} (given : tree.Reads records)
include given

/-- A key fetches the record that has its loose text. -/
theorem fetchRecord (key : Json) :
    Document.fetchRecord tree key =
      .ok (records.find? fun record => recordKey? record == some (keyOf key)) := by
  induction given with
  | nil => rfl
  | @cons entry record rest others read later ih =>
      obtain ⟨text, named⟩ := read
      unfold Document.fetchRecord at ih ⊢
      rw [get?, List.find?_cons, named]
      by_cases same : entry.1 = keyOf key
      · simp [same, text, Except.map]
      · have other : (some entry.1 == some (keyOf key)) = false := by simpa using same
        rw [if_neg same, other]
        exact ih

/-- At most one record has a key. -/
theorem atMostOne (ordered : tree.Ordered) (key : Json) :
    AtMostOne records fun record => recordKey? record == some (keyOf key) := by
  intro record here other there hit hit'
  rw [beq_iff_eq] at hit hit'
  exact given.eq_of_key ordered here there (hit.trans hit'.symm)

end Tree.Reads

/-- A record has a number or a text for its key when it stands under the loose text of it. -/
theorem hasKey_eq {key : Json} (isKey : key.IsKey) (record : Object) :
    record.hasKey key = (recordKey? record == some (keyOf key)) := by
  unfold Object.hasKey recordKey?
  cases record.get? idField with
  | none => rfl
  | some id =>
      have loose : id.looselyEqual key ↔ _ := Json.looselyEqual_iff isKey
      rw [Bool.eq_iff_iff]
      simpa [keyOf] using loose

/-- The lookup of several keys sees a record when its id is equal to one of them. -/
def seenAmong (keys : List Json) (record : Object) : Bool :=
  (Matcher.oneOf keys).accepts (record.get? idField)

section Lookup

variable {setting : Setting} {session : Session Trees} {target : String} {model : Schema}
  {records : List Object} (known : setting.registry.get target = .ok model)
  (given : (session.data.tree target).Reads records) {key : Json} (isKey : key.IsKey)
include given isKey

include known in
/-- The lookup of a key shows the record that has it. -/
theorem perform_select_isKey :
    (backend.select target (some [(indexKey, key)]) SelectOptions.plain).perform setting session =
      (.ok (.one ((records.find? (·.hasKey key)).map (·.project (model.columnsFor .select)))),
        session) := by
  have indexed : Plan.indexOf? [(indexKey, key)] = some key := by
    cases key with
    | num n => rfl
    | str text => rfl
    | _ => exact isKey.elim
  have selected : (backend.select target _ SelectOptions.plain).perform setting session = _ :=
    perform_select_key known indexed none
  rw [given.fetchRecord] at selected
  simp only [hasKey_eq isKey]
  exact selected

/-- What a test of the id shows has a key when the record that has it passes the test. -/
theorem find?_shownRecords (ordered : (session.data.tree target).Ordered) (matcher : Matcher) :
    (shownRecords model idField matcher records).find? (·.hasKey key) =
      ((records.find? (·.hasKey key)).map (·.project (model.columnsFor .select))).filter
        fun shown => matcher.accepts (shown.get? idField) := by
  have single : AtMostOne records (·.hasKey key) := by
    simp only [hasKey_eq isKey]
    exact given.atMostOne ordered key
  have picked : ((⟨[⟨FieldPath.field idField, matcher⟩], [], none, none⟩ : Query).run records).Perm
      (records.filter fun record => matcher.accepts (record.get? idField)) := by
    rw [Query.run, Query.paginate, Option.getD_none, List.drop_zero]
    simp only [← accepts_single]
    exact Query.sort_perm _ _
  have keyed (record : Object) :
      (record.project (model.columnsFor .select)).hasKey key = record.hasKey key := by
    rw [Object.hasKey, model.id_of_shown, Object.hasKey]
  rw [shownRecords, List.find?_map, Option.filter_map]
  simp only [Function.comp_def, keyed, model.id_of_shown]
  rw [single.find?_of_perm_filter picked (fun _ _ hit => hit)
    fun _ _ hit => (and_iff_right hit).symm]

end Lookup

/-- A document store resolves each key to the record that its lookup shows, if the id of this
record is equal to some key. -/
theorem resolves_keys {setting : Setting} {session : Session Trees} {relation : Relation}
    (owning : relation.side = .owning) {model : Schema}
    (known : setting.registry.get relation.target = .ok model)
    (ordered : (session.data.tree relation.target).Ordered) {records : List Object}
    (given : (session.data.tree relation.target).Reads records) (record : Object) :
    backend.ResolvesKeys setting session relation record fun _ =>
      seenAmong (relatedKeys (record.get? relation.field)) :=
  Backend.resolvesKeys_of_related owning record
    (fun _ => ⟨_, perform_related_keys known given.readAll _⟩)
    fun _ _ isKey => ⟨_, session, perform_select_isKey known given isKey,
      find?_shownRecords given isKey ordered _⟩

end RecordStore.Document
