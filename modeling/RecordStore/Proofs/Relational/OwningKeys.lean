/-
Module: RecordStore.Proofs.Relational.OwningKeys
Purpose: Keys of a relation between the records of a relational store.  The lookup of one key and
  the lookup of all keys compare the key cells with the same parameter, for every key that is
  loosely equal to the key of a row.  So a key shows the record that its own lookup finds when it
  is loosely equal to the id of this record, which other writings of the number are not.
Main exports: denotedKey?_of_looselyEqual, ofOperand_of_looselyEqual, perform_select_isKey,
  perform_related_keys, resolves_keys
-/
import RecordStore.Proofs.Path.Spelling
import RecordStore.Proofs.Relational.Updating
import RecordStore.Proofs.Store.KeyOrder

namespace RecordStore

/-! ### Texts of integers -/

namespace Text

theorem trim_integerText (i : Int) : trim (integerText i) = integerText i := by
  have solid {c : Char} (listed : c ∈ integerChars i) : isBlank c = false := by
    rcases integerChars_decimal listed with rfl | digit
    · decide
    · exact isBlank_of_isDigit digit
  rw [trim, integerText, String.toList_ofList,
    trimChars_eq_self (fun c first => solid (List.mem_of_head? first))
      fun c last => solid (List.mem_of_getLast? last)]

/-- The text of an integer is no word. -/
theorem sameFolded_integerText (i : Int) {word : String}
    (letter : ∃ c ∈ (lower word).toList, ¬ (c = '-' ∨ c.isDigit)) :
    sameFolded (integerText i) word = false :=
  beq_eq_false_iff_ne.mpr (Numeral.lower_ne_of_plain (fun _ => integerChars_decimal) letter)

end Text

/-! ### The statement of several keys -/

theorem isBalanced_boundList (values : List SqlValue) : (boundList values).isBalanced :=
  Clause.isBalanced_joined _ fun part listed => by
    obtain ⟨value, -, rfl⟩ := List.mem_map.mp listed
    rfl

theorem RowTest.isBalanced_oneOf (term : Term) (operands : List SqlValue) :
    (RowTest.oneOf term operands).clause.isBalanced := by
  refine (Clause.isBalanced_append rfl _).mpr ?_
  refine (Clause.isBalanced_append (isBalanced_boundList operands) _).mpr ?_
  exact (Clause.isBalanced_append rfl _).mpr term.isBalanced_clause

/-! ### The parameter of a key -/

section Parameter

variable {i : Int} {key : Json}

namespace SqlValue

/-- The text of an integer of 64 bits is the integer as a parameter, of a filter and of a key. -/
theorem ofOperand_integerText (fits : fitsInt64 i) :
    ofOperand (.str (integerText i)) = .int i ∧ ofKey (.str (integerText i)) = .int i := by
  have read : Numeral.int64? (Text.trim (integerText i)) = some i := by
    rw [Text.trim_integerText, Numeral.int64?_integerText fits]
  have number : ofNumericText? (integerText i) = some (.int i) := by
    unfold ofNumericText?
    dsimp only
    rw [read]
  have null : Text.sameFolded (integerText i) "null" = false :=
    Text.sameFolded_integerText i ⟨'n', by decide⟩
  have yes : Text.sameFolded (integerText i) "true" = false :=
    Text.sameFolded_integerText i ⟨'t', by decide⟩
  have no : Text.sameFolded (integerText i) "false" = false :=
    Text.sameFolded_integerText i ⟨'f', by decide⟩
  constructor
  · simp only [ofOperand, ofOperand?, null, yes, no, number, Bool.false_eq_true, if_false,
      Option.getD_some]
  · simp only [ofKey, read]

end SqlValue

/-- What is loosely equal to an integer of 64 bits is one parameter, in a filter and as a key. -/
theorem ofOperand_of_looselyEqual (fits : fitsInt64 i) (loose : (Json.int i).looselyEqual key) :
    SqlValue.ofOperand key = keyColumn.encode key := by
  rcases Json.looselyEqual_int_cases loose with rfl | rfl | ⟨x, rfl, -⟩
  · rfl
  · obtain ⟨operand, parameter⟩ := SqlValue.ofOperand_integerText fits
    exact operand.trans parameter.symm
  · rfl

/-- What is loosely equal to an integer of 64 bits denotes it as a key. -/
theorem denotedKey?_of_looselyEqual (fits : fitsInt64 i) (loose : (Json.int i).looselyEqual key) :
    denotedKey? key = some i := by
  rcases Json.looselyEqual_int_cases loose with rfl | rfl | ⟨x, rfl, value⟩
  · rw [fitsInt64, Bool.and_eq_true, decide_eq_true_eq, decide_eq_true_eq] at fits
    exact denotedKey?_int fits.2
  · have parameter : keyColumn.encode (.str (integerText i)) = .int i :=
      (SqlValue.ofOperand_integerText fits).2
    rw [denotedKey?, parameter]
    rfl
  · have parameter : keyColumn.encode (.num (.float x)) = .real x := rfl
    rw [denotedKey?, parameter]
    simp only [Affinity.convert, SqlValue.readNumeral, SqlValue.shorten, SqlValue.integral?, value]
    split
    · rfl
    · exact value

end Parameter

namespace Relational

open RecordStore.Action (perform_bind_ok)

/-- The records of a table have the keys of their rows for ids. -/
theorem id_of_recordOf (model : Schema) {row : Row} (integer : row.get idField = .int row.key) :
    (recordOf model.tableColumns row).get? idField = some (.int row.key) := by
  have first : model.tableColumns.find? (·.name == idField) = some keyColumn := rfl
  have cell : row.get keyColumn.name = .int row.key := integer
  rw [get?_recordOf_of_find? first, cell]
  rfl

/-- The record of a row, as the model shows it. -/
def shownRow (model : Schema) (row : Row) : Object :=
  (recordOf model.tableColumns row).project (model.columnsFor .select)

theorem hasKey_shownRow (model : Schema) {row : Row} (integer : row.get idField = .int row.key)
    (key : Json) : (shownRow model row).hasKey key = (Json.int row.key).looselyEqual key := by
  rw [Object.hasKey, shownRow, model.id_of_shown, id_of_recordOf model integer, Option.any_some]

section Rows

variable {table : Table} (keyed : table.Keyed)
include keyed

theorem eq_of_key {row other : Row} (here : row ∈ table.rows) (there : other ∈ table.rows)
    (same : row.key = other.key) : row = other := by
  have distinct : (table.rows.map Row.key).Nodup :=
    List.pairwise_map.mpr (keyed.ordered.imp Int.ne_of_lt)
  exact List.inj_on_of_nodup_map distinct here there same

theorem atMostOne_hasKey (key : Json) : AtMostOne table.rows (hasKey key) := by
  intro row here other there hit hit'
  have first := (hasKey_iff_denotedKey? (keyed.integer row here)).mp hit
  have second := (hasKey_iff_denotedKey? (keyed.integer other there)).mp hit'
  exact eq_of_key keyed here there (Option.some.inj (first.symm.trans second))

variable (bounded : ∀ row ∈ table.rows, fitsInt64 row.key) {row : Row} (member : row ∈ table.rows)
  {model : Schema} {key : Json} (loose : (shownRow model row).hasKey key)
include bounded member loose

/-- The row whose record has a key loosely is found by the lookup of the key. -/
theorem hasKey_of_shownRow : hasKey key row := by
  have integer := keyed.integer row member
  rw [hasKey_shownRow model integer] at loose
  rw [hasKey_iff_denotedKey? integer]
  exact denotedKey?_of_looselyEqual (bounded row member) loose

/-- The row whose record has a key loosely is found by the lookup of several keys with it. -/
theorem holds_oneOf_of_shownRow {keys : List Json} (listed : key ∈ keys) (now : Instant) :
    (RowTest.oneOf (.column keyColumn) (keys.map SqlValue.ofOperand)).holds now row := by
  have hit := hasKey_of_shownRow keyed bounded member loose
  rw [hasKey_shownRow model (keyed.integer row member)] at loose
  refine List.any_eq_true.mpr ⟨_, List.mem_map_of_mem listed, ?_⟩
  rw [ofOperand_of_looselyEqual (bounded row member) loose]
  exact hit

end Rows

section Lookup

variable {setting : Setting} {session between : Session Connection} {target : String}
  {model : Schema} {table : Table} (known : setting.registry.get target = .ok model)
  (connected : (tableOf model).perform setting session = (.ok table, between))
include known connected

/-- The lookup of a key shows the record of the row that has it. -/
theorem perform_select_isKey (keyed : table.Keyed) {key : Json} (isKey : key.IsKey) :
    (backend.select target (some [(indexKey, key)]) SelectOptions.plain).perform setting session =
      (.ok (.one ((table.rows.find? (hasKey key)).map (shownRow model))),
        { between with readings := between.readings + 1 }) := by
  have present : key ≠ .null := by
    rintro rfl
    exact isKey
  have selected := @Backend.perform_select_excluded _ backend setting session target
    (some [(indexKey, key)]) model _ none known (ofCondition_key present) rfl
  have found : (backend.find model (({ Plan.everything .plain with index := some key } :
      Plan).asking ⟨none, .none⟩)).perform setting session = _ :=
    perform_find_key present connected keyed
  rw [found] at selected
  refine selected.trans ?_
  cases table.rows.find? (hasKey key) <;> rfl

/-- The lookup of several keys finds the records of the rows that pass its test. -/
theorem perform_related_keys {keys : List Json} (several : keys ≠ []) :
    ∃ picked : List Row, picked.Perm (table.rows.filter ((RowTest.oneOf (.column keyColumn)
        (keys.map SqlValue.ofOperand)).holds (setting.clock between.readings))) ∧
      (backend.related target (Condition.idsIn keys)).perform setting session =
        (.ok (picked.map (shownRow model)), { between with readings := between.readings + 1 }) := by
  let query : RowQuery := ⟨[.oneOf (.column keyColumn) (keys.map SqlValue.ofOperand)], [], .all⟩
  have compiled : RowQuery.compile model (Plan.testing .plain idField (.oneOf keys)) =
      .ok query := by
    cases keys with
    | nil => exact absurd rfl several
    | cons key rest => rfl
  have planned : (Backend.plan model (some (Condition.idsIn keys)) SelectOptions.plain :
      Action Connection Plan).perform setting session =
        (.ok (Plan.testing .plain idField (.oneOf keys)), session) :=
    Backend.perform_plan_eq_ok.mpr ⟨rfl, Plan.ofCondition_single (by simp [PathGrammar.IsName,
      idField]) (by decide) rfl _, rfl⟩
  have balanced : query.allClauses.isBalanced := by
    refine RowQuery.isBalanced_allClauses_iff.mpr ?_
    exact (Clause.isBalanced_append (RowTest.isBalanced_oneOf _ _) _).mpr rfl
  have found : (backend.find model (Plan.testing .plain idField (.oneOf keys))).perform setting
      session = _ := perform_find compiled connected balanced
  refine ⟨table.select (setting.clock between.readings) query, ?_, ?_⟩
  · have accepted : query.accepts (setting.clock between.readings) =
        (RowTest.oneOf (.column keyColumn) (keys.map SqlValue.ofOperand)).holds
          (setting.clock between.readings) := by
      funext row
      exact Bool.and_true _
    rw [← accepted]
    exact RowQuery.run_perm rfl _ _
  · unfold Backend.related
    rw [perform_bind_ok _ _ ((Action.perform_schema_eq_ok setting session).mpr ⟨known, rfl⟩),
      perform_bind_ok _ _ planned, perform_bind_ok _ _ found]
    simp only [List.map_map]
    rfl

end Lookup

/-- A relational store resolves each key to the record that its lookup shows, if the key is loosely
equal to the id of this record. -/
theorem resolves_keys {setting : Setting} {session between : Session Connection}
    {relation : Relation} (owning : relation.side = .owning) {model : Schema}
    (known : setting.registry.get relation.target = .ok model) {table : Table}
    (connected : (tableOf model).perform setting session = (.ok table, between))
    (keyed : table.Keyed) (bounded : ∀ row ∈ table.rows, fitsInt64 row.key) (record : Object) :
    backend.ResolvesKeys setting session relation record fun key shown => shown.hasKey key := by
  by_cases none_held : relatedKeys (record.get? relation.field) = []
  · have nothing : (relatedKeys (record.get? relation.field) ≠ []) → ∃ last,
        (backend.related relation.target (Condition.idsIn
          (relatedKeys (record.get? relation.field)))).perform setting session =
            (.ok [], last) := absurd none_held
    exact Backend.resolvesKeys_of_related owning record nothing fun key listed => by
      simp [none_held] at listed
  · obtain ⟨picked, same, found⟩ := perform_related_keys known connected none_held
    refine Backend.resolvesKeys_of_related owning record (fun _ => ⟨_, found⟩)
      fun key listed isKey => ⟨_, _, perform_select_isKey known connected keyed isKey, ?_⟩
    rw [List.find?_map, Option.filter_map]
    congr 1
    refine (atMostOne_hasKey keyed key).find?_of_perm_filter same
      (fun row member loose => hasKey_of_shownRow keyed bounded member loose) ?_
    intro row member _
    exact ⟨fun loose => ⟨loose, holds_oneOf_of_shownRow keyed bounded member loose listed _⟩,
      And.left⟩

end Relational

end RecordStore
