/-
Module: RecordStore.Proofs.Relational.Keys
Purpose: Looking up a key in a table.  A key is looked up, written to and looked up again by one
  comparison with the key cells, which at most one row meets: the row of the integer that the key
  denotes.  Looking up `null` compares with nothing instead, so that every row is accepted.
Main exports: denotedKey?, denotedKey?_int, hasKey_iff_denotedKey?, exists_cut, perform_find_key,
  perform_fetch_key, perform_fetch_refused
-/
import RecordStore.Proofs.Number.Integral
import RecordStore.Proofs.Relational.Matching
import RecordStore.Proofs.Relational.Saving

namespace RecordStore

/-! ### The key that a value denotes -/

namespace Binary64

/-- An integer equals a double when it is the value of the double. -/
theorem compareInt?_eq_iff {i : Int} {x : Binary64} :
    compareInt? i x = some .eq ↔ x.toInt? = some i := by
  rw [toInt?_eq_some_iff]
  constructor
  · intro same
    refine ⟨?_, mul_stepsInOne_of_compareInt? same⟩
    unfold compareInt? at same
    split at same
    · cases same
    · split at same
      · assumption
      · split at same <;> cases same
  · rintro ⟨finite, same⟩
    rw [compareInt?, isNaN_of_isFinite finite, if_neg Bool.false_ne_true, if_pos finite, same,
      Std.compare_self]

end Binary64

namespace SqlValue

/-- The integer that a value is equal to as a number. -/
def integer? : SqlValue → Option Int
  | .int i => some i
  | .real x => x.toInt?
  | _ => none

/-- An integer is equal to the values that have it as their integer. -/
theorem eq_holds_int_iff {i : Int} {value : SqlValue} :
    Comparison.eq.holds (.int i) value ↔ value.integer? = some i := by
  rw [Comparison.eq_holds_iff]
  cases value with
  | null => simp [compare?, integer?]
  | text written => simp [compare?, integer?]
  | int other =>
      rw [compare?, integer?, Option.some.injEq, Std.LawfulEqOrd.compare_eq_iff_eq,
        Option.some.injEq, eq_comm]
  | real x => exact Binary64.compareInt?_eq_iff

end SqlValue

/-- The key of a row that a value denotes: an integer, or a text or a real that is one; `null`
denotes none. -/
def denotedKey? (id : Json) : Option Int :=
  (Affinity.numeric.convert (keyColumn.encode id)).integer?

/-- An integer that is not too large denotes itself. -/
theorem denotedKey?_int {key : Int} (bounded : key ≤ maxInt64) :
    denotedKey? (.int key) = some key := by
  have short : (Number.int key).int64? = some key := if_pos bounded
  have parameter : keyColumn.encode (.int key) = .int key :=
    show SqlValue.ofNumber (.int key) = .int key by simp only [SqlValue.ofNumber, short]
  rw [denotedKey?, parameter]
  rfl

namespace Relational

open RecordStore.Action (perform_bind_ok perform_bind_error perform_bind_eq_ok)

variable {setting : Setting} {session after : Session Connection} {model : Schema} {id : Json}

/-- The row that has a key is the one whose key it denotes. -/
theorem hasKey_iff_denotedKey? {row : Row} (integer : row.get idField = .int row.key) :
    hasKey id row ↔ denotedKey? id = some row.key := by
  have compared : hasKey id row = Comparison.eq.holds (row.get idField)
      (Affinity.numeric.convert (keyColumn.encode id)) := rfl
  rw [compared, integer, SqlValue.eq_holds_int_iff, denotedKey?]

/-- A key but `null` is looked up by the comparison that it is written to by. -/
theorem accepts_ofIndex (present : id ≠ .null) (now : Instant) (row : Row) :
    RowQuery.accepts now ⟨[RowTest.ofIndex id], [], .all⟩ row = hasKey id row := by
  have single : RowQuery.accepts now ⟨[RowTest.ofIndex id], [], .all⟩ row =
      (RowTest.ofIndex id).holds now row := by
    rw [RowQuery.accepts, List.all_cons, List.all_nil, Bool.and_true]
  rw [single]
  cases id with
  | null => exact absurd rfl present
  | _ => rfl

/-- The rows of a key are the first of them, if there is one. -/
theorem filter_hasKey (present : id ≠ .null) {table : Table} (keyed : table.Keyed) :
    table.rows.filter (hasKey id) = (table.rows.find? (hasKey id)).toList := by
  have few := keyed.length_filter_index ⟨0, 0⟩ id
  rw [funext (accepts_ofIndex present ⟨0, 0⟩)] at few
  cases found : table.rows.find? (hasKey id) with
  | none => simpa [List.filter_eq_nil_iff] using List.find?_eq_none.mp found
  | some row =>
      have inside : row ∈ table.rows.filter (hasKey id) :=
        List.mem_filter.mpr ⟨List.mem_of_find?_eq_some found, List.find?_some found⟩
      obtain ⟨only, is⟩ := List.length_eq_one_iff.mp
        (Nat.le_antisymm few (List.length_pos_of_mem inside))
      rw [is, List.mem_singleton] at inside
      rw [is, inside]
      rfl

/-- The row of a key stands between rows that do not have it. -/
theorem exists_cut {table : Table} (keyed : table.Keyed) {row : Row}
    (found : table.rows.find? (hasKey id) = some row) :
    ∃ earlier later, table.rows = earlier ++ row :: later ∧ hasKey id row ∧
      ∀ other ∈ earlier ++ later, hasKey id other = false := by
  obtain ⟨hit, earlier, later, cut, before⟩ := List.find?_eq_some_iff_append.mp found
  have inside {other : Row} (member : other ∈ earlier ++ row :: later) : other ∈ table.rows :=
    cut ▸ member
  refine ⟨earlier, later, cut, hit, fun other member => ?_⟩
  rcases List.mem_append.mp member with early | late
  · simpa using before other early
  · -- a later row has a greater key
    have ordered := keyed.ordered
    rw [cut, List.pairwise_append, List.pairwise_cons] at ordered
    have above := ordered.2.1.1 other late
    refine Bool.eq_false_iff.mpr fun again => ?_
    have first := (hasKey_iff_denotedKey? (keyed.integer row (inside (by simp)))).mp hit
    have second := (hasKey_iff_denotedKey?
      (keyed.integer other (inside (by simp [late])))).mp again
    rw [first, Option.some.injEq] at second
    omega

/-- A condition on a key but `null` is the lookup of the key. -/
theorem ofCondition_key (present : id ≠ .null) :
    Plan.ofCondition (some [(indexKey, id)]) .plain =
      .ok { Plan.everything .plain with index := some id } := by
  cases id with
  | null => exact absurd rfl present
  | _ => rfl

/-- The lookup of a key but `null` finds the record of the row that has the key. -/
theorem perform_find_key (present : id ≠ .null) {table : Table} {between : Session Connection}
    (connected : (tableOf model).perform setting session = (.ok table, between))
    (keyed : table.Keyed) :
    (find model { Plan.everything .plain with index := some id }).perform setting session =
      (.ok ((table.rows.find? (hasKey id)).map (recordOf model.tableColumns)).toList,
        { between with readings := between.readings + 1 }) := by
  have compiled : RowQuery.compile model { Plan.everything .plain with index := some id } =
      .ok ⟨[RowTest.ofIndex id], [], .all⟩ := rfl
  have selected : table.select (setting.clock between.readings)
      ⟨[RowTest.ofIndex id], [], .all⟩ = (table.rows.find? (hasKey id)).toList := by
    have perm := @RowQuery.run_perm ⟨[RowTest.ofIndex id], [], .all⟩ rfl
      (setting.clock between.readings) table.rows
    rw [funext (accepts_ofIndex present _), filter_hasKey present keyed] at perm
    cases found : table.rows.find? (hasKey id) with
    | none =>
        rw [found] at perm
        exact perm.eq_nil
    | some row =>
        rw [found] at perm
        exact List.perm_singleton.mp perm
  rw [perform_find compiled connected (by rfl), selected]
  cases table.rows.find? (hasKey id) <;> rfl

/-- A key but `null` fetches the record of the row that has the key. -/
theorem perform_fetch_key (present : id ≠ .null) {table : Table} {between : Session Connection}
    (connected : (tableOf model).perform setting session = (.ok table, between))
    (keyed : table.Keyed) :
    (fetch model id).perform setting session =
      (.ok ((table.rows.find? (hasKey id)).map (recordOf model.tableColumns)),
        { between with readings := between.readings + 1 }) := by
  unfold fetch
  rw [perform_bind_ok _ _
      ((Action.perform_lift_eq_ok setting session).mpr ⟨ofCondition_key present, rfl⟩),
    perform_bind_ok _ _ (perform_find_key present connected keyed)]
  cases table.rows.find? (hasKey id) <;> rfl

/-- Where the tables cannot be made no lookup is made. -/
theorem perform_fetch_refused (present : id ≠ .null) {error : StoreError}
    (refused : connect.perform setting session = (.error error, after)) :
    (fetch model id).perform setting session = (.error error, after) := by
  have untabled : (tableOf model).perform setting session = (.error error, after) :=
    perform_bind_error _ _ refused _
  unfold fetch
  rw [perform_bind_ok _ _
      ((Action.perform_lift_eq_ok setting session).mpr ⟨ofCondition_key present, rfl⟩)]
  refine perform_bind_error _ _ ?_ _
  unfold find
  have compiled : (compile model { Plan.everything .plain with index := some id }).perform setting
      session = (.ok ⟨[RowTest.ofIndex id], [], .all⟩, session) := rfl
  rw [perform_bind_ok _ _ compiled]
  exact perform_bind_error _ _ untabled _

end Relational

end RecordStore
