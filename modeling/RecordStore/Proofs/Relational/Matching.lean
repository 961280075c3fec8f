/-
Module: RecordStore.Proofs.Relational.Matching
Purpose: What a relational store finds, counts and removes.  Counting and removing go by the
  filter of a plan alone, reading also sorts the rows and cuts the page out; without a page
  all three are about the same rows, and a key is that of one row at most.
Main exports: isBalanced_allClauses_iff, Table.Keyed.length_filter_index, perform_count,
  perform_delete, compile_eq_ok, select_agrees
-/
import Mathlib.Data.List.Perm.Subperm
import RecordStore.Proofs.Answers
import RecordStore.Proofs.Number.Exact
import RecordStore.Proofs.Relational.Operations

namespace RecordStore

/-! ### Statements -/

namespace Clause

theorem isBalanced_iff (clause : Clause) :
    clause.isBalanced ↔ clause.pieces.count .hole = clause.params.length := by
  simp [isBalanced, holes]

/-- Behind a balanced part nothing changes the balance. -/
theorem isBalanced_append {second : Clause} (balanced : second.isBalanced) (first : Clause) :
    (first ++ second).isBalanced ↔ first.isBalanced := by
  rw [isBalanced_iff] at balanced
  change (append first second).isBalanced ↔ first.isBalanced
  rw [isBalanced_iff, isBalanced_iff, append, List.count_append, List.length_append, balanced]
  exact Nat.add_right_cancel_iff

theorem isBalanced_joined (separator : String) {parts : List Clause}
    (balanced : ∀ part ∈ parts, part.isBalanced) : (joined separator parts).isBalanced := by
  induction parts with
  | nil => rfl
  | cons part rest ih =>
      have first := balanced part List.mem_cons_self
      have later := ih fun other member => balanced other (List.mem_cons_of_mem _ member)
      cases rest with
      | nil => exact first
      | cons next others =>
          refine (isBalanced_append later _).mpr ?_
          exact (isBalanced_append rfl part).mpr first

end Clause

theorem Term.isBalanced_clause (term : Term) : term.clause.isBalanced := by
  cases term with
  | column found => rfl
  | inner found steps => rfl

namespace RowQuery

theorem isBalanced_orderClause (query : RowQuery) : query.orderClause.isBalanced := by
  unfold orderClause
  split
  · rfl
  · refine (Clause.isBalanced_append (Clause.isBalanced_joined _ ?_) _).mpr rfl
    intro part member
    obtain ⟨key, -, rfl⟩ := List.mem_map.mp member
    exact (Clause.isBalanced_append rfl _).mpr key.1.isBalanced_clause

theorem isBalanced_limitClause (query : RowQuery) : query.limitClause.isBalanced := by
  unfold limitClause
  cases query.page with
  | all => rfl
  | after offset => rfl
  | window limit offset => rfl

/-- A statement can run when its filter can run alone. -/
theorem isBalanced_allClauses_iff {query : RowQuery} :
    query.allClauses.isBalanced ↔ query.whereClause.isBalanced := by
  unfold allClauses
  rw [Clause.isBalanced_append query.isBalanced_limitClause,
    Clause.isBalanced_append query.isBalanced_orderClause]

/-! ### Rows -/

/-- The rows of a page are some of the accepted ones, all of them without a page. -/
theorem run_subperm (now : Instant) (query : RowQuery) (rows : List Row) :
    (query.run now rows).Subperm (rows.filter (query.accepts now)) := by
  have sorted : (query.sort (rows.filter (query.accepts now))).Subperm _ :=
    (List.mergeSort_perm _ _).subperm
  refine List.Subperm.trans ?_ sorted
  unfold run paginate
  cases query.page with
  | all => exact List.Subperm.refl _
  | after offset => exact (List.drop_sublist _ _).subperm
  | window limit offset =>
      exact ((List.take_sublist _ _).trans (List.drop_sublist _ _)).subperm

theorem run_perm {query : RowQuery} (all : query.page = .all) (now : Instant) (rows : List Row) :
    (query.run now rows).Perm (rows.filter (query.accepts now)) := by
  unfold run paginate
  rw [all]
  exact List.mergeSort_perm _ _

end RowQuery

/-- An integer equals a real only if it is the real's value. -/
theorem Binary64.mul_stepsInOne_of_compareInt? {a : Int} {x : Binary64}
    (same : Binary64.compareInt? a x = some .eq) : a * (stepsInOne : Int) = x.signedSteps := by
  unfold compareInt? at same
  split at same
  · cases same
  · split at same
    · exact Std.LawfulEqOrd.eq_of_compare (Option.some.inj same)
    · split at same <;> cases same

theorem Comparison.eq_holds_iff (left right : SqlValue) :
    Comparison.eq.holds left right ↔ left.compare? right = some .eq := by
  unfold holds allows
  cases left.compare? right with
  | none => simp
  | some order => simp

/-- Two integers that equal one value are equal. -/
theorem Comparison.int_unique {a b : Int} {value : SqlValue}
    (first : Comparison.eq.holds (.int a) value) (second : Comparison.eq.holds (.int b) value) :
    a = b := by
  rw [eq_holds_iff] at first second
  cases value with
  | null => cases first
  | text text => cases first
  | int other =>
      have one : a = other := Std.LawfulEqOrd.eq_of_compare (Option.some.inj first)
      have two : b = other := Std.LawfulEqOrd.eq_of_compare (Option.some.inj second)
      rw [one, two]
  | real x =>
      have one := Binary64.mul_stepsInOne_of_compareInt? first
      have two := Binary64.mul_stepsInOne_of_compareInt? second
      have positive := Int.natCast_ne_zero.mpr (Nat.ne_of_gt Binary64.stepsInOne_pos)
      exact Int.eq_of_mul_eq_mul_right positive (one.trans two.symm)

/-- A key is that of one row of a table at most. -/
theorem Table.Keyed.length_filter_index {table : Table} (keyed : table.Keyed) (now : Instant)
    (key : Json) :
    (table.rows.filter (RowQuery.accepts now ⟨[RowTest.ofIndex key], [], .all⟩)).length ≤ 1 := by
  have equal : ∀ row ∈ table.rows.filter (RowQuery.accepts now ⟨[RowTest.ofIndex key], [], .all⟩),
      Comparison.eq.holds (.int row.key) (Affinity.numeric.convert (SqlValue.ofKey key)) := by
    intro row member
    obtain ⟨inside, accepted⟩ := List.mem_filter.mp member
    rw [← keyed.integer row inside]
    rw [RowQuery.accepts, List.all_cons, Bool.and_eq_true] at accepted
    exact accepted.1
  have ordered := keyed.ordered.sublist (List.filter_sublist : (table.rows.filter
    (RowQuery.accepts now ⟨[RowTest.ofIndex key], [], .all⟩)).Sublist table.rows)
  cases several : table.rows.filter (RowQuery.accepts now ⟨[RowTest.ofIndex key], [], .all⟩) with
  | nil => simp
  | cons first rest =>
      cases rest with
      | nil => simp
      | cons second others =>
          rw [several] at equal ordered
          have same := Comparison.int_unique (equal first (by simp)) (equal second (by simp))
          have below := (List.pairwise_cons.mp ordered).1 second List.mem_cons_self
          omega

namespace Relational

open RecordStore.Action (perform_bind_ok perform_bind_eq_ok)

variable {setting : Setting} {session after : Session Connection} {model : Schema}

/-! ### Counting and removing -/

theorem perform_matching {query : RowQuery} {clause : Clause} {step : DatabaseStep} {table : Table}
    (connected : (tableOf model).perform setting session = (.ok table, after))
    (balanced : clause.isBalanced) :
    (matching model query clause step).perform setting session =
      (.ok (table, query.accepts (setting.clock after.readings)),
        { after with readings := after.readings + 1 }) := by
  unfold matching
  rw [perform_bind_ok _ _ connected, perform_bind_ok _ _ (Action.perform_now setting after),
    if_pos balanced]
  rfl

/-- A count is that of the rows the filter accepts, whatever the order and the page. -/
theorem perform_count {plan : Plan} {query : RowQuery} {table : Table}
    (compiled : RowQuery.compile model plan = .ok query)
    (connected : (tableOf model).perform setting session = (.ok table, after))
    (balanced : query.whereClause.isBalanced) :
    (count model plan).perform setting session =
      (.ok (table.rows.filter (query.accepts (setting.clock after.readings))).length,
        { after with readings := after.readings + 1 }) := by
  unfold count compile
  rw [perform_bind_ok _ _ ((Action.perform_lift_eq_ok setting session).mpr ⟨compiled, rfl⟩),
    perform_bind_ok _ _ (perform_matching connected balanced)]
  rfl

/-- A deletion takes the rows the filter accepts, whatever the order and the page. -/
theorem perform_delete {plan : Plan} {query : RowQuery} {table : Table}
    (compiled : RowQuery.compile model plan = .ok query)
    (connected : (tableOf model).perform setting session = (.ok table, after))
    (balanced : query.whereClause.isBalanced) :
    (delete model plan).perform setting session =
      (.ok (table.rows.filter (query.accepts (setting.clock after.readings))).length,
        { after with
          data := { after.data with
            database := after.data.database.put
              (table.delete (query.accepts (setting.clock after.readings))) }
          readings := after.readings + 1 }) := by
  unfold delete compile
  rw [perform_bind_ok _ _ ((Action.perform_lift_eq_ok setting session).mpr ⟨compiled, rfl⟩),
    perform_bind_ok _ _ (perform_matching connected balanced)]
  rfl

/-! ### What a selection is about -/

/-- A query looks a key up, without a page, or has the filter, the scope, the order and the
page of its plan. -/
theorem compile_eq_ok {plan : Plan} {query : RowQuery}
    (compiled : RowQuery.compile model plan = .ok query) :
    (∃ key, plan.index = some key ∧ query = ⟨[RowTest.ofIndex key], [], .all⟩) ∨
      plan.index = none ∧ ∃ tests order,
        List.Forall₂ (fun predicate test => RowTest.ofPredicate model predicate = .ok test)
          plan.filter tests ∧
        List.Forall₂ (fun asked key => RowQuery.sortKey model asked = .ok key) plan.order order ∧
        query = ⟨tests ++ (plan.scope.map fun scope => RowTest.createdWithin scope.days).toList,
          order, Page.ofPlan plan⟩ := by
  unfold RowQuery.compile at compiled
  cases index : plan.index with
  | some key =>
      rw [index] at compiled
      cases compiled
      exact .inl ⟨key, rfl, rfl⟩
  | none =>
      rw [index] at compiled
      cases filter : plan.filter.mapM (RowTest.ofPredicate model) with
      | error fault =>
          rw [filter] at compiled
          cases compiled
      | ok tests =>
          cases order : plan.order.mapM (RowQuery.sortKey model) with
          | error fault =>
              rw [filter, order] at compiled
              cases compiled
          | ok keys =>
              rw [filter, order] at compiled
              cases compiled
              exact .inr ⟨rfl, tests, keys, forall₂_of_mapM filter, forall₂_of_mapM order, rfl⟩

/-- Without offset and limit a query has no page. -/
theorem page_eq_all {plan : Plan} {query : RowQuery}
    (compiled : RowQuery.compile model plan = .ok query) (offset : plan.offset = none)
    (limit : plan.limit = none) : query.page = .all := by
  rcases compile_eq_ok compiled with ⟨key, -, rfl⟩ | ⟨-, tests, order, -, -, rfl⟩
  · rfl
  · simp only [Page.ofPlan, offset, limit]

/-- A lookup of a key returns one row at most. -/
theorem length_select_index {table : Table} (keyed : table.Keyed) {plan : Plan} {query : RowQuery}
    (compiled : RowQuery.compile model plan = .ok query) (indexed : plan.index.isSome)
    (now : Instant) : (table.select now query).length ≤ 1 := by
  rcases compile_eq_ok compiled with ⟨key, -, rfl⟩ | ⟨unindexed, -⟩
  · rw [length_select table rfl now]
    exact keyed.length_filter_index now key
  · rw [unindexed] at indexed
    cases indexed

/-- Where a select succeeds, a count and a removal of the same condition do too, and are
about the rows the filter accepts.  The select shows some of these, and all of them unless
it is given a page. -/
theorem select_agrees {schema : String} {condition : Option Condition} {options : SelectOptions}
    {selection : Selection} (keyed : session.data.database.Keyed)
    (done : (backend.select schema condition options).perform setting session =
      (.ok selection, after)) :
    ∃ model plan accepts picked, setting.registry.get schema = .ok model ∧
      Plan.ofCondition condition SelectOptions.plain = .ok plan ∧
      List.Subperm picked ((session.data.database.rows schema).filter accepts) ∧
      (plan.offset = none → plan.limit = none →
        List.Perm picked ((session.data.database.rows schema).filter accepts)) ∧
      List.Forall₂ (Backend.Shows ((setting.registry.relationsOf schema).map Relation.field)
        (options.columns.getD (model.columnsFor .select)))
        (picked.map (recordOf model.tableColumns)) selection.records ∧
      (∃ last, (backend.tally schema condition).perform setting session =
        (.ok ((session.data.database.rows schema).filter accepts).length, last)) ∧
      ∃ last, (backend.remove schema condition).perform setting session =
          (.ok ((session.data.database.rows schema).filter accepts).length, last) ∧
        last.data.database.rows schema =
          (session.data.database.rows schema).filter fun row => !accepts row := by
  obtain ⟨model, plan, found, _, shown, known, read, checked, matched, showing, rfl⟩ :=
    Backend.select_eq_ok done
  have named : model.name = schema := Action.name_of_get known
  obtain ⟨query, table, between, compiled, connected, balanced, rfl, -⟩ := find_eq_ok matched
  change RowQuery.compile model plan = .ok query at compiled
  obtain ⟨keyedTable, rows, same⟩ := tableOf_rows keyed connected
  obtain ⟨opened, for_model⟩ := tableOf_eq_ok connected
  have filter := RowQuery.isBalanced_allClauses_iff.mp balanced
  rw [named] at rows
  refine ⟨model, plan, query.accepts (setting.clock between.readings),
    table.select (setting.clock between.readings) query, known, read, ?_, ?_, ?_, ?_, ?_⟩
  · rw [← rows]
    exact query.run_subperm _ table.rows
  · intro offset limit
    rw [← rows]
    exact RowQuery.run_perm (page_eq_all compiled offset limit) _ table.rows
  · refine Backend.forall₂_records showing fun indexed => ?_
    rw [List.length_map]
    exact length_select_index keyedTable compiled indexed _
  · rw [← rows]
    exact ⟨_, (Backend.perform_tally known read checked).trans
      (perform_count compiled connected filter)⟩
  · refine ⟨_, ((Backend.perform_remove known read checked).trans
      (perform_delete compiled connected filter)).trans (by rw [← rows]), ?_⟩
    change (between.data.database.put _).rows schema = _
    rw [for_model, ← named, Database.rows_put_delete, same]

end Relational

end RecordStore
