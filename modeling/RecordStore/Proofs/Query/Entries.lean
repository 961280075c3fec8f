/-
Module: RecordStore.Proofs.Query.Entries
Purpose: A condition as a set of entries.  Whether an entry can be read does not depend on the
  others, and neither does what it adds to a plan: an entry under a configuring key fills the
  place of that key, every other one adds a test behind those that stand before it.  So a
  condition is read when each of its entries is, and another order of the entries gives the same
  plan with its tests in another order.  Documents meet a plan when they meet each of its tests,
  hence one more test is met by no more documents.  A key that is looked up hides everything
  else.
Main exports: Plan.assembled, Plan.readEntry_cases, Plan.readEntries_eq_ok_iff,
  Document.Query.compile_eq_ok, Document.Query.accepts_iff, condition_read_by_entries
-/
import RecordStore.Document.Query
import RecordStore.Proofs.Json.Members
import RecordStore.Proofs.Query.FieldNames

namespace RecordStore

namespace Plan

variable {condition other : Condition} {options : SelectOptions} {start plan next : Plan}

/-! ### What entries make of a plan -/

/-- The test that an entry adds, if it adds one. -/
def testOf? (entry : String × Json) : Option Predicate :=
  if entry.1 ∈ configuringKeys then none else (predicate entry.1 entry.2).toOption

/-- What is read under a configuring key, and what stood there before if the key is absent. -/
def configured (condition : Condition) (key : String) (read : Json → Except PlanError α)
    (before : α) : α :=
  ((condition.get? key).bind fun value => (read value).toOption).getD before

/-- A plan with the tests and the configuration of some entries put into it. -/
def assembled (start : Plan) (condition : Condition) : Plan :=
  { start with
    filter := start.filter ++ condition.filterMap testOf?
    scope := configured condition scopeKey window start.scope
    order := configured condition orderKey sortKeys start.order
    offset := configured condition offsetKey (count offsetKey) start.offset
    limit := configured condition limitKey (count limitKey) start.limit }

/-- An entry that some plan can be read into. -/
def Readable (entry : String × Json) : Prop :=
  ∃ start next, readEntry start entry.1 entry.2 = .ok next

theorem configured_cons (entry : String × Json) {rest : Condition} (fresh : entry.1 ∉ rest.keys)
    (key : String) (read : Json → Except PlanError α) (before : α) :
    configured (entry :: rest) key read before =
      configured rest key read (configured [entry] key read before) := by
  by_cases same : entry.1 = key
  · subst same
    have absent := Object.get?_eq_none_iff.mpr fresh
    simp [configured, Object.get?, absent]
  · simp [configured, Object.get?, same]

/-- Entries are put into a plan one after the other. -/
theorem assembled_cons (start : Plan) (entry : String × Json) {rest : Condition}
    (fresh : entry.1 ∉ rest.keys) :
    assembled start (entry :: rest) = assembled (assembled start [entry]) rest := by
  have tests : (entry :: rest).filterMap testOf? =
      [entry].filterMap testOf? ++ rest.filterMap testOf? :=
    List.filterMap_append (l := [entry])
  simp only [assembled, tests, List.append_assoc, configured_cons entry fresh]

/-- Entries in another order configure alike, and add the same tests in their own order. -/
theorem assembled_perm (same : other.Perm condition) (distinct : condition.keys.Nodup)
    (start : Plan) :
    assembled start other =
      { assembled start condition with
        filter := start.filter ++ other.filterMap testOf? } := by
  have found := Object.get?_eq_of_perm same.symm distinct
  simp only [assembled, configured, ← found]

/-! ### Reading entries -/

/-- An entry that fills one place of a plan is refused by every plan, or put into every
plan. -/
theorem readEntry_cases_of_map {key : String} {value : Json} {answer : Except PlanError α}
    {put : Plan → α → Plan} (reads : ∀ start, readEntry start key value = answer.map (put start))
    (puts : ∀ found, answer = .ok found →
      ∀ start, put start found = assembled start [(key, value)]) :
    (∀ start, ∃ error, readEntry start key value = .error error) ∨
      ∀ start, readEntry start key value = .ok (assembled start [(key, value)]) := by
  cases answer with
  | error error => exact .inl fun start => ⟨error, reads start⟩
  | ok found =>
      right
      intro start
      rw [reads start, ← puts found rfl start]
      rfl

/-- An entry is refused by every plan, or put into every plan. -/
theorem readEntry_cases (key : String) (value : Json) :
    (∀ start, ∃ error, readEntry start key value = .error error) ∨
      ∀ start, readEntry start key value = .ok (assembled start [(key, value)]) := by
  by_cases free : key ∉ configuringKeys
  · refine readEntry_cases_of_map (readEntry_of_free free · value) fun test answer start => ?_
    have apart : ∀ other ∈ configuringKeys, key ≠ other := by
      rintro other configures rfl
      exact free configures
    simp only [configuringKeys, List.forall_mem_cons] at apart
    simp [assembled, configured, Object.get?, testOf?, answer, apart, free, Except.toOption]
  · simp only [configuringKeys, List.mem_cons, List.not_mem_nil, or_false, not_not] at free
    rcases free with rfl | rfl | rfl | rfl | rfl
    · exact .inr fun start => by
        simp +decide [readEntry, assembled, configured, Object.get?, testOf?]
    all_goals
      refine readEntry_cases_of_map (fun _ => rfl) fun found answer start => ?_
      simp +decide [assembled, configured, Object.get?, testOf?, answer, Except.toOption]

theorem readEntry_eq_ok_iff {key : String} {value : Json} :
    readEntry start key value = .ok next ↔
      Readable (key, value) ∧ next = assembled start [(key, value)] := by
  rcases readEntry_cases key value with refused | put
  · constructor
    · intro read
      obtain ⟨error, failed⟩ := refused start
      cases failed.symm.trans read
    · rintro ⟨⟨other, last, read⟩, -⟩
      obtain ⟨error, failed⟩ := refused other
      cases failed.symm.trans read
  · rw [put start, Except.ok.injEq, eq_comm]
    exact (and_iff_right ⟨start, _, put start⟩).symm

/-- Entries under distinct keys are read when each is, and are all put into the plan. -/
theorem readEntries_eq_ok_iff (distinct : condition.keys.Nodup) :
    readEntries start condition = .ok plan ↔
      (∀ entry ∈ condition, Readable entry) ∧ plan = assembled start condition := by
  induction condition generalizing start with
  | nil => simp [readEntries, assembled, configured, Object.get?, eq_comm]
  | cons entry rest ih =>
      obtain ⟨fresh, later⟩ := List.nodup_cons.mp distinct
      rw [List.forall_mem_cons, assembled_cons start entry fresh, and_assoc, ← ih later]
      obtain ⟨key, value⟩ := entry
      cases first : readEntry start key value with
      | error error =>
          have unread : ¬ Readable (key, value) := fun readable => by
            cases first.symm.trans (readEntry_eq_ok_iff.mpr ⟨readable, rfl⟩)
          simp [readEntries, first, unread]
      | ok next =>
          obtain ⟨readable, rfl⟩ := readEntry_eq_ok_iff.mp first
          simp [readEntries, first, readable]

/-! ### Conditions -/

/-- A condition that looks no key up has entries that do not either. -/
theorem indexOf?_single (distinct : condition.keys.Nodup) (unindexed : indexOf? condition = none)
    {entry : String × Json} (member : entry ∈ condition) : indexOf? [entry] = none := by
  by_cases index : entry.1 = indexKey
  · have found := Object.get?_of_mem distinct member
    rw [index] at found
    simpa [indexOf?, Object.get?, index, found] using unindexed
  · exact indexOf?_eq_none (List.forall_mem_singleton.mpr index)

theorem indexOf?_perm (same : other.Perm condition) (distinct : condition.keys.Nodup) :
    indexOf? other = indexOf? condition := by
  rw [indexOf?, indexOf?, Object.get?_eq_of_perm same.symm distinct]

/-- An entry is read on its own when it can be read into any plan. -/
theorem exists_ofCondition_single_iff {entry : String × Json}
    (unindexed : indexOf? [entry] = none) (options : SelectOptions) :
    (∃ plan, ofCondition (some [entry]) options = .ok plan) ↔ Readable entry := by
  rw [ofCondition_single_eq unindexed]
  simp [readEntry_eq_ok_iff]

theorem ofCondition_eq_ok_iff (distinct : condition.keys.Nodup)
    (unindexed : indexOf? condition = none) :
    ofCondition (some condition) options = .ok plan ↔
      (∀ entry ∈ condition, Readable entry) ∧ plan = assembled (everything options) condition := by
  rw [ofCondition, unindexed]
  exact readEntries_eq_ok_iff distinct

theorem predicate_eq_ok_iff {key : String} {value : Json} {test : Predicate} :
    predicate key value = .ok test ↔
      FieldPath.parse key = .ok test.field ∧ Test.ofValue key value = .ok test.test := by
  obtain ⟨path, wanted⟩ := test
  unfold predicate field
  cases FieldPath.parse key with
  | error error => simp
  | ok found =>
      cases Test.ofValue key value with
      | error error => simp [Except.map]
      | ok test => simp [Except.map]

/-- Entries that can be read add one test for each key that does not configure, in order. -/
theorem forall₂_tests {entries : Condition} (readable : ∀ entry ∈ entries, Readable entry) :
    List.Forall₂ (fun entry test => predicate entry.1 entry.2 = .ok test)
      (entries.filter (·.1 ∉ configuringKeys)) (entries.filterMap testOf?) := by
  induction entries with
  | nil => exact .nil
  | cons entry rest ih =>
      obtain ⟨⟨start, next, read⟩, later⟩ := List.forall_mem_cons.mp readable
      by_cases free : entry.1 ∉ configuringKeys
      · rw [readEntry_of_free free] at read
        obtain ⟨test, found, -⟩ := map_eq_ok_iff.mp read
        have added : testOf? entry = some test := by
          rw [testOf?, if_neg free, found]
          rfl
        rw [List.filter_cons_of_pos (by simpa using free), List.filterMap_cons_some added]
        exact .cons found (ih later)
      · have silent : testOf? entry = none := if_pos (not_not.mp free)
        rw [List.filter_cons_of_neg (by simpa using free), List.filterMap_cons_none silent]
        exact ih later

/-- One more entry that does not configure the query is one more test, wherever it stands. -/
theorem added_test {whole : Condition} {entry : String × Json} (distinct : condition.keys.Nodup)
    (unindexed : indexOf? condition = none) (free : entry.1 ∉ configuringKeys)
    (fresh : entry.1 ∉ condition.keys) (added : whole.Perm (entry :: condition))
    (read : ofCondition (some whole) options = .ok plan) :
    ∃ test, predicate entry.1 entry.2 = .ok test ∧
      plan.filter.Perm (test :: (assembled (everything options) condition).filter) ∧
      plan.scope = (assembled (everything options) condition).scope := by
  have apart : Object.keys (entry :: condition) |>.Nodup := List.nodup_cons.mpr ⟨fresh, distinct⟩
  have unlooked : indexOf? whole = none := by
    have other : entry.1 ≠ indexKey := fun same => free (same ▸ List.mem_cons_self)
    rw [indexOf?_perm added apart, indexOf?, Object.get?_cons_of_ne other]
    exact unindexed
  rw [ofCondition_eq_ok_iff ((added.map Prod.fst).nodup_iff.mpr apart) unlooked] at read
  obtain ⟨readable, rfl⟩ := read
  obtain ⟨start, next, put⟩ := readable entry (added.mem_iff.mpr List.mem_cons_self)
  rw [readEntry_of_free free] at put
  obtain ⟨test, found, -⟩ := map_eq_ok_iff.mp put
  have adds : testOf? entry = some test := by
    rw [testOf?, if_neg free, found]
    rfl
  refine ⟨test, found, ?_, ?_⟩
  · have tests := added.filterMap testOf?
    rw [List.filterMap_cons_some adds] at tests
    exact tests
  · have unscoped : entry.1 ≠ scopeKey := fun same => free (same ▸ by decide)
    rw [assembled_perm added apart]
    simp only [assembled, configured, Object.get?_cons_of_ne unscoped]

end Plan

namespace Document

variable {plan : Plan} {now : Instant} {query : Query}

/-- A plan is compiled when each of its tests is. -/
theorem Query.compile_eq_ok : Query.compile plan now = .ok query ↔
    ∃ clauses, List.Forall₂ (fun test clause => Clause.ofPredicate test = .ok clause)
        plan.filter clauses ∧
      query = ⟨clauses ++ (plan.scope.map (Clause.ofScope now)).toList, plan.order, plan.offset,
        plan.limit⟩ := by
  unfold Query.compile
  rw [map_eq_ok_iff]
  simp only [eq_comm (b := query), mapM_eq_ok_iff, map_eq_map_iff_forall₂]

theorem Query.exists_compile_iff (plan : Plan) (now : Instant) :
    (∃ query, Query.compile plan now = .ok query) ↔
      ∀ test ∈ plan.filter, ∃ clause, Clause.ofPredicate test = .ok clause := by
  rw [← exists_mapM_iff]
  simp [Query.compile, map_eq_ok_iff]

/-- A document meets a clause. -/
def Clause.Meets (clause : Clause) (record : Object) : Prop :=
  clause.matcher.accepts (record.lookup? clause.field)

theorem forall_clauses_iff {tests : List Predicate} {clauses : List Clause}
    (read : List.Forall₂ (fun test clause => Clause.ofPredicate test = .ok clause) tests clauses)
    (holds : Clause → Prop) :
    (∀ clause ∈ clauses, holds clause) ↔
      ∀ test ∈ tests, ∀ clause, Clause.ofPredicate test = .ok clause → holds clause := by
  induction read with
  | nil => simp
  | cons first _ ih => simp [first, ih]

/-- A query accepts the documents that meet each test of its plan, and its window. -/
theorem Query.accepts_iff (compiled : Query.compile plan now = .ok query) (record : Object) :
    query.accepts record ↔
      (∀ test ∈ plan.filter, ∀ clause, Clause.ofPredicate test = .ok clause →
        clause.Meets record) ∧
      ∀ scope, plan.scope = some scope → (Clause.ofScope now scope).Meets record := by
  obtain ⟨clauses, read, rfl⟩ := Query.compile_eq_ok.mp compiled
  rw [← forall_clauses_iff read]
  simp only [Query.accepts, List.all_append, Bool.and_eq_true, List.all_eq_true, Option.mem_toList,
    Option.map_eq_some_iff, forall_exists_index, and_imp, forall_apply_eq_imp_iff₂, Clause.Meets]

/-- Of a plan with one more test the same documents are accepted that meet it. -/
theorem Query.accepts_of_added {further : Plan} {test : Predicate} {narrow : Query}
    (added : further.filter.Perm (test :: plan.filter)) (alike : further.scope = plan.scope)
    (compiled : Query.compile further now = .ok narrow) :
    ∃ clause query, Clause.ofPredicate test = .ok clause ∧ Query.compile plan now = .ok query ∧
      ∀ record, narrow.accepts record ↔ clause.Meets record ∧ query.accepts record := by
  have tests := (Query.exists_compile_iff further now).mp ⟨narrow, compiled⟩
  simp only [added.mem_iff, List.forall_mem_cons] at tests
  obtain ⟨⟨clause, read⟩, others⟩ := tests
  obtain ⟨query, planned⟩ := (Query.exists_compile_iff plan now).mpr others
  refine ⟨clause, query, read, planned, fun record => ?_⟩
  rw [Query.accepts_iff compiled, Query.accepts_iff planned, alike]
  simp only [added.mem_iff, List.forall_mem_cons, read, Except.ok.injEq, forall_eq', and_assoc]

end Document

/-- A condition is read entry by entry.  If it looks a key up, the plan is that of the key,
whatever the other entries are.  Otherwise it is read exactly when each entry is read on its own;
the plan has one test for each key that does not configure the query, in the order of the keys,
on the path that is read from the key, and none for any other key; another order of the entries
gives the same plan but for the order of its tests; and of the documents a query of the plan
accepts, one more test leaves those that meet it. -/
theorem condition_read_by_entries {condition : Condition} (distinct : condition.keys.Nodup)
    (options : SelectOptions) :
    (∀ key, Plan.indexOf? condition = some key →
      Plan.ofCondition (some condition) options =
        .ok { Plan.everything options with index := some key, filter := [] }) ∧
    (Plan.indexOf? condition = none →
      ((∃ plan, Plan.ofCondition (some condition) options = .ok plan) ↔
        ∀ entry ∈ condition, ∃ plan, Plan.ofCondition (some [entry]) options = .ok plan) ∧
      ∀ plan, Plan.ofCondition (some condition) options = .ok plan →
        List.Forall₂
          (fun entry test => FieldPath.parse entry.1 = .ok test.field ∧
            Test.ofValue entry.1 entry.2 = .ok test.test)
          (condition.filter fun entry => entry.1 ∉ Plan.configuringKeys) plan.filter ∧
        (∀ other : Condition, other.Perm condition → ∃ filter, filter.Perm plan.filter ∧
          Plan.ofCondition (some other) options = .ok { plan with filter := filter }) ∧
        ∀ (entry : String × Json) (whole : Condition) further narrow now,
          entry.1 ∉ Plan.configuringKeys → entry.1 ∉ condition.keys →
          whole.Perm (entry :: condition) →
          Plan.ofCondition (some whole) options = .ok further →
          Document.Query.compile further now = .ok narrow →
          ∃ test clause query, Plan.predicate entry.1 entry.2 = .ok test ∧
            Document.Clause.ofPredicate test = .ok clause ∧
            Document.Query.compile plan now = .ok query ∧
            ∀ record, narrow.accepts record ↔ clause.Meets record ∧ query.accepts record) := by
  refine ⟨fun key indexed => ?_, fun unindexed => ⟨?_, fun plan read => ⟨?_, ?_, ?_⟩⟩⟩
  · rw [Plan.ofCondition, indexed]
    rfl
  · simp only [Plan.ofCondition_eq_ok_iff distinct unindexed, exists_and_left, exists_eq, and_true]
    refine forall₂_congr fun entry member => ?_
    rw [Plan.exists_ofCondition_single_iff (Plan.indexOf?_single distinct unindexed member)]
  · obtain ⟨readable, rfl⟩ := (Plan.ofCondition_eq_ok_iff distinct unindexed).mp read
    have tests := Plan.forall₂_tests readable
    simp only [Plan.predicate_eq_ok_iff] at tests
    exact tests
  · intro other same
    obtain ⟨readable, rfl⟩ := (Plan.ofCondition_eq_ok_iff distinct unindexed).mp read
    refine ⟨other.filterMap Plan.testOf?, same.filterMap _, ?_⟩
    have apart : other.keys.Nodup := (same.map Prod.fst).nodup_iff.mpr distinct
    rw [Plan.ofCondition_eq_ok_iff apart ((Plan.indexOf?_perm same distinct).trans unindexed),
      Plan.assembled_perm same distinct]
    exact ⟨fun entry member => readable entry (same.mem_iff.mp member), rfl⟩
  · intro entry whole further narrow now free fresh added reread compiled
    obtain ⟨-, rfl⟩ := (Plan.ofCondition_eq_ok_iff distinct unindexed).mp read
    obtain ⟨test, read, tests, alike⟩ := Plan.added_test distinct unindexed free fresh added reread
    obtain ⟨clause, query, found, planned, accepted⟩ :=
      Document.Query.accepts_of_added tests alike compiled
    exact ⟨test, clause, query, read, found, planned, accepted⟩

/-- A page of grown-ups of one town: the entries may stand in any order, and the town, put in
front, narrows what is accepted.  A key hides an entry with an unknown comparison. -/
theorem condition_read_by_entries_paged :
    let condition : Condition := [("limit", .str "5"), ("age", .arr [.str ">", .int 17]),
      ("order_by", .str "age")]
    let town : String × Json := ("city", .str "Paris")
    let keyed : Condition := [("age", .arr [.str "~", .int 17]), ("_index", .str "u")]
    condition.keys.Nodup ∧ keyed.keys.Nodup ∧
      Plan.ofCondition (some keyed) .plain =
        .ok { Plan.everything .plain with index := some (.str "u"), filter := [] } ∧
      (∀ entry ∈ condition, ∃ plan, Plan.ofCondition (some [entry]) .plain = .ok plan) ∧
      ∃ plan filter further narrow clause query,
        Plan.ofCondition (some condition) .plain = .ok plan ∧
        filter.Perm plan.filter ∧
        Plan.ofCondition (some condition.reverse) .plain = .ok { plan with filter := filter } ∧
        Plan.ofCondition (some (town :: condition)) .plain = .ok further ∧
        Document.Query.compile further ⟨0, 0⟩ = .ok narrow ∧
        Document.Query.compile plan ⟨0, 0⟩ = .ok query ∧
        ∀ record, narrow.accepts record ↔
          Document.Clause.Meets clause record ∧ query.accepts record := by
  intro condition town keyed
  have distinct : condition.keys.Nodup := by decide
  have apart : keyed.keys.Nodup := by decide
  obtain ⟨single, whole⟩ := (condition_read_by_entries distinct .plain).2 (by rfl)
  have planned : ∃ plan, Plan.ofCondition (some condition) .plain = .ok plan := ⟨_, by rfl⟩
  obtain ⟨plan, read⟩ := planned
  obtain ⟨-, ordered, narrowed⟩ := whole plan read
  obtain ⟨filter, same, reversed⟩ := ordered condition.reverse condition.reverse_perm
  have widened : ∃ further, Plan.ofCondition (some (town :: condition)) .plain = .ok further :=
    ⟨_, by rfl⟩
  obtain ⟨further, reread⟩ := widened
  have compiles : ∃ narrow, Document.Query.compile further ⟨0, 0⟩ = .ok narrow := by
    cases reread
    exact ⟨_, by rfl⟩
  obtain ⟨narrow, compiled⟩ := compiles
  obtain ⟨_, clause, query, -, -, found, accepted⟩ := narrowed town (town :: condition) further
    narrow ⟨0, 0⟩ (by decide) (by decide) (.refl _) reread compiled
  exact ⟨distinct, apart, (condition_read_by_entries apart .plain).1 (.str "u") (by rfl),
    single.mp ⟨plan, read⟩, plan, filter, further, narrow, clause, query, read, same, reversed,
    reread, compiled, found, accepted⟩

end RecordStore
