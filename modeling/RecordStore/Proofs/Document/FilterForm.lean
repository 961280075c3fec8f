/-
Module: RecordStore.Proofs.Document.FilterForm
Purpose: What the filter of a query says.  A query is written clause by clause, one key for each,
  and the bound of a recency window beside what stands at the time of creation.  As long as no
  equality is with what looks like operators and the window stands beside no test that either of
  them would replace, the filter means what the query accepts, so that queries with one filter
  accept the same records.
Main exports: Plan.Clear, Document.Query.filterAccepts_window,
  Document.Query.accepts_eq_filterAccepts, Document.filter_determines_accepted
-/
import RecordStore.Proofs.Document.Notation
import RecordStore.Proofs.Query.Entries

namespace RecordStore

/-! ### Writing a clause -/

namespace Document

/-- A matcher that is read back from how it is written: no equality with `null` or with what
looks like operators. -/
def Matcher.Legible : Matcher → Prop
  | .eq operand => operand ≠ .null ∧ ∀ members, operand = .obj members → isOperators members = false
  | .ne operand => operand ≠ .null
  | .like source pattern => Pattern.parse? source = some pattern
  | _ => True

/-- A legible matcher, as it is written, asks for what it accepts. -/
theorem Matcher.entryAccepts_rendered {matcher : Matcher} (legible : matcher.Legible)
    (actual : Option Json) : entryAccepts matcher.rendered actual = matcher.accepts actual := by
  cases matcher with
  | eq operand =>
      obtain ⟨filled, literal⟩ := legible
      cases operand with
      | null => exact absurd rfl filled
      | obj members => simp only [rendered, entryAccepts, literal members rfl]; rfl
      | _ => rfl
  | ne operand =>
      have filled : operand.isNull = false := by
        cases operand with
        | null => exact absurd rfl legible
        | _ => rfl
      simp [rendered, entryAccepts, isOperators, Mark.ofWord?, Mark.asks, filled]
  | isNotNull =>
      cases actual <;>
        simp [rendered, entryAccepts, isOperators, Mark.ofWord?, Mark.asks, Json.isNull, accepts,
          Json.bool?]
  | oneOf operands =>
      simp [rendered, entryAccepts, isOperators, Mark.ofWord?, Mark.asks, Json.arr?]
  | like source pattern =>
      have parsed : Pattern.parse? source = some pattern := legible
      simp [rendered, entryAccepts, isOperators, Mark.ofWord?, Mark.asks, Json.str?, parsed]
  | isNull => rfl
  | _ => simp [rendered, entryAccepts, isOperators, Mark.ofWord?, Mark.asks]

/-- A matcher that is not written bare is written as operators, `$gt` only where it is one. -/
theorem Matcher.exists_operators {matcher : Matcher} (operators : matcher.isBare = false)
    (other : ∀ bound, matcher ≠ .gt bound) :
    ∃ members, matcher.rendered = .obj members ∧ isOperators members ∧
      "$gt" ∉ Object.keys members := by
  cases matcher with
  | eq operand => cases operators
  | isNull => cases operators
  | gt bound => exact absurd rfl (other bound)
  | _ => exact ⟨_, rfl, rfl, by simp [Object.keys]⟩

/-- The entry of a filter that a clause is written as. -/
def Clause.entry (clause : Clause) : String × Json := (clause.field.raw, clause.matcher.rendered)

/-- A clause whose key is a path to its field, and whose matcher is read back. -/
def Clause.Legible (clause : Clause) : Prop :=
  FieldPath.parse clause.field.raw = .ok clause.field ∧ clause.matcher.Legible

/-- A legible clause, as it is written alone, accepts the records that meet it. -/
theorem Clause.filterAccepts_entry {clause : Clause} (legible : clause.Legible)
    (record : Object) :
    filterAccepts [clause.entry] record =
      clause.matcher.accepts (record.lookup? clause.field) := by
  simp only [filterAccepts, entry, List.all_cons, List.all_nil, Bool.and_true, legible.1,
    Matcher.entryAccepts_rendered legible.2]

theorem filterAccepts_append (filter more record : Object) :
    filterAccepts (filter ++ more) record =
      (filterAccepts filter record && filterAccepts more record) :=
  List.all_append

/-- A clause on a key that is not there is written behind the others. -/
theorem Query.renderClause_of_fresh {filter : Object} {clause : Clause}
    (fresh : clause.field.raw ∉ filter.keys) :
    renderClause filter clause = filter ++ [clause.entry] := by
  have absent := Object.get?_eq_none_iff.mpr fresh
  have appended := Object.insert_of_not_mem fresh clause.matcher.rendered
  simp only [renderClause, absent, appended, ite_self]
  rfl

/-- Clauses on keys of their own are written one behind the other. -/
theorem Query.foldl_renderClause {filter : Object} {clauses : List Clause}
    (fresh : ∀ clause ∈ clauses, clause.field.raw ∉ filter.keys)
    (apart : (clauses.map (·.field.raw)).Nodup) :
    clauses.foldl renderClause filter = filter ++ clauses.map Clause.entry := by
  induction clauses generalizing filter with
  | nil => exact (List.append_nil filter).symm
  | cons first rest ih =>
      obtain ⟨once, others⟩ := List.nodup_cons.mp apart
      obtain ⟨here, later⟩ := List.forall_mem_cons.mp fresh
      have still : ∀ clause ∈ rest, clause.field.raw ∉ Object.keys (filter ++ [first.entry]) := by
        intro clause listed
        have apart : clause.field.raw ≠ first.field.raw := fun same =>
          once (List.mem_map.mpr ⟨clause, listed, same⟩)
        simpa [Object.keys, Clause.entry, apart] using later clause listed
      rw [List.foldl_cons, renderClause_of_fresh here, ih still others, List.append_assoc]
      rfl

/-- Operators that stand together ask for what each asks. -/
theorem entryAccepts_beside {existing : Object} (operators : isOperators existing) (bound : Json)
    (actual : Option Json) :
    entryAccepts (.obj (existing ++ [("$gt", bound)])) actual =
      (entryAccepts (.obj existing) actual && (Matcher.gt bound).accepts actual) := by
  have both : isOperators (existing ++ [("$gt", bound)]) := by
    simp only [isOperators, List.all_append, Bool.and_eq_true] at operators ⊢
    exact ⟨by simp, operators.2, rfl⟩
  simp only [entryAccepts, operators, both, if_true, List.all_append, List.all_cons, List.all_nil,
    Mark.ofWord?, Option.any_some, Mark.asks, Bool.and_true]

/-- A bound from below is written beside the operators that stand at its key, if it is not one of
them, and is asked for besides. -/
theorem Query.filterAccepts_renderClause_gt {filter existing : Object} {path : FieldPath}
    (parsed : FieldPath.parse path.raw = .ok path)
    (found : filter.get? path.raw = some (.obj existing)) (operators : isOperators existing)
    (free : "$gt" ∉ existing.keys) (bound : Json) (record : Object) :
    filterAccepts (renderClause filter ⟨path, .gt bound⟩) record =
      (filterAccepts filter record && (Matcher.gt bound).accepts (record.lookup? path)) := by
  obtain ⟨earlier, later, rfl, fresh⟩ := Object.exists_split found
  have beside : existing.overlay [("$gt", bound)] = existing ++ [("$gt", bound)] :=
    Object.insert_of_not_mem free bound
  have written : renderClause (earlier ++ (path.raw, .obj existing) :: later) ⟨path, .gt bound⟩ =
      earlier ++ (path.raw, .obj (existing ++ [("$gt", bound)])) :: later := by
    simp only [renderClause, Matcher.isBare, Matcher.rendered, found, beside,
      Object.insert_split fresh]
    rfl
  rw [written]
  simp only [filterAccepts, List.all_append, List.all_cons, parsed,
    entryAccepts_beside operators]
  ac_rfl

/-! ### Keys of what is written -/

theorem insert_distinct {members : Object} {value : Json}
    (distinct : (Json.obj members).KeysDistinct) (once : value.KeysDistinct) (key : String) :
    (Json.obj (members.insert key value)).KeysDistinct := by
  have keys := Object.nodup_keys_insert distinct.nodup key value
  refine .obj keys fun member listed => ?_
  have found := Object.get?_of_mem keys listed
  by_cases same : member.1 = key
  · rw [same, Object.get?_insert_self, Option.some.injEq] at found
    exact found ▸ once
  · rw [Object.get?_insert_of_ne _ _ same] at found
    exact distinct.member found

theorem overlay_distinct {existing more : Object} (distinct : (Json.obj existing).KeysDistinct)
    (each : ∀ member ∈ more, member.2.KeysDistinct) :
    (Json.obj (existing.overlay more)).KeysDistinct := by
  induction more generalizing existing with
  | nil => exact distinct
  | cons member rest ih =>
      obtain ⟨here, later⟩ := List.forall_mem_cons.mp each
      exact ih (insert_distinct distinct here member.1) later

/-- Writing a clause that repeats no key into a filter that repeats none. -/
theorem Query.renderClause_distinct {filter : Object} (distinct : (Json.obj filter).KeysDistinct)
    {clause : Clause} (once : clause.matcher.rendered.KeysDistinct) :
    (Json.obj (renderClause filter clause)).KeysDistinct := by
  dsimp only [renderClause]
  split
  · exact insert_distinct distinct once _
  · split
    · next existing more found rendered =>
        rw [rendered] at once
        refine insert_distinct distinct (overlay_distinct (distinct.member found) ?_) _
        exact fun member listed => once.member (Object.get?_of_mem once.nodup listed)
    · exact insert_distinct distinct once _

theorem Query.foldl_renderClause_distinct {clauses : List Clause} {filter : Object}
    (distinct : (Json.obj filter).KeysDistinct)
    (once : ∀ clause ∈ clauses, clause.matcher.rendered.KeysDistinct) :
    (Json.obj (clauses.foldl renderClause filter)).KeysDistinct := by
  induction clauses generalizing filter with
  | nil => exact distinct
  | cons first rest ih =>
      obtain ⟨here, later⟩ := List.forall_mem_cons.mp once
      exact ih (renderClause_distinct distinct here) later

/-! ### Writing a query -/

namespace Query

variable {clauses : List Clause}

/-- Legible clauses, written one behind the other, accept the records that meet them all. -/
theorem filterAccepts_entries (legible : ∀ clause ∈ clauses, clause.Legible) (record : Object) :
    filterAccepts (clauses.map Clause.entry) record =
      clauses.all fun clause => clause.matcher.accepts (record.lookup? clause.field) := by
  induction clauses with
  | nil => rfl
  | cons first rest ih =>
      obtain ⟨here, later⟩ := List.forall_mem_cons.mp legible
      rw [List.map_cons, List.all_cons, ← ih later, ← Clause.filterAccepts_entry here,
        ← filterAccepts_append]
      rfl

theorem parse_createdAt : FieldPath.parse createdAtField = .ok (.field createdAtField) := by rfl

/-- The bound of a recency window is added to what the clauses ask for, when the clause on the time
of creation, if there is one, is written as other operators. -/
theorem filterAccepts_window (apart : (clauses.map (·.field.raw)).Nodup)
    (shared : ∀ clause ∈ clauses, clause.field.raw = createdAtField →
      clause.matcher.isBare = false ∧ ∀ bound, clause.matcher ≠ .gt bound)
    (now : Instant) (scope : Scope) (record : Object) :
    filterAccepts (renderClause (clauses.map Clause.entry) (Clause.ofScope now scope)) record =
      (filterAccepts (clauses.map Clause.entry) record &&
        (Clause.ofScope now scope).matcher.accepts
          (record.lookup? (Clause.ofScope now scope).field)) := by
  have keys : Object.keys (clauses.map Clause.entry) = clauses.map (·.field.raw) :=
    List.map_map
  by_cases fresh : createdAtField ∉ clauses.map (·.field.raw)
  · have legible : (Clause.ofScope now scope).Legible := ⟨parse_createdAt, trivial⟩
    rw [renderClause_of_fresh (keys ▸ fresh), filterAccepts_append,
      Clause.filterAccepts_entry legible]
  · obtain ⟨clause, listed, named⟩ := List.mem_map.mp (not_not.mp fresh)
    obtain ⟨operators, other⟩ := shared clause listed named
    obtain ⟨existing, written, marks, free⟩ := Matcher.exists_operators operators other
    have member : (createdAtField, .obj existing) ∈ clauses.map Clause.entry :=
      List.mem_map.mpr ⟨clause, listed, by rw [Clause.entry, named, written]⟩
    have found := Object.get?_of_mem (keys ▸ apart) member
    exact filterAccepts_renderClause_gt parse_createdAt found marks free _ record

end Query

end Document

/-! ### Queries of conditions -/

namespace Test

variable {key : String} {value : Json} {test : Test}

/-- The values that a test compares with. -/
def operands : Test → List Json
  | .eq operand => [operand]
  | .ne operand => [operand]
  | .lt operand => [operand]
  | .gt operand => [operand]
  | .le operand => [operand]
  | .ge operand => [operand]
  | .oneOf operands => operands
  | _ => []

/-- A test that compares with `null` asks whether there is a value. -/
def NullFree (test : Test) : Prop := test ≠ .eq .null ∧ test ≠ .ne .null

theorem ofOperand_reads {operator : Operator} {operand : Json}
    (read : ofOperand key operator operand = .ok test) :
    test.NullFree ∧ ∀ listed ∈ test.operands, listed = operand := by
  cases operator with
  | eq =>
      cases null : meansNull operand with
      | true =>
          rw [ofOperand, null] at read
          cases read
          exact ⟨⟨nofun, nofun⟩, nofun⟩
      | false =>
          rw [ofOperand, null] at read
          cases read
          refine ⟨⟨?_, nofun⟩, by simp [operands]⟩
          rintro ⟨⟩
          cases null
  | ne =>
      cases null : meansNull operand with
      | true =>
          rw [ofOperand, null] at read
          cases read
          exact ⟨⟨nofun, nofun⟩, nofun⟩
      | false =>
          rw [ofOperand, null] at read
          cases read
          refine ⟨⟨nofun, ?_⟩, by simp [operands]⟩
          rintro ⟨⟩
          cases null
  | like =>
      cases operand with
      | str pattern =>
          cases read
          exact ⟨⟨nofun, nofun⟩, nofun⟩
      | _ => cases read
  | oneOf =>
      cases read
      exact ⟨⟨nofun, nofun⟩, by simp [operands]⟩
  | _ =>
      cases ordered : isOrdered operand with
      | true =>
          rw [ofOperand, ordered] at read
          cases read
          exact ⟨⟨nofun, nofun⟩, by simp [operands]⟩
      | false =>
          rw [ofOperand, ordered] at read
          cases read

/-- The operands of a tuple are compared with, or the elements of a list that stands alone. -/
theorem ofOperands_reads {operator : Operator} {given : List Json}
    (read : ofOperands key operator given = .ok test) :
    test.NullFree ∧ ∀ operand ∈ test.operands,
      operand ∈ given ∨ ∃ listed, .arr listed ∈ given ∧ operand ∈ listed := by
  unfold ofOperands at read
  split at read
  · split at read
    · cases read
      exact ⟨⟨nofun, nofun⟩, fun operand inside => .inr ⟨_, List.mem_singleton_self _, inside⟩⟩
    · cases read
      exact ⟨⟨nofun, nofun⟩, fun operand inside => .inl inside⟩
  · split at read
    · obtain ⟨free, single⟩ := ofOperand_reads read
      refine ⟨free, fun operand inside => .inl ?_⟩
      rw [single operand inside]
      exact List.mem_singleton_self _
    · cases read

/-- A condition value tests for `null` in no other way than by its absence, and compares with
values that repeat no key if it repeats none. -/
theorem ofValue_reads (read : ofValue key value = .ok test) :
    test.NullFree ∧ (value.KeysDistinct → ∀ operand ∈ test.operands, operand.KeysDistinct) := by
  unfold ofValue at read
  split at read
  · next word given =>
    split at read
    · cases read
    · obtain ⟨free, inside⟩ := ofOperands_reads read
      refine ⟨free, fun distinct operand listed => ?_⟩
      have within {item : Json} (member : item ∈ given) : item.KeysDistinct := by
        obtain ⟨i, found⟩ := List.mem_iff_getElem?.mp (List.mem_cons_of_mem _ member)
        exact distinct.item found
      rcases inside operand listed with given | ⟨items, given, member⟩
      · exact within given
      · obtain ⟨i, found⟩ := List.mem_iff_getElem?.mp member
        exact (within given).item found
  · cases read
    exact ⟨⟨nofun, nofun⟩, fun _ => nofun⟩
  · next filled =>
      cases read
      refine ⟨⟨?_, nofun⟩, fun distinct => by simpa [operands] using distinct⟩
      rintro ⟨⟩
      exact filled rfl

end Test

namespace Document

/-- The matcher of a pattern holds it with its source. -/
theorem Matcher.ofTest_like {source : String} {matcher : Matcher}
    (read : ofTest (.like source) = .ok matcher) :
    ∃ pattern, Pattern.parse? source = some pattern ∧ matcher = .like source pattern := by
  cases parsed : Pattern.parse? source with
  | none =>
      rw [ofTest, parsed] at read
      cases read
  | some pattern =>
      rw [ofTest, parsed] at read
      cases read
      exact ⟨pattern, rfl, rfl⟩

/-- A test that is not about `null` by an operand, nor compares with what looks like operators, is
read back from how it is written. -/
theorem Matcher.legible_of_ofTest {test : Test} {matcher : Matcher}
    (read : ofTest test = .ok matcher) (free : test.NullFree)
    (literal : ∀ members, test = .eq (.obj members) → isOperators members = false) :
    matcher.Legible := by
  cases test with
  | eq operand =>
      cases read
      exact ⟨fun null => free.1 (null ▸ rfl), fun members same => literal members (same ▸ rfl)⟩
  | ne operand =>
      cases read
      exact fun null => free.2 (null ▸ rfl)
  | like source =>
      obtain ⟨pattern, parsed, rfl⟩ := ofTest_like read
      exact parsed
  | _ =>
      cases read
      trivial

/-- What is written of operands that repeat no key repeats none. -/
theorem Matcher.rendered_distinct {test : Test} {matcher : Matcher}
    (read : ofTest test = .ok matcher)
    (distinct : ∀ operand ∈ test.operands, operand.KeysDistinct) :
    matcher.rendered.KeysDistinct := by
  have single {word : String} {operand : Json} (below : operand.KeysDistinct) :
      (Json.obj [(word, operand)]).KeysDistinct :=
    .obj (List.nodup_singleton _) (List.forall_mem_singleton.mpr below)
  cases test with
  | eq operand =>
      cases read
      exact distinct operand (List.mem_singleton_self _)
  | isNull =>
      cases read
      exact .leaf fun _ => rfl
  | isNotNull =>
      cases read
      exact .obj (by decide) (by simpa using ⟨.leaf fun _ => rfl, .leaf fun _ => rfl⟩)
  | oneOf operands =>
      cases read
      exact single (.arr distinct)
  | like source =>
      obtain ⟨pattern, -, rfl⟩ := ofTest_like read
      exact single (.leaf fun _ => rfl)
  | _ =>
      cases read
      exact single (distinct _ (List.mem_singleton_self _))

/-- A path is kept with the text it was read from. -/
theorem raw_of_parse {raw : String} {path : FieldPath} (parsed : FieldPath.parse raw = .ok path) :
    path.raw = raw := by
  unfold FieldPath.parse at parsed
  split at parsed
  · cases parsed
    rfl
  · cases parsed

/-- The clause of a test is on its path, with its matcher. -/
theorem Clause.ofPredicate_eq_ok_iff {test : Predicate} {clause : Clause} :
    ofPredicate test = .ok clause ↔
      Matcher.ofTest test.test = .ok clause.matcher ∧ clause.field = test.field := by
  obtain ⟨field, matcher⟩ := clause
  rw [ofPredicate, map_eq_ok_iff]
  constructor
  · rintro ⟨matcher, read, ⟨⟩⟩
    exact ⟨read, rfl⟩
  · rintro ⟨read, rfl⟩
    exact ⟨matcher, read, rfl⟩

end Document

/-- The clause of an entry is on its key, is read back from how it is written, and repeats no key
if the entry does not. -/
theorem Document.Clause.of_entry {key : String} {value : Json} {test : Predicate} {clause : Clause}
    (read : Plan.predicate key value = .ok test) (matched : Clause.ofPredicate test = .ok clause)
    (distinct : value.KeysDistinct)
    (literal : ∀ members, test.test = .eq (.obj members) → isOperators members = false) :
    clause.field.raw = key ∧ clause.Legible ∧ clause.matcher.rendered.KeysDistinct := by
  obtain ⟨parsed, wanted⟩ := Plan.predicate_eq_ok_iff.mp read
  obtain ⟨matcher, same⟩ := Clause.ofPredicate_eq_ok_iff.mp matched
  obtain ⟨free, operands⟩ := Test.ofValue_reads wanted
  have raw := raw_of_parse parsed
  rw [Clause.Legible, same, raw]
  exact ⟨rfl, ⟨parsed, Matcher.legible_of_ofTest matcher free literal⟩,
    Matcher.rendered_distinct matcher (operands distinct)⟩

/-- Tests that are written as operators, and not as a bound from below. -/
def Test.JoinsWindow : Test → Prop
  | .eq _ => False
  | .isNull => False
  | .gt _ => False
  | _ => True

theorem Document.Matcher.joins_of_ofTest {test : Test} {matcher : Matcher}
    (read : ofTest test = .ok matcher) (joins : test.JoinsWindow) :
    matcher.isBare = false ∧ ∀ bound, matcher ≠ .gt bound := by
  cases test with
  | eq operand => exact joins.elim
  | isNull => exact joins.elim
  | gt operand => exact joins.elim
  | like source =>
      obtain ⟨pattern, -, rfl⟩ := ofTest_like read
      exact ⟨rfl, nofun⟩
  | _ =>
      cases read
      exact ⟨rfl, nofun⟩

/-- A plan that its filter tells from others: no equality is with what looks like operators, and a
recency window stands beside no test of the time of creation that either of them would replace. -/
structure Plan.Clear (plan : Plan) : Prop where
  literal : ∀ test ∈ plan.filter, ∀ members, test.test = .eq (.obj members) →
    Document.isOperators members = false
  window : plan.scope ≠ none → ∀ test ∈ plan.filter, test.field.raw = createdAtField →
    test.test.JoinsWindow

namespace Plan

variable {condition : Option Condition} {options : SelectOptions} {plan : Plan}

/-- The tests of a condition are those of entries under different keys. -/
theorem exists_entries (distinct : ∀ whole, condition = some whole → whole.keys.Nodup)
    (read : ofCondition condition options = .ok plan) :
    ∃ entries : Condition, entries.keys.Nodup ∧
      List.Forall₂ (fun entry test => (∃ whole, condition = some whole ∧ entry ∈ whole) ∧
        predicate entry.1 entry.2 = .ok test) entries plan.filter := by
  cases condition with
  | none =>
      cases read
      exact ⟨[], .nil, .nil⟩
  | some whole =>
      cases looked : indexOf? whole with
      | some key =>
          rw [ofCondition, looked] at read
          cases read
          exact ⟨[], .nil, .nil⟩
      | none =>
          obtain ⟨readable, rfl⟩ := (ofCondition_eq_ok_iff (distinct whole rfl) looked).mp read
          refine ⟨whole.filter (·.1 ∉ configuringKeys), ?_,
            (List.forall₂_and_left _ _).mpr ⟨?_, ?_⟩⟩
          · exact (List.filter_sublist.map Prod.fst).nodup (distinct whole rfl)
          · exact fun entry listed => ⟨whole, rfl, (List.mem_filter.mp listed).1⟩
          · exact forall₂_tests readable

end Plan

namespace Document

variable {condition : Option Condition} {options : SelectOptions} {plan : Plan} {now : Instant}
  {query : Query}

/-- The clauses of a clear plan that was read from a condition without repeated keys are on keys of
their own and legible, and those on the time of creation are written beside its window. -/
theorem Query.exists_clauses
    (distinct : ∀ whole, condition = some whole → (Json.obj whole).KeysDistinct)
    (read : Plan.ofCondition condition options = .ok plan) (clear : plan.Clear)
    (compiled : compile plan now = .ok query) :
    ∃ clauses : List Clause,
      query.clauses = clauses ++ (plan.scope.map (Clause.ofScope now)).toList ∧
      (clauses.map (·.field.raw)).Nodup ∧
      ∀ clause ∈ clauses, clause.Legible ∧ clause.matcher.rendered.KeysDistinct ∧
        (plan.scope ≠ none → clause.field.raw = createdAtField →
          clause.matcher.isBare = false ∧ ∀ bound, clause.matcher ≠ .gt bound) := by
  obtain ⟨entries, apart, tests⟩ :=
    Plan.exists_entries (fun whole given => (distinct whole given).nodup) read
  obtain ⟨clauses, matchers, rfl⟩ := compile_eq_ok.mp compiled
  have own : List.Forall₂ (fun test clause => test ∈ plan.filter ∧
      Clause.ofPredicate test = .ok clause) plan.filter clauses :=
    (List.forall₂_and_left _ _).mpr ⟨fun _ inside => inside, matchers⟩
  have pairs : List.Forall₂ (fun entry clause => entry.1 = clause.field.raw ∧
      clause.Legible ∧ clause.matcher.rendered.KeysDistinct ∧
        (plan.scope ≠ none → clause.field.raw = createdAtField →
          clause.matcher.isBare = false ∧ ∀ bound, clause.matcher ≠ .gt bound))
      entries clauses := by
    refine forall₂_trans (fun entry test clause first second => ?_) tests own
    obtain ⟨⟨whole, given, inside⟩, predicted⟩ := first
    obtain ⟨tested, matched⟩ := second
    have member := Object.get?_of_mem (distinct whole given).nodup inside
    obtain ⟨raw, legible, once⟩ := Clause.of_entry predicted matched
      ((distinct whole given).member member) (clear.literal test tested)
    obtain ⟨matcher, same⟩ := Clause.ofPredicate_eq_ok_iff.mp matched
    refine ⟨raw.symm, legible, once, fun windowed named => ?_⟩
    exact Matcher.joins_of_ofTest matcher (clear.window windowed test tested (same ▸ named))
  refine ⟨clauses, rfl, ?_, forall_of_forall₂ (fun _ _ pair => pair.2) pairs⟩
  have keys : entries.keys = clauses.map (·.field.raw) :=
    map_eq_map_iff_forall₂.mpr (pairs.imp fun _ _ pair => pair.1)
  exact keys ▸ apart

/-- The filter of a clear query says what the query accepts. -/
theorem Query.accepts_eq_filterAccepts
    (distinct : ∀ whole, condition = some whole → (Json.obj whole).KeysDistinct)
    (read : Plan.ofCondition condition options = .ok plan) (clear : plan.Clear)
    (compiled : compile plan now = .ok query) (record : Object) :
    query.accepts record = filterAccepts query.filterNotation record := by
  obtain ⟨clauses, all, apart, each⟩ := exists_clauses distinct read clear compiled
  have entries : clauses.foldl renderClause [] = [] ++ clauses.map Clause.entry :=
    foldl_renderClause (fun _ _ => List.not_mem_nil) apart
  have met := filterAccepts_entries (fun clause listed => (each clause listed).1) record
  rw [accepts, filterNotation, all, List.foldl_append, entries, List.nil_append, List.all_append,
    ← met]
  cases window : plan.scope with
  | none => simp
  | some scope =>
      have windowed : plan.scope ≠ none := by
        rw [window]
        exact Option.some_ne_none scope
      have shared := fun clause listed => (each clause listed).2.2 windowed
      have added := filterAccepts_window apart shared now scope record
      simpa using added.symm

/-- The filter of a query repeats no key. -/
theorem Query.filterNotation_distinct
    (distinct : ∀ whole, condition = some whole → (Json.obj whole).KeysDistinct)
    (read : Plan.ofCondition condition options = .ok plan) (clear : plan.Clear)
    (compiled : compile plan now = .ok query) :
    (Json.obj query.filterNotation).KeysDistinct := by
  obtain ⟨clauses, all, -, each⟩ := exists_clauses distinct read clear compiled
  refine foldl_renderClause_distinct (.leaf fun segment => by cases segment <;> rfl) ?_
  rw [all, List.forall_mem_append]
  refine ⟨fun clause listed => (each clause listed).2.1, fun clause listed => ?_⟩
  obtain ⟨scope, -, rfl⟩ := Option.map_eq_some_iff.mp (Option.mem_toList.mp listed)
  exact .obj (List.nodup_singleton _) (List.forall_mem_singleton.mpr (.leaf fun _ => rfl))

section Determined

variable {condition' : Option Condition} {options' : SelectOptions} {plan' : Plan} {now' : Instant}
  {query' : Query}

/-- Queries of clear plans with one filter, whatever the order of its keys, accept the same
records. -/
theorem filter_determines_accepted
    (distinct : ∀ whole, condition = some whole → (Json.obj whole).KeysDistinct)
    (distinct' : ∀ whole, condition' = some whole → (Json.obj whole).KeysDistinct)
    (read : Plan.ofCondition condition options = .ok plan)
    (read' : Plan.ofCondition condition' options' = .ok plan')
    (compiled : Query.compile plan now = .ok query)
    (compiled' : Query.compile plan' now' = .ok query') (clear : plan.Clear) (clear' : plan'.Clear)
    (equal : (Json.obj query.filterNotation).same (.obj query'.filterNotation)) {record : Object}
    (stored : (Json.obj record).KeysDistinct) :
    query.accepts record = query'.accepts record := by
  have left := Query.filterNotation_distinct distinct read clear compiled
  have right := Query.filterNotation_distinct distinct' read' clear' compiled'
  calc query.accepts record
      = filterAccepts query.filterNotation record :=
        Query.accepts_eq_filterAccepts distinct read clear compiled record
    _ = filterAccepts query'.filterNotation record := filterAccepts_congr left right equal stored
    _ = query'.accepts record :=
        (Query.accepts_eq_filterAccepts distinct' read' clear' compiled' record).symm

end Determined

/-- An upper bound on the time of creation beside the window, and a literal object, in two orders
of the entries. -/
theorem filter_determines_accepted_window :
    let condition : Condition := [("createdAt", .arr [.str "<", .str "2024-05-31T00:00:00Z"]),
      ("tag", .obj [("k", .int 1)]), ("scope", .str "week")]
    let now : Instant := ⟨1717200000, 0⟩
    let record : Object := [("createdAt", .str "2024-05-30T10:00:00.000Z"),
      ("tag", .obj [("k", .int 1)])]
    ∃ plan plan' query query', (Json.obj condition).KeysDistinct ∧
      (Json.obj condition.reverse).KeysDistinct ∧
      Plan.ofCondition (some condition) .plain = .ok plan ∧
      Plan.ofCondition (some condition.reverse) .plain = .ok plan' ∧
      Query.compile plan now = .ok query ∧ Query.compile plan' now = .ok query' ∧
      plan.Clear ∧ plan'.Clear ∧
      (Json.obj query.filterNotation).same (.obj query'.filterNotation) ∧
      (Json.obj record).KeysDistinct ∧ query.accepts record = true ∧
      query.accepts record = query'.accepts record := by
  intro condition now record
  have text {text : String} : (Json.str text).KeysDistinct := .leaf fun _ => rfl
  have tag : (Json.obj [("k", .int 1)]).KeysDistinct :=
    .obj (List.nodup_singleton _) (List.forall_mem_singleton.mpr (.leaf fun _ => rfl))
  have bound : (Json.arr [.str "<", .str "2024-05-31T00:00:00Z"]).KeysDistinct :=
    .arr (by simpa using ⟨text, text⟩)
  have distinct : (Json.obj condition).KeysDistinct :=
    .obj (by decide) (by simpa [condition] using ⟨bound, tag, text⟩)
  have distinct' : (Json.obj condition.reverse).KeysDistinct :=
    .obj (by decide) (by simpa [condition] using ⟨text, tag, bound⟩)
  have stored : (Json.obj record).KeysDistinct :=
    .obj (by decide) (by simpa [record] using ⟨text, tag⟩)
  -- the tests are one upper bound and one equality, in either order
  have clear {plan : Plan} (tests : plan.filter ⊆
      [⟨.field createdAtField, .lt (.str "2024-05-31T00:00:00Z")⟩,
        ⟨.field "tag", .eq (.obj [("k", .int 1)])⟩]) : plan.Clear := by
    constructor
    · intro test listed members same
      have either := tests listed
      simp only [List.mem_cons, List.not_mem_nil, or_false] at either
      rcases either with rfl | rfl
      · cases same
      · cases same
        rfl
    · intro _ test listed named
      have either := tests listed
      simp only [List.mem_cons, List.not_mem_nil, or_false] at either
      rcases either with rfl | rfl
      · trivial
      · exact absurd named (by decide)
  obtain ⟨plan, read⟩ : ∃ plan, Plan.ofCondition (some condition) .plain = .ok plan :=
    ⟨_, by rfl⟩
  obtain ⟨plan', read'⟩ : ∃ plan, Plan.ofCondition (some condition.reverse) .plain = .ok plan :=
    ⟨_, by rfl⟩
  have first : plan.Clear := clear (by cases read; exact List.Subset.refl _)
  have second : plan'.Clear := clear (by cases read'; exact (List.Perm.swap _ _ _).subset)
  obtain ⟨query, compiled⟩ : ∃ query, Query.compile plan now = .ok query := by
    cases read
    exact ⟨_, by rfl⟩
  obtain ⟨query', compiled'⟩ : ∃ query, Query.compile plan' now = .ok query := by
    cases read'
    exact ⟨_, by rfl⟩
  have equal : (Json.obj query.filterNotation).same (.obj query'.filterNotation) := by
    cases read
    cases read'
    cases compiled
    cases compiled'
    decide +kernel
  have accepted : query.accepts record = true := by
    cases read
    cases compiled
    decide +kernel
  exact ⟨plan, plan', query, query', distinct, distinct', read, read', compiled, compiled', first,
    second, equal, stored, accepted,
    filter_determines_accepted (fun whole given => by cases given; exact distinct)
      (fun whole given => by cases given; exact distinct') read read' compiled compiled' first
      second equal stored⟩

/-- A window hides an equality on the time of creation, and an equality with an object that looks
like an operator is written like the operator: in both cases two queries of one filter accept
different records. -/
theorem filter_hides_clause :
    let now : Instant := ⟨1717200000, 0⟩
    let hides (condition condition' : Condition) (record : Object) : Prop :=
      ∃ plan plan' query query', Plan.ofCondition (some condition) .plain = .ok plan ∧
        Plan.ofCondition (some condition') .plain = .ok plan' ∧
        Query.compile plan now = .ok query ∧ Query.compile plan' now = .ok query' ∧
        query.filterNotation = query'.filterNotation ∧
        query.accepts record = false ∧ query'.accepts record = true
    hides [("createdAt", .arr [.str "==", .str "2024-05-30T10:00:00.000Z"]),
        ("scope", .str "week")] [("scope", .str "week")]
        [("createdAt", .str "2024-05-31T10:00:00.000Z")] ∧
      hides [("age", .obj [("$gt", .int 10)])] [("age", .arr [.str ">", .int 10])]
        [("age", .int 11)] := by
  intro now hides
  constructor
  · exact ⟨_, _, _, _, rfl, rfl, rfl, rfl, by rfl, by decide +kernel, by decide +kernel⟩
  · exact ⟨_, _, _, _, rfl, rfl, rfl, rfl, by rfl, by decide +kernel, by decide +kernel⟩

end Document

end RecordStore
