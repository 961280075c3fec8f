/-
Module: RecordStore.Proofs.Relational.Binding
Purpose: Which values a statement binds.  A clause is compared with what it stands for, the
  words, names and values of the statement in their order: it must have a hole where a value
  stands, and its parameters must be these values.  Quotes and question marks occur in no
  fixed words, so the question marks outside quotes are the holes.  Only membership in an
  empty list, tested on a place inside a column, binds a value without a hole.
Main exports: Clause.placeholders, Clause.ofSpelled, Clause.Binds, statements_bind,
  membership_binds_without_hole
-/
import RecordStore.Proofs.Relational.Matching

namespace RecordStore

/-! ### Placeholders in a text -/

/-- The question marks of a text outside double quotes. -/
def questionMarks : Bool → List Char → Nat
  | _, [] => 0
  | quoted, c :: rest =>
    if c = '\x22' then questionMarks (!quoted) rest
    else (if c = '?' ∧ quoted = false then 1 else 0) + questionMarks quoted rest

/-- Fixed words without quotes and question marks. -/
def PlainWords (text : String) : Prop := '\x22' ∉ text.toList ∧ '?' ∉ text.toList

instance (text : String) : Decidable (PlainWords text) := inferInstanceAs (Decidable (_ ∧ _))

theorem PlainWords.append {first second : String} (plain : PlainWords first)
    (later : PlainWords second) : PlainWords (first ++ second) := by
  simp only [PlainWords, String.toList_append, List.mem_append, not_or]
  exact ⟨⟨plain.1, later.1⟩, plain.2, later.2⟩

/-- Characters that are neither quotes nor question marks do not count. -/
theorem questionMarks_append {chars : List Char} (quotes : '\x22' ∉ chars) (marks : '?' ∉ chars)
    (quoted : Bool) (rest : List Char) :
    questionMarks quoted (chars ++ rest) = questionMarks quoted rest := by
  induction chars with
  | nil => rfl
  | cons c chars ih =>
      rw [List.mem_cons, not_or] at quotes marks
      rw [List.cons_append, questionMarks, if_neg (Ne.symm quotes.1),
        if_neg fun mark => marks.1 mark.1.symm, Nat.zero_add]
      exact ih quotes.2 marks.2

/-- The quote that is doubled inside a quoted name ends and begins a quoted part. -/
theorem questionMarks_doubleQuotes (chars rest : List Char) :
    questionMarks true (doubleQuotes chars ++ rest) = questionMarks true rest := by
  induction chars with
  | nil => rfl
  | cons c chars ih =>
      by_cases quote : c = '\x22'
      · simpa [doubleQuotes, quote, questionMarks] using ih
      · simpa [doubleQuotes, quote, questionMarks] using ih

/-- The characters of an identifier in front of a text. -/
theorem toList_quoteIdentifier_append (name : String) (rest : List Char) :
    (quoteIdentifier name).toList ++ rest =
      '\x22' :: (doubleQuotes name.toList ++ '\x22' :: rest) := by
  simp [quoteIdentifier]

/-- No question mark of an identifier stands outside its quotes. -/
theorem questionMarks_quoteIdentifier (name : String) (rest : List Char) :
    questionMarks false ((quoteIdentifier name).toList ++ rest) = questionMarks false rest := by
  rw [toList_quoteIdentifier_append, questionMarks, if_pos rfl, Bool.not_false, questionMarks_doubleQuotes,
    questionMarks, if_pos rfl, Bool.not_true]

namespace Clause

/-- The placeholders in the text of a clause. -/
def placeholders (clause : Clause) : Nat := questionMarks false clause.text.toList

/-- A clause whose fixed words have no quotes and no question marks. -/
def Plain (clause : Clause) : Prop := ∀ text, .words text ∈ clause.pieces → PlainWords text

/-- The placeholders in the text of a clause are its holes. -/
theorem Plain.placeholders_eq {clause : Clause} (plain : clause.Plain) :
    clause.placeholders = clause.holes := by
  obtain ⟨pieces, params⟩ := clause
  unfold placeholders text holes
  rw [String.toList_join]
  dsimp only at plain ⊢
  induction pieces with
  | nil => rfl
  | cons piece rest ih =>
      have later := ih fun text member => plain text (List.mem_cons_of_mem _ member)
      rw [List.map_cons, List.flatMap_cons, List.count_cons, ← later]
      cases piece with
      | words text =>
          obtain ⟨quotes, marks⟩ := plain text List.mem_cons_self
          exact questionMarks_append quotes marks false _
      | name identifier => exact questionMarks_quoteIdentifier identifier _
      | hole => exact Nat.add_comm 1 _

theorem plain_words (text : String) (plain : PlainWords text) : (words text).Plain := by
  intro other member
  obtain rfl : other = text := by simpa [words] using member
  exact plain

theorem plain_name (identifier : String) : (name identifier).Plain := by
  simp [Plain, name]

theorem plain_bound (value : SqlValue) : (bound value).Plain := by
  simp [Plain, bound]

theorem Plain.append {first second : Clause} (plain : first.Plain) (later : second.Plain) :
    (first ++ second).Plain := by
  intro text member
  exact (List.mem_append.mp member).elim (plain text) (later text)

theorem Plain.joined {separator : String} (between : PlainWords separator) {parts : List Clause}
    (plain : ∀ part ∈ parts, part.Plain) : (joined separator parts).Plain := by
  induction parts with
  | nil => exact fun text member => nomatch member
  | cons part rest ih =>
      have first := plain part List.mem_cons_self
      have later := ih fun other member => plain other (List.mem_cons_of_mem _ member)
      cases rest with
      | nil => exact first
      | cons next others => exact (first.append (plain_words _ between)).append later

end Clause

/-! ### What a clause stands for -/

/-- A part of a statement with its values in their places. -/
inductive Spelled where
  | words (text : String)
  | name (identifier : String)
  | value (stored : SqlValue)
deriving Repr

namespace Spelled

/-- The piece of text of a part: values have holes. -/
def piece : Spelled → Piece
  | .words text => .words text
  | .name identifier => .name identifier
  | .value _ => .hole

/-- The value of a part. -/
def value? : Spelled → Option SqlValue
  | .value stored => some stored
  | _ => none

end Spelled

namespace Clause

/-- The clause of a statement part: a hole in place of each value, and the values in order. -/
def ofSpelled (spelled : List Spelled) : Clause :=
  ⟨spelled.map Spelled.piece, spelled.filterMap Spelled.value?⟩

theorem ofSpelled_append (first second : List Spelled) :
    ofSpelled (first ++ second) = ofSpelled first ++ ofSpelled second := by
  change _ = append _ _
  simp only [ofSpelled, append, List.map_append, List.filterMap_append]

theorem ofSpelled_intercalate (separator : String) (parts : List (List Spelled)) :
    ofSpelled (List.intercalate [.words separator] parts) =
      joined separator (parts.map ofSpelled) := by
  induction parts with
  | nil => rfl
  | cons part rest ih =>
      cases rest with
      | nil => simp [List.intercalate, joined]
      | cons next others =>
          rw [List.intercalate_cons_cons, ofSpelled_append, ofSpelled_append, ih]
          rfl

/-- As many holes as values. -/
theorem holes_ofSpelled (spelled : List Spelled) :
    (ofSpelled spelled).holes = (ofSpelled spelled).params.length := by
  induction spelled with
  | nil => rfl
  | cons part rest ih =>
      cases part with
      | words text => exact ih
      | name identifier => exact ih
      | value stored =>
          change List.count _ (Piece.hole :: _) = _
          rw [List.count_cons_self]
          exact congrArg (· + 1) ih

/-- A clause stands for a statement part: its holes are in the places of the values, its
parameters are the values in order, and its text has one placeholder for each parameter. -/
structure Binds (clause : Clause) (spelled : List Spelled) : Prop where
  places : clause.pieces = spelled.map Spelled.piece
  values : clause.params = spelled.filterMap Spelled.value?
  counted : clause.placeholders = clause.params.length

theorem binds_iff {clause : Clause} (plain : clause.Plain) (spelled : List Spelled) :
    clause.Binds spelled ↔ clause = ofSpelled spelled := by
  constructor
  · rintro ⟨places, values, -⟩
    obtain ⟨pieces, params⟩ := clause
    cases places
    cases values
    rfl
  · intro same
    refine ⟨by rw [same]; rfl, by rw [same]; rfl, ?_⟩
    rw [plain.placeholders_eq, same, holes_ofSpelled]

/-! ### Values without a hole -/

/-- A clause with a number of values for which it has no hole. -/
def Excess (clause : Clause) (number : Nat) : Prop :=
  clause.params.length = clause.holes + number

theorem Excess.append {first second : Clause} {m n : Nat} (excess : first.Excess m)
    (later : second.Excess n) : (first ++ second).Excess (m + n) := by
  have holes : (first ++ second).holes = first.holes + second.holes := List.count_append
  have params : (first ++ second).params.length = first.params.length + second.params.length :=
    List.length_append
  unfold Excess at *
  omega

theorem excess_ofSpelled (spelled : List Spelled) : (ofSpelled spelled).Excess 0 :=
  (holes_ofSpelled spelled).symm

end Clause

/-- What a term stands for. -/
def Term.spelled : Term → List Spelled
  | .column found => [.name found.name]
  | .inner found steps =>
    [.words "json_extract(", .name found.name, .words ", ", .value (.text (pathText steps)),
      .words ")"]

/-- The values of a list, with commas. -/
def spelledList (values : List SqlValue) : List Spelled :=
  List.intercalate [.words ", "] (values.map fun value => [Spelled.value value])

namespace RowTest

/-- What a test stands for: the term, then the operands of its operator. -/
def spelled : RowTest → List Spelled
  | .compare term comparison operand =>
    term.spelled ++ [.words (" " ++ comparison.symbol ++ " "), .value operand]
  | .isNull term => term.spelled ++ [.words " IS NULL"]
  | .isNotNull term => term.spelled ++ [.words " IS NOT NULL"]
  | .hasElement negated term operand =>
    .words ((if negated then "NOT " else "") ++ "EXISTS (SELECT 1 FROM json_each(") ::
      (term.spelled ++ [.words ") WHERE value = ", .value operand, .words ")"])
  | .hasElementIn term operands =>
    .words "EXISTS (SELECT 1 FROM json_each(" ::
      (term.spelled ++ .words ") WHERE value IN (" :: (spelledList operands ++ [.words "))"]))
  | .oneOf term operands =>
    term.spelled ++ .words " IN (" :: (spelledList operands ++ [.words ")"])
  | .like term pattern => term.spelled ++ [.words " LIKE ", .value (.text pattern)]
  | .never _ => [.words "0 = 1"]
  | .createdWithin days =>
    [.words "julianday('now') - julianday(", .name createdAtField, .words ") < ",
      .value (.int days)]

/-- The values a test binds without a hole. -/
def excess : RowTest → Nat
  | .never (.inner _ _) => 1
  | _ => 0

end RowTest

namespace RowQuery

/-- What the filter stands for. -/
def spelledFilter (query : RowQuery) : List Spelled :=
  if query.tests.isEmpty then []
  else .words " WHERE " :: List.intercalate [.words " AND "] (query.tests.map RowTest.spelled)

/-- What the order stands for. -/
def spelledOrder (query : RowQuery) : List Spelled :=
  if query.order.isEmpty then []
  else .words " ORDER BY " :: List.intercalate [.words ", "]
    (query.order.map fun key => key.1.spelled ++ [.words (" " ++ key.2.keyword)])

/-- What a count stands for. -/
def spelledCount (n : Nat) : Spelled := .value (.int (min (n : Int) maxInt64))

/-- What the page stands for. -/
def spelledPage (query : RowQuery) : List Spelled :=
  match query.page with
  | .all => []
  | .after offset => [.words " LIMIT -1 OFFSET ", spelledCount offset]
  | .window limit offset =>
    [.words " LIMIT ", spelledCount limit, .words " OFFSET ", spelledCount offset]

end RowQuery

/-! ### Terms and tests -/

theorem Term.clause_eq (term : Term) : term.clause = .ofSpelled term.spelled := by
  cases term with
  | column found => rfl
  | inner found steps => rfl

theorem Term.plain_clause (term : Term) : term.clause.Plain := by
  cases term with
  | column found => exact Clause.plain_name _
  | inner found steps =>
      have called := (Clause.plain_words "json_extract(" (by decide)).append
        (Clause.plain_name found.name)
      have comma := called.append (Clause.plain_words ", " (by decide))
      have path := comma.append (Clause.plain_bound (.text (pathText steps)))
      exact path.append (Clause.plain_words _ (by decide))

theorem boundList_eq (values : List SqlValue) :
    boundList values = .ofSpelled (spelledList values) := by
  rw [spelledList, Clause.ofSpelled_intercalate, List.map_map]
  rfl

theorem plain_boundList (values : List SqlValue) : (boundList values).Plain := by
  refine Clause.Plain.joined (by decide) fun part member => ?_
  obtain ⟨value, -, rfl⟩ := List.mem_map.mp member
  exact Clause.plain_bound value

theorem Comparison.plain_symbol (comparison : Comparison) :
    PlainWords (" " ++ comparison.symbol ++ " ") := by
  cases comparison <;> decide

namespace RowTest

theorem plain_clause (test : RowTest) : test.clause.Plain := by
  cases test with
  | compare term comparison operand =>
      exact (term.plain_clause.append (Clause.plain_words _ comparison.plain_symbol)).append
        (Clause.plain_bound operand)
  | isNull term => exact term.plain_clause.append (Clause.plain_words _ (by decide))
  | isNotNull term => exact term.plain_clause.append (Clause.plain_words _ (by decide))
  | hasElement negated term operand =>
      have exist : PlainWords
          ((if negated then "NOT " else "") ++ "EXISTS (SELECT 1 FROM json_each(") := by
        cases negated <;> decide
      have listed := (Clause.plain_words _ exist).append term.plain_clause
      have asked := listed.append (Clause.plain_words ") WHERE value = " (by decide))
      exact (asked.append (Clause.plain_bound operand)).append (Clause.plain_words _ (by decide))
  | hasElementIn term operands =>
      have listed := (Clause.plain_words "EXISTS (SELECT 1 FROM json_each("
        (by decide)).append term.plain_clause
      have asked := listed.append (Clause.plain_words ") WHERE value IN (" (by decide))
      exact (asked.append (plain_boundList operands)).append (Clause.plain_words _ (by decide))
  | oneOf term operands =>
      have asked := term.plain_clause.append (Clause.plain_words " IN (" (by decide))
      exact (asked.append (plain_boundList operands)).append (Clause.plain_words _ (by decide))
  | like term pattern =>
      exact (term.plain_clause.append (Clause.plain_words _ (by decide))).append
        (Clause.plain_bound _)
  | never term => exact Clause.plain_words _ (by decide)
  | createdWithin days =>
      have since := (Clause.plain_words "julianday('now') - julianday("
        (by decide)).append (Clause.plain_name createdAtField)
      exact (since.append (Clause.plain_words _ (by decide))).append (Clause.plain_bound _)

/-- A test stands for what it should unless it binds a value without a hole. -/
theorem clause_eq {test : RowTest} (fitting : test.excess = 0) :
    test.clause = .ofSpelled test.spelled := by
  have words (text : String) : Clause.words text = .ofSpelled [.words text] := rfl
  have name (identifier : String) : Clause.name identifier = .ofSpelled [.name identifier] := rfl
  have bound (value : SqlValue) : Clause.bound value = .ofSpelled [.value value] := rfl
  cases test with
  | never term =>
      cases term with
      | column found => rfl
      | inner found steps => cases fitting
  | _ =>
      simp only [clause, spelled, Term.clause_eq, boundList_eq, words, name, bound,
        ← Clause.ofSpelled_append, List.append_assoc, List.cons_append, List.nil_append]

/-- The values a test binds without a hole. -/
theorem excess_clause (test : RowTest) : test.clause.Excess test.excess := by
  by_cases fitting : test.excess = 0
  · rw [clause_eq fitting, fitting]
    exact Clause.excess_ofSpelled _
  · cases test with
    | never term =>
        cases term with
        | column found => exact absurd rfl fitting
        | inner found steps => rfl
    | _ => exact absurd rfl fitting

end RowTest

/-! ### Filter, order and page -/

/-- The values that tests bind without a hole add up. -/
theorem RowTest.excess_joined (separator : String) (tests : List RowTest) :
    (Clause.joined separator (tests.map RowTest.clause)).Excess
      (tests.map RowTest.excess).sum := by
  induction tests with
  | nil => rfl
  | cons test rest ih =>
      cases rest with
      | nil => simpa [Clause.joined] using test.excess_clause
      | cons next others =>
          have between := test.excess_clause.append
            (Clause.excess_ofSpelled [.words separator])
          exact between.append ih

namespace RowQuery

/-- The values a filter binds without a hole. -/
def excess (query : RowQuery) : Nat := (query.tests.map RowTest.excess).sum

theorem plain_whereClause (query : RowQuery) : query.whereClause.Plain := by
  unfold whereClause
  split
  · exact fun text member => nomatch member
  · refine (Clause.plain_words _ (by decide)).append (.joined (by decide) fun part member => ?_)
    obtain ⟨test, -, rfl⟩ := List.mem_map.mp member
    exact test.plain_clause

theorem plain_orderClause (query : RowQuery) : query.orderClause.Plain := by
  unfold orderClause
  split
  · exact fun text member => nomatch member
  · refine (Clause.plain_words _ (by decide)).append (.joined (by decide) fun part member => ?_)
    obtain ⟨key, -, rfl⟩ := List.mem_map.mp member
    have keyword : PlainWords (" " ++ key.2.keyword) := by cases key.2 <;> decide
    exact key.1.plain_clause.append (Clause.plain_words _ keyword)

theorem plain_limitClause (query : RowQuery) : query.limitClause.Plain := by
  unfold limitClause
  cases query.page with
  | all => exact fun text member => nomatch member
  | after offset => exact (Clause.plain_words _ (by decide)).append (Clause.plain_bound _)
  | window limit offset =>
      have limited := (Clause.plain_words " LIMIT " (by decide)).append
        (Clause.plain_bound (.int (min (limit : Int) maxInt64)))
      exact (limited.append (Clause.plain_words _ (by decide))).append (Clause.plain_bound _)

theorem excess_whereClause (query : RowQuery) : query.whereClause.Excess query.excess := by
  unfold whereClause excess
  split
  · rename_i empty
    rw [List.isEmpty_iff.mp empty]
    rfl
  · have all := (Clause.excess_ofSpelled [.words " WHERE "]).append
      (RowTest.excess_joined " AND " query.tests)
    rw [Nat.zero_add] at all
    exact all

/-- The filter stands for what it should unless a test binds a value without a hole. -/
theorem whereClause_eq {query : RowQuery} (fitting : query.excess = 0) :
    query.whereClause = .ofSpelled query.spelledFilter := by
  have each : query.tests.map RowTest.clause =
      (query.tests.map RowTest.spelled).map Clause.ofSpelled := by
    rw [List.map_map]
    refine List.map_congr_left fun test member => RowTest.clause_eq ?_
    exact List.sum_eq_zero_iff_forall_eq_nat.mp fitting _ (List.mem_map_of_mem member)
  unfold whereClause spelledFilter
  split
  · rfl
  · rw [each, ← Clause.ofSpelled_intercalate]
    exact (Clause.ofSpelled_append [.words " WHERE "] _).symm

theorem orderClause_eq (query : RowQuery) :
    query.orderClause = .ofSpelled query.spelledOrder := by
  have each : query.order.map keyClause = (query.order.map fun key =>
      key.1.spelled ++ [Spelled.words (" " ++ key.2.keyword)]).map Clause.ofSpelled := by
    rw [List.map_map]
    refine List.map_congr_left fun key _ => ?_
    rw [keyClause, Term.clause_eq]
    exact (Clause.ofSpelled_append key.1.spelled [.words (" " ++ key.2.keyword)]).symm
  unfold orderClause spelledOrder
  split
  · rfl
  · rw [each, ← Clause.ofSpelled_intercalate]
    exact (Clause.ofSpelled_append [.words " ORDER BY "] _).symm

theorem limitClause_eq (query : RowQuery) :
    query.limitClause = .ofSpelled query.spelledPage := by
  unfold limitClause spelledPage
  cases query.page with
  | all => rfl
  | after offset => rfl
  | window limit offset => rfl

end RowQuery

/-! ### Plans -/

/-- Whether a place inside a field is asked to be in an empty list. -/
def Predicate.picksInsideNothing (predicate : Predicate) : Bool :=
  match predicate.test with
  | .oneOf [] => !predicate.field.isTopLevel
  | _ => false

/-- The values the filter of a plan binds without a hole: one for each place inside a field
that is asked to be in an empty list. -/
def Plan.excess (plan : Plan) : Nat :=
  match plan.index with
  | some _ => 0
  | none => plan.filter.countP Predicate.picksInsideNothing

/-- The term of a path looks at the column that bears the name of its root: at all of it if the
path is that of a field, at a place inside it otherwise. -/
theorem Term.ofPath_eq_ok {schema : Schema} {path : FieldPath} {term : Term}
    (read : Term.ofPath schema path = .ok term) :
    ∃ found, schema.tableColumns.find? (fun column => column.name == path.root) = some found ∧
      ((path.isTopLevel ∧ term = .column found) ∨
        ¬ path.isTopLevel ∧ ∃ steps, term = .inner found steps) := by
  unfold Term.ofPath at read
  split at read
  · cases read
  · rename_i found named
    refine ⟨found, named, ?_⟩
    split at read
    · rename_i top
      cases read
      exact .inl ⟨top, rfl⟩
    · rename_i inside
      split at read
      · cases read
      · cases steps : Term.innerSteps path path.segments.tail with
        | error fault =>
            rw [steps] at read
            cases read
        | ok steps' =>
            rw [steps] at read
            cases read
            exact .inr ⟨inside, steps', rfl⟩

namespace RowTest

theorem excess_ofEquality (negated isList : Bool) (term : Term) (operand : Json) :
    (ofEquality negated isList term operand).excess = 0 := by
  unfold ofEquality
  split
  · cases negated <;> rfl
  · split <;> rfl

theorem ofPredicate_eq_ok {schema : Schema} {predicate : Predicate} {test : RowTest}
    (read : ofPredicate schema predicate = .ok test) :
    ∃ term, Term.ofPath schema predicate.field = .ok term ∧
      test = ofTest (term.isList schema) term predicate.test := by
  unfold ofPredicate at read
  cases found : Term.ofPath schema predicate.field with
  | error fault =>
      rw [found] at read
      cases read
  | ok term =>
      rw [found] at read
      cases read
      exact ⟨term, rfl, rfl⟩

/-- Only membership in an empty list can bind a value without a hole. -/
theorem excess_ofPredicate {schema : Schema} {predicate : Predicate} {test : RowTest}
    (read : ofPredicate schema predicate = .ok test) :
    test.excess = if predicate.picksInsideNothing then 1 else 0 := by
  obtain ⟨term, found, rfl⟩ := ofPredicate_eq_ok read
  unfold ofTest Predicate.picksInsideNothing
  cases predicate.test with
  | eq operand => exact excess_ofEquality ..
  | ne operand => exact excess_ofEquality ..
  | oneOf operands =>
      cases operands with
      | nil =>
          obtain ⟨column, -, ⟨top, rfl⟩ | ⟨inside, steps, rfl⟩⟩ := Term.ofPath_eq_ok found
          · simp [ofMembership, excess, top]
          · simp [ofMembership, excess, inside]
      | cons first rest =>
          cases term.isList schema <;> rfl
  | _ => rfl

end RowTest

/-- The values a query binds without a hole are those of its plan. -/
theorem RowQuery.excess_compile {schema : Schema} {plan : Plan} {query : RowQuery}
    (compiled : RowQuery.compile schema plan = .ok query) : query.excess = plan.excess := by
  rcases Relational.compile_eq_ok compiled with
    ⟨key, index, rfl⟩ | ⟨index, tests, order, filter, -, rfl⟩
  · simp [RowQuery.excess, Plan.excess, index, RowTest.ofIndex, RowTest.excess]
  · have scope : ((plan.scope.map fun scope => RowTest.createdWithin scope.days).toList.map
        RowTest.excess).sum = 0 := by
      cases plan.scope <;> rfl
    simp only [RowQuery.excess, Plan.excess, index, List.map_append, List.sum_append, scope,
      Nat.add_zero]
    clear compiled index scope
    generalize plan.filter = predicates at filter
    induction filter with
    | nil => rfl
    | cons first _ ih =>
        rw [List.map_cons, List.sum_cons, ih, List.countP_cons,
          RowTest.excess_ofPredicate first, Nat.add_comm]

/-! ### Statements -/

/-- A clause that stands for what it should if it binds no value without a hole does so only
then. -/
theorem Clause.binds_iff_excess {clause : Clause} {number : Nat} {spelled : List Spelled}
    (plain : clause.Plain) (excess : clause.Excess number)
    (fits : number = 0 → clause = .ofSpelled spelled) : clause.Binds spelled ↔ number = 0 := by
  rw [binds_iff plain]
  refine ⟨fun same => ?_, fits⟩
  have balanced := holes_ofSpelled spelled
  rw [← same, excess] at balanced
  omega

/-- In every statement made from a plan the parameters belong to the placeholders one by one:
always in the order and the page, and in the filter, in filter, order and page together and
in the filter behind a term unless the plan asks a place inside a field to be in an empty
list.  For each such question there is one parameter too many. -/
theorem statements_bind {schema : Schema} {plan : Plan} {query : RowQuery}
    (compiled : RowQuery.compile schema plan = .ok query) :
    query.orderClause.Binds query.spelledOrder ∧
    query.limitClause.Binds query.spelledPage ∧
    query.whereClause.params.length = query.whereClause.placeholders + plan.excess ∧
    (query.whereClause.Binds query.spelledFilter ↔ plan.excess = 0) ∧
    (query.allClauses.Binds (query.spelledFilter ++ query.spelledOrder ++ query.spelledPage) ↔
      plan.excess = 0) ∧
    ∀ field term, Term.ofPath schema field = .ok term →
      ((term.clause ++ query.whereClause).Binds (term.spelled ++ query.spelledFilter) ↔
        plan.excess = 0) := by
  have filter := query.excess_whereClause
  rw [RowQuery.excess_compile compiled] at filter
  have fits (fitting : plan.excess = 0) : query.whereClause = .ofSpelled query.spelledFilter :=
    RowQuery.whereClause_eq ((RowQuery.excess_compile compiled).trans fitting)
  refine ⟨(Clause.binds_iff query.plain_orderClause _).mpr query.orderClause_eq,
    (Clause.binds_iff query.plain_limitClause _).mpr query.limitClause_eq, ?_,
    Clause.binds_iff_excess query.plain_whereClause filter fits, ?_, ?_⟩
  · rw [query.plain_whereClause.placeholders_eq]
    exact filter
  · have plain := (query.plain_whereClause.append query.plain_orderClause).append
      query.plain_limitClause
    have order : query.orderClause.Excess 0 := query.orderClause_eq ▸ Clause.excess_ofSpelled _
    have page : query.limitClause.Excess 0 := query.limitClause_eq ▸ Clause.excess_ofSpelled _
    refine Clause.binds_iff_excess plain ((filter.append order).append page) fun fitting => ?_
    rw [RowQuery.allClauses, fits fitting, query.orderClause_eq, query.limitClause_eq,
      ← Clause.ofSpelled_append, ← Clause.ofSpelled_append]
  · intro field term _
    have behind : term.clause.Excess 0 := term.clause_eq ▸ Clause.excess_ofSpelled _
    have both := behind.append filter
    rw [Nat.zero_add] at both
    refine Clause.binds_iff_excess (term.plain_clause.append query.plain_whereClause) both
      fun fitting => ?_
    rw [fits fitting, term.clause_eq, ← Clause.ofSpelled_append]

/-- A comparison inside a field, a list of ages, an order by a place inside the field and a
page: each of the seven values has its placeholder. -/
theorem statements_bind_nested :
    let model : Schema := ⟨"user", [("age", .scalar .number Traits.plain),
      ("data", .scalar .object Traits.plain)], false, Hooks.none⟩
    let condition : Condition := [("data.level", .arr [.str ">", .int 3]),
      ("age", .arr [.str "in", .arr [.int 1, .int 2]]),
      ("order_by", .str "data.rank"), ("limit", .int 5)]
    ∃ plan query, Plan.ofCondition (some condition) SelectOptions.plain = .ok plan ∧
      RowQuery.compile model plan = .ok query ∧
      query.allClauses.Binds (query.spelledFilter ++ query.spelledOrder ++ query.spelledPage) ∧
      query.allClauses.params.length = 7 := by
  intro model condition
  let inside (name : String) : FieldPath := ⟨"data." ++ name, [.name "data", .name name], false⟩
  let plan : Plan := ⟨none, [⟨inside "level", .gt (.int 3)⟩,
    ⟨FieldPath.field "age", .oneOf [.int 1, .int 2]⟩], none, [(inside "rank", .asc)], none,
    some 5, none, .none⟩
  let data : Column := ⟨"data", .json, none, false⟩
  let age : Column := ⟨"age", .numeric, none, false⟩
  let query : RowQuery := ⟨[.compare (.inner data [.name "level"]) .gt (.int 3),
    .oneOf (.column age) [.int 1, .int 2]], [(.inner data [.name "rank"], .asc)],
    .window 5 0⟩
  have compiled : RowQuery.compile model plan = .ok query := by rfl
  have fitting : plan.excess = 0 := rfl
  have planned : Plan.ofCondition (some condition) SelectOptions.plain = .ok plan := by rfl
  have bound := (statements_bind compiled).2.2.2.2.1.mpr fitting
  have seven : query.allClauses.params.length = 7 := rfl
  exact ⟨plan, query, planned, compiled, bound, seven⟩

/-- A place inside a field is asked to be in an empty list: the filter has no placeholder, and
yet it has a parameter. -/
theorem membership_binds_without_hole :
    let model : Schema := ⟨"user", [("data", .scalar .object Traits.plain)], false, Hooks.none⟩
    let condition : Condition := [("data.level", .arr [.str "in", .arr []])]
    ∃ plan query, Plan.ofCondition (some condition) SelectOptions.plain = .ok plan ∧
      RowQuery.compile model plan = .ok query ∧
      query.whereClause.text = " WHERE 0 = 1" ∧ query.whereClause.placeholders = 0 ∧
      query.whereClause.params.length = 1 := by
  intro model condition
  let level : FieldPath := ⟨"data.level", [.name "data", .name "level"], false⟩
  let plan : Plan := ⟨none, [⟨level, .oneOf []⟩], none, [], none, none, none, .none⟩
  let query : RowQuery :=
    ⟨[.never (.inner ⟨"data", .json, none, false⟩ [.name "level"])], [], .all⟩
  exact ⟨plan, query, by rfl, by rfl, by decide, by decide, rfl⟩

end RecordStore
