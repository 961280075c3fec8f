/-
Module: RecordStore.Proofs.Relational.Quoting
Purpose: Quoted identifiers as the reader of a statement finds them.  A double quote opens one,
  a doubled quote inside stands for one quote, a single one closes it.  In the text of a clause
  whose fixed words hold no quotes, these are the names the clause was made of, as long as the
  text behind a name does not go on with a quote.
Main exports: quotedName?, quotedNames, quotedName?_doubleQuotes, quotedNames_quoteIdentifier,
  identifier?, quoted_identifiers_read_back, Clause.Names, RowTest.names_clause
-/
import RecordStore.Proofs.Relational.Binding

namespace RecordStore

/-! ### Reading identifiers -/

/-- The name behind an opening quote, up to the quote that closes it, and the text behind. -/
def quotedName? : List Char → Option (List Char × List Char)
  | [] => none
  | c :: rest =>
    if c = '\x22' then
      match rest with
      | [] => some ([], [])
      | d :: behind =>
        if d = '\x22' then (quotedName? behind).map fun read => (c :: read.1, read.2)
        else some ([], d :: behind)
    else (quotedName? rest).map fun read => (c :: read.1, read.2)

theorem quotedName?_cons_of_ne {c : Char} (other : c ≠ '\x22') (rest : List Char) :
    quotedName? (c :: rest) = (quotedName? rest).map fun read => (c :: read.1, read.2) := by
  rw [quotedName?.eq_def]
  simp [other]

/-- The text behind a quoted identifier is shorter. -/
theorem length_of_quotedName? {text name behind : List Char}
    (read : quotedName? text = some (name, behind)) : behind.length < text.length := by
  fun_induction quotedName? text generalizing name behind with
  | case1 => cases read
  | case2 =>
      cases read
      exact Nat.zero_lt_one
  | case3 after ih =>
      obtain ⟨⟨inner, rest⟩, found, same⟩ := Option.map_eq_some_iff.mp read
      cases same
      have shorter := ih found
      simp only [List.length_cons]
      omega
  | case4 =>
      cases read
      exact Nat.lt_succ_self _
  | case5 _ _ _ ih =>
      obtain ⟨⟨inner, rest⟩, found, same⟩ := Option.map_eq_some_iff.mp read
      cases same
      exact Nat.lt_succ_of_lt (ih found)

/-- The quoted identifiers of a text, up to the first quote that is never closed. -/
def quotedNames : List Char → List String
  | [] => []
  | c :: rest =>
    if c = '\x22' then
      match _read : quotedName? rest with
      | none => []
      | some (name, behind) => String.ofList name :: quotedNames behind
    else quotedNames rest
termination_by text => text.length
decreasing_by
  · exact Nat.lt_succ_of_lt (length_of_quotedName? _read)
  · exact Nat.lt_succ_self _

/-- What an identifier was quoted from is read back, if no quote stands behind it. -/
theorem quotedName?_doubleQuotes (name : List Char) {rest : List Char}
    (apart : rest.head? ≠ some '\x22') :
    quotedName? (doubleQuotes name ++ '\x22' :: rest) = some (name, rest) := by
  induction name with
  | nil =>
      cases rest with
      | nil => rfl
      | cons d behind =>
          have other : d ≠ '\x22' := by simpa using apart
          simp [doubleQuotes, quotedName?, other]
  | cons c name ih =>
      by_cases quote : c = '\x22'
      · simp [doubleQuotes, quotedName?, quote, ih]
      · simp [doubleQuotes, quotedName?_cons_of_ne, quote, ih]

/-- Only the text that a name was quoted to is read as the name, and no quote stands behind it. -/
theorem eq_doubleQuotes_of_quotedName? {text name rest : List Char}
    (read : quotedName? text = some (name, rest)) :
    text = doubleQuotes name ++ '\x22' :: rest ∧ rest.head? ≠ some '\x22' := by
  fun_induction quotedName? text generalizing name rest with
  | case1 => cases read
  | case2 =>
      cases read
      exact ⟨rfl, by simp⟩
  | case3 after ih =>
      obtain ⟨⟨inner, behind⟩, found, same⟩ := Option.map_eq_some_iff.mp read
      cases same
      obtain ⟨spelled, apart⟩ := ih found
      exact ⟨by simp [doubleQuotes, spelled], apart⟩
  | case4 d after other =>
      cases read
      exact ⟨rfl, by simpa using other⟩
  | case5 c after other ih =>
      obtain ⟨⟨inner, behind⟩, found, same⟩ := Option.map_eq_some_iff.mp read
      cases same
      obtain ⟨spelled, apart⟩ := ih found
      exact ⟨by simp [doubleQuotes, other, spelled], apart⟩

/-- A quoted name is the first identifier of a text that it opens. -/
theorem quotedNames_quoteIdentifier (name : String) {rest : List Char}
    (apart : rest.head? ≠ some '\x22') :
    quotedNames ((quoteIdentifier name).toList ++ rest) = name :: quotedNames rest := by
  rw [toList_quoteIdentifier_append, quotedNames, if_pos rfl, quotedName?_doubleQuotes _ apart]
  simp

/-- Single quotes open no identifier. -/
example : quotedNames ['\x27', 'n', '\x27', ' ', '\x22', 'a', '\x22', '\x22', 'b', '\x22'] =
    ["a\x22b"] := by decide +kernel

/-- Text without quotes holds no identifiers. -/
theorem quotedNames_append {chars : List Char} (quotes : '\x22' ∉ chars) (rest : List Char) :
    quotedNames (chars ++ rest) = quotedNames rest := by
  induction chars with
  | nil => rfl
  | cons c chars ih =>
      rw [List.mem_cons, not_or] at quotes
      rw [List.cons_append, quotedNames, if_neg (Ne.symm quotes.1), ih quotes.2]

/-- The quoted identifier that a text opens with, and the text behind it. -/
def identifier? : List Char → Option (String × List Char)
  | [] => none
  | c :: rest =>
    if c = '\x22' then (quotedName? rest).map fun read => (String.ofList read.1, read.2) else none

/-- Quoting cannot be escaped.  A text is read as a name with some text behind it exactly when it
is the quoted name with that text behind it, and this text does not go on with a quote.  So every
name is read back as it is, with all its quotes, and what follows it is left as it is; and no two
names are quoted alike. -/
theorem quoted_identifiers_read_back :
    (∀ (name : String) (text rest : List Char), identifier? text = some (name, rest) ↔
      text = (quoteIdentifier name).toList ++ rest ∧ rest.head? ≠ some '\x22') ∧
    Function.Injective quoteIdentifier := by
  have exact_iff : ∀ (name : String) (text rest : List Char),
      identifier? text = some (name, rest) ↔
        text = (quoteIdentifier name).toList ++ rest ∧ rest.head? ≠ some '\x22' := by
    intro name text rest
    rw [toList_quoteIdentifier_append]
    constructor
    · intro read
      cases text with
      | nil => cases read
      | cons c after =>
          rw [identifier?] at read
          split at read
          · rename_i quote
            obtain ⟨⟨inner, behind⟩, found, same⟩ := Option.map_eq_some_iff.mp read
            cases same
            obtain ⟨spelled, apart⟩ := eq_doubleQuotes_of_quotedName? found
            exact ⟨by rw [quote, spelled, String.toList_ofList], apart⟩
          · cases read
    · rintro ⟨rfl, apart⟩
      rw [identifier?, if_pos rfl, quotedName?_doubleQuotes _ apart, Option.map_some,
        String.ofList_toList]
  refine ⟨exact_iff, fun name other same => ?_⟩
  have read : identifier? ((quoteIdentifier name).toList ++ []) = some (name, []) :=
    (exact_iff name _ []).mpr ⟨rfl, by simp⟩
  have read' : identifier? ((quoteIdentifier other).toList ++ []) = some (other, []) :=
    (exact_iff other _ []).mpr ⟨rfl, by simp⟩
  rw [same, read'] at read
  exact (Prod.mk.inj (Option.some.inj read)).1.symm

/-! ### Identifiers of clauses -/

namespace Clause

/-- The identifiers that are quoted in the text of a clause. -/
def quoted (clause : Clause) : List String := quotedNames clause.text.toList

/-- No quotes stand in the text of a clause. -/
def Unquoted (clause : Clause) : Prop := '\x22' ∉ clause.text.toList

/-- Wherever a clause stands, if no quote follows, it quotes none but allowed identifiers. -/
def Names (allowed : String → Prop) (clause : Clause) : Prop :=
  ∀ rest : List Char, rest.head? ≠ some '\x22' →
    ∀ name ∈ quotedNames (clause.text.toList ++ rest), allowed name ∨ name ∈ quotedNames rest

variable {allowed : String → Prop} {first second : Clause}

theorem Names.quoted {clause : Clause} (names : clause.Names allowed) :
    ∀ name ∈ clause.quoted, allowed name := by
  intro name member
  have found := names [] (by simp) name (by rwa [List.append_nil])
  simpa [quotedNames] using found

theorem toList_text_append (first second : Clause) :
    (first ++ second).text.toList = first.text.toList ++ second.text.toList := by
  have pieces : (first ++ second).pieces = first.pieces ++ second.pieces := rfl
  simp [text, pieces, String.toList_join]

theorem unquoted_empty : empty.Unquoted := by
  simp [Unquoted, empty, text]

theorem unquoted_words (fixed : String) (plain : '\x22' ∉ fixed.toList) :
    (words fixed).Unquoted := by
  simpa [Unquoted, words, text, Piece.text] using plain

theorem unquoted_bound (value : SqlValue) : (bound value).Unquoted := by
  simp [Unquoted, bound, text, Piece.text]

theorem Unquoted.append (plain : first.Unquoted) (later : second.Unquoted) :
    (first ++ second).Unquoted := by
  unfold Unquoted
  rw [toList_text_append, List.mem_append, not_or]
  exact ⟨plain, later⟩

theorem Unquoted.joined {separator : String} (between : '\x22' ∉ separator.toList)
    {parts : List Clause} (plain : ∀ part ∈ parts, part.Unquoted) :
    (joined separator parts).Unquoted := by
  induction parts with
  | nil => exact unquoted_empty
  | cons part rest ih =>
      have head := plain part List.mem_cons_self
      have later := ih fun other member => plain other (List.mem_cons_of_mem _ member)
      cases rest with
      | nil => exact head
      | cons next others => exact (head.append (unquoted_words _ between)).append later

/-- No quote follows a clause without quotes if none follows what stands behind it. -/
theorem Unquoted.head?_ne (plain : second.Unquoted) {rest : List Char}
    (apart : rest.head? ≠ some '\x22') : (second.text.toList ++ rest).head? ≠ some '\x22' := by
  unfold Unquoted at plain
  cases chars : second.text.toList with
  | nil => exact apart
  | cons c others =>
      rw [chars, List.mem_cons, not_or] at plain
      rw [List.cons_append, List.head?_cons]
      exact fun same => plain.1 (Option.some.inj same).symm

theorem Unquoted.names {clause : Clause} (plain : clause.Unquoted) : clause.Names allowed := by
  intro rest _ name member
  rw [quotedNames_append plain] at member
  exact .inr member

theorem names_name {identifier : String} (known : allowed identifier) :
    (name identifier).Names allowed := by
  intro rest apart found member
  have spelled : (name identifier).text.toList = (quoteIdentifier identifier).toList := by
    simp [name, text, Piece.text]
  rw [spelled, quotedNames_quoteIdentifier identifier apart, List.mem_cons] at member
  rcases member with rfl | found
  · exact .inl known
  · exact .inr found

/-- Words and values may stand behind names. -/
theorem Names.append (names : first.Names allowed) (plain : second.Unquoted) :
    (first ++ second).Names allowed := by
  intro rest apart name member
  rw [toList_text_append, List.append_assoc] at member
  have found := names _ (plain.head?_ne apart) name member
  rwa [quotedNames_append plain] at found

/-- Names may stand behind words and values. -/
theorem Unquoted.append_names (plain : first.Unquoted) (names : second.Names allowed) :
    (first ++ second).Names allowed := by
  intro rest apart name member
  rw [toList_text_append, List.append_assoc, quotedNames_append plain] at member
  exact names rest apart name member

/-- Names may stand behind names with words between them. -/
theorem Names.joined {separator : String} (filled : separator ≠ "")
    (between : '\x22' ∉ separator.toList) {parts : List Clause}
    (names : ∀ part ∈ parts, part.Names allowed) : (joined separator parts).Names allowed := by
  induction parts with
  | nil => exact unquoted_empty.names
  | cons part rest ih =>
      have head := names part List.mem_cons_self
      have later := ih fun other member => names other (List.mem_cons_of_mem _ member)
      cases rest with
      | nil => exact head
      | cons next others =>
          intro behind apart name member
          have spelled : (Clause.joined separator (part :: next :: others)).text.toList =
              part.text.toList ++
                (separator.toList ++ (Clause.joined separator (next :: others)).text.toList) := by
            have cut : Clause.joined separator (part :: next :: others) =
                part ++ words separator ++ Clause.joined separator (next :: others) := rfl
            rw [cut, toList_text_append, toList_text_append, List.append_assoc]
            simp [words, text, Piece.text]
          have follows : (separator.toList ++
              (Clause.joined separator (next :: others)).text.toList ++ behind).head? ≠
                some '\x22' := by
            cases chars : separator.toList with
            | nil => exact absurd (String.toList_eq_nil_iff.mp chars) filled
            | cons c blanks =>
                rw [chars, List.mem_cons, not_or] at between
                simpa using Ne.symm between.1
          rw [spelled, List.append_assoc] at member
          rcases head _ follows name member with known | found
          · exact .inl known
          · rw [List.append_assoc, quotedNames_append between] at found
            exact later behind apart name found

end Clause

/-! ### Identifiers of tests, sort keys and pages -/

/-- The columns that a test names in a statement. -/
def RowTest.named : RowTest → List String
  | .compare term _ _ => [term.base.name]
  | .isNull term => [term.base.name]
  | .isNotNull term => [term.base.name]
  | .hasElement _ term _ => [term.base.name]
  | .hasElementIn term _ => [term.base.name]
  | .oneOf term _ => [term.base.name]
  | .like term _ => [term.base.name]
  | .never _ => []
  | .createdWithin _ => [createdAtField]

variable {allowed : String → Prop}

open Clause

theorem Term.names_clause {term : Term} (known : allowed term.base.name) :
    term.clause.Names allowed := by
  cases term with
  | column found => exact names_name known
  | inner found steps =>
      have called := (unquoted_words "json_extract(" (by decide)).append_names
        (names_name known)
      have comma := called.append (unquoted_words ", " (by decide))
      have path := comma.append (unquoted_bound (.text (pathText steps)))
      exact path.append (unquoted_words _ (by decide))

theorem unquoted_boundList (values : List SqlValue) : (boundList values).Unquoted := by
  refine Unquoted.joined (by decide) fun part member => ?_
  obtain ⟨value, -, rfl⟩ := List.mem_map.mp member
  exact unquoted_bound value

/-- A test quotes the columns that it names. -/
theorem RowTest.names_clause {test : RowTest} (known : ∀ name ∈ test.named, allowed name) :
    test.clause.Names allowed := by
  cases test with
  | compare term comparison operand =>
      have symbol : '\x22' ∉ (" " ++ comparison.symbol ++ " ").toList :=
        comparison.plain_symbol.1
      have column := Term.names_clause (known _ (List.mem_singleton_self _))
      exact (column.append (unquoted_words _ symbol)).append (unquoted_bound operand)
  | isNull term =>
      exact (Term.names_clause (known _ (List.mem_singleton_self _))).append
        (unquoted_words _ (by decide))
  | isNotNull term =>
      exact (Term.names_clause (known _ (List.mem_singleton_self _))).append
        (unquoted_words _ (by decide))
  | hasElement negated term operand =>
      have exist : '\x22' ∉
          ((if negated then "NOT " else "") ++ "EXISTS (SELECT 1 FROM json_each(").toList := by
        cases negated <;> decide
      have column := Term.names_clause (known _ (List.mem_singleton_self _))
      have asked := ((unquoted_words _ exist).append_names column).append
        (unquoted_words ") WHERE value = " (by decide))
      exact (asked.append (unquoted_bound operand)).append (unquoted_words _ (by decide))
  | hasElementIn term operands =>
      have column := Term.names_clause (known _ (List.mem_singleton_self _))
      have asked := ((unquoted_words "EXISTS (SELECT 1 FROM json_each("
        (by decide)).append_names column).append (unquoted_words ") WHERE value IN (" (by decide))
      exact (asked.append (unquoted_boundList operands)).append (unquoted_words _ (by decide))
  | oneOf term operands =>
      have column := Term.names_clause (known _ (List.mem_singleton_self _))
      have asked := column.append (unquoted_words " IN (" (by decide))
      exact (asked.append (unquoted_boundList operands)).append (unquoted_words _ (by decide))
  | like term pattern =>
      have column := Term.names_clause (known _ (List.mem_singleton_self _))
      exact (column.append (unquoted_words _ (by decide))).append (unquoted_bound _)
  | never term => exact (unquoted_words _ (by decide)).names
  | createdWithin days =>
      have since := (unquoted_words "julianday('now') - julianday(" (by decide)).append_names
        (names_name (known createdAtField (List.mem_singleton_self _)))
      exact (since.append (unquoted_words _ (by decide))).append (unquoted_bound _)

namespace RowQuery

theorem names_whereClause {query : RowQuery}
    (known : ∀ test ∈ query.tests, ∀ name ∈ test.named, allowed name) :
    query.whereClause.Names allowed := by
  unfold whereClause
  split
  · exact unquoted_empty.names
  · refine (unquoted_words _ (by decide)).append_names (.joined (by decide) (by decide) ?_)
    intro part member
    obtain ⟨test, listed, rfl⟩ := List.mem_map.mp member
    exact RowTest.names_clause (known test listed)

theorem names_orderClause {query : RowQuery}
    (known : ∀ key ∈ query.order, allowed key.1.base.name) :
    query.orderClause.Names allowed := by
  unfold orderClause
  split
  · exact unquoted_empty.names
  · refine (unquoted_words _ (by decide)).append_names (.joined (by decide) (by decide) ?_)
    intro part member
    obtain ⟨key, listed, rfl⟩ := List.mem_map.mp member
    have keyword : '\x22' ∉ (" " ++ key.2.keyword).toList := by cases key.2 <;> decide
    exact (Term.names_clause (known key listed)).append (unquoted_words _ keyword)

/-- A page quotes nothing. -/
theorem unquoted_limitClause (query : RowQuery) : query.limitClause.Unquoted := by
  unfold limitClause
  cases query.page with
  | all => exact unquoted_empty
  | after offset => exact (unquoted_words _ (by decide)).append (unquoted_bound _)
  | window limit offset =>
      have limited := (unquoted_words " LIMIT " (by decide)).append
        (unquoted_bound (.int (min (limit : Int) maxInt64)))
      exact (limited.append (unquoted_words _ (by decide))).append (unquoted_bound _)

end RowQuery

end RecordStore
