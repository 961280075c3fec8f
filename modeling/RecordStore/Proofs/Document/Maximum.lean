/-
Module: RecordStore.Proofs.Document.Maximum
Purpose: The maximum of a field over documents.  A value is given up only for one that compares
  greater, so what is answered depends on the comparison alone.  Among values whose texts are of
  one kind the comparison is the order of a few scales, and values of different scales do not
  compare: then no value is above the answer, and where all values compare the records may stand
  in any order.  Texts of several kinds can go round in a circle, and the answer passes over a
  greater value.
Main exports: Document.number?_of_parse?, Scale, compare_of_ranked, Greatest, perform_maximum,
  maximum_greatest, maximum_passes_over_greater
-/
import RecordStore.Proofs.Document.Sorting
import RecordStore.Proofs.Path.Spelling
import RecordStore.Proofs.Store.Decidable

namespace RecordStore

/-! ### A date-time is no number -/

namespace Text

/-- Nothing is trimmed up to a character that is no blank. -/
theorem exists_trimChars_append {front : List Char} {last : Char}
    (opens : ∀ c ∈ front, isBlank c = false) (closes : isBlank last = false) (rest : List Char) :
    ∃ kept, trimChars (front ++ last :: rest) = front ++ last :: kept := by
  have head : ∀ c ∈ (front ++ last :: rest).head?, isBlank c = false := by
    intro c first
    cases front with
    | nil =>
        cases first
        exact closes
    | cons d others => exact opens c (by simpa [eq_comm] using Or.inl first)
  have tail : (last :: front.reverse).dropWhile isBlank = last :: front.reverse :=
    List.dropWhile_cons_of_neg (by simp [closes])
  refine ⟨(rest.reverse.dropWhile isBlank).reverse, ?_⟩
  rw [trimChars, dropWhile_isBlank_of_head head, List.reverse_append, List.reverse_cons,
    List.append_assoc, List.singleton_append, List.dropWhile_append, tail]
  split
  case isTrue empty => simp [List.isEmpty_iff.mp empty]
  case isFalse => simp

end Text

theorem fixedDigits?_eq_some {width n : Nat} {cs rest : List Char}
    (read : fixedDigits? width cs = some (n, rest)) :
    ∃ digits, cs = digits ++ rest ∧ digits.length = width ∧ ∀ c ∈ digits, c.isDigit := by
  unfold fixedDigits? at read
  dsimp only at read
  split at read
  case isTrue held =>
    cases read
    rw [Bool.and_eq_true, decide_eq_true_eq, List.all_eq_true] at held
    exact ⟨cs.take width, (List.take_append_drop width cs).symm, held⟩
  case isFalse => cases read

theorem expect?_eq_some {mark : Char} {cs rest : List Char} (read : expect? mark cs = some rest) :
    cs = mark :: rest := by
  unfold expect? at read
  split at read
  case h_1 c others =>
    split at read
    case isTrue same =>
      cases read
      rw [same]
    case isFalse => cases read
  case h_2 => cases read

/-- The text of a moment begins with digits and a dash. -/
theorem Instant.exists_year_of_parse? {text : String} {moment : Instant}
    (read : parse? text = some moment) :
    ∃ year rest, text.toList = year ++ '-' :: rest ∧ year ≠ [] ∧ ∀ c ∈ year, c.isDigit := by
  unfold parse? day? at read
  simp only [bind, Option.bind_eq_some_iff, Prod.exists] at read
  obtain ⟨_, _, ⟨_, after, years, rest, dash, -⟩, -⟩ := read
  obtain ⟨year, written, length, digits⟩ := fixedDigits?_eq_some years
  refine ⟨year, rest, ?_, ?_, digits⟩
  · rw [written, expect?_eq_some dash]
  · rintro rfl
    cases length

namespace Numeral

/-- A text with a dash in it is no word without one, in small letters or not. -/
theorem lower_ne_of_dash {cs : List Char} {word : String} (dash : '-' ∈ cs)
    (dashless : '-' ∉ word.toList) : Text.lower (String.ofList cs) ≠ word := by
  rintro rfl
  rw [Text.lower, String.toList_ofList, String.toList_ofList] at dashless
  exact dashless (List.mem_map.mpr ⟨'-', dash, rfl⟩)

/-- Digits with a dash behind them are no number. -/
theorem binary64?_of_dash {digits rest : List Char} (nonempty : digits ≠ [])
    (all : ∀ c ∈ digits, c.isDigit) :
    binary64? (String.ofList (digits ++ '-' :: rest)) = none := by
  have unsigned : sign (digits ++ '-' :: rest) = (false, digits ++ '-' :: rest) := by
    refine sign_of_isDigit fun c first => ?_
    rw [List.head?_append_of_ne_nil _ nonempty] at first
    exact all c (List.mem_of_head? first)
  have taken : (digits ++ '-' :: rest).span Char.isDigit = (digits, '-' :: rest) := by
    rw [List.span_eq_takeWhile_dropWhile, List.takeWhile_append_of_pos all,
      List.dropWhile_append_of_pos all]
    simp
  have undecided : decimal? (digits ++ '-' :: rest) = none := by
    have whole : fraction ('-' :: rest) = ([], '-' :: rest) := rfl
    have stopped : exponent? ('-' :: rest) = none := rfl
    simp only [decimal?, taken, whole, stopped, Option.map_none, ite_self]
  have dash : '-' ∈ digits ++ '-' :: rest := by simp
  have word {other : String} (dashless : '-' ∉ other.toList) :
      Text.lower (String.ofList (digits ++ '-' :: rest)) ≠ other := lower_ne_of_dash dash dashless
  simp only [binary64?, String.toList_ofList, unsigned, undecided,
    @word "inf" (by decide), @word "infinity" (by decide), @word "nan" (by decide),
    Bool.or_self, decide_false, Bool.false_eq_true, if_false,
    Option.map_none]

end Numeral

/-- What is read as a moment is not read as a number. -/
theorem Document.number?_of_parse? {text : String} {moment : Instant}
    (read : Instant.parse? text = some moment) : number? (.str text) = none := by
  obtain ⟨year, rest, written, nonempty, digits⟩ := Instant.exists_year_of_parse? read
  have opens : ∀ c ∈ year, Text.isBlank c = false :=
    fun c member => Text.isBlank_of_isDigit (digits c member)
  have closes : Text.isBlank '-' = false := rfl
  obtain ⟨kept, trimmed⟩ := Text.exists_trimChars_append opens closes rest
  rw [number?, Text.trim, written, trimmed]
  exact Numeral.binary64?_of_dash nonempty digits

namespace Document

open RecordStore.Action (perform_bind_ok)

/-! ### Scales -/

/-- What values are compared on: as truth values, as numbers, as moments or as words. -/
inductive Scale where
  | truth
  | number
  | moment
  | words
deriving DecidableEq

/-- The scale on which texts of a kind are compared. -/
def TextKind.scale? : TextKind → Option Scale
  | .moment => some .moment
  | .number => some .number
  | .notNumber => none
  | .words => some .words

/-- The scale on which a value is compared, if it compares with anything. -/
def scale? : Json → Option Scale
  | .bool _ => some .truth
  | .num _ => some .number
  | .str text => (textKind text).scale?
  | _ => none

/-- Where a value stands on its scale, a number and a numeric text on the same. -/
def measure (value : Json) : Place :=
  { place (some value) with rank := 0 }

theorem compare_measure {a b : Json} (same : rank (some a) = rank (some b)) :
    Ord.compare (measure a) (measure b) = Ord.compare (place (some a)) (place (some b)) := by
  have ranks : Ord.compare (place (some a)).rank (place (some b)).rank = .eq := by
    rw [rank_place, rank_place, same]
    exact Std.compare_self
  rw [Place.compare_eq, Place.compare_eq, ranks]
  rfl

/-- A number compares with the texts that are numbers. -/
theorem compare_num_str {n : Number} {text : String} (number : n.toBinary64.isNaN = false) :
    compare (.num n) (.str text) = if scale? (.str text) = some .number then
      some (Ord.compare (measure (.num n)) (measure (.str text))) else none := by
  have onPlace : ∀ {kind : TextKind} {p : Place}, Stands text kind p →
      compareNumbers (.num n) (.str text) = if kind.scale? = some .number then
        some (Ord.compare (measure (.num n)) { p with rank := 0 }) else none := by
    intro kind p standing
    cases standing with
    | moment read =>
      simp [compareNumbers, number?_of_parse? read, TextKind.scale?]
    | number _ read proper =>
      have own : number? (.num n) = some n.toBinary64 := rfl
      simp [compareNumbers, own, read, Binary64.compare?, proper, number, measure, place,
        Place.compare_eq, Std.compare_self, TextKind.scale?]
    | notNumber _ read strange =>
      have own : number? (.num n) = some n.toBinary64 := rfl
      simp [compareNumbers, own, read, Binary64.compare?, strange, TextKind.scale?]
    | words _ unread =>
      simp [compareNumbers, unread, TextKind.scale?]
  exact onPlace (stands text)

theorem scale?_str_ne_truth (text : String) : scale? (.str text) ≠ some .truth := by
  rw [scale?]
  cases textKind text <;> decide

/-- Values that may be sorted together compare if they are on one scale, and then as they stand
on it. -/
theorem compare_of_ranked {kind : TextKind} {a b : Json} (left : Ranked kind (some a))
    (right : Ranked kind (some b)) :
    compare a b = if (scale? a).isSome ∧ scale? a = scale? b then
      some (Ord.compare (measure a) (measure b)) else none := by
  rcases a with _ | a | m | s | items | members <;>
    rcases b with _ | b | n | t | items' | members'
  case bool.bool => cases a <;> cases b <;> rfl
  case num.num =>
    have first : m.toBinary64.isNaN = false := left
    have second : n.toBinary64.isNaN = false := right
    rw [@compare_measure (.num m) (.num n) rfl]
    simp [compare, compareNumbers, number?, Binary64.compare?, first, second, place,
      Place.compare_eq, Std.compare_self, scale?]
  case num.str =>
    rw [compare_num_str left]
    simp [scale?, eq_comm]
  case str.num =>
    rw [compare_eq_swap, compare_num_str right]
    by_cases number : scale? (.str s) = some .number
    · have turned : Ord.compare (measure (.str s)) (measure (.num n)) =
        (Ord.compare (measure (.num n)) (measure (.str s))).swap := Std.OrientedOrd.eq_swap
      rw [number, turned]
      rfl
    · rw [if_neg number, if_neg fun both => number both.2]
      rfl
  case str.str =>
    have same : textKind s = textKind t := left.trans right.symm
    have texts : compare (.str s) (.str t) = compareTexts s t := rfl
    rw [texts, compareTexts_of_kind same, @compare_measure (.str s) (.str t) rfl]
    simp only [scale?, same]
    cases textKind t <;> rfl
  case bool.str => exact (if_neg fun both => scale?_str_ne_truth t both.2.symm).symm
  case str.bool => exact (if_neg fun both => scale?_str_ne_truth s both.2).symm
  case str.null | str.arr | str.obj =>
    have scaleless : ¬ ((scale? (.str s)).isSome ∧ scale? (.str s) = none) := by
      rintro ⟨scaled, none⟩
      rw [none] at scaled
      cases scaled
    exact (if_neg scaleless).symm
  all_goals rfl

/-- Of values that may be sorted together, one compares greater than another if it stands above
it on their scale. -/
theorem compare_eq_gt_iff {kind : TextKind} {a b : Json} (left : Ranked kind (some a))
    (right : Ranked kind (some b)) :
    compare a b = some .gt ↔
      (scale? a).isSome ∧ scale? a = scale? b ∧ Ord.compare (measure a) (measure b) = .gt := by
  rw [compare_of_ranked left right]
  split
  case isTrue scales =>
    exact ⟨fun above => ⟨scales.1, scales.2, Option.some.inj above⟩,
      fun above => congrArg some above.2.2⟩
  case isFalse scales =>
    simp only [reduceCtorEq, false_iff]
    exact fun above => scales ⟨above.1, above.2.1⟩

/-- What is not above a value is not above a greater one. -/
theorem not_above_of_greater {kind : TextKind} {low high other : Json}
    (first : Ranked kind (some low)) (second : Ranked kind (some high))
    (third : Ranked kind (some other)) (greater : compare high low = some .gt)
    (below : compare other low ≠ some .gt) : compare other high ≠ some .gt := by
  intro above
  obtain ⟨-, lower, climbs⟩ := (compare_eq_gt_iff second first).mp greater
  obtain ⟨scaled, same, higher⟩ := (compare_eq_gt_iff third second).mp above
  refine below ((compare_eq_gt_iff third first).mpr ⟨scaled, same.trans lower, ?_⟩)
  exact Std.TransCmp.gt_trans higher climbs

/-- No value is above itself. -/
theorem compare_self_ne_gt (value : Json) : compare value value ≠ some .gt := by
  intro above
  have turned := compare_eq_swap value value
  rw [above] at turned
  cases turned

/-! ### The greatest value -/

/-- What is kept of a value and the next one. -/
def keep (current value : Json) : Json :=
  if compare value current = some .gt then value else current

theorem greatestOf_cons (first : Json) (rest : List Json) :
    greatestOf (first :: rest) = some (rest.foldl keep first) := by
  unfold greatestOf
  rw [List.foldl_cons]
  refine List.foldl_hom some fun current value => ?_
  dsimp only [keep]
  split <;> rfl

/-- A value of a list above which there is none in the list. -/
structure Greatest (values : List Json) (value : Json) : Prop where
  mem : value ∈ values
  unsurpassed : ∀ other ∈ values, compare other value ≠ some .gt

theorem foldl_keep_mem (first : Json) (rest : List Json) :
    rest.foldl keep first ∈ first :: rest := by
  induction rest generalizing first with
  | nil => exact List.mem_cons_self
  | cons value rest ih =>
      have kept : keep first value = first ∨ keep first value = value := by
        rw [keep]
        split
        · exact .inr rfl
        · exact .inl rfl
      rw [List.foldl_cons]
      rcases List.mem_cons.mp (ih (keep first value)) with same | later
      · rw [same]
        simpa using kept.imp_right Or.inl
      · exact List.mem_cons_of_mem _ (List.mem_cons_of_mem _ later)

section Kind

variable {kind : TextKind}

/-- What is kept of the greatest value so far and the next one is the greatest with it. -/
theorem Greatest.keep {seen : List Json} {current value : Json} (greatest : Greatest seen current)
    (ranked : ∀ other ∈ seen, Ranked kind (some other)) (last : Ranked kind (some value)) :
    Greatest (seen ++ [value]) (keep current value) := by
  unfold Document.keep
  split
  case isTrue greater =>
    refine ⟨by simp, fun other member => ?_⟩
    rcases List.mem_append.mp member with early | late
    · exact not_above_of_greater (ranked current greatest.mem) last (ranked other early) greater
        (greatest.unsurpassed other early)
    · obtain rfl := List.mem_singleton.mp late
      exact compare_self_ne_gt other
  case isFalse notGreater =>
    refine ⟨List.mem_append_left _ greatest.mem, fun other member => ?_⟩
    rcases List.mem_append.mp member with early | late
    · exact greatest.unsurpassed other early
    · obtain rfl := List.mem_singleton.mp late
      exact notGreater

theorem Greatest.foldl {seen rest : List Json} {current : Json} (greatest : Greatest seen current)
    (ranked : ∀ other ∈ seen ++ rest, Ranked kind (some other)) :
    Greatest (seen ++ rest) (rest.foldl Document.keep current) := by
  induction rest generalizing seen current with
  | nil => simpa using greatest
  | cons value rest ih =>
      have next := greatest.keep (fun other early => ranked other (List.mem_append_left _ early))
        (ranked value (by simp))
      rw [List.append_cons] at ranked ⊢
      exact ih next ranked

/-- Among values whose texts are of one kind, the greatest is found. -/
theorem greatestOf_greatest {values : List Json} {value : Json}
    (ranked : ∀ other ∈ values, Ranked kind (some other)) (found : greatestOf values = some value) :
    Greatest values value := by
  cases values with
  | nil => cases found
  | cons first rest =>
      rw [greatestOf_cons] at found
      cases found
      have alone : Greatest [first] first := by
        refine ⟨List.mem_singleton_self first, fun other member => ?_⟩
        obtain rfl := List.mem_singleton.mp member
        exact compare_self_ne_gt other
      exact alone.foldl ranked

end Kind

/-- The maximum at a path of several records: zero if none of them has a value there. -/
def largest (path : FieldPath) (records : List Object) : Json :=
  (greatestOf (valuesAt path records)).getD (.int 0)

theorem largest_of_nil {path : FieldPath} {records : List Object}
    (empty : valuesAt path records = []) : largest path records = .int 0 := by
  rw [largest, empty]
  rfl

theorem exists_greatestOf {values : List Json} (nonempty : values ≠ []) :
    ∃ value ∈ values, greatestOf values = some value := by
  cases values with
  | nil => exact absurd rfl nonempty
  | cons first rest => exact ⟨_, foldl_keep_mem first rest, greatestOf_cons first rest⟩

theorem largest_mem {path : FieldPath} {records : List Object}
    (nonempty : valuesAt path records ≠ []) : largest path records ∈ valuesAt path records := by
  obtain ⟨value, member, found⟩ := exists_greatestOf nonempty
  rw [largest, found]
  exact member

theorem largest_greatest {kind : TextKind} {path : FieldPath} {records : List Object}
    (ranked : ∀ value ∈ valuesAt path records, Ranked kind (some value))
    (nonempty : valuesAt path records ≠ []) :
    Greatest (valuesAt path records) (largest path records) := by
  obtain ⟨value, -, found⟩ := exists_greatestOf nonempty
  rw [largest, found]
  exact greatestOf_greatest ranked found

/-- What is compared is never nothing. -/
theorem not_null_of_mem_valuesAt {path : FieldPath} {records : List Object} {value : Json}
    (member : value ∈ valuesAt path records) : value ≠ .null := by
  rintro rfl
  have solid := (List.mem_filter.mp member).2
  cases solid

theorem valuesAt_perm {path : FieldPath} {records others : List Object}
    (same : others.Perm records) : (valuesAt path others).Perm (valuesAt path records) :=
  (same.filterMap _).filter _

/-- Two greatest values of the same list that compare are equal in the comparison. -/
theorem Greatest.compare_eq {values : List Json} {value other : Json}
    (first : Greatest values value) (second : Greatest values other)
    (comparable : compare other value ≠ none) : compare other value = some .eq := by
  have above := first.unsurpassed other second.mem
  have below := second.unsurpassed value first.mem
  rw [compare_eq_swap] at below
  cases order : compare other value with
  | none => exact absurd order comparable
  | some ordering =>
      rw [order] at above below
      cases ordering with
      | lt => exact absurd rfl below
      | eq => rfl
      | gt => exact absurd rfl above

/-- Where all values compare, the places of the records make no difference to the comparison. -/
theorem largest_perm {kind : TextKind} {path : FieldPath} {records others : List Object}
    (ranked : ∀ value ∈ valuesAt path records, Ranked kind (some value))
    (comparable : ∀ a ∈ valuesAt path records, ∀ b ∈ valuesAt path records, compare a b ≠ none)
    (same : others.Perm records) :
    compare (largest path others) (largest path records) = some .eq := by
  have values := @valuesAt_perm path _ _ same
  by_cases empty : valuesAt path records = []
  · rw [empty] at values
    rw [largest_of_nil empty, largest_of_nil values.eq_nil]
    decide +kernel
  · have full : valuesAt path others ≠ [] := by
      intro none
      rw [none] at values
      exact empty values.symm.eq_nil
    have here := largest_greatest ranked empty
    have there := largest_greatest (fun value member => ranked value (values.mem_iff.mp member))
      full
    have moved : Greatest (valuesAt path records) (largest path others) :=
      ⟨values.mem_iff.mp there.mem,
        fun other member => there.unsurpassed other (values.mem_iff.mpr member)⟩
    exact here.compare_eq moved (comparable _ moved.mem _ here.mem)

/-! ### The maximum of a store -/

section Store

variable {setting : Setting} {session after : Session Trees} {schema field : String}
variable {condition : Option Condition} {model : Schema} {path : FieldPath} {plan : Plan}
variable {found : List Object}

/-- The maximum is taken of what the plan of the condition finds. -/
theorem perform_maximum (known : setting.registry.get schema = .ok model)
    (addressed : model.path field = .ok path)
    (read : Plan.ofCondition condition SelectOptions.plain = .ok plan)
    (checked : plan.checkScope model = .ok ())
    (matched : (find model plan).perform setting session = (.ok found, after)) :
    (backend.maximum schema field condition).perform setting session =
      (.ok (largest path found), after) := by
  have greatest : (backend.greatest model path plan).perform setting session =
      (.ok (greatestOf (valuesAt path found)), after) :=
    perform_bind_ok setting session matched _
  have lifted : (Action.lift StoreError.path (model.path field) : Action Trees FieldPath).perform
      setting session = (.ok path, session) :=
    (Action.perform_lift_eq_ok setting session).mpr ⟨addressed, rfl⟩
  unfold Backend.maximum
  rw [perform_bind_ok setting session
      ((Action.perform_schema_eq_ok setting session).mpr ⟨known, rfl⟩),
    perform_bind_ok setting session lifted,
    perform_bind_ok setting session (Backend.perform_plan_eq_ok.mpr ⟨rfl, read, checked⟩),
    perform_bind_ok setting session greatest, largest]
  cases answer : greatestOf (valuesAt path found) with
  | none => rfl
  | some value =>
      have nonempty : valuesAt path found ≠ [] := by
        intro empty
        rw [empty] at answer
        cases answer
      have solid : value ≠ .null := by
        have member := largest_mem nonempty
        rw [largest, answer] at member
        exact not_null_of_mem_valuesAt member
      cases value with
      | null => exact absurd rfl solid
      | _ => rfl

end Store

/-- The maximum of a field, over what the condition finds in any session of a document store, is
zero when none of the records has a value there, and otherwise one of their values.  Among values
whose texts are of one kind none compares greater than it, and if all of them compare, it is
equal in the comparison to the maximum over the same records in any order. -/
theorem maximum_greatest {setting : Setting} {session after : Session Trees}
    {schema field : String} {condition : Option Condition} {model : Schema} {path : FieldPath}
    {plan : Plan} {found : List Object} (known : setting.registry.get schema = .ok model)
    (addressed : model.path field = .ok path)
    (read : Plan.ofCondition condition SelectOptions.plain = .ok plan)
    (checked : plan.checkScope model = .ok ())
    (matched : (find model plan).perform setting session = (.ok found, after)) :
    ∃ value, (backend.maximum schema field condition).perform setting session =
        (.ok value, after) ∧
      (valuesAt path found = [] → value = .int 0) ∧
      (valuesAt path found ≠ [] → value ∈ valuesAt path found) ∧
      ∀ kind, (∀ other ∈ valuesAt path found, Ranked kind (some other)) →
        (∀ other ∈ valuesAt path found, compare other value ≠ some .gt) ∧
        ((∀ a ∈ valuesAt path found, ∀ b ∈ valuesAt path found, compare a b ≠ none) →
          ∀ others : List Object, others.Perm found →
            compare (largest path others) value = some .eq) := by
  refine ⟨largest path found, perform_maximum known addressed read checked matched,
    largest_of_nil, largest_mem, fun kind ranked => ⟨fun other member => ?_, ?_⟩⟩
  · have nonempty : valuesAt path found ≠ [] := List.ne_nil_of_mem member
    exact (largest_greatest ranked nonempty).unsurpassed other member
  · intro comparable others same
    exact largest_perm ranked comparable same

/-- Numbers that are written as texts: the greatest by value is answered, in either order. -/
theorem maximum_greatest_of_sizes :
    let model : Schema := ⟨"box", [("size", .scalar .string Traits.plain)], false, Hooks.none⟩
    let setting := Setting.still ⟨[model], []⟩
    let nine : Object := [("id", .str "a"), ("size", .str "9")]
    let ten : Object := [("id", .str "b"), ("size", .str "10.0")]
    let create (record : Object) (session : Session Trees) : Session Trees :=
      (((Call.create "box" record).run backend).perform setting session).2
    let session := create ten (create nine (Session.start []))
    let plan := Plan.everything .plain
    setting.registry.get "box" = .ok model ∧ model.path "size" = .ok (.field "size") ∧
      Plan.ofCondition none SelectOptions.plain = .ok plan ∧ plan.checkScope model = .ok () ∧
      ∃ after, (find model plan).perform setting session = (.ok [nine, ten], after) ∧
        ∃ value, (backend.maximum "box" "size" none).perform setting session =
            (.ok value, after) ∧
          value ∈ [Json.str "9", .str "10.0"] ∧
          (∀ other ∈ [Json.str "9", .str "10.0"], compare other value ≠ some .gt) ∧
          compare (largest (.field "size") [ten, nine]) value = some .eq := by
  intro model setting nine ten create session plan
  let tree : Tree := [("a", Json.text (.obj nine)), ("b", Json.text (.obj ten))]
  have matched : (find model plan).perform setting session =
      (.ok [nine, ten], ⟨[("box", tree)], 3, 0, []⟩) := by decide +kernel
  have values : valuesAt (.field "size") [nine, ten] = [.str "9", .str "10.0"] := rfl
  have known : setting.registry.get "box" = .ok model := rfl
  have addressed : model.path "size" = .ok (.field "size") := rfl
  have read : Plan.ofCondition none SelectOptions.plain = .ok plan := rfl
  have checked : plan.checkScope model = .ok () := rfl
  obtain ⟨value, answered, -, full, kinds⟩ :=
    maximum_greatest known addressed read checked matched
  rw [values] at full kinds
  obtain ⟨above, ordered⟩ := kinds .number (by decide +kernel)
  have comparable : ∀ a ∈ [Json.str "9", .str "10.0"], ∀ b ∈ [Json.str "9", .str "10.0"],
      compare a b ≠ none := by decide +kernel
  exact ⟨known, addressed, read, checked, _, matched, value, answered, full (List.cons_ne_nil _ _),
    above, ordered comparable [ten, nine] (.swap nine ten [])⟩

/-- As numbers `1` and `1.0` are equal, as texts `1-a` is above `1` and below `1.0`: after `1` the
value `1.0` changes nothing and `1-a` is answered, although `1.0` is greater.  In another order
`1.0` is answered, and nothing is greater. -/
theorem maximum_passes_over_greater :
    let setting := namedSetting
    let user (id name : String) : Object := [("id", .str id), ("name", .str name)]
    let whole := user "a" "1"
    let decimal := user "b" "1.0"
    let word := user "c" "1-a"
    let create (record : Object) (session : Session Trees) : Session Trees :=
      (((Call.create "user" record).run backend).perform setting session).2
    let session := create word (create decimal (create whole (Session.start [])))
    Reached setting.registry session ∧
      (∃ after, (find namedUser (.everything .plain)).perform setting session =
        (.ok [whole, decimal, word], after) ∧
        (backend.maximum "user" "name" none).perform setting session =
          (.ok (.str "1-a"), after)) ∧
      Json.str "1.0" ∈ valuesAt (.field "name") [whole, decimal, word] ∧
      compare (.str "1.0") (.str "1-a") = some .gt ∧
      [decimal, whole, word].Perm [whole, decimal, word] ∧
      largest (.field "name") [decimal, whole, word] = .str "1.0" ∧
      ∀ other ∈ valuesAt (.field "name") [whole, decimal, word],
        compare other (.str "1.0") ≠ some .gt := by
  intro setting user whole decimal word create session
  let tree : Tree := [("a", Json.text (.obj whole)), ("b", Json.text (.obj decimal)),
    ("c", Json.text (.obj word))]
  have reached : Reached setting.registry session :=
    .call (.call (.call .fresh (.create "user" whole) setting rfl) (.create "user" decimal)
      setting rfl) (.create "user" word) setting rfl
  have matched : (find namedUser (.everything .plain)).perform setting session =
      (.ok [whole, decimal, word], ⟨[("user", tree)], 4, 0, []⟩) := by decide +kernel
  have tie : compare (.str "1.0") (.str "1") = some .eq := by decide +kernel
  have turned : compare (.str "1") (.str "1.0") = some .eq := by decide +kernel
  have above : compare (.str "1-a") (.str "1") = some .gt := by decide +kernel
  have below : compare (.str "1-a") (.str "1.0") = some .lt := by decide +kernel
  have greater : compare (.str "1.0") (.str "1-a") = some .gt := by decide +kernel
  have values : valuesAt (.field "name") [whole, decimal, word] =
      [.str "1", .str "1.0", .str "1-a"] := rfl
  have others : valuesAt (.field "name") [decimal, whole, word] =
      [.str "1.0", .str "1", .str "1-a"] := rfl
  have answer : largest (.field "name") [whole, decimal, word] = .str "1-a" := by
    simp [largest, values, greatestOf_cons, keep, tie, above]
  have other : largest (.field "name") [decimal, whole, word] = .str "1.0" := by
    simp [largest, others, greatestOf_cons, keep, turned, below]
  have known : setting.registry.get "user" = .ok namedUser := rfl
  have addressed : namedUser.path "name" = .ok (.field "name") := rfl
  have read : Plan.ofCondition none SelectOptions.plain = .ok (.everything .plain) := rfl
  have answered := perform_maximum known addressed read rfl matched
  rw [answer] at answered
  rw [values]
  exact ⟨reached, ⟨_, matched, answered⟩, by simp, greater, .swap whole decimal [word], other,
    by simp [turned, below, compare_self_ne_gt]⟩

end Document

end RecordStore
