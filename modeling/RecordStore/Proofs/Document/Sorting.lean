/-
Module: RecordStore.Proofs.Document.Sorting
Purpose: What a sort of records answers.  The comparison of a sort switches between the order
  of moments, of numbers and of words by both texts at once, so it is an order only among
  values whose texts are of one kind: there it is that of their places, and the records come
  out in the order of the sort keys.  Texts of several kinds can go round in a circle.
Main exports: TextKind, Ranked, sortCompare_eq, Query.sort_pairwise, sort_orders
-/
import RecordStore.Proofs.Document.Matching

namespace RecordStore.Document

/-! ### Values of one order -/

/-- How a text takes part in a sort: as a moment, as a number, as the number that compares
with none, or as words. -/
inductive TextKind where
  | moment
  | number
  | notNumber
  | words
deriving DecidableEq

/-- The kind of a text. -/
def textKind (text : String) : TextKind :=
  match Instant.parse? text, number? (.str text) with
  | some _, _ => .moment
  | none, some x => if x.isNaN then .notNumber else .number
  | none, none => .words

/-- A value that may be sorted among texts of a kind. -/
def Ranked (kind : TextKind) : Option Json → Prop
  | some (.num n) => n.toBinary64.isNaN = false
  | some (.str text) => textKind text = kind
  | _ => True

instance : ∀ kind value, Decidable (Ranked kind value)
  | _, none => .isTrue trivial
  | _, some .null => .isTrue trivial
  | _, some (.bool _) => .isTrue trivial
  | _, some (.num n) => inferInstanceAs (Decidable (n.toBinary64.isNaN = false))
  | kind, some (.str text) => inferInstanceAs (Decidable (textKind text = kind))
  | _, some (.arr _) => .isTrue trivial
  | _, some (.obj _) => .isTrue trivial

/-- Where a value stands: its kind, a value that is compared as a number, and the rest. -/
structure Place where
  rank : Nat
  value : Int
  rest : List Nat

namespace Place

/-- Places compare part by part. -/
instance : Ord Place where
  compare a b := (Ord.compare a.rank b.rank).then
    ((Ord.compare a.value b.value).then (Ord.compare a.rest b.rest))

theorem compare_eq (a b : Place) : Ord.compare a b = (Ord.compare a.rank b.rank).then
    ((Ord.compare a.value b.value).then (Ord.compare a.rest b.rest)) := rfl

instance : Std.TransOrd Place :=
  inferInstanceAs (Std.TransCmp
    (compareLex (compareOn rank) (compareLex (compareOn value) (compareOn rest))))

end Place

/-- The place of a text among those of its kind. -/
def textPlace (text : String) : Place :=
  match Instant.parse? text, number? (.str text) with
  | some moment, _ => ⟨3, moment.seconds, [moment.nanos]⟩
  | none, some x => ⟨3, if x.isNaN then 0 else x.rank, []⟩
  | none, none => ⟨3, 0, text.toList.map Char.toNat⟩

/-- The place of a value in a sort. -/
def place (value : Option Json) : Place :=
  match value with
  | some (.bool b) => ⟨1, 0, [b.toNat]⟩
  | some (.num n) => ⟨2, n.toBinary64.rank, []⟩
  | some (.str text) => textPlace text
  | _ => ⟨rank value, 0, []⟩

@[simp] theorem place_str (text : String) : place (some (.str text)) = textPlace text := rfl

theorem rank_place (value : Option Json) : (place value).rank = rank value := by
  cases value with
  | none => rfl
  | some value =>
      cases value with
      | str text =>
          change (textPlace text).rank = 3
          unfold textPlace
          split <;> rfl
      | _ => rfl

/-! ### The comparison of a sort -/

theorem Binary64.compare?_eq_swap (x y : Binary64) :
    x.compare? y = (y.compare? x).map Ordering.swap := by
  rw [Binary64.compare?, Binary64.compare?, Bool.or_comm]
  split
  · rfl
  · exact congrArg some Std.OrientedOrd.eq_swap

theorem Instant.compare_eq_swap (a b : Instant) : a.compare b = (b.compare a).swap := by
  rw [Instant.compare, Instant.compare, Ordering.swap_then]
  exact congrArg₂ Ordering.then Std.OrientedOrd.eq_swap Std.OrientedOrd.eq_swap

/-- Two texts in the other order compare the other way round, whatever their kinds. -/
theorem compareTexts_eq_swap (a b : String) :
    compareTexts a b = (compareTexts b a).map Ordering.swap := by
  simp only [compareTexts]
  cases Instant.parse? a <;> cases Instant.parse? b
  case some.some first second => exact congrArg some (Instant.compare_eq_swap first second)
  all_goals
    cases number? (.str a) <;> cases number? (.str b)
    case some.some x y => exact Binary64.compare?_eq_swap x y
    all_goals exact congrArg some Std.OrientedCmp.eq_swap

theorem compare_eq_swap (a b : Json) : compare a b = (compare b a).map Ordering.swap := by
  have numbers : compareNumbers a b = (compareNumbers b a).map Ordering.swap := by
    simp only [compareNumbers]
    cases number? a <;> cases number? b <;> first | rfl | exact Binary64.compare?_eq_swap _ _
  cases a with
  | bool a =>
      cases b with
      | bool b => cases a <;> cases b <;> rfl
      | num n => exact numbers
      | _ => rfl
  | num m => cases b <;> exact numbers
  | str a =>
      cases b with
      | str b => exact compareTexts_eq_swap a b
      | num n => exact numbers
      | _ => rfl
  | _ =>
      cases b with
      | num n => exact numbers
      | _ => rfl

/-- Two values in the other order compare the other way round. -/
theorem sortCompare_eq_swap (a b : Option Json) : sortCompare a b = (sortCompare b a).swap := by
  have ranks : Ord.compare (rank a) (rank b) = (Ord.compare (rank b) (rank a)).swap :=
    Std.OrientedOrd.eq_swap
  cases a with
  | none => cases b <;> exact ranks
  | some a =>
      cases b with
      | none => exact ranks
      | some b =>
          by_cases same : rank (some a) = rank (some b)
          · rw [sortCompare, sortCompare, if_pos same, if_pos same.symm, compare_eq_swap]
            cases compare b a <;> rfl
          · rw [sortCompare, sortCompare, if_neg same, if_neg (Ne.symm same)]
            exact ranks

/-- What a text is read as settles its kind and its place. -/
inductive Stands (text : String) : TextKind → Place → Prop where
  | moment {instant : Instant} (read : Instant.parse? text = some instant) :
      Stands text .moment ⟨3, instant.seconds, [instant.nanos]⟩
  | number {x : Binary64} (timeless : Instant.parse? text = none)
      (read : number? (.str text) = some x) (number : x.isNaN = false) :
      Stands text .number ⟨3, x.rank, []⟩
  | notNumber {x : Binary64} (timeless : Instant.parse? text = none)
      (read : number? (.str text) = some x) (number : x.isNaN = true) :
      Stands text .notNumber ⟨3, 0, []⟩
  | words (timeless : Instant.parse? text = none) (unread : number? (.str text) = none) :
      Stands text .words ⟨3, 0, text.toList.map Char.toNat⟩

theorem stands (text : String) : Stands text (textKind text) (textPlace text) := by
  unfold textKind textPlace
  cases timeless : Instant.parse? text with
  | some moment => exact .moment timeless
  | none =>
      cases read : number? (.str text) with
      | none => exact .words timeless read
      | some x =>
          cases number : x.isNaN with
          | false => simpa [number] using Stands.number timeless read number
          | true => simpa [number] using Stands.notNumber timeless read number

/-- Texts of one kind compare like their places; those that are no numbers do not compare. -/
theorem compareTexts_of_kind {a b : String} (same : textKind a = textKind b) :
    compareTexts a b = if textKind a = .notNumber then none
      else some (Ord.compare (textPlace a) (textPlace b)) := by
  have onPlaces : ∀ {kind : TextKind} {p q : Place}, Stands a kind p → Stands b kind q →
      compareTexts a b = if kind = .notNumber then none else some (Ord.compare p q) := by
    intro kind p q left right
    cases left with
    | moment first =>
        cases right with
        | moment second =>
            simp [compareTexts, first, second, Place.compare_eq, Instant.compare, Std.compare_self]
    | number timeless first proper =>
        cases right with
        | number _ second proper' =>
            simp [compareTexts, timeless, first, second, Binary64.compare?, proper, proper',
              Place.compare_eq, Std.compare_self]
    | notNumber timeless first strange =>
        cases right with
        | notNumber _ second _ =>
            simp [compareTexts, timeless, first, second, Binary64.compare?, strange]
    | words timeless first =>
        cases right with
        | words _ second =>
            simp [compareTexts, timeless, first, second, Place.compare_eq, Std.compare_self,
              Text.compare, Text.compareChars_eq]
  exact onPlaces (stands a) (same ▸ stands b)

theorem textPlace_of_notNumber {text : String} (strange : textKind text = .notNumber) :
    textPlace text = ⟨3, 0, []⟩ := by
  have onPlace : ∀ {kind : TextKind} {p : Place}, Stands text kind p → kind = .notNumber →
      p = ⟨3, 0, []⟩ := by
    intro kind p standing is
    cases standing with
    | notNumber => rfl
    | _ => cases is
  exact onPlace (stands text) strange

/-- Texts of one kind tie if they do not compare. -/
theorem compareTexts_eq {a b : String} (same : textKind a = textKind b) :
    (compareTexts a b).getD .eq = Ord.compare (textPlace a) (textPlace b) := by
  rw [compareTexts_of_kind same]
  split
  · rename_i strange
    rw [textPlace_of_notNumber strange, textPlace_of_notNumber (same ▸ strange)]
    exact Std.compare_self.symm
  · rfl

theorem sortCompare_of_rank_eq {a b : Json} (same : rank (some a) = rank (some b)) :
    sortCompare (some a) (some b) = (compare a b).getD .eq :=
  if_pos same

/-- Values of several kinds stand in the order of the kinds. -/
theorem sortCompare_of_rank_ne {a b : Option Json} (differ : rank a ≠ rank b) :
    sortCompare a b = Ord.compare (place a) (place b) := by
  have kinds : sortCompare a b = Ord.compare (rank a) (rank b) := by
    cases a with
    | none => cases b <;> rfl
    | some a =>
        cases b with
        | none => rfl
        | some b => rw [sortCompare, if_neg differ]
  rw [kinds, Place.compare_eq, rank_place, rank_place]
  cases ranks : Ord.compare (rank a) (rank b) with
  | eq => exact absurd (Std.LawfulEqOrd.eq_of_compare ranks) differ
  | _ => rfl

/-- Values that may be sorted together compare like their places. -/
theorem sortCompare_eq {kind : TextKind} {a b : Option Json} (left : Ranked kind a)
    (right : Ranked kind b) : sortCompare a b = Ord.compare (place a) (place b) := by
  by_cases same : rank a = rank b
  case neg => exact sortCompare_of_rank_ne same
  case pos =>
    have tie (value : Place) : Ordering.eq = Ord.compare value value := Std.compare_self.symm
    rcases a with _ | _ | a | m | s | items | members <;>
      rcases b with _ | _ | b | n | t | items' | members' <;> try cases same
    case some.bool.some.bool => cases a <;> cases b <;> rfl
    case some.num.some.num =>
      have first : m.toBinary64.isNaN = false := left
      have second : n.toBinary64.isNaN = false := right
      rw [@sortCompare_of_rank_eq (.num m) (.num n) rfl]
      simp [compare, compareNumbers, number?, Binary64.compare?, first, second, place,
        Place.compare_eq, Std.compare_self]
    case some.str.some.str =>
      have first : textKind s = kind := left
      have second : textKind t = kind := right
      have texts : compare (.str s) (.str t) = compareTexts s t := rfl
      rw [@sortCompare_of_rank_eq (.str s) (.str t) rfl, texts, place_str, place_str]
      exact compareTexts_eq (first.trans second.symm)
    all_goals exact tie _

/-! ### The order of records -/

/-- Records whose values at every sort key may be sorted together. -/
def Alike (keys : List (FieldPath × SortOrder)) (records : List Object) : Prop :=
  ∀ key ∈ keys, ∃ kind, ∀ record ∈ records, Ranked kind (record.lookup? key.1)

namespace Query

theorem compareRecords_eq_swap (keys : List (FieldPath × SortOrder)) (left right : Object) :
    compareRecords keys left right = (compareRecords keys right left).swap := by
  induction keys with
  | nil => rfl
  | cons key rest ih =>
      obtain ⟨field, order⟩ := key
      rw [compareRecords, compareRecords, Ordering.swap_then, ← ih, sortCompare_eq_swap]
      cases order <;> rfl

/-- Records compared by their places at one sort key. -/
def comparePlace (key : FieldPath × SortOrder) (left right : Object) : Ordering :=
  directed key.2 (Ord.compare (place (left.lookup? key.1)) (place (right.lookup? key.1)))

/-- Records compared by their places at the sort keys in turn. -/
def comparePlaces : List (FieldPath × SortOrder) → Object → Object → Ordering
  | [], _, _ => .eq
  | key :: rest, left, right =>
    (comparePlace key left right).then (comparePlaces rest left right)

instance (key : FieldPath × SortOrder) : Std.TransCmp (comparePlace key) := by
  obtain ⟨field, order⟩ := key
  have upward : Std.TransCmp (compareOn fun record : Object => place (record.lookup? field)) :=
    inferInstance
  cases order with
  | asc => exact upward
  | desc =>
      have downward : comparePlace (field, .desc) =
          fun left right => compareOn (fun record : Object => place (record.lookup? field))
            right left := by
        funext left right
        exact Std.OrientedOrd.eq_swap.symm
      rw [downward]
      infer_instance

instance (keys : List (FieldPath × SortOrder)) : Std.TransCmp (comparePlaces keys) := by
  induction keys with
  | nil => exact { eq_swap := rfl, isLE_trans := fun _ _ => rfl }
  | cons key rest ih =>
      exact inferInstanceAs (Std.TransCmp (compareLex (comparePlace key) (comparePlaces rest)))

theorem compareRecords_eq {keys : List (FieldPath × SortOrder)} {records : List Object}
    (alike : Alike keys records) {left right : Object} (here : left ∈ records)
    (there : right ∈ records) :
    compareRecords keys left right = comparePlaces keys left right := by
  induction keys with
  | nil => rfl
  | cons key rest ih =>
      obtain ⟨kind, ranked⟩ := alike key List.mem_cons_self
      rw [compareRecords, comparePlaces, comparePlace,
        sortCompare_eq (ranked left here) (ranked right there),
        ih fun key member => alike key (List.mem_cons_of_mem _ member)]

/-- Among records whose values may be sorted together the sort keys make an order. -/
theorem compareRecords_trans {keys : List (FieldPath × SortOrder)} {records : List Object}
    (alike : Alike keys records) {a b c : Object} (first : a ∈ records) (second : b ∈ records)
    (third : c ∈ records) (left : (compareRecords keys a b).isLE)
    (right : (compareRecords keys b c).isLE) : (compareRecords keys a c).isLE := by
  rw [compareRecords_eq alike first second] at left
  rw [compareRecords_eq alike second third] at right
  rw [compareRecords_eq alike first third]
  exact Std.TransCmp.isLE_trans left right

/-! ### The sort -/

/-- Records given last first, none of them above a later one. -/
def Descending (keys : List (FieldPath × SortOrder)) (sorted : List Object) : Prop :=
  sorted.Pairwise fun later earlier => (compareRecords keys earlier later).isLE

section Insertion

variable {keys : List (FieldPath × SortOrder)} {records : List Object}
variable (alike : Alike keys records)
include alike

/-- A record put among sorted ones leaves them sorted. -/
theorem insertLast_descending {record : Object} {sorted : List Object} (given : record ∈ records)
    (among : sorted ⊆ records) (descending : Descending keys sorted) :
    Descending keys
      (insertLast (fun left right => compareRecords keys left right == .lt) record sorted) := by
  induction sorted with
  | nil => exact List.pairwise_singleton _ _
  | cons last rest ih =>
      obtain ⟨above, later⟩ := List.pairwise_cons.mp descending
      have here : last ∈ records := among List.mem_cons_self
      have others : rest ⊆ records := fun other member => among (List.mem_cons_of_mem _ member)
      rw [insertLast]
      by_cases below : compareRecords keys record last = .lt
      · rw [if_pos (beq_iff_eq.mpr below)]
        refine List.pairwise_cons.mpr ⟨fun other member => ?_, ih others later⟩
        rcases List.mem_cons.mp ((insertLast_perm _ record rest).mem_iff.mp member) with
          rfl | member
        · rw [below]
          rfl
        · exact above other member
      · rw [if_neg fun less => below (beq_iff_eq.mp less)]
        have reached : (compareRecords keys last record).isLE := by
          rw [compareRecords_eq_swap]
          cases order : compareRecords keys record last with
          | lt => exact absurd order below
          | _ => rfl
        refine List.pairwise_cons.mpr ⟨fun other member => ?_, descending⟩
        rcases List.mem_cons.mp member with rfl | member
        · exact reached
        · exact compareRecords_trans alike (others member) here given (above other member) reached

theorem foldl_descending {rest sorted : List Object} (given : rest ⊆ records)
    (among : sorted ⊆ records) (descending : Descending keys sorted) :
    Descending keys (rest.foldl (fun sorted record =>
      insertLast (fun left right => compareRecords keys left right == .lt) record sorted)
        sorted) := by
  induction rest generalizing sorted with
  | nil => exact descending
  | cons record rest ih =>
      have here : record ∈ records := given List.mem_cons_self
      refine ih (fun other member => given (List.mem_cons_of_mem _ member)) ?_
        (insertLast_descending alike here among descending)
      intro other member
      rcases List.mem_cons.mp ((insertLast_perm _ record sorted).mem_iff.mp member) with
        rfl | member
      · exact here
      · exact among member

end Insertion

/-- Records whose values may be sorted together come out in the order of the sort keys. -/
theorem sort_pairwise {query : Query} {records : List Object}
    (alike : Alike query.order records) :
    (query.sort records).Pairwise fun earlier later =>
      compareRecords query.order earlier later ≠ .gt := by
  have descending := foldl_descending alike (List.Subset.refl records) (List.nil_subset records)
    List.Pairwise.nil
  refine List.pairwise_reverse.mpr (descending.imp fun order => ?_)
  exact Ordering.ne_gt_iff_isLE.mpr order

end Query

/-- The comparison of a sort turns round with its operands, and among values whose texts are of
one kind it is an order.  A sort only changes the places of the records, and if they have such
values at each sort key none of them ends up above one that the sort keys put above it. -/
theorem sort_orders (query : Query) (records : List Object) :
    (∀ a b, sortCompare a b = (sortCompare b a).swap) ∧
      (∀ kind a b c, Ranked kind a → Ranked kind b → Ranked kind c →
        sortCompare a b ≠ .gt → sortCompare b c ≠ .gt → sortCompare a c ≠ .gt) ∧
      (query.sort records).Perm records ∧
      (Alike query.order records → (query.sort records).Pairwise fun earlier later =>
        Query.compareRecords query.order earlier later ≠ .gt) := by
  refine ⟨sortCompare_eq_swap, ?_, query.sort_perm records, Query.sort_pairwise⟩
  intro kind a b c first second third
  rw [sortCompare_eq first second, sortCompare_eq second third, sortCompare_eq first third]
  simp only [Ordering.ne_gt_iff_isLE]
  exact Std.TransOrd.isLE_trans

/-- Numbers that are written as texts come out by value, the largest first, and what has no
value last. -/
theorem sort_orders_numbers :
    let nine : Object := [("size", .str "9")]
    let ten : Object := [("size", .str "10.0")]
    let query : Query := ⟨[], [(.field "size", .desc)], none, none⟩
    query.sort [nine, [], ten] = [ten, nine, []] ∧
      (query.sort [nine, [], ten]).Perm [nine, [], ten] ∧
      (query.sort [nine, [], ten]).Pairwise (fun earlier later =>
        Query.compareRecords query.order earlier later ≠ .gt) ∧
      sortCompare none (some (.str "10.0")) ≠ .gt := by
  intro nine ten query
  obtain ⟨-, transitive, same, sorts⟩ := sort_orders query [nine, [], ten]
  have small : Ranked .number (some (.str "9")) := by decide +kernel
  have large : Ranked .number (some (.str "10.0")) := by decide +kernel
  have alike : Alike query.order [nine, [], ten] := by
    intro key member
    obtain rfl := List.mem_singleton.mp member
    exact ⟨.number, by decide +kernel⟩
  have second : Query.compareRecords query.order [] nine = .gt := by decide +kernel
  have third : Query.compareRecords query.order ten [] = .lt ∧
      Query.compareRecords query.order ten nine = .lt := by decide +kernel
  have answer : query.sort [nine, [], ten] = [ten, nine, []] := by
    simp [Query.sort, Query.insertLast, second, third]
  exact ⟨answer, same, sorts alike, transitive .number none (some (.str "9")) (some (.str "10.0"))
    trivial small large (by decide +kernel) (by decide +kernel)⟩

/-- As numbers `1.0` and `1` tie, as texts `1` comes before `1-a` and `1-a` before `1.0`: a
sort leaves them in an order that the sort key contradicts, although there is one it agrees
with. -/
theorem sort_misplaces_mixed_texts :
    let decimal : Object := [("name", .str "1.0")]
    let whole : Object := [("name", .str "1")]
    let word : Object := [("name", .str "1-a")]
    let query : Query := ⟨[], [(.field "name", .asc)], none, none⟩
    let ordered : Object → Object → Prop := fun earlier later =>
      Query.compareRecords query.order earlier later ≠ .gt
    (sortCompare (some (.str "1.0")) (some (.str "1")) ≠ .gt ∧
        sortCompare (some (.str "1")) (some (.str "1-a")) ≠ .gt ∧
        sortCompare (some (.str "1.0")) (some (.str "1-a")) = .gt) ∧
      ¬ (query.sort [decimal, whole, word]).Pairwise ordered ∧
      [whole, word, decimal].Perm [decimal, whole, word] ∧
      [whole, word, decimal].Pairwise ordered := by
  intro decimal whole word query ordered
  have second : Query.compareRecords query.order whole decimal = .eq := by decide +kernel
  have third : Query.compareRecords query.order word whole = .gt := by decide +kernel
  have left : query.sort [decimal, whole, word] = [decimal, whole, word] := by
    simp [Query.sort, Query.insertLast, second, third]
  have swapped : [word, decimal].Perm [decimal, word] := .swap decimal word []
  have moved : [whole, word, decimal].Perm [decimal, whole, word] :=
    (swapped.cons whole).trans (.swap decimal whole [word])
  rw [left]
  exact ⟨by decide +kernel, by decide +kernel, moved, by decide +kernel⟩

end RecordStore.Document
