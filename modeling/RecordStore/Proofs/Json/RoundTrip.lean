/-
Module: RecordStore.Proofs.Json.RoundTrip
Purpose: Values read back from their compact text.  Printing knows no bound of depth, the
  reader has one: a value is read as it was printed if its containers nest no deeper than
  the bound, and is refused otherwise.  Repeated keys aside, which no value has, and numbers
  whose text is read as another number, this holds of every value.
Main exports: Json.depth, Json.Sound, value?_chars, parse?_text, text_injective
-/
import RecordStore.Proofs.Json.Members
import RecordStore.Proofs.Json.Tokens

namespace RecordStore.Json

mutual

/-- How many arrays and objects stand inside one another. -/
def depth : Json → Nat
  | .null => 0
  | .bool _ => 0
  | .num _ => 0
  | .str _ => 0
  | .arr items => depthOfItems items + 1
  | .obj members => depthOfMembers members + 1

/-- The greatest depth of an element. -/
def depthOfItems : List Json → Nat
  | [] => 0
  | item :: rest => max (depth item) (depthOfItems rest)

/-- The greatest depth of a member. -/
def depthOfMembers : List (String × Json) → Nat
  | [] => 0
  | (_, value) :: rest => max (depth value) (depthOfMembers rest)

end

mutual

/-- Every number reads back, and no object repeats a key. -/
def Sound : Json → Prop
  | .null => True
  | .bool _ => True
  | .num n => Legible n
  | .str _ => True
  | .arr items => SoundItems items
  | .obj members => (Object.keys members).Nodup ∧ SoundMembers members

/-- Every element is sound. -/
def SoundItems : List Json → Prop
  | [] => True
  | item :: rest => Sound item ∧ SoundItems rest

/-- Every member is sound. -/
def SoundMembers : List (String × Json) → Prop
  | [] => True
  | (_, value) :: rest => Sound value ∧ SoundMembers rest

end

/-! ### Reading what was printed -/

/-- The text of a value begins with a character that is no space and closes nothing. -/
theorem exists_first {v : Json} (sound : v.Sound) :
    ∃ c more, v.chars = c :: more ∧ isSpace c = false ∧ c ≠ ']' ∧ c ≠ '\x7d' := by
  cases v with
  | null => exact ⟨'n', _, rfl, by decide⟩
  | bool b =>
      cases b with
      | true => exact ⟨'t', _, rfl, by decide⟩
      | false => exact ⟨'f', _, rfl, by decide⟩
  | num n =>
      obtain ⟨text, read, -⟩ := sound
      obtain ⟨c, more, first, sign | digit⟩ := exists_first_of_numberText? read
      · exact ⟨c, more, first, sign ▸ by decide⟩
      · have other (d : Char) (plain : d.isDigit = false) : c ≠ d := by
          rintro rfl
          rw [digit] at plain
          cases plain
        refine ⟨c, more, first, ?_, other _ (by decide), other _ (by decide)⟩
        simp [isSpace, other ' ' (by decide), other '\n' (by decide), other '\t' (by decide),
          other '\r' (by decide)]
  | str s => exact ⟨'\x22', _, rfl, by decide⟩
  | arr items => exact ⟨'[', _, rfl, by decide⟩
  | obj members => exact ⟨'\x7b', _, rfl, by decide⟩

theorem skipSpace_cons {c : Char} (solid : isSpace c = false) (rest : List Char) :
    skipSpace (c :: rest) = c :: rest := by
  simp [skipSpace, solid]

theorem skipSpace_chars {v : Json} (sound : v.Sound) (rest : List Char) :
    skipSpace (v.chars ++ rest) = v.chars ++ rest := by
  obtain ⟨c, more, first, solid, -⟩ := exists_first sound
  rw [first]
  exact skipSpace_cons solid _

theorem first_solid {c : Char} (closing : c ∈ [',', ']', '\x7d', ':']) (rest : List Char) :
    Stops (c :: rest) ∧ skipSpace (c :: rest) = c :: rest := by
  have mark : (c.isDigit = false ∧ c ≠ '.' ∧ c ≠ 'e' ∧ c ≠ 'E') ∧ isSpace c = false := by
    simp only [List.mem_cons, List.not_mem_nil, or_false] at closing
    rcases closing with rfl | rfl | rfl | rfl <;> decide
  exact ⟨.cons rest mark.1, skipSpace_cons mark.2 rest⟩

section Steps

variable (fuel bound : Nat) (rest : List Char)

theorem value?_null : value? standard (fuel + 1) bound (chars .null ++ rest) =
    some (.null, rest) := by
  simp only [chars, List.cons_append, List.nil_append, value?]
  rfl

theorem value?_bool (b : Bool) : value? standard (fuel + 1) bound (chars (.bool b) ++ rest) =
    some (.bool b, rest) := by
  cases b with
  | true =>
      simp only [chars, List.cons_append, List.nil_append, value?]
      rfl
  | false =>
      simp only [chars, List.cons_append, List.nil_append, value?]
      rfl

theorem value?_str (s : String) : value? standard (fuel + 1) bound (chars (.str s) ++ rest) =
    some (.str s, rest) := by
  have read := string?_quoted rest s
  simp only [chars, quoted, List.cons_append, value?] at read ⊢
  rw [read]
  rfl

theorem value?_num {n : Number} (legible : Legible n) (stops : Stops rest) :
    value? standard (fuel + 1) bound (chars (.num n) ++ rest) = some (.num n, rest) := by
  obtain ⟨text, read, same⟩ := legible.read stops
  obtain ⟨c, more, first, begins⟩ := exists_first_of_numberText? read
  have other (d : Char) (plain : d ≠ '-' ∧ d.isDigit = false) : c ≠ d := by
    rintro rfl
    rcases begins with sign | digit
    · exact plain.1 sign
    · rw [digit] at plain
      cases plain.2
  change value? standard (fuel + 1) bound (n.chars ++ rest) = _
  rw [first] at read ⊢
  simp only [value?, if_neg (other '[' (by decide)), if_neg (other '\x7b' (by decide)),
    if_neg (other '\x22' (by decide)), if_neg (other 't' (by decide)),
    if_neg (other 'f' (by decide)), if_neg (other 'n' (by decide)), read, same]
  rfl

end Steps

/-- A value is read in front of what does not continue it, or refused for its depth. -/
def ReadsValues (fuel : Nat) : Prop :=
  ∀ (v : Json) (bound : Nat) (rest : List Char), v.Sound → Stops rest →
    2 * v.chars.length ≤ fuel →
    value? standard fuel bound (v.chars ++ rest) =
      if v.depth ≤ bound then some (v, rest) else none

/-- Elements are read up to the closing bracket, or refused for their depth. -/
def ReadsItems (fuel : Nat) : Prop :=
  ∀ (item : Json) (items : List Json) (bound : Nat) (rest : List Char),
    SoundItems (item :: items) → 2 * (itemChars (item :: items)).length + 1 ≤ fuel →
    items? standard fuel bound (itemChars (item :: items) ++ ']' :: rest) =
      if depthOfItems (item :: items) ≤ bound then some (item :: items, rest) else none

/-- Members are read up to the closing brace, or refused for their depth. -/
def ReadsMembers (fuel : Nat) : Prop :=
  ∀ (member : String × Json) (members : List (String × Json)) (bound : Nat) (rest : List Char),
    SoundMembers (member :: members) →
    2 * (memberChars (member :: members)).length + 1 ≤ fuel →
    members? standard fuel bound (memberChars (member :: members) ++ '\x7d' :: rest) =
      if depthOfMembers (member :: members) ≤ bound then some (member :: members, rest) else none

/-- The text of the elements of a list begins with that of the first. -/
theorem exists_itemChars (item : Json) (items : List Json) :
    ∃ more, itemChars (item :: items) = item.chars ++ more := by
  cases items with
  | nil => exact ⟨[], (List.append_nil _).symm⟩
  | cons next others => exact ⟨_, rfl⟩

/-- The text of the members of a list begins with the quote of the first key. -/
theorem exists_memberChars (member : String × Json) (members : List (String × Json)) :
    ∃ more, memberChars (member :: members) = '\x22' :: more := by
  obtain ⟨key, value⟩ := member
  cases members with
  | nil => exact ⟨_, rfl⟩
  | cons next others => exact ⟨_, rfl⟩

section Openings

variable (fuel bound : Nat) {rest tail : List Char} {c : Char} (begins : skipSpace rest = c :: tail)
include begins

/-- Behind an opening bracket that is not closed at once stand elements. -/
theorem value?_bracket (inside : c ≠ ']') :
    value? standard (fuel + 1) (bound + 1) ('[' :: rest) =
      (items? standard fuel bound (c :: tail)).map fun read => (.arr read.1, read.2) := by
  simp only [value?, if_true, begins]
  split
  · rename_i same
    cases same
    exact absurd rfl inside
  · rfl

/-- Behind an opening brace that is not closed at once stand members. -/
theorem value?_brace (inside : c ≠ '\x7d') :
    value? standard (fuel + 1) (bound + 1) ('\x7b' :: rest) =
      (members? standard fuel bound (c :: tail)).map fun read => (.obj read.1, read.2) := by
  have brace : '\x7b' ≠ '[' := by decide
  simp only [value?, if_neg brace, if_true, begins]
  split
  · rename_i same
    cases same
    exact absurd rfl inside
  · rfl

end Openings

/-! ### One step of each reader -/

section Recursion

variable {fuel : Nat}

theorem value?_arr (reads : ReadsItems fuel) (items : List Json) (bound : Nat)
    (rest : List Char) (sound : SoundItems items)
    (enough : 2 * (chars (.arr items)).length ≤ fuel + 1) :
    value? standard (fuel + 1) bound (chars (.arr items) ++ rest) =
      if depth (.arr items) ≤ bound then some (.arr items, rest) else none := by
  have opened : chars (.arr items) ++ rest = '[' :: (itemChars items ++ ']' :: rest) := by
    simp [chars]
  rw [opened]
  cases bound with
  | zero => simp [value?, depth]
  | succ bound =>
      simp only [depth, Nat.add_le_add_iff_right]
      cases items with
      | nil =>
          simp only [value?, if_true, itemChars, List.nil_append,
            (first_solid (c := ']') (by decide) rest).2, depthOfItems, Nat.zero_le]
      | cons item others =>
          obtain ⟨more, begins⟩ := exists_itemChars item others
          obtain ⟨c, tail, first, solid, inside, -⟩ := exists_first sound.1
          have start : itemChars (item :: others) ++ ']' :: rest =
              c :: (tail ++ (more ++ ']' :: rest)) := by
            simp [begins, first]
          have length : (chars (.arr (item :: others))).length =
              (itemChars (item :: others)).length + 2 := by
            simp [chars]
          have read := reads item others bound rest sound (by omega)
          rw [start] at read ⊢
          rw [value?_bracket fuel bound (skipSpace_cons solid _) inside, read]
          split_ifs <;> rfl

theorem value?_obj (reads : ReadsMembers fuel) (members : List (String × Json)) (bound : Nat)
    (rest : List Char) (sound : SoundMembers members)
    (enough : 2 * (chars (.obj members)).length ≤ fuel + 1) :
    value? standard (fuel + 1) bound (chars (.obj members) ++ rest) =
      if depth (.obj members) ≤ bound then some (.obj members, rest) else none := by
  have opened : chars (.obj members) ++ rest =
      '\x7b' :: (memberChars members ++ '\x7d' :: rest) := by
    simp [chars]
  have brace : '\x7b' ≠ '[' := by decide
  rw [opened]
  cases bound with
  | zero => simp [value?, depth]
  | succ bound =>
      simp only [depth, Nat.add_le_add_iff_right]
      cases members with
      | nil =>
          simp only [value?, if_neg brace, if_true, memberChars, List.nil_append,
            (first_solid (c := '\x7d') (by decide) rest).2, depthOfMembers, Nat.zero_le]
      | cons member others =>
          obtain ⟨more, begins⟩ := exists_memberChars member others
          have start : memberChars (member :: others) ++ '\x7d' :: rest =
              '\x22' :: (more ++ '\x7d' :: rest) := by
            rw [begins]
            rfl
          have length : (chars (.obj (member :: others))).length =
              (memberChars (member :: others)).length + 2 := by
            simp [chars]
          have read := reads member others bound rest sound (by omega)
          rw [start] at read ⊢
          rw [value?_brace fuel bound (skipSpace_cons (by decide) _) (by decide), read]
          split_ifs <;> rfl

/-- A value is read with one step more than its parts. -/
theorem readsValues_succ (items : ReadsItems fuel) (members : ReadsMembers fuel) :
    ReadsValues (fuel + 1) := by
  intro v bound rest sound stops enough
  cases v with
  | null => exact value?_null fuel bound rest
  | bool b => exact value?_bool fuel bound rest b
  | num n => exact value?_num fuel bound rest sound stops
  | str s => exact value?_str fuel bound rest s
  | arr elements => exact value?_arr items elements bound rest sound enough
  | obj parts => exact value?_obj members parts bound rest sound.2 enough

/-- Elements are read with one step more than the first and the others. -/
theorem readsItems_succ (values : ReadsValues fuel) (further : ReadsItems fuel) :
    ReadsItems (fuel + 1) := by
  intro item items bound rest sound enough
  cases items with
  | nil =>
      obtain ⟨stops, closing⟩ := first_solid (c := ']') (by decide) rest
      have length : (itemChars [item]).length = item.chars.length := rfl
      have read := values item bound (']' :: rest) sound.1 stops (by omega)
      simp only [itemChars, depthOfItems, Nat.max_zero]
      rw [items?, read]
      split_ifs with shallow
      · simp only [closing]
      · rfl
  | cons next others =>
      obtain ⟨stops, comma⟩ := first_solid (c := ',') (by decide)
        (itemChars (next :: others) ++ ']' :: rest)
      have length : (itemChars (item :: next :: others)).length =
          item.chars.length + (itemChars (next :: others)).length + 1 := by
        simp [itemChars, Nat.add_assoc]
      have layout : itemChars (item :: next :: others) ++ ']' :: rest =
          item.chars ++ ',' :: (itemChars (next :: others) ++ ']' :: rest) := by
        simp [itemChars]
      have start : skipSpace (itemChars (next :: others) ++ ']' :: rest) =
          itemChars (next :: others) ++ ']' :: rest := by
        obtain ⟨more, begins⟩ := exists_itemChars next others
        rw [begins, List.append_assoc]
        exact skipSpace_chars sound.2.1 _
      have read := values item bound _ sound.1 stops (by omega)
      have remaining := further next others bound rest sound.2 (by omega)
      rw [layout, items?]
      by_cases shallow : item.depth ≤ bound
      · rw [read, if_pos shallow]
        simp only [comma, start, remaining, depthOfItems, Nat.max_le, shallow, true_and]
        split_ifs <;> rfl
      · rw [read, if_neg shallow]
        simp only [depthOfItems, Nat.max_le, shallow, false_and, if_false]

/-- Members are read with one step more than the value of the first and the others. -/
theorem readsMembers_succ (values : ReadsValues fuel) (further : ReadsMembers fuel) :
    ReadsMembers (fuel + 1) := by
  intro member members bound rest sound enough
  obtain ⟨key, value⟩ := member
  have colon (after : List Char) : skipSpace (':' :: after) = ':' :: after :=
    (first_solid (by decide) after).2
  cases members with
  | nil =>
      obtain ⟨stops, closing⟩ := first_solid (c := '\x7d') (by decide) rest
      have length : (memberChars [(key, value)]).length =
          (quoted key).length + (value.chars.length + 1) := by
        simp [memberChars]
      have layout : memberChars [(key, value)] ++ '\x7d' :: rest =
          quoted key ++ ':' :: (value.chars ++ '\x7d' :: rest) := by
        simp [memberChars]
      have read := values value bound ('\x7d' :: rest) sound.1 stops (by omega)
      rw [layout, members?, string?_quoted]
      simp only [colon, skipSpace_chars sound.1, read, depthOfMembers, Nat.max_zero]
      split_ifs with shallow
      · simp only [closing]
      · rfl
  | cons next others =>
      obtain ⟨stops, comma⟩ := first_solid (c := ',') (by decide)
        (memberChars (next :: others) ++ '\x7d' :: rest)
      have length : (memberChars ((key, value) :: next :: others)).length =
          (quoted key).length +
            (value.chars.length + ((memberChars (next :: others)).length + 1) + 1) := by
        simp [memberChars]
      have layout : memberChars ((key, value) :: next :: others) ++ '\x7d' :: rest =
          quoted key ++ ':' :: (value.chars ++
            ',' :: (memberChars (next :: others) ++ '\x7d' :: rest)) := by
        simp [memberChars]
      have start : skipSpace (memberChars (next :: others) ++ '\x7d' :: rest) =
          memberChars (next :: others) ++ '\x7d' :: rest := by
        obtain ⟨more, begins⟩ := exists_memberChars next others
        rw [begins]
        exact skipSpace_cons (by decide) _
      have read := values value bound _ sound.1 stops (by omega)
      have remaining := further next others bound rest sound.2 (by omega)
      rw [layout, members?, string?_quoted]
      simp only [colon, skipSpace_chars sound.1]
      by_cases shallow : value.depth ≤ bound
      · rw [read, if_pos shallow]
        simp only [comma, start, remaining, depthOfMembers, Nat.max_le, shallow, true_and]
        split_ifs <;> rfl
      · rw [read, if_neg shallow]
        simp only [depthOfMembers, Nat.max_le, shallow, false_and, if_false]

end Recursion

/-- Whatever the fuel, what it suffices for is read. -/
theorem reads_fuel (fuel : Nat) : ReadsValues fuel ∧ ReadsItems fuel ∧ ReadsMembers fuel := by
  induction fuel with
  | zero =>
      refine ⟨fun v bound rest sound _ enough => ?_, ?_, ?_⟩
      · obtain ⟨c, more, first, -⟩ := exists_first sound
        rw [first] at enough
        exact absurd enough (by simp)
      · exact fun _ _ _ _ _ enough => absurd enough (by omega)
      · exact fun _ _ _ _ _ enough => absurd enough (by omega)
  | succ fuel ih =>
      obtain ⟨values, items, members⟩ := ih
      exact ⟨readsValues_succ items members, readsItems_succ values items,
        readsMembers_succ values members⟩

/-- A printed value is read back in front of what does not continue it, if its containers
nest no deeper than the bound, and is refused otherwise. -/
theorem value?_chars {v : Json} (sound : v.Sound) {fuel : Nat} (bound : Nat) {rest : List Char}
    (stops : Stops rest) (enough : 2 * v.chars.length ≤ fuel) :
    value? standard fuel bound (v.chars ++ rest) =
      if v.depth ≤ bound then some (v, rest) else none :=
  (reads_fuel fuel).1 v bound rest sound stops enough

/-! ### Repeated keys -/

mutual

/-- Nothing is left to settle in a sound value. -/
theorem settle_of_sound : ∀ {v : Json}, v.Sound → settle v = v
  | .null, _ => rfl
  | .bool _, _ => rfl
  | .num _, _ => rfl
  | .str _, _ => rfl
  | .arr _, sound => congrArg Json.arr (settleItems_of_sound sound)
  | .obj members, sound => congrArg Json.obj (settleMembers_of_sound members [] sound.1 sound.2)

theorem settleItems_of_sound : ∀ {items : List Json}, SoundItems items → settleItems items = items
  | [], _ => rfl
  | _ :: _, sound => by
      rw [settleItems, settle_of_sound sound.1, settleItems_of_sound sound.2]

/-- Members with keys of their own are written one behind the other. -/
theorem settleMembers_of_sound : ∀ (members : List (String × Json)) (before : Object),
    (Object.keys (before ++ members)).Nodup → SoundMembers members →
    settleMembers members before = before ++ members
  | [], before, _, _ => (List.append_nil before).symm
  | (key, value) :: rest, before, distinct, sound => by
      have fresh : key ∉ before.keys := by
        rw [Object.keys, List.map_append, List.nodup_append] at distinct
        exact fun member => distinct.2.2 key member key List.mem_cons_self rfl
      have shifted : before ++ (key, value) :: rest = before ++ [(key, value)] ++ rest := by simp
      rw [shifted] at distinct ⊢
      rw [settleMembers, settle_of_sound sound.1, Object.insert_of_not_mem fresh]
      exact settleMembers_of_sound rest _ distinct sound.2

end

/-! ### Whole texts -/

/-- A printed value is parsed as it was printed up to the depth the reader knows, and
refused beyond it. -/
theorem parse?_text {v : Json} (sound : v.Sound) :
    parse? v.text = if v.depth ≤ 127 then some v else none := by
  obtain ⟨c, more, first, solid, -⟩ := exists_first sound
  have start : skipSpace v.text.toList = v.chars := by
    rw [text, String.toList_ofList, first, skipSpace_cons solid]
  have read := value?_chars sound 127 .nil
    (show 2 * v.chars.length ≤ 2 * v.chars.length + 2 by omega)
  rw [List.append_nil] at read
  have depth_standard : standard.depth = 127 := rfl
  by_cases shallow : v.depth ≤ 127
  · rw [if_pos shallow] at read
    simp only [parse?, read?, readRaw?, start, depth_standard, read, if_pos shallow]
    exact congrArg some (settle_of_sound sound)
  · rw [if_neg shallow] at read
    simp only [parse?, read?, readRaw?, start, depth_standard, read, if_neg shallow]
    rfl

/-- Sound values with one text are one value, however deep they are. -/
theorem text_injective {v w : Json} (left : v.Sound) (right : w.Sound) (same : v.text = w.text) :
    v = w := by
  have chars_eq : v.chars = w.chars := String.ofList_injective same
  have first := value?_chars left (max v.depth w.depth) .nil (Nat.le_refl _)
  have second := value?_chars right (max v.depth w.depth) .nil (Nat.le_refl _)
  rw [if_pos (Nat.le_max_left _ _), chars_eq] at first
  rw [if_pos (Nat.le_max_right _ _), first] at second
  exact congrArg Prod.fst (Option.some.inj second)

end RecordStore.Json
