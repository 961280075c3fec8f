/-
Module: RecordStore.Proofs.Relational.Codec
Purpose: The codec of cells under encoding again.  Decoding may answer another value than
  was encoded: a number for its text, a truth value for a number, the text of a list that a
  scalar column cannot hold.  But what it answers is encoded to the same cell again, so a
  record that is read and written back keeps the cells it was made of.
Main exports: Number.IsProper, Json.Storable, Column.Restores, normalizeKeys_normalizeKeys,
  decode_json, restores_encode, encodeAssignments_recordOf, column_codec_stable
-/
import Mathlib.Data.List.Nodup
import RecordStore.Proofs.Json.RoundTrip
import RecordStore.Proofs.Number.Exact
import RecordStore.Proofs.Relational.Creating

namespace RecordStore

/-! ### Values that are stored -/

/-- What a JSON number can be: an integer of 64 bits, signed or unsigned, or a finite
double. -/
def Number.IsProper : Number → Prop
  | .int value => minInt64 ≤ value ∧ value ≤ maxNat64
  | .float x => x.isFinite

/-- Values that a record can have: what is printed of them reads back, and they nest no
deeper than the reader of JSON text goes. -/
structure Json.Storable (v : Json) : Prop where
  sound : v.Sound
  shallow : v.depth ≤ 127
  proper : ∀ n, v = .num n → n.IsProper

namespace Json

mutual

/-- Reading keys changes no depth. -/
theorem depth_normalizeKeys : ∀ v : Json, (normalizeKeys v).depth = v.depth
  | .null => rfl
  | .bool _ => rfl
  | .num _ => rfl
  | .str text => by
      simp only [normalizeKeys]
      split <;> rfl
  | .arr items => by simp [normalizeKeys, depth, depthOfItems_normalizeKeys items]
  | .obj _ => rfl

theorem depthOfItems_normalizeKeys : ∀ items : List Json,
    depthOfItems (normalizeKeyItems items) = depthOfItems items
  | [] => rfl
  | item :: rest => by
      simp [normalizeKeyItems, depthOfItems, depth_normalizeKeys item,
        depthOfItems_normalizeKeys rest]

end

/-- Integers that were read from texts are legible. -/
theorem legible_of_int64? {text : String} {i : Int} (read : Numeral.int64? text = some i) :
    Legible (.int i) := by
  have fits := Numeral.fitsInt64_of_int64? read
  rw [fitsInt64, Bool.and_eq_true, decide_eq_true_eq, decide_eq_true_eq] at fits
  refine legible_int fits.1 (Int.le_trans fits.2 ?_)
  decide

mutual

/-- Keys that are read are sound. -/
theorem sound_normalizeKeys : ∀ {v : Json}, v.Sound → (normalizeKeys v).Sound
  | .null, _ => trivial
  | .bool _, _ => trivial
  | .num _, sound => sound
  | .str text, _ => by
      simp only [normalizeKeys]
      split
      · rename_i read
        exact legible_of_int64? read
      · trivial
  | .arr _, sound => soundItems_normalizeKeys sound
  | .obj _, sound => sound

theorem soundItems_normalizeKeys : ∀ {items : List Json}, SoundItems items →
    SoundItems (normalizeKeyItems items)
  | [], _ => trivial
  | _ :: _, sound => ⟨sound_normalizeKeys sound.1, soundItems_normalizeKeys sound.2⟩

end

mutual

/-- Keys that were read are read as they are. -/
theorem normalizeKeys_normalizeKeys : ∀ v : Json, normalizeKeys (normalizeKeys v) = normalizeKeys v
  | .null => rfl
  | .bool _ => rfl
  | .num _ => rfl
  | .str text => by
      cases read : Numeral.int64? (Text.trim text) with
      | some i => simp [normalizeKeys, read, int]
      | none => simp [normalizeKeys, read]
  | .arr items => congrArg Json.arr (normalizeKeyItems_normalizeKeyItems items)
  | .obj _ => rfl

theorem normalizeKeyItems_normalizeKeyItems : ∀ items : List Json,
    normalizeKeyItems (normalizeKeyItems items) = normalizeKeyItems items
  | [] => rfl
  | item :: rest => by
      simp only [normalizeKeyItems, normalizeKeys_normalizeKeys item,
        normalizeKeyItems_normalizeKeyItems rest]

end

end Json

/-! ### Texts that are no numbers -/

/-- A text that is read as a number spells an integer or a finite double. -/
theorem SqlValue.ofNumericText?_cases {text : String} {value : SqlValue}
    (read : ofNumericText? text = some value) :
    (∃ i, Numeral.int64? (Text.trim text) = some i ∧ value = .int i) ∨
      ∃ x, Numeral.binary64? (Text.trim text) = some x ∧ x.isFinite ∧ value = .real x := by
  unfold ofNumericText? at read
  dsimp only at read
  split at read
  · rename_i i whole
    cases read
    exact .inl ⟨i, whole, rfl⟩
  · split at read
    · rename_i x part
      split at read <;> cases read
      rename_i finite
      exact .inr ⟨x, part, finite, rfl⟩
    · cases read

theorem SqlValue.ofNumericText?_eq_none {text : String}
    (whole : Numeral.int64? (Text.trim text) = none)
    (part : Numeral.binary64? (Text.trim text) = none) : ofNumericText? text = none := by
  cases read : ofNumericText? text with
  | none => rfl
  | some value =>
      rcases ofNumericText?_cases read with ⟨i, spelled, -⟩ | ⟨x, spelled, -⟩
      · rw [whole] at spelled
        cases spelled
      · rw [part] at spelled
        cases spelled

/-- A text that begins as those of arrays and objects do. -/
def Text.Opens (text : String) : Prop :=
  ∃ c more, text.toList = c :: more ∧ (c = '[' ∨ c = '\x7b')

namespace Text.Opens

theorem arr (items : List Json) : Opens (Json.text (.arr items)) :=
  ⟨'[', _, String.toList_ofList, .inl rfl⟩

theorem obj (members : Object) : Opens (Json.text (.obj members)) :=
  ⟨'\x7b', _, String.toList_ofList, .inr rfl⟩

variable {text : String}

/-- Trimming keeps the first character, which is no blank. -/
theorem trimmed (opens : Opens text) : Opens (trim text) := by
  obtain ⟨c, more, first, bracket⟩ := opens
  have solid : isBlank c = false := by rcases bracket with rfl | rfl <;> decide
  have front : (c :: more).dropWhile isBlank = c :: more := by simp [solid]
  have kept : trimChars (c :: more) = c :: (more.reverse.dropWhile isBlank).reverse := by
    rw [trimChars, front, List.reverse_cons, List.dropWhile_append]
    cases more.reverse.dropWhile isBlank <;> simp [solid]
  exact ⟨c, _, by rw [trim, first, kept, String.toList_ofList], bracket⟩

/-- Such a text is no numeral: it begins with neither a sign nor a digit. -/
theorem int64? (opens : Opens text) : Numeral.int64? text = none := by
  obtain ⟨c, more, first, bracket⟩ := opens
  unfold Numeral.int64?
  rw [first]
  rcases bracket with rfl | rfl <;> rfl

/-- Such a text is no word: capitals are made small, brackets stay. -/
theorem lower_ne (opens : Opens text) {word : String}
    (letter : word.toList.head? ≠ some '[' ∧ word.toList.head? ≠ some '\x7b') :
    lower text ≠ word := by
  obtain ⟨c, more, first, bracket⟩ := opens
  rintro rfl
  rw [lower, String.toList_ofList, first] at letter
  rcases bracket with rfl | rfl
  · exact letter.1 rfl
  · exact letter.2 rfl

theorem binary64? (opens : Opens text) : Numeral.binary64? text = none := by
  have other {word : String}
      (letter : word.toList.head? ≠ some '[' ∧ word.toList.head? ≠ some '\x7b') :
      lower text ≠ word := opens.lower_ne letter
  obtain ⟨c, more, first, bracket⟩ := opens
  have unsigned : Numeral.sign text.toList = (false, text.toList) := by
    rw [first]
    rcases bracket with rfl | rfl <;> rfl
  have no_digits : Numeral.decimal? text.toList = none := by
    rw [first, Numeral.decimal?, List.span_eq_takeWhile_dropWhile]
    rcases bracket with rfl | rfl <;> rfl
  have no_word : lower text ≠ "inf" ∧ lower text ≠ "infinity" ∧ lower text ≠ "nan" :=
    ⟨other (by decide), other (by decide), other (by decide)⟩
  simp [Numeral.binary64?, unsigned, String.ofList_toList, no_word, no_digits]

theorem ofNumericText? (opens : Opens text) : SqlValue.ofNumericText? text = none :=
  SqlValue.ofNumericText?_eq_none opens.trimmed.int64? opens.trimmed.binary64?

/-- Such a text is no truth value. -/
theorem not_truth (opens : Opens text) :
    sameFolded text "true" = false ∧ sameFolded text "false" = false :=
  ⟨beq_eq_false_iff_ne.mpr (opens.lower_ne (by decide)),
    beq_eq_false_iff_ne.mpr (opens.lower_ne (by decide))⟩

end Text.Opens

/-! ### Cells that are encoded again as they are -/

namespace Column

/-- Whether what a cell is decoded to is encoded to the cell again. -/
def Restores (column : Column) (cell : SqlValue) : Prop :=
  (column.decode (.value cell)).map column.encode = some cell

variable {column : Column}

theorem restores_null : column.Restores .null := by
  unfold Restores decode
  cases column.kind <;> rfl

/-- A text that a scalar column would store for itself. -/
theorem restores_text (scalar : column.kind ≠ .json) {text : String}
    (kept : column.encode (.str text) = .text text) : column.Restores (.text text) := by
  have read : column.decode (.value (.text text)) = some (.str text) := by
    unfold decode
    cases kind : column.kind <;> first | rfl | exact absurd kind scalar
  rw [Restores, read, Option.map_some, kept]

section Numbers

variable (numeric : column.kind = .key ∨ column.kind = .id ∨ column.kind = .numeric)
include numeric

theorem encode_num (n : Number) : column.encode (.num n) = SqlValue.ofNumber n := by
  rcases numeric with kind | kind | kind <;>
    simp [encode, kind, SqlValue.ofKey, encodeNumeric]

theorem decode_scalar (cell : SqlValue) :
    column.decode (.value cell) = (Cell.value cell).scalar? := by
  rcases numeric with kind | kind | kind <;> simp [decode, kind]

theorem restores_int {i : Int} (small : i ≤ maxInt64) : column.Restores (.int i) := by
  rw [Restores, decode_scalar numeric]
  simp [Cell.scalar?, Json.int, encode_num numeric, SqlValue.ofNumber, Number.int64?, small]

theorem restores_real {x : Binary64} (finite : x.isFinite) : column.Restores (.real x) := by
  rw [Restores, decode_scalar numeric]
  simp [Cell.scalar?, Number.ofBinary64?, finite, encode_num numeric, SqlValue.ofNumber,
    Number.int64?, Number.toBinary64]

theorem restores_ofNumber {n : Number} (proper : n.IsProper) :
    column.Restores (SqlValue.ofNumber n) := by
  cases n with
  | float x => exact restores_real numeric proper
  | int value =>
      by_cases small : value ≤ maxInt64
      · have kept : SqlValue.ofNumber (.int value) = .int value := by
          simp [SqlValue.ofNumber, Number.int64?, small]
        exact kept ▸ restores_int numeric small
      · have wide : SqlValue.ofNumber (.int value) = .real (Binary64.ofInt value) := by
          simp [SqlValue.ofNumber, Number.int64?, small, Number.toBinary64]
        have bound : value.natAbs < 2 ^ 64 := by
          obtain ⟨-, high⟩ := proper
          unfold maxInt64 at small
          unfold maxNat64 at high
          omega
        exact wide ▸ restores_real numeric (Binary64.isFinite_ofInt bound)

end Numbers

theorem restores_ofBool (truths : column.kind = .boolean ∨ column.kind = .numeric) (b : Bool) :
    column.Restores (SqlValue.ofBool b) := by
  rcases truths with kind | kind
  · cases b <;> simp [Restores, decode, encode, kind, SqlValue.ofBool, encodeBoolean]
  · cases b <;> exact restores_int (.inr (.inr kind)) (by decide)

/-- A key is stored as a number, or as its text when that is none. -/
theorem restores_ofKey (keys : column.kind = .key ∨ column.kind = .id) {v : Json}
    (proper : ∀ n, v = .num n → n.IsProper) : column.Restores (SqlValue.ofKey v) := by
  have numeric : column.kind = .key ∨ column.kind = .id ∨ column.kind = .numeric :=
    keys.imp_right .inl
  have scalar : column.kind ≠ .json := by rcases keys with kind | kind <;> simp [kind]
  have text {text : String} (plain : Numeral.int64? (Text.trim text) = none) :
      column.Restores (.text text) := by
    refine restores_text scalar ?_
    rcases keys with kind | kind <;> simp [encode, kind, SqlValue.ofKey, plain]
  cases v with
  | null => exact text (by decide)
  | bool b => cases b <;> exact text (by decide)
  | num n => exact restores_ofNumber numeric (proper n rfl)
  | str written =>
      cases read : Numeral.int64? (Text.trim written) with
      | some i =>
          have small : i ≤ maxInt64 := SqlValue.Bounded.ofInt64? read i rfl
          simpa [SqlValue.ofKey, read] using restores_int numeric small
      | none => simpa [SqlValue.ofKey, read] using text read
  | arr items => exact text (Text.Opens.arr items).trimmed.int64?
  | obj members => exact text (Text.Opens.obj members).trimmed.int64?

theorem restores_encodeNumeric (kind : column.kind = .numeric) {v : Json}
    (proper : ∀ n, v = .num n → n.IsProper) (present : v ≠ .null) :
    column.Restores (encodeNumeric v) := by
  have numeric : column.kind = .key ∨ column.kind = .id ∨ column.kind = .numeric :=
    .inr (.inr kind)
  have text {text : String} (plain : SqlValue.ofNumericText? text = none) :
      column.Restores (.text text) := by
    have encoded : column.encode (.str text) =
        (SqlValue.ofNumericText? text).getD (.text text) := by
      unfold encode
      rw [kind]
      rfl
    exact restores_text (by simp [kind]) (by rw [encoded, plain, Option.getD_none])
  cases v with
  | null => exact absurd rfl present
  | bool b => exact restores_ofBool (.inr kind) b
  | num n => exact restores_ofNumber numeric (proper n rfl)
  | str written =>
      cases read : SqlValue.ofNumericText? written with
      | none =>
          rw [encodeNumeric, read]
          exact text read
      | some value =>
          rw [encodeNumeric, read]
          rcases SqlValue.ofNumericText?_cases read with ⟨i, whole, rfl⟩ | ⟨x, -, finite, rfl⟩
          · exact restores_int numeric (SqlValue.Bounded.ofInt64? whole i rfl)
          · exact restores_real numeric finite
  | arr items => exact text (Text.Opens.arr items).ofNumericText?
  | obj members => exact text (Text.Opens.obj members).ofNumericText?

theorem restores_encodeBoolean (kind : column.kind = .boolean) {v : Json} (present : v ≠ .null) :
    column.Restores (encodeBoolean v) := by
  have text {text : String}
      (plain : Text.sameFolded text "true" = false ∧ Text.sameFolded text "false" = false) :
      column.Restores (.text text) :=
    restores_text (by simp [kind]) (by simp [encode, kind, encodeBoolean, plain])
  cases v with
  | null => exact absurd rfl present
  | bool b => exact restores_ofBool (.inl kind) b
  | num n => exact restores_ofBool (.inl kind) _
  | str written =>
      simp only [encodeBoolean]
      split
      · exact restores_ofBool (.inl kind) true
      · split
        · exact restores_ofBool (.inl kind) false
        · rename_i notTrue notFalse
          exact text ⟨Bool.eq_false_iff.mpr notTrue, Bool.eq_false_iff.mpr notFalse⟩
  | arr items => exact text (Text.Opens.arr items).not_truth
  | obj members => exact text (Text.Opens.obj members).not_truth

/-- What a JSON column stores of a value: the value itself, or with its keys read. -/
def normal (column : Column) (v : Json) : Json :=
  if column.element = some .id then normalizeKeys v else v

theorem normal_normal (column : Column) (v : Json) :
    column.normal (column.normal v) = column.normal v := by
  unfold normal
  split
  · exact Json.normalizeKeys_normalizeKeys v
  · rfl

theorem normal_ne_null {v : Json} (present : v ≠ .null) : column.normal v ≠ .null := by
  unfold normal
  split
  · cases v with
    | null => exact absurd rfl present
    | str text =>
        simp only [normalizeKeys]
        split <;> simp [Json.int]
    | _ => simp [normalizeKeys]
  · exact present

theorem encode_json (kind : column.kind = .json) {v : Json} (present : v ≠ .null) :
    column.encode v = .text (column.normal v).text := by
  cases v with
  | null => exact absurd rfl present
  | _ => simp only [encode, kind, normal]

/-- A JSON column answers what it stores. -/
theorem decode_json (kind : column.kind = .json) {v : Json} (storable : v.Storable)
    (present : v ≠ .null) :
    column.decode (.value (column.encode v)) = some (column.normal v) := by
  have readable : (column.normal v).Sound ∧ (column.normal v).depth ≤ 127 := by
    unfold normal
    split
    · exact ⟨Json.sound_normalizeKeys storable.sound,
        (Json.depth_normalizeKeys v).symm ▸ storable.shallow⟩
    · exact ⟨storable.sound, storable.shallow⟩
  rw [encode_json kind present]
  simp only [decode, kind, Json.parse?_text readable.1, if_pos readable.2, Option.getD_some]

/-- What a cell that was encoded is decoded to is encoded to the same cell. -/
theorem restores_encode (column : Column) {v : Json} (storable : v.Storable) :
    column.Restores (column.encode v) := by
  by_cases absent : v = .null
  · rw [absent]
    exact restores_null
  · have encoded : column.encode v =
        if column.kind = .key ∨ column.kind = .id then SqlValue.ofKey v
        else if column.kind = .numeric then encodeNumeric v
        else if column.kind = .boolean then encodeBoolean v
        else if column.kind = .text then .text v.looseText
        else .text (column.normal v).text := by
      unfold encode
      cases v with
      | null => exact absurd rfl absent
      | _ => cases column.kind <;> rfl
    cases kind : column.kind with
    | key => simpa [encoded, kind] using restores_ofKey (.inl kind) storable.proper
    | id => simpa [encoded, kind] using restores_ofKey (.inr kind) storable.proper
    | numeric =>
        simpa [encoded, kind] using restores_encodeNumeric kind storable.proper absent
    | boolean => simpa [encoded, kind] using restores_encodeBoolean kind absent
    | text =>
        rw [encoded, kind]
        exact restores_text (by simp [kind]) (by simp [encode, kind, Json.looseText])
    | json =>
        rw [Restores, decode_json kind storable absent, Option.map_some,
          encode_json kind (normal_ne_null absent), normal_normal, encode_json kind absent]

end Column

/-! ### Records that are written back -/

open Relational in
/-- The record of a row has under the name of a column what the cell is decoded to. -/
theorem get?_recordOf {columns : List Column} (distinct : (columns.map Column.name).Nodup)
    (row : Row) {column : Column} (member : column ∈ columns) :
    (recordOf columns row).get? column.name = column.decode (.value (row.get column.name)) := by
  obtain ⟨value, decoded⟩ :=
    Option.isSome_iff_exists.mp (decode_isSome column (row.get column.name))
  rw [get?_recordOf_of_find? (find?_of_nodup distinct member), decoded, Option.getD_some]

open Relational in
/-- A record that was read from a row of encoded cells is written back as the same cells. -/
theorem encodeAssignments_recordOf {columns : List Column}
    (distinct : (columns.map Column.name).Nodup) {row : Row}
    (restores : ∀ column ∈ columns, column.Restores (row.get column.name)) :
    encodeAssignments columns (recordOf columns row) =
      (columns.filter fun column => column.kind != .key).map fun column =>
        (column.name, row.get column.name) := by
  refine List.map_congr_left fun column kept => ?_
  have member := List.mem_of_mem_filter kept
  obtain ⟨value, decoded, encoded⟩ := Option.map_eq_some_iff.mp (restores column member)
  rw [get?_recordOf distinct row member, decoded, Option.getD_some, encoded]

/-- What a cell that was encoded is decoded to, is encoded to the same cell again, in every
column and for every value.  From a JSON column the value itself comes back or, from a list
of keys, the value with its integer texts read as integers. -/
theorem column_codec_stable (column : Column) {v : Json} (storable : v.Storable) :
    (column.decode (.value (column.encode v))).map column.encode = some (column.encode v) ∧
      (column.kind = .json → v ≠ .null →
        column.decode (.value (column.encode v)) =
          some (if column.element = some .id then normalizeKeys v else v)) :=
  ⟨column.restores_encode storable, fun kind present => Column.decode_json kind storable present⟩

/-- A list of keys, an unsigned integer beyond the signed ones, and a list that a truth
column stores as text. -/
theorem column_codec_stable_lossy :
    let keys : Column := ⟨"pets", .json, some .id, false⟩
    let number : Column := ⟨"age", .numeric, none, false⟩
    let truth : Column := ⟨"active", .boolean, none, false⟩
    let given : Json := .arr [.str " 7", .arr [.str "x"], .obj [("id", .str "7")]]
    let wide : Json := .num (.int 18446744073709551615)
    keys.decode (.value (keys.encode given)) =
        some (.arr [.int 7, .arr [.str "x"], .obj [("id", .str "7")]]) ∧
      (number.decode (.value (number.encode wide))).map number.encode =
        some (number.encode wide) ∧
      (truth.decode (.value (truth.encode given))).map truth.encode = some (truth.encode given) := by
  intro keys number truth given wide
  have shown : given.Storable :=
    ⟨⟨trivial, ⟨trivial, trivial⟩, ⟨by decide, trivial, trivial⟩, trivial⟩, by decide,
      fun _ other => nomatch other⟩
  have large : wide.Storable :=
    ⟨Json.legible_int (by decide) (by decide), by decide,
      fun n same => Json.num.inj same ▸ ⟨by decide, by decide⟩⟩
  exact ⟨(column_codec_stable keys shown).2 rfl (fun other => nomatch other),
    (column_codec_stable number large).1, (column_codec_stable truth shown).1⟩

end RecordStore
