/-
Module: RecordStore.Proofs.Path.Nesting
Purpose: Writes through names for which nothing is stored.  Every name of the path becomes an
  object in the one before it, so a value ends up as deep in the record as the path is long,
  and no path is too long.
Main exports: Json.nested, depth_nested, sound_nested, set_fresh, parse_names,
  applyPair_nests
-/
import RecordStore.Patch.Update
import RecordStore.Proofs.Json.RoundTrip
import RecordStore.Proofs.Path.Reading

namespace RecordStore

namespace Json

/-- A value inside one object for each of several names. -/
def nested (value : Json) : List String → Json
  | [] => value
  | key :: rest => .obj [(key, nested value rest)]

theorem depth_nested (value : Json) (names : List String) :
    depth (value.nested names) = names.length + depth value := by
  induction names with
  | nil => simp [nested]
  | cons key rest ih => simp [nested, depth, depthOfMembers, ih, Nat.add_right_comm]

theorem sound_nested {value : Json} (sound : value.Sound) (names : List String) :
    (value.nested names).Sound := by
  induction names with
  | nil => exact sound
  | cons key rest ih => exact ⟨List.pairwise_singleton _ key, ih, trivial⟩

end Json

/-! ### The walk -/

variable (path : FieldPath) (value : Json)

/-- The check finds nothing in the way of a write to what has to be made. -/
theorem checkFrom_fresh (first : String) (names : List String) :
    checkFrom path (.object none) ((first :: names).map .name) = .ok () := by
  induction names generalizing first with
  | nil => rfl
  | cons second rest ih => exact ih second

/-- Inside an object that was made every further name makes one. -/
theorem descendTo_fresh (first : String) (names : List String) :
    descendTo path (fun place => ((), place.assign value)) (.obj []) ((first :: names).map .name) =
      (.ok (), value.nested (first :: names)) := by
  induction names generalizing first with
  | nil => rfl
  | cons second rest ih =>
      have below := ih second
      simp only [List.map_cons] at below ⊢
      simp only [descendTo, Object.get?_nil, Option.getD_none, openContainer, Segment.isSelector,
        Bool.false_and, Bool.false_eq_true, if_false, below]
      rfl

/-- A write through names, the first of which the record does not have, appends a member in
which the value is nested. -/
theorem Object.set_fresh {record : Object} {root : String} {names : List String}
    (steps : path.segments = (root :: names).map .name) (fresh : record.get? root = none) :
    record.set path value = (.ok (), record.insert root (value.nested names)) := by
  unfold Object.set Object.edit checkWritable
  rw [steps]
  cases names with
  | nil => rfl
  | cons first rest =>
      have checked := checkFrom_fresh path first rest
      have walked := descendTo_fresh path value first rest
      simp only [List.map_cons] at checked walked ⊢
      simp only [checkFrom, checkStep, checkContainer, descendTo, openContainer, fresh,
        Option.bind_some, Option.getD_none, Segment.isSelector, Bool.false_and,
        Bool.false_eq_true, if_false, checked, walked]
      rfl

/-! ### The path -/

namespace FieldPath

/-- The path of several names, written with dots between them. -/
def ofNames (root : String) (names : List String) : FieldPath :=
  ⟨String.ofList (root.toList ++ names.flatMap fun name => '.' :: name.toList),
    (root :: names).map .name, false⟩

open PathGrammar in
theorem pathText_ofNames {root : String} {names : List String}
    (named : ∀ name ∈ root :: names, IsName name.toList) :
    PathText (root.toList ++ names.flatMap fun name => '.' :: name.toList)
      ((root :: names).map .name) false := by
  have step : ∀ name ∈ root :: names, PieceText name.toList [.name name] := by
    intro name member
    have piece := PieceText.name (named name member)
    rwa [String.ofList_toList] at piece
  induction names generalizing root with
  | nil =>
      rw [List.flatMap_nil, List.append_nil]
      exact .piece (step root List.mem_cons_self)
  | cons next rest ih =>
      have tail := ih (fun name member => named name (List.mem_cons_of_mem _ member))
        fun name member => step name (List.mem_cons_of_mem _ member)
      rw [List.flatMap_cons]
      exact .dotted (step root List.mem_cons_self) tail

/-- Names with dots between them are read as these names. -/
theorem parse_ofNames {root : String} {names : List String}
    (named : ∀ name ∈ root :: names, PathGrammar.IsName name.toList) :
    parse (ofNames root names).raw = .ok (ofNames root names) := by
  refine parse_of_pathText ?_
  rw [ofNames, String.toList_ofList]
  exact pathText_ofNames named

/-- A path below a field is no name without a dot. -/
theorem ofNames_raw_ne {root first name : String} {rest : List String}
    (plain : '.' ∉ name.toList) : (ofNames root (first :: rest)).raw ≠ name := by
  rintro rfl
  rw [ofNames, String.toList_ofList] at plain
  simp at plain

end FieldPath

/-! ### The patch -/

/-- Every name leads on where the structure is not declared. -/
theorem TypeCursor.walk?_undeclared {type : FieldType} (free : type.isOpaque)
    (names : List String) :
    (TypeCursor.undeclared type).walk? (names.map .name) = some (.undeclared type) := by
  induction names with
  | nil => rfl
  | cons name rest ih =>
      simp only [List.map_cons, TypeCursor.walk?, TypeCursor.step?, free, if_true,
        Option.bind_some, ih]

section Patch

variable {schema : Schema} {type : FieldType} {traits : Traits} {root first : String}
variable {rest : List String}
variable (declared : schema.field? root = some (.scalar type traits))
variable (free : type.isOpaque) (single : traits.isList = false)
include declared free single

/-- Names below a field without declared structure stand for values without declared
structure. -/
theorem Schema.resolve?_ofNames :
    schema.resolve? (.ofNames root (first :: rest)) = some ⟨type, false⟩ := by
  simp only [Schema.resolve?, FieldPath.ofNames, List.map_cons, Schema.cursor?, declared,
    Option.bind_some, TypeCursor.walk?, TypeCursor.step?, Field.isList, single,
    Bool.false_eq_true, if_false, TypeCursor.member?, free, if_true,
    TypeCursor.walk?_undeclared free rest]
  rfl

/-- A patch whose key goes through names below a field without declared structure, of which
the record has nothing yet, nests its value under these names. -/
theorem Patch.applyPair_nests {record : Object}
    (named : ∀ name ∈ root :: first :: rest, PathGrammar.IsName name.toList)
    (writable : isProtected schema (.field root) = false)
    (undeclared : schema.hasField (FieldPath.ofNames root (first :: rest)).raw = false)
    (fresh : record.get? root = none) (policy : UnknownFieldPolicy) :
    applyPair schema .cover policy record (FieldPath.ofNames root (first :: rest)).raw value =
      (.ok true, record.insert root (value.nested (first :: rest))) := by
  have read : schema.path (FieldPath.ofNames root (first :: rest)).raw =
      .ok (.ofNames root (first :: rest)) := by
    rw [Schema.path, FieldPath.parseWith, undeclared, Bool.and_false]
    exact FieldPath.parse_ofNames named
  have unprotected : isProtected schema (.ofNames root (first :: rest)) = false := writable
  have written := Object.set_fresh (.ofNames root (first :: rest)) value rfl fresh
  unfold applyPair
  simp only [read, unprotected, Schema.resolve?_ofNames declared free single, apply, cover, written]
  rfl

end Patch

end RecordStore
