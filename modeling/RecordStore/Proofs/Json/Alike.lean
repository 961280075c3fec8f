/-
Module: RecordStore.Proofs.Json.Alike
Purpose: Values of one structure.  Two values are alike when arrays agree element by element and
  objects key by key, whatever the order of the keys, when truth values and texts are identical
  and numbers are related in a way that is chosen.  The equality of values as they are written is
  one such likeness, as long as no object repeats a key.
Main exports: Json.Alike, Json.Alike.imp, Json.alike_and_iff, Json.Throughout,
  Json.same_iff_alike
-/
import Mathlib.Data.List.Perm.Subperm
import RecordStore.Proofs.Path.Removal

namespace RecordStore

namespace Binary64

/-- Two doubles have one value when they are numbers in one place. -/
theorem sameValue_iff {x y : Binary64} :
    x.sameValue y ↔ x.isNaN = false ∧ y.isNaN = false ∧ x.rank = y.rank := by
  cases left : x.isNaN <;> cases right : y.isNaN <;> simp [sameValue, compare?, left, right]

end Binary64

namespace Number

theorem same_symm {m n : Number} (equal : m.same n) : n.same m := by
  cases m <;> cases n <;> simp_all [same, Binary64.sameValue_iff]

theorem same_trans {l m n : Number} (first : l.same m) (second : m.same n) : l.same n := by
  cases l <;> cases m <;> cases n <;> simp_all [same, Binary64.sameValue_iff]

end Number

end RecordStore

namespace RecordStore.Json

/-- Two values of one structure with related numbers: arrays element by element, objects key by
key, all else identical. -/
inductive Alike (relates : Number → Number → Prop) : Json → Json → Prop where
  | null : Alike relates .null .null
  | bool (value : Bool) : Alike relates (.bool value) (.bool value)
  | num {m n : Number} (related : relates m n) : Alike relates (.num m) (.num n)
  | str (text : String) : Alike relates (.str text) (.str text)
  | arr {xs ys : List Json} (length : xs.length = ys.length)
      (items : ∀ (i : Nat) (x y : Json), xs[i]? = some x → ys[i]? = some y → Alike relates x y) :
      Alike relates (.arr xs) (.arr ys)
  | obj {xs ys : Object} (keys : ∀ key, key ∈ xs.keys ↔ key ∈ ys.keys)
      (members : ∀ (key : String) (x y : Json), xs.get? key = some x → ys.get? key = some y →
        Alike relates x y) :
      Alike relates (.obj xs) (.obj ys)

section Relations

variable {relates other : Number → Number → Prop} {x y : Json}

/-- A likeness is as strong as the relation of the numbers that stand at one place. -/
theorem Alike.imp (alike : Alike relates x y)
    (each : ∀ steps m n, x.walk? steps = some (.num m) → y.walk? steps = some (.num n) →
      relates m n → other m n) : Alike other x y := by
  induction alike with
  | null => exact .null
  | bool value => exact .bool value
  | num related => exact .num (each [] _ _ rfl rfl related)
  | str text => exact .str text
  | arr length items ih =>
      refine .arr length fun i x y here there => ih i x y here there fun steps m n => ?_
      have below := each (.index i :: steps) m n
      rwa [walk?_cons, walk?_cons, step?, step?, here, there] at below
  | obj keys members ih =>
      refine .obj keys fun key x y here there => ih key x y here there fun steps m n => ?_
      have below := each (.name key :: steps) m n
      rwa [walk?_cons, walk?_cons, step?, step?, here, there] at below

/-- Two likenesses at once are the likeness of both relations. -/
theorem alike_and_iff :
    Alike (fun m n => relates m n ∧ other m n) x y ↔ Alike relates x y ∧ Alike other x y := by
  constructor
  · intro both
    exact ⟨both.imp fun _ _ _ _ _ => And.left, both.imp fun _ _ _ _ _ => And.right⟩
  · rintro ⟨one, two⟩
    induction one with
    | null => exact .null
    | bool value => exact .bool value
    | num related =>
        cases two with
        | num related' => exact .num ⟨related, related'⟩
    | str text => exact .str text
    | arr length items ih =>
        cases two with
        | arr _ items' =>
            exact .arr length fun i x y here there => ih i x y here there (items' i x y here there)
    | obj keys members ih =>
        cases two with
        | obj _ members' =>
            exact .obj keys fun key x y here there =>
              ih key x y here there (members' key x y here there)

theorem Alike.symm (turned : ∀ m n, relates m n → relates n m) (alike : Alike relates x y) :
    Alike relates y x := by
  induction alike with
  | null => exact .null
  | bool value => exact .bool value
  | num related => exact .num (turned _ _ related)
  | str text => exact .str text
  | arr length items ih => exact .arr length.symm fun i y x there here => ih i x y here there
  | obj keys members ih =>
      exact .obj (fun key => (keys key).symm) fun key y x there here => ih key x y here there

theorem Alike.trans (chained : ∀ l m n, relates l m → relates m n → relates l n) {z : Json}
    (first : Alike relates x y) (second : Alike relates y z) : Alike relates x z := by
  induction first generalizing z with
  | num related =>
      cases second with
      | num related' => exact .num (chained _ _ _ related related')
  | @arr xs ys length items ih =>
      cases second with
      | @arr _ zs length' items' =>
          refine .arr (length.trans length') fun i x z here there => ?_
          have inside : i < ys.length := by
            rw [← length]
            exact (List.getElem?_eq_some_iff.mp here).1
          exact ih i x ys[i] here (List.getElem?_eq_getElem inside)
            (items' i ys[i] z (List.getElem?_eq_getElem inside) there)
  | @obj xs ys keys members ih =>
      cases second with
      | @obj _ zs keys' members' =>
          refine .obj (fun key => (keys key).trans (keys' key)) fun key x z here there => ?_
          have inside : key ∈ ys.keys :=
            (keys key).mp (List.mem_map_of_mem (Object.mem_of_get? here))
          obtain ⟨y, between⟩ := Object.exists_get? inside
          exact ih key x y here between (members' key y z between there)
  | _ => exact second

end Relations

/-! ### What holds throughout a value -/

/-- Every value that a walk reaches has a property. -/
def Throughout (holds : Json → Prop) (value : Json) : Prop :=
  ∀ steps inner, value.walk? steps = some inner → holds inner

namespace Throughout

variable {holds : Json → Prop}

/-- A property of a value and of everything one step away holds throughout it. -/
theorem intro {value : Json} (here : holds value)
    (below : ∀ segment inner, value.step? segment = some inner → inner.Throughout holds) :
    value.Throughout holds := by
  intro steps inner walked
  cases steps with
  | nil =>
      cases walked
      exact here
  | cons segment rest =>
      obtain ⟨next, stepped, later⟩ := Option.bind_eq_some_iff.mp walked
      exact below segment next stepped rest inner later

theorem leaf {value : Json} (here : holds value) (flat : ∀ segment, value.step? segment = none) :
    value.Throughout holds :=
  .intro here fun segment inner stepped => by rw [flat segment] at stepped; cases stepped

theorem num {n : Number} (here : holds (.num n)) : (Json.num n).Throughout holds :=
  .leaf here fun _ => rfl

theorem str {text : String} (here : holds (.str text)) : (Json.str text).Throughout holds :=
  .leaf here fun _ => rfl

theorem arr {items : List Json} (here : holds (.arr items))
    (below : ∀ item ∈ items, item.Throughout holds) : (Json.arr items).Throughout holds := by
  refine .intro here fun segment inner stepped => ?_
  cases segment with
  | name key => cases stepped
  | index i => exact below inner (List.mem_of_getElem? stepped)
  | element key text => exact below inner (List.mem_of_find?_eq_some stepped)

theorem obj {members : Object} (here : holds (.obj members))
    (below : ∀ member ∈ members, member.2.Throughout holds) :
    (Json.obj members).Throughout holds := by
  refine .intro here fun segment inner stepped => ?_
  cases segment with
  | name key => exact below (key, inner) (Object.mem_of_get? stepped)
  | _ => cases stepped

theorem walk? {here value : Json} (throughout : here.Throughout holds) {steps : List Segment}
    (reached : here.walk? steps = some value) : value.Throughout holds := by
  intro rest inner walked
  refine throughout (steps ++ rest) inner ?_
  rw [walk?_append, reached]
  exact walked

end Throughout

/-! ### Equality as written -/

/-- No object repeats a key when none does that a walk reaches. -/
theorem keysDistinct_iff {value : Json} :
    value.KeysDistinct ↔
      value.Throughout fun inner => ∀ members, inner = .obj members →
        (Object.keys members).Nodup := by
  constructor
  · rintro distinct steps _ walked members rfl
    exact distinct steps members walked
  · exact fun throughout steps members walked => throughout steps _ walked members rfl

theorem KeysDistinct.walk? {here value : Json} (distinct : here.KeysDistinct)
    {steps : List Segment} (reached : here.walk? steps = some value) : value.KeysDistinct :=
  keysDistinct_iff.mpr ((keysDistinct_iff.mp distinct).walk? reached)

/-- The elements of an array. -/
theorem KeysDistinct.item {items : List Json} (distinct : (Json.arr items).KeysDistinct) {i : Nat}
    {item : Json} (found : items[i]? = some item) : item.KeysDistinct := by
  have reached : (Json.arr items).walk? [.index i] = some item := by
    rw [walk?_cons, Json.step?, found]
    rfl
  exact distinct.walk? reached

/-- The members of an object. -/
theorem KeysDistinct.member {members : Object} (distinct : (Json.obj members).KeysDistinct)
    {key : String} {value : Json} (found : members.get? key = some value) :
    value.KeysDistinct := by
  have reached : (Json.obj members).walk? [.name key] = some value := by
    rw [walk?_cons, Json.step?, found]
    rfl
  exact distinct.walk? reached

/-- What a path reads in a record. -/
theorem KeysDistinct.lookup? {record : Object} (distinct : (Json.obj record).KeysDistinct)
    {path : FieldPath} {value : Json} (found : record.lookup? path = some value) :
    value.KeysDistinct := by
  have filled : path.segments ≠ [] := fun none => by
    rw [Object.lookup?, none] at found
    cases found
  rw [Object.lookup?_eq_walk? record filled] at found
  exact distinct.walk? found

theorem KeysDistinct.leaf {value : Json} (flat : ∀ segment, value.step? segment = none) :
    value.KeysDistinct :=
  keysDistinct_iff.mpr <| .leaf (fun members same => by
    -- an object without members has no step either
    cases members with
    | nil => exact .nil
    | cons member rest =>
        have stepped := flat (.name member.1)
        rw [same, Json.step?, Object.get?, if_pos rfl] at stepped
        cases stepped) flat

theorem KeysDistinct.arr {items : List Json} (below : ∀ item ∈ items, item.KeysDistinct) :
    (Json.arr items).KeysDistinct :=
  keysDistinct_iff.mpr <| .arr nofun fun item listed => keysDistinct_iff.mp (below item listed)

theorem KeysDistinct.obj {members : Object} (distinct : members.keys.Nodup)
    (below : ∀ member ∈ members, member.2.KeysDistinct) : (Json.obj members).KeysDistinct :=
  keysDistinct_iff.mpr <| .obj (fun _ same => by cases same; exact distinct)
    fun member listed => keysDistinct_iff.mp (below member listed)

theorem KeysDistinct.nodup {members : Object} (distinct : (Json.obj members).KeysDistinct) :
    members.keys.Nodup :=
  distinct [] members rfl

theorem sameItems_iff {xs ys : List Json} :
    sameItems xs ys ↔ xs.length = ys.length ∧
      ∀ (i : Nat) (x y : Json), xs[i]? = some x → ys[i]? = some y → same x y := by
  induction xs generalizing ys with
  | nil => cases ys <;> simp [sameItems]
  | cons first rest ih =>
      cases ys with
      | nil => simp [sameItems]
      | cons head tail =>
          rw [sameItems, Bool.and_eq_true, ih, List.length_cons, List.length_cons,
            Nat.add_right_cancel_iff]
          constructor
          · rintro ⟨here, length, later⟩
            refine ⟨length, fun i x y => ?_⟩
            cases i with
            | zero =>
                rintro ⟨⟩ ⟨⟩
                exact here
            | succ i => exact later i x y
          · rintro ⟨length, each⟩
            exact ⟨each 0 first head rfl rfl, length, fun i x y => each (i + 1) x y⟩

theorem sameMembers_iff {xs : List (String × Json)} {ys : Object} :
    sameMembers xs ys ↔
      ∀ member ∈ xs, ∃ found, ys.get? member.1 = some found ∧ same member.2 found := by
  induction xs with
  | nil => simp [sameMembers]
  | cons first rest ih =>
      rw [sameMembers, Bool.and_eq_true, ih, List.forall_mem_cons]
      refine and_congr_left fun _ => ?_
      cases ys.get? first.1 <;> simp

/-- Objects that repeat no key are the same when they have the same keys, and the same value under
each. -/
theorem same_obj_iff {xs ys : Object} (left : xs.keys.Nodup) (right : ys.keys.Nodup) :
    same (.obj xs) (.obj ys) ↔ (∀ key, key ∈ xs.keys ↔ key ∈ ys.keys) ∧
      ∀ (key : String) (x y : Json), xs.get? key = some x → ys.get? key = some y → same x y := by
  rw [same, Bool.and_eq_true, beq_iff_eq, sameMembers_iff]
  have lengths : xs.keys.length = xs.length ∧ ys.keys.length = ys.length := by
    simp [Object.keys]
  constructor
  · rintro ⟨length, each⟩
    have inside : xs.keys ⊆ ys.keys := by
      intro key listed
      obtain ⟨member, there, rfl⟩ := List.mem_map.mp listed
      obtain ⟨found, hit, -⟩ := each member there
      by_contra absent
      rw [Object.get?_eq_none_iff.mpr absent] at hit
      cases hit
    -- as many keys, all of them among the others, are all of the others
    have swapped : xs.keys.Perm ys.keys :=
      (List.subperm_of_subset left inside).perm_of_length_le (by omega)
    refine ⟨fun key => swapped.mem_iff, fun key x y here there => ?_⟩
    obtain ⟨earlier, later, rfl, -⟩ := Object.exists_split here
    obtain ⟨found, hit, equal⟩ := each (key, x) (by simp)
    rw [there] at hit
    cases hit
    exact equal
  · rintro ⟨keys, each⟩
    have swapped : xs.keys.Perm ys.keys := (List.perm_ext_iff_of_nodup left right).mpr keys
    refine ⟨by have same := swapped.length_eq; omega, fun member there => ?_⟩
    have here := Object.get?_of_mem left there
    cases found : ys.get? member.1 with
    | none =>
        have absent := (keys member.1).not.mpr (Object.get?_eq_none_iff.mp found)
        exact absurd (List.mem_map_of_mem there) absent
    | some value => exact ⟨value, rfl, each member.1 member.2 value here found⟩

/-- Values that are the same as written are alike; the recursion is on the first of them. -/
theorem alike_of_same : ∀ x y : Json, x.KeysDistinct → y.KeysDistinct → same x y →
    Alike (fun m n => m.same n) x y
  | .null, y, _, _, equal => by
      cases y <;> first | exact .null | cases equal
  | .bool a, y, _, _, equal => by
      cases y with
      | bool b =>
          obtain rfl : a = b := by simpa [same] using equal
          exact .bool a
      | _ => cases equal
  | .num m, y, _, _, equal => by
      cases y with
      | num n => exact .num equal
      | _ => cases equal
  | .str a, y, _, _, equal => by
      cases y with
      | str b =>
          obtain rfl : a = b := by simpa [same] using equal
          exact .str a
      | _ => cases equal
  | .arr xs, y, left, right, equal => by
      cases y with
      | arr ys =>
          obtain ⟨length, each⟩ := sameItems_iff.mp equal
          refine .arr length fun i x y here there => ?_
          have smaller := List.sizeOf_lt_of_mem (List.mem_of_getElem? here)
          exact alike_of_same x y (left.item here) (right.item there) (each i x y here there)
      | _ => cases equal
  | .obj xs, y, left, right, equal => by
      cases y with
      | obj ys =>
          obtain ⟨keys, each⟩ := (same_obj_iff left.nodup right.nodup).mp equal
          refine .obj keys fun key x y here there => ?_
          have smaller : sizeOf x < sizeOf xs := by
            have inside := List.sizeOf_lt_of_mem (Object.mem_of_get? here)
            rw [Prod.mk.sizeOf_spec] at inside
            omega
          exact alike_of_same x y (left.member here) (right.member there) (each key x y here there)
      | _ => cases equal
termination_by x => sizeOf x
decreasing_by all_goals simp only [arr.sizeOf_spec, obj.sizeOf_spec]; omega

theorem same_of_alike {x y : Json} (left : x.KeysDistinct) (right : y.KeysDistinct)
    (alike : Alike (fun m n => m.same n) x y) : same x y := by
  induction alike with
  | null => rfl
  | bool value => simp [same]
  | num related => exact related
  | str text => simp [same]
  | arr length items ih =>
      refine sameItems_iff.mpr ⟨length, fun i x y here there => ih i x y here there ?_ ?_⟩
      · exact left.item here
      · exact right.item there
  | obj keys members ih =>
      refine (same_obj_iff left.nodup right.nodup).mpr ⟨keys, fun key x y here there =>
        ih key x y here there ?_ ?_⟩
      · exact left.member here
      · exact right.member there

/-- Values whose objects repeat no key are the same as written when they are alike with their
numbers the same as written. -/
theorem same_iff_alike {x y : Json} (left : x.KeysDistinct) (right : y.KeysDistinct) :
    same x y ↔ Alike (fun m n => m.same n) x y :=
  ⟨alike_of_same x y left right, same_of_alike left right⟩

section Congruence

variable {v w : Json} (left : v.KeysDistinct) (right : w.KeysDistinct) (equal : same v w)
include left right equal

theorem same_symm : same w v :=
  same_of_alike right left ((alike_of_same v w left right equal).symm
    fun _ _ => Number.same_symm)

/-- Values that are the same as written are the same as the same values. -/
theorem same_congr {x : Json} (distinct : x.KeysDistinct) : same x v = same x w := by
  have through {a b : Json} (here : a.KeysDistinct) (there : b.KeysDistinct) (equal : same a b)
      (hit : same x a) : same x b := by
    have chained : ∀ l m n : Number, l.same m → m.same n → l.same n :=
      fun _ _ _ => Number.same_trans
    exact same_of_alike distinct there ((alike_of_same x a distinct here hit).trans chained
      (alike_of_same a b here there equal))
  exact Bool.eq_iff_iff.mpr
    ⟨through left right equal, through right left (same_symm left right equal)⟩

end Congruence

end RecordStore.Json
