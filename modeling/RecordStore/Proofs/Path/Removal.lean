/-
Module: RecordStore.Proofs.Path.Removal
Purpose: Taking out what a path reads.  A path that reads a value can also be written, so the
  removal reaches its place; it then overwrites the container of that place with the container
  without it.  An array closes up behind a lost element, an object moves its last member into the
  place of a lost one, and nothing else of the record changes.
Main exports: Json.KeysDistinct, Json.without, descendTo_take, TakenOut, remove_takes_out
-/
import RecordStore.Proofs.Json.RoundTrip
import RecordStore.Proofs.Path.ReadWrite

namespace RecordStore

open Json Segment

namespace Json

/-! ### Objects that repeat no key -/

/-- No object that a walk reaches repeats a key. -/
def KeysDistinct (value : Json) : Prop :=
  ∀ steps members, value.walk? steps = some (.obj members) → (Object.keys members).Nodup

/-- An element of sound elements is sound. -/
theorem sound_of_mem {items : List Json} (sound : SoundItems items) {item : Json}
    (member : item ∈ items) : item.Sound := by
  induction items with
  | nil => cases member
  | cons first rest ih =>
      rcases List.mem_cons.mp member with rfl | later
      · exact sound.1
      · exact ih sound.2 later

/-- A member of sound members is sound. -/
theorem sound_of_get? {members : Object} (sound : SoundMembers members) {key : String}
    {value : Json} (found : members.get? key = some value) : value.Sound := by
  induction members with
  | nil => cases found
  | cons member rest ih =>
      by_cases same : member.1 = key
      · rw [Object.get?, if_pos same, Option.some.injEq] at found
        exact found ▸ sound.1
      · rw [Object.get?_cons_of_ne same] at found
        exact ih sound.2 found

/-- What one step reads in a sound value is sound. -/
theorem Sound.step? {here value : Json} (sound : here.Sound) {segment : Segment}
    (reached : here.step? segment = some value) : value.Sound := by
  cases here with
  | obj members =>
      cases segment with
      | name key => exact sound_of_get? sound.2 reached
      | _ => cases reached
  | arr items =>
      cases segment with
      | name key => cases reached
      | index index => exact sound_of_mem sound (List.mem_of_getElem? reached)
      | element key text => exact sound_of_mem sound (List.mem_of_find?_eq_some reached)
  | _ => cases segment <;> cases reached

theorem Sound.keysDistinct {value : Json} (sound : value.Sound) : value.KeysDistinct := by
  intro steps members walked
  induction steps generalizing value with
  | nil =>
      cases walked
      exact sound.1
  | cons step rest ih =>
      obtain ⟨inner, reached, below⟩ := Option.bind_eq_some_iff.mp walked
      exact ih (sound.step? reached) below

/-! ### Places that are there -/

theorem Holds.isPlain {here : Json} {step : Segment} (holds : here.Holds step) : step.IsPlain := by
  cases step with
  | element key text => cases here <;> exact holds.elim
  | _ => trivial

/-- A step that reads a value stands, with its predicate fixed, for a place. -/
theorem holds_of_step? {here value : Json} {segment : Segment}
    (reached : here.step? segment = some value) : here.Holds (here.pinStep segment) := by
  cases here with
  | obj members =>
      cases segment with
      | name key => trivial
      | _ => cases reached
  | arr items =>
      cases segment with
      | name key => cases reached
      | index index => exact (List.getElem?_eq_some_iff.mp reached).1
      | element key text =>
          change items.find? (memberReads key text) = some value at reached
          rw [List.find?_eq_bind_findIdx?_getElem?, ← findElement?] at reached
          obtain ⟨index, found, stands⟩ := Option.bind_eq_some_iff.mp reached
          simp only [pinStep, found]
          exact (List.getElem?_eq_some_iff.mp stands).1
  | _ => cases segment <;> cases reached

/-- A path that reads a value stands, with its predicates fixed, for places that are there. -/
theorem fits_of_walk? {here value : Json} {segments : List Segment}
    (found : here.walk? segments = some value) :
    here.Fits (here.pin segments) ∧ AllPlain (here.pin segments) := by
  induction segments generalizing here with
  | nil => exact ⟨trivial, nofun⟩
  | cons segment rest ih =>
      obtain ⟨inner, reached, below⟩ := Option.bind_eq_some_iff.mp found
      have holds := holds_of_step? reached
      obtain ⟨fits, plain⟩ := ih below
      rw [pin, child_of_step? reached]
      refine ⟨⟨?_, ?_⟩, List.forall_mem_cons.mpr ⟨holds.isPlain, plain⟩⟩
      · rw [holds.opened_eq]
        exact holds
      · rw [child_pinStep, child_of_step? reached]
        exact fits

/-- A place is there if a longer one is. -/
theorem Fits.of_append {here : Json} {front back : List Segment}
    (fits : here.Fits (front ++ back)) : here.Fits front := by
  induction front generalizing here with
  | nil => trivial
  | cons step rest ih => exact ⟨fits.1, ih fits.2⟩

/-! ### The removing walk -/

/-- A container without what stands at the place of a step. -/
def without : Json → Segment → Json
  | .obj members, .name key => .obj (Object.erase members key)
  | .arr items, .index position => .arr (items.eraseIdx position)
  | here, _ => here

end Json

/-- Removing at the place of a last step leaves the container without it. -/
theorem remove_of_placeOf {path : FieldPath} {here : Json} {last : Segment} {place : Place}
    (named : placeOf path here last = .ok place) :
    place.remove = here.without (here.pinStep last) := by
  cases here with
  | obj members =>
      cases last with
      | name key =>
          cases named
          rfl
      | _ => cases named
  | arr items =>
      cases last with
      | name key => cases named
      | index index =>
          simp only [placeOf] at named
          split at named
          · cases named
            rfl
          · cases named
      | element key text =>
          cases found : findElement? items key text with
          | none => simp [placeOf, found] at named
          | some index =>
              simp only [placeOf, found, Except.ok.injEq] at named
              subst named
              simp only [pinStep, found]
              rfl
  | _ => cases last <;> cases named

/-- Where a walk reads a value, the removing walk answers it and overwrites its container with
the container without it. -/
theorem descendTo_take (path : FieldPath) {here value : Json} {segments : List Segment}
    (filled : segments ≠ []) (found : here.walk? segments = some value) :
    ∃ front last owner, here.pin segments = front ++ [last] ∧ here.walk? front = some owner ∧
      owner.Holds last ∧ owner.step? last = some value ∧
      descendTo path (fun place => (place.current, place.remove)) here segments =
        (.ok (some value), writeAt (owner.without last) here front) := by
  induction segments generalizing here with
  | nil => exact absurd rfl filled
  | cons segment rest ih =>
      obtain ⟨inner, reached, below⟩ := Option.bind_eq_some_iff.mp found
      cases rest with
      | nil =>
          cases below
          obtain ⟨place, named⟩ := exists_placeOf path reached
          refine ⟨[], here.pinStep segment, here, rfl, rfl, holds_of_step? reached, ?_, ?_⟩
          · rw [step?_pinStep, reached]
          · rw [descendTo, editLast_eq, named]
            simp only [current_of_placeOf named, reached, remove_of_placeOf named, writeAt]
      | cons next more =>
          obtain ⟨deeper, deep, -⟩ := Option.bind_eq_some_iff.mp below
          obtain ⟨front, last, owner, pinned, stands, holds, reads, walked⟩ :=
            ih (List.cons_ne_nil next more) below
          refine ⟨here.pinStep segment :: front, last, owner, ?_, ?_, holds, reads, ?_⟩
          · rw [pin, child_of_step? reached, pinned, List.cons_append]
          · rw [walk?_cons, step?_pinStep, reached]
            exact stands
          · rw [descendTo_cons, enterStep_of_step? reached deep]
            simp only [walked]
            rw [writeAt, opened_of_step? reached, child_pinStep, child_of_step? reached]

/-! ### Records -/

/-- `after` is `before` without the value at a place, which ends in a position of an array or in
a name of an object. -/
inductive TakenOut (before after : Object) (value : Json) : List Segment → Prop where
  /-- The elements behind a lost one move up by one; the places that are neither on the way to
  the array nor in it read as before. -/
  | element (front : List Segment) (earlier later : List Json)
      (stood : walk? (.obj before) front = some (.arr (earlier ++ value :: later)))
      (left : walk? (.obj after) front = some (.arr (earlier ++ later)))
      (frame : ∀ other : FieldPath, AllPlain other.segments → ¬ other.segments <+: front →
        ¬ front <+: other.segments → after.lookup? other = before.lookup? other) :
      TakenOut before after value (front ++ [.index earlier.length])
  /-- The last member behind a lost one moves into its place and the others keep theirs; the
  places that are neither on the way to the lost member nor in it read as before. -/
  | member (front : List Segment) (key : String) (earlier later : Object)
      (stood : walk? (.obj before) front = some (.obj (earlier ++ (key, value) :: later)))
      (left : walk? (.obj after) front =
        some (.obj (earlier ++ (later.getLast?.toList ++ later.dropLast))))
      (gone : walk? (.obj after) (front ++ [.name key]) = none)
      (frame : ∀ other : FieldPath, AllPlain other.segments →
        ¬ other.segments <+: front ++ [.name key] → ¬ front ++ [.name key] <+: other.segments →
        after.lookup? other = before.lookup? other) :
      TakenOut before after value (front ++ [.name key])

namespace Object

variable {record : Object} {path : FieldPath} {value : Json}

/-- Removing what a path reads answers it, and leaves its container without it. -/
theorem remove_of_lookup? (found : record.lookup? path = some value) :
    AllPlain (path.pinned record).segments ∧
      ∃ front last owner, (path.pinned record).segments = front ++ [last] ∧
        walk? (.obj record) front = some owner ∧ owner.Holds last ∧ owner.step? last = some value ∧
        ∃ after, record.remove path = (.ok (some value), after) ∧
          Overwritten (.obj record) (.obj after) front (owner.without last) := by
  have filled : path.segments ≠ [] := by
    intro none
    rw [lookup?, none] at found
    cases found
  have read := found
  rw [lookup?_eq_walk? record filled] at read
  obtain ⟨front, last, owner, pinned, stands, holds, reads, walked⟩ :=
    descendTo_take path filled read
  obtain ⟨whole, plain⟩ := fits_of_walk? read
  have fits : (Json.obj record).Fits front := by
    rw [pinned] at whole
    exact whole.of_append
  have checked : checkWritable record path = .ok () := by
    rw [checkWritable_eq fun place => (place.current, place.remove), walked]
    rfl
  refine ⟨plain, front, last, owner, pinned, stands, holds, reads,
    ofJson (writeAt (owner.without last) (.obj record) front), ?_, ?_⟩
  · simp only [remove, found, take, edit, checked, walked]
  · have whole : Json.obj (ofJson (writeAt (owner.without last) (.obj record) front)) =
        writeAt (owner.without last) (.obj record) front := by
      cases front with
      | nil =>
          obtain rfl : Json.obj record = owner := Option.some.inj stands
          cases last with
          | name key => rfl
          | _ => exact holds.elim
      | cons first rest => exact obj_ofJson_writeAt (List.cons_ne_nil first rest) fits
    rw [whole]
    exact overwritten_writeAt fits _

end Object

/-- Below an object that lost a member all other members read as before. -/
theorem Json.walk?_erase {members : Object} (distinct : members.keys.Nodup) {key : String}
    {steps : List Segment} (apart : ¬ [.name key] <+: steps) (filled : steps ≠ []) :
    walk? (.obj (members.erase key)) steps = walk? (.obj members) steps := by
  cases steps with
  | nil => exact absurd rfl filled
  | cons step rest =>
      have same : step? (.obj (members.erase key)) step = step? (.obj members) step := by
        cases step with
        | name other =>
            apply Object.get?_erase_of_ne distinct
            rintro rfl
            exact apart (List.cons_prefix_cons.mpr ⟨rfl, List.nil_prefix⟩)
        | _ => rfl
      rw [walk?_cons, walk?_cons, same]

namespace TakenOut

variable {before after : Object} {front : List Segment} {value : Json}

/-- Overwriting an array with the array without one element takes that element out. -/
theorem of_element {items : List Json} {index : Nat}
    (stands : walk? (.obj before) front = some (.arr items)) (reads : items[index]? = some value)
    (law : Overwritten (.obj before) (.obj after) front (.arr (items.eraseIdx index))) :
    TakenOut before after value (front ++ [.index index]) := by
  obtain ⟨inside, rfl⟩ := List.getElem?_eq_some_iff.mp reads
  have size : (items.take index).length = index := List.length_take_of_le inside.le
  have cut : items.take index ++ items[index] :: items.drop (index + 1) = items := by
    rw [List.getElem_cons_drop, List.take_append_drop]
  have taken : TakenOut before after items[index]
      (front ++ [.index (items.take index).length]) := by
    apply element front (items.take index) (items.drop (index + 1))
    case stood => rw [cut, stands]
    case left => rw [law.reads, List.eraseIdx_eq_take_drop_succ]
    case frame =>
      intro other plain above below
      have filled : other.segments ≠ [] := fun none => above (none ▸ List.nil_prefix)
      rw [Object.lookup?_eq_walk? after filled, Object.lookup?_eq_walk? before filled]
      exact law.frame other.segments plain above below
  rwa [size] at taken

/-- Overwriting an object, in which no key occurs twice, with the object without one member takes
that member out. -/
theorem of_member {members : Object} (distinct : members.keys.Nodup) {key : String}
    (stands : walk? (.obj before) front = some (.obj members))
    (reads : members.get? key = some value)
    (law : Overwritten (.obj before) (.obj after) front (.obj (members.erase key))) :
    TakenOut before after value (front ++ [.name key]) := by
  obtain ⟨earlier, later, split, fresh⟩ := Object.exists_split reads
  apply member front key earlier later
  case stood => rw [stands, split]
  case left => rw [law.reads, split, Object.erase_split fresh]
  case gone =>
    rw [walk?_append, law.reads, Option.bind_some, walk?_cons]
    change ((members.erase key).get? key).bind _ = none
    rw [Object.get?_erase_self distinct, Option.bind_none]
  case frame =>
    intro other plain above below
    have filled : other.segments ≠ [] := fun none => above (none ▸ List.nil_prefix)
    rw [Object.lookup?_eq_walk? after filled, Object.lookup?_eq_walk? before filled]
    by_cases beneath : front <+: other.segments
    case pos =>
      -- the rest of the way starts at the object that lost the member
      obtain ⟨rest, path⟩ := beneath
      rw [← path] at above below ⊢
      rw [List.prefix_append_right_inj] at above below
      rw [walk?_append, walk?_append, law.reads, stands]
      apply walk?_erase distinct below
      rintro rfl
      exact above List.nil_prefix
    case neg =>
      exact law.frame other.segments plain
        (fun shorter => above (shorter.trans (List.prefix_append front [.name key]))) beneath

end TakenOut

/-- Taking the value at a path out of a record never fails and answers what the path reads.  If
that is nothing the record stays as it is.  Otherwise the record loses exactly the value at the
place that the path stands for, with its predicates fixed on the record. -/
theorem remove_takes_out {record : Object} (distinct : (Json.obj record).KeysDistinct)
    (path : FieldPath) :
    (record.remove path).1 = .ok (record.lookup? path) ∧
      (record.lookup? path = none → (record.remove path).2 = record) ∧
      ∀ value, record.lookup? path = some value →
        AllPlain (path.pinned record).segments ∧
          TakenOut record (record.remove path).2 value (path.pinned record).segments := by
  cases found : record.lookup? path with
  | none =>
      have kept : record.remove path = (.ok none, record) := by rw [Object.remove, found]
      rw [kept]
      exact ⟨rfl, fun _ => rfl, nofun⟩
  | some value =>
      obtain ⟨plain, front, last, owner, pinned, stands, holds, reads, after, removed, law⟩ :=
        Object.remove_of_lookup? found
      rw [removed]
      refine ⟨rfl, nofun, ?_⟩
      rintro _ ⟨⟩
      refine ⟨plain, ?_⟩
      rw [pinned]
      cases owner with
      | obj members =>
          cases last with
          | name key => exact .of_member (distinct front members stands) stands reads law
          | _ => exact holds.elim
      | arr items =>
          cases last with
          | index index => exact .of_element stands reads law
          | _ => exact holds.elim
      | _ => exact holds.elim

/-- A member is taken out of the element that a predicate matches, and the last member behind it
moves into its place; an element that is `null` is taken out of its list. -/
theorem remove_takes_out_matched :
    let name : String × Json := ("name", .str "a")
    let matched : Json := .obj [("num", .str "15"), name, ("info", .null), ("note", .bool true)]
    let left : Json := .obj [("num", .str "15"), ("note", .bool true), ("info", .null)]
    let record : Object := [("items", .arr [.null, matched]), ("kept", .null)]
    let member : FieldPath :=
      ⟨"items[\x7bnum:15\x7d].name", [.name "items", .element "num" "15", .name "name"], false⟩
    let element : FieldPath := ⟨"items[0]", [.name "items", .index 0], false⟩
    (Json.obj record).KeysDistinct ∧
      (∃ after, record.remove member = (.ok (some (.str "a")), after) ∧
        after = [("items", .arr [.null, left]), ("kept", .null)] ∧
        TakenOut record after (.str "a") [.name "items", .index 1, .name "name"]) ∧
      ∃ after, record.remove element = (.ok (some .null), after) ∧
        after = [("items", .arr [matched]), ("kept", .null)] ∧
        TakenOut record after .null [.name "items", .index 0] := by
  intro name matched left record member element
  have distinct : (Json.obj record).KeysDistinct := by
    apply Sound.keysDistinct
    simp [record, matched, name, Sound, SoundItems, SoundMembers, Object.keys]
  obtain ⟨-, -, takesMember⟩ := remove_takes_out distinct member
  obtain ⟨-, -, takesElement⟩ := remove_takes_out distinct element
  exact ⟨distinct, ⟨_, rfl, rfl, (takesMember _ rfl).2⟩, _, rfl, rfl, (takesElement _ rfl).2⟩

end RecordStore
