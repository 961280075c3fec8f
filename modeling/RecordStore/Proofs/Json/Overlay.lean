/-
Module: RecordStore.Proofs.Json.Overlay
Purpose: Laws of writing the members of one object over another.  The members that are written
  over win, the keys that were there keep their order in front of new ones, and writing over
  twice is writing over once with what the second makes of the first.
Main exports: Object.get?_overlay, Object.keys_overlay, Object.overlay_overlay,
  Object.overlay_again
-/
import RecordStore.Proofs.Json.Members

namespace RecordStore.Object

@[simp] theorem overlay_nil (o : Object) : o.overlay [] = o := rfl

@[simp] theorem overlay_cons (o : Object) (member : String × Json) (rest : Object) :
    o.overlay (member :: rest) = (o.insert member.1 member.2).overlay rest := rfl

/-! ### Two members written in turn -/

/-- A key that is written is there. -/
theorem mem_keys_insert (o : Object) (key : String) (value : Json) :
    key ∈ (o.insert key value).keys := by
  apply Classical.byContradiction
  intro absent
  rw [← get?_eq_none_iff, get?_insert_self] at absent
  cases absent

/-- A key that is there stays when another is written. -/
theorem mem_keys_insert_of_mem {o : Object} {key : String} (present : key ∈ o.keys)
    (other : String) (value : Json) : key ∈ (o.insert other value).keys := by
  obtain ⟨fresh, kept⟩ := exists_keys_insert o other value
  rw [kept]
  exact List.mem_append_left _ present

/-- The second of two values written under one key stays. -/
theorem insert_insert_self (o : Object) (key : String) (first second : Json) :
    (o.insert key first).insert key second = o.insert key second := by
  induction o with
  | nil => simp [insert]
  | cons member rest ih =>
      by_cases same : member.1 = key
      · simp [insert, same]
      · simp [insert, same, ih]

/-- A key that is there keeps its place, so that it may be written before or after another. -/
theorem insert_insert_of_ne {o : Object} {key other : String} (present : key ∈ o.keys)
    (apart : other ≠ key) (value another : Json) :
    (o.insert other another).insert key value = (o.insert key value).insert other another := by
  induction o with
  | nil => cases present
  | cons member rest ih =>
      by_cases hit : member.1 = key
      · simp [insert, hit, Ne.symm apart]
      · by_cases miss : member.1 = other
        · simp [insert, miss, apart]
        · have later : key ∈ keys rest := by simpa [keys, Ne.symm hit] using present
          simp [insert, hit, miss, ih later]

/-! ### All members of an object written over another -/

/-- A key of the object that is written over has its value there, every other key the old one. -/
theorem get?_overlay (o : Object) {more : Object} (distinct : more.keys.Nodup) (key : String) :
    (o.overlay more).get? key = (more.get? key).or (o.get? key) := by
  induction more generalizing o with
  | nil => rfl
  | cons member rest ih =>
      obtain ⟨fresh, others⟩ := List.nodup_cons.mp distinct
      rw [overlay_cons, ih _ others]
      by_cases same : member.1 = key
      · have absent : get? rest key = none := get?_eq_none_iff.mpr (same ▸ fresh)
        rw [absent, same, get?_insert_self, get?, if_pos same]
        rfl
      · rw [get?_insert_of_ne _ _ (Ne.symm same), get?_cons_of_ne same]

/-- The keys that are there stay in front, and those they do not have follow in their order. -/
theorem keys_overlay (o : Object) {more : Object} (distinct : more.keys.Nodup) :
    (o.overlay more).keys = o.keys ++ more.keys.filter fun key => !o.contains key := by
  induction more generalizing o with
  | nil => simp [keys]
  | cons member rest ih =>
      obtain ⟨fresh, others⟩ := List.nodup_cons.mp distinct
      -- the keys behind the first member differ from it, so its writing hides none of them
      have same : (keys rest).filter (fun key => !(o.insert member.1 member.2).contains key) =
          (keys rest).filter fun key => !o.contains key := by
        apply List.filter_congr
        intro key later
        have apart : key ≠ member.1 := fun same => fresh (same ▸ later)
        rw [contains, get?_insert_of_ne _ _ apart, contains]
      rw [overlay_cons, ih _ others, same, keys_insert]
      cases present : o.contains member.1 <;> simp [keys, present]

/-- Members under keys that are not there are all appended. -/
theorem overlay_of_fresh {o more : Object} (distinct : more.keys.Nodup)
    (fresh : ∀ key ∈ more.keys, key ∉ o.keys) : o.overlay more = o ++ more := by
  induction more generalizing o with
  | nil => exact (List.append_nil o).symm
  | cons member rest ih =>
      obtain ⟨once, others⟩ := List.nodup_cons.mp distinct
      have still : ∀ key ∈ keys rest, key ∉ keys (o ++ [member]) := by
        intro key later
        have apart : key ≠ member.1 := fun same => once (same ▸ later)
        simpa [keys, apart] using fresh key (List.mem_cons_of_mem _ later)
      rw [overlay_cons, insert_of_not_mem (fresh _ List.mem_cons_self), ih others still]
      exact (List.append_cons o member rest).symm

/-- A key that is there and is not written over may be written before or after. -/
theorem insert_overlay {o : Object} {key : String} (present : key ∈ o.keys) {more : Object}
    (untouched : key ∉ more.keys) (value : Json) :
    (o.overlay more).insert key value = (o.insert key value).overlay more := by
  induction more generalizing o with
  | nil => rfl
  | cons member rest ih =>
      simp only [keys, List.map_cons, List.mem_cons, not_or] at untouched
      have still := mem_keys_insert_of_mem present member.1 member.2
      rw [overlay_cons, overlay_cons, ih still untouched.2,
        insert_insert_of_ne present (Ne.symm untouched.1)]

/-- A member added to what is written over is written last. -/
theorem overlay_insert (o : Object) {more : Object} (distinct : more.keys.Nodup) (key : String)
    (value : Json) : o.overlay (more.insert key value) = (o.overlay more).insert key value := by
  induction more generalizing o with
  | nil => rfl
  | cons member rest ih =>
      obtain ⟨fresh, others⟩ := List.nodup_cons.mp distinct
      by_cases same : member.1 = key
      · subst same
        rw [insert, if_pos rfl, overlay_cons, overlay_cons,
          insert_overlay (mem_keys_insert o member.1 member.2) fresh, insert_insert_self]
      · rw [insert, if_neg same, overlay_cons, overlay_cons, ih _ others]

/-- Writing over in turn is writing over once, with what the second makes of the first. -/
theorem overlay_overlay (o : Object) {more : Object} (distinct : more.keys.Nodup)
    (last : Object) : (o.overlay more).overlay last = o.overlay (more.overlay last) := by
  induction last generalizing more with
  | nil => rfl
  | cons member rest ih =>
      rw [overlay_cons, overlay_cons, ← ih (nodup_keys_insert distinct _ _),
        overlay_insert o distinct]

/-! ### The same members written over twice -/

theorem mem_keys_overlay_of_mem {o : Object} {key : String} (present : key ∈ o.keys)
    (more : Object) : key ∈ (o.overlay more).keys := by
  induction more generalizing o with
  | nil => exact present
  | cons member rest ih => exact ih (mem_keys_insert_of_mem present member.1 member.2)

/-- The value of a key that is there plays no part if the key is written over. -/
theorem overlay_of_insert {o : Object} {key : String} (present : key ∈ o.keys) {more : Object}
    (later : key ∈ more.keys) (value : Json) : (o.insert key value).overlay more = o.overlay more := by
  induction more generalizing o with
  | nil => cases later
  | cons member rest ih =>
      rw [overlay_cons, overlay_cons]
      by_cases same : member.1 = key
      · rw [same, insert_insert_self]
      · have behind : key ∈ keys rest := by simpa [keys, Ne.symm same] using later
        have still := mem_keys_insert_of_mem present member.1 member.2
        rw [← insert_insert_of_ne present same, ih still behind]

/-- Members that stand written over an object change nothing when they are written again. -/
theorem overlay_again (o more : Object) : (o.overlay more).overlay more = o.overlay more := by
  induction more generalizing o with
  | nil => rfl
  | cons member rest ih =>
      have present := mem_keys_insert o member.1 member.2
      rw [overlay_cons, overlay_cons]
      -- a key that the members behind repeat is theirs to write, any other has its value already
      by_cases later : member.1 ∈ keys rest
      · rw [overlay_of_insert (mem_keys_overlay_of_mem present rest) later, ih]
      · rw [insert_overlay present later, insert_insert_self, ih]

end RecordStore.Object
