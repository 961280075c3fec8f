/-
Module: RecordStore.Proofs.Json.Members
Purpose: Laws of the ordered members of an object.  Writing a member changes no other
  member and keeps the order of the keys; erasing one changes no other member as long as
  no key occurs twice, although it moves the last member.
Main exports: Object.get?_insert_self, Object.get?_insert_of_ne, Object.insert_of_get?,
  Object.keys_insert, Object.erase_split, Object.get?_erase_self, Object.get?_erase_of_ne,
  Object.nodup_keys_insert, Object.nodup_keys_erase
-/
import RecordStore.Json.Basic

namespace RecordStore.Object

@[simp] theorem get?_nil (key : String) : get? [] key = none := rfl

@[simp] theorem get?_cons_self (key : String) (value : Json) (rest : Object) :
    get? ((key, value) :: rest) key = some value := by
  simp [get?]

theorem get?_cons_of_ne {member : String × Json} {key : String} (other : member.1 ≠ key)
    (rest : Object) : get? (member :: rest) key = get? rest key := by
  simp [get?, other]

/-- A key has a value exactly when it is one of the keys. -/
theorem get?_eq_none_iff {o : Object} {key : String} : o.get? key = none ↔ key ∉ o.keys := by
  induction o with
  | nil => simp [keys]
  | cons member rest ih =>
      by_cases same : member.1 = key
      · simp [get?, keys, same]
      · rw [get?_cons_of_ne same, ih]
        simp [keys, Ne.symm same]

theorem exists_get? {o : Object} {key : String} (present : key ∈ o.keys) :
    ∃ value, o.get? key = some value :=
  Option.ne_none_iff_exists'.mp fun absent => get?_eq_none_iff.mp absent present

theorem keys_append (o more : Object) : keys (o ++ more) = o.keys ++ keys more := List.map_append

/-- Of two objects behind each other the first that has a key gives its value. -/
theorem get?_append (o more : Object) (key : String) :
    get? (o ++ more) key = (o.get? key).or (get? more key) := by
  induction o with
  | nil => rfl
  | cons member rest ih =>
      by_cases same : member.1 = key
      · simp [get?, same]
      · rw [List.cons_append, get?_cons_of_ne same, get?_cons_of_ne same, ih]

/-! ### Writing a member -/

@[simp] theorem get?_insert_self (o : Object) (key : String) (value : Json) :
    (o.insert key value).get? key = some value := by
  induction o with
  | nil => simp [insert]
  | cons member rest ih =>
      by_cases same : member.1 = key
      · simp [insert, same]
      · simp only [insert, same, if_false]
        rw [get?_cons_of_ne same, ih]

theorem get?_insert_of_ne (o : Object) {key other : String} (value : Json) (apart : other ≠ key) :
    (o.insert key value).get? other = o.get? other := by
  induction o with
  | nil => simp [insert, get?, Ne.symm apart]
  | cons member rest ih =>
      by_cases same : member.1 = key
      · simp [insert, get?, same, Ne.symm apart]
      · simp only [insert, same, if_false, get?, ih]

/-- Writing under a key the value that it has changes nothing. -/
theorem insert_of_get? {o : Object} {key : String} {value : Json}
    (found : o.get? key = some value) : o.insert key value = o := by
  induction o with
  | nil => cases found
  | cons member rest ih =>
      by_cases same : member.1 = key
      · rw [get?, if_pos same, Option.some.injEq] at found
        rw [insert, if_pos same, ← same, ← found]
      · rw [get?_cons_of_ne same] at found
        rw [insert, if_neg same, ih found]

/-- Writing a present key keeps the keys; writing an absent one appends it. -/
theorem keys_insert (o : Object) (key : String) (value : Json) :
    (o.insert key value).keys = if o.contains key then o.keys else o.keys ++ [key] := by
  induction o with
  | nil => simp [insert, keys, contains]
  | cons member rest ih =>
      by_cases same : member.1 = key
      · simp [insert, keys, contains, get?, same]
      · have lookup : contains (member :: rest) key = contains rest key := by
          simp [contains, get?, same]
        simp only [insert, same, if_false, lookup]
        change member.1 :: (Object.insert rest key value).keys = _
        rw [ih]
        by_cases present : contains rest key
        · simp [present, keys]
        · simp [present, keys]

/-- Old keys keep their places in front of what a write adds. -/
theorem exists_keys_insert (o : Object) (key : String) (value : Json) :
    ∃ fresh, (o.insert key value).keys = o.keys ++ fresh := by
  rw [keys_insert]
  by_cases present : o.contains key
  · exact ⟨[], by simp [present]⟩
  · exact ⟨[key], by simp [present]⟩

theorem nodup_keys_insert {o : Object} (distinct : o.keys.Nodup) (key : String) (value : Json) :
    (o.insert key value).keys.Nodup := by
  rw [keys_insert]
  by_cases present : o.contains key
  · simpa [present] using distinct
  · have absent : key ∉ o.keys := get?_eq_none_iff.mp (by simpa [contains] using present)
    simp only [present]
    exact List.nodup_append.mpr ⟨distinct, by simp, by
      intro a old b new
      simp only [List.mem_singleton] at new
      subst new
      intro same
      exact absent (same ▸ old)⟩

/-- An absent key is written behind the members there are. -/
theorem insert_of_not_mem {o : Object} {key : String} (absent : key ∉ o.keys) (value : Json) :
    o.insert key value = o ++ [(key, value)] := by
  induction o with
  | nil => rfl
  | cons member rest ih =>
      simp only [keys, List.map_cons, List.mem_cons, not_or] at absent
      simp only [insert, Ne.symm absent.1, if_false]
      rw [ih absent.2]
      rfl

/-! ### Where a member stands -/

/-- Where a key has a value, the first member with the key is in front of some others. -/
theorem exists_split {o : Object} {key : String} {value : Json} (found : o.get? key = some value) :
    ∃ earlier later, o = earlier ++ (key, value) :: later ∧ key ∉ keys earlier := by
  induction o with
  | nil => cases found
  | cons member rest ih =>
      by_cases same : member.1 = key
      · rw [get?, if_pos same, Option.some.injEq] at found
        subst same found
        exact ⟨[], rest, rfl, List.not_mem_nil⟩
      · rw [get?_cons_of_ne same] at found
        obtain ⟨earlier, later, rfl, fresh⟩ := ih found
        refine ⟨member :: earlier, later, rfl, ?_⟩
        simpa [keys, Ne.symm same] using fresh

/-- What is found under a key is a member. -/
theorem mem_of_get? {o : Object} {key : String} {value : Json} (found : o.get? key = some value) :
    (key, value) ∈ o := by
  obtain ⟨earlier, later, rfl, -⟩ := exists_split found
  simp

/-- A member is written over in its place. -/
theorem insert_split {earlier : Object} {key : String} (fresh : key ∉ keys earlier)
    (old value : Json) (later : Object) :
    insert (earlier ++ (key, old) :: later) key value = earlier ++ (key, value) :: later := by
  induction earlier with
  | nil => exact if_pos rfl
  | cons member rest ih =>
      simp only [keys, List.map_cons, List.mem_cons, not_or] at fresh
      rw [List.cons_append, insert, if_neg (Ne.symm fresh.1), ih fresh.2]
      rfl

/-! ### Erasing a member -/

/-- The last member moves into the place that is freed; the others keep theirs. -/
theorem erase_split {earlier : Object} {key : String} (fresh : key ∉ keys earlier) (value : Json)
    (later : Object) :
    erase (earlier ++ (key, value) :: later) key =
      earlier ++ (later.getLast?.toList ++ later.dropLast) := by
  induction earlier with
  | nil =>
      rw [List.nil_append, erase, if_pos rfl]
      cases last : later.getLast? with
      | none =>
          rw [List.getLast?_eq_none_iff.mp last]
          rfl
      | some member => rfl
  | cons member rest ih =>
      simp only [keys, List.map_cons, List.mem_cons, not_or] at fresh
      rw [List.cons_append, erase, if_neg (Ne.symm fresh.1), ih fresh.2]
      rfl

/-- Erasing leaves a permutation of the members other than the first with the key. -/
theorem erase_perm {o : Object} {key : String} (present : key ∈ o.keys) :
    ∃ value, List.Perm ((key, value) :: o.erase key) o := by
  induction o with
  | nil => simp [keys] at present
  | cons member rest ih =>
      by_cases same : member.1 = key
      · refine ⟨member.2, ?_⟩
        have head : (key, member.2) = member := by rw [← same]
        rw [head]
        simp only [erase, same, if_true]
        cases last : rest.getLast? with
        | none => simp [List.getLast?_eq_none_iff.mp last]
        | some final =>
            obtain ⟨front, rfl⟩ := List.getLast?_eq_some_iff.mp last
            simp only [List.dropLast_concat]
            exact .cons _ (List.perm_append_singleton final front).symm
      · have later : key ∈ keys rest := by
          simpa [keys, Ne.symm same] using present
        obtain ⟨value, swapped⟩ := ih later
        refine ⟨value, ?_⟩
        simp only [erase, same, if_false]
        exact (List.Perm.swap _ _ _).trans (.cons _ swapped)

theorem erase_of_not_mem {o : Object} {key : String} (absent : key ∉ o.keys) :
    o.erase key = o := by
  induction o with
  | nil => rfl
  | cons member rest ih =>
      simp only [keys, List.map_cons, List.mem_cons, not_or] at absent
      simp only [erase, Ne.symm absent.1, if_false]
      rw [ih absent.2]

/-- Where no key occurs twice, each member is what is found under its key. -/
theorem get?_of_mem {o : Object} (distinct : o.keys.Nodup) {member : String × Json}
    (inside : member ∈ o) : o.get? member.1 = some member.2 := by
  induction o with
  | nil => cases inside
  | cons first rest ih =>
      obtain ⟨fresh, later⟩ := List.nodup_cons.mp distinct
      rcases List.mem_cons.mp inside with rfl | behind
      · exact get?_cons_self member.1 member.2 rest
      · have other : first.1 ≠ member.1 := by
          intro same
          exact fresh (same ▸ List.mem_map_of_mem behind)
        rw [get?_cons_of_ne other]
        exact ih later behind

/-- Reading does not depend on the order of the members when no key occurs twice. -/
theorem get?_eq_of_perm {a b : Object} (swapped : List.Perm a b) (distinct : a.keys.Nodup)
    (key : String) : a.get? key = b.get? key := by
  induction swapped with
  | nil => rfl
  | cons member _ ih =>
      have tail := (List.nodup_cons.mp distinct).2
      simp only [get?, ih tail]
  | swap first second rest =>
      have apart : second.1 ≠ first.1 := by
        intro same
        simp [keys, same] at distinct
      by_cases hit : first.1 = key
      · have miss : second.1 ≠ key := fun same => apart (same.trans hit.symm)
        simp [get?, hit, miss]
      · simp [get?, hit]
  | trans one two ihOne ihTwo =>
      exact (ihOne distinct).trans (ihTwo ((one.map Prod.fst).nodup_iff.mp distinct))

theorem nodup_keys_erase {o : Object} (distinct : o.keys.Nodup) (key : String) :
    (o.erase key).keys.Nodup := by
  by_cases present : key ∈ o.keys
  · obtain ⟨value, swapped⟩ := erase_perm present
    have whole := (swapped.map Prod.fst).nodup_iff.mpr distinct
    exact (List.nodup_cons.mp whole).2
  · rw [erase_of_not_mem present]
    exact distinct

/-- An erased key is gone. -/
theorem get?_erase_self {o : Object} (distinct : o.keys.Nodup) (key : String) :
    (o.erase key).get? key = none := by
  rw [get?_eq_none_iff]
  by_cases present : key ∈ o.keys
  · obtain ⟨value, swapped⟩ := erase_perm present
    have whole := (swapped.map Prod.fst).nodup_iff.mpr distinct
    exact (List.nodup_cons.mp whole).1
  · rw [erase_of_not_mem present]
    exact present

theorem get?_erase_of_ne {o : Object} (distinct : o.keys.Nodup) {key other : String}
    (apart : other ≠ key) : (o.erase key).get? other = o.get? other := by
  by_cases present : key ∈ o.keys
  · obtain ⟨value, swapped⟩ := erase_perm present
    have whole := (swapped.map Prod.fst).nodup_iff.mpr distinct
    rw [← get?_eq_of_perm swapped whole other]
    exact (get?_cons_of_ne (Ne.symm apart) _).symm
  · rw [erase_of_not_mem present]

end RecordStore.Object
