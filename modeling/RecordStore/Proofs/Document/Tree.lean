/-
Module: RecordStore.Proofs.Document.Tree
Purpose: Laws of the trees of a document store.  Texts are ordered totally, so a tree in
  strict order of its keys stays so when a text is put or keys are erased, and holds one
  entry for a key.  A tree is keyed when every entry is that of a record whose id has the
  key as its loose text; one list of records then describes it entry by entry.
Main exports: Text.compare (order classes), Tree.mem_put, Tree.get?_eq_some_iff, EntryOf,
  Tree.Keyed, Tree.Holds, fetchRecord_eq_some_iff, eraseRecords_eq_filter,
  eraseRecords_count
-/
import Mathlib.Data.List.Perm.Subperm
import Mathlib.Data.List.Nodup
import RecordStore.Document.Store

namespace RecordStore

/-! ### The order of texts -/

namespace Text

/-- Characters compare like their code points. -/
theorem compareChars_eq (left right : List Char) :
    compareChars left right = Ord.compare (left.map Char.toNat) (right.map Char.toNat) := by
  induction left generalizing right with
  | nil => cases right <;> rfl
  | cons a as ih =>
      cases right with
      | nil => rfl
      | cons b bs =>
          simp only [compareChars, List.map_cons, List.compare_cons_cons, ih,
            Nat.compare_eq_ite_lt]
          split
          · rfl
          · split <;> rfl

instance : Std.OrientedCmp Text.compare where
  eq_swap := by
    intro a b
    simp only [Text.compare, compareChars_eq]
    exact Std.OrientedOrd.eq_swap

instance : Std.TransCmp Text.compare where
  isLE_trans := by
    intro a b c
    simp only [Text.compare, compareChars_eq]
    exact Std.TransOrd.isLE_trans

instance : Std.LawfulEqCmp Text.compare where
  eq_of_compare := by
    intro a b same
    simp only [Text.compare, compareChars_eq] at same
    have points := Std.LawfulEqOrd.eq_of_compare same
    exact String.toList_injective
      (List.map_injective_iff.mpr (fun _ _ equal => Char.toNat_inj.mp equal) points)

theorem ne_of_compare_lt {a b : String} (below : Text.compare a b = .lt) : a ≠ b := by
  rintro rfl
  have same : Text.compare a a = .eq := Std.ReflCmp.compare_self
  rw [same] at below
  cases below

end Text

namespace Document

/-- An entry is that of a record: its key is the loose text of the record's id, its text is
the record's. -/
def EntryOf (entry : String × String) (record : Object) : Prop :=
  ∃ id, record.get? idField = some id ∧ keyOf id = entry.1 ∧ Json.text (.obj record) = entry.2

/-- The key a record is stored under. -/
def recordKey? (record : Object) : Option String := (record.get? idField).map keyOf

theorem EntryOf.recordKey? {entry : String × String} {record : Object}
    (written : EntryOf entry record) : recordKey? record = some entry.1 := by
  obtain ⟨id, found, key, -⟩ := written
  simp [Document.recordKey?, found, key]

namespace Tree

/-- The keys stand in strict order. -/
def Ordered (tree : Tree) : Prop :=
  tree.Pairwise fun first second => Text.compare first.1 second.1 = .lt

/-- A tree of records under the loose texts of their ids. -/
structure Keyed (tree : Tree) : Prop where
  ordered : tree.Ordered
  held : ∀ entry ∈ tree, ∃ record, EntryOf entry record

/-- The entries of a tree are, one by one, those of several records. -/
def Holds (tree : Tree) (records : List Object) : Prop := List.Forall₂ EntryOf tree records

/-! ### Order and reading -/

theorem Ordered.nodup_keys {tree : Tree} (ordered : tree.Ordered) :
    (tree.map Prod.fst).Nodup := by
  rw [List.Nodup, List.pairwise_map]
  exact ordered.imp fun below => Text.ne_of_compare_lt below

/-- A tree in order holds one entry for a key. -/
theorem Ordered.entry_eq {tree : Tree} (ordered : tree.Ordered) {entry other : String × String}
    (here : entry ∈ tree) (there : other ∈ tree) (same : entry.1 = other.1) : entry = other :=
  List.inj_on_of_nodup_map ordered.nodup_keys here there same

theorem get?_isSome_iff (tree : Tree) (key : String) :
    (tree.get? key).isSome ↔ key ∈ tree.map Prod.fst := by
  induction tree with
  | nil => simp [get?]
  | cons entry rest ih =>
      by_cases same : entry.1 = key
      · simp [get?, same]
      · simpa [get?, same, Ne.symm same] using ih

theorem mem_of_get? {tree : Tree} {key text : String} (found : tree.get? key = some text) :
    (key, text) ∈ tree := by
  induction tree with
  | nil => cases found
  | cons entry rest ih =>
      rw [get?] at found
      split at found
      · rename_i same
        cases found
        simp [← same]
      · exact List.mem_cons_of_mem _ (ih found)

/-- What a tree in order holds is read back by its key. -/
theorem Ordered.get?_eq_some_iff {tree : Tree} (ordered : tree.Ordered) {key text : String} :
    tree.get? key = some text ↔ (key, text) ∈ tree := by
  refine ⟨mem_of_get?, fun member => ?_⟩
  have present : (tree.get? key).isSome :=
    (get?_isSome_iff tree key).mpr (List.mem_map_of_mem member)
  obtain ⟨other, found⟩ := Option.isSome_iff_exists.mp present
  cases ordered.entry_eq member (mem_of_get? found) rfl
  exact found

/-! ### Putting and erasing -/

/-- Putting a text under a key replaces the entry of the key and no other. -/
theorem Ordered.mem_put {tree : Tree} (ordered : tree.Ordered) (key text : String)
    (entry : String × String) :
    entry ∈ tree.put key text ↔ entry = (key, text) ∨ entry ∈ tree ∧ entry.1 ≠ key := by
  induction tree with
  | nil => simp [put]
  | cons first rest ih =>
      obtain ⟨above, later⟩ := List.pairwise_cons.mp ordered
      unfold put
      split
      case h_1 order =>
          -- every key of the tree is above the new one
          have fresh : ∀ other ∈ first :: rest, other.1 ≠ key := by
            intro other member
            rcases List.mem_cons.mp member with rfl | member
            · exact (Text.ne_of_compare_lt order).symm
            · exact (Text.ne_of_compare_lt
                (Std.TransCmp.lt_trans order (above other member))).symm
          rw [List.mem_cons]
          exact or_congr_right ⟨fun member => ⟨member, fresh entry member⟩, And.left⟩
      case h_2 order =>
          have same : key = first.1 := Std.LawfulEqCmp.compare_eq_iff_eq.mp order
          have fresh : ∀ other ∈ rest, other.1 ≠ key := by
            intro other member
            exact same ▸ (Text.ne_of_compare_lt (above other member)).symm
          rw [List.mem_cons, List.mem_cons]
          refine or_congr_right ⟨fun member => ⟨.inr member, fresh entry member⟩, ?_⟩
          rintro ⟨rfl | member, other⟩
          · exact absurd same.symm other
          · exact member
      case h_3 order =>
          have other : first.1 ≠ key :=
            Text.ne_of_compare_lt (Std.OrientedCmp.gt_iff_lt.mp order)
          rw [List.mem_cons, List.mem_cons, ih later]
          constructor
          · rintro (rfl | new | ⟨member, unequal⟩)
            · exact .inr ⟨.inl rfl, other⟩
            · exact .inl new
            · exact .inr ⟨.inr member, unequal⟩
          · rintro (new | ⟨rfl | member, unequal⟩)
            · exact .inr (.inl new)
            · exact .inl rfl
            · exact .inr (.inr ⟨member, unequal⟩)

theorem Ordered.put {tree : Tree} (ordered : tree.Ordered) (key text : String) :
    (tree.put key text).Ordered := by
  induction tree with
  | nil => exact List.pairwise_singleton _ _
  | cons first rest ih =>
      obtain ⟨above, later⟩ := List.pairwise_cons.mp ordered
      unfold Tree.put
      split
      case h_1 order =>
          refine List.pairwise_cons.mpr ⟨fun other member => ?_, ordered⟩
          rcases List.mem_cons.mp member with rfl | member
          · exact order
          · exact Std.TransCmp.lt_trans order (above other member)
      case h_2 order =>
          rw [Std.LawfulEqCmp.compare_eq_iff_eq] at order
          exact List.pairwise_cons.mpr ⟨fun other member => order ▸ above other member, later⟩
      case h_3 order =>
          refine List.pairwise_cons.mpr ⟨fun other member => ?_, ih later⟩
          rcases (Ordered.mem_put later key text other).mp member with rfl | ⟨member, -⟩
          · exact Std.OrientedCmp.gt_iff_lt.mp order
          · exact above other member

theorem Keyed.nil : Keyed [] := ⟨List.Pairwise.nil, by simp⟩

theorem Keyed.put {tree : Tree} (keyed : tree.Keyed) {record : Object} {id : Json}
    (found : record.get? idField = some id) :
    (tree.put (keyOf id) (Json.text (.obj record))).Keyed where
  ordered := keyed.ordered.put _ _
  held := by
    intro entry member
    rcases (keyed.ordered.mem_put _ _ entry).mp member with rfl | ⟨member, -⟩
    · exact ⟨record, id, found, rfl, rfl⟩
    · exact keyed.held entry member

theorem Keyed.sublist {tree rest : Tree} (keyed : tree.Keyed) (fewer : rest.Sublist tree) :
    rest.Keyed :=
  ⟨keyed.ordered.sublist fewer, fun entry member => keyed.held entry (fewer.subset member)⟩

/-! ### The records of a tree -/

theorem Holds.exists_record {tree : Tree} {records : List Object} (holds : tree.Holds records)
    {entry : String × String} (member : entry ∈ tree) :
    ∃ record ∈ records, EntryOf entry record := by
  induction holds with
  | nil => cases member
  | cons written rest ih =>
      rcases List.mem_cons.mp member with rfl | member
      · exact ⟨_, List.mem_cons_self, written⟩
      · obtain ⟨record, there, of⟩ := ih member
        exact ⟨record, List.mem_cons_of_mem _ there, of⟩

theorem Holds.exists_entry {tree : Tree} {records : List Object} (holds : tree.Holds records)
    {record : Object} (member : record ∈ records) : ∃ entry ∈ tree, EntryOf entry record := by
  induction holds with
  | nil => cases member
  | cons written rest ih =>
      rcases List.mem_cons.mp member with rfl | member
      · exact ⟨_, List.mem_cons_self, written⟩
      · obtain ⟨entry, there, of⟩ := ih member
        exact ⟨entry, List.mem_cons_of_mem _ there, of⟩

/-- The keys of the records of a tree are the keys of its entries. -/
theorem Holds.keys {tree : Tree} {records : List Object} (holds : tree.Holds records) :
    records.map recordKey? = (tree.map Prod.fst).map some := by
  induction holds with
  | nil => rfl
  | cons written rest ih => simp [written.recordKey?, ih]

/-- Where records have the keys of the entries one by one, each of those that are found among
them has a key, and their keys are keys of different entries. -/
theorem keys_found {tree : Tree} {records found : List Object}
    (keys : records.map recordKey? = (tree.map Prod.fst).map some)
    (picked : found.Subperm records) :
    (∀ record ∈ found, (recordKey? record).isSome) ∧
      (found.filterMap recordKey?).Subperm (tree.map Prod.fst) := by
  constructor
  · intro record member
    have key : recordKey? record ∈ (tree.map Prod.fst).map some :=
      keys ▸ List.mem_map_of_mem (picked.subset member)
    obtain ⟨text, -, is⟩ := List.mem_map.mp key
    simp [← is]
  · have all : records.filterMap recordKey? = tree.map Prod.fst := by
      calc records.filterMap recordKey? = (records.map recordKey?).filterMap id := by
            rw [List.filterMap_map, Function.id_comp]
        _ = tree.map Prod.fst := by
            rw [keys, List.filterMap_map]
            exact List.filterMap_some
    obtain ⟨some_of, same, fewer⟩ := picked
    rw [← all]
    exact ⟨some_of.filterMap recordKey?, same.filterMap recordKey?, fewer.filterMap recordKey?⟩

end Tree

/-! ### Fetching a record -/

/-- A key finds the record that its text is read as. -/
theorem fetchRecord_eq_some_iff {tree : Tree} {id : Json} {record : Object} :
    fetchRecord tree id = .ok (some record) ↔
      ∃ text, tree.get? (keyOf id) = some text ∧ readRecord text = .ok record := by
  unfold fetchRecord
  cases tree.get? (keyOf id) with
  | none => simp
  | some text => cases read : readRecord text <;> simp [read, Except.map]

theorem Tree.Ordered.fetchRecord_of_mem {tree : Tree} (ordered : tree.Ordered)
    {entry : String × String} (member : entry ∈ tree) {id : Json} (key : keyOf id = entry.1)
    {record : Object} (read : readRecord entry.2 = .ok record) :
    fetchRecord tree id = .ok (some record) :=
  fetchRecord_eq_some_iff.mpr ⟨entry.2, ordered.get?_eq_some_iff.mpr (key ▸ member), read⟩

/-! ### Erasing several records -/

/-- What is erased is what stands under the key of one of the records. -/
theorem eraseRecords_eq_filter (tree : Tree) (records : List Object) :
    (eraseRecords tree records).1 =
      tree.filter fun entry => !(records.filterMap recordKey?).contains entry.1 := by
  induction records generalizing tree with
  | nil => simp [eraseRecords]
  | cons record rest ih =>
      unfold eraseRecords
      cases found : record.get? idField with
      | none => simp [recordKey?, found, ih]
      | some id =>
          simp only [recordKey?, found, Option.map_some, List.filterMap_cons, ih, Tree.erase,
            List.filter_filter]
          refine List.filter_congr fun entry _ => ?_
          rw [List.contains_cons, Bool.not_or, Bool.and_comm]
          rfl

/-- Different keys that all stand in the tree are all counted. -/
theorem eraseRecords_count (tree : Tree) (records : List Object)
    (distinct : (records.filterMap recordKey?).Nodup)
    (present : ∀ key ∈ records.filterMap recordKey?, key ∈ tree.map Prod.fst) :
    (eraseRecords tree records).2 = (records.filterMap recordKey?).length := by
  induction records generalizing tree with
  | nil => rfl
  | cons record rest ih =>
      unfold eraseRecords
      cases found : record.get? idField with
      | none =>
          have unkeyed : recordKey? record = none := by simp [recordKey?, found]
          rw [List.filterMap_cons_none unkeyed] at distinct present ⊢
          exact ih tree distinct present
      | some id =>
          have key : recordKey? record = some (keyOf id) := by simp [recordKey?, found]
          rw [List.filterMap_cons_some key] at distinct present ⊢
          obtain ⟨absent, distinct⟩ := List.nodup_cons.mp distinct
          have first := (Tree.get?_isSome_iff tree _).mpr (present _ List.mem_cons_self)
          simp only [first, if_true, List.length_cons]
          congr 1
          refine ih _ distinct fun other member => ?_
          obtain ⟨entry, inside, rfl⟩ :=
            List.mem_map.mp (present other (List.mem_cons_of_mem _ member))
          refine List.mem_map_of_mem (List.mem_filter.mpr ⟨inside, ?_⟩)
          simpa using fun same : entry.1 = keyOf id => absent (same ▸ member)

/-! ### The trees of the models -/

namespace Trees

@[simp] theorem tree_set_self (trees : Trees) (model : String) (tree : Tree) :
    (trees.set model tree).tree model = tree := by
  induction trees with
  | nil => simp [set, Trees.tree]
  | cons entry rest ih =>
      by_cases same : entry.1 = model
      · simp [set, Trees.tree, same]
      · simpa [set, Trees.tree, same] using ih

theorem tree_set_of_ne (trees : Trees) {model other : String} (apart : other ≠ model)
    (tree : Tree) : (trees.set model tree).tree other = trees.tree other := by
  induction trees with
  | nil => simp [set, Trees.tree, Ne.symm apart]
  | cons entry rest ih =>
      by_cases same : entry.1 = model
      · simp [set, Trees.tree, same, Ne.symm apart]
      · simp only [set, same, if_false, Trees.tree, ih]

/-- Every model's tree is keyed. -/
def Keyed (trees : Trees) : Prop := ∀ model, (trees.tree model).Keyed

theorem Keyed.set {trees : Trees} (keyed : trees.Keyed) {model : String} {tree : Tree}
    (after : tree.Keyed) : (trees.set model tree).Keyed := by
  intro other
  by_cases same : other = model
  · rw [same, tree_set_self]
    exact after
  · rw [tree_set_of_ne trees same]
    exact keyed other

end Trees

end Document

end RecordStore
