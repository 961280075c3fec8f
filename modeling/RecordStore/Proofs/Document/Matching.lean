/-
Module: RecordStore.Proofs.Document.Matching
Purpose: What a document store finds and removes.  A query answers some of the records of
  the tree, each once; a lookup answers the record under the loose text of the key.  A
  removal erases the entries of exactly the records that are found, although it goes by the
  ids inside the records, because the tree is keyed.  That a stored record which can be read
  is read as it was written is an assumption here.
Main exports: run_subperm, ReadsBack, found_subperm, perform_select_key, Tree.Without,
  eraseRecords_without, remove_eq_ok, select_agrees
-/
import RecordStore.Proofs.Document.Operations
import RecordStore.Proofs.Store.Reading

namespace RecordStore.Document

open RecordStore.Action (perform_bind_ok perform_bind_eq_ok)

/-! ### What a query answers -/

namespace Query

theorem insertLast_perm (below : Object → Object → Bool) (record : Object)
    (sorted : List Object) : (insertLast below record sorted).Perm (record :: sorted) := by
  induction sorted with
  | nil => exact .refl _
  | cons last rest ih =>
      unfold insertLast
      split
      · exact (ih.cons last).trans (.swap record last rest)
      · exact .refl _

/-- Sorting loses no record and adds none. -/
theorem sort_perm (query : Query) (records : List Object) : (query.sort records).Perm records := by
  have inserted : ∀ (below : Object → Object → Bool) (sorted : List Object),
      (records.foldl (fun sorted record => insertLast below record sorted) sorted).Perm
        (records ++ sorted) := by
    intro below
    induction records with
    | nil => exact fun sorted => .refl sorted
    | cons record rest ih =>
        intro sorted
        have moved := (insertLast_perm below record sorted).append_left rest
        exact (ih (insertLast below record sorted)).trans (moved.trans List.perm_middle)
  have all := inserted (fun left right => compareRecords query.order left right == .lt) []
  rw [List.append_nil] at all
  exact (List.reverse_perm _).trans all

theorem paginate_sublist (query : Query) (records : List Object) :
    (query.paginate records).Sublist records := by
  unfold paginate
  cases query.limit with
  | none => exact List.drop_sublist _ _
  | some limit => exact (List.take_sublist _ _).trans (List.drop_sublist _ _)

/-- A query answers some of the records, each as often as it is there at most. -/
theorem run_subperm (query : Query) (records : List Object) :
    (query.run records).Subperm records := by
  have page := (query.paginate_sublist (query.sort (records.filter query.accepts))).subperm
  have sorted := (query.sort_perm (records.filter query.accepts)).subperm
  exact page.trans (sorted.trans List.filter_sublist.subperm)

end Query

/-! ### What is found -/

/-- What is stored of a record reads back as the record, if it can be read. -/
def ReadsBack (record : Object) : Prop :=
  ∀ found, readRecord (Json.text (.obj record)) = .ok found → found = record

section Found

variable {tree : Tree} {records : List Object} (holds : tree.Holds records)
variable (faithful : ∀ record ∈ records, ReadsBack record)
include holds faithful

theorem readAll_eq {found : List Object} (read : readAll tree = .ok found) : found = records := by
  unfold readAll at read
  induction holds generalizing found with
  | nil =>
      cases read
      rfl
  | @cons entry record rest others written later ih =>
      rw [List.mapM_cons] at read
      cases first : readRecord entry.2 with
      | error error =>
          rw [first] at read
          cases read
      | ok head =>
          cases remaining : rest.mapM fun entry => readRecord entry.2 with
          | error error =>
              rw [first, remaining] at read
              cases read
          | ok tail =>
              rw [first, remaining] at read
              cases read
              obtain ⟨id, -, -, text⟩ := written
              have same : head = record := by
                refine faithful record List.mem_cons_self head ?_
                rw [text]
                exact first
              have tails : tail = others :=
                ih (fun other member => faithful other (List.mem_cons_of_mem _ member)) remaining
              rw [same, tails]

theorem fetchRecord_mem {key : Json} {record : Object}
    (fetched : fetchRecord tree key = .ok (some record)) : record ∈ records := by
  obtain ⟨text, found, read⟩ := fetchRecord_eq_some_iff.mp fetched
  obtain ⟨stored, member, id, -, -, written⟩ := holds.exists_record (Tree.mem_of_get? found)
  have same : record = stored := by
    refine faithful stored member record ?_
    rw [written]
    exact read
  exact same ▸ member

/-- What a plan finds are some of the records, each once. -/
theorem found_subperm {setting : Setting} {session after : Session Trees} {model : Schema}
    {plan : Plan} {found : List Object} (of : session.data.tree model.name = tree)
    (matched : (find model plan).perform setting session = (.ok found, after)) :
    found.Subperm records := by
  rcases find_eq_ok matched with ⟨key, record?, -, fetched, rfl⟩ | ⟨query, read, -, -, all, rfl⟩
  · cases record? with
    | none => exact List.nil_subperm
    | some record =>
        rw [of] at fetched
        exact List.singleton_subperm_iff.mpr (fetchRecord_mem holds faithful fetched)
  · rw [of] at all
    rw [readAll_eq holds faithful all]
    exact query.run_subperm records

end Found

/-- A select by key shows the record under the loose text of the key. -/
theorem perform_select_key {setting : Setting} {session : Session Trees} {schema : String}
    {model : Schema} {condition : Condition} {key : Json}
    (known : setting.registry.get schema = .ok model)
    (indexed : Plan.indexOf? condition = some key) (columns : Option (List String)) :
    (backend.select schema (some condition) ⟨columns, .none⟩).perform setting session =
      ((fetchRecord (session.data.tree schema) key).map fun record? =>
          .one (record?.map (·.project (columns.getD (model.columnsFor .select)))), session) := by
  let plan := { Plan.everything SelectOptions.plain with index := some key }
  have read : Plan.ofCondition (some condition) SelectOptions.plain = .ok plan := by
    simp only [Plan.ofCondition, indexed, plan]
  have fetched := @perform_find_index setting session model
    (plan.asking ⟨columns, .none⟩) key rfl
  rw [Action.name_of_get known] at fetched
  rw [Backend.perform_select_excluded known read rfl, show backend.find = find from rfl, fetched]
  cases fetchRecord (session.data.tree schema) key with
  | error error => rfl
  | ok record? => cases record? <;> rfl

/-- A lookup without relations shows the record stored under the loose text of the key,
whatever kind of value the key is, cut to the columns. -/
theorem select_index {setting : Setting} {session : Session Trees} {model : Schema}
    {schema : String} {condition : Condition} {key : Json} {entry : String × String}
    {record : Object} (known : setting.registry.get schema = .ok model)
    (ordered : (session.data.tree schema).Ordered)
    (indexed : Plan.indexOf? condition = some key) (member : entry ∈ session.data.tree schema)
    (text : key.looseText = entry.1) (read : readRecord entry.2 = .ok record)
    (columns : Option (List String)) :
    (backend.select schema (some condition) ⟨columns, .none⟩).perform setting session =
      (.ok (.one (some (record.project (columns.getD (model.columnsFor .select))))), session) := by
  rw [perform_select_key known indexed, ordered.fetchRecord_of_mem member text read]
  rfl

/-! ### What is removed -/

/-- A tree after the entries of some records, and no others, were erased. -/
structure Tree.Without (before : Tree) (found : List Object) (after : Tree) : Prop where
  mem : ∀ entry, entry ∈ after ↔ entry ∈ before ∧ ∀ record ∈ found, ¬ EntryOf entry record
  sublist : after.Sublist before
  length : before.length = after.length + found.length

section Removed

variable {tree : Tree} {records found : List Object} (ordered : tree.Ordered)
variable (holds : tree.Holds records) (picked : found.Subperm records)
include holds picked

/-- Each record that is found has a key, and its key is one of the tree's. -/
theorem keys_subperm :
    (found.filterMap recordKey?).length = found.length ∧
      (found.filterMap recordKey?).Subperm (tree.map Prod.fst) := by
  obtain ⟨keyed, fewer⟩ := Tree.keys_found holds.keys picked
  exact ⟨List.filterMap_length_eq_length.mpr keyed, fewer⟩

include ordered

/-- A found record has the key of an entry only if the entry is its own. -/
theorem mem_keys_iff {entry : String × String} (member : entry ∈ tree) :
    entry.1 ∈ found.filterMap recordKey? ↔ ∃ record ∈ found, EntryOf entry record := by
  constructor
  · intro key
    obtain ⟨record, there, named⟩ := List.mem_filterMap.mp key
    obtain ⟨other, inside, written⟩ := holds.exists_entry (picked.subset there)
    have same : other.1 = entry.1 := Option.some.inj (written.recordKey?.symm.trans named)
    have entries : other = entry := ordered.entry_eq inside member same
    exact ⟨record, there, entries ▸ written⟩
  · rintro ⟨record, there, written⟩
    exact List.mem_filterMap.mpr ⟨record, there, written.recordKey?⟩

/-- Erasing the records that are found erases their entries and no other, and counts each. -/
theorem eraseRecords_without :
    (eraseRecords tree found).2 = found.length ∧
      tree.Without found (eraseRecords tree found).1 := by
  obtain ⟨length, inside⟩ := keys_subperm holds picked
  have distinct : (found.filterMap recordKey?).Nodup := by
    obtain ⟨some_of, same, fewer⟩ := inside
    exact same.nodup_iff.mp (ordered.nodup_keys.sublist fewer)
  have count : (eraseRecords tree found).2 = found.length := by
    rw [eraseRecords_count tree found distinct inside.subset, length]
  refine ⟨count, ?_⟩
  rw [eraseRecords_eq_filter]
  refine ⟨?_, List.filter_sublist, ?_⟩
  · intro entry
    rw [List.mem_filter]
    refine and_congr_right fun member => ?_
    have hit := mem_keys_iff ordered holds picked member
    rw [Bool.not_eq_true', ← Bool.not_eq_true, List.contains_iff_mem, hit]
    simp
  · have erased : (tree.filter fun entry =>
        (found.filterMap recordKey?).contains entry.1).length = found.length := by
      have keys : ((tree.map Prod.fst).filter (found.filterMap recordKey?).contains).Perm
          (found.filterMap recordKey?) := by
        refine (List.perm_ext_iff_of_nodup (ordered.nodup_keys.filter _) distinct).mpr ?_
        intro key
        rw [List.mem_filter, List.contains_iff_mem]
        exact and_iff_right_of_imp fun there => inside.subset there
      rw [← length, ← keys.length_eq, List.filter_map, List.length_map]
      rfl
    rw [List.length_eq_length_filter_add
      (fun entry => (found.filterMap recordKey?).contains entry.1), erased, Nat.add_comm]

end Removed

/-- A removal that succeeds has erased the entries of what its condition finds, and answers
their number. -/
theorem remove_eq_ok {setting : Setting} {session after : Session Trees} {schema : String}
    {condition : Option Condition} {removed : Nat} {records : List Object}
    (ordered : (session.data.tree schema).Ordered)
    (holds : (session.data.tree schema).Holds records)
    (faithful : ∀ record ∈ records, ReadsBack record)
    (done : (backend.remove schema condition).perform setting session = (.ok removed, after)) :
    ∃ model plan found between, setting.registry.get schema = .ok model ∧
      Plan.ofCondition condition SelectOptions.plain = .ok plan ∧
      (find model plan).perform setting session = (.ok found, between) ∧
      found.Subperm records ∧ removed = found.length ∧
      (session.data.tree schema).Without found (after.data.tree schema) := by
  obtain ⟨⟨model, plan⟩, _, targeted, deleted⟩ := (perform_bind_eq_ok _ _).mp done
  obtain ⟨rfl, known, read, checked⟩ := Backend.perform_target_eq_ok.mp targeted
  have named : model.name = schema := Action.name_of_get known
  obtain ⟨found, between, matched, -⟩ := (perform_bind_eq_ok _ _).mp deleted
  have picked : found.Subperm records :=
    found_subperm holds faithful (by rw [named]) matched
  obtain ⟨count, without⟩ := eraseRecords_without ordered holds picked
  change (delete model plan).perform setting _ = _ at deleted
  rw [perform_delete matched, named] at deleted
  cases deleted
  refine ⟨model, plan, found, between, known, read, matched, picked, count, ?_⟩
  rw [Trees.tree_set_self]
  exact without

/-- Where a select succeeds, a count of the same condition answers the number of records it
shows, and a removal takes exactly these, if what is stored is read back as written. -/
theorem select_agrees {setting : Setting} {session after : Session Trees} {schema : String}
    {condition : Option Condition} {options : SelectOptions} {selection : Selection}
    (ordered : (session.data.tree schema).Ordered)
    (done : (backend.select schema condition options).perform setting session =
      (.ok selection, after)) :
    ∃ model found, setting.registry.get schema = .ok model ∧
      List.Forall₂ (Backend.Shows ((setting.registry.relationsOf schema).map Relation.field)
        (options.columns.getD (model.columnsFor .select))) found selection.records ∧
      (∃ last, (backend.tally schema condition).perform setting session =
        (.ok selection.length, last)) ∧
      ∀ records, (session.data.tree schema).Holds records →
        (∀ record ∈ records, ReadsBack record) →
        ∃ last, (backend.remove schema condition).perform setting session =
            (.ok selection.length, last) ∧
          found.Subperm records ∧
          (session.data.tree schema).Without found (last.data.tree schema) := by
  obtain ⟨model, plan, found, between, shown, known, read, checked, matched, showing, rfl⟩ :=
    Backend.select_eq_ok done
  have named : model.name = schema := Action.name_of_get known
  change (find model plan).perform setting session = (.ok found, between) at matched
  have single : plan.index.isSome → found.length ≤ 1 := by
    intro indexed
    rcases find_eq_ok matched with ⟨key, record?, -, -, rfl⟩ | ⟨query, all, unindexed, -⟩
    · cases record? <;> simp
    · rw [unindexed] at indexed
      cases indexed
  have showing := Backend.forall₂_records showing single
  have length := showing.length_eq
  refine ⟨model, found, known, showing, ?_, ?_⟩
  · refine ⟨between, (Backend.perform_tally known read checked).trans ?_⟩
    change (find model plan >>= fun found => pure found.length).perform setting session = _
    rw [perform_bind_ok _ _ matched, length]
    rfl
  · intro records holds faithful
    have picked := found_subperm holds faithful (by rw [named]) matched
    obtain ⟨count, without⟩ := eraseRecords_without ordered holds picked
    have deleted := perform_delete matched
    rw [named] at deleted
    dsimp only at deleted
    rw [count, length] at deleted
    refine ⟨_, (Backend.perform_remove known read checked).trans deleted, picked, ?_⟩
    rw [Trees.tree_set_self]
    exact without

end RecordStore.Document
