/-
Module: RecordStore.Proofs.Document.Creating
Purpose: What creating does to the tree of a model.  A create on a known model always
  succeeds: the record gets an id unless it has one, and is put under the loose text of it.
  Under a key that is not taken the tree grows by one entry; under a taken key the entry
  that stood there is replaced.  An import puts its records one after the other.
Main exports: Tree.Puts, perform_create, create_cases, Tree.Extended, createEach_extended,
  Tree.Extended.length_eq_iff
-/
import Mathlib.Data.List.Dedup
import RecordStore.Proofs.Document.Operations
import RecordStore.Proofs.Json.Members
import RecordStore.Proofs.Store.Creating

namespace RecordStore.Document

open RecordStore.Action (perform_bind_ok)

/-! ### Putting one entry -/

namespace Tree

/-- Under a key that is not taken an entry is added and every other entry stays. -/
theorem perm_put_of_absent {tree : Tree} {key : String} (absent : tree.get? key = none)
    (text : String) : (tree.put key text).Perm ((key, text) :: tree) := by
  induction tree with
  | nil => exact .refl _
  | cons first rest ih =>
      have other : first.1 ≠ key := by
        rintro rfl
        simp [get?] at absent
      rw [get?, if_neg other] at absent
      unfold put
      split
      · exact .refl _
      · rename_i order
        exact absurd (Std.LawfulEqCmp.compare_eq_iff_eq.mp order).symm other
      · exact ((ih absent).cons first).trans (.swap (key, text) first rest)

/-- Under a taken key the entry of the key is replaced and every other entry stays. -/
theorem Ordered.perm_put_of_present {tree : Tree} (ordered : tree.Ordered) {key old : String}
    (present : tree.get? key = some old) (text : String) :
    ((key, old) :: tree.put key text).Perm ((key, text) :: tree) := by
  induction tree with
  | nil => cases present
  | cons first rest ih =>
      obtain ⟨above, later⟩ := List.pairwise_cons.mp ordered
      unfold Tree.put
      split
      case h_1 order =>
          -- every key of the tree is above this one, which is therefore not taken
          rcases List.mem_cons.mp (mem_of_get? present) with rfl | member
          · exact absurd rfl (Text.ne_of_compare_lt order)
          · exact absurd rfl
              (Text.ne_of_compare_lt (Std.TransCmp.lt_trans order (above _ member)))
      case h_2 order =>
          obtain rfl : key = first.1 := Std.LawfulEqCmp.compare_eq_iff_eq.mp order
          have same : first = (first.1, old) := by
            rw [get?, if_pos rfl] at present
            exact Prod.ext rfl (Option.some.inj present)
          rw [← same]
          exact .swap (first.1, text) first rest
      case h_3 order =>
          have other : first.1 ≠ key :=
            Text.ne_of_compare_lt (Std.OrientedCmp.gt_iff_lt.mp order)
          rw [get?, if_neg other] at present
          have moved : ((key, old) :: first :: Tree.put rest key text).Perm
              (first :: (key, old) :: Tree.put rest key text) := .swap first (key, old) _
          exact moved.trans (((ih later present).cons first).trans (.swap (key, text) first rest))

/-- A tree after an entry was put: beside the entries it had, or in place of that of its
key. -/
structure Puts (before : Tree) (entry : String × String) (after : Tree) : Prop where
  added : before.get? entry.1 = none → after.Perm (entry :: before)
  replaced : ∀ old, before.get? entry.1 = some old →
    ((entry.1, old) :: after).Perm (entry :: before)

theorem Ordered.puts {tree : Tree} (ordered : tree.Ordered) (key text : String) :
    tree.Puts (key, text) (tree.put key text) :=
  ⟨fun absent => perm_put_of_absent absent text,
    fun _ present => ordered.perm_put_of_present present text⟩

end Tree

/-! ### One create -/

section Create

variable (setting : Setting) (session : Session Trees)

/-- A record is given a key unless it has one. -/
theorem perform_withKey (record : Object) :
    ∃ keyed after id, (withKey record).perform setting session = (.ok keyed, after) ∧
      after.data = session.data ∧ keyed.get? idField = some id := by
  unfold withKey
  split
  · rename_i given
    obtain ⟨id, found⟩ := Option.isSome_iff_exists.mp given
    exact ⟨record, session, id, rfl, rfl, found⟩
  · exact ⟨_, _, _, rfl, rfl, Object.get?_insert_self record idField _⟩

/-- A create on a known model puts the record it answers under the loose text of its id. -/
theorem perform_create {schema : String} {model : Schema}
    (known : setting.registry.get schema = .ok model) (values : Object) :
    ∃ stored after id, (backend.create schema values).perform setting session =
        (.ok stored, after) ∧
      stored.get? idField = some id ∧
      after.data = session.data.set schema
        ((session.data.tree schema).put (keyOf id) (Json.text (.obj stored))) := by
  have named : model.name = schema := Action.name_of_get known
  let later : Session Trees := { session with readings := session.readings + 1 }
  let record := model.prepareCreate values (setting.clock session.readings).text
  obtain ⟨stored, between, id, given, data, found⟩ := perform_withKey setting later record
  let tree := (session.data.tree schema).put (keyOf id) (Json.text (.obj stored))
  let changed : Session Trees := { between with data := session.data.set schema tree }
  have written : (write model stored).perform setting between = (.ok stored, changed) := by
    rw [perform_write, storeRecord, found, data, named]
  have inserted : (backend.insert model record).perform setting later = (.ok stored, changed) :=
    (perform_bind_ok _ _ given _).trans written
  let told := ((Action.notify model .create stored).perform setting changed).2
  refine ⟨stored, told, id, ?_, found, rfl⟩
  unfold Backend.create
  rw [perform_bind_ok _ _ ((Action.perform_schema_eq_ok setting session).mpr ⟨known, rfl⟩),
    perform_bind_ok _ _ (Action.perform_now setting session), perform_bind_ok _ _ inserted]
  rfl

/-- A create fails only on an unknown model, and then nothing is done; otherwise it puts the
record it answers, and no tree of another model changes. -/
theorem create_cases (schema : String) (values : Object)
    (ordered : (session.data.tree schema).Ordered) :
    (∃ error, (backend.create schema values).perform setting session = (.error error, session)) ∨
    ∃ stored after id, (backend.create schema values).perform setting session =
        (.ok stored, after) ∧
      stored.get? idField = some id ∧
      (session.data.tree schema).Puts (keyOf id, Json.text (.obj stored))
        (after.data.tree schema) ∧
      ∀ other, other ≠ schema → after.data.tree other = session.data.tree other := by
  cases known : setting.registry.get schema with
  | error error => exact .inl ⟨_, Backend.perform_create_unknown known values⟩
  | ok model =>
      right
      obtain ⟨stored, after, id, done, found, data⟩ := perform_create setting session known values
      refine ⟨stored, after, id, done, found, ?_, ?_⟩
      · rw [data, Trees.tree_set_self]
        exact ordered.puts _ _
      · intro other apart
        rw [data, Trees.tree_set_of_ne _ apart]

end Create

/-! ### Several creates -/

/-- A tree after several records were put into it, one after the other.  Of records with
one key the last remains, and it stands where the tree had an entry of that key before. -/
structure Tree.Extended (before : Tree) (created : List Object) (after : Tree) : Prop where
  present : ∀ record ∈ created, ∃ entry ∈ after, recordKey? record = some entry.1
  added : ∀ entry ∈ after, entry.1 ∈ created.filterMap recordKey? →
    ∃ record ∈ created, EntryOf entry record
  kept : ∀ entry, entry.1 ∉ created.filterMap recordKey? → (entry ∈ after ↔ entry ∈ before)

namespace Tree.Extended

theorem nil (tree : Tree) : tree.Extended [] tree := by
  constructor <;> simp

/-- Putting one more record in front. -/
theorem cons {before after : Tree} (ordered : before.Ordered) {record : Object} {id : Json}
    (found : record.get? idField = some id) {created : List Object}
    (later : (before.put (keyOf id) (Json.text (.obj record))).Extended created after) :
    before.Extended (record :: created) after := by
  have key : recordKey? record = some (keyOf id) := by simp [recordKey?, found]
  have put := ordered.mem_put (keyOf id) (Json.text (.obj record))
  have keys : (record :: created).filterMap recordKey? =
      keyOf id :: created.filterMap recordKey? := List.filterMap_cons_some key
  -- unless a later record has the key, the entry that was put is there at the end
  have own : keyOf id ∉ created.filterMap recordKey? →
      (keyOf id, Json.text (.obj record)) ∈ after := fun fresh =>
    (later.kept (keyOf id, Json.text (.obj record)) fresh).mpr ((put _).mpr (.inl rfl))
  constructor
  · intro other member
    rcases List.mem_cons.mp member with rfl | member
    · by_cases again : keyOf id ∈ created.filterMap recordKey?
      · obtain ⟨next, there, same⟩ := List.mem_filterMap.mp again
        obtain ⟨entry, inside, named⟩ := later.present next there
        exact ⟨entry, inside, key.trans (same.symm.trans named)⟩
      · exact ⟨_, own again, key⟩
    · exact later.present other member
  · intro entry inside named
    by_cases again : entry.1 ∈ created.filterMap recordKey?
    · obtain ⟨other, there, written⟩ := later.added entry inside again
      exact ⟨other, List.mem_cons_of_mem _ there, written⟩
    · rw [keys, List.mem_cons, or_iff_left again] at named
      rcases (put entry).mp ((later.kept entry again).mp inside) with rfl | ⟨-, apart⟩
      · exact ⟨record, List.mem_cons_self, id, found, rfl, rfl⟩
      · exact absurd named apart
  · intro entry apart
    rw [keys, List.mem_cons, not_or] at apart
    rw [later.kept entry apart.2, put]
    constructor
    · rintro (rfl | ⟨member, -⟩)
      · exact absurd rfl apart.1
      · exact member
    · exact fun member => .inr ⟨member, apart.1⟩

variable {before after : Tree} {created : List Object}

/-- The keys of the tree afterwards are those it had and those of the records. -/
theorem mem_keys_iff (extended : before.Extended created after) (key : String) :
    key ∈ after.map Prod.fst ↔
      key ∈ created.filterMap recordKey? ++ before.map Prod.fst := by
  rw [List.mem_append]
  constructor
  · intro member
    obtain ⟨entry, inside, rfl⟩ := List.mem_map.mp member
    by_cases named : entry.1 ∈ created.filterMap recordKey?
    · exact .inl named
    · exact .inr (List.mem_map_of_mem ((extended.kept entry named).mp inside))
  · intro member
    by_cases named : key ∈ created.filterMap recordKey?
    · obtain ⟨record, there, is⟩ := List.mem_filterMap.mp named
      obtain ⟨entry, inside, same⟩ := extended.present record there
      cases is.symm.trans same
      exact List.mem_map_of_mem inside
    · obtain ⟨entry, inside, rfl⟩ := List.mem_map.mp (member.resolve_left named)
      exact List.mem_map_of_mem ((extended.kept entry named).mpr inside)

/-- The tree grows by the number of records exactly when no two of them have one key, and
none has a key that was taken. -/
theorem length_eq_iff (extended : before.Extended created after) (ordered : after.Ordered) :
    after.length = before.length + created.length ↔
      (created.filterMap recordKey? ++ before.map Prod.fst).Nodup := by
  have keyed : (created.filterMap recordKey?).length = created.length := by
    rw [List.filterMap_length_eq_length]
    intro record member
    obtain ⟨entry, -, named⟩ := extended.present record member
    simp [named]
  have keys : (after.map Prod.fst).Perm
      (created.filterMap recordKey? ++ before.map Prod.fst).dedup := by
    refine (List.perm_ext_iff_of_nodup ordered.nodup_keys (List.nodup_dedup _)).mpr fun key => ?_
    rw [extended.mem_keys_iff, List.mem_dedup]
  have length : after.length =
      (created.filterMap recordKey? ++ before.map Prod.fst).dedup.length := by
    rw [← keys.length_eq, List.length_map]
  have all : before.length + created.length =
      (created.filterMap recordKey? ++ before.map Prod.fst).length := by
    rw [List.length_append, keyed, List.length_map, Nat.add_comm]
  rw [length, all, ← List.dedup_eq_self]
  exact ⟨fun same => (List.dedup_sublist _).eq_of_length same, congrArg List.length⟩

end Tree.Extended

/-- Creating several records in turn answers their number; each was put, and no tree of
another model has changed. -/
theorem createEach_extended {setting : Setting} {session after : Session Trees} {schema : String}
    {records : List Object} {count : Nat} (ordered : (session.data.tree schema).Ordered)
    (done : (backend.createEach schema records).perform setting session = (.ok count, after)) :
    (after.data.tree schema).Ordered ∧ ∃ created, created.length = count ∧
      (session.data.tree schema).Extended created (after.data.tree schema) := by
  induction records generalizing session count with
  | nil =>
      obtain ⟨rfl, rfl⟩ := (Action.perform_pure_eq_ok _ _).mp done
      exact ⟨ordered, [], rfl, .nil _⟩
  | cons values rest ih =>
      obtain ⟨stored, between, more, first, others, rfl⟩ := Backend.createEach_cons_eq_ok done
      obtain ⟨model, known⟩ := Backend.exists_model_of_create first
      obtain ⟨record, _, id, created, found, data⟩ :=
        perform_create setting session known values
      cases created.symm.trans first
      have tree : between.data.tree schema =
          (session.data.tree schema).put (keyOf id) (Json.text (.obj stored)) := by
        rw [data, Trees.tree_set_self]
      obtain ⟨still, later, length, extended⟩ := ih (tree ▸ ordered.put _ _) others
      rw [tree] at extended
      exact ⟨still, stored :: later, congrArg (· + 1) length, .cons ordered found extended⟩

end RecordStore.Document
