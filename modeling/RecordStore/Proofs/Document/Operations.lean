/-
Module: RecordStore.Proofs.Document.Operations
Purpose: How the basic operations of the document backend run, and what they do to the
  trees: each leaves all of them alone or writes the tree of its own model, by putting a
  record, erasing records, or emptying it.  Hence every reachable session has keyed trees,
  and a call changes the tree of its own model only.
Main exports: find_eq_ok, perform_delete, Tree.Written, backend_preserves, trees_keyed,
  preserves_tree
-/
import RecordStore.Proofs.Document.Tree
import RecordStore.Proofs.Store.Reachable

namespace RecordStore.Document

open RecordStore.Action (Keeps ReadsOnly perform_bind perform_bind_ok perform_bind_error
  perform_bind_eq_ok)

section Run

variable (setting : Setting) (session : Session Trees) (model : Schema)

@[simp] theorem perform_treeOf :
    (treeOf model).perform setting session = (.ok (session.data.tree model.name), session) := rfl

theorem perform_fetch (id : Json) :
    (fetch model id).perform setting session =
      (fetchRecord (session.data.tree model.name) id, session) := by
  unfold fetch
  rw [perform_bind_ok setting session (perform_treeOf setting session model)]
  exact Action.perform_ofExcept setting session _

/-- A record with an id is stored; one without is refused and nothing changes. -/
theorem perform_write (record : Object) :
    (write model record).perform setting session =
      match storeRecord (session.data.tree model.name) record with
      | .ok tree => (.ok record, { session with data := session.data.set model.name tree })
      | .error error => (.error error, session) := by
  unfold write
  rw [perform_bind_ok setting session (perform_treeOf setting session model), perform_bind,
    Action.perform_ofExcept]
  cases storeRecord (session.data.tree model.name) record with
  | ok tree => rfl
  | error error => rfl

theorem fetch_readsOnly (id : Json) : ReadsOnly (fetch model id) := by
  intro data setting session held
  rw [perform_fetch]
  exact held

theorem find_readsOnly (plan : Plan) : ReadsOnly (find model plan) := by
  intro data
  unfold find
  split
  · exact (fetch_readsOnly model _ data).bind fun record => .pure _
  · refine Keeps.now.bind fun now => ?_
    refine (Keeps.lift _ _).bind fun query => ?_
    have reads : Keeps (fun _ after => after = data) (treeOf model) := fun _ _ held => held
    exact reads.bind fun tree => (Keeps.ofExcept _).bind fun records => .pure _

end Run

/-- What a plan finds: the record under its key, or the page of its query over all
records of the tree. -/
theorem find_eq_ok {setting : Setting} {session after : Session Trees} {model : Schema}
    {plan : Plan} {found : List Object}
    (done : (find model plan).perform setting session = (.ok found, after)) :
    (∃ key record?, plan.index = some key ∧
      fetchRecord (session.data.tree model.name) key = .ok record? ∧ found = record?.toList) ∨
    (∃ query records, plan.index = none ∧
      Query.compile plan (setting.clock session.readings) = .ok query ∧
      readAll (session.data.tree model.name) = .ok records ∧ found = query.run records) := by
  unfold find at done
  split at done
  case h_1 key indexed =>
      left
      obtain ⟨record?, between, fetched, rest⟩ := (perform_bind_eq_ok _ _).mp done
      rw [perform_fetch] at fetched
      cases rest
      exact ⟨key, record?, indexed, (Prod.mk.inj fetched).1, rfl⟩
  case h_2 unindexed =>
      right
      rw [perform_bind_ok _ _ (Action.perform_now setting session)] at done
      obtain ⟨query, between, lifted, done⟩ := (perform_bind_eq_ok _ _).mp done
      obtain ⟨compiled, rfl⟩ := (Action.perform_lift_eq_ok _ _).mp lifted
      rw [perform_bind_ok _ _ (perform_treeOf _ _ model)] at done
      obtain ⟨records, last, answered, rest⟩ := (perform_bind_eq_ok _ _).mp done
      obtain ⟨read, rfl⟩ := (Action.perform_ofExcept_eq_ok _ _).mp answered
      cases rest
      exact ⟨query, records, unindexed, compiled, read, rfl⟩

/-- A plan with a key finds what stands under the key. -/
theorem perform_find_index {setting : Setting} {session : Session Trees} {model : Schema}
    {plan : Plan} {key : Json} (indexed : plan.index = some key) :
    (find model plan).perform setting session =
      ((fetchRecord (session.data.tree model.name) key).map Option.toList, session) := by
  have fetched := perform_fetch setting session model key
  unfold find
  simp only [indexed]
  rw [perform_bind, fetched]
  cases fetchRecord (session.data.tree model.name) key <;> rfl

/-- A plan without a key scans the tree and runs its query. -/
theorem perform_find_scan {setting : Setting} {session : Session Trees} {model : Schema}
    {plan : Plan} {query : Query} (unindexed : plan.index = none)
    (compiled : Query.compile plan (setting.clock session.readings) = .ok query) :
    (find model plan).perform setting session =
      ((readAll (session.data.tree model.name)).map query.run,
        { session with readings := session.readings + 1 }) := by
  unfold find
  simp only [unindexed]
  rw [perform_bind_ok _ _ (Action.perform_now setting session), compiled,
    perform_bind_ok _ _ (Action.perform_lift _ _ _ (.ok query)),
    perform_bind_ok _ _ (perform_treeOf _ _ model), perform_bind, Action.perform_ofExcept]
  cases readAll (session.data.tree model.name) <;> rfl

/-- A deletion erases what its plan finds. -/
theorem perform_delete {setting : Setting} {session after : Session Trees} {model : Schema}
    {plan : Plan} {found : List Object}
    (matched : (find model plan).perform setting session = (.ok found, after)) :
    (delete model plan).perform setting session =
      let erased := eraseRecords (session.data.tree model.name) found
      (.ok erased.2, { after with data := session.data.set model.name erased.1 }) := by
  have unchanged := (find_readsOnly model plan).data_eq setting session
  rw [matched] at unchanged
  unfold delete
  rw [perform_bind_ok setting session matched, ← unchanged]
  rfl

/-! ### What is written -/

/-- The trees that writing may turn a tree into. -/
inductive Tree.Written (tree : Tree) : Tree → Prop where
  | put {record : Object} {id : Json} (found : record.get? idField = some id) :
      Written tree (tree.put (keyOf id) (Json.text (.obj record)))
  | erased (records : List Object) : Written tree (eraseRecords tree records).1
  | emptied : Written tree []

theorem Tree.Written.keyed {before after : Tree} (written : before.Written after)
    (keyed : before.Keyed) : after.Keyed := by
  cases written with
  | put found => exact keyed.put found
  | erased records =>
      rw [eraseRecords_eq_filter]
      exact keyed.sublist List.filter_sublist
  | emptied => exact .nil

theorem storeRecord_written {before after : Tree} {record : Object}
    (stored : storeRecord before record = .ok after) : before.Written after := by
  unfold storeRecord at stored
  split at stored
  · cases stored
  · rename_i id found
    cases stored
    exact .put found

section Preserves

variable {holds : Registry → Trees → Prop} {writable : String → Prop}
variable (step : ∀ registry trees model after, writable model →
  (trees.tree model).Written after → holds registry trees →
  holds registry (trees.set model after))
include step

theorem write_keeps (model : Schema) (record : Object) (allowed : writable model.name) :
    Keeps holds (write model record) := by
  intro setting session held
  rw [perform_write]
  cases stored : storeRecord (session.data.tree model.name) record with
  | error error => exact held
  | ok tree => exact step _ _ _ _ allowed (storeRecord_written stored) held

theorem delete_keeps (model : Schema) (plan : Plan) (allowed : writable model.name) :
    Keeps holds (delete model plan) := by
  intro setting session held
  rcases matched : (find model plan).perform setting session with ⟨answer, after⟩
  cases answer with
  | error error =>
      unfold delete
      rw [perform_bind_error setting session matched]
      have unchanged := (find_readsOnly model plan).data_eq setting session
      rw [matched] at unchanged
      exact unchanged ▸ held
  | ok found =>
      rw [perform_delete matched]
      exact step _ _ _ _ allowed (.erased found) held

/-- The backend keeps what every way of writing a tree keeps. -/
theorem backend_preserves : backend.Preserves holds writable where
  find model plan := (find_readsOnly model plan).keeps
  fetch model id := (fetch_readsOnly model id).keeps
  insert model record allowed := by
    refine Keeps.bind ?_ fun keyed => write_keeps step model keyed allowed
    unfold withKey
    split
    · exact .pure record
    · refine (Keeps.freshKey.bind fun key => .pure _).bind fun key => ?_
      cases key with
      | none => exact .pure _
      | some key => exact .pure _
  replace model _ record allowed := write_keeps step model record allowed
  delete model plan allowed := delete_keeps step model plan allowed
  count model plan := (find_readsOnly model plan).keeps.bind fun found => .pure _
  greatest model path plan := (find_readsOnly model plan).keeps.bind fun found => .pure _
  reset _ _ _ allowed _ held := step _ _ _ _ allowed .emptied held

end Preserves

/-! ### Sessions of document stores -/

/-- The sessions that calls lead to from a store without records.  Opening the store anew
finds the trees as they were left. -/
abbrev Reached (registry : Registry) : Session Trees → Prop := Reachable backend [] id registry

/-- In every reachable session the trees hold records under the loose texts of their ids. -/
theorem trees_keyed {registry : Registry} {session : Session Trees}
    (reached : Reached registry session) : session.data.Keyed := by
  refine @Reachable.holds _ _ _ _ _ _ (fun _ trees => trees.Keyed) reached
    (backend_preserves ?_) (fun model => .nil) (fun _ keyed => keyed)
  intro registry trees model after _ written keyed
  exact keyed.set (written.keyed (keyed model))

/-- Reads keep every tree, writes every tree but that of their model. -/
theorem preserves_tree (other : String) (tree : Tree) :
    backend.Preserves (fun _ trees => trees.tree other = tree) (fun model => other ≠ model) := by
  refine backend_preserves ?_
  intro registry trees model after apart _ same
  rw [Trees.tree_set_of_ne trees apart]
  exact same

end RecordStore.Document
