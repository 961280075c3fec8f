/-
Module: RecordStore.Document.Store
Purpose: The document backend.  Records are kept as JSON text under the loose text of
  their id; reads scan the tree of a model and run the query in memory.
Main exports: Document.backend
-/
import RecordStore.Document.Tree
import RecordStore.Document.Query
import RecordStore.Store.Engine

namespace RecordStore.Document

/-- The record of a stored text. -/
def readRecord (text : String) : Except StoreError Object :=
  match Json.parse? text with
  | some (.obj record) => .ok record
  | _ => .error (.serialization .unreadable)

/-- The record of a key in a tree. -/
def fetchRecord (tree : Tree) (id : Json) : Except StoreError (Option Object) :=
  match tree.get? (keyOf id) with
  | none => .ok none
  | some text => (readRecord text).map some

/-- Every record of a tree, in the order of the keys. -/
def readAll (tree : Tree) : Except StoreError (List Object) :=
  tree.mapM fun entry => readRecord entry.2

/-- A tree with a record stored under its id. -/
def storeRecord (tree : Tree) (record : Object) : Except StoreError Tree :=
  match record.get? idField with
  | none => .error (.serialization .noId)
  | some id => .ok (tree.put (keyOf id) (Json.text (.obj record)))

/-- A tree without the records of the ids of several records, and how many it held. -/
def eraseRecords (tree : Tree) : List Object → Tree × Nat
  | [] => (tree, 0)
  | record :: rest =>
    match record.get? idField with
    | none => eraseRecords tree rest
    | some id =>
      let erased := eraseRecords (tree.erase (keyOf id)) rest
      (erased.1, if (tree.get? (keyOf id)).isSome then erased.2 + 1 else erased.2)

/-- The greatest of several values; of values that do not compare greater the first. -/
def greatestOf (values : List Json) : Option Json :=
  values.foldl (fun best value =>
    match best with
    | none => some value
    | some current => if compare value current = some .gt then some value else some current) none

/-- The tree of a model. -/
def treeOf (model : Schema) : Action Trees Tree := do
  return (← Action.data).tree model.name

/-- Replaces the tree of a model. -/
def setTree (model : Schema) (tree : Tree) : Action Trees Unit := do
  Action.store ((← Action.data).set model.name tree)

/-- The record of a key. -/
def fetch (model : Schema) (id : Json) : Action Trees (Option Object) := do
  Action.ofExcept (fetchRecord (← treeOf model) id)

/-- The records a plan finds: the one of its key, or those that meet its query now. -/
def find (model : Schema) (plan : Plan) : Action Trees (List Object) :=
  match plan.index with
  | some key => do return (← fetch model key).toList
  | none => do
    let now ← Action.now
    let query ← Action.lift (.invalidQuery model.name) (Query.compile plan now)
    let records ← Action.ofExcept (readAll (← treeOf model))
    return query.run records

/-- A generated key. -/
def newKey : Action Trees (Option Json) := do return some (.str (← Action.freshKey))

/-- The record with a generated key unless it has one. -/
def withKey (record : Object) : Action Trees Object :=
  if record.contains idField then pure record
  else do
    match ← newKey with
    | some key => return record.insert idField key
    | none => return record

/-- Stores a record under its id, in place of any record that is there. -/
def write (model : Schema) (record : Object) : Action Trees Object := do
  setTree model (← Action.ofExcept (storeRecord (← treeOf model) record))
  return record

/-- Deletes the records a plan finds by their ids. -/
def delete (model : Schema) (plan : Plan) : Action Trees Nat := do
  let found ← find model plan
  let (tree, count) := eraseRecords (← treeOf model) found
  setTree model tree
  return count

/-- The values at a path of several records, `null` left out. -/
def valuesAt (path : FieldPath) (records : List Object) : List Json :=
  (records.filterMap (·.lookup? path)).filter fun value => !value.isNull

/-- The document backend. -/
def backend : Backend Trees where
  name := "document"
  connect := pure ()
  newKey := newKey
  conditionFirst := true
  find := find
  fetch := fetch
  insert model record := do write model (← withKey record)
  replace model _ record := write model record
  delete := delete
  count model plan := do return (← find model plan).length
  greatest model path plan := do return greatestOf (valuesAt path (← find model plan))
  reset model := setTree model []

end RecordStore.Document
