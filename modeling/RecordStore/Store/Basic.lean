/-
Module: RecordStore.Store.Basic
Purpose: What the operations of every store share: the setting they run in, the session
  they change, the answers they give, and the record of operations that makes a backend.
  An operation that fails leaves what it had changed before.
Main exports: Setting, Session, Action, Selection, SaveOptions, Backend
-/
import RecordStore.Schema.Registry
import RecordStore.Query.Planning
import RecordStore.Store.Error
import RecordStore.Store.Shaping
import RecordStore.Time.Instant

namespace RecordStore

/-- What operations run in: the models, the readings of the clock and the generated keys
in the order they are taken, and the files that can be read. -/
structure Setting where
  registry : Registry
  clock : Nat → Instant
  keys : Nat → String
  files : String → Option String

/-- What a listener was told. -/
structure Notice where
  listener : String
  record : Object
deriving Repr, Inhabited

/-- The stored data, the numbers of clock readings and keys taken, and what the listeners
were told. -/
structure Session (δ : Type) where
  data : δ
  readings : Nat
  issued : Nat
  notices : List Notice
deriving Inhabited

/-- A session over fresh data. -/
def Session.start (data : δ) : Session δ := ⟨data, 0, 0, []⟩

/-- An operation on a session. -/
abbrev Action (δ α : Type) := ReaderT Setting (ExceptT StoreError (StateM (Session δ))) α

namespace Action

/-- The answer of an operation and the session it leaves. -/
def perform (action : Action δ α) (setting : Setting) (session : Session δ) :
    Except StoreError α × Session δ :=
  (ReaderT.run action setting).run.run session

/-- An answer that may be an error. -/
def ofExcept (answer : Except StoreError α) : Action δ α :=
  match answer with
  | .ok value => pure value
  | .error error => throw error

/-- An answer that may be an error of a lower layer. -/
def lift (wrap : ε → StoreError) (answer : Except ε α) : Action δ α :=
  match answer with
  | .ok value => pure value
  | .error error => throw (wrap error)

/-- The next reading of the clock. -/
def now : Action δ Instant := do
  let setting ← read
  let session ← get
  set { session with readings := session.readings + 1 }
  return setting.clock session.readings

/-- The next generated key. -/
def freshKey : Action δ String := do
  let setting ← read
  let session ← get
  set { session with issued := session.issued + 1 }
  return setting.keys session.issued

/-- The stored data. -/
def data : Action δ δ := do return (← get).data

/-- Replaces the stored data. -/
def store (data : δ) : Action δ Unit := modify fun session => { session with data := data }

/-- The model of a name. -/
def schema (name : String) : Action δ Schema := do
  lift .schema ((← read).registry.get name)

/-- Tells the listeners of an event about a record. -/
def notify (schema : Schema) (event : HookEvent) (record : Object) : Action δ Unit :=
  modify fun session =>
    { session with
      notices := session.notices ++
        (schema.hooks.notices event record).map fun told => ⟨told.1, told.2⟩ }

end Action

/-- The answer of a read: a key finds at most one record. -/
inductive Selection where
  | one (record : Option Object)
  | many (records : List Object)
deriving Repr, Inhabited

namespace Selection

/-- The records of an answer. -/
def records : Selection → List Object
  | .one record => record.toList
  | .many records => records

/-- The number of records. -/
def length (selection : Selection) : Nat := selection.records.length

end Selection

/-- How a save changes records. -/
structure SaveOptions where
  mode : UpdateMode
  policy : UnknownFieldPolicy
deriving DecidableEq, Repr, Inhabited

/-- The outcome of a save. -/
inductive SaveOutcome where
  | created (record : Object)
  | updated (record : Object)
  /-- The records that were updated, and the keys of those that could not be. -/
  | batch (updated : List Object) (failed : List (Json × StoreError))
deriving Inhabited

/-- The operations in which stores differ. -/
structure Backend (δ : Type) where
  /-- The name of the backend. -/
  name : String
  /-- Makes the store ready. -/
  connect : Action δ Unit
  /-- A key for a new record, if records need one before they are stored. -/
  newKey : Action δ (Option Json)
  /-- Whether bulk operations read their condition before the name of the model. -/
  conditionFirst : Bool
  /-- The whole records that a plan finds. -/
  find : Schema → Plan → Action δ (List Object)
  /-- The record of a key. -/
  fetch : Schema → Json → Action δ (Option Object)
  /-- Stores a new record and answers it as stored. -/
  insert : Schema → Object → Action δ Object
  /-- Stores a changed record under the key it was fetched by and answers it as stored. -/
  replace : Schema → Json → Object → Action δ Object
  /-- Deletes what a plan finds. -/
  delete : Schema → Plan → Action δ Nat
  /-- The number of records a plan finds. -/
  count : Schema → Plan → Action δ Nat
  /-- The greatest value at a path among the records a plan finds. -/
  greatest : Schema → FieldPath → Plan → Action δ (Option Json)
  /-- Drops the records of a model. -/
  reset : Schema → Action δ Unit

end RecordStore
