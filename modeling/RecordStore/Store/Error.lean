/-
Module: RecordStore.Store.Error
Purpose: The errors of stores, with those of the layers below them.
Main exports: StoreError, StoreError.message
-/
import RecordStore.Patch.Basic
import RecordStore.Query.Fault

namespace RecordStore

/-- What is wrong with a fixture file. -/
inductive FixtureFault where
  | notJson
  | missingData
  | notAnObject (position : Nat)
deriving DecidableEq, Repr

/-- The words for a fault. -/
def FixtureFault.reason : FixtureFault → String
  | .notJson => "not a JSON document"
  | .missingData => "missing \x22data\x22 array"
  | .notAnObject position => "entry " ++ toString position ++ " is not an object"

/-- Why a stored value cannot be written or read. -/
inductive SerializationFault where
  | noId
  | unreadable
  | notText
deriving DecidableEq, Repr

/-- The words for a fault. -/
def SerializationFault.reason : SerializationFault → String
  | .noId => "record has no id"
  | .unreadable => "not a JSON document"
  | .notText => "invalid utf-8"

/-- The steps of a relational database that can fail. -/
inductive DatabaseStep where
  | createTable
  | query
  | insert
  | update
  | delete
  | count
  | max
  | sync
deriving DecidableEq, Repr

/-- The word for a step. -/
def DatabaseStep.text : DatabaseStep → String
  | .createTable => "create_table"
  | .query => "query"
  | .insert => "insert"
  | .update => "update"
  | .delete => "delete"
  | .count => "count"
  | .max => "max"
  | .sync => "sync"

/-- Why an operation of a store fails. -/
inductive StoreError where
  | schema (error : SchemaError)
  | path (error : PathError)
  | patch (error : PatchError)
  | plan (error : PlanError)
  | recordNotFound (schema id : String)
  | invalidQuery (schema : String) (fault : QueryFault)
  | database (step : DatabaseStep)
  | serialization (fault : SerializationFault)
  | missingFile (path : String)
  | fixture (path : String) (fault : FixtureFault)
deriving DecidableEq, Repr

/-- The message of a store error. -/
def StoreError.message : StoreError → String
  | .schema error => error.message
  | .path error => error.message
  | .patch error => error.message
  | .plan error => error.message
  | .recordNotFound model id => "Record '" ++ id ++ "' not found in '" ++ model ++ "'"
  | .invalidQuery model fault => "Invalid query on '" ++ model ++ "': " ++ fault.reason
  | .database step => "sqlite " ++ step.text ++ " failed"
  | .serialization fault => "Serialization error: " ++ fault.reason
  | .missingFile file => "IO error: cannot read " ++ file
  | .fixture file fault => "Invalid fixture '" ++ file ++ "': " ++ fault.reason

end RecordStore
