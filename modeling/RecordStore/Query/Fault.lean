/-
Module: RecordStore.Query.Fault
Purpose: Why a store cannot run a read plan that was read without error.
Main exports: QueryFault, QueryFault.reason, Plan.checkScope
-/
import RecordStore.Query.Basic
import RecordStore.Schema.Basic

namespace RecordStore

/-- What a store cannot do with a plan. -/
inductive QueryFault where
  | badPattern (pattern : String)
  | scopeNeedsTimestamps
  | notAColumn (name : String)
  | noInnerFields (column : String)
  | elementPredicate (path : String)
deriving DecidableEq, Repr

/-- The words for a fault. -/
def QueryFault.reason : QueryFault → String
  | .badPattern pattern => "bad pattern '" ++ pattern ++ "'"
  | .scopeNeedsTimestamps => "scope needs a model registered with timestamps"
  | .notAColumn name => "'" ++ name ++ "' is not a column"
  | .noInnerFields column => "'" ++ column ++ "' has no inner fields"
  | .elementPredicate path => "element predicates are not supported in filters: '" ++ path ++ "'"

/-- A recency window needs records that carry their time of creation. -/
def Plan.checkScope (plan : Plan) (schema : Schema) : Except QueryFault Unit :=
  if plan.scope.isSome && !schema.timestamps then .error .scopeNeedsTimestamps else .ok ()

end RecordStore
