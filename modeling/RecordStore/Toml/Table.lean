/-
Module: RecordStore.Toml.Table
Purpose: Building the tables of a TOML document.  A table is stated once, by its header; one
  that only a longer header or a dotted key mentions is there by implication.  A dotted key
  adds to no table that is stated, and no table or value is given twice.
Main exports: Toml.Members, Toml.Members.openTable?, Toml.Members.openElement?,
  Toml.Members.assign?, Toml.Members.toObject
-/
import RecordStore.Json.Basic

namespace RecordStore.Toml

/-- How a table came to be. -/
inductive Origin where
  | stated
  | implied
  | dotted
deriving DecidableEq, Repr, Inhabited

/-- What a name stands for: a finished value, a table, or a list of tables that grows. -/
inductive Node where
  | value (value : Json)
  | table (origin : Origin) (members : List (String × Node))
  | tables (elements : List (List (String × Node)))
deriving Repr, Inhabited

/-- The named nodes of a table. -/
abbrev Members := List (String × Node)

namespace Members

/-- The node of a name. -/
def get? : Members → String → Option Node
  | [], _ => none
  | member :: rest, name => if member.1 = name then some member.2 else get? rest name

/-- The node of a name replaced or added. -/
def put : Members → String → Node → Members
  | [], name, node => [(name, node)]
  | member :: rest, name, node =>
    if member.1 = name then (name, node) :: rest else member :: put rest name node

/-- Changes the table at a path.  Tables on the way that are not there are made; of a list
of tables the last is meant; dotted keys lead through no stated table. -/
def alter (made : Origin) (change : Origin → Members → Option Members) :
    List String → Origin → Members → Option Members
  | [], origin, members => change origin members
  | name :: path, _, members =>
    match members.get? name with
    | none => (alter made change path made []).map fun inner => members.put name (.table made inner)
    | some (.value _) => none
    | some (.tables elements) =>
      match elements.getLast? with
      | none => none
      | some last => (alter made change path .stated last).map fun inner =>
          members.put name (.tables (elements.dropLast ++ [inner]))
    | some (.table origin inner) =>
      if made = .dotted && origin = .stated then none
      else (alter made change path origin inner).map fun inner =>
        members.put name (.table origin inner)

/-- The members with a table stated by its header. -/
def openTable? (name : String) (members : Members) : Option Members :=
  match members.get? name with
  | none => some (members.put name (.table .stated []))
  | some (.table .implied inner) => some (members.put name (.table .stated inner))
  | some _ => none

/-- The members with one more table in a list of tables. -/
def openElement? (name : String) (members : Members) : Option Members :=
  match members.get? name with
  | none => some (members.put name (.tables [[]]))
  | some (.tables elements) => some (members.put name (.tables (elements ++ [[]])))
  | some _ => none

/-- The members with a value under a dotted key.  The key ends in a table made by dotted
keys, or has one part. -/
def assign? (path : List String) (name : String) (value : Json) (members : Members) :
    Option Members :=
  alter .dotted (fun origin inner =>
    if (origin == .dotted) == path.isEmpty || (inner.get? name).isSome then none
    else some (inner.put name (.value value))) path .stated members

mutual

/-- The value of a node. -/
def nodeValue : Node → Json
  | .value value => value
  | .table _ members => .obj (memberValues members)
  | .tables elements => .arr (elementValues elements)

/-- The values of members. -/
def memberValues : List (String × Node) → List (String × Json)
  | [] => []
  | (name, node) :: rest => (name, nodeValue node) :: memberValues rest

/-- The values of the tables of a list. -/
def elementValues : List (List (String × Node)) → List Json
  | [] => []
  | members :: rest => .obj (memberValues members) :: elementValues rest

end

/-- The members as an object. -/
def toObject (members : Members) : Object := memberValues members

end Members

end RecordStore.Toml
