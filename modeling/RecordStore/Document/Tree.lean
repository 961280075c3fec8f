/-
Module: RecordStore.Document.Tree
Purpose: Ordered maps from keys to the JSON text of records, one for each model.  The key
  of a record is the loose text of its id.
Main exports: Tree, Tree.get?, Tree.put, Tree.erase, Trees
-/
import RecordStore.Json.Loose
import RecordStore.Text.Blank

namespace RecordStore.Document

/-- Texts by key, in the order of the keys by code point. -/
abbrev Tree := List (String × String)

namespace Tree

/-- The text under a key. -/
def get? : Tree → String → Option String
  | [], _ => none
  | entry :: rest, key => if entry.1 = key then some entry.2 else get? rest key

/-- The tree with a text under a key. -/
def put : Tree → String → String → Tree
  | [], key, text => [(key, text)]
  | entry :: rest, key, text =>
    match Text.compare key entry.1 with
    | .lt => (key, text) :: entry :: rest
    | .eq => (key, text) :: rest
    | .gt => entry :: put rest key text

/-- The tree without a key. -/
def erase (tree : Tree) (key : String) : Tree := tree.filter fun entry => entry.1 != key

end Tree

/-- The trees by model. -/
abbrev Trees := List (String × Tree)

namespace Trees

/-- The tree of a model; one that nothing was stored in is empty. -/
def tree : Trees → String → Tree
  | [], _ => []
  | entry :: rest, model => if entry.1 = model then entry.2 else tree rest model

/-- The trees with the tree of a model replaced. -/
def set : Trees → String → Tree → Trees
  | [], model, tree => [(model, tree)]
  | entry :: rest, model, tree =>
    if entry.1 = model then (model, tree) :: rest else entry :: set rest model tree

end Trees

/-- The key of an id. -/
def keyOf (id : Json) : String := id.looseText

end RecordStore.Document
