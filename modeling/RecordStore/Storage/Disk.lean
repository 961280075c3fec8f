/-
Module: RecordStore.Storage.Disk
Purpose: What a program finds on disk: files with their texts, and the kept stores.  A
  place is named by a path; paths that differ only in empty parts and dots are equal.
Main exports: Location.normal, Disk, Disk.text?, Disk.documents, Disk.database
-/
import RecordStore.Document.Tree
import RecordStore.Relational.Database

namespace RecordStore

namespace Location

/-- One more part of a path, below the parts before it with the last part first. -/
def step (above : List (List Char)) (part : List Char) : List (List Char) :=
  if part = [] || part = ['.'] then above
  else if part = ['.', '.'] then
    match above with
    | [] => [part]
    | last :: rest => if last = ['.', '.'] then part :: above else rest
  else part :: above

/-- The parts of a path from the outermost folder. -/
def parts (path : String) : List (List Char) :=
  ((Text.splitAt '/' path.toList).foldl step []).reverse

/-- A path without empty parts and dots. -/
def normal (path : String) : String :=
  let inner := ['/'].intercalate (parts path)
  String.ofList (if path.toList.head? = some '/' then '/' :: inner else inner)

/-- Whether a path leads through a folder. -/
def isUnder (path folder : String) : Bool :=
  (folder.toList ++ ['/']).isPrefixOf path.toList

end Location

/-- Files, and the kept document stores and databases, each by its path. -/
structure Disk where
  files : List (String × String)
  documentStores : List (String × Document.Trees)
  databases : List (String × Database)
deriving Inhabited

/-- The entry of a name. -/
def valueOf? (entries : List (String × α)) (name : String) : Option α :=
  (entries.find? fun entry => entry.1 == name).map Prod.snd

/-- The entries with the entry of a name replaced or added. -/
def putEntry : List (String × α) → String → α → List (String × α)
  | [], name, value => [(name, value)]
  | entry :: rest, name, value =>
    if entry.1 = name then (name, value) :: rest else entry :: putEntry rest name value

namespace Disk

/-- A disk with files only. -/
def ofFiles (files : List (String × String)) : Disk :=
  ⟨files.map fun file => (Location.normal file.1, file.2), [], []⟩

/-- The text of a file. -/
def text? (disk : Disk) (path : String) : Option String :=
  valueOf? disk.files (Location.normal path)

/-- The documents kept at a path. -/
def documents (disk : Disk) (path : String) : Document.Trees :=
  (valueOf? disk.documentStores (Location.normal path)).getD []

/-- The database kept at a path. -/
def database (disk : Disk) (path : String) : Database :=
  (valueOf? disk.databases (Location.normal path)).getD Database.empty

/-- The paths of everything that is one file. -/
def filePaths (disk : Disk) : List String :=
  disk.files.map Prod.fst ++ disk.databases.map Prod.fst

/-- Whether documents can be kept at a path: neither it nor a folder above it is a file. -/
def admitsDocuments (disk : Disk) (path : String) : Bool :=
  let place := Location.normal path
  !disk.filePaths.any fun file => file == place || Location.isUnder place file

/-- Whether a database can be kept at a path: it is no other file and no folder, and no
folder above it is a file. -/
def admitsDatabase (disk : Disk) (path : String) : Bool :=
  let place := Location.normal path
  !(disk.files.any (fun file => file.1 == place) ||
    disk.filePaths.any (fun file => Location.isUnder place file || Location.isUnder file place) ||
    disk.documentStores.any fun store => store.1 == place || Location.isUnder store.1 place)

/-- The disk with the documents of a path replaced. -/
def keepDocuments (disk : Disk) (path : String) (trees : Document.Trees) : Disk :=
  { disk with documentStores := putEntry disk.documentStores (Location.normal path) trees }

/-- The disk with the database of a path replaced. -/
def keepDatabase (disk : Disk) (path : String) (database : Database) : Disk :=
  { disk with databases := putEntry disk.databases (Location.normal path) database }

end Disk

end RecordStore
