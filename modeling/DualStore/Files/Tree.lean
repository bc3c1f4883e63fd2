import DualStore.Files.Path
import DualStore.Files.Request

/-!
# File trees

Directories and files kept as values, which answer the requests of `FileRequest`.

* `Entry`, `Tree`: what stands at a path, and a tree with its working directory;
* `Tree.walk`, `Tree.makeDirectories`: going along a path, and making the directories of one;
* `Tree.answer`: the answer to a request, and the tree after it.
-/

namespace DualStore

inductive Entry where
  | directory
  | database
  | file (text : String)
  deriving DecidableEq, Repr

/-- A place in a tree: the parts of its path, the last first. -/
abbrev Place := List String

/-- Entries by place, and the working directory. Every directory has an entry but the root. -/
structure Tree where
  entries : List (Place × Entry) := []
  workingDirectory : String := "/"
  deriving DecidableEq, Repr

namespace Tree

def entry? (t : Tree) (place : Place) : Option Entry :=
  if place = [] then some .directory else t.entries.lookup place

/-- The tree with an entry at a place where nothing stood. -/
def add (t : Tree) (place : Place) (e : Entry) : Tree :=
  { t with entries := t.entries ++ [(place, e)] }

/-- The place that a path leads to, if all parts before the last lead through directories. -/
def walk (t : Tree) (at' : Place) : List String → Option Place
  | [] => some at'
  | part :: rest =>
    if t.entry? at' ≠ some .directory then none
    else if part = ".." then t.walk at'.tail rest
    else t.walk (part :: at') rest

def absolute (t : Tree) (path : String) : List String :=
  Path.parts (Path.join t.workingDirectory path)

def find? (t : Tree) (path : String) : Option Place := t.walk [] (t.absolute path)

/-- Makes the directories of a path that are missing; a file in its way ends it. -/
def makeParts (t : Tree) (at' : Place) : List String → Except StoreError Unit × Tree
  | [] => (.ok (), t)
  | part :: rest =>
    let next := if part = ".." then at'.tail else part :: at'
    match t.entry? next with
    | some .directory => t.makeParts next rest
    | none => (t.add next .directory).makeParts next rest
    | some _ => (.error .io, t)

def makeDirectories (t : Tree) (path : String) : Except StoreError Unit × Tree :=
  t.makeParts [] (t.absolute path)

def read (t : Tree) (path : String) : ReadOutcome :=
  match (t.find? path).bind t.entry? with
  | none => .missing
  | some (.file text) => .text text
  | some .directory => .unreadable "is a directory"
  | some .database => .unreadable "is not text"

def noDatabase : Except Sql.SqlError Unit := .error (.connection "unable to open database file")

/-- Opens a database, which is made if nothing is there; the directories of its path are made as far
as possible. -/
def openDatabase (t : Tree) (path : String) : Except Sql.SqlError Unit × Tree :=
  let t := (t.makeDirectories (Path.parent path)).2
  match t.find? path with
  | none => (noDatabase, t)
  | some place =>
    match t.entry? place with
    | none => (.ok (), t.add place .database)
    | some .database => (.ok (), t)
    | some .directory => (noDatabase, t)
    | some (.file text) =>
      (if text = "" then .ok () else .error (.connection "file is not a database"), t)

/-- Opens a document store, whose directory is made if it is missing. -/
def openStore (t : Tree) (path : String) : Except StoreError Unit × Tree :=
  if path = "" then (.ok (), t) else t.makeDirectories path

/-- Whether a document store answers: its directory is there. -/
def pingStore (t : Tree) (path : String) : Except StoreError Unit :=
  if path ≠ "" ∧ (t.find? path).bind t.entry? = some .directory then .ok () else .error .io

/-- The answer to a request, and the tree after it. No time passes. -/
def answer : (r : FileRequest) → Tree → r.Answer × Tree
  | .workingDirectory, t => (t.workingDirectory, t)
  | .clock, t => ((0 : Nat), t)
  | .read path, t => (t.read path, t)
  | .openDatabase path, t => t.openDatabase path
  | .openStore path, t => t.openStore path
  | .pingDatabase _, t => (.ok (), t)
  | .pingStore path, t => (t.pingStore path, t)

def ofFiles (workingDirectory : String) (files : List (String × String)) : Tree :=
  let t := (Tree.makeDirectories ⟨[], "/"⟩ workingDirectory).2
  let place := (Path.parts workingDirectory).reverse
  ⟨t.entries ++ files.map fun f => (f.1 :: place, .file f.2), workingDirectory⟩

def perform {α : Type} (t : Tree) (work : FileWork α) : α × Tree := work.run answer t

example : (ofFiles "/w" [("f", "x")]).read "./f" = .text "x" := by decide +kernel

example : (ofFiles "/w" []).read "f" = .missing := by decide +kernel

end Tree

end DualStore
