import DualStore.Document.Collection
import DualStore.Document.Pipeline

/-!
# Document stores

A store is a directory of collections. A call answers and leaves a store behind; a call that fails
may have done part of its work.

* `Store`, `Store.open?`, `Store.create`, `Store.collections`: collections by name;
* `Store.putFile`, `Store.fileText?`: files in the directories of a store;
* `Call`, `Call.Answer`: what a session asks of a store;
* `Store.perform`: the answer to a call, and the store after it.
-/

namespace DualStore

/-- A store: the directories below its root and their files. -/
structure Store where
  directories : List (String × Collection.Files) := []

/-- What a session asks of a store. -/
inductive Call where
  | aggregate (collection : String) (stages : List Json)
  | insertMany (collection : String) (docs : List Document)
  | updateById (collection : String) (doc : Document)
  | updateMany (collection : String) (filter set : Fields)
  | removeMany (collection : String) (filter : Fields)

def Call.Result : Call → Type
  | .aggregate _ _ => List Json
  | .insertMany _ _ => Unit
  | .updateById _ _ => Unit
  | .updateMany _ _ _ => Nat
  | .removeMany _ _ => Nat

abbrev Call.Answer (call : Call) : Type := Except StoreError call.Result

namespace Store

/-- The longest name of a directory, in bytes. -/
def maxNameBytes : Nat := 255

/-- The files of a collection, if it exists. -/
def open? (s : Store) (name : String) : Except StoreError (Option Collection.Files) :=
  match Collection.checkName name with
  | .error e => .error (.invalidName e)
  | .ok _ => .ok (Keyed.get? name s.directories)

/-- The files of a collection, which is created if it does not exist. -/
def create (s : Store) (name : String) : Except StoreError (Collection.Files × Store) :=
  match Collection.checkName name with
  | .error e => .error (.invalidName e)
  | .ok _ =>
    match Keyed.get? name s.directories with
    | some files => .ok (files, s)
    | none =>
      if maxNameBytes < name.utf8ByteSize then .error .io
      else .ok ([], ⟨Keyed.put name [] s.directories⟩)

def put (s : Store) (name : String) (files : Collection.Files) : Store :=
  ⟨Keyed.put name files s.directories⟩

/-- The names of the directories that can be collections, in order: a leading point or underscore
hides a directory. -/
def collections (s : Store) : List String :=
  stableSort (fun a b => a < b)
    ((Keyed.keys s.directories).filter fun name =>
      name.toList.head? ≠ some '.' && name.toList.head? ≠ some '_')

def putFile (s : Store) (directory name text : String) : Store :=
  s.put directory (Keyed.put name text ((Keyed.get? directory s.directories).getD []))

def fileText? (s : Store) (directory name : String) : Option String :=
  (Keyed.get? directory s.directories).bind (Keyed.get? name)

/-! ## Calls -/

/-- Runs a pipeline over the documents of a collection; a missing collection has none. -/
def aggregate (s : Store) (name : String) (stages : List Json) : Except StoreError (List Json) :=
  match s.open? name with
  | .error e => .error e
  | .ok none => (Document.run [] stages).mapError .pipeline
  | .ok (some files) =>
    match Collection.all files with
    | .error e => .error e
    | .ok docs => (Document.run (docs.map Document.toJson) stages).mapError .pipeline

/-- Inserts documents one after the other, up to the first that cannot be inserted. -/
def insertAll (files : Collection.Files) : List Document → Except StoreError Unit × Collection.Files
  | [] => (.ok (), files)
  | doc :: rest =>
    match Collection.insert files doc with
    | .error e => (.error e, files)
    | .ok files => insertAll files rest

def insertMany (s : Store) (name : String) (docs : List Document) :
    Except StoreError Unit × Store :=
  match s.create name with
  | .error e => (.error e, s)
  | .ok (files, s) =>
    match insertAll files docs with
    | (result, files) => (result, s.put name files)

/-- Replaces the document of an identity; the collection is created if it does not exist. -/
def updateById (s : Store) (name : String) (doc : Document) : Except StoreError Unit × Store :=
  match s.create name with
  | .error e => (.error e, s)
  | .ok (files, s) =>
    match Collection.replace files doc with
    | .error e => (.error e, s)
    | .ok files => (.ok (), s.put name files)

def hits (filter : Fields) : List Document → Except StoreError (List Document)
  | [] => .ok []
  | doc :: rest =>
    match Document.satisfies doc.toJson filter with
    | .error e => .error (.pipeline e)
    | .ok hit =>
      match hits filter rest with
      | .error e => .error e
      | .ok docs => .ok (if hit then doc :: docs else docs)

def matching (files : Collection.Files) (filter : Fields) : Except StoreError (List Document) :=
  match Collection.all files with
  | .error e => .error e
  | .ok docs => hits filter docs

/-- Sets fields of documents and counts those that are there. -/
def setAll (files : Collection.Files) (set : Fields) : List Document → Nat × Collection.Files
  | [] => (0, files)
  | doc :: rest =>
    match Collection.replace files (doc.setAll set) with
    | .error _ => setAll files set rest
    | .ok files =>
      match setAll files set rest with
      | (n, files) => (n + 1, files)

/-- Deletes documents and counts those that are there. -/
def deleteAll (files : Collection.Files) : List Document → Nat × Collection.Files
  | [] => (0, files)
  | doc :: rest =>
    match Collection.delete files doc.id with
    | .error _ => deleteAll files rest
    | .ok files =>
      match deleteAll files rest with
      | (n, files) => (n + 1, files)

/-- Changes the documents of a collection that satisfy a filter. All are looked for before the first
is changed; a missing collection has none. -/
def changeMany (s : Store) (name : String) (filter : Fields)
    (change : Collection.Files → List Document → Nat × Collection.Files) :
    Except StoreError Nat × Store :=
  match s.open? name with
  | .error e => (.error e, s)
  | .ok none => (.ok 0, s)
  | .ok (some files) =>
    match matching files filter with
    | .error e => (.error e, s)
    | .ok docs =>
      match change files docs with
      | (n, files) => (.ok n, s.put name files)

def perform (s : Store) : (call : Call) → call.Answer × Store
  | .aggregate name stages => (s.aggregate name stages, s)
  | .insertMany name docs => s.insertMany name docs
  | .updateById name doc => s.updateById name doc
  | .updateMany name filter set => s.changeMany name filter fun files docs => setAll files set docs
  | .removeMany name filter => s.changeMany name filter deleteAll

end Store

end DualStore
