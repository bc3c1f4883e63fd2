import DualStore.Document.Basic
import DualStore.Sorting
import DualStore.Text.Alphanumeric
import DualStore.Text.Search

/-!
# Collections

A collection is a directory of files, one for each document, named by the identity. Other files may
lie beside them: what counts as a document is decided by the name alone.

* `checkName`: which names a collection may have;
* `Files`, `fileName`, `idOfFile?`: the files and their names;
* `read`, `get`, `insert`, `replace`, `delete`: one document by its identity;
* `ids`, `all`: all identities in ascending order, and the documents behind them.
-/

namespace DualStore.Collection

def checkName (name : String) : Except NameError Unit :=
  match name.toList with
  | [] => .error .empty
  | c :: rest =>
    if c = '_' then .error .leadingUnderscore
    else if (c :: rest).all (fun c => Text.isAlphanumeric c || c = '_') then .ok ()
    else .error .notAlphanumeric

/-- The files of a directory: names and texts. -/
abbrev Files := List (String × String)

def fileName (id : Int) : String := Decimal.intText id ++ ".json"

/-- The identity that the name of a file gives: an integer in front of the ending of JSON files.
Other spellings of an integer than the one that is written also count. -/
def idOfFile? (name : String) : Option Int :=
  (Text.stripSuffix? ['.', 'j', 's', 'o', 'n'] name.toList).bind Decimal.readInt64?

/-- The document of an identity; none if there is no file for it. -/
def read (files : Files) (id : Int) : Except StoreError (Option Document) :=
  match Keyed.get? (fileName id) files with
  | none => .ok none
  | some text =>
    match Document.ofText? text with
    | some doc => .ok (some doc)
    | none => .error .json

/-- The document of an identity, which has to be there. -/
def get (files : Files) (id : Int) : Except StoreError Document :=
  match read files id with
  | .ok (some doc) => .ok doc
  | .ok none => .error (.notFound id)
  | .error e => .error e

def write (files : Files) (doc : Document) : Files := Keyed.put (fileName doc.id) doc.toText files

/-- Adds a document whose identity is new. -/
def insert (files : Files) (doc : Document) : Except StoreError Files :=
  if Keyed.has (fileName doc.id) files then .error (.duplicateId doc.id) else .ok (write files doc)

def replace (files : Files) (doc : Document) : Except StoreError Files :=
  if Keyed.has (fileName doc.id) files then .ok (write files doc) else .error (.notFound doc.id)

def delete (files : Files) (id : Int) : Except StoreError Files :=
  if Keyed.has (fileName id) files then .ok (Keyed.erase (fileName id) files)
  else .error (.notFound id)

/-- The identities that the names of the files give, in ascending order. -/
def ids (files : Files) : List Int :=
  stableSort (fun a b => a < b) (files.filterMap fun file => idOfFile? file.1)

/-- The documents of identities; one without a document is passed over. -/
def readAll (files : Files) : List Int → Except StoreError (List Document)
  | [] => .ok []
  | id :: rest =>
    match read files id with
    | .error e => .error e
    | .ok found =>
      match readAll files rest with
      | .error e => .error e
      | .ok docs => .ok (found.toList ++ docs)

def all (files : Files) : Except StoreError (List Document) := readAll files (ids files)

end DualStore.Collection
