import DualStore.Document.Basic
import DualStore.Plan.Basic
import DualStore.Sql.Error

/-!
# Files

What opening sources needs from the system that they live on: reading a file, opening a database or
a document store at a path, and asking whether they still answer.

* `FileRequest`, `FileRequest.Answer`: the requests and the types of their answers;
* `FileWork`: plans over them;
* `ReadOutcome`: what reading a file gives.
-/

namespace DualStore

inductive ReadOutcome where
  | missing
  | unreadable (reason : String)
  | text (s : String)
  deriving DecidableEq, Repr

/-- What opening sources needs. -/
inductive FileRequest where
  /-- The directory that relative paths start from. -/
  | workingDirectory
  /-- The time in milliseconds. -/
  | clock
  | read (path : String)
  | openDatabase (path : String)
  | openStore (path : String)
  | pingDatabase (path : String)
  | pingStore (path : String)
  deriving DecidableEq, Repr

def FileRequest.Answer : FileRequest → Type
  | .workingDirectory => String
  | .clock => Nat
  | .read _ => ReadOutcome
  | .openDatabase _ => Except Sql.SqlError Unit
  | .openStore _ => Except StoreError Unit
  | .pingDatabase _ => Except Sql.SqlError Unit
  | .pingStore _ => Except StoreError Unit

def fileRequests : Interface := ⟨FileRequest, FileRequest.Answer⟩

abbrev FileWork (α : Type) := Plan fileRequests α

def askWorkingDirectory : FileWork String := .ask .workingDirectory .done

def askClock : FileWork Nat := .ask .clock .done

def askRead (path : String) : FileWork ReadOutcome := .ask (.read path) .done

def askOpenDatabase (path : String) : FileWork (Except Sql.SqlError Unit) :=
  .ask (.openDatabase path) .done

def askOpenStore (path : String) : FileWork (Except StoreError Unit) := .ask (.openStore path) .done

def askPingDatabase (path : String) : FileWork (Except Sql.SqlError Unit) :=
  .ask (.pingDatabase path) .done

def askPingStore (path : String) : FileWork (Except StoreError Unit) := .ask (.pingStore path) .done

end DualStore
