import DualStore.CommandLine.Run

/-!
# The program

The command line on the files of the system. Databases and document stores are opened as files and
directories.
-/

namespace DualStore.CommandLine

def readFile (path : String) : IO ReadOutcome := do
  try
    pure (.text (← IO.FS.readFile path))
  catch e =>
    match e with
    | .noFileOrDirectory _ _ _ => pure .missing
    | e => pure (.unreadable (toString e))

/-- Opens a database file; its directory is made if it is missing. -/
def openDatabaseFile (path : String) : IO (Except Sql.SqlError Unit) := do
  try
    let directory := Path.parent path
    if directory ≠ "" then IO.FS.createDirAll directory
    let _ ← IO.FS.Handle.mk path .append
    pure (.ok ())
  catch e => pure (.error (.connection (toString e)))

/-- Opens the directory of a document store, which is made if it is missing. -/
def openStoreDirectory (path : String) : IO (Except StoreError Unit) := do
  try
    if path ≠ "" then IO.FS.createDirAll path
    pure (.ok ())
  catch _ => pure (.error .io)

def pingFile (path : String) : IO (Except Sql.SqlError Unit) := do
  try
    let _ ← IO.FS.Handle.mk path .read
    pure (.ok ())
  catch e => pure (.error (.connection (toString e)))

/-- Whether a directory can be made or is there. -/
def pingDirectory (path : String) : IO (Except StoreError Unit) := do
  if path = "" then pure (.error .io) else openStoreDirectory path

def answer : (r : FileRequest) → IO r.Answer
  | .workingDirectory => do
    let directory ← IO.currentDir
    pure directory.toString
  | .clock => IO.monoMsNow
  | .read path => readFile path
  | .openDatabase path => openDatabaseFile path
  | .openStore path => openStoreDirectory path
  | .pingDatabase path => pingFile path
  | .pingStore path => pingDirectory path

end DualStore.CommandLine

def main (arguments : List String) : IO UInt32 := do
  let outcome ← (DualStore.CommandLine.run arguments).runIn DualStore.CommandLine.answer
  for line in outcome.output do
    IO.println line
  for line in outcome.errors do
    IO.eprintln line
  pure outcome.exit.toUInt32
