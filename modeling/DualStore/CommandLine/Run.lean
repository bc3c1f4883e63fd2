import DualStore.CommandLine.Arguments
import DualStore.Criteria.Outline
import DualStore.Decimal.Fixed
import DualStore.Sources

/-!
# Commands

What the commands do and print. Messages about what went wrong go to the error output, all else to
the output.

* `Outcome`: the lines of both outputs and the exit code;
* `paginate`, `check`: the commands;
* `run`: a whole run of the program.
-/

namespace DualStore.CommandLine

structure Outcome where
  exit : Nat := 0
  output : List String := []
  errors : List String := []
  deriving DecidableEq, Repr

def errorLine (message : String) : String := "✗ " ++ message

def failing (message : String) : Outcome := ⟨1, [], [errorLine message]⟩

def header (title : String) : List String :=
  ["", title, String.ofList (List.replicate title.length '─')]

def entryLine (key value : String) : String := "  " ++ key ++ ": " ++ value

def statementLine (sql : String) : String := "  " ++ sql

/-! ## Pages -/

def paginateOutput (format : Format) (dialect : String) (page : Page) (limited counted : String) :
    List String :=
  match format with
  | .json =>
    [(Json.obj [("dialect", .str dialect), ("pagination", page.toJson), ("limit_sql", .str limited),
      ("count_sql", .str counted)]).text]
  | .text =>
    header (dialect ++ " pagination")
      ++ [entryLine "page" (Decimal.intText page.number ++ " x " ++ Decimal.intText page.size
            ++ " (skip " ++ Decimal.intText page.skip ++ ")"),
          entryLine "limit" "", statementLine limited, entryLine "count" "", statementLine counted]

/-- Shows a select restricted to a page, and the select that counts its rows. -/
def paginate (format : Format) (dialect : String) (page : Page) (sql : String) : Outcome :=
  match Relational.Dialect.parse dialect with
  | .error e => failing e.message
  | .ok d =>
    match d.limit sql page, d.count sql with
    | .ok limited, .ok counted => ⟨0, paginateOutput format d.name page limited counted, []⟩
    | _, _ => failing ("dialect " ++ d.name ++ " does not support pagination")

/-! ## Checks -/

/-- The message of a failure followed by that of its cause, if it has one. -/
def causedMessage (e : Failure) : String :=
  match e with
  | .declaration cause => e.message ++ ": " ++ cause.message
  | .dialect cause => e.message ++ ": " ++ cause.message
  | .database cause => e.message ++ ": " ++ cause.message
  | .decode cause => e.message ++ ": " ++ cause.message
  | .document cause => e.message ++ ": " ++ cause.message
  | .cache cause => e.message ++ ": " ++ cause.message
  | .config cause => e.message ++ ": " ++ cause.message
  | _ => e.message

/-- The messages of the sources that do not answer. -/
def failures (report : List (String × Except Failure Unit)) : List String :=
  report.filterMap fun (name, r) =>
    match r with
    | .ok _ => none
    | .error e => some (name ++ ": " ++ e.message)

def sourceJson (entry : String × Except Failure Unit) : Json :=
  .obj [("source", .str entry.1), ("ok", .bool entry.2.isOk),
    ("error", match entry.2 with
      | .ok _ => .null
      | .error e => .str e.message)]

def checkOutput (format : Format) (path elapsed : String)
    (report : List (String × Except Failure Unit)) : List String :=
  match format with
  | .json =>
    [(Json.obj [("config", .str path), ("elapsed", .str elapsed),
      ("sources", .arr (report.map sourceJson))]).text]
  | .text =>
    header "Data sources" ++ [entryLine "config" path, entryLine "elapsed" elapsed]
      ++ (if report.isEmpty then ["⚠ no data sources configured"] else [])
      ++ (report.filter fun entry => entry.2.isOk).map fun entry => "✓ " ++ entry.1

/-- The outcome of a check. In the JSON output the sources that do not answer need no message of
their own. -/
def checkOutcome (format : Format) (path elapsed : String)
    (report : List (String × Except Failure Unit)) : Outcome :=
  let failed := failures report
  let output := checkOutput format path elapsed report
  if failed.isEmpty then ⟨0, output, []⟩
  else
    ⟨1, output, (if format = .text then failed.map errorLine else [])
      ++ [errorLine (Decimal.intText failed.length ++ " data source(s) failed")]⟩

/-- Opens all sources of a configuration and asks whether they answer. -/
def check (format : Format) (path : String) : FileWork Outcome := do
  match ← Config.load path with
  | .error e => pure (failing ("loading " ++ path ++ ": " ++ e.message))
  | .ok config => do
    match ← Sources.openAll config false with
    | .error e => pure (failing ("opening data sources: " ++ causedMessage e))
    | .ok sources => do
      let start ← askClock
      let report ← sources.ping
      let stop ← askClock
      pure (checkOutcome format path (Decimal.elapsedText (stop - start)) report)

/-! ## Runs -/

/-- The path of the configuration: the one that was given, or the usual file in the directory of the
project. -/
def configPath (project config : Option String) : FileWork String := do
  match config, project with
  | some path, _ => pure path
  | none, some directory => pure (Path.join directory Config.fileName)
  | none, none => do
    let directory ← askWorkingDirectory
    pure (Path.join directory Config.fileName)

def perform (i : Invocation) : FileWork Outcome :=
  match i.command with
  | .check config => do
    let path ← configPath i.project config
    check i.format path
  | .paginate dialect number size isOffset sql =>
    let page : Page := if isOffset then .byOffset number size else .byNumber number size
    pure (paginate i.format dialect page sql)

def versionLine : String := "jorm 0.3.0"

def usageLines : List String :=
  ["Relational and document persistence toolkit", "",
    "Usage: jorm [--project DIR] [--format text|json] check [--config FILE]",
    "       jorm [--project DIR] [--format text|json] paginate [--dialect NAME] [--page-no N]",
    "            [--page-size N] [--offset] SQL"]

def run (arguments : List String) : FileWork Outcome :=
  match Invocation.ofArguments arguments with
  | .ok i => perform i
  | .error .version => pure ⟨0, [versionLine], []⟩
  | .error .help => pure ⟨0, usageLines, []⟩
  | .error .usage => pure ⟨2, [], usageLines⟩

end DualStore.CommandLine
