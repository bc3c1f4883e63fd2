import DualStore.Relational.Answer
import DualStore.Sql.Change

/-!
# Servers

A server keeps the tables and runs statements for clients. A client without a transaction works on
the committed tables. A transaction works on the tables as they were at its first statement; it may
change them as long as nobody else does, and nobody else sees its changes before they are committed.

* `Server`, `Transaction`: the committed tables and the open transactions;
* `Server.view`: the tables that a client sees;
* `Server.begin`, `Server.commit`, `Server.rollback`: transactions;
* `Server.query`, `Server.execute`: statements of a client;
* `Server.seed`, `Server.dump`: rows put in, and all committed rows of a table.
-/

namespace DualStore.Sql

open Relational (RawRow RawRows Outcome)

/-- What a transaction sees: the tables, and the version that they come from. -/
structure Snapshot where
  tables : Database
  version : Nat

structure Transaction where
  snapshot : Option Snapshot := none
  isWriting : Bool := false
  hasChanges : Bool := false

/-- The committed tables, the number of commits that changed them, and the open transactions by
client. -/
structure Server where
  committed : Database
  version : Nat := 0
  transactions : List (String × Transaction) := []

namespace Server

def view (s : Server) (client : String) : Database :=
  match Keyed.get? client s.transactions with
  | some ⟨some snapshot, _, _⟩ => snapshot.tables
  | _ => s.committed

/-! ## Transactions -/

/-- Begins a transaction; it sees nothing before its first statement. -/
def begin (s : Server) (client : String) : Server :=
  { s with transactions := Keyed.put client {} s.transactions }

def noTransaction : SqlError := .transaction "no transaction is active"

/-- Ends the transaction of a client without its changes. -/
def rollback (s : Server) (client : String) : Except SqlError Unit × Server :=
  if Keyed.has client s.transactions then
    (.ok (), { s with transactions := Keyed.erase client s.transactions })
  else (.error noTransaction, s)

/-- Ends the transaction of a client; its changes are there for everyone. -/
def commit (s : Server) (client : String) : Except SqlError Unit × Server :=
  match Keyed.get? client s.transactions with
  | none => (.error noTransaction, s)
  | some t =>
    let s := { s with transactions := Keyed.erase client s.transactions }
    match t.snapshot with
    | some snapshot =>
      if t.hasChanges then
        (.ok (), { s with committed := snapshot.tables, version := s.version + 1 })
      else (.ok (), s)
    | none => (.ok (), s)

def snapshotOf (s : Server) (t : Transaction) : Snapshot := t.snapshot.getD ⟨s.committed, s.version⟩

/-- The transaction of a client, if it has one, keeps its snapshot from now on. -/
def hold (s : Server) (client : String) : Server :=
  match Keyed.get? client s.transactions with
  | none => s
  | some t =>
    let t := { t with snapshot := some (s.snapshotOf t) }
    { s with transactions := Keyed.put client t s.transactions }

/-- Whether someone else is changing the tables, or the tables have changed since the client
looked. -/
def isLockedFor (s : Server) (client : String) : Bool :=
  (s.transactions.any fun other => other.1 ≠ client && other.2.isWriting) ||
    match Keyed.get? client s.transactions with
    | some t => (s.snapshotOf t).version ≠ s.version
    | none => false

/-- The server after a client has changed the tables. -/
def write (s : Server) (client : String) (tables : Database) (touched : Nat) : Server :=
  match Keyed.get? client s.transactions with
  | none => if touched = 0 then s else { s with committed := tables, version := s.version + 1 }
  | some t =>
    let snapshot := { s.snapshotOf t with tables := tables }
    { s with
      transactions :=
        Keyed.put client ⟨some snapshot, true, t.hasChanges || touched ≠ 0⟩ s.transactions }

/-! ## Statements -/

def textRows (output : Output) : RawRows :=
  ⟨output.columns, output.rows.map (List.map Datum.columnText)⟩

def query (s : Server) (client sql : String) (parameters : List Value) :
    Except SqlError RawRows × Server :=
  match prepare sql parameters with
  | .error e => (.error e, s)
  | .ok (.select selection) =>
    match select (s.view client) selection with
    | .ok output => (.ok (textRows output), s.hold client)
    | .error (.interrupted reason) => (.error (.interrupted reason), s.hold client)
    | .error e => (.error e, s)
  | .ok _ => (.error (.query "statement returns no rows"), s)

/-- The error of a client that has to wait for someone else. -/
def locked : SqlError := .query "database is locked"

/-- Runs a statement that changes tables. One that fails changes nothing, but a transaction that has
come to change tables keeps others from it. -/
def execute (s : Server) (client sql : String) (parameters : List Value) :
    Except SqlError Outcome × Server :=
  match prepare sql parameters with
  | .error e => (.error e, s)
  | .ok command =>
    match Sql.execute (s.view client) command with
    | .ok done =>
      if s.isLockedFor client then (.error locked, s)
      else (.ok ⟨done.touched, done.key⟩, s.write client done.database done.touched)
    | .error (.interrupted reason) =>
      if s.isLockedFor client then (.error locked, s)
      else (.error (.interrupted reason), s.write client (s.view client) 0)
    | .error e => (.error e, s)

/-! ## Without a session -/

/-- The client that no session is. -/
def visitor : String := ""

/-- Puts rows into a table one after the other, and counts them. -/
def seed (s : Server) (sql : String) : List (List Value) → Except SqlError Nat × Server
  | [] => (.ok 0, s)
  | row :: rest =>
    match s.execute visitor sql row with
    | (.error e, s) => (.error e, s)
    | (.ok _, s) =>
      match s.seed sql rest with
      | (.ok n, s) => (.ok (n + 1), s)
      | (.error e, s) => (.error e, s)

/-- All committed rows of a table in the order of their keys. -/
def dump (s : Server) (table : String) : Except SqlError RawRows :=
  match s.query visitor ("SELECT * FROM " ++ table ++ " ORDER BY id") [] with
  | (result, _) => result

end Server

end DualStore.Sql
