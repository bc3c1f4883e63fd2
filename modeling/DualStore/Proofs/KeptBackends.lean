import DualStore.Backend
import DualStore.Proofs.TableRows

/-!
# Backends keep rows

A backend answers each statement by its text and its parameters: the server reads the text, looks up
its names in the tables and changes the rows. In a backend whose tables have keys, this keeps and
updates the rows of an entity type whose columns a table has, inside and outside of transactions.
Whatever is asked of such a backend, its tables go on to have keys.

* `Server.IsKept`, `isKept_query`, `isKept_execute`, …: requests leave the tables with keys;
* `KeptBackend`, `KeptBackend.answer`, `KeptBackend.ofTable`: such backends and their answers;
* `KeptBackend.row`: the rows of an entity type that a client sees;
* `keepsRows_backend`, `updatesRows_backend`: the main statements.
-/

namespace DualStore.Sql

open Relational

/-! ## Servers -/

/-- A server that has tables of these shapes with keys, committed and in every transaction. -/
structure Server.IsKept (shapes : List TableDef) (s : Server) : Prop where
  committed : Database.IsKept shapes s.committed
  transactions : ∀ entry ∈ s.transactions, ∀ snapshot, entry.2.snapshot = some snapshot →
    Database.IsKept shapes snapshot.tables

namespace Server

variable {shapes : List TableDef} {s : Server} {client : String}

theorem mem_of_mem_put {α : Type} {key : String} {value : α} {entries : List (String × α)}
    {entry : String × α} (h : entry ∈ Keyed.put key value entries) :
    entry = (key, value) ∨ entry ∈ entries := by
  induction entries with
  | nil => exact .inl (List.mem_singleton.mp h)
  | cons first rest ih =>
    obtain ⟨k, v⟩ := first
    rw [Keyed.put] at h
    split at h
    · rcases List.mem_cons.mp h with rfl | hrest
      · exact .inl rfl
      · exact .inr (List.mem_cons_of_mem _ hrest)
    · rcases List.mem_cons.mp h with rfl | hrest
      · exact .inr List.mem_cons_self
      · exact (ih hrest).imp_right (List.mem_cons_of_mem _)

/-- A transaction that is put to the others may have a snapshot with keys. -/
theorem IsKept.put (h : s.IsKept shapes) {t : Transaction} (ht : ∀ snapshot,
      t.snapshot = some snapshot → Database.IsKept shapes snapshot.tables) :
    Server.IsKept shapes { s with transactions := Keyed.put client t s.transactions } := by
  refine ⟨h.committed, fun entry hentry snapshot hsnapshot => ?_⟩
  rcases mem_of_mem_put hentry with rfl | hmem
  · exact ht snapshot hsnapshot
  · exact h.transactions entry hmem snapshot hsnapshot

/-- A transaction that ends leaves the others. -/
theorem IsKept.erase (h : s.IsKept shapes) {committed : Database}
    (hcommitted : Database.IsKept shapes committed) (version : Nat) :
    Server.IsKept shapes ⟨committed, version, Keyed.erase client s.transactions⟩ :=
  ⟨hcommitted, fun entry hentry => h.transactions entry ((Keyed.erase_sublist _ _).subset hentry)⟩

/-- The tables of a transaction, those of its snapshot or the committed ones. -/
theorem IsKept.snapshotOf (h : s.IsKept shapes) {t : Transaction}
    (ht : Keyed.get? client s.transactions = some t) :
    Database.IsKept shapes (s.snapshotOf t).tables := by
  rw [Server.snapshotOf]
  cases hsnapshot : t.snapshot with
  | none => exact h.committed
  | some snapshot => exact h.transactions _ (Keyed.mem_of_get? ht) snapshot hsnapshot

theorem IsKept.view (h : s.IsKept shapes) (client : String) :
    Database.IsKept shapes (s.view client) := by
  unfold Server.view
  split
  · next ht => exact h.transactions _ (Keyed.mem_of_get? ht) _ rfl
  · exact h.committed

theorem isKept_begin (h : s.IsKept shapes) (client : String) : (s.begin client).IsKept shapes :=
  h.put fun _ hnone => nomatch hnone

theorem isKept_rollback (h : s.IsKept shapes) (client : String) :
    (s.rollback client).2.IsKept shapes := by
  unfold Server.rollback
  split
  · exact h.erase h.committed s.version
  · exact h

theorem isKept_commit (h : s.IsKept shapes) (client : String) :
    (s.commit client).2.IsKept shapes := by
  unfold Server.commit
  split
  · exact h
  · next t ht =>
    dsimp only
    split
    · next snapshot hsnapshot =>
      split
      · exact h.erase (h.transactions _ (Keyed.mem_of_get? ht) snapshot hsnapshot) _
      · exact h.erase h.committed s.version
    · exact h.erase h.committed s.version

theorem isKept_hold (h : s.IsKept shapes) (client : String) : (s.hold client).IsKept shapes := by
  unfold Server.hold
  split
  · exact h
  · next t ht =>
    refine h.put fun snapshot hsnapshot => ?_
    rw [← Option.some.inj hsnapshot]
    exact h.snapshotOf ht

theorem isKept_write (h : s.IsKept shapes) (client : String) {tables : Database}
    (htables : Database.IsKept shapes tables) (touched : Nat) :
    (s.write client tables touched).IsKept shapes := by
  unfold Server.write
  split
  · split
    · exact h
    · exact ⟨htables, h.transactions⟩
  · next t ht =>
    refine h.put fun snapshot hsnapshot => ?_
    rw [← Option.some.inj hsnapshot]
    exact htables

theorem isKept_query (h : s.IsKept shapes) (client sql : String) (parameters : List Value) :
    (s.query client sql parameters).2.IsKept shapes := by
  unfold Server.query
  split
  · exact h
  · split
    · exact isKept_hold h client
    · exact isKept_hold h client
    · exact h
  · exact h

theorem isKept_execute (h : s.IsKept shapes) (client sql : String) (parameters : List Value) :
    (s.execute client sql parameters).2.IsKept shapes := by
  unfold Server.execute
  split
  · exact h
  · split
    · next done hdone =>
      split
      · exact h
      · exact isKept_write h client (Sql.isKept_execute (h.view client) hdone) done.touched
    · split
      · exact h
      · exact isKept_write h client (h.view client) 0
    · exact h

/-- What a client has done by a statement that changes tables. -/
theorem execute_eq_ok {sql : String} {parameters : List Value} {outcome : Outcome} {after : Server}
    (h : s.execute client sql parameters = (.ok outcome, after)) :
    ∃ command done, prepare sql parameters = .ok command ∧
      Sql.execute (s.view client) command = .ok done ∧ outcome = ⟨done.touched, done.key⟩ ∧
      after = s.write client done.database done.touched := by
  unfold Server.execute at h
  split at h
  · cases (Prod.mk.inj h).1
  · next command hcommand =>
    split at h
    · next done hdone =>
      split at h
      · cases (Prod.mk.inj h).1
      · obtain ⟨houtcome, rfl⟩ := Prod.mk.inj h
        exact ⟨command, done, hcommand, hdone, (Except.ok.inj houtcome).symm, rfl⟩
    · split at h <;> cases (Prod.mk.inj h).1
    · cases (Prod.mk.inj h).1

/-- The client sees the tables that it has written, unless it is outside of a transaction and has
touched no row. -/
theorem view_write (s : Server) (client : String) (tables : Database) (touched : Nat) :
    (s.write client tables touched).view client = tables ∨
      touched = 0 ∧ (s.write client tables touched).view client = s.view client := by
  unfold Server.write
  cases ht : Keyed.get? client s.transactions with
  | none =>
    by_cases hzero : touched = 0
    · exact .inr ⟨hzero, by simp only [if_pos hzero]⟩
    · left
      simp only [if_neg hzero, Server.view, ht]
  | some t =>
    left
    simp only [Server.view, Keyed.get?_put_self]

end Server

end DualStore.Sql

namespace DualStore.Relational

open Model Sql

/-! ## Backends -/

theorem eq_ok_of_toOption {ε α : Type} {x : Except ε α} {a : α} (h : x.toOption = some a) :
    x = .ok a := by
  cases x with
  | error e => cases h
  | ok b => rw [Option.some.inj h]

/-- A server with these tables, before any transaction. -/
theorem isKept_committed {shapes : List TableDef} {db : Database} (h : Database.IsKept shapes db) :
    Server.IsKept shapes { committed := db } :=
  ⟨h, fun _ hmem => absurd hmem List.not_mem_nil⟩

/-- Backends that have tables of these shapes with keys. -/
def KeptBackend (shapes : List TableDef) : Type := { b : Backend // b.server.IsKept shapes }

namespace KeptBackend

variable {shapes : List TableDef}

/-- Whatever is asked of a backend, its tables go on to have keys. -/
theorem isKept_answer (client : String) (r : Request) (b : KeptBackend shapes) :
    (Backend.answer client r b.1).2.server.IsKept shapes := by
  cases r with
  | openDocuments | documents _ | identity _ => exact b.2
  | cacheGet _ | cachePut _ _ _ =>
    rw [Backend.answer]
    split <;> exact b.2
  | query q => exact Server.isKept_query b.2 client q.text q.parameters
  | change c => exact Server.isKept_execute b.2 client c.text c.parameters
  | begin => exact Server.isKept_begin b.2 client
  | commit => exact Server.isKept_commit b.2 client
  | rollback => exact Server.isKept_rollback b.2 client

/-- The answer to a request of a client, and the backend after it. -/
def answer (client : String) (r : Request) (b : KeptBackend shapes) :
    r.Answer × KeptBackend shapes :=
  ((Backend.answer client r b.1).1, ⟨(Backend.answer client r b.1).2, isKept_answer client r b⟩)

/-- A backend with one table, before anything was asked of it. -/
def ofTable (t : Table) (h : t.IsKeyed) : KeptBackend [t.shape] where
  val := { supply := ⟨[], ⟨0, []⟩⟩, server := { committed := [t] }, now := 0 }
  property :=
    isKept_committed ⟨List.nodup_singleton _, rfl, fun _ hmem => List.mem_singleton.mp hmem ▸ h⟩

/-- The row of a key in the table of an entity type, as a client sees it. -/
def row (client : String) (m : EntityMeta) (b : KeptBackend shapes) (key : Int) :
    Option (String → Option String) :=
  match findTable (b.1.server.view client) m.table with
  | .ok t => textsAt m t key
  | .error _ => none

end KeptBackend

/-- An entity type whose columns one of the tables has. -/
def HasTable (m : EntityMeta) (shapes : List TableDef) : Prop :=
  ∃ shape, shapes.find? (fun shape => foldCase shape.name = foldCase m.table) = some shape ∧
    HasColumns m shape

section Backends

variable {shapes : List TableDef} {m : EntityMeta} {client : String}

/-- The table of an entity type is found. -/
theorem HasTable.exists_table (h : HasTable m shapes) {db : Database}
    (hdb : Database.IsKept shapes db) : ∃ t, findTable db m.table = .ok t ∧ t.IsKeyed ∧
      HasColumns m t.shape := by
  obtain ⟨shape, hfind, hshape⟩ := h
  rw [← hdb.shapes, List.find?_map] at hfind
  obtain ⟨t, ht, rfl⟩ := Option.map_eq_some_iff.mp hfind
  refine ⟨t, ?_, hdb.tables t (List.mem_of_find?_eq_some ht), hshape⟩
  rw [findTable]
  simp only [Function.comp_def] at ht
  rw [ht]

theorem KeptBackend.row_eq {b : KeptBackend shapes} {t : Table}
    (ht : findTable (b.1.server.view client) m.table = .ok t) :
    b.row client m = textsAt m t := by
  funext key
  rw [KeptBackend.row, ht]

/-- **A backend finds rows** by the texts of statements. -/
theorem findsRows_backend (h : HasTable m shapes) (client : String) :
    FindsRows (@KeptBackend.answer shapes client) m (KeptBackend.row client m) where
  found q columns id b hne hdeclared htext hparameters := by
    obtain ⟨t, ht, hkeyed, hcolumns⟩ := h.exists_table (b.2.view client)
    obtain ⟨names, hquery⟩ := query_selectForm hcolumns ht rfl hkeyed hne hdeclared id
    refine ⟨names, _, Prod.ext ?_ rfl⟩
    rw [KeptBackend.row_eq ht, ← hquery, ← htext, ← hparameters]
    rfl

/-- What a backend has done by a statement that is read as a change of the table of an entity
type. -/
theorem KeptBackend.change_ok (h : HasTable m shapes) {c : Change} {command : Command}
    {change : Table → Except SqlError Changed}
    (hcommand : prepare c.text c.parameters = .ok command)
    (hchange : ∀ db, Sql.execute db command = changeTable db m.table change)
    (hkeeps : ∀ t changed, t.IsKeyed → change t = .ok changed → changed.OfKeyed t)
    {b after : KeptBackend shapes} {outcome : Outcome}
    (hanswer : KeptBackend.answer client (.change c) b
      = ((.ok outcome : Except SqlError Outcome), after)) :
    ∃ t changed, t.IsKeyed ∧ HasColumns m t.shape ∧ change t = .ok changed ∧
      outcome = ⟨changed.touched, changed.key⟩ ∧ b.row client m = textsAt m t ∧
      (after.row client m = textsAt m changed.table ∨
        changed.touched = 0 ∧ after.row client m = b.row client m) := by
  obtain ⟨t, ht, hkeyed, hcolumns⟩ := h.exists_table (b.2.view client)
  have hserver : b.1.server.execute client c.text c.parameters = (.ok outcome, after.1.server) := by
    obtain ⟨hresult, hafter⟩ := Prod.mk.inj hanswer
    refine Prod.ext hresult ?_
    rw [← hafter]
    rfl
  obtain ⟨read, done, hread, hdone, rfl, hwrite⟩ := Server.execute_eq_ok hserver
  obtain rfl : command = read := Except.ok.inj (hcommand.symm.trans hread)
  rw [hchange] at hdone
  obtain ⟨found, changed, hfound, hchanged, rfl⟩ := changeTable_ok hdone
  obtain rfl : t = found := Except.ok.inj (ht.symm.trans hfound)
  refine ⟨t, changed, hkeyed, hcolumns, hchanged, rfl, KeptBackend.row_eq ht, ?_⟩
  rcases Server.view_write b.1.server client (putTable changed.table (b.1.server.view client))
    changed.touched with hview | ⟨hzero, hview⟩
  · left
    have hput := findTable_putTable ht (hkeeps t changed hkeyed hchanged).shape
    rw [← hview, ← hwrite] at hput
    exact KeptBackend.row_eq hput
  · right
    refine ⟨hzero, ?_⟩
    rw [← hwrite] at hview
    funext key
    rw [KeptBackend.row, KeptBackend.row, hview]

/-- **A backend keeps rows** that are inserted by the texts of statements. -/
theorem keepsRows_backend (h : HasTable m shapes) (client : String) :
    KeepsRows (@KeptBackend.answer shapes client) m (KeptBackend.row client m) where
  toFindsRows := findsRows_backend h client
  inserted c columns b after outcome htext hvalues hanswer htouched := by
    obtain ⟨shape, hfind, hshape⟩ := h
    obtain ⟨hkeys, hparameters, -, -⟩ := hvalues.entries
    have hcommand := prepare_insertForm hshape hvalues
    rw [← htext] at hcommand
    obtain ⟨t, changed, hkeyed, hcolumns, hchanged, rfl, hbefore, hafter⟩ :=
      KeptBackend.change_ok ⟨shape, hfind, hshape⟩ hcommand (fun _ => rfl)
        (fun _ _ ht hc => ofKeyed_insert ht hc) hanswer
    have hentries : GoesWith m (Keyed.keys (columns.zip c.parameters))
        ((columns.zip c.parameters).map Prod.snd) := by
      rwa [hkeys, hparameters]
    obtain ⟨key, hkey, hfree, hnew, hothers, hgiven⟩ :=
      inserted_texts hcolumns hkeyed hentries (by rwa [hkeys, hparameters]) htouched
    rcases hafter with hafter | ⟨hzero, -⟩
    · rw [hbefore, hafter]
      refine ⟨key, hfree, hnew, hothers, hgiven, fun _ reported hreported _ => ?_⟩
      exact Option.some.inj (hkey.symm.trans hreported)
    · exact absurd hzero htouched
  identity _ _ := rfl

/-- **A backend updates rows** by the texts of statements. -/
theorem updatesRows_backend (h : HasTable m shapes) (client : String) :
    UpdatesRows (@KeptBackend.answer shapes client) m (KeptBackend.row client m) where
  toFindsRows := findsRows_backend h client
  updated c columns values id b after outcome htext hparameters hvalues hid hanswer := by
    obtain ⟨shape, hfind, hshape⟩ := h
    obtain ⟨hkeys, hvalue, -, -⟩ := hvalues.entries
    have hcommand := prepare_updateForm hshape hvalues id
    rw [← htext, ← hparameters] at hcommand
    obtain ⟨t, changed, hkeyed, hcolumns, hchanged, rfl, hbefore, hafter⟩ :=
      KeptBackend.change_ok ⟨shape, hfind, hshape⟩ hcommand (fun _ => rfl)
        (fun _ _ ht hc => ofKeyed_update ht hc) hanswer
    have hupdated := updated_texts hcolumns hkeyed (by rwa [hkeys, hvalue]) (by rwa [hkeys])
      hchanged
    rcases hafter with hafter | ⟨hzero, hafter⟩
    · rw [hbefore, hafter]
      exact hupdated
    · rw [hafter, hbefore]
      rwa [update_untouched hchanged hzero] at hupdated
  keyed b key text htext := by
    obtain ⟨t, ht, hkeyed, hcolumns⟩ := h.exists_table (b.2.view client)
    rw [KeptBackend.row_eq ht] at htext
    exact textsAt_id hcolumns hkeyed htext

end Backends

end DualStore.Relational
