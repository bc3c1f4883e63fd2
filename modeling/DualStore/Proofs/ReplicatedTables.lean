import DualStore.Proofs.RowKeys
import DualStore.Proofs.SessionRuns

/-!
# Replicated tables

A session saves and updates entities of replicated types, and at its end writes their documents. The
collection gets the identities of all entities that a succeeded call has written. The table gets
those of the saved ones, and the rows that a save inserted before it failed, unless the transaction
is rolled back. So an update of a row that is not there adds a document without a row, and outside a
transaction a save that fails may leave rows without documents. Updates that overwrite the column of
the key are left out: they move rows away from their documents.

* `Operation.Respects`: calls that save or update entities of replicated types, and overwrite no
  keys;
* `CallRun`, `UnitOfWork.trace`: the calls of a run with the states around them;
* `savedIds`, `updatedIds`, `leftRows`: the identities that a run writes, and the rows it leaves;
* `perform_keys`, `trace_keys`: the keys behind one call, and behind a run of calls;
* `mem_ids_queue`, `goesTo_toReplicate`: the identities that wait for the end;
* `replicated_tables`: the main statement.
-/

namespace DualStore

open Model

/-- Whether a type does not disturb the replication of a table: it is replicated if it goes to this
table. -/
def Model.EntityMeta.Respects (table : String) (m : EntityMeta) : Prop :=
  (m.table = table ∧ m.replicated = true) ∨ Sql.foldCase m.table ≠ Sql.foldCase table

/-- Whether no column of a field is that of the key, if the type goes to a table. -/
def Model.EntityMeta.SparesKeys (table : String) (m : EntityMeta) : Prop :=
  m.table = table →
    ∀ field ∈ m.fields, Sql.foldCase field.name ≠ Sql.foldCase Relational.idColumn

namespace Relational

/-! ## Calls that write -/

/-- Whether a call saves or updates entities of a type that does not disturb the replication of a
table, and overwrites no key of its rows. -/
def Operation.Respects (table : String) : Operation → Prop
  | .save t _ => ∀ m, t.checked = .ok m → m.Respects table
  | .update t _ => ∀ m, t.checked = .ok m → m.Respects table ∧ m.SparesKeys table
  | _ => False

/-- Whether a call saves or updates entities of a replicated type that goes to a table. -/
def Operation.Replicates (table : String) : Operation → Prop
  | .save t _ => ∃ m, t.checked = .ok m ∧ m.table = table ∧ m.replicated = true
  | .update t _ => ∃ m, t.checked = .ok m ∧ m.table = table ∧ m.replicated = true
  | _ => False

def Operation.isSave : Operation → Bool
  | .save _ _ => true
  | _ => false

/-- Whether an entity goes to a table under an identity. -/
def GoesTo (table : String) (id : Int) (written : EntityType × Json) : Prop :=
  ∃ m, written.1.checked = .ok m ∧ m.table = table ∧ written.1.identityOf written.2 = id

/-- The identities of the entities that a call has written to a table. -/
def Report.identities (table : String) (report : Report) : Set Int :=
  {id | ∃ written ∈ report.written, GoesTo table id written}

/-- A call in a run, with the states around it. -/
structure CallRun (σ : Type) where
  operation : Operation
  before : σ
  report : Report
  after : σ

/-- The calls of a run. -/
def UnitOfWork.trace {σ : Type} (answer : (r : Request) → σ → r.Answer × σ) (u : UnitOfWork) :
    List Operation → σ → List (CallRun σ)
  | [], _ => []
  | op :: rest, s =>
    let done := Work.runWith answer (u.perform op) s
    ⟨op, s, done.1.1, done.2⟩ :: UnitOfWork.trace answer done.1.2 rest done.2

namespace CallRun

variable {σ : Type}

/-- The identities of the entities that a call has saved in a table. -/
def saved (table : String) (c : CallRun σ) : Set Int :=
  {id | c.operation.isSave = true ∧ id ∈ c.report.identities table}

/-- The identities of the entities that a call has updated in a table. -/
def updated (table : String) (c : CallRun σ) : Set Int :=
  {id | c.operation.isSave = false ∧ id ∈ c.report.identities table}

/-- The keys that a save has added before it failed. -/
def left (keys : σ → Set Int) (c : CallRun σ) : Set Int :=
  {id | c.operation.isSave = true ∧ c.report.failure ≠ none ∧ id ∈ keys c.after \ keys c.before}

end CallRun

section

variable {σ : Type}

/-- The identities of the entities that calls have saved in a table. -/
def savedIds (table : String) (calls : List (CallRun σ)) : Set Int :=
  {id | ∃ c ∈ calls, id ∈ c.saved table}

/-- The identities of the entities that calls have updated in a table. -/
def updatedIds (table : String) (calls : List (CallRun σ)) : Set Int :=
  {id | ∃ c ∈ calls, id ∈ c.updated table}

/-- The keys that saves have added before they failed. -/
def leftRows (keys : σ → Set Int) (calls : List (CallRun σ)) : Set Int :=
  {id | ∃ c ∈ calls, id ∈ c.left keys}

theorem savedIds_cons (table : String) (c : CallRun σ) (rest : List (CallRun σ)) :
    savedIds table (c :: rest) = c.saved table ∪ savedIds table rest := by
  ext id
  simp [savedIds]

theorem leftRows_cons (keys : σ → Set Int) (c : CallRun σ) (rest : List (CallRun σ)) :
    leftRows keys (c :: rest) = c.left keys ∪ leftRows keys rest := by
  ext id
  simp [leftRows]

/-- The entities that calls have written are those that they have saved or updated. -/
theorem mem_savedIds_or_updatedIds {table : String} {calls : List (CallRun σ)} {id : Int} :
    id ∈ savedIds table calls ∪ updatedIds table calls
      ↔ ∃ c ∈ calls, id ∈ c.report.identities table := by
  constructor
  · rintro (⟨c, hc, -, hid⟩ | ⟨c, hc, -, hid⟩) <;> exact ⟨c, hc, hid⟩
  · rintro ⟨c, hc, hid⟩
    cases hsave : c.operation.isSave with
    | true => exact .inl ⟨c, hc, hsave, hid⟩
    | false => exact .inr ⟨c, hc, hsave, hid⟩

end

theorem Report.identities_failed (table : String) (written : List (EntityType × Json))
    (e : Failure) :
    (Report.of written (.error e : Except Failure Unit)).identities table = ∅ := by
  ext id
  simp [identities, Report.of]

theorem Report.identities_apart {table : String} {t : EntityType} (entities : List Json)
    (h : ∀ m, t.checked = .ok m → m.table ≠ table) (result : Except Failure Unit) :
    (Report.of (entities.map (t, ·)) result).identities table = ∅ := by
  cases result with
  | error e => exact identities_failed table _ e
  | ok _ =>
    refine Set.eq_empty_iff_forall_notMem.mpr ?_
    rintro id ⟨written, hwritten, m, hm, htable, -⟩
    obtain ⟨entity, -, rfl⟩ := List.mem_map.mp hwritten
    exact h m hm htable

theorem Report.identities_written {t : EntityType} {m : EntityMeta} (h : t.checked = .ok m)
    (entities : List Json) :
    (Report.of (entities.map (t, ·)) (.ok () : Except Failure Unit)).identities m.table
      = {id | id ∈ entities.map t.identityOf} := by
  ext id
  simp [identities, Report.of, GoesTo, h]

namespace UnitOfWork

variable {σ : Type} {answer : (r : Request) → σ → r.Answer × σ} {u used : UnitOfWork}
  {table : String} {keys : σ → Set Int} {earlier : σ → Option (Set Int)} {s after : σ}

/-! ## Keys behind calls -/

/-- A call that leaves the keys as they are has saved nothing and left no rows. -/
theorem keys_of_eq {c : CallRun σ} (h : keys c.after = keys c.before)
    (hnone : c.operation.isSave = true → c.report.identities table = ∅) :
    keys c.after = keys c.before ∪ c.saved table ∪ c.left keys := by
  have hsaved : c.saved table = ∅ := by
    refine Set.eq_empty_iff_forall_notMem.mpr ?_
    rintro id ⟨hsave, hid⟩
    rw [hnone hsave] at hid
    exact hid
  have hleft : c.left keys = ∅ := by
    refine Set.eq_empty_iff_forall_notMem.mpr ?_
    rintro id ⟨-, -, hid⟩
    exact hid.2 (h ▸ hid.1)
  rw [hsaved, hleft, Set.union_empty, Set.union_empty, h]

/-- A save that fails has written nothing, and all the keys that it has added are left. -/
theorem keys_of_failed {c : CallRun σ} (hsave : c.operation.isSave = true)
    (hfailed : c.report.failure ≠ none) (hnone : c.report.identities table = ∅)
    (hkept : keys c.before ⊆ keys c.after) :
    keys c.after = keys c.before ∪ c.saved table ∪ c.left keys := by
  have hsaved : c.saved table = ∅ := by
    refine Set.eq_empty_iff_forall_notMem.mpr ?_
    rintro id ⟨-, hid⟩
    rw [hnone] at hid
    exact hid
  have hleft : c.left keys = keys c.after \ keys c.before :=
    Set.ext fun id => ⟨fun hid => hid.2.2, fun hid => ⟨hsave, hfailed, hid⟩⟩
  rw [hsaved, hleft, Set.union_empty, Set.union_sdiff_cancel hkept]

/-- A save that succeeds has left no rows. -/
theorem keys_of_saved {c : CallRun σ} (hsave : c.operation.isSave = true)
    (hsucceeded : c.report.failure = none)
    (h : keys c.after = keys c.before ∪ c.report.identities table) :
    keys c.after = keys c.before ∪ c.saved table ∪ c.left keys := by
  have hsaved : c.saved table = c.report.identities table :=
    Set.ext fun id => ⟨fun hid => hid.2, fun hid => ⟨hsave, hid⟩⟩
  have hleft : c.left keys = ∅ :=
    Set.eq_empty_iff_forall_notMem.mpr fun id hid => hid.2.1 hsucceeded
  rw [hsaved, hleft, Set.union_empty, h]

/-- A save whose type goes to another table leaves the keys as they are. -/
theorem save_apart (rows : KeepsKeys answer table keys earlier) {t : EntityType}
    (h : ∀ m, t.checked = .ok m → Sql.foldCase m.table ≠ Sql.foldCase table)
    (entities : List Json) (s : σ) :
    keys (Work.runWith answer (u.save t entities) s).2 = keys s := by
  refine (asks_save u entities (fun node => rows.drawn node) fun m _ row hm _ => ?_).view_eq keys s
  exact fun s => rows.apart (.insert m.table row) s (h m hm)

/-- An update leaves the keys as they are. -/
theorem update_keys (rows : KeepsKeys answer table keys earlier) {t : EntityType}
    (h : ∀ m, t.checked = .ok m → m.Respects table ∧ m.SparesKeys table) (entities : List Json)
    (s : σ) : keys (Work.runWith answer (u.update t entities) s).2 = keys s := by
  refine (asks_update u entities fun m body values id hm hvalues => ?_).view_eq keys s
  obtain ⟨hrespects, hspares⟩ := h m hm
  obtain ⟨rfl, -⟩ | hne := hrespects
  · refine fun s => rows.updated values id s fun column hcolumn => ?_
    obtain ⟨field, hfield, rfl⟩ := exists_field_of_column hvalues hcolumn
    exact hspares rfl field hfield
  · exact fun s => rows.apart (.update m.table values id) s hne

/-- **One call**: the keys are those from before, those of the entities that it has saved, and those
that it has added before it failed. -/
theorem perform_keys (rows : KeepsKeys answer table keys earlier) {c : CallRun σ}
    (hop : c.operation.Respects table)
    (h : Work.runWith answer (u.perform c.operation) c.before = ((c.report, used), c.after))
    (identified : 0 ∉ c.saved table) :
    keys c.after = keys c.before ∪ c.saved table ∪ c.left keys := by
  obtain ⟨op, s, report, after⟩ := c
  cases op with
  | save t entities =>
    rw [perform, Work.runWith_bind] at h
    cases hsave : Work.runWith answer (u.save t entities) s with
    | mk done between =>
      obtain ⟨⟨result, saved⟩, behind⟩ := done
      rw [hsave] at h
      obtain ⟨heq, hafter⟩ := Prod.mk.inj h
      obtain ⟨hreport, -⟩ := Prod.mk.inj heq
      subst hafter hreport
      by_cases hown : ∃ m, t.checked = .ok m ∧ m.table = table
      · obtain ⟨m, hm, rfl⟩ := hown
        obtain ⟨hkept, hall⟩ := save_keys rows hm hsave
        cases result with
        | error e =>
          exact keys_of_failed rfl (Option.some_ne_none e)
            (Report.identities_failed _ (saved.map (t, ·)) e) hkept
        | ok _ =>
          have hwritten := Report.identities_written hm saved
          refine keys_of_saved rfl rfl ((hall rfl fun entity hentity hzero => ?_).trans
            (congrArg _ hwritten.symm))
          refine identified ⟨rfl, ?_⟩
          rw [← hzero]
          exact hwritten.symm ▸ List.mem_map_of_mem hentity
      · have hapart : ∀ m, t.checked = .ok m → Sql.foldCase m.table ≠ Sql.foldCase table :=
          fun m hm => (hop m hm).resolve_left fun hsame => hown ⟨m, hm, hsame.1⟩
        have hkeys := save_apart (u := u) rows hapart entities s
        rw [hsave] at hkeys
        exact keys_of_eq hkeys fun _ => Report.identities_apart saved
          (fun m hm htable => hown ⟨m, hm, htable⟩) result
  | update t entities =>
    have hkeys := update_keys (u := u) rows hop entities s
    rw [perform, Work.runWith_bind] at h
    have hafter : (Work.runWith answer (u.update t entities) s).2 = after := (Prod.mk.inj h).2
    rw [hafter] at hkeys
    exact keys_of_eq hkeys fun hsave => Bool.noConfusion hsave
  | _ => exact hop.elim

/-- **A run of calls**, by induction on the calls. -/
theorem trace_keys (rows : KeepsKeys answer table keys earlier) {ops : List Operation}
    (hops : ∀ op ∈ ops, op.Respects table) {reports : List Report}
    (h : Work.runWith answer (u.performAll ops) s = ((reports, used), after))
    (identified : 0 ∉ savedIds table (u.trace answer ops s)) :
    keys after = keys s ∪ savedIds table (u.trace answer ops s)
      ∪ leftRows keys (u.trace answer ops s) := by
  induction ops generalizing u s reports with
  | nil =>
    obtain ⟨-, rfl⟩ := Prod.mk.inj h
    simp [trace, savedIds, leftRows]
  | cons op rest ih =>
    obtain ⟨hop, hrest⟩ := List.forall_mem_cons.mp hops
    rw [performAll, Work.runWith_bind] at h
    rw [trace, savedIds_cons, Set.mem_union, not_or] at identified
    rw [trace, savedIds_cons, leftRows_cons]
    have hfirst := perform_keys (c := ⟨op, s, _, _⟩) rows hop (Prod.ext rfl rfl) identified.1
    simp only [Work.runWith_bind] at h
    obtain ⟨heq, hend⟩ := Prod.mk.inj h
    obtain ⟨-, hused⟩ := Prod.mk.inj heq
    have hothers := ih hrest (Prod.ext (Prod.ext rfl hused) hend) identified.2
    rw [hothers, hfirst]
    ext id
    simp only [Set.mem_union]
    tauto

/-! ## Identities that wait for the end -/

theorem map_report_trace (answer : (r : Request) → σ → r.Answer × σ) (u : UnitOfWork)
    (ops : List Operation) (s : σ) :
    (u.trace answer ops s).map CallRun.report
      = (Work.runWith answer (u.performAll ops) s).1.1 := by
  induction ops generalizing u s with
  | nil => rfl
  | cons op rest ih =>
    rw [performAll, Work.runWith_bind, trace, List.map_cons, ih]
    simp only [Work.runWith_bind]
    rfl

theorem Report.mem_written_of {α : Type} {written : List (EntityType × Json)}
    {result : Except Failure α} {w : EntityType × Json}
    (h : w ∈ (Report.of written result).written) : w ∈ written := by
  cases result with
  | error e => exact absurd h List.not_mem_nil
  | ok _ => exact h

/-- The types of what a call has written do not disturb the replication of the table. -/
theorem respects_perform (u : UnitOfWork) {op : Operation} (hop : op.Respects table) :
    Work.Gives (fun done => ∀ w ∈ done.1.written, ∀ m, w.1.checked = .ok m → m.Respects table)
      (u.perform op) := by
  have hmapped : ∀ {t : EntityType} {entities : List Json} {result : Except Failure Unit},
      (∀ m, t.checked = .ok m → m.Respects table) →
      ∀ w ∈ (Report.of (entities.map (t, ·)) result).written,
        ∀ m, w.1.checked = .ok m → m.Respects table := by
    intro t entities result ht w hw
    obtain ⟨entity, -, rfl⟩ := List.mem_map.mp (Report.mem_written_of hw)
    exact ht
  cases op with
  | save t entities => exact (Work.Gives.any _).bind fun done _ => hmapped hop
  | update t entities =>
    exact (Work.Gives.any _).bind fun done _ => hmapped fun m hm => (hop m hm).1
  | _ => exact hop.elim

theorem respects_trace {ops : List Operation} (hops : ∀ op ∈ ops, op.Respects table)
    (u : UnitOfWork) (s : σ) : ∀ c ∈ u.trace answer ops s, ∀ w ∈ c.report.written,
      ∀ m, w.1.checked = .ok m → m.Respects table := by
  induction ops generalizing u s with
  | nil => simp [trace]
  | cons op rest ih =>
    obtain ⟨hop, hrest⟩ := List.forall_mem_cons.mp hops
    exact List.forall_mem_cons.mpr ⟨(respects_perform u hop).run s, ih hrest _ _⟩

/-- A document has the identity of the entity that it is made of. -/
theorem id_of_isQueuedAs {w : EntityType × Json} {entry : String × Document}
    (h : Outbox.IsQueuedAs w entry) : entry.2.id = w.1.identityOf w.2 := by
  obtain ⟨m, -, -, hdoc⟩ := h
  obtain ⟨t, entity⟩ := w
  cases entity with
  | obj fields => exact (congrArg Document.id (Except.ok.inj hdoc)).symm
  | _ => cases hdoc

/-- The identities of the documents in a queue are those of the entities that they are made of. -/
theorem mem_ids_queue {handed : List (EntityType × Json)} {queue : List (String × Document)}
    (h : List.Forall₂ Outbox.IsQueuedAs handed queue) (id : Int) :
    (∃ doc, (table, doc) ∈ queue ∧ doc.id = id) ↔ ∃ w ∈ handed, GoesTo table id w := by
  induction h with
  | nil => simp
  | @cons w entry rest others hfirst _ ih =>
    have hid := id_of_isQueuedAs hfirst
    obtain ⟨m, hm, hcollection, -⟩ := hfirst
    have hentry : (∃ doc, (table, doc) = entry ∧ doc.id = id) ↔ GoesTo table id w := by
      obtain ⟨collection, doc⟩ := entry
      constructor
      · rintro ⟨_, heq, rfl⟩
        obtain ⟨rfl, rfl⟩ := Prod.mk.inj heq
        exact ⟨m, hm, hcollection.symm, hid.symm⟩
      · rintro ⟨other, hother, rfl, rfl⟩
        obtain rfl := Except.ok.inj (hm.symm.trans hother)
        exact ⟨doc, by rw [← hcollection], hid⟩
    simp only [List.mem_cons, or_and_right, exists_or, exists_eq_left]
    rw [hentry, ih]

/-- The entities that wait for the end and go to the table are those that were written to it. -/
theorem goesTo_toReplicate {reports : List Report}
    (h : ∀ report ∈ reports, ∀ w ∈ report.written, ∀ m, w.1.checked = .ok m → m.Respects table)
    (id : Int) : (∃ w ∈ toReplicate true reports, GoesTo table id w)
      ↔ ∃ report ∈ reports, id ∈ report.identities table := by
  simp only [toReplicate, if_true, List.mem_filter, List.mem_flatMap, Report.identities,
    Set.mem_ofPred_eq]
  constructor
  · rintro ⟨w, ⟨⟨report, hreport, hw⟩, -⟩, hgoes⟩
    exact ⟨report, hreport, w, hw, hgoes⟩
  · rintro ⟨report, hreport, w, hw, m, hm, rfl, hid⟩
    have hreplicated : isReplicated w.1 = true := by
      rw [isReplicated, hm]
      exact (h report hreport w hw m hm).elim And.right fun hne => absurd rfl hne
    exact ⟨w, ⟨⟨report, hreport, hw⟩, hreplicated⟩, m, hm, rfl, hid⟩

/-! ## Sessions -/

namespace Session

variable {settings : Settings} {hasTarget : Bool} {options : Options}
  {operations : List Operation} {before after : σ} {store : σ → Store}

section

variable (run : Session answer settings hasTarget options operations before after)

/-- The calls of a session with the states around them. -/
def calls : List (CallRun σ) := run.opened.trace answer operations run.atStart

def settled : σ := (Attempt.runWith answer run.used.settle run.atEnd).2

/-- How many collections fail when the outbox is flushed behind the end of the transaction. -/
def failedCollections : Nat := (run.used.outbox.flush.runWith answer run.settled).1

theorem settle_eq : Attempt.runWith answer run.used.settle run.atEnd
    = (run.outcome, run.settled) := by
  obtain ⟨between, hsettle, -, -⟩ := run.close_eq
  rw [settled, hsettle]

theorem after_eq : after = if run.replicates && run.stands
    then (run.used.outbox.flush.runWith answer run.settled).2 else run.settled := by
  obtain ⟨between, hsettle, hafter, -⟩ := run.close_eq
  rw [settled, hsettle]
  exact hafter

/-! ### The table -/

/-- The beginning of a session leaves the keys as they are. -/
theorem keys_atStart (rows : KeepsKeys answer table keys earlier) :
    keys run.atStart = keys before := by
  cases h : options.autoTransaction with
  | true => exact (rows.begun _ _ (run.begun h)).1
  | false =>
    have hopens := run.opens
    rw [start_plain h] at hopens
    exact congrArg keys (Prod.mk.inj hopens).2.symm

/-- The keys from before a transaction are kept until its end. -/
theorem earlier_atEnd (rows : KeepsKeys answer table keys earlier)
    (h : options.autoTransaction = true) : earlier run.atEnd = some (keys before) := by
  have hheld := (run.careful.asks.imp fun r hr s => rows.held r s hr).view_eq earlier run.atStart
  rw [run.runs] at hheld
  exact hheld.trans (rows.begun _ _ (run.begun h)).2

theorem keys_after (rows : KeepsKeys answer table keys earlier) :
    keys after = keys run.settled := by
  refine (congrArg keys run.after_eq).trans ?_
  split
  · exact ((Outbox.asks_flush _).imp fun r hr s => rows.untouched r s hr).view_eq keys run.settled
  · rfl

/-- When the changes of a session stand, the keys are those behind the calls. -/
theorem keys_of_stands (rows : KeepsKeys answer table keys earlier) (ended : run.outcome = .ok ())
    (h : ¬(options.autoTransaction = true ∧ run.used.errors ≠ [])) :
    keys after = keys run.atEnd := by
  rw [run.keys_after rows]
  have hsettle := run.settle_eq
  cases htransaction : options.autoTransaction with
  | true =>
    have herrors : run.used.errors = [] := by
      by_contra hne
      exact h ⟨htransaction, hne⟩
    rw [run.settle_transaction htransaction, if_pos herrors, ended] at hsettle
    exact rows.committed _ _ (Attempt.mapError_fst_eq_ok.mp hsettle)
  | false =>
    rw [run.settle_plain htransaction] at hsettle
    rw [← (Prod.mk.inj hsettle).2]

/-- When a call of a transaction has failed, the keys are those from before it. -/
theorem keys_of_rolledBack (rows : KeepsKeys answer table keys earlier)
    (ended : run.outcome = .ok ()) (htransaction : options.autoTransaction = true)
    (herrors : run.used.errors ≠ []) : keys after = keys before := by
  have hsettle := run.settle_eq
  rw [run.settle_transaction htransaction, if_neg herrors, ended] at hsettle
  rw [run.keys_after rows]
  exact rows.rolledBack _ _ _ (run.earlier_atEnd rows htransaction)
    (Attempt.mapError_fst_eq_ok.mp hsettle)

/-! ### The documents -/

theorem store_settled (documents : KeepsDocuments answer store) :
    store run.settled = store before := by
  have hstart := ((asks_start settings hasTarget options).imp fun r hr s =>
    documents.elsewhere r s hr).view_eq store before
  have hopens : Work.runWith answer (start settings hasTarget options).run before
      = (.ok run.opened, run.atStart) := run.opens
  rw [hopens] at hstart
  have hcalls := (run.careful.asks.imp fun r hr s =>
    documents.elsewhere r s (isDocumental_of_isStatement hr)).view_eq store run.atStart
  rw [run.runs] at hcalls
  have hsettled := (run.asks_settle.imp fun r hr s =>
    documents.elsewhere r s hr).view_eq store run.atEnd
  exact hsettled.trans (hcalls.trans hstart)

theorem reports_eq : run.calls.map CallRun.report = run.reports := by
  rw [calls, map_report_trace, run.runs]

/-- The identities that wait at the end are those of the entities that were saved or updated. -/
theorem waitingIds_outbox (replicates : run.replicates = true)
    (writes : ∀ op ∈ operations, op.Respects table) :
    Outbox.waitingIds run.used.outbox.pending table
      = savedIds table run.calls ∪ updatedIds table run.calls := by
  obtain ⟨queue, hqueue, houtbox⟩ := run.follows.outbox
  have hreplicates : run.opened.replicates = true := by
    rw [run.opened_eq]
    exact replicates
  have hempty : run.opened.outbox = {} := by
    rw [run.opened_eq]
    rfl
  have hrespects : ∀ report ∈ run.reports, ∀ w ∈ report.written,
      ∀ m, w.1.checked = .ok m → m.Respects table := by
    rw [← run.reports_eq, List.forall_mem_map]
    exact respects_trace writes _ _
  rw [hreplicates] at hqueue
  rw [houtbox, hempty, Outbox.waitingIds_addAll]
  ext id
  rw [Set.mem_ofPred_eq, mem_ids_queue hqueue, goesTo_toReplicate hrespects,
    mem_savedIds_or_updatedIds, ← run.reports_eq]
  simp

/-- When the changes of a session stand and no collection fails, the identities of all entities that
were saved or updated are stored. -/
theorem identities_after (documents : KeepsDocuments answer store)
    (replicates : run.replicates = true) (writes : ∀ op ∈ operations, op.Respects table)
    (hstands : run.stands = true) (flushed : run.failedCollections = 0) :
    (store after).identities table = (store before).identities table
      ∪ (savedIds table run.calls ∪ updatedIds table run.calls) := by
  have hafter := run.after_eq
  rw [replicates, hstands, Bool.and_self, if_pos rfl] at hafter
  have hgains := Outbox.gains_flush documents (Prod.ext flushed hafter.symm)
  rw [hgains table, run.waitingIds_outbox replicates writes, run.store_settled documents]

/-- In a transaction whose changes stand no call has failed, so no rows are left. -/
theorem leftRows_eq (keys : σ → Set Int) (herrors : run.used.errors = []) :
    leftRows keys run.calls = ∅ := by
  refine Set.eq_empty_iff_forall_notMem.mpr ?_
  rintro id ⟨c, hc, -, hfailed, -⟩
  rw [run.errors_eq, failureMessages, List.filterMap_eq_nil_iff, ← run.reports_eq] at herrors
  exact hfailed (Option.map_eq_none_iff.mp (herrors _ (List.mem_map_of_mem hc)))

end

/-- What a session leaves of a table and of the collection that its rows are replicated into. -/
structure Replicated (run : Session answer settings hasTarget options operations before after)
    (table : String) (keys : σ → Set Int) (store : σ → Store) : Prop where
  /-- If the changes do not stand, both are as before. -/
  asBefore : run.stands = false →
    keys after = keys before ∧ (store after).identities table = (store before).identities table
  rows : run.stands = true →
    keys after = keys before ∪ savedIds table run.calls ∪ leftRows keys run.calls
  documents : run.stands = true → (store after).identities table
    = (store before).identities table ∪ (savedIds table run.calls ∪ updatedIds table run.calls)
  /-- Rows without documents are only left outside a transaction. -/
  whole : run.stands = true → options.autoTransaction = true → leftRows keys run.calls = ∅

/-- If they agreed before, they agree afterwards just if each updated entity has a row, and each
row that is left has a document. -/
theorem Replicated.agree_iff
    {run : Session answer settings hasTarget options operations before after}
    (h : run.Replicated table keys store)
    (agreed : keys before = (store before).identities table) :
    keys after = (store after).identities table ↔ (run.stands = true →
      updatedIds table run.calls ⊆ keys after
        ∧ leftRows keys run.calls ⊆ (store after).identities table) := by
  cases hstands : run.stands with
  | false =>
    obtain ⟨hkeys, hdocuments⟩ := h.asBefore hstands
    exact iff_of_true (by rw [hkeys, hdocuments, agreed]) (by simp)
  | true =>
    have hrows := h.rows hstands
    have hdocuments := h.documents hstands
    rw [← agreed] at hdocuments
    constructor
    · intro heq _
      refine ⟨?_, ?_⟩
      · rw [heq, hdocuments]
        exact Set.subset_union_right.trans Set.subset_union_right
      · rw [← heq, hrows]
        exact Set.subset_union_right
    · intro hboth
      obtain ⟨hupdated, hleft⟩ := hboth rfl
      refine Set.Subset.antisymm ?_ ?_
      · rw [hrows]
        refine Set.union_subset (Set.union_subset ?_ ?_) hleft
        · rw [hdocuments]
          exact Set.subset_union_left
        · rw [hdocuments]
          exact Set.subset_union_left.trans Set.subset_union_right
      · rw [hdocuments]
        refine Set.union_subset ?_ (Set.union_subset ?_ hupdated)
        · rw [hrows]
          exact Set.subset_union_left.trans Set.subset_union_left
        · rw [hrows]
          exact Set.subset_union_right.trans Set.subset_union_left

theorem stands_eq_true_iff
    (run : Session answer settings hasTarget options operations before after)
    (ended : run.outcome = .ok ()) :
    run.stands = true ↔ ¬(options.autoTransaction = true ∧ run.used.errors ≠ []) := by
  rw [stands, ended, run.hasFailed_eq]
  cases options.autoTransaction <;> by_cases herrors : run.used.errors = [] <;>
    simp [herrors, Except.isOk, Except.toBool]

end Session

/-- **A replicated table and its collection agree but for updates of missing rows and rows of failed
saves.** For every database and document store that keep keys and documents, and every session with
replication, with or without a transaction, in which any entities are saved and updated, in any
number of calls of which any may fail: when the end of the session succeeds and no collection fails,
both are as before if a call of a transaction has failed. Otherwise the collection has got the
identities of all entities that a succeeded call has written, and the table those of the saved ones
and the rows that saves have inserted before they failed, which there are none of in a transaction.
So if they had the same identities before, they have the same afterwards just if each updated entity
has a row, and each row that a failed save has left has a document. -/
theorem replicated_tables {settings : Settings} {hasTarget : Bool} {options : Options}
    {operations : List Operation} {before after : σ} {store : σ → Store}
    (rows : KeepsKeys answer table keys earlier) (documents : KeepsDocuments answer store)
    (run : Session answer settings hasTarget options operations before after)
    (writes : ∀ op ∈ operations, op.Respects table) (replicates : run.replicates = true)
    (identified : 0 ∉ savedIds table run.calls) (ended : run.outcome = .ok ())
    (flushed : run.stands = true → run.failedCollections = 0) :
    run.Replicated table keys store
      ∧ (keys before = (store before).identities table →
        (keys after = (store after).identities table ↔ (run.stands = true →
          updatedIds table run.calls ⊆ keys after
            ∧ leftRows keys run.calls ⊆ (store after).identities table))) := by
  have hreplicated : run.Replicated table keys store := by
    refine ⟨fun hfalls => ?_, fun hstands => ?_,
      fun hstands => run.identities_after documents replicates writes hstands (flushed hstands),
      fun hstands htransaction => ?_⟩
    · have hrolledBack := mt (run.stands_eq_true_iff ended).mpr (by simp [hfalls])
      obtain ⟨htransaction, herrors⟩ := not_not.mp hrolledBack
      refine ⟨run.keys_of_rolledBack rows ended htransaction herrors, ?_⟩
      have hafter := run.after_eq
      rw [hfalls, Bool.and_false, if_neg Bool.false_ne_true] at hafter
      rw [congrArg store hafter, run.store_settled documents]
    · rw [run.keys_of_stands rows ended ((run.stands_eq_true_iff ended).mp hstands),
        trace_keys rows writes run.runs identified, run.keys_atStart rows, Session.calls]
    · have hkept := (run.stands_eq_true_iff ended).mp hstands
      exact run.leftRows_eq keys (not_not.mp fun herrors => hkept ⟨htransaction, herrors⟩)
  exact ⟨hreplicated, hreplicated.agree_iff⟩

/-! ## Memos -/

/-- The calls of a session on one empty table beside an empty document store. -/
def memoCallsRun (options : Options) (operations : List Operation) :
    (List Report × UnitOfWork) × RowsAndDocuments :=
  Work.runWith (RowsAndDocuments.answer "memo")
    ((Session.openedAs {} true options).performAll operations)
    (Attempt.runWith (RowsAndDocuments.answer "memo") (start {} true options) {}).2

def memoEnd (options : Options) (operations : List Operation) :
    Except Failure Unit × RowsAndDocuments :=
  Work.runWith (RowsAndDocuments.answer "memo") (memoCallsRun options operations).1.2.close
    (memoCallsRun options operations).2

/-- A session on one empty table beside an empty document store. -/
def memosSession (options : Options) (operations : List Operation) :
    Session (RowsAndDocuments.answer "memo") {} true options operations {}
      (memoEnd options operations).2 where
  opened := Session.openedAs {} true options
  atStart := (Attempt.runWith (RowsAndDocuments.answer "memo") (start {} true options) {}).2
  reports := (memoCallsRun options operations).1.1
  used := (memoCallsRun options operations).1.2
  atEnd := (memoCallsRun options operations).2
  outcome := (memoEnd options operations).1
  opens := by
    obtain ⟨autoTransaction, _, _, _⟩ := options
    cases autoTransaction <;> rfl
  runs := rfl
  closes := rfl

/-- Two memos are saved, of which one has no identity yet, and one of them is updated. -/
def memoWrites : List Operation :=
  [.save memoType [memo, .obj [("title", .str "b")]], .update memoType [memo]]

theorem respects_memoType : ∀ m, memoType.checked = .ok m →
    m.Respects "memo" ∧ m.SparesKeys "memo" := by
  rintro m hm
  have htype : memoType.checked = .ok ⟨"Memo", "memo", "id", true, memoType.fields⟩ := rfl
  rw [htype] at hm
  rw [← Except.ok.inj hm]
  exact ⟨.inl ⟨rfl, rfl⟩, fun _ => by decide⟩

/-- What is written to the table in that session. -/
theorem written_memoWrites {id : Int}
    (h : ∃ c ∈ (memosSession memoOptions memoWrites).calls, id ∈ c.report.identities "memo") :
    id = 7 ∨ id = 8 := by
  obtain ⟨c, hc, w, hw, -, -, -, rfl⟩ := h
  have hreports : (memosSession memoOptions memoWrites).calls.map CallRun.report
      = [⟨none, [(memoType, memo), (memoType, .obj [("title", .str "b"), ("id", .int 8)])]⟩,
        ⟨none, [(memoType, memo)]⟩] := rfl
  have hreport := List.mem_map_of_mem (f := CallRun.report) hc
  rw [hreports] at hreport
  rcases List.mem_cons.mp hreport with heq | hmem
  · rw [heq] at hw
    rcases List.mem_cons.mp hw with rfl | hw
    · exact .inl rfl
    · rw [List.mem_singleton.mp hw]
      exact .inr rfl
  · rw [List.mem_singleton.mp hmem] at hw
    rw [List.mem_singleton.mp hw]
    exact .inl rfl

/-- The table and the collection both have the memo that came with an identity and the one that got
it from the table. -/
theorem replicated_tables_memos :
    (∀ op ∈ memoWrites, op.Respects "memo")
      ∧ (memosSession memoOptions memoWrites).replicates = true
      ∧ 0 ∉ savedIds "memo" (memosSession memoOptions memoWrites).calls
      ∧ (memosSession memoOptions memoWrites).outcome = .ok ()
      ∧ (memosSession memoOptions memoWrites).failedCollections = 0
      ∧ RowsAndDocuments.keysOf (memoEnd memoOptions memoWrites).2.rows
        = (memoEnd memoOptions memoWrites).2.documents.identities "memo"
      ∧ 7 ∈ (memoEnd memoOptions memoWrites).2.documents.identities "memo"
      ∧ 8 ∈ (memoEnd memoOptions memoWrites).2.documents.identities "memo" := by
  have writes : ∀ op ∈ memoWrites, op.Respects "memo" := by
    rintro op hop
    rcases List.mem_cons.mp hop with rfl | hop
    · exact fun m hm => (respects_memoType m hm).1
    · rw [List.mem_singleton.mp hop]
      exact respects_memoType
  have identified : 0 ∉ savedIds "memo" (memosSession memoOptions memoWrites).calls := by
    intro hzero
    have hwritten := written_memoWrites (mem_savedIds_or_updatedIds.mp (.inl hzero))
    omega
  have hkeys : RowsAndDocuments.keysOf (memoEnd memoOptions memoWrites).2.rows = {8, 7} := by
    have hrows : (memoEnd memoOptions memoWrites).2.rows.map Prod.fst = [8, 7] := rfl
    ext id
    simp [RowsAndDocuments.keysOf, hrows]
  obtain ⟨hreplicated, hagree⟩ := replicated_tables (keepsKeys_rowsAndDocuments "memo")
    (keepsDocuments_rowsAndDocuments "memo") (memosSession memoOptions memoWrites) writes rfl
    identified rfl fun _ => rfl
  have hsame : RowsAndDocuments.keysOf (memoEnd memoOptions memoWrites).2.rows
      = (memoEnd memoOptions memoWrites).2.documents.identities "memo" := by
    refine (hagree (Set.ext fun id => ?_)).mpr fun hstands => ⟨fun id hid => ?_, ?_⟩
    · simp [RowsAndDocuments.keysOf, Store.identities, Store.Has, Store.filesOf, Keyed.get?,
        Keyed.keys]
    · rw [hkeys]
      exact (written_memoWrites (mem_savedIds_or_updatedIds.mp (.inr hid))).symm
    · rw [hreplicated.whole hstands rfl]
      exact Set.empty_subset _
  refine ⟨writes, rfl, identified, rfl, rfl, hsame, ?_, ?_⟩
  · rw [← hsame, hkeys]
    simp
  · rw [← hsame, hkeys]
    simp

/-- A type that goes to the table of the memos, with a field whose column is that of the key. -/
def sheetType : EntityType where
  name := "Sheet"
  identity := ⟨"uid", "memo", true⟩
  fields := [⟨"id", .int .w64, false, false⟩]
  layout := .anything
  key := "uid"

def sheet (id : Int) : Json := .obj [("uid", .int 7), ("id", .int id)]

/-- Whether a session replicates, and ends well with all collections written, but its table and its
collection, which were empty, have different identities behind it. -/
structure LosesAgreement (options : Options) (operations : List Operation) : Prop where
  writes : ∀ op ∈ operations, op.Replicates "memo"
  replicates : (memosSession options operations).replicates = true
  identified : 0 ∉ savedIds "memo" (memosSession options operations).calls
  ended : (memosSession options operations).outcome = .ok ()
  flushed : (memosSession options operations).failedCollections = 0
  agreed : RowsAndDocuments.keysOf [] = ({} : Store).identities "memo"
  differ : RowsAndDocuments.keysOf (memoEnd options operations).2.rows
    ≠ (memoEnd options operations).2.documents.identities "memo"

theorem replicates_memoType : ∃ m, memoType.checked = .ok m ∧ m.table = "memo"
    ∧ m.replicated = true := ⟨_, rfl, rfl, rfl⟩

theorem replicates_sheetType : ∃ m, sheetType.checked = .ok m ∧ m.table = "memo"
    ∧ m.replicated = true := ⟨_, rfl, rfl, rfl⟩

/-- Outside a transaction, an update of a memo that has no row adds a document without a row, and a
save that fails at its second memo leaves a row without a document. An update of a sheet that
overwrites the key moves its row away from its document. -/
theorem agreement_lost :
    LosesAgreement ⟨false, some true, none, none⟩ [.update memoType [memo]]
      ∧ LosesAgreement ⟨false, some true, none, none⟩ [.save memoType [memo, memo]]
      ∧ LosesAgreement memoOptions [.save sheetType [sheet 7], .update sheetType [sheet 9]] := by
  have agreed : RowsAndDocuments.keysOf [] = ({} : Store).identities "memo" := by
    ext id
    simp [RowsAndDocuments.keysOf, Store.identities, Store.Has, Store.filesOf, Keyed.get?,
      Keyed.keys]
  refine ⟨⟨?_, rfl, ?_, rfl, rfl, agreed, fun h => ?_⟩,
    ⟨?_, rfl, ?_, rfl, rfl, agreed, fun h => ?_⟩, ⟨?_, rfl, ?_, rfl, rfl, agreed, fun h => ?_⟩⟩
  · rintro op hop
    rw [List.mem_singleton.mp hop]
    exact replicates_memoType
  · rintro ⟨c, hc, hsave, -⟩
    rw [List.mem_singleton.mp hc] at hsave
    cases hsave
  · have hdocument : 7 ∈ (memoEnd ⟨false, some true, none, none⟩
        [.update memoType [memo]]).2.documents.identities "memo" := by
      show Collection.fileName 7 ∈ Keyed.keys (Store.filesOf _ "memo")
      decide
    rw [← h] at hdocument
    exact absurd hdocument List.not_mem_nil
  · rintro op hop
    rw [List.mem_singleton.mp hop]
    exact replicates_memoType
  · rintro ⟨c, hc, -, w, hw, -⟩
    rw [List.mem_singleton.mp hc] at hw
    exact absurd hw List.not_mem_nil
  · have hrow : 7 ∈ RowsAndDocuments.keysOf (memoEnd ⟨false, some true, none, none⟩
        [.save memoType [memo, memo]]).2.rows := List.mem_cons_self
    rw [h] at hrow
    exact absurd hrow List.not_mem_nil
  · rintro op hop
    rcases List.mem_cons.mp hop with rfl | hop
    · exact replicates_sheetType
    · rw [List.mem_singleton.mp hop]
      exact replicates_sheetType
  · rintro ⟨c, hc, hsave, w, hw, -, -, -, hzero⟩
    rcases List.mem_cons.mp hc with rfl | hc
    · rw [List.mem_singleton.mp hw] at hzero
      cases hzero
    · rw [List.mem_singleton.mp hc] at hsave
      cases hsave
  · have hrow : 9 ∈ RowsAndDocuments.keysOf (memoEnd memoOptions
        [.save sheetType [sheet 7], .update sheetType [sheet 9]]).2.rows := List.mem_cons_self
    rw [h] at hrow
    have hnone : Collection.fileName 9 ∉ Keyed.keys (Store.filesOf (memoEnd memoOptions
        [.save sheetType [sheet 7], .update sheetType [sheet 9]]).2.documents "memo") := by
      decide
    exact hnone hrow

end UnitOfWork

end Relational

end DualStore
