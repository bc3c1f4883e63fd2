import DualStore.Proofs.AllOrNothing
import DualStore.Proofs.OperationRuns

/-!
# Sessions stand or fall as a whole

A unit of work from its opening to its end, with any calls in between. The transaction is committed
if no call has failed and rolled back otherwise, and what the succeeded calls have written is handed
to the document store at the end, if the changes stand.

* `Session`: a unit of work from its opening to its end;
* `Session.opened_eq`, `Session.follows`, `Session.close_eq`: the opening, the calls and the end;
* `Session.transactionRequests_endLog`, `Session.committed_after`, `Session.documents_after`: what
  becomes of the transaction, of the tables and of the documents;
* `session_stands_or_falls`: the main statement.
-/

namespace DualStore.Relational.UnitOfWork

open Model

/-! ## Sessions -/

/-- A unit of work from its opening to its end, with the calls in between: the states of what
answers it, the unit of work itself, and what the calls and the end give. -/
structure Session {σ : Type} (answer : (r : Request) → σ → r.Answer × σ) (settings : Settings)
    (hasTarget : Bool) (options : Options) (operations : List Operation) (before after : σ) where
  opened : UnitOfWork
  atStart : σ
  reports : List Report
  used : UnitOfWork
  atEnd : σ
  outcome : Except Failure Unit
  opens : (start settings hasTarget options).runWith answer before = (.ok opened, atStart)
  runs : (opened.performAll operations).runWith answer atStart = ((reports, used), atEnd)
  closes : used.close.runWith answer atEnd = (outcome, after)

namespace Session

variable {σ T D : Type} {answer : (r : Request) → σ → r.Answer × σ} {settings : Settings}
  {hasTarget : Bool} {options : Options} {operations : List Operation} {before after : σ}

def workLog (run : Session answer settings hasTarget options operations before after) :
    List Exchange :=
  Work.log answer (start settings hasTarget options).run before
    ++ Work.log answer (run.opened.performAll operations) run.atStart

def endLog (run : Session answer settings hasTarget options operations before after) :
    List Exchange :=
  Work.log answer run.used.close run.atEnd

/-- Whether the changes stand: the transaction has ended well, and not because a call failed. -/
def stands (run : Session answer settings hasTarget options operations before after) : Bool :=
  run.outcome.isOk && !(options.autoTransaction && run.used.hasFailed)

/-- Whether written entities are replicated: it is chosen, and there is a document store. -/
def replicates (_run : Session answer settings hasTarget options operations before after) : Bool :=
  options.cacheSync.getD settings.cacheSync && hasTarget

/-! ### The opening -/

/-- A unit of work as it is opened. -/
def openedAs (settings : Settings) (hasTarget : Bool) (options : Options) : UnitOfWork where
  settings := settings
  inTransaction := options.autoTransaction
  autoId := options.autoId.getD settings.autoId
  node := options.node.getD settings.node
  replicates := options.cacheSync.getD settings.cacheSync && hasTarget

theorem start_transaction (h : options.autoTransaction = true) :
    start settings hasTarget options
      = askBegin >>= fun _ => pure (openedAs settings hasTarget options) := by
  rw [start, if_pos h]
  rfl

theorem start_plain (h : options.autoTransaction = false) :
    start settings hasTarget options = pure (openedAs settings hasTarget options) := by
  rw [start, if_neg (by simp [h])]
  rfl

theorem asks_start (settings : Settings) (hasTarget : Bool) (options : Options) :
    Work.Asks (fun r => r.isDocumental = false) (start settings hasTarget options).run := by
  cases h : options.autoTransaction with
  | true =>
    rw [start_transaction h]
    exact Work.Asks.attempt ⟨rfl, fun _ => trivial⟩ fun _ => trivial
  | false =>
    rw [start_plain h]
    trivial

variable (run : Session answer settings hasTarget options operations before after)

theorem opened_eq : run.opened = openedAs settings hasTarget options := by
  have hopens := run.opens
  cases h : options.autoTransaction with
  | true =>
    rw [start_transaction h] at hopens
    obtain ⟨_, between, -, hopened⟩ := Attempt.runWith_bind_ok hopens
    exact (Except.ok.inj (Prod.mk.inj hopened).1).symm
  | false =>
    rw [start_plain h] at hopens
    exact (Except.ok.inj (Prod.mk.inj hopens).1).symm

/-- A transaction that was asked for has begun. -/
theorem begun (h : options.autoTransaction = true) :
    answer .begin before = ((.ok () : Except Sql.SqlError Unit), run.atStart) := by
  have hopens := run.opens
  rw [start_transaction h] at hopens
  obtain ⟨_, between, hbegin, hopened⟩ := Attempt.runWith_bind_ok hopens
  obtain ⟨-, rfl⟩ := Prod.mk.inj hopened
  exact Attempt.mapError_fst_eq_ok.mp hbegin

theorem log_start : Work.log answer (start settings hasTarget options).run before
    = if options.autoTransaction then [⟨.begin, (answer .begin before).1⟩] else [] := by
  cases h : options.autoTransaction with
  | true =>
    rw [start_transaction h, if_pos rfl]
    have hbind : (askBegin >>= fun _ => pure (openedAs settings hasTarget options)
          : Attempt UnitOfWork).run
        = askBegin.run >>= ExceptT.bindCont fun _ => pure (openedAs settings hasTarget options) :=
      rfl
    rw [hbind, Work.log_bind]
    have hnothing : ∀ (result : Except Failure Unit) (s : σ), Work.log answer
        (ExceptT.bindCont (fun _ => (pure (openedAs settings hasTarget options)
          : Attempt UnitOfWork)) result) s = [] := by
      intro result s
      cases result <;> rfl
    rw [hnothing]
    rfl
  | false =>
    rw [start_plain h]
    rfl

/-! ### The calls -/

/-- The calls follow each other from the opening on. -/
theorem follows : Follows run.opened run.reports run.used := by
  have hruns : Follows run.opened
      ((run.opened.performAll operations).runWith answer run.atStart).1.1
      ((run.opened.performAll operations).runWith answer run.atStart).1.2 :=
    (gives_performAll run.opened operations).run run.atStart
  rw [run.runs] at hruns
  exact hruns

/-- Each call has one report. -/
theorem length_reports : run.reports.length = operations.length := by
  have hruns : ((run.opened.performAll operations).runWith answer run.atStart).1.1.length
      = operations.length := (gives_length run.opened operations).run run.atStart
  rw [run.runs] at hruns
  exact hruns

theorem careful : Work.Careful answer (fun done => ∀ report ∈ done.1, report.failure = none)
    (run.opened.performAll operations) :=
  careful_performAll run.opened operations

theorem errors_eq : run.used.errors = failureMessages run.reports := by
  rw [run.follows.errors, run.opened_eq]
  rfl

theorem hasFailed_eq : run.used.hasFailed = !decide (run.used.errors = []) := by
  rw [hasFailed]
  cases run.used.errors <;> rfl

/-- Without a message no call has failed, so all changes were carried out. -/
theorem carried_of_errors (h : run.used.errors = []) :
    ∀ e ∈ Work.log answer (run.opened.performAll operations) run.atStart, e.IsCarried := by
  apply run.careful.carried
  rw [run.runs]
  intro report hreport
  rw [run.errors_eq, failureMessages, List.filterMap_eq_nil_iff] at h
  have hfailure := h report hreport
  rwa [Option.map_eq_none_iff] at hfailure

/-! ### The end -/

/-- Whether the outbox is flushed at the end. -/
theorem flushes_eq : (run.used.replicates && run.outcome.isOk
      && !(run.used.inTransaction && run.used.hasFailed)) = (run.replicates && run.stands) := by
  rw [run.follows.replicates, run.follows.inTransaction, run.opened_eq, stands, Bool.and_assoc]
  rfl

/-- The end: the transaction is settled, and the outbox is flushed if the changes stand. -/
theorem close_eq : ∃ between,
    Attempt.runWith answer run.used.settle run.atEnd = (run.outcome, between)
      ∧ after = (if run.replicates && run.stands
          then (run.used.outbox.flush.runWith answer between).2 else between)
      ∧ run.endLog = Work.log answer run.used.settle.run run.atEnd
          ++ (if run.replicates && run.stands
            then Work.log answer run.used.outbox.flush between else []) := by
  have hcloses := run.closes
  rw [close, Work.runWith_bind, ← Attempt.runWith] at hcloses
  rw [endLog, close, Work.log_bind, ← Attempt.runWith]
  cases hsettle : Attempt.runWith answer run.used.settle run.atEnd with
  | mk outcome between =>
    rw [hsettle] at hcloses
    have houtcome : outcome = run.outcome := by
      simp only at hcloses
      split at hcloses
      · rw [Work.runWith_bind] at hcloses
        exact (Prod.mk.inj hcloses).1
      · exact (Prod.mk.inj hcloses).1
    subst houtcome
    have hflushes := run.flushes_eq
    refine ⟨between, rfl, ?_⟩
    simp only [hflushes] at hcloses ⊢
    split at hcloses
    · next hyes =>
      rw [Work.runWith_bind] at hcloses
      rw [if_pos hyes, if_pos hyes, if_pos hyes, Work.log_bind]
      exact ⟨(Prod.mk.inj hcloses).2.symm, congrArg _ (List.append_nil _)⟩
    · next hno =>
      rw [if_neg hno, if_neg hno, if_neg hno]
      exact ⟨(Prod.mk.inj hcloses).2.symm, rfl⟩

/-- A transaction is settled by one request: a commit if no call has failed, else a rollback. -/
theorem settle_transaction (h : options.autoTransaction = true) :
    run.used.settle = if run.used.errors = [] then askCommit else askRollback := by
  have htransaction : run.used.inTransaction = true := by
    rw [run.follows.inTransaction, run.opened_eq]
    exact h
  rw [settle, if_pos htransaction, run.hasFailed_eq]
  by_cases herrors : run.used.errors = [] <;> simp [herrors]

theorem settle_plain (h : options.autoTransaction = false) : run.used.settle = pure () := by
  have htransaction : run.used.inTransaction = false := by
    rw [run.follows.inTransaction, run.opened_eq]
    exact h
  rw [settle, htransaction]
  rfl

theorem asks_settle : Work.Asks (fun r => r.isDocumental = false) run.used.settle.run := by
  cases h : options.autoTransaction with
  | true =>
    rw [run.settle_transaction h]
    split <;> exact ⟨rfl, fun _ => trivial⟩
  | false =>
    rw [run.settle_plain h]
    trivial

/-! ### Requests about the transaction -/

theorem isTransactional_of_isStatement {r : Request} (h : r.isStatement = true) :
    r.isTransactional = false := by
  cases r <;> first | rfl | cases h

theorem isDocumental_of_isStatement {r : Request} (h : r.isStatement = true) :
    r.isDocumental = false := by
  cases r <;> first | rfl | cases h

theorem isTransactional_of_isDocumental {r : Request} (h : r.isDocumental = true) :
    r.isTransactional = false := by
  cases r <;> first | rfl | cases h

/-- Before the end nothing is asked about the transaction but that it begins. -/
theorem transactionRequests_workLog :
    transactionRequests run.workLog = if options.autoTransaction then [.begin] else [] := by
  have hcalls : transactionRequests
      (Work.log answer (run.opened.performAll operations) run.atStart) = [] :=
    transactionRequests_eq_nil fun e he =>
      isTransactional_of_isStatement (run.careful.asks.log run.atStart e he)
  rw [workLog, transactionRequests_append, hcalls, List.append_nil, log_start]
  split <;> rfl

/-- At the end a transaction is committed if no call has failed, and rolled back otherwise. -/
theorem transactionRequests_endLog :
    transactionRequests run.endLog
      = if options.autoTransaction then
          (if run.used.errors = [] then [.commit] else [.rollback]) else [] := by
  obtain ⟨between, -, -, hlog⟩ := run.close_eq
  have hflush : transactionRequests (if run.replicates && run.stands
      then Work.log answer run.used.outbox.flush between else []) = [] := by
    split
    · exact transactionRequests_eq_nil fun e he =>
        isTransactional_of_isDocumental ((Outbox.asks_flush run.used.outbox).log between e he)
    · rfl
  rw [hlog, transactionRequests_append, hflush, List.append_nil]
  cases h : options.autoTransaction with
  | true =>
    rw [run.settle_transaction h, if_pos rfl]
    split <;> rfl
  | false =>
    rw [run.settle_plain h]
    rfl

/-! ### The tables -/

theorem changesIn_workLog : changesIn run.workLog
    = changesIn (Work.log answer (run.opened.performAll operations) run.atStart) := by
  rw [workLog, changesIn_append, log_start]
  split <;> rfl

/-- When a transaction has ended well, the tables carry all changes in order, or are as before. -/
theorem committed_after {committed : σ → T} {pending : σ → Option T} {effect : Change → T → T}
    {documents : σ → D} (database : AllOrNothing answer committed pending effect documents)
    (free : pending before = none) (h : options.autoTransaction = true)
    (hended : run.outcome = .ok ()) :
    committed after = if run.used.errors = []
      then afterChanges effect (changesIn run.workLog) (committed before)
      else committed before := by
  obtain ⟨hstart, hpending⟩ := database.begun _ _ free (run.begun h)
  obtain ⟨hkept, t, ht, hall⟩ := database.run run.careful.asks hpending
  rw [run.runs] at hkept ht
  obtain ⟨between, hsettle, hafter, -⟩ := run.close_eq
  have hflushed : committed after = committed between := by
    rw [hafter]
    split
    · exact database.committed_run (Outbox.asks_flush _) between
    · rfl
  rw [run.settle_transaction h, hended] at hsettle
  rw [hflushed]
  split
  · next herrors =>
    rw [if_pos herrors] at hsettle
    rw [database.commits _ _ t ht (Attempt.mapError_fst_eq_ok.mp hsettle),
      hall (run.carried_of_errors herrors), run.changesIn_workLog]
  · next herrors =>
    rw [if_neg herrors] at hsettle
    rw [database.rollsBack _ _ t ht (Attempt.mapError_fst_eq_ok.mp hsettle), hkept, hstart]

/-! ### The documents -/

/-- When something is written at the end, there is a document store, the end of the transaction
succeeded, and it was not rolled back because of an error. -/
theorem stands_spec (h : (run.replicates && run.stands) = true) : hasTarget = true
    ∧ run.outcome = .ok () ∧ ¬(options.autoTransaction = true ∧ run.used.errors ≠ []) := by
  obtain ⟨hreplicates, hstands⟩ := (Bool.and_eq_true _ _).mp h
  obtain ⟨hok, hkept⟩ := (Bool.and_eq_true _ _).mp hstands
  refine ⟨((Bool.and_eq_true _ _).mp hreplicates).2, ?_, ?_⟩
  · cases houtcome : run.outcome with
    | ok _ => rfl
    | error e =>
      rw [houtcome] at hok
      cases hok
  · rintro ⟨htransaction, herrors⟩
    rw [htransaction, run.hasFailed_eq, decide_eq_false herrors] at hkept
    exact Bool.false_ne_true hkept

theorem documents_atEnd {committed : σ → T} {pending : σ → Option T} {effect : Change → T → T}
    {documents : σ → D} (database : AllOrNothing answer committed pending effect documents) :
    documents run.atEnd = documents before := by
  have hstart := database.documents_run (asks_start settings hasTarget options) before
  have hopens : Work.runWith answer (start settings hasTarget options).run before
      = (.ok run.opened, run.atStart) := run.opens
  rw [hopens] at hstart
  have hcalls := database.documents_run (run.careful.asks.imp fun r h =>
    isDocumental_of_isStatement h) run.atStart
  rw [run.runs] at hcalls
  exact hcalls.trans hstart

/-- The document store changes at the end only, and only if the changes stand. -/
theorem documents_after {committed : σ → T} {pending : σ → Option T} {effect : Change → T → T}
    {documents : σ → D} (database : AllOrNothing answer committed pending effect documents)
    (h : (run.replicates && run.stands) = false) : documents after = documents before := by
  obtain ⟨between, hsettle, hafter, -⟩ := run.close_eq
  have hsettled := database.documents_run run.asks_settle run.atEnd
  have hrun : Work.runWith answer run.used.settle.run run.atEnd = (run.outcome, between) := hsettle
  rw [hrun] at hsettled
  rw [hafter, h, if_neg Bool.false_ne_true, hsettled, run.documents_atEnd database]

end Session


/-! ## The main statement -/

section

variable {σ T D : Type} {answer : (r : Request) → σ → r.Answer × σ} {settings : Settings}
  {hasTarget : Bool} {options : Options} {operations : List Operation} {before after : σ}
  {committed : σ → T} {pending : σ → Option T} {effect : Change → T → T} {documents : σ → D}

/-- **A session stands or falls as a whole.** For every database whose transactions are all or
nothing, and all calls between the opening and the end, whether they succeed or fail: the errors
are the messages of the calls that failed, in order. A session with a transaction begins it once,
and at the end asks once for a commit if there are no errors, and for a rollback otherwise; if that
succeeds, the committed tables carry all changes in order or are as before. The document store
changes at the end only, and only if there is one, the end of the transaction succeeded, and it was
not rolled back because of an error. What is handed to it then are the documents of the entities of
replicated types that succeeded calls have saved or updated, in order within each collection. -/
theorem session_stands_or_falls
    (database : AllOrNothing answer committed pending effect documents)
    (free : pending before = none)
    (run : Session answer settings hasTarget options operations before after) :
    (run.reports.length = operations.length
        ∧ run.used.errors = failureMessages run.reports)
      ∧ transactionRequests run.workLog = (if options.autoTransaction then [.begin] else [])
      ∧ transactionRequests run.endLog = (if options.autoTransaction then
          (if run.used.errors = [] then [.commit] else [.rollback]) else [])
      ∧ (options.autoTransaction = true → run.outcome = .ok () →
          committed after = if run.used.errors = []
            then afterChanges effect (changesIn run.workLog) (committed before)
            else committed before)
      ∧ documents run.atEnd = documents before
      ∧ (documents after ≠ documents before → hasTarget = true ∧ run.outcome = .ok ()
          ∧ ¬(options.autoTransaction = true ∧ run.used.errors ≠ []))
      ∧ (Keyed.keys run.used.outbox.pending).Nodup
      ∧ ∃ queue between,
          List.Forall₂ Outbox.IsQueuedAs (toReplicate run.replicates run.reports) queue
          ∧ (∀ collection, run.used.outbox.waiting collection = documentsFor collection queue)
          ∧ Attempt.runWith answer run.used.settle run.atEnd = (run.outcome, between)
          ∧ after = (if run.replicates && run.stands
              then (run.used.outbox.flush.runWith answer between).2 else between) := by
  obtain ⟨queue, hqueue, houtbox⟩ := run.follows.outbox
  rw [run.opened_eq] at hqueue houtbox
  obtain ⟨between, hsettle, hafter, -⟩ := run.close_eq
  refine ⟨⟨run.length_reports, run.errors_eq⟩, run.transactionRequests_workLog,
    run.transactionRequests_endLog, run.committed_after database free,
    run.documents_atEnd database, fun hchanged => ?_, ?_, queue, between, hqueue,
    fun collection => ?_, hsettle, hafter⟩
  · exact run.stands_spec (Bool.of_not_eq_false fun h => hchanged (run.documents_after database h))
  · rw [houtbox]
    exact (Outbox.isSorted_addAll (o := {}) List.Pairwise.nil queue).nodup
  · rw [houtbox, Outbox.waiting_addAll]
    rfl

end

/-- A replicated type whose entities may have anything. -/
def memoType : EntityType where
  name := "Memo"
  identity := ⟨"id", "memo", true⟩
  fields := [⟨"title", .string, false, false⟩]
  layout := .anything
  key := "id"

def memo : Json := .obj [("id", .int 7), ("title", .str "a")]

def memoCalls : List Operation := [.save memoType [memo], .findById memoType 7]

/-- A session with a transaction that replicates. -/
def memoOptions : Options := ⟨true, some true, none, none⟩

/-- The calls on a ledger whose transaction has begun. -/
def memoCalled : (List Report × UnitOfWork) × Ledger :=
  Work.runWith Ledger.answer ((Session.openedAs {} true memoOptions).performAll memoCalls)
    ⟨[], some [], {}⟩

/-- The end behind the calls. -/
def memoEnded : Except Failure Unit × Ledger :=
  Work.runWith Ledger.answer memoCalled.1.2.close memoCalled.2

/-- The session in which a memo is saved. -/
def memoSession : Session Ledger.answer {} true memoOptions memoCalls {} memoEnded.2 where
  opened := Session.openedAs {} true memoOptions
  atStart := ⟨[], some [], {}⟩
  reports := memoCalled.1.1
  used := memoCalled.1.2
  atEnd := memoCalled.2
  outcome := memoEnded.1
  opens := rfl
  runs := rfl
  closes := rfl

/-- A memo that is saved stands at the end. -/
theorem session_stands_or_falls_memo :
    memoSession.used.errors = []
      ∧ memoEnded.2.committed = [.insert "memo" [("id", .integer 7), ("title", .text "a")]]
      ∧ memoSession.used.outbox.waiting "memo" = [⟨7, [("title", .str "a")]⟩] := by
  obtain ⟨-, -, -, hcommitted, -, -, -, queue, -, hqueue, hwaiting, -⟩ :=
    session_stands_or_falls allOrNothing_ledger rfl memoSession
  have herrors : memoSession.used.errors = [] := rfl
  have houtcome : memoSession.outcome = .ok () := rfl
  have hchanges : changesIn memoSession.workLog
      = [.insert "memo" [("id", .integer 7), ("title", .text "a")]] := rfl
  have hwritten : toReplicate memoSession.replicates memoSession.reports = [(memoType, memo)] := rfl
  have htype : memoType.checked = .ok ⟨"Memo", "memo", "id", true, memoType.fields⟩ := rfl
  refine ⟨herrors, ?_, ?_⟩
  · rw [hcommitted rfl houtcome, if_pos herrors, hchanges]
    rfl
  · rw [hwritten] at hqueue
    obtain ⟨⟨_, doc⟩, _, ⟨m, hm, rfl, hdoc⟩, hrest, rfl⟩ := List.forall₂_cons_left_iff.mp hqueue
    rw [List.forall₂_nil_left_iff] at hrest
    rw [htype] at hm
    rw [← Except.ok.inj hm] at hdoc
    have hmemo : doc = ⟨7, [("title", .str "a")]⟩ := (Except.ok.inj hdoc).symm
    rw [hwaiting, hrest, ← Except.ok.inj hm, hmemo]
    rfl

end DualStore.Relational.UnitOfWork
