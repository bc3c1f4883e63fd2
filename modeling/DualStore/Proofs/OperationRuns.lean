import DualStore.Proofs.CarefulCalls
import DualStore.Proofs.OutboxEntries

/-!
# Runs of calls

Any sequence of calls of a unit of work, of which some succeed and some fail. A call that fails is
told by its message, and a call that succeeds leaves documents of the entities that it has written.

* `Operation`, `Report`: calls, and what they leave;
* `perform`, `performAll`: one call, and several one after the other;
* `careful_performAll`: calls of which none failed have had all their changes carried out;
* `Follows`, `gives_perform`, `gives_performAll`: what calls do to a unit of work.
-/

namespace DualStore.Relational

open Model

/-! ## Calls -/

/-- A call of a unit of work. -/
inductive Operation where
  | save (t : EntityType) (entities : List Json)
  | update (t : EntityType) (entities : List Json)
  | delete (t : EntityType) (entities : List Json)
  | updateMatching (c : Criteria)
  | count (c : Criteria)
  | findById (t : EntityType) (id : Int)
  | findOne (t : EntityType) (c : Criteria)
  | findList (t : EntityType) (c : Criteria)
  | findRecords (t : EntityType) (c : Criteria)
  | findRecord (t : EntityType) (c : Criteria)

/-- What a call leaves: its failure, and the entities that it has written, each with its type. -/
structure Report where
  failure : Option Failure
  written : List (EntityType × Json)

/-- The report on a result; a call that failed has written no entities. -/
def Report.of {α : Type} (written : List (EntityType × Json)) : Except Failure α → Report
  | .ok _ => ⟨none, written⟩
  | .error e => ⟨some e, []⟩

namespace UnitOfWork

def perform (u : UnitOfWork) : Operation → Work (Report × UnitOfWork)
  | .save t entities => do
    let done ← u.save t entities
    pure (.of (done.1.2.map (t, ·)) done.1.1, done.2)
  | .update t entities => do
    let done ← u.update t entities
    pure (.of (entities.map (t, ·)) done.1, done.2)
  | .delete t entities => do
    let done ← u.delete t entities
    pure (.of [] done.1, done.2)
  | .updateMatching c => do
    let done ← u.updateMatching c
    pure (.of [] done.1, done.2)
  | .count c => do
    let done ← u.count c
    pure (.of [] done.1.result, done.2)
  | .findById t id => do
    let done ← u.findById t id
    pure (.of [] done.1, done.2)
  | .findOne t c => do
    let done ← u.findOne t c
    pure (.of [] done.1.result, done.2)
  | .findList t c => do
    let done ← u.findList t c
    pure (.of [] done.1.result, done.2)
  | .findRecords t c => do
    let done ← u.findRecords t c
    pure (.of [] done.1.result, done.2)
  | .findRecord t c => do
    let done ← u.findRecord t c
    pure (.of [] done.1.result, done.2)

/-- Runs calls one after the other, whether they succeed or fail. -/
def performAll (u : UnitOfWork) : List Operation → Work (List Report × UnitOfWork)
  | [] => pure ([], u)
  | op :: rest => do
    let (report, u) ← u.perform op
    let (reports, u) ← u.performAll rest
    pure (report :: reports, u)

/-! ## Careful calls -/

section

variable {α σ : Type} {answer : (r : Request) → σ → r.Answer × σ}

theorem Report.of_failure {written : List (EntityType × Json)} {result : Except Failure α}
    (h : (Report.of written result).failure = none) : result.isOk = true := by
  cases result with
  | ok a => rfl
  | error e => cases h

theorem careful_perform (u : UnitOfWork) (op : Operation) :
    Work.Careful answer (fun done => done.1.failure = none) (u.perform op) := by
  cases op with
  | save t entities =>
    exact Work.Careful.map (careful_save u t entities) fun _ h => Report.of_failure h
  | update t entities =>
    exact Work.Careful.map (careful_update u t entities) fun _ h => Report.of_failure h
  | delete t entities =>
    exact Work.Careful.map (careful_call u (careful_deleteRows t entities))
      fun _ h => Report.of_failure h
  | updateMatching c =>
    exact Work.Careful.map (careful_call u (careful_updateRows c)) fun _ h => Report.of_failure h
  | count c =>
    exact Work.Careful.map (careful_readCall u (careful_count c)) fun _ h => Report.of_failure h
  | findById t id =>
    exact Work.Careful.map (careful_call u (careful_rowById _ t id))
      fun _ h => Report.of_failure h
  | findOne t c =>
    exact Work.Careful.map (careful_readCall u (careful_first (careful_selectEntities _ t _)))
      fun _ h => Report.of_failure h
  | findList t c =>
    exact Work.Careful.map (careful_readCall u (careful_selectEntities _ t c))
      fun _ h => Report.of_failure h
  | findRecords t c =>
    exact Work.Careful.map (careful_readCall u (careful_selectRecords _ t c))
      fun _ h => Report.of_failure h
  | findRecord t c =>
    exact Work.Careful.map (careful_readCall u (careful_first (careful_selectRecords _ t _)))
      fun _ h => Report.of_failure h

/-- Calls of which none failed have had all their changes carried out. -/
theorem careful_performAll (u : UnitOfWork) (ops : List Operation) :
    Work.Careful answer (fun done => ∀ report ∈ done.1, report.failure = none)
      (u.performAll ops) := by
  induction ops generalizing u with
  | nil => exact .pure _
  | cons op rest ih =>
    refine (careful_perform u op).bind (fun done => ?_) fun done s h => ?_
    · exact Work.Careful.map (ih done.2) fun _ h => (List.forall_mem_cons.mp h).2
    · obtain ⟨report, u⟩ := done
      rw [Work.runWith_bind] at h
      exact (List.forall_mem_cons.mp h).1

end

/-! ## What a call does to a unit of work -/

/-- The messages of the calls that failed, in order. -/
def failureMessages (reports : List Report) : List String :=
  reports.filterMap fun report => report.failure.map Failure.message

/-- Whether the entities of a type are to be replicated. -/
def isReplicated (t : EntityType) : Bool :=
  match t.checked with
  | .ok m => m.replicated
  | .error _ => false

/-- The written entities that are to be replicated, in order. -/
def toReplicate (replicates : Bool) (reports : List Report) : List (EntityType × Json) :=
  if replicates then (reports.flatMap Report.written).filter fun w => isReplicated w.1 else []

theorem toReplicate_append (replicates : Bool) (reports more : List Report) :
    toReplicate replicates (reports ++ more)
      = toReplicate replicates reports ++ toReplicate replicates more := by
  unfold toReplicate
  split
  · rw [List.flatMap_append, List.filter_append]
  · rfl

/-- What calls do to a unit of work: the failures are added to its errors, and the documents of
what was written wait behind those before. -/
structure Follows (u : UnitOfWork) (reports : List Report) (after : UnitOfWork) : Prop where
  errors : after.errors = u.errors ++ failureMessages reports
  inTransaction : after.inTransaction = u.inTransaction
  replicates : after.replicates = u.replicates
  outbox : ∃ queue, List.Forall₂ Outbox.IsQueuedAs (toReplicate u.replicates reports) queue
    ∧ after.outbox = u.outbox.addAll queue

theorem follows_nil (u : UnitOfWork) : Follows u [] u where
  errors := (List.append_nil _).symm
  inTransaction := rfl
  replicates := rfl
  outbox := by
    refine ⟨[], ?_, rfl⟩
    rw [toReplicate]
    split <;> exact .nil

theorem Follows.trans {u between after : UnitOfWork} {reports more : List Report}
    (h : Follows u reports between) (hmore : Follows between more after) :
    Follows u (reports ++ more) after where
  errors := by
    rw [hmore.errors, h.errors, List.append_assoc, failureMessages, failureMessages,
      failureMessages, List.filterMap_append]
  inTransaction := hmore.inTransaction.trans h.inTransaction
  replicates := hmore.replicates.trans h.replicates
  outbox := by
    obtain ⟨queue, hqueue, houtbox⟩ := h.outbox
    obtain ⟨others, hothers, hafter⟩ := hmore.outbox
    rw [h.replicates] at hothers
    refine ⟨queue ++ others, ?_, ?_⟩
    · rw [toReplicate_append]
      exact List.rel_append hqueue hothers
    · rw [hafter, houtbox, Outbox.addAll_append]

theorem toReplicate_nil (replicates : Bool) (failure : Option Failure) :
    toReplicate replicates [⟨failure, []⟩] = [] := by
  unfold toReplicate
  split <;> rfl

/-- A call that has written nothing only records its failure. -/
theorem follows_record {α : Type} (u : UnitOfWork) (result : Except Failure α) :
    Follows u [.of [] result] (u.record result) where
  errors := by cases result <;> simp [record, Failure.recordIn, failureMessages, Report.of]
  inTransaction := rfl
  replicates := rfl
  outbox := by
    refine ⟨[], ?_, rfl⟩
    have hnone : toReplicate u.replicates [.of [] result] = [] := by
      cases result <;> exact toReplicate_nil _ _
    rw [hnone]
    exact .nil

theorem follows_fail (u : UnitOfWork) (written : List (EntityType × Json)) (e : Failure) :
    Follows u [.of written (.error e : Except Failure Unit)] (u.fail e) :=
  follows_record u (.error e : Except Failure Unit)

/-- Written entities go into the outbox if they are to be replicated, which never fails. -/
theorem follows_replicate (u : UnitOfWork) {t : EntityType} {m : EntityMeta}
    (hm : t.checked = .ok m) {entities : List Json} (hobjects : ∀ e ∈ entities, IsObject e) :
    (u.replicate t m entities).1 = .ok ()
      ∧ Follows u [⟨none, entities.map (t, ·)⟩] (u.replicate t m entities).2 := by
  have hwritten : toReplicate u.replicates [⟨none, entities.map (t, ·)⟩]
      = if u.replicates && m.replicated then entities.map (t, ·) else [] := by
    cases hu : u.replicates with
    | false => rfl
    | true =>
      cases hr : m.replicated with
      | false => simp [toReplicate, isReplicated, hm, hr]
      | true => simp [toReplicate, isReplicated, hm, hr]
  unfold replicate
  split
  · next hyes =>
    obtain ⟨queue, hqueue, hpush⟩ := Outbox.pushAll_isObject hm hobjects u.outbox
    rw [if_pos hyes] at hwritten
    simp only [hpush, true_and]
    refine ⟨(List.append_nil _).symm, rfl, rfl, queue, ?_, rfl⟩
    rwa [hwritten]
  · next hno =>
    rw [if_neg hno] at hwritten
    refine ⟨rfl, (List.append_nil _).symm, rfl, rfl, [], ?_, rfl⟩
    rw [hwritten]
    exact .nil

theorem gives_call {α : Type} (u : UnitOfWork) (x : Attempt α) :
    Work.Gives (fun done => Follows u [.of [] done.1] done.2) (u.call x) :=
  (Work.Gives.any x.run).bind fun result _ => follows_record u result

theorem gives_readCall {α : Type} (u : UnitOfWork) (work : Work (Document.Found α)) :
    Work.Gives (fun done => Follows u [.of [] done.1.result] done.2) (u.readCall work) :=
  (Work.Gives.any work).bind fun found _ => follows_record u found.result

theorem gives_save (u : UnitOfWork) (t : EntityType) (entities : List Json) :
    Work.Gives (fun done => Follows u [.of (done.1.2.map (t, ·)) done.1.1] done.2)
      (u.save t entities) := by
  rw [save]
  split
  · exact follows_fail u _ _
  · split
    · exact follows_fail u _ _
    · next m hm =>
      refine (gives_insertAll u t m entities).bind fun done hdone => ?_
      obtain ⟨result, inserted⟩ := done
      cases result with
      | error e => exact follows_fail u _ e
      | ok _ =>
        obtain ⟨hok, hfollows⟩ := follows_replicate u hm (hdone rfl)
        simp only [hok]
        exact hfollows

theorem gives_update (u : UnitOfWork) (t : EntityType) (entities : List Json) :
    Work.Gives (fun done => Follows u [.of (entities.map (t, ·)) done.1] done.2)
      (u.update t entities) := by
  have hattempt : Work.Gives (fun result => ∀ m, result = .ok m →
        t.checked = .ok m ∧ ∀ e ∈ entities, IsObject e)
      (if entities.isEmpty then throw (.input (.noEntities "update"))
        else do
          let m ← Attempt.ofExcept t.checked
          updateAll u.settings.zone t m entities
          pure m : Attempt EntityMeta).run := by
    split
    · exact gives_throw _ _
    · exact Attempt.gives_bind (gives_ofExcept _) fun m hm =>
        Attempt.gives_bind (gives_updateAll u.settings.zone t m entities) fun _ hobjects =>
          gives_pure ⟨hm, hobjects⟩
  refine hattempt.bind fun result hresult => ?_
  cases result with
  | error e => exact follows_fail u _ e
  | ok m =>
    obtain ⟨hm, hobjects⟩ := hresult m rfl
    obtain ⟨hok, hfollows⟩ := follows_replicate u hm hobjects
    simp only [hok]
    exact hfollows

theorem gives_perform (u : UnitOfWork) (op : Operation) :
    Work.Gives (fun done => Follows u [done.1] done.2) (u.perform op) := by
  cases op with
  | save t entities => exact (gives_save u t entities).bind fun _ h => h
  | update t entities => exact (gives_update u t entities).bind fun _ h => h
  | delete t entities => exact (gives_call u _).bind fun _ h => h
  | updateMatching c => exact (gives_call u _).bind fun _ h => h
  | count c => exact (gives_readCall u _).bind fun _ h => h
  | findById t id => exact (gives_call u _).bind fun _ h => h
  | findOne t c => exact (gives_readCall u _).bind fun _ h => h
  | findList t c => exact (gives_readCall u _).bind fun _ h => h
  | findRecords t c => exact (gives_readCall u _).bind fun _ h => h
  | findRecord t c => exact (gives_readCall u _).bind fun _ h => h

/-- Calls one after the other, by induction on the calls. -/
theorem gives_performAll (u : UnitOfWork) (ops : List Operation) :
    Work.Gives (fun done => Follows u done.1 done.2) (u.performAll ops) := by
  induction ops generalizing u with
  | nil => exact follows_nil u
  | cons op rest ih =>
    refine (gives_perform u op).bind fun done hdone => ?_
    exact (ih done.2).bind fun others hothers => hdone.trans hothers

theorem gives_length (u : UnitOfWork) (ops : List Operation) :
    Work.Gives (fun done => done.1.length = ops.length) (u.performAll ops) := by
  induction ops generalizing u with
  | nil => rfl
  | cons op rest ih =>
    refine (Work.Gives.any (u.perform op)).bind fun done _ => ?_
    exact (ih done.2).bind fun others hothers => congrArg (· + 1) hothers

end UnitOfWork

end DualStore.Relational
