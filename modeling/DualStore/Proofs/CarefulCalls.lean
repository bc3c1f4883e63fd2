import DualStore.Proofs.RequestLogs
import DualStore.Relational.UnitOfWork

/-!
# Calls of a unit of work are careful

No call of a unit of work touches the transaction or the document store, and a call that succeeds
has had all its changes carried out.

* `careful_call`, `careful_readCall`: recording a failure;
* `careful_save`, `careful_update`, `careful_deleteRows`, `careful_updateRows`: calls that write;
* `careful_countRows`, `careful_rowById`, `careful_pagedRead`: calls that read;
* `gives_insertAll`, `gives_updateAll`: what was written are objects.
-/

namespace DualStore.Relational.UnitOfWork

open Model
open Document (Found)

variable {α σ : Type} {answer : (r : Request) → σ → r.Answer × σ}

/-! ## Recording -/

/-- A call that records its failure is as careful as what it runs. -/
theorem careful_call (u : UnitOfWork) {x : Attempt α} (hx : x.Careful answer) :
    Work.Careful answer (fun done => done.1.isOk = true) (u.call x) :=
  Work.Careful.map hx fun _ h => h

theorem careful_readCall (u : UnitOfWork) {work : Work (Found α)}
    (hwork : Work.Careful answer (fun found => found.result.isOk = true) work) :
    Work.Careful answer (fun done => done.1.result.isOk = true) (u.readCall work) :=
  Work.Careful.map hwork fun _ h => h

/-! ## Writes -/

theorem careful_insertEntity (zone : Calendar.Zone) (t : EntityType) (m : EntityMeta)
    (entity : Json) : (insertEntity zone t m entity).Careful answer := by
  refine .bind (.ofExcept _) fun row => .bind (.askChange _) fun outcome => ?_
  split
  · exact .throw _
  · split <;> exact .pure _

theorem careful_insertAll (u : UnitOfWork) (t : EntityType) (m : EntityMeta)
    (entities : List Json) :
    Work.Careful answer (fun done => done.1.isOk = true) (insertAll u t m entities) := by
  induction entities with
  | nil => exact .pure _
  | cons entity rest ih =>
    have hassigned : ∀ assigned, Work.Careful answer (fun done => done.1.isOk = true)
        (insertAssigned u t m assigned rest) := by
      intro assigned
      refine (careful_insertEntity u.settings.zone t m assigned).followed (fun result => ?_) ?_
      · cases result with
        | error e => exact .pure _
        | ok inserted => exact Work.Careful.map ih fun _ h => h
      · intro e s h
        cases h
    rw [insertAll_cons]
    split
    · exact Work.Careful.bind (careful_freshIdentity u.node) (fun id => hassigned _)
        fun _ _ _ => trivial
    · exact hassigned entity

theorem careful_save (u : UnitOfWork) (t : EntityType) (entities : List Json) :
    Work.Careful answer (fun done => done.1.1.isOk = true) (u.save t entities) := by
  rw [save]
  split
  · exact .pure _
  · split
    · exact .pure _
    · next m _ =>
      refine (careful_insertAll u t m entities).bind (fun done => ?_) fun done s h => ?_
      · split <;> exact .pure _
      · obtain ⟨result, inserted⟩ := done
        cases result with
        | error e => exact h
        | ok _ => rfl

theorem careful_updateEntity (zone : Calendar.Zone) (t : EntityType) (m : EntityMeta)
    (entity : Json) : (updateEntity zone t m entity).Careful answer := by
  rw [updateEntity]
  split
  · exact .throw _
  · refine .bind (.ofExcept _) fun body => .bind (.ofExcept _) fun values => ?_
    split
    · exact .throw _
    · exact .bind (.askChange _) fun _ => .pure _

theorem careful_updateAll (zone : Calendar.Zone) (t : EntityType) (m : EntityMeta)
    (entities : List Json) : (updateAll zone t m entities).Careful answer := by
  induction entities with
  | nil => exact .pure _
  | cons entity rest ih => exact .bind (careful_updateEntity zone t m entity) fun _ => ih

theorem careful_update (u : UnitOfWork) (t : EntityType) (entities : List Json) :
    Work.Careful answer (fun done => done.1.isOk = true) (u.update t entities) := by
  have hattempt : Attempt.Careful answer
      (if entities.isEmpty then throw (.input (.noEntities "update"))
        else do
          let m ← Attempt.ofExcept t.checked
          updateAll u.settings.zone t m entities
          pure m) := by
    split
    · exact .throw _
    · exact .bind (.ofExcept _) fun m =>
        .bind (careful_updateAll u.settings.zone t m entities) fun _ => .pure _
  refine hattempt.followed (fun result => ?_) fun e s h => ?_
  · split <;> exact .pure _
  · cases h

theorem careful_deleteRows (t : EntityType) (entities : List Json) :
    (deleteRows t entities).Careful answer := by
  rw [deleteRows]
  split
  · exact .throw _
  · refine .bind (.ofExcept _) fun m => ?_
    simp only
    split
    · exact .throw _
    · exact .bind (.askChange _) fun _ => .pure _

theorem careful_updateRows (c : Criteria) : (updateRows c).Careful answer :=
  .bind (.ofExcept _) fun _ => .bind (.ofExcept _) fun _ => .bind (.askChange _) fun _ => .pure _

/-! ## Reads -/

theorem careful_askCount (q : Query) : (askCount q).Careful answer :=
  .bind (.askQuery q) fun _ => .ofExcept _

theorem careful_countRows (c : Criteria) : (countRows c).Careful answer :=
  .bind (.ofExcept _) fun _ => .bind (.ofExcept _) fun _ => careful_askCount _

theorem careful_rowById (zone : Calendar.Zone) (t : EntityType) (id : Int) :
    (rowById zone t id).Careful answer := by
  rw [rowById]
  split
  · exact .throw _
  · exact .bind (.ofExcept _) fun _ => .bind (.ofExcept _) fun _ => .bind (.askQuery _) fun _ =>
      .bind (.ofExcept _) fun _ => .pure _

theorem careful_paginate (dialect : Dialect) (page : Page) (q : Query) :
    (paginate dialect page q).Careful answer := by
  rw [paginate]
  split
  · exact .pure _
  · split
    · exact .throw _
    · split
      · exact .pure _
      · exact .bind (careful_askCount _) fun _ => .pure _

theorem careful_pagedRead (dialect : Dialect) (page : Page) (q : Query)
    (read : RawRows → Except Failure α) :
    Work.Careful answer (fun found => found.result.isOk = true)
      (pagedRead dialect page q read) := by
  refine (careful_paginate dialect page q).followed (fun result => ?_) fun e s h => ?_
  · cases result with
    | error e => exact .pure _
    | ok paged =>
      have hread : Attempt.Careful answer (do
          let answer ← askQuery paged.1
          Attempt.ofExcept (read answer)) := .bind (.askQuery _) fun _ => .ofExcept _
      exact Work.Careful.map hread fun _ h => h
  · cases h

theorem careful_selectEntities (settings : Settings) (t : EntityType) (c : Criteria) :
    Work.Careful answer (fun found => found.result.isOk = true) (selectEntities settings t c) := by
  rw [selectEntities]
  split
  · exact .pure _
  · exact careful_pagedRead _ _ _ _

theorem careful_selectRecords (settings : Settings) (t : EntityType) (c : Criteria) :
    Work.Careful answer (fun found => found.result.isOk = true) (selectRecords settings t c) := by
  rw [selectRecords]
  split
  · exact .pure _
  · exact careful_pagedRead _ _ _ _

/-- The first of what a careful read finds. -/
theorem careful_first {work : Work (Found (List α))}
    (h : Work.Careful answer (fun found => found.result.isOk = true) work) :
    Work.Careful answer (fun found => found.result.isOk = true)
      (work >>= fun found => pure (first found)) := by
  refine Work.Careful.map h fun found hfound => ?_
  cases hresult : found.result with
  | ok rows => rfl
  | error e =>
    rw [first, hresult] at hfound
    exact hfound

theorem careful_count (c : Criteria) :
    Work.Careful answer (fun found : Found Int => found.result.isOk = true)
      ((countRows c).run >>= fun result =>
        match result with
        | .ok n => pure ⟨.ok n, c.page.applyTotal n⟩
        | .error e => pure ⟨.error e, c.page⟩) := by
  refine (careful_countRows c).followed (fun result => ?_) fun e s h => ?_
  · split <;> exact .pure _
  · cases h

/-! ## What was written -/

/-- Whether an entity is an object. -/
def IsObject (entity : Json) : Prop := ∃ fields, entity = .obj fields

theorem bodyOf_ok {entity : Json} {body : Fields} (h : bodyOf entity = .ok body) :
    entity = .obj body := by
  cases entity with
  | obj fields => rw [Except.ok.inj h]
  | _ => cases h

theorem gives_ofExcept (r : Except Failure α) :
    Work.Gives (fun result => ∀ a, result = .ok a → r = .ok a) (Attempt.ofExcept r).run :=
  fun _ h => h

theorem gives_throw (e : Failure) (holds : α → Prop) :
    Work.Gives (fun result => ∀ a, result = .ok a → holds a) (throw e : Attempt α).run :=
  fun _ h => by cases h

theorem gives_pure {a : α} {holds : α → Prop} (h : holds a) :
    Work.Gives (fun result => ∀ b, result = .ok b → holds b) (pure a : Attempt α).run := by
  intro b hb
  cases hb
  exact h

theorem gives_any (x : Attempt α) :
    Work.Gives (fun result => ∀ a, result = .ok a → True) x.run :=
  (Work.Gives.any x.run).imp fun _ _ _ _ => trivial

theorem rowOf_isObject {zone : Calendar.Zone} {t : EntityType} {m : EntityMeta} {entity : Json}
    {row : List (String × Value)} (h : rowOf zone t m entity = .ok row) : IsObject entity := by
  cases hbody : bodyOf entity with
  | ok body => exact ⟨body, bodyOf_ok hbody⟩
  | error e => simp [rowOf, hbody, bind, Except.bind] at h

theorem isObject_withIdentity {t : EntityType} {id : Int} {entity : Json} (h : IsObject entity) :
    IsObject (t.withIdentity id entity) := by
  obtain ⟨fields, rfl⟩ := h
  exact ⟨_, rfl⟩

/-- What is inserted is an object: only objects have rows. -/
theorem gives_insertEntity (zone : Calendar.Zone) (t : EntityType) (m : EntityMeta)
    (entity : Json) :
    Work.Gives (fun result => ∀ inserted, result = .ok inserted → IsObject inserted)
      (insertEntity zone t m entity).run := by
  refine Attempt.gives_bind (gives_ofExcept _) fun row hrow => ?_
  have hobject := rowOf_isObject hrow
  refine Attempt.gives_bind (gives_any _) fun outcome _ => ?_
  split
  · exact gives_throw _ _
  · split
    · apply gives_pure
      split
      · exact isObject_withIdentity hobject
      · exact hobject
    · exact gives_pure hobject

theorem gives_insertAll (u : UnitOfWork) (t : EntityType) (m : EntityMeta) (entities : List Json) :
    Work.Gives (fun done => done.1.isOk = true → ∀ e ∈ done.2, IsObject e)
      (insertAll u t m entities) := by
  induction entities with
  | nil => exact fun _ e he => absurd he (by simp)
  | cons entity rest ih =>
    have hassigned : ∀ assigned, Work.Gives
        (fun done => done.1.isOk = true → ∀ e ∈ done.2, IsObject e)
        (insertAssigned u t m assigned rest) := by
      intro assigned
      refine (gives_insertEntity u.settings.zone t m assigned).bind fun result hresult => ?_
      cases result with
      | error e =>
        intro h
        cases h
      | ok inserted =>
        exact ih.bind fun others hothers h =>
          List.forall_mem_cons.mpr ⟨hresult inserted rfl, hothers h⟩
    rw [insertAll_cons]
    split
    · exact (Work.Gives.any (freshIdentity u.node)).bind fun id _ => hassigned _
    · exact hassigned entity

/-- What is updated is an object. -/
theorem gives_updateAll (zone : Calendar.Zone) (t : EntityType) (m : EntityMeta)
    (entities : List Json) :
    Work.Gives (fun result => ∀ _done, result = .ok _done → ∀ e ∈ entities, IsObject e)
      (updateAll zone t m entities).run := by
  induction entities with
  | nil => exact gives_pure (by simp)
  | cons entity rest ih =>
    have hfirst : Work.Gives (fun result => ∀ _done, result = .ok _done → IsObject entity)
        (updateEntity zone t m entity).run := by
      rw [updateEntity]
      split
      · exact gives_throw _ _
      · refine Attempt.gives_bind (gives_ofExcept _) fun body hbody => ?_
        have hobject : IsObject entity := by
          cases hbodyOf : bodyOf entity with
          | ok fields => exact ⟨fields, bodyOf_ok hbodyOf⟩
          | error e => simp [hbodyOf] at hbody
        refine Attempt.gives_bind (gives_any _) fun values _ => ?_
        split
        · exact gives_throw _ _
        · exact Attempt.gives_bind (gives_any _) fun _ _ => gives_pure hobject
    refine Attempt.gives_bind hfirst fun _ hentity => ?_
    exact ih.imp fun result hrest done hdone =>
      List.forall_mem_cons.mpr ⟨hentity, hrest done hdone⟩

end DualStore.Relational.UnitOfWork
