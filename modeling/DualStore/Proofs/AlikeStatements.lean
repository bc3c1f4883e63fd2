import DualStore.Proofs.AlikeConditions
import DualStore.Proofs.PlanRuns
import DualStore.Relational.UnitOfWork

/-!
# Statements that only differ in their values

Calls with criteria that only differ in their values run statements with the same texts, whatever
they are answered. No value stands in a text; it can only be found among the parameters, at the
place at which the other call has its own.

* `Query.Alike`, `Change.Alike`: statements with the same text and related parameters;
* `Work.Alike`, `Attempt.Alike`: work that runs such statements;
* `countRows_alike`, `updateRows_alike`, `selectEntities_alike`, `selectRecords_alike`: the calls;
* `texts_without_values`: clauses, updates and all calls together.
-/

namespace DualStore

open Relational

variable {R : Value → Value → Prop}

/-- Two statements with the same text, whose parameters are related place by place. -/
structure Relational.Query.Alike (R : Value → Value → Prop) (q r : Query) : Prop where
  text : q.text = r.text
  related : List.Forall₂ R q.parameters r.parameters

theorem Relational.Query.Alike.counted {q r : Query} (h : q.Alike R r) :
    (Query.counted q).Alike R (.counted r) where
  text := congrArg Dialect.countText h.text
  related := h.related

theorem Relational.Query.Alike.paged {q r : Query} (h : q.Alike R r) (page : Page) :
    (Query.paged q page).Alike R (.paged r page) where
  text := congrArg (fun sql => Dialect.limitText sql page) h.text
  related := h.related

/-! ## Work -/

/-- Whether two pieces of work run statements that are alike, whatever they are answered, and give
results that go together. -/
inductive Work.Alike (R : Value → Value → Prop) {α : Type} (same : α → α → Prop) :
    Work α → Work α → Prop
  | done {a b : α} (h : same a b) : Alike R same (.done a) (.done b)
  | query {q r : Query} {next other : Except Sql.SqlError RawRows → Work α} (h : q.Alike R r)
      (hnext : ∀ answer, Alike R same (next answer) (other answer)) :
      Alike R same (.ask (.query q) next) (.ask (.query r) other)
  | change {a b : Change} {next other : Except Sql.SqlError Outcome → Work α} (h : a.Alike R b)
      (hnext : ∀ answer, Alike R same (next answer) (other answer)) :
      Alike R same (.ask (.change a) next) (.ask (.change b) other)

theorem Work.Alike.bind {α β : Type} {same : α → α → Prop} {more : β → β → Prop} {x y : Work α}
    {f g : α → Work β} (h : Work.Alike R same x y)
    (hnext : ∀ a b, same a b → Work.Alike R more (f a) (g b)) :
    Work.Alike R more (x >>= f) (y >>= g) := by
  induction h with
  | done hab => exact hnext _ _ hab
  | query hq _ ih => exact .query hq ih
  | change hc _ ih => exact .change hc ih

/-- Whether two attempts run statements that are alike and fail together. -/
def Attempt.Alike (R : Value → Value → Prop) {α : Type} (same : α → α → Prop)
    (x y : Attempt α) : Prop := Work.Alike R (Agree same) x.run y.run

namespace Attempt.Alike

variable {α β : Type} {same : α → α → Prop} {more : β → β → Prop}

theorem bind {x y : Attempt α} {f g : α → Attempt β} (h : Attempt.Alike R same x y)
    (hnext : ∀ a b, same a b → Attempt.Alike R more (f a) (g b)) :
    Attempt.Alike R more (x >>= f) (y >>= g) := by
  apply Work.Alike.bind h
  intro a b hab
  cases hab with
  | ok hab => exact hnext _ _ hab
  | error e d => exact .done (.error e d)

theorem ofExcept {x y : Except Failure α} (h : Agree same x y) :
    Attempt.Alike R same (Attempt.ofExcept x) (Attempt.ofExcept y) := .done h

theorem lift {ε : Type} {x y : Except ε α} (h : Agree same x y) (wrap : ε → Failure) :
    Attempt.Alike R same (Attempt.lift wrap x) (Attempt.lift wrap y) :=
  ofExcept (h.mapError wrap wrap)

theorem pure {a b : α} (h : same a b) :
    Attempt.Alike R same (Pure.pure a : Attempt α) (Pure.pure b) := .done (.ok h)

theorem throw (e : Failure) :
    Attempt.Alike R same (throw e : Attempt α) (MonadExcept.throw e) := .done (.error e e)

theorem askQuery {q r : Query} (h : q.Alike R r) :
    Attempt.Alike R Eq (askQuery q) (DualStore.askQuery r) :=
  .query h fun answer => .done ((Agree.refl answer).mapError _ _)

theorem askChange {a b : Change} (h : a.Alike R b) :
    Attempt.Alike R Eq (askChange a) (DualStore.askChange b) :=
  .change h fun answer => .done ((Agree.refl answer).mapError _ _)

end Attempt.Alike

/-! ## Criteria -/

namespace Criteria.Alike

variable {c d : Criteria}

theorem target_eq (h : c.Alike R d) : d.target = c.target := by
  rw [h.others]
  rfl

theorem checkTarget_eq (h : c.Alike R d) (t : Model.EntityType) :
    d.checkTarget t = c.checkTarget t := by
  rw [h.others]
  rfl

theorem fields_eq (h : c.Alike R d) : d.fields = c.fields := by rw [h.others]

theorem distincts_eq (h : c.Alike R d) : d.distincts = c.distincts := by rw [h.others]

theorem groups_eq (h : c.Alike R d) : d.groups = c.groups := by rw [h.others]

theorem orders_eq (h : c.Alike R d) : d.orders = c.orders := by rw [h.others]

theorem origin_eq (h : c.Alike R d) : d.origin = c.origin := by rw [h.others]

theorem joins_eq (h : c.Alike R d) : d.joins = c.joins := by rw [h.others]

theorem page_eq (h : c.Alike R d) : d.page = c.page := by rw [h.others]

end Criteria.Alike

namespace Relational

variable {c d : Criteria}

namespace UnitOfWork

theorem askCount_alike {q r : Query} (h : q.Alike R r) :
    Attempt.Alike R Eq (askCount q) (askCount r) := by
  apply (Attempt.Alike.askQuery h).bind
  rintro answer _ rfl
  exact .lift (.refl _) _

/-- Counts of rows run statements that are alike. -/
theorem countRows_alike (h : c.Alike R d) :
    Attempt.Alike R Eq (countRows c) (countRows d) := by
  rw [countRows, countRows, h.target_eq]
  apply (Attempt.Alike.ofExcept (.refl _)).bind
  rintro m _ rfl
  apply (Attempt.Alike.lift (alike_predicates? h.conditions) _).bind
  intro ps qs hps
  apply askCount_alike
  exact ⟨congrArg (fun clause => "SELECT count(1) FROM " ++ m.table ++ clause) hps.text,
    hps.related⟩

/-- Updates by criteria run statements that are alike. -/
theorem updateRows_alike (h : c.Alike R d) :
    Attempt.Alike R Eq (updateRows c) (updateRows d) := by
  rw [updateRows, updateRows, h.target_eq]
  apply (Attempt.Alike.ofExcept (.refl _)).bind
  rintro m _ rfl
  apply (Attempt.Alike.lift (ofCriteria_alike h m.table) _).bind
  rintro a b ⟨hab, -, -⟩
  apply (Attempt.Alike.askChange hab).bind
  rintro outcome _ rfl
  exact .pure rfl

theorem paginate_alike {q r : Query} (h : q.Alike R r) (dialect : Dialect) (page : Page) :
    Attempt.Alike R (fun a b => a.1.Alike R b.1 ∧ a.2 = b.2) (paginate dialect page q)
      (paginate dialect page r) := by
  rw [paginate, paginate]
  split
  · exact .pure ⟨h, rfl⟩
  · split
    · exact .throw _
    · split
      · exact .pure ⟨h.paged page, rfl⟩
      · apply (askCount_alike h.counted).bind
        rintro n _ rfl
        exact .pure ⟨h.paged _, rfl⟩

/-- Results that are both errors or the same, with the same page. -/
def SameFound {α : Type} (a b : Document.Found α) : Prop :=
  Agree Eq a.result b.result ∧ a.page = b.page

theorem pagedRead_alike {α : Type} {q r : Query} (h : q.Alike R r) (dialect : Dialect) (page : Page)
    (read : RawRows → Except Failure α) :
    Work.Alike R SameFound (pagedRead dialect page q read) (pagedRead dialect page r read) := by
  apply Work.Alike.bind (paginate_alike h dialect page)
  intro a b hab
  cases hab with
  | error e e' => exact .done ⟨.error e e', rfl⟩
  | @ok a b hab =>
    obtain ⟨q, page⟩ := a
    obtain ⟨r, _⟩ := b
    obtain ⟨hquery, rfl⟩ := hab
    have hread : Attempt.Alike R Eq
        (askQuery q >>= fun answer => Attempt.ofExcept (read answer))
        (askQuery r >>= fun answer => Attempt.ofExcept (read answer)) := by
      apply (Attempt.Alike.askQuery hquery).bind
      rintro answer _ rfl
      exact .ofExcept (.refl _)
    apply Work.Alike.bind hread
    intro result other hresult
    exact .done ⟨hresult, rfl⟩

theorem selection_alike (h : c.Alike R d) (t : Model.EntityType) :
    Agree (fun a b => a.1.Alike R b.1 ∧ a.2 = b.2) (selection t c) (selection t d) := by
  rw [selection, selection, h.checkTarget_eq, h.target_eq, h.fields_eq, h.orders_eq]
  apply (Agree.refl _).bind
  rintro _ _ rfl
  apply (Agree.refl _).bind
  rintro m _ rfl
  apply (Agree.refl _).bind
  rintro projection _ rfl
  apply ((alike_predicates? h.conditions).mapError _ _).bind
  intro ps qs hps
  apply Agree.ok
  have htext := congrArg (fun clause => select projection.columns m.table ++ clause
    ++ orderBy c.orders) hps.text
  exact ⟨⟨htext, hps.related⟩, rfl⟩

/-- Reads of entities run statements that are alike. -/
theorem selectEntities_alike (h : c.Alike R d) (settings : Settings) (t : Model.EntityType) :
    Work.Alike R SameFound (selectEntities settings t c) (selectEntities settings t d) := by
  have hselection := selection_alike h t
  rw [selectEntities, selectEntities, h.page_eq]
  generalize selection t c = left at hselection ⊢
  generalize selection t d = right at hselection ⊢
  cases hselection with
  | error e e' => exact .done ⟨.error e e', rfl⟩
  | @ok a b hab =>
    obtain ⟨q, projection⟩ := a
    obtain ⟨r, _⟩ := b
    obtain ⟨hquery, rfl⟩ := hab
    exact pagedRead_alike hquery _ _ _

theorem freeSelection_alike (h : c.Alike R d) (t : Model.EntityType) :
    Agree (fun a b => a.1.Alike R b.1 ∧ a.2 = b.2) (freeSelection t c) (freeSelection t d) := by
  rw [freeSelection, freeSelection, h.fields_eq, h.origin_eq, h.distincts_eq, h.joins_eq,
    h.groups_eq, h.orders_eq]
  split
  · exact Agree.error (Failure.input .nothingSelected) (Failure.input .nothingSelected)
  · split
    · exact Agree.error (Failure.input .noTable) (Failure.input .noTable)
    · apply (Agree.refl _).bind
      rintro m _ rfl
      apply ((alike_predicates? h.conditions).mapError _ _).bind
      intro ps qs hps
      apply Agree.ok
      have htext := congrArg (fun clause => "SELECT "
        ++ (if !c.distincts.isEmpty then "DISTINCT " else "") ++ Text.joinWith ", " c.fields
        ++ tables c.origin c.joins ++ clause ++ groupBy c.groups ++ orderBy c.orders) hps.text
      exact ⟨⟨htext, hps.related⟩, rfl⟩

/-- Reads of records run statements that are alike. -/
theorem selectRecords_alike (h : c.Alike R d) (settings : Settings) (t : Model.EntityType) :
    Work.Alike R SameFound (selectRecords settings t c) (selectRecords settings t d) := by
  have hselection := freeSelection_alike h t
  rw [selectRecords, selectRecords, h.page_eq]
  generalize freeSelection t c = left at hselection ⊢
  generalize freeSelection t d = right at hselection ⊢
  cases hselection with
  | error e e' => exact .done ⟨.error e e', rfl⟩
  | @ok a b hab =>
    obtain ⟨q, m⟩ := a
    obtain ⟨r, _⟩ := b
    obtain ⟨hquery, rfl⟩ := hab
    exact pagedRead_alike hquery _ _ _

end UnitOfWork

/-! ## All of them -/

open UnitOfWork

/-- What becomes of two criteria whose values do not reach a text: both are refused, or what is run
for them only differs in its parameters, among which each has its own values at the same places. -/
structure TextsAgree (R : Value → Value → Prop) (c d : Criteria) : Prop where
  /-- The condition part, behind parameters that were bound before. -/
  clauses : ∀ bound bound', List.Forall₂ R bound bound' →
    Agree (fun a b : String × List Value => a.1 = b.1
        ∧ a.2 = bound ++ Condition.allValues c.conditions
        ∧ b.2 = bound' ++ Condition.allValues d.conditions
        ∧ List.Forall₂ R a.2 b.2)
      (clause bound c.conditions) (clause bound' d.conditions)
  /-- The update of the rows of a table. -/
  updates : ∀ table,
    Agree (fun a b : Change => a.Alike R b
        ∧ a.parameters = c.assignments.map Prod.snd ++ Condition.allValues c.conditions
        ∧ b.parameters = d.assignments.map Prod.snd ++ Condition.allValues d.conditions)
      (Change.ofCriteria table c) (Change.ofCriteria table d)
  /-- The calls of a unit of work, whatever their statements are answered. -/
  updateRows : Attempt.Alike R Eq (updateRows c) (updateRows d)
  countRows : Attempt.Alike R Eq (countRows c) (countRows d)
  selectEntities : ∀ settings t,
    Work.Alike R SameFound (selectEntities settings t c) (selectEntities settings t d)
  selectRecords : ∀ settings t,
    Work.Alike R SameFound (selectRecords settings t c) (selectRecords settings t d)

/-- **No value reaches the text of a statement.** Two criteria that agree on everything but the
values in their conditions and assignments are both refused, or everything that is run for them has
the same texts, and their values stand at the same places among the parameters. -/
theorem texts_without_values (h : c.Alike R d) : TextsAgree R c d where
  clauses := fun _ _ hbound => clause_alike h.conditions hbound
  updates := ofCriteria_alike h
  updateRows := updateRows_alike h
  countRows := countRows_alike h
  selectEntities := selectEntities_alike h
  selectRecords := selectRecords_alike h

def harmless : Criteria :=
  { conditions := [.on .eq "name" (.one (.text "Ali")),
      .group .or "" [[.on .isIn "id" (.many [.integer 1, .integer 2])],
        [.on .between "age" (.range (.integer 0) (.integer 9)), .on .isNull "email" .none]] []]
    assignments := [("name", .text "Bob")]
    page := .byNumber 2 10 }

/-- The same with values that look like statements. -/
def hostile : Criteria :=
  { harmless with
    conditions := [.on .eq "name" (.one (.text "' OR 1=1 --")),
      .group .or "" [[.on .isIn "id" (.many [.text "1); DROP TABLE users", .list []])],
        [.on .between "age" (.range .null (.text "?")), .on .isNull "email" .none]] []]
    assignments := [("name", .text "', admin = '1")] }

theorem texts_without_values_hostile :
    harmless.Alike (fun _ _ => True) hostile ∧ TextsAgree (fun _ _ => True) harmless hostile := by
  have halike : harmless.Alike (fun _ _ => True) hostile := by
    constructor
    · exact ⟨⟨rfl, rfl, trivial⟩,
        ⟨rfl, rfl, ⟨⟨rfl, rfl, .cons trivial (.cons trivial .nil)⟩, trivial⟩,
          ⟨⟨rfl, rfl, trivial, trivial⟩, ⟨rfl, rfl, trivial⟩, trivial⟩, trivial⟩, trivial⟩
    · exact .cons ⟨rfl, trivial⟩ .nil
    · rfl
  exact ⟨halike, texts_without_values halike⟩

end Relational

end DualStore
