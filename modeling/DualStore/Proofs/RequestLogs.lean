import DualStore.Proofs.PlanRuns

/-!
# Logs of runs

What a run asks for and what it is answered, in order. The calls of a unit of work only run
statements and draw identities, and one of them that succeeds has had none of its changes refused.

* `Exchange`, `Work.log`, `Work.log_bind`: requests with their answers, and those of a run;
* `changesIn`, `transactionRequests`: the changes in a log, and what begins and ends transactions;
* `Work.Asks`, `Work.Gives`: what work asks for and what it gives, whatever it is answered;
* `Work.Asks.view_eq`: what the requests of some work leave as it is;
* `Work.Careful`, `Attempt.Careful`: work that only runs statements and heeds what is refused.
-/

namespace DualStore

/-- A request with the answer to it. -/
structure Exchange where
  request : Request
  answer : request.Answer

/-- Whether a request runs a statement or draws an identity. -/
def Request.isStatement : Request → Bool
  | .identity _ => true
  | .query _ => true
  | .change _ => true
  | _ => false

/-- Whether a request begins or ends a transaction. -/
def Request.isTransactional : Request → Bool
  | .begin => true
  | .commit => true
  | .rollback => true
  | _ => false

/-- Whether a request is made to the document store. -/
def Request.isDocumental : Request → Bool
  | .openDocuments => true
  | .documents _ => true
  | _ => false

/-- Whether a change, if it is one, was carried out. -/
def Exchange.IsCarried : Exchange → Prop
  | ⟨.change _, answer⟩ =>
    ∃ outcome, answer = (.ok outcome : Except Sql.SqlError Relational.Outcome)
  | _ => True

/-- The changes in a log, in order. -/
def changesIn (log : List Exchange) : List Relational.Change :=
  log.filterMap fun e =>
    match e.request with
    | .change c => some c
    | _ => none

/-- The requests in a log that begin or end a transaction, in order. -/
def transactionRequests (log : List Exchange) : List Request :=
  (log.map Exchange.request).filter Request.isTransactional

theorem changesIn_append (log more : List Exchange) :
    changesIn (log ++ more) = changesIn log ++ changesIn more :=
  List.filterMap_append

theorem transactionRequests_append (log more : List Exchange) :
    transactionRequests (log ++ more) = transactionRequests log ++ transactionRequests more := by
  rw [transactionRequests, List.map_append, List.filter_append]
  rfl

theorem transactionRequests_eq_nil {log : List Exchange}
    (h : ∀ e ∈ log, e.request.isTransactional = false) : transactionRequests log = [] := by
  rw [transactionRequests, List.filter_eq_nil_iff, List.forall_mem_map]
  intro e he
  rw [h e he]
  exact Bool.false_ne_true

variable {α β σ : Type} {answer : (r : Request) → σ → r.Answer × σ}

/-! ## Logs -/

/-- The requests of a run with their answers. -/
def Work.log (answer : (r : Request) → σ → r.Answer × σ) : Work α → σ → List Exchange
  | .done _, _ => []
  | .ask q next, s =>
    ⟨q, (answer q s).1⟩ :: Work.log answer (next (answer q s).1) (answer q s).2

theorem Work.log_bind (p : Work α) (f : α → Work β) (s : σ) :
    Work.log answer (p >>= f) s
      = Work.log answer p s
        ++ Work.log answer (f (Work.runWith answer p s).1) (Work.runWith answer p s).2 := by
  induction p generalizing s with
  | done a => rfl
  | ask q next ih => exact congrArg _ (ih (answer q s).1 (answer q s).2)

/-! ## Work that only asks for some requests -/

/-- Whether a run of work only makes requests of a kind, whatever it is answered. -/
def Work.Asks (kind : Request → Prop) : Work α → Prop
  | .done _ => True
  | .ask q next => kind q ∧ ∀ a, Work.Asks kind (next a)

namespace Work.Asks

variable {kind : Request → Prop}

theorem bind {p : Work α} {f : α → Work β} (hp : p.Asks kind) (hf : ∀ a, (f a).Asks kind) :
    Work.Asks kind (p >>= f) := by
  induction p with
  | done a => exact hf a
  | ask q next ih => exact ⟨hp.1, fun a => ih a (hp.2 a)⟩

theorem imp {p : Work α} {other : Request → Prop} (h : p.Asks kind)
    (himp : ∀ r, kind r → other r) : p.Asks other := by
  induction p with
  | done a => trivial
  | ask q next ih => exact ⟨himp q h.1, fun a => ih a (h.2 a)⟩

theorem log {p : Work α} (h : p.Asks kind) (s : σ) : ∀ e ∈ Work.log answer p s, kind e.request := by
  induction p generalizing s with
  | done a => simp [Work.log]
  | ask q next ih => exact List.forall_mem_cons.mpr ⟨h.1, ih _ (h.2 _) _⟩

/-- What no request of some work changes is as before behind its run. -/
theorem view_eq {V : Type} (view : σ → V) {p : Work α}
    (h : p.Asks fun r => ∀ s, view (answer r s).2 = view s) (s : σ) :
    view (p.runWith answer s).2 = view s := by
  induction p generalizing s with
  | done a => rfl
  | ask q next ih => exact (ih _ (h.2 _) _).trans (h.1 s)

/-- An attempt goes on only behind a step that succeeds. -/
theorem attempt {x : Attempt α} {f : α → Attempt β} (hx : Work.Asks kind x.run)
    (hf : ∀ a, Work.Asks kind (f a).run) : Work.Asks kind (x >>= f).run := by
  refine Work.Asks.bind hx fun result => ?_
  cases result with
  | ok a => exact hf a
  | error e => trivial

end Work.Asks

/-! ## What work gives -/

/-- Whether all that work gives has a property, whatever it is answered. -/
def Work.Gives (holds : α → Prop) : Work α → Prop
  | .done a => holds a
  | .ask _ next => ∀ a, Work.Gives holds (next a)

namespace Work.Gives

variable {holds : α → Prop} {holds' : β → Prop}

theorem bind {p : Work α} {f : α → Work β} (hp : p.Gives holds)
    (hf : ∀ a, holds a → (f a).Gives holds') : Work.Gives holds' (p >>= f) := by
  induction p with
  | done a => exact hf a hp
  | ask q next ih => exact fun a => ih a (hp a)

theorem imp {p : Work α} {other : α → Prop} (h : p.Gives holds) (himp : ∀ a, holds a → other a) :
    p.Gives other := by
  induction p with
  | done a => exact himp a h
  | ask q next ih => exact fun a => ih a (h a)

theorem any (p : Work α) : p.Gives fun _ => True := by
  induction p with
  | done a => trivial
  | ask q next ih => exact ih

theorem run {p : Work α} (h : p.Gives holds) (s : σ) : holds (p.runWith answer s).1 := by
  induction p generalizing s with
  | done a => exact h
  | ask q next ih => exact ih _ (h _) _

end Work.Gives

/-- What an attempt gives behind a step, if it succeeds. -/
theorem Attempt.gives_bind {x : Attempt α} {f : α → Attempt β} {holds : α → Prop}
    {holds' : β → Prop} (hx : Work.Gives (fun r => ∀ a, r = .ok a → holds a) x.run)
    (hf : ∀ a, holds a → Work.Gives (fun r => ∀ b, r = .ok b → holds' b) (f a).run) :
    Work.Gives (fun r => ∀ b, r = .ok b → holds' b) (x >>= f).run := by
  refine Work.Gives.bind hx fun result hresult => ?_
  cases result with
  | ok a => exact hf a (hresult a rfl)
  | error e =>
    intro b hb
    cases hb

/-! ## Careful work -/

/-- Work that only runs statements and draws identities, and that does not succeed if one of its
changes was refused. -/
structure Work.Careful (answer : (r : Request) → σ → r.Answer × σ) (succeeds : α → Prop)
    (p : Work α) : Prop where
  asks : p.Asks fun r => r.isStatement = true
  carried : ∀ s, succeeds (p.runWith answer s).1 → ∀ e ∈ p.log answer s, e.IsCarried

/-- An attempt that is careful. -/
abbrev Attempt.Careful (answer : (r : Request) → σ → r.Answer × σ) (x : Attempt α) : Prop :=
  Work.Careful answer (fun result => result.isOk = true) x.run

namespace Work.Careful

variable {succeeds : α → Prop} {succeeds' : β → Prop}

theorem pure (a : α) : Work.Careful answer succeeds (Pure.pure a : Work α) where
  asks := trivial
  carried := by simp [Work.log, Pure.pure]

/-- Two steps are careful if the second cannot succeed behind a first that did not. -/
theorem bind {p : Work α} {f : α → Work β} (hp : p.Careful answer succeeds)
    (hf : ∀ a, (f a).Careful answer succeeds')
    (hfirst : ∀ a s, succeeds' ((f a).runWith answer s).1 → succeeds a) :
    Work.Careful answer succeeds' (p >>= f) where
  asks := hp.asks.bind fun a => (hf a).asks
  carried := by
    intro s hs e he
    rw [Work.runWith_bind] at hs
    rw [Work.log_bind, List.mem_append] at he
    rcases he with he | he
    · exact hp.carried s (hfirst _ _ hs) e he
    · exact (hf _).carried _ hs e he

/-- What work gives may be put in another form. -/
theorem map {p : Work α} (hp : p.Careful answer succeeds) {f : α → β}
    (hf : ∀ a, succeeds' (f a) → succeeds a) :
    Work.Careful answer succeeds' (p >>= fun a => Pure.pure (f a)) :=
  hp.bind (fun a => .pure (f a)) fun a _ => hf a

end Work.Careful

namespace Attempt.Careful

theorem ofExcept (r : Except Failure α) : (Attempt.ofExcept r).Careful answer := .pure r

theorem pure (a : α) : Attempt.Careful answer (Pure.pure a : Attempt α) := Work.Careful.pure _

theorem throw (e : Failure) : Attempt.Careful answer (MonadExcept.throw e : Attempt α) :=
  Work.Careful.pure _

theorem bind {x : Attempt α} {f : α → Attempt β} (hx : x.Careful answer)
    (hf : ∀ a, (f a).Careful answer) : Attempt.Careful answer (x >>= f) := by
  refine Work.Careful.bind hx (fun result => ?_) fun result s h => ?_
  · cases result with
    | ok a => exact hf a
    | error e => exact .pure _
  · cases result with
    | ok a => rfl
    | error e => exact h

/-- An attempt whose failure is told further is as careful as what comes behind it. -/
theorem followed {x : Attempt α} (hx : x.Careful answer) {succeeds : β → Prop}
    {f : Except Failure α → Work β} (hf : ∀ result, (f result).Careful answer succeeds)
    (hfails : ∀ e s, ¬ succeeds ((f (.error e)).runWith answer s).1) :
    Work.Careful answer succeeds (x.run >>= f) := by
  refine Work.Careful.bind hx hf fun result s h => ?_
  cases result with
  | ok a => rfl
  | error e => exact absurd h (hfails e s)

theorem askQuery (q : Relational.Query) : (askQuery q).Careful answer where
  asks := ⟨rfl, fun _ => trivial⟩
  carried := by
    intro s _ e he
    rw [List.mem_singleton.mp he]
    trivial

/-- A change that is refused is a failure. -/
theorem askChange (c : Relational.Change) : (askChange c).Careful answer where
  asks := ⟨rfl, fun _ => trivial⟩
  carried := by
    intro s hs e he
    rw [List.mem_singleton.mp he]
    have hok : (Except.mapError Failure.database
        (answer (.change c) s).1 : Except Failure Relational.Outcome).isOk = true := hs
    cases hanswer : (show Except Sql.SqlError Relational.Outcome from (answer (.change c) s).1) with
    | ok outcome => exact ⟨outcome, hanswer⟩
    | error e =>
      change (answer (.change c) s).1 = (.error e : Except Sql.SqlError Relational.Outcome)
        at hanswer
      rw [hanswer] at hok
      exact absurd hok (by simp [Except.isOk, Except.toBool])

end Attempt.Careful

theorem careful_freshIdentity (node : Int) :
    Work.Careful answer (fun _ => True) (freshIdentity node) where
  asks := ⟨rfl, fun _ => trivial⟩
  carried := by
    intro s _ e he
    rw [List.mem_singleton.mp he]
    trivial

end DualStore
