import DualStore.Plan.Request

/-!
# Runs of attempts

A plan is run against answers that depend on a state. A run of an attempt that succeeds is taken
apart into the runs of its steps, each of which succeeds, and a single request is what the answers
say.

* `Work.runWith`, `Attempt.runWith`: the run of a plan, and of an attempt;
* `runWith_bind_ok`, `runWith_bind_of_ok`: one step after the other;
* `runWith_throw`, `runWith_ofExcept`, `runWith_lift_ok`, `runWith_askChange`, `runWith_askQuery`:
  single steps.
-/

namespace DualStore

variable {α β σ : Type} {answer : (r : Request) → σ → r.Answer × σ}

@[simp] theorem mapError_ok {ε δ : Type} (wrap : ε → δ) (a : α) :
    (Except.ok a).mapError wrap = .ok a := rfl

@[simp] theorem mapError_error {ε δ : Type} (wrap : ε → δ) (e : ε) :
    (Except.error e : Except ε α).mapError wrap = .error (wrap e) := rfl

theorem mapError_eq_ok {ε δ : Type} {wrap : ε → δ} {x : Except ε α} {a : α} :
    x.mapError wrap = .ok a ↔ x = .ok a := by
  cases x <;> simp

/-- A step of a calculation that gives a result has given one itself. -/
theorem bind_eq_ok {ε : Type} {x : Except ε α} {f : α → Except ε β} {b : β}
    (h : x >>= f = .ok b) : ∃ a, x = .ok a ∧ f a = .ok b := by
  cases x with
  | error e => cases h
  | ok a => exact ⟨a, rfl, h⟩

/-- Runs a plan over requests; `answer` gives the answer to a request in a state, and the state
after it. -/
def Work.runWith (answer : (r : Request) → σ → r.Answer × σ) (p : Work α) (s : σ) : α × σ :=
  Plan.run (I := requests) answer p s

def Attempt.runWith (answer : (r : Request) → σ → r.Answer × σ) (x : Attempt α) (s : σ) :
    Except Failure α × σ :=
  Work.runWith answer x.run s

namespace Work

/-- A sequence of two plans is run one part after the other. -/
theorem runWith_bind (p : Work α) (f : α → Work β) (s : σ) :
    runWith answer (p >>= f) s = runWith answer (f (runWith answer p s).1) (runWith answer p s).2 :=
  Plan.run_bind (I := requests) answer p f s

end Work

namespace Attempt

theorem runWith_throw (e : Failure) (s : σ) :
    runWith answer (throw e : Attempt α) s = (.error e, s) := rfl

theorem runWith_ofExcept (r : Except Failure α) (s : σ) :
    runWith answer (Attempt.ofExcept r) s = (r, s) := rfl

theorem runWith_bind (x : Attempt α) (f : α → Attempt β) (s : σ) :
    runWith answer (x >>= f) s =
      match runWith answer x s with
      | (.ok a, s) => runWith answer (f a) s
      | (.error e, s) => (.error e, s) := by
  have hbind : runWith answer (x >>= f) s
      = Work.runWith answer (ExceptT.bindCont f (runWith answer x s).1) (runWith answer x s).2 :=
    Work.runWith_bind x.run (ExceptT.bindCont f) s
  rw [hbind]
  obtain ⟨result, after⟩ := runWith answer x s
  cases result <;> rfl

/-- A run of two steps that succeeds is a run of the first that succeeds, and a run of the second
behind it. -/
theorem runWith_bind_ok {x : Attempt α} {f : α → Attempt β} {s after : σ} {b : β}
    (h : runWith answer (x >>= f) s = (.ok b, after)) :
    ∃ a between, runWith answer x s = (.ok a, between) ∧
      runWith answer (f a) between = (.ok b, after) := by
  rw [runWith_bind] at h
  cases hx : runWith answer x s with
  | mk result between =>
    rw [hx] at h
    cases result with
    | ok a => exact ⟨a, between, rfl, h⟩
    | error e => simp at h

/-- A composition that fails has failed in its first part, or behind it. -/
theorem runWith_bind_error {x : Attempt α} {f : α → Attempt β} {s after : σ} {e : Failure}
    (h : runWith answer (x >>= f) s = (.error e, after)) :
    runWith answer x s = (.error e, after) ∨ ∃ a between, runWith answer x s = (.ok a, between) ∧
      runWith answer (f a) between = (.error e, after) := by
  rw [runWith_bind] at h
  cases hx : runWith answer x s with
  | mk result between =>
    rw [hx] at h
    cases result with
    | ok a => exact .inr ⟨a, between, rfl, h⟩
    | error e => exact .inl (by simpa using h)

theorem runWith_bind_of_ok {x : Attempt α} {f : α → Attempt β} {s between : σ} {a : α}
    (h : runWith answer x s = (.ok a, between)) :
    runWith answer (x >>= f) s = runWith answer (f a) between := by
  rw [runWith_bind, h]

theorem mapError_fst_eq_ok {ε : Type} {wrap : ε → Failure} {given : Except ε α × σ} {a : α}
    {after : σ} : (given.1.mapError wrap, given.2) = (.ok a, after) ↔ given = (.ok a, after) := by
  obtain ⟨result, state⟩ := given
  cases result <;> simp

/-- A result that is taken over succeeds with its value and asks nothing. -/
theorem runWith_lift_ok {ε : Type} {wrap : ε → Failure} {result : Except ε α} {s after : σ} {a : α}
    (h : runWith answer (Attempt.lift wrap result) s = (.ok a, after)) :
    result = .ok a ∧ s = after := by
  obtain ⟨hresult, hstate⟩ := Prod.mk.inj h
  exact ⟨mapError_eq_ok.mp hresult, hstate⟩

/-- A statement that changes rows succeeds with the outcome that the answer has. -/
theorem runWith_askChange {c : Relational.Change} {s after : σ} {outcome : Relational.Outcome} :
    runWith answer (askChange c) s = (.ok outcome, after) ↔
      answer (.change c) s = ((.ok outcome : Except Sql.SqlError Relational.Outcome), after) :=
  mapError_fst_eq_ok

/-- A statement that reads succeeds with the rows that the answer has. -/
theorem runWith_askQuery {q : Relational.Query} {s after : σ} {rows : Relational.RawRows} :
    runWith answer (askQuery q) s = (.ok rows, after) ↔
      answer (.query q) s = ((.ok rows : Except Sql.SqlError Relational.RawRows), after) :=
  mapError_fst_eq_ok

end Attempt

end DualStore
