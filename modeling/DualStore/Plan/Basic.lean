/-!
# Plans

A plan is a computation that asks questions: it is finished, or it puts a question and goes on when
it has the answer. Who answers is left open, so one plan can be run against different stores, and
the questions of several plans can be mixed.

* `Interface`: the questions and the types of their answers;
* `Plan`, `Plan.bind`: the computations and their sequence;
* `Plan.run`: a plan run against answers that depend on a state;
* `Plan.runIn`: a plan run in a monad;
* `run_bind`: a sequence is run one part after the other.
-/

namespace DualStore

/-- The questions that can be asked, each with the type of its answer. -/
structure Interface where
  Question : Type
  Answer : Question → Type

/-- A computation that asks questions. -/
inductive Plan (I : Interface) (α : Type) where
  | done (a : α)
  | ask (question : I.Question) (next : I.Answer question → Plan I α)

namespace Plan

variable {I : Interface} {α β σ : Type}

def bind : Plan I α → (α → Plan I β) → Plan I β
  | .done a, f => f a
  | .ask question next, f => .ask question fun answer => (next answer).bind f

instance : Monad (Plan I) where
  pure := .done
  bind := bind

def question (q : I.Question) : Plan I (I.Answer q) := .ask q .done

/-- Runs a plan; `answer` gives the answer to a question in a state, and the state after it. -/
def run (answer : (q : I.Question) → σ → I.Answer q × σ) : Plan I α → σ → α × σ
  | .done a, s => (a, s)
  | .ask q next, s => (next (answer q s).1).run answer (answer q s).2

/-- Runs a plan in a monad in which its questions are answered. -/
def runIn {m : Type → Type} [Monad m] (answer : (q : I.Question) → m (I.Answer q)) : Plan I α → m α
  | .done a => pure a
  | .ask q next => do
    let a ← answer q
    (next a).runIn answer

@[simp] theorem run_done (answer : (q : I.Question) → σ → I.Answer q × σ) (a : α) (s : σ) :
    (Plan.done a).run answer s = (a, s) := rfl

theorem run_bind (answer : (q : I.Question) → σ → I.Answer q × σ) (p : Plan I α) (f : α → Plan I β)
    (s : σ) : (p.bind f).run answer s = (f (p.run answer s).1).run answer (p.run answer s).2 := by
  induction p generalizing s with
  | done a => rfl
  | ask q next ih => exact ih (answer q s).1 (answer q s).2

end Plan

end DualStore
