import DualStore.Plan.Basic

/-!
# Interleaved plans

Two plans that are run at the same time against one state. Each question is answered at once; which
of the plans asks next is open.

* `Plan.Interleaved`: what such a run leaves;
* `Interleaved.invariant`: what every question keeps holds at the end, by induction on the run;
* `Interleaved.inOrder`: one plan after the other is such a run.
-/

namespace DualStore.Plan

variable {I : Interface} {α β σ : Type}
  {first second : (q : I.Question) → σ → I.Answer q × σ}

/-- The runs of two plans at the same time, with the results of both and the state at the end;
`first` and `second` answer their questions. -/
inductive Interleaved (first second : (q : I.Question) → σ → I.Answer q × σ) :
    Plan I α → Plan I β → σ → α × β → σ → Prop
  | done (a : α) (b : β) (s : σ) : Interleaved first second (.done a) (.done b) s (a, b) s
  | first {q : I.Question} {next : I.Answer q → Plan I α} {other : Plan I β} {s after : σ}
      {results : α × β}
      (rest : Interleaved first second (next (first q s).1) other (first q s).2 results after) :
      Interleaved first second (.ask q next) other s results after
  | second {q : I.Question} {next : I.Answer q → Plan I β} {other : Plan I α} {s after : σ}
      {results : α × β}
      (rest : Interleaved first second other (next (second q s).1) (second q s).2 results after) :
      Interleaved first second other (.ask q next) s results after

namespace Interleaved

/-- What each question of either plan keeps holds of the finished plans, by induction on the run. -/
theorem invariant (Holds : Plan I α → Plan I β → σ → Prop)
    (hfirst : ∀ q next other s, Holds (.ask q next) other s →
      Holds (next (first q s).1) other (first q s).2)
    (hsecond : ∀ q next other s, Holds other (.ask q next) s →
      Holds other (next (second q s).1) (second q s).2)
    {p : Plan I α} {p' : Plan I β} {s after : σ} {results : α × β}
    (h : Interleaved first second p p' s results after) (hholds : Holds p p' s) :
    Holds (.done results.1) (.done results.2) after := by
  induction h with
  | done a b s => exact hholds
  | first _ ih => exact ih (hfirst _ _ _ _ hholds)
  | second _ ih => exact ih (hsecond _ _ _ _ hholds)

/-- The second plan may be run when the first one is finished. -/
theorem inOrder (p : Plan I α) (p' : Plan I β) (s : σ) :
    Interleaved first second p p' s
      ((p.run first s).1, (p'.run second (p.run first s).2).1)
      (p'.run second (p.run first s).2).2 := by
  induction p generalizing s with
  | ask q next ih => exact .first (ih _ _)
  | done a =>
    induction p' generalizing s with
    | done b => exact .done a b s
    | ask q next ih => exact .second (ih _ _)

end Interleaved

end DualStore.Plan
