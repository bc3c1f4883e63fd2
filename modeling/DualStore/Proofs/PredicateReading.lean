import DualStore.Proofs.ExprReading

/-!
# Reading predicates back

The tokens of a predicate, its values in place, are read as one expression: the tests of its keys,
joined as the structure of the predicate says. A conjunction inside a disjunction stands in
parentheses unless it is a single test or a disjunction itself, so no `and` and no `or` is read with
the wrong neighbours; the `and` inside `between` belongs to the test.

* `Predicate.expr`: the expression;
* `Predicate.depth`: how many levels of parentheses its tokens have;
* `Predicate.readsPart_tokens`: a predicate inside others is read as its expression;
* `Predicate.readExpression_tokens`: so is a conjunction of predicates.
-/

namespace DualStore.Relational

open Sql

namespace Predicate

mutual

def expr : Predicate → Expr ColumnName
  | .test key t => t.expr (keyExpr key)
  | .any branches => chain .or (branchExprs branches)

def exprs : List Predicate → List (Expr ColumnName)
  | [] => []
  | p :: rest => expr p :: exprs rest

def branchExprs : List (List Predicate) → List (Expr ColumnName)
  | [] => []
  | branch :: rest => chain .and (exprs branch) :: branchExprs rest

end

mutual

/-- The levels of parentheses in the text of a predicate, one more for the lists of a test. -/
def depth : Predicate → Nat
  | .test _ _ => 1
  | .any branches => depthOfBranches branches + 1

def depthOfAll : List Predicate → Nat
  | [] => 0
  | p :: rest => max (depth p) (depthOfAll rest)

def depthOfBranches : List (List Predicate) → Nat
  | [] => 0
  | branch :: rest => max (depthOfAll branch + 1) (depthOfBranches rest)

end

theorem tokensOfAll_eq_map (slot : Value → Token) (ps : List Predicate) :
    tokensOfAll slot ps = ps.map (tokens slot) := by
  induction ps with
  | nil => rfl
  | cons p ps ih => simp [tokensOfAll, ih]

theorem tokensOfBranches_eq_map (slot : Value → Token) (branches : List (List Predicate)) :
    tokensOfBranches slot branches
      = branches.map fun branch => branchTokens (tokensOfAll slot branch) := by
  induction branches with
  | nil => rfl
  | cons branch branches ih => simp [tokensOfBranches, ih]

theorem exprs_eq_map (ps : List Predicate) : exprs ps = ps.map expr := by
  induction ps with
  | nil => rfl
  | cons p ps ih => simp [exprs, ih]

theorem branchExprs_eq_map (branches : List (List Predicate)) :
    branchExprs branches = branches.map fun branch => chain .and (exprs branch) := by
  induction branches with
  | nil => rfl
  | cons branch branches ih => simp [branchExprs, ih]

/-- Inside parentheses, one level is enough for single values. -/
theorem readsValues_readExpr (levels : Nat) : ReadsValues (readExpr (levels + 1)) := by
  intro t d rest ht hrest
  obtain ⟨s, more, rfl, hs⟩ := hrest
  have hpart : ReadsPart (readExpr levels) [t] (.value d) := by
    intro rest hr
    cases t <;> simp only [Token.datum?, Option.some.injEq, reduceCtorEq] at ht
    all_goals
      subst ht
      exact ⟨rfl, readComparison_operand rfl hr⟩
  have hends : EndsDisjunction (.mark s :: more) := by
    rcases hs with rfl | rfl
    · refine ⟨⟨?_, ?_⟩, ?_⟩ <;> (intro t ht; simp at ht; rw [← ht]; rfl)
    · exact endsDisjunction_closing more
  have hone : [()] ≠ [] := by simp
  exact readOr_conjunction (fun _ => [t]) (fun _ => .value d) hone (fun _ _ => hpart) hends

theorem readsPart_branch {branch : List Predicate} (hne : branch ≠ []) {levels : Nat}
    (h : ∀ p ∈ branch, ReadsPart (readExpr levels) (p.tokens bound) p.expr)
    (h' : ∀ p ∈ branch, ReadsPart (readExpr (levels + 1)) (p.tokens bound) p.expr) :
    ReadsPart (readExpr (levels + 1)) (branchTokens (tokensOfAll bound branch))
      (chain .and (exprs branch)) := by
  cases branch with
  | nil => exact absurd rfl hne
  | cons p branch =>
    cases branch with
    | nil => exact h' p (by simp)
    | cons q branch =>
      have hread : ∀ rest, EndsDisjunction rest → readExpr (levels + 1)
          (separated (.word "and") ((p :: q :: branch).map (tokens bound)) ++ rest)
          = some (chain .and ((p :: q :: branch).map expr), rest) :=
        fun rest hr => readOr_conjunction (tokens bound) expr hne h hr
      rw [tokensOfAll_eq_map, exprs_eq_map]
      exact readsPart_parens hread

mutual

/-- A predicate is read as its expression, given as many levels as it has. -/
theorem readsPart_tokens : ∀ p : Predicate, p.IsRegular → ∀ levels, p.depth ≤ levels →
    ReadsPart (readExpr levels) (p.tokens bound) p.expr
  | .test key t, hp, levels, hl => by
    intro rest hr
    cases levels with
    | zero => simp [depth] at hl
    | succ levels =>
      have hnot : (Token.word key).isWord "not" = false := by
        have hk := hp.1
        simp [isPlain, grammarWords] at hk
        simp [Token.isWord, hk]
      exact ⟨by simp [tokens, afterWord, hnot],
        readComparison_test (readsValues_readExpr levels) hp.1 hp.2 rest⟩
  | .any branches, hp, levels, hl => by
    cases levels with
    | zero => simp [depth] at hl
    | succ levels =>
      have hl : depthOfBranches branches ≤ levels := by simpa [depth] using hl
      apply readsPart_parens
      intro rest hr
      rw [tokensOfBranches_eq_map, expr, branchExprs_eq_map]
      refine readOr_parts (fun branch => branchTokens (tokensOfAll bound branch))
        (fun branch => chain .and (exprs branch)) hp.1 (fun branch hbranch more hmore => ?_) hr
      have hone : [()] ≠ [] := by simp
      exact readAnd_parts (fun _ => branchTokens (tokensOfAll bound branch))
        (fun _ => chain .and (exprs branch)) hone
        (fun _ _ => readsPart_branches branches hp.2 levels hl branch hbranch) hmore

theorem readsPart_all : ∀ ps : List Predicate, AreRegular ps → ∀ levels, depthOfAll ps ≤ levels →
    ∀ p ∈ ps, ReadsPart (readExpr levels) (p.tokens bound) p.expr
  | [], _, _, _ => by simp
  | p :: rest, h, levels, hl => by
    intro q hq
    have hl' : depth p ≤ levels ∧ depthOfAll rest ≤ levels := by
      simpa only [depthOfAll, Nat.max_le] using hl
    rcases List.mem_cons.mp hq with e | hq
    · rw [e]
      exact readsPart_tokens p h.1 levels hl'.1
    · exact readsPart_all rest h.2 levels hl'.2 q hq

theorem readsPart_branches : ∀ branches : List (List Predicate), AreRegularBranches branches →
    ∀ levels, depthOfBranches branches ≤ levels → ∀ branch ∈ branches,
      ReadsPart (readExpr levels) (branchTokens (tokensOfAll bound branch))
        (chain .and (exprs branch))
  | [], _, _, _ => by simp
  | branch :: rest, h, levels, hl => by
    intro other hother
    have hl' : depthOfAll branch + 1 ≤ levels ∧ depthOfBranches rest ≤ levels := by
      simpa only [depthOfBranches, Nat.max_le] using hl
    rcases List.mem_cons.mp hother with e | hother
    · rw [e]
      cases levels with
      | zero => omega
      | succ levels =>
        exact readsPart_branch h.1.1
          (readsPart_all branch h.1.2 levels (by omega))
          (readsPart_all branch h.1.2 (levels + 1) (by omega))
    · exact readsPart_branches rest h.2 levels hl'.2 other hother

end

theorem length_le_branchTokens (parts : List (List Token)) :
    (separated (.word "and") parts).length ≤ (branchTokens parts).length := by
  unfold branchTokens
  split
  · exact Nat.le_refl _
  · simp only [List.length_append, List.length_cons, List.length_nil]
    omega

mutual

theorem depth_le_length : ∀ p : Predicate, p.depth ≤ (p.tokens bound).length
  | .test key t => by simp [depth, tokens]
  | .any branches => by
    have h := depthOfBranches_le_length branches
    simp only [depth, tokens, List.length_append, List.length_cons, List.length_nil]
    omega

theorem depthOfAll_le_length : ∀ ps : List Predicate,
    depthOfAll ps ≤ (separated (.word "and") (tokensOfAll bound ps)).length
  | [] => by simp [depthOfAll]
  | [p] => by
    have h := depth_le_length p
    simpa [depthOfAll, tokensOfAll, separated] using h
  | p :: q :: rest => by
    have hp := depth_le_length p
    have h := depthOfAll_le_length (q :: rest)
    rw [depthOfAll, tokensOfAll]
    rw [tokensOfAll] at h ⊢
    simp only [separated, List.length_append, List.length_cons]
    omega

theorem depthOfBranches_le_length : ∀ branches : List (List Predicate),
    depthOfBranches branches
      ≤ (separated (.word "or") (tokensOfBranches bound branches)).length + 1
  | [] => by simp [depthOfBranches]
  | [branch] => by
    have h := depthOfAll_le_length branch
    have hb := length_le_branchTokens (tokensOfAll bound branch)
    simp only [depthOfBranches, tokensOfBranches, separated]
    omega
  | branch :: next :: rest => by
    have hp := depthOfAll_le_length branch
    have hb := length_le_branchTokens (tokensOfAll bound branch)
    have h := depthOfBranches_le_length (next :: rest)
    rw [depthOfBranches, tokensOfBranches]
    rw [tokensOfBranches] at h ⊢
    simp only [separated, List.length_append, List.length_cons]
    omega

end

/-- The tokens of predicates are read as the conjunction of their expressions. -/
theorem readExpression_tokens {ps : List Predicate} (hne : ps ≠ []) (hps : AreRegular ps)
    {rest : List Token} (hr : EndsDisjunction rest) :
    readExpression (separated (.word "and") (tokensOfAll bound ps) ++ rest)
      = some (chain .and (exprs ps), rest) := by
  have hdepth := depthOfAll_le_length ps
  rw [readExpression, List.length_append]
  generalize hn : (separated (.word "and") (tokensOfAll bound ps)).length + rest.length = n
  rw [tokensOfAll_eq_map, exprs_eq_map]
  exact readOr_conjunction (tokens bound) expr hne (readsPart_all ps hps n (by omega)) hr

end Predicate

end DualStore.Relational
