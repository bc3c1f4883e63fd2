import DualStore.Document.Compile
import DualStore.Proofs.KeyedEntries

/-!
# Answers of filters

A filter is tested entry by entry, a condition on a field operator by operator, and the filters
below `$and` one after the other, each up to the first that does not hold or fails.

* `allHold`: tests made in order, up to the first that does not hold;
* `satisfies_eq_allHold`, `testOperators_eq_allHold`, `everyOf_eq_allHold`: the three are such
  tests;
* `allHold_eq_true`, `exists_allHold`: when all hold, and when there is an answer;
* `asOperators_obj`, `asOperators_joinConditions`: the operators of a condition.
-/

namespace DualStore.Document

/-! ## Tests in order -/

/-- Makes tests in order, up to the first that does not hold or fails. -/
def allHold {α : Type} (test : α → Except PipelineError Bool) : List α → Except PipelineError Bool
  | [] => .ok true
  | x :: rest =>
    match test x with
    | .error e => .error e
    | .ok false => .ok false
    | .ok true => allHold test rest

section

variable {α : Type} {test : α → Except PipelineError Bool}

theorem allHold_eq_true (xs : List α) :
    allHold test xs = .ok true ↔ ∀ x ∈ xs, test x = .ok true := by
  induction xs with
  | nil => simp [allHold]
  | cons x rest ih =>
    rw [allHold, List.forall_mem_cons, ← ih]
    cases test x with
    | error e => simp
    | ok b => cases b <;> simp

theorem exists_allHold {xs : List α} (h : ∀ x ∈ xs, ∃ b, test x = .ok b) :
    ∃ b, allHold test xs = .ok b := by
  induction xs with
  | nil => exact ⟨true, rfl⟩
  | cons x rest ih =>
    obtain ⟨⟨b, hb⟩, hrest⟩ := List.forall_mem_cons.mp h
    obtain ⟨c, hc⟩ := ih hrest
    rw [allHold, hb]
    cases b with
    | false => exact ⟨false, rfl⟩
    | true => exact ⟨c, hc⟩

end

/-- Whether one entry of a filter holds. -/
def holdsEntry (doc : Json) (entry : String × Json) : Except PipelineError Bool :=
  if entry.1 = "$or" then someBranch doc entry.2
  else if entry.1 = "$and" then everyBranch doc entry.2
  else fieldMatches (doc.field? entry.1) entry.2

theorem satisfies_eq_allHold (doc : Json) (filter : Fields) :
    satisfies doc filter = allHold (holdsEntry doc) filter := by
  induction filter with
  | nil => simp only [satisfies, allHold]
  | cons e rest ih =>
    obtain ⟨key, condition⟩ := e
    rw [satisfies, ih]
    rfl

theorem testOperators_eq_allHold (actual : Option Json) (operators : Fields) :
    testOperators actual operators = allHold (fun o => testOperator actual o.1 o.2) operators := by
  induction operators with
  | nil => rfl
  | cons o rest ih =>
    obtain ⟨name, expected⟩ := o
    rw [testOperators, ih]
    rfl

theorem everyOf_eq_allHold (doc : Json) (branches : List Json) :
    everyOf doc branches = allHold (satisfiesBranch doc "$and") branches := by
  induction branches with
  | nil => simp only [everyOf, allHold]
  | cons b rest ih =>
    rw [everyOf, ih]
    rfl

theorem satisfies_disjunction (doc : Json) (branches : List Json) :
    satisfies doc [("$or", .arr branches)] = someOf doc branches := by
  have hentry : holdsEntry doc ("$or", .arr branches) = someOf doc branches := by
    rw [holdsEntry, if_pos rfl, someBranch]
  rw [satisfies_eq_allHold, allHold, hentry]
  cases someOf doc branches with
  | error e => rfl
  | ok b => cases b <;> rfl

theorem fieldMatches_eq (actual : Option Json) (condition : Json) :
    fieldMatches actual condition = testOperators actual (asOperators condition) := by
  unfold fieldMatches asOperators
  cases operators? condition with
  | some operators => rfl
  | none => cases h : equals actual condition <;> simp [testOperators, testOperator, h]

/-! ## Operators -/

theorem operators?_eq_some {condition : Json} {operators : Fields}
    (h : operators? condition = some operators) :
    condition = .obj operators ∧ operators ≠ [] ∧ ∀ o ∈ operators, isOperator o.1 = true := by
  unfold operators? at h
  split at h
  · simp at h
  · rename_i fields hne
    split at h
    · rename_i hall
      simp only [Option.some.injEq] at h
      subst h
      exact ⟨rfl, fun heq => hne (by rw [heq]), List.all_eq_true.mp hall⟩
    · simp at h
  · simp at h

theorem operators?_obj {operators : Fields} (hne : operators ≠ [])
    (h : ∀ o ∈ operators, isOperator o.1 = true) :
    operators? (.obj operators) = some operators := by
  cases operators with
  | nil => exact absurd rfl hne
  | cons o rest => exact if_pos (List.all_eq_true.mpr h)

theorem asOperators_obj {operators : Fields} (hne : operators ≠ [])
    (h : ∀ o ∈ operators, isOperator o.1 = true) : asOperators (.obj operators) = operators := by
  rw [asOperators, operators?_obj hne h]

theorem isOperator_asOperators {condition : Json} {o : String × Json}
    (h : o ∈ asOperators condition) : isOperator o.1 = true := by
  unfold asOperators at h
  cases hops : operators? condition with
  | some operators =>
    rw [hops] at h
    exact (operators?_eq_some hops).2.2 o h
  | none =>
    rw [hops] at h
    simp only [List.mem_singleton] at h
    have heq : isOperator "$eq" = true := by decide
    rw [h, heq]

theorem isOperator_of_mem_keys {condition : Json} {key : String}
    (h : key ∈ Keyed.keys (asOperators condition)) : isOperator key = true := by
  obtain ⟨o, ho, rfl⟩ := List.mem_map.mp h
  exact isOperator_asOperators ho

theorem asOperators_ne_nil (condition : Json) : asOperators condition ≠ [] := by
  unfold asOperators
  cases hops : operators? condition with
  | some operators => exact (operators?_eq_some hops).2.1
  | none => simp

theorem mem_putAll {earlier later : Fields} (he : (Keyed.keys earlier).Nodup)
    (hl : (Keyed.keys later).Nodup) (o : String × Json) :
    o ∈ putAll earlier later ↔ o ∈ later ∨ o ∈ earlier ∧ o.1 ∉ Keyed.keys later := by
  induction later generalizing earlier with
  | nil => simp [putAll, Keyed.keys]
  | cons p rest ih =>
    obtain ⟨k, v⟩ := p
    obtain ⟨hk, hrest⟩ := List.nodup_cons.mp hl
    rw [putAll, ih (Keyed.nodup_put he k v) hrest, Keyed.mem_put he]
    have hkeys : o.1 ∉ Keyed.keys ((k, v) :: rest) ↔ o.1 ≠ k ∧ o.1 ∉ Keyed.keys rest := by
      simp [Keyed.keys]
    rw [hkeys, List.mem_cons]
    constructor
    · rintro (h | ⟨h | ⟨h, hne⟩, hnot⟩)
      · exact .inl (.inr h)
      · exact .inl (.inl h)
      · exact .inr ⟨h, hne, hnot⟩
    · rintro ((h | h) | ⟨h, hne, hnot⟩)
      · refine .inr ⟨.inl h, ?_⟩
        rw [h]
        exact hk
      · exact .inl h
      · exact .inr ⟨.inr ⟨h, hne⟩, hnot⟩

theorem putAll_ne_nil {earlier : Fields} (h : earlier ≠ []) (later : Fields) :
    putAll earlier later ≠ [] := by
  induction later generalizing earlier with
  | nil => exact h
  | cons p rest ih => exact ih (Keyed.put_ne_nil p.1 p.2 earlier)

theorem mem_keys_putAll (earlier later : Fields) (k : String) :
    k ∈ Keyed.keys (putAll earlier later) ↔ k ∈ Keyed.keys later ∨ k ∈ Keyed.keys earlier := by
  induction later generalizing earlier with
  | nil => simp [putAll, Keyed.keys]
  | cons p rest ih =>
    obtain ⟨key, v⟩ := p
    have hkeys : k ∈ Keyed.keys ((key, v) :: rest) ↔ k = key ∨ k ∈ Keyed.keys rest := by
      simp [Keyed.keys]
    rw [putAll, ih, Keyed.mem_keys_put, hkeys, or_left_comm, or_assoc]

theorem nodup_putAll {earlier : Fields} (h : (Keyed.keys earlier).Nodup) (later : Fields) :
    (Keyed.keys (putAll earlier later)).Nodup := by
  induction later generalizing earlier with
  | nil => exact h
  | cons p rest ih => exact ih (Keyed.nodup_put h p.1 p.2)

theorem putAll_eq_foldl (earlier later : Fields) :
    putAll earlier later
      = later.foldl (fun acc entry => Keyed.put entry.1 entry.2 acc) earlier := by
  induction later generalizing earlier with
  | nil => rfl
  | cons p rest ih => exact ih (Keyed.put p.1 p.2 earlier)

theorem putAll_nil {later : Fields} (h : (Keyed.keys later).Nodup) : putAll [] later = later := by
  rw [putAll_eq_foldl]
  exact Keyed.foldl_put_of_nodup [] h

/-- The operators that a joined condition has are those of the first with those of the second put
on them. -/
theorem asOperators_joinConditions {earlier later : Json} :
    asOperators (joinConditions earlier later)
      = putAll (asOperators earlier) (asOperators later) := by
  unfold joinConditions
  split
  · apply asOperators_obj
    · exact putAll_ne_nil (asOperators_ne_nil earlier) _
    · intro o ho
      rcases (mem_keys_putAll _ _ o.1).mp (Keyed.mem_keys ho) with h | h
      · exact isOperator_of_mem_keys h
      · exact isOperator_of_mem_keys h
  · rename_i hplain
    rw [not_or, Bool.not_eq_true, Bool.not_eq_true, Option.isSome_eq_false_iff,
      Option.isSome_eq_false_iff, Option.isNone_iff_eq_none, Option.isNone_iff_eq_none] at hplain
    simp [asOperators, hplain, putAll, Keyed.put]

end DualStore.Document
