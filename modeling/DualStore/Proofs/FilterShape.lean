import DualStore.Proofs.FilterAnswers

/-!
# The shape of compiled filters

A condition contributes to a filter either a condition on one field of the document or a
disjunction. A filter that is compiled from conditions keeps two things apart: for each field of the
document the operators that were put on it, and the disjunctions in the order in which they came.

* `Contribution`, `contribution`: what a condition contributes;
* `operatorsOf`, `Collects`, `IsFilter`: the parts of a filter;
* `IsFilter.addTo`, `isFilter_addAll`: one condition, and a run of conditions;
* `IsFilter.satisfies_iff`: when a document satisfies a filter;
* `IsFilter.satisfies_ok`: when a filter gives an answer.
-/

namespace DualStore.Document

/-! ## Contributions -/

/-- What a condition contributes to a filter. -/
inductive Contribution where
  | field (key : String) (condition : Json)
  | disjunction (branches : List Json)
  | nothing

namespace Contribution

/-- A filter with one more contribution. -/
def addTo (filter : Fields) : Contribution → Fields
  | .field key condition => mergeClause filter key condition
  | .disjunction branches => addDisjunction filter branches
  | .nothing => filter

/-- The operators that a contribution puts on a field of the document. -/
def operatorsOn (key : String) : Contribution → Fields
  | .field k condition => if k = key then asOperators condition else []
  | _ => []

/-- The disjunctions of a contribution: one or none. -/
def disjunctions : Contribution → List (List Json)
  | .disjunction branches => [branches]
  | _ => []

/-- A contribution to a field that no operator names, with no operator twice. -/
def IsProper : Contribution → Prop
  | .field key condition =>
    isOperator key = false ∧ (Keyed.keys (asOperators condition)).Nodup
  | _ => True

end Contribution

/-- What a clause on a key contributes. -/
def Clause.contribution (key : String) : Clause → Contribution
  | .condition c => .field key c
  | _ => .nothing

/-- What a condition contributes to a filter, if it can be compiled. -/
def contribution (idField : String) : Condition → Contribution
  | .on logic key operand => (clauseOf logic operand).contribution (documentKey idField key)
  | .group .or _ members _ =>
    match branchesOf idField members with
    | .ok (branch :: branches) => .disjunction (branch :: branches)
    | _ => .nothing
  | .group logic key _ _ => (groupClause logic).contribution (documentKey idField key)

theorem addClause_ok {idField : String} {filter added : Fields} {c : Condition} {clause : Clause}
    (h : addClause idField filter c clause = .ok added) (other : Fields) :
    addClause idField other c clause
      = .ok ((clause.contribution (documentKey idField c.key)).addTo other) := by
  cases clause with
  | mismatch => simp [addClause] at h
  | _ => rfl

/-- A condition that can be compiled adds its contribution to every filter. -/
theorem addCondition_ok {idField : String} {filter added : Fields} {c : Condition}
    (h : addCondition idField filter c = .ok added) (other : Fields) :
    addCondition idField other c = .ok ((contribution idField c).addTo other) := by
  cases c with
  | on logic key operand =>
    rw [addCondition] at h ⊢
    exact addClause_ok h other
  | group logic key members =>
    cases logic with
    | or =>
      rw [addCondition] at h ⊢
      cases hb : branchesOf idField members with
      | error e => simp [hb, bind, Except.bind] at h
      | ok branches =>
        cases branches <;> simp [contribution, hb, bind, Except.bind, Contribution.addTo]
    | _ =>
      rw [addCondition] at h ⊢ <;> first | exact addClause_ok h other | simp

/-- Contributions added to a filter in order. -/
def addAll (idField : String) (filter : Fields) (conditions : List Condition) : Fields :=
  conditions.foldl (fun filter c => (contribution idField c).addTo filter) filter

theorem addConditions_ok {idField : String} {filter added : Fields} {conditions : List Condition}
    (h : addConditions idField filter conditions = .ok added) :
    added = addAll idField filter conditions
      ∧ ∀ c ∈ conditions, filterOf [c] idField = .ok ((contribution idField c).addTo []) := by
  induction conditions generalizing filter with
  | nil =>
    simp only [addConditions, Except.ok.injEq] at h
    exact ⟨h.symm, by simp⟩
  | cons c rest ih =>
    cases hc : addCondition idField filter c with
    | error e => simp [addConditions, hc, bind, Except.bind] at h
    | ok next =>
      have hnext := addCondition_ok hc filter
      rw [hc, Except.ok.injEq] at hnext
      simp only [addConditions, hc, bind, Except.bind] at h
      obtain ⟨hadded, hrest⟩ := ih h
      refine ⟨by rw [hadded, hnext]; rfl, List.forall_mem_cons.mpr ⟨?_, hrest⟩⟩
      simp only [filterOf, addConditions, addCondition_ok hc [], bind, Except.bind]

/-! ## Parts of a filter -/

/-- The operators that a filter has on a field of the document. -/
def operatorsOf (filter : Fields) (key : String) : Fields :=
  (Keyed.get? key filter).elim [] asOperators

/-- Where the disjunctions of a filter stand: one stands alone, several stand under `$and`. -/
inductive Collects (filter : Fields) : List (List Json) → Prop
  | none (hor : Keyed.get? "$or" filter = .none) (hand : Keyed.get? "$and" filter = .none) :
    Collects filter []
  | one {d : List Json} (hor : Keyed.get? "$or" filter = some (.arr d))
    (hand : Keyed.get? "$and" filter = .none) : Collects filter [d]
  | several {ds : List (List Json)} (hor : Keyed.get? "$or" filter = .none)
    (hand : Keyed.get? "$and" filter
      = some (.arr (ds.map fun d => operator "$or" (.arr d)))) : Collects filter ds

/-- What holds of every compiled filter: no key and, on no field, an operator stands twice, and
what is no field of the document is a disjunction. -/
structure IsFilter (filter : Fields) (disjunctions : List (List Json)) : Prop where
  keys : (Keyed.keys filter).Nodup
  operators : ∀ key, isOperator key = false → (Keyed.keys (operatorsOf filter key)).Nodup
  marked : ∀ key ∈ Keyed.keys filter, isOperator key = true → key = "$or" ∨ key = "$and"
  collects : Collects filter disjunctions

theorem isFilter_nil : IsFilter [] [] where
  keys := by simp [Keyed.keys]
  operators := by simp [operatorsOf, Keyed.get?, Keyed.keys]
  marked := by simp [Keyed.keys]
  collects := .none rfl rfl

theorem Collects.of_get? {filter other : Fields} {ds : List (List Json)} (h : Collects filter ds)
    (hor : Keyed.get? "$or" other = Keyed.get? "$or" filter)
    (hand : Keyed.get? "$and" other = Keyed.get? "$and" filter) : Collects other ds := by
  cases h with
  | none h₁ h₂ => exact .none (hor.trans h₁) (hand.trans h₂)
  | one h₁ h₂ => exact .one (hor.trans h₁) (hand.trans h₂)
  | several h₁ h₂ => exact .several (hor.trans h₁) (hand.trans h₂)

theorem ne_of_isOperator {key other : String} (h : isOperator key = false)
    (hother : isOperator other = true) : other ≠ key := by
  intro heq
  rw [heq, h] at hother
  exact Bool.false_ne_true hother

theorem isOperator_or : isOperator "$or" = true := by decide

theorem isOperator_and : isOperator "$and" = true := by decide

theorem or_ne_of_isOperator {key : String} (h : isOperator key = false) : "$or" ≠ key :=
  ne_of_isOperator h isOperator_or

theorem and_ne_of_isOperator {key : String} (h : isOperator key = false) : "$and" ≠ key :=
  ne_of_isOperator h isOperator_and

/-! ## A condition on a field -/

theorem get?_mergeClause_of_ne {filter : Fields} (h : (Keyed.keys filter).Nodup)
    {key other : String} (hne : key ≠ other) (condition : Json) :
    Keyed.get? other (mergeClause filter key condition) = Keyed.get? other filter := by
  unfold mergeClause
  rw [Keyed.get?_put_of_ne hne, Keyed.get?_swapErase_of_ne h hne]

theorem operatorsOf_mergeClause_self (filter : Fields) (key : String) {condition : Json}
    (hc : (Keyed.keys (asOperators condition)).Nodup) :
    operatorsOf (mergeClause filter key condition) key
      = putAll (operatorsOf filter key) (asOperators condition) := by
  simp only [operatorsOf, mergeClause, Keyed.get?_put_self, Option.elim_some]
  cases Keyed.get? key filter with
  | none => exact (putAll_nil hc).symm
  | some earlier => exact asOperators_joinConditions

theorem mem_keys_mergeClause {filter : Fields} {key k : String} {condition : Json}
    (h : k ∈ Keyed.keys (mergeClause filter key condition)) : k = key ∨ k ∈ Keyed.keys filter := by
  unfold mergeClause at h
  rcases (Keyed.mem_keys_put _ _ _ _).mp h with h | h
  · exact .inl h
  · exact .inr (Keyed.keys_swapErase_subset key filter h)

theorem IsFilter.mergeClause {filter : Fields} {ds : List (List Json)} (h : IsFilter filter ds)
    {key : String} (hkey : isOperator key = false) {condition : Json}
    (hc : (Keyed.keys (asOperators condition)).Nodup) :
    IsFilter (mergeClause filter key condition) ds where
  keys := Keyed.nodup_put (Keyed.nodup_swapErase h.keys key) key _
  operators := by
    intro k hk
    by_cases heq : key = k
    · subst heq
      rw [operatorsOf_mergeClause_self filter key hc]
      exact nodup_putAll (h.operators key hk) _
    · rw [operatorsOf, get?_mergeClause_of_ne h.keys heq]
      exact h.operators k hk
  marked := by
    intro k hk hop
    rcases mem_keys_mergeClause hk with rfl | hk
    · rw [hkey] at hop
      exact absurd hop Bool.false_ne_true
    · exact h.marked k hk hop
  collects := h.collects.of_get?
    (get?_mergeClause_of_ne h.keys (or_ne_of_isOperator hkey).symm condition)
    (get?_mergeClause_of_ne h.keys (and_ne_of_isOperator hkey).symm condition)

/-! ## A disjunction -/

/-- A filter to whose disjunctions one was added: the fields of the document stay. -/
theorem IsFilter.replace {filter other : Fields} {ds es : List (List Json)}
    (h : IsFilter filter ds) (hkeys : (Keyed.keys other).Nodup)
    (hmarked : ∀ k ∈ Keyed.keys other, k = "$or" ∨ k = "$and" ∨ k ∈ Keyed.keys filter)
    (hfields : ∀ k, isOperator k = false → Keyed.get? k other = Keyed.get? k filter)
    (hes : Collects other es) : IsFilter other es where
  keys := hkeys
  operators := by
    intro k hk
    rw [operatorsOf, hfields k hk]
    exact h.operators k hk
  marked := by
    intro k hk hop
    rcases hmarked k hk with hk | hk | hk
    · exact .inl hk
    · exact .inr hk
    · exact h.marked k hk hop
  collects := hes

theorem get?_addDisjunction {filter : Fields} (h : (Keyed.keys filter).Nodup)
    (branches : List Json) {key : String} (hkey : isOperator key = false) :
    Keyed.get? key (addDisjunction filter branches) = Keyed.get? key filter := by
  have hor := or_ne_of_isOperator hkey
  have hand := and_ne_of_isOperator hkey
  unfold addDisjunction
  cases Keyed.get? "$or" filter with
  | some first =>
    simp only
    rw [Keyed.get?_put_of_ne hand, Keyed.get?_swapErase_of_ne h hor]
  | none =>
    simp only
    split
    · exact Keyed.get?_put_of_ne hand _ _
    · exact Keyed.get?_put_of_ne hor _ _

theorem IsFilter.addDisjunction {filter : Fields} {ds : List (List Json)} (h : IsFilter filter ds)
    (branches : List Json) : IsFilter (addDisjunction filter branches) (ds ++ [branches]) := by
  have hne : "$or" ≠ "$and" := by decide
  have hfields := fun k (hk : isOperator k = false) => get?_addDisjunction h.keys branches hk
  cases h.collects with
  | none hor hand =>
    simp only [Document.addDisjunction, hor, hand] at hfields ⊢
    refine h.replace (Keyed.nodup_put h.keys _ _) ?_ hfields ?_
    · intro k hk
      rcases (Keyed.mem_keys_put _ _ _ _).mp hk with hk | hk
      · exact .inl hk
      · exact .inr (.inr hk)
    · refine .one (Keyed.get?_put_self _ _ _) ?_
      rw [Keyed.get?_put_of_ne hne, hand]
  | one hor hand =>
    simp only [Document.addDisjunction, hor] at hfields ⊢
    refine h.replace (Keyed.nodup_put (Keyed.nodup_swapErase h.keys _) _ _) ?_ hfields ?_
    · intro k hk
      rcases (Keyed.mem_keys_put _ _ _ _).mp hk with hk | hk
      · exact .inr (.inl hk)
      · exact .inr (.inr (Keyed.keys_swapErase_subset _ _ hk))
    · refine .several ?_ (Keyed.get?_put_self _ _ _)
      rw [Keyed.get?_put_of_ne hne.symm, Keyed.get?_swapErase_self h.keys]
  | several hor hand =>
    simp only [Document.addDisjunction, hor, hand] at hfields ⊢
    refine h.replace (Keyed.nodup_put h.keys _ _) ?_ hfields ?_
    · intro k hk
      rcases (Keyed.mem_keys_put _ _ _ _).mp hk with hk | hk
      · exact .inr (.inl hk)
      · exact .inr (.inr hk)
    · refine .several ?_ ?_
      · rw [Keyed.get?_put_of_ne hne.symm, hor]
      · rw [Keyed.get?_put_self, List.map_append]
        rfl

/-! ## Runs of conditions -/

/-- One contribution keeps the shape of a filter. -/
theorem IsFilter.addTo {filter : Fields} {ds : List (List Json)} (h : IsFilter filter ds)
    {p : Contribution} (hp : p.IsProper) : IsFilter (p.addTo filter) (ds ++ p.disjunctions) := by
  cases p with
  | field key condition =>
    rw [Contribution.disjunctions, List.append_nil]
    · exact h.mergeClause hp.1 hp.2
    · simp
  | disjunction branches => exact h.addDisjunction branches
  | nothing =>
    rw [Contribution.disjunctions, List.append_nil]
    · exact h
    · simp

/-- One contribution puts its operators on those that are there. -/
theorem operatorsOf_addTo {filter : Fields} {ds : List (List Json)} (h : IsFilter filter ds)
    {p : Contribution} (hp : p.IsProper) {key : String} (hkey : isOperator key = false) :
    operatorsOf (p.addTo filter) key = putAll (operatorsOf filter key) (p.operatorsOn key) := by
  cases p with
  | field k condition =>
    by_cases heq : k = key
    · subst heq
      simp only [Contribution.operatorsOn, if_pos]
      exact operatorsOf_mergeClause_self filter k hp.2
    · simp only [Contribution.operatorsOn, if_neg heq, putAll]
      rw [Contribution.addTo, operatorsOf, get?_mergeClause_of_ne h.keys heq]
      rfl
  | disjunction branches =>
    rw [Contribution.addTo, operatorsOf, get?_addDisjunction h.keys branches hkey]
    rfl
  | nothing => rfl

/-- Whether every condition of a list contributes properly. -/
def AllProper (idField : String) (conditions : List Condition) : Prop :=
  ∀ c ∈ conditions, (contribution idField c).IsProper

/-- A run of conditions keeps the shape of a filter, and collects the disjunctions in order. -/
theorem isFilter_addAll {idField : String} {conditions : List Condition}
    (hp : AllProper idField conditions) {filter : Fields} {ds : List (List Json)}
    (h : IsFilter filter ds) :
    IsFilter (addAll idField filter conditions)
      (ds ++ conditions.flatMap fun c => (contribution idField c).disjunctions) := by
  induction conditions generalizing filter ds with
  | nil => simpa [addAll] using h
  | cons c rest ih =>
    obtain ⟨hc, hrest⟩ := List.forall_mem_cons.mp hp
    have := ih hrest (h.addTo hc)
    rwa [List.append_assoc] at this

theorem nodup_operatorsOn {p : Contribution} (hp : p.IsProper) (key : String) :
    (Keyed.keys (p.operatorsOn key)).Nodup := by
  cases p with
  | field k condition =>
    by_cases heq : k = key
    · simpa [Contribution.operatorsOn, heq] using hp.2
    · simp [Contribution.operatorsOn, heq, Keyed.keys]
  | _ => simp [Contribution.operatorsOn, Keyed.keys]

/-- Behind a run of conditions a field has those operators that no later condition has replaced. -/
theorem mem_operatorsOf_addAll {idField : String} {conditions : List Condition}
    (hp : AllProper idField conditions) {filter : Fields} {ds : List (List Json)}
    (h : IsFilter filter ds) {key : String} (hkey : isOperator key = false) (o : String × Json) :
    o ∈ operatorsOf (addAll idField filter conditions) key ↔
      (o ∈ operatorsOf filter key
        ∧ ∀ d ∈ conditions, o.1 ∉ Keyed.keys ((contribution idField d).operatorsOn key))
      ∨ ∃ before c after, conditions = before ++ c :: after
        ∧ o ∈ (contribution idField c).operatorsOn key
        ∧ ∀ d ∈ after, o.1 ∉ Keyed.keys ((contribution idField d).operatorsOn key) := by
  induction conditions generalizing filter ds with
  | nil => simp [addAll]
  | cons c rest ih =>
    obtain ⟨hc, hrest⟩ := List.forall_mem_cons.mp hp
    have hstep := ih hrest (h.addTo hc)
    rw [operatorsOf_addTo h hc hkey,
      mem_putAll (h.operators key hkey) (nodup_operatorsOn hc key)] at hstep
    have hrun : addAll idField filter (c :: rest)
        = addAll idField ((contribution idField c).addTo filter) rest := rfl
    rw [hrun, hstep, List.forall_mem_cons]
    constructor
    · rintro (⟨ho | ⟨ho, hnot⟩, hall⟩ | ⟨before, d, after, rfl, ho, hall⟩)
      · exact .inr ⟨[], c, rest, rfl, ho, hall⟩
      · exact .inl ⟨ho, hnot, hall⟩
      · exact .inr ⟨c :: before, d, after, rfl, ho, hall⟩
    · rintro (⟨ho, hnot, hall⟩ | ⟨before, d, after, heq, ho, hall⟩)
      · exact .inl ⟨.inr ⟨ho, hnot⟩, hall⟩
      · cases before with
        | nil =>
          obtain ⟨rfl, rfl⟩ := List.cons.inj heq
          exact .inl ⟨.inl ho, hall⟩
        | cons b before =>
          obtain ⟨rfl, rfl⟩ := List.cons.inj heq
          exact .inr ⟨before, d, after, rfl, ho, hall⟩

/-! ## When a filter is satisfied -/

theorem holdsEntry_field {doc : Json} {key : String} (hkey : isOperator key = false)
    (condition : Json) : holdsEntry doc (key, condition) = .ok true ↔
      ∀ o ∈ asOperators condition, testOperator (doc.field? key) o.1 o.2 = .ok true := by
  rw [holdsEntry, if_neg (or_ne_of_isOperator hkey).symm, if_neg (and_ne_of_isOperator hkey).symm,
    fieldMatches_eq, testOperators_eq_allHold, allHold_eq_true]

theorem holdsEntry_and (doc : Json) (ds : List (List Json)) :
    holdsEntry doc ("$and", .arr (ds.map fun d => operator "$or" (.arr d))) = .ok true ↔
      ∀ d ∈ ds, someOf doc d = .ok true := by
  have hentry : holdsEntry doc ("$and", .arr (ds.map fun d => operator "$or" (.arr d)))
      = everyOf doc (ds.map fun d => operator "$or" (.arr d)) := rfl
  rw [hentry, everyOf_eq_allHold, allHold_eq_true, List.forall_mem_map]
  simp only [operator, satisfiesBranch, satisfies_disjunction]

theorem IsFilter.holds_marked {filter : Fields} {ds : List (List Json)} (h : IsFilter filter ds)
    (doc : Json) : (∀ e ∈ filter, isOperator e.1 = true → holdsEntry doc e = .ok true) ↔
      ∀ d ∈ ds, someOf doc d = .ok true := by
  have hmarked : (∀ e ∈ filter, isOperator e.1 = true → holdsEntry doc e = .ok true) ↔
      (∀ v, Keyed.get? "$or" filter = some v → holdsEntry doc ("$or", v) = .ok true)
      ∧ ∀ v, Keyed.get? "$and" filter = some v → holdsEntry doc ("$and", v) = .ok true := by
    simp only [Keyed.get?_eq_some_iff h.keys]
    constructor
    · intro hall
      exact ⟨fun v hv => hall _ hv isOperator_or, fun v hv => hall _ hv isOperator_and⟩
    · rintro ⟨hor, hand⟩ ⟨key, v⟩ he hop
      rcases h.marked key (Keyed.mem_keys he) hop with rfl | rfl
      · exact hor v he
      · exact hand v he
  rw [hmarked]
  cases h.collects with
  | none hor hand => simp [hor, hand]
  | one hor hand => simp [hor, hand, holdsEntry, someBranch]
  | several hor hand =>
    rw [hor, hand]
    simp only [reduceCtorEq, false_implies, implies_true, true_and, Option.some.injEq,
      forall_eq', holdsEntry_and]

/-- **Satisfied filters.** A document satisfies a compiled filter exactly if its fields pass all
operators that the filter has on them and it satisfies one branch of each disjunction. -/
theorem IsFilter.satisfies_iff {filter : Fields} {ds : List (List Json)} (h : IsFilter filter ds)
    (doc : Json) : satisfies doc filter = .ok true ↔
      (∀ key, isOperator key = false → ∀ o ∈ operatorsOf filter key,
        testOperator (doc.field? key) o.1 o.2 = .ok true)
      ∧ ∀ d ∈ ds, someOf doc d = .ok true := by
  rw [satisfies_eq_allHold, allHold_eq_true, ← h.holds_marked doc]
  constructor
  · intro hall
    refine ⟨fun key hkey o ho => ?_, fun e he _ => hall e he⟩
    cases hget : Keyed.get? key filter with
    | none => simp [operatorsOf, hget] at ho
    | some condition =>
      rw [operatorsOf, hget] at ho
      have hmem := (Keyed.get?_eq_some_iff h.keys key condition).mp hget
      exact (holdsEntry_field hkey condition).mp (hall _ hmem) o ho
  · rintro ⟨hfields, hmarked⟩ ⟨key, condition⟩ he
    cases hkey : isOperator key with
    | true => exact hmarked _ he hkey
    | false =>
      have hget := (Keyed.get?_eq_some_iff h.keys key condition).mpr he
      have hops := hfields key hkey
      rw [operatorsOf, hget] at hops
      exact (holdsEntry_field hkey condition).mpr hops

/-! ## When a filter gives an answer -/

/-- A compiled filter gives an answer if its operators and disjunctions do. -/
theorem IsFilter.satisfies_ok {filter : Fields} {ds : List (List Json)} (h : IsFilter filter ds)
    {doc : Json} (hops : ∀ key, isOperator key = false → ∀ o ∈ operatorsOf filter key,
      ∃ b, testOperator (doc.field? key) o.1 o.2 = .ok b)
    (hds : ∀ d ∈ ds, ∃ b, someOf doc d = .ok b) : ∃ b, satisfies doc filter = .ok b := by
  rw [satisfies_eq_allHold]
  apply exists_allHold
  rintro ⟨key, condition⟩ he
  have hget := (Keyed.get?_eq_some_iff h.keys key condition).mpr he
  cases hkey : isOperator key with
  | false =>
    have hkeyops := hops key hkey
    rw [operatorsOf, hget] at hkeyops
    rw [holdsEntry, if_neg (or_ne_of_isOperator hkey).symm,
      if_neg (and_ne_of_isOperator hkey).symm, fieldMatches_eq, testOperators_eq_allHold]
    exact exists_allHold hkeyops
  | true =>
    rcases h.marked key (Keyed.mem_keys he) hkey with rfl | rfl
    · cases h.collects with
      | none hor hand => simp [hor] at hget
      | several hor hand => simp [hor] at hget
      | @one d hor hand =>
        rw [hor, Option.some.injEq] at hget
        subst hget
        exact hds d (by simp)
    · cases h.collects with
      | none hor hand => simp [hand] at hget
      | one hor hand => simp [hand] at hget
      | several hor hand =>
        rw [hand, Option.some.injEq] at hget
        subst hget
        have hbranches : ∀ b ∈ ds.map fun d => operator "$or" (.arr d),
            ∃ answer, satisfiesBranch doc "$and" b = .ok answer := by
          rw [List.forall_mem_map]
          intro d hd
          simp only [operator, satisfiesBranch, satisfies_disjunction]
          exact hds d hd
        have hentry : holdsEntry doc ("$and", .arr (ds.map fun d => operator "$or" (.arr d)))
            = everyOf doc (ds.map fun d => operator "$or" (.arr d)) := rfl
        rw [hentry, everyOf_eq_allHold]
        exact exists_allHold hbranches

end DualStore.Document
