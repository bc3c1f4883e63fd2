import DualStore.Proofs.FilterShape

/-!
# Filters as conjunctions

The filter of several conditions compared with the filters of each of them alone. Conditions on one
field of the document are joined operator by operator, a plain value being the operator `$eq`, and a
later operator replaces an earlier one of the same name. What is left of each condition has to hold.

* `Condition.isDisjunction`, `Condition.hasDistinctKeys`: conditions as they are put together;
* `puts`, `reduced`: the operators of a condition, and a filter without those that are replaced;
* `conditions_conjoined`: the main statement;
* `later_value_replaces`: two values for one field, of which only the later one counts.
-/

namespace DualStore

def Condition.isDisjunction : Condition → Bool
  | .group .or _ _ _ => true
  | _ => false

/-- Whether a map that a condition gives as its operand has no key twice, as no map has. -/
def Condition.HasDistinctKeys : Condition → Prop
  | .on _ _ (.one (.map entries)) => (Keyed.keys entries).Nodup
  | _ => True

end DualStore

namespace DualStore.Document

/-! ## Proper contributions -/

theorem keys_entriesToJson (entries : List (String × Value)) :
    Keyed.keys (Value.entriesToJson entries) = Keyed.keys entries := by
  induction entries with
  | nil => rfl
  | cons e rest ih =>
    have ih' : (Value.entriesToJson rest).map Prod.fst = rest.map Prod.fst := ih
    simp [Value.entriesToJson, Keyed.keys, ih']

theorem asOperators_obj_or (fields : Fields) :
    asOperators (.obj fields) = fields ∨ asOperators (.obj fields) = [("$eq", .obj fields)] := by
  unfold asOperators
  cases h : operators? (.obj fields) with
  | none => exact .inr rfl
  | some operators =>
    have hfields := (operators?_eq_some h).1
    simp only [Json.obj.injEq] at hfields
    exact .inl hfields.symm

theorem nodup_asOperators_toJson {v : Value}
    (h : ∀ entries, v = .map entries → (Keyed.keys entries).Nodup) :
    (Keyed.keys (asOperators v.toJson)).Nodup := by
  cases v with
  | map entries =>
    rw [Value.toJson]
    rcases asOperators_obj_or (Value.entriesToJson entries) with heq | heq
    · rw [heq, keys_entriesToJson]
      exact h entries rfl
    · rw [heq]
      simp [Keyed.keys]
  | real x =>
    rw [Value.toJson, Json.ofFloat]
    split <;> simp [asOperators, operators?, Keyed.keys]
  | _ => simp [Value.toJson, asOperators, operators?, Keyed.keys]

theorem nodup_asOperators_operator (name : String) (value : Json) :
    (Keyed.keys (asOperators (operator name value))).Nodup := by
  rcases asOperators_obj_or [(name, value)] with heq | heq <;>
    simp [operator, heq, Keyed.keys]

theorem nodup_asOperators_range (low high : Json) :
    (Keyed.keys (asOperators (.obj [("$gte", low), ("$lte", high)]))).Nodup := by
  rcases asOperators_obj_or [("$gte", low), ("$lte", high)] with heq | heq <;>
    simp [heq, Keyed.keys]

theorem nodup_asOperators_null : (Keyed.keys (asOperators .null)).Nodup := by
  simp [asOperators, operators?, Keyed.keys]

theorem HasDistinctKeys.nodup {logic : Logic} {key : String} {v : Value}
    (h : (Condition.on logic key (.one v)).HasDistinctKeys) :
    (Keyed.keys (asOperators v.toJson)).Nodup := by
  apply nodup_asOperators_toJson
  intro entries hv
  subst hv
  exact h

theorem nodup_asOperators_clauseOf {logic : Logic} {key : String} {operand : Operand} {c : Json}
    (hdistinct : (Condition.on logic key operand).HasDistinctKeys)
    (h : clauseOf logic operand = .condition c) : (Keyed.keys (asOperators c)).Nodup := by
  cases logic <;> cases operand <;>
    simp only [clauseOf, Clause.condition.injEq, reduceCtorEq] at h <;> subst h <;>
    first
    | exact nodup_asOperators_operator _ _
    | exact nodup_asOperators_null
    | exact nodup_asOperators_range _ _
    | exact HasDistinctKeys.nodup hdistinct

theorem nodup_asOperators_groupClause {logic : Logic} {c : Json}
    (h : groupClause logic = .condition c) : (Keyed.keys (asOperators c)).Nodup := by
  cases logic <;> simp only [groupClause, Clause.condition.injEq, reduceCtorEq] at h <;> subst h <;>
    first
    | exact nodup_asOperators_operator _ _
    | exact nodup_asOperators_null

theorem isOperator_documentKey {key : String} (h : isOperator key = false) (idField : String) :
    isOperator (documentKey idField key) = false := by
  unfold documentKey
  split
  · decide
  · exact h

theorem isProper_of_clause {clause : Clause} {key : String} (hkey : isOperator key = false)
    (h : ∀ c, clause = .condition c → (Keyed.keys (asOperators c)).Nodup) :
    (clause.contribution key).IsProper := by
  cases clause with
  | condition c => exact ⟨hkey, h c rfl⟩
  | _ => trivial

/-- A condition contributes properly if no operator names its key. -/
theorem isProper_contribution {c : Condition} (idField : String)
    (hkey : c.isDisjunction = false → isOperator c.key = false) (hdistinct : c.HasDistinctKeys) :
    (contribution idField c).IsProper := by
  cases c with
  | on logic key operand =>
    exact isProper_of_clause (isOperator_documentKey (hkey rfl) idField)
      fun c hc => nodup_asOperators_clauseOf hdistinct hc
  | group logic key members =>
    cases logic with
    | or =>
      rw [contribution]
      split <;> trivial
    | _ =>
      simp only [contribution]
      exact isProper_of_clause (isOperator_documentKey (hkey rfl) idField)
        fun c hc => nodup_asOperators_groupClause hc

/-! ## What is left of a condition -/

/-- Whether a condition puts an operator on a field of the document. -/
def puts (idField : String) (key name : String) (c : Condition) : Bool :=
  match filterOf [c] idField with
  | .ok alone => !isOperator key && Keyed.has name (operatorsOf alone key)
  | .error _ => false

/-- A filter without the operators on fields that a test drops. -/
def reduced (drops : String → String → Bool) : Fields → Fields
  | [] => []
  | (key, condition) :: rest =>
    if isOperator key then (key, condition) :: reduced drops rest
    else
      match (asOperators condition).filter fun o => !drops key o.1 with
      | [] => reduced drops rest
      | operators => (key, .obj operators) :: reduced drops rest

/-- The filter of a condition alone, without the operators that later conditions replace. -/
def remaining (idField : String) (later : List Condition) (alone : Fields) : Fields :=
  reduced (fun key name => later.any (puts idField key name)) alone

theorem addTo_nil (p : Contribution) : p.addTo [] =
    match p with
    | .field key condition => [(key, condition)]
    | .disjunction branches => [("$or", .arr branches)]
    | .nothing => [] := by
  cases p <;> rfl

theorem operatorsOf_addTo_nil (p : Contribution) {key : String} (hkey : isOperator key = false) :
    operatorsOf (p.addTo []) key = p.operatorsOn key := by
  rw [addTo_nil]
  cases p with
  | field k condition => by_cases h : k = key <;>
      simp [operatorsOf, Keyed.get?, Contribution.operatorsOn, h]
  | disjunction branches =>
    simp [operatorsOf, Keyed.get?, Contribution.operatorsOn, or_ne_of_isOperator hkey]
  | nothing => rfl

theorem puts_eq_true {idField key name : String} {c : Condition}
    (h : filterOf [c] idField = .ok ((contribution idField c).addTo [])) :
    puts idField key name c = true ↔
      isOperator key = false
        ∧ name ∈ Keyed.keys ((contribution idField c).operatorsOn key) := by
  rw [puts, h]
  simp only [Bool.and_eq_true, Bool.not_eq_true', Keyed.has_iff_mem_keys]
  refine and_congr_right fun hkey => ?_
  rw [operatorsOf_addTo_nil _ hkey]

/-- What is left of a contribution is satisfied exactly if the operators that are left hold. -/
theorem satisfies_reduced {p : Contribution} (hp : p.IsProper) (drops : String → String → Bool)
    (doc : Json) : satisfies doc (reduced drops (p.addTo [])) = .ok true ↔
      (∀ key, isOperator key = false → ∀ o ∈ p.operatorsOn key, drops key o.1 = false →
        testOperator (doc.field? key) o.1 o.2 = .ok true)
      ∧ ∀ d ∈ p.disjunctions, someOf doc d = .ok true := by
  rw [addTo_nil]
  cases p with
  | nothing => simp [reduced, satisfies, Contribution.operatorsOn, Contribution.disjunctions]
  | disjunction branches =>
    simp [reduced, isOperator_or, satisfies_disjunction, Contribution.operatorsOn,
      Contribution.disjunctions]
  | field k condition =>
    obtain ⟨hk, -⟩ := hp
    have hleft : satisfies doc (reduced drops [(k, condition)]) = .ok true ↔
        ∀ o ∈ (asOperators condition).filter fun o => !drops k o.1,
          testOperator (doc.field? k) o.1 o.2 = .ok true := by
      simp only [reduced, hk, Bool.false_eq_true, if_false]
      cases hops : (asOperators condition).filter fun o => !drops k o.1 with
      | nil => simp [satisfies]
      | cons o rest =>
        have hmarked : ∀ p ∈ o :: rest, isOperator p.1 = true := by
          intro p hmem
          rw [← hops] at hmem
          exact isOperator_asOperators ((List.mem_filter.mp hmem).1)
        rw [satisfies_eq_allHold, allHold_eq_true]
        simp only [List.forall_mem_singleton]
        rw [holdsEntry_field hk, asOperators_obj (by simp) hmarked]
    rw [hleft]
    simp only [List.mem_filter, Bool.not_eq_true', Contribution.disjunctions, List.not_mem_nil,
      false_implies, implies_true, and_true]
    constructor
    · intro h key _ o ho hdrop
      by_cases heq : k = key
      · subst heq
        simp only [Contribution.operatorsOn, if_pos] at ho
        exact h o ⟨ho, hdrop⟩
      · simp [Contribution.operatorsOn, heq] at ho
    · rintro h o ⟨ho, hdrop⟩
      exact h k hk o (by simpa [Contribution.operatorsOn] using ho) hdrop

theorem satisfies_addTo_nil {p : Contribution} (hp : p.IsProper) (doc : Json) :
    satisfies doc (p.addTo []) = .ok true ↔
      (∀ key, isOperator key = false → ∀ o ∈ p.operatorsOn key,
        testOperator (doc.field? key) o.1 o.2 = .ok true)
      ∧ ∀ d ∈ p.disjunctions, someOf doc d = .ok true := by
  rw [(isFilter_nil.addTo hp).satisfies_iff, List.nil_append]
  refine and_congr_left fun _ => forall_congr' fun key => forall_congr' fun hkey => ?_
  rw [operatorsOf_addTo_nil p hkey]

/-! ## Conditions together -/

/-- Whether a document satisfies the filter of conditions. -/
def Selects (idField : String) (conditions : List Condition) (doc : Json) : Prop :=
  ∃ filter, filterOf conditions idField = .ok filter ∧ satisfies doc filter = .ok true

/-- Whether two conditions put one operator on one field of the document. -/
def SharesOperator (idField : String) (c d : Condition) : Prop :=
  ∃ key name, puts idField key name c = true ∧ puts idField key name d = true

theorem selects_iff {idField : String} {conditions : List Condition} {filter : Fields}
    (h : filterOf conditions idField = .ok filter) (doc : Json) :
    Selects idField conditions doc ↔ satisfies doc filter = .ok true := by
  simp [Selects, h]

/-- Conditions that can be compiled alone, each to what it contributes to a filter. -/
def AllCompile (idField : String) (conditions : List Condition) : Prop :=
  ∀ c ∈ conditions, filterOf [c] idField = .ok ((contribution idField c).addTo [])

theorem AllCompile.addConditions {idField : String} {conditions : List Condition}
    (h : AllCompile idField conditions) (filter : Fields) :
    addConditions idField filter conditions = .ok (addAll idField filter conditions) := by
  induction conditions generalizing filter with
  | nil => rfl
  | cons c rest ih =>
    obtain ⟨hc, hrest⟩ := List.forall_mem_cons.mp h
    cases hadd : addCondition idField [] c with
    | error e => simp [filterOf, Document.addConditions, hadd, bind, Except.bind] at hc
    | ok alone =>
      simp only [Document.addConditions, addCondition_ok hadd filter, bind, Except.bind]
      exact ih hrest _

theorem AllCompile.filterOf {idField : String} {conditions : List Condition}
    (h : AllCompile idField conditions) :
    filterOf conditions idField = .ok (addAll idField [] conditions) := h.addConditions []

theorem any_puts_eq_false {idField key : String} {later : List Condition}
    (h : AllCompile idField later) (hkey : isOperator key = false) (name : String) :
    later.any (puts idField key name) = false ↔
      ∀ d ∈ later, name ∉ Keyed.keys ((contribution idField d).operatorsOn key) := by
  rw [List.any_eq_false]
  refine forall_congr' fun d => forall_congr' fun hd => ?_
  rw [puts_eq_true (h d hd)]
  simp [hkey]

/-- A filter of several conditions is satisfied exactly if what is left of each of them is. -/
theorem satisfies_addAll {idField : String} {conditions : List Condition}
    (hcompile : AllCompile idField conditions) (hp : AllProper idField conditions) (doc : Json) :
    satisfies doc (addAll idField [] conditions) = .ok true ↔
      ∀ before c after, conditions = before ++ c :: after →
        satisfies doc (remaining idField after ((contribution idField c).addTo [])) = .ok true := by
  have hshape := isFilter_addAll hp isFilter_nil
  rw [hshape.satisfies_iff]
  constructor
  · rintro ⟨hfields, hds⟩ before c after rfl
    have hc : c ∈ before ++ c :: after := by simp
    have hafter : AllCompile idField after := fun d hd => hcompile d (by simp [hd])
    rw [remaining, satisfies_reduced (hp c hc)]
    refine ⟨fun key hkey o ho hdrop => hfields key hkey o ?_, fun d hd => hds d ?_⟩
    · rw [mem_operatorsOf_addAll hp isFilter_nil hkey]
      exact .inr ⟨before, c, after, rfl, ho, (any_puts_eq_false hafter hkey o.1).mp hdrop⟩
    · exact List.mem_flatMap.mpr ⟨c, hc, hd⟩
  · intro h
    refine ⟨fun key hkey o ho => ?_, fun d hd => ?_⟩
    · rw [mem_operatorsOf_addAll hp isFilter_nil hkey] at ho
      rcases ho with ⟨ho, -⟩ | ⟨before, c, after, rfl, ho, hnot⟩
      · simp [operatorsOf, Keyed.get?] at ho
      · have hafter : AllCompile idField after := fun d hd => hcompile d (by simp [hd])
        have hleft := h before c after rfl
        rw [remaining, satisfies_reduced (hp c (by simp))] at hleft
        exact hleft.1 key hkey o ho ((any_puts_eq_false hafter hkey o.1).mpr hnot)
    · rw [List.nil_append] at hd
      obtain ⟨c, hc, hdc⟩ := List.mem_flatMap.mp hd
      obtain ⟨before, after, rfl⟩ := List.append_of_mem hc
      have hleft := h before c after rfl
      rw [remaining, satisfies_reduced (hp c hc)] at hleft
      exact hleft.2 d hdc

/-- What a condition asks for alone contains what is left of it. -/
theorem satisfies_remaining {p : Contribution} (hp : p.IsProper) {idField : String}
    (later : List Condition) {doc : Json} (h : satisfies doc (p.addTo []) = .ok true) :
    satisfies doc (remaining idField later (p.addTo [])) = .ok true := by
  rw [satisfies_addTo_nil hp] at h
  rw [remaining, satisfies_reduced hp]
  exact ⟨fun key hkey o ho _ => h.1 key hkey o ho, h.2⟩

/-- If no later condition shares an operator with a condition, all of it is left. -/
theorem satisfies_of_remaining {idField : String} {c : Condition} {later : List Condition}
    (hc : filterOf [c] idField = .ok ((contribution idField c).addTo []))
    (hp : (contribution idField c).IsProper)
    (hnot : ∀ d ∈ later, ¬ SharesOperator idField c d) {doc : Json}
    (h : satisfies doc (remaining idField later ((contribution idField c).addTo [])) = .ok true) :
    satisfies doc ((contribution idField c).addTo []) = .ok true := by
  rw [remaining, satisfies_reduced hp] at h
  rw [satisfies_addTo_nil hp]
  refine ⟨fun key hkey o ho => h.1 key hkey o ho ?_, h.2⟩
  rw [List.any_eq_false]
  intro d hd hputs
  exact hnot d hd ⟨key, o.1, (puts_eq_true hc).mpr ⟨hkey, Keyed.mem_keys ho⟩, hputs⟩

theorem selects_iff_forall {idField : String} {conditions : List Condition}
    (hcompile : AllCompile idField conditions) (hp : AllProper idField conditions)
    (hshare : conditions.Pairwise fun c d => ¬ SharesOperator idField c d) (doc : Json) :
    Selects idField conditions doc ↔ ∀ c ∈ conditions, Selects idField [c] doc := by
  rw [selects_iff hcompile.filterOf, satisfies_addAll hcompile hp]
  constructor
  · intro h c hc
    rw [selects_iff (hcompile c hc)]
    obtain ⟨before, after, rfl⟩ := List.append_of_mem hc
    have hafter := (List.pairwise_cons.mp (List.pairwise_append.mp hshare).2.1).1
    exact satisfies_of_remaining (hcompile c hc) (hp c hc) hafter (h before c after rfl)
  · rintro h before c after rfl
    have hc : c ∈ before ++ c :: after := by simp
    have halone := (selects_iff (hcompile c hc) doc).mp (h c hc)
    exact satisfies_remaining (hp c hc) after halone

/-- **Conditions are joined operator by operator.** A document satisfies the filter of conditions
exactly if, for each of them, it satisfies what is left of the filter of that condition alone when
the operators are taken out that a later condition puts on the same field; a plain value is the
operator `$eq`. So a document that satisfies the conditions one by one satisfies them together. If
no two conditions share an operator on a field, then the conditions are conjoined, and more
conditions never select more documents. -/
theorem conditions_conjoined {idField : String} {conditions : List Condition} {filter : Fields}
    (fields : ∀ c ∈ conditions, c.isDisjunction = false → isOperator c.key = false)
    (maps : ∀ c ∈ conditions, c.HasDistinctKeys)
    (compiled : filterOf conditions idField = .ok filter) (doc : Json) :
    (Selects idField conditions doc ↔ ∀ before c after, conditions = before ++ c :: after →
        ∃ alone, filterOf [c] idField = .ok alone
          ∧ satisfies doc (remaining idField after alone) = .ok true)
      ∧ ((∀ c ∈ conditions, Selects idField [c] doc) → Selects idField conditions doc)
      ∧ (conditions.Pairwise (fun c d => ¬ SharesOperator idField c d) →
        (Selects idField conditions doc ↔ ∀ c ∈ conditions, Selects idField [c] doc)
          ∧ ∀ fewer, fewer.Sublist conditions →
            Selects idField conditions doc → Selects idField fewer doc) := by
  have hcompile : AllCompile idField conditions := (addConditions_ok compiled).2
  have hp : AllProper idField conditions := fun c hc =>
    isProper_contribution idField (fields c hc) (maps c hc)
  have hselects : Selects idField conditions doc ↔
      ∀ before c after, conditions = before ++ c :: after →
        satisfies doc (remaining idField after ((contribution idField c).addTo [])) = .ok true := by
    rw [selects_iff hcompile.filterOf, satisfies_addAll hcompile hp]
  refine ⟨?_, ?_, ?_⟩
  · rw [hselects]
    refine forall_congr' fun before => forall_congr' fun c => forall_congr' fun after =>
      forall_congr' fun hsplit => ?_
    rw [hcompile c (by simp [hsplit])]
    simp
  · intro h
    rw [hselects]
    rintro before c after rfl
    have hc : c ∈ before ++ c :: after := by simp
    exact satisfies_remaining (hp c hc) after ((selects_iff (hcompile c hc) doc).mp (h c hc))
  · intro hshare
    have hall := selects_iff_forall hcompile hp hshare doc
    refine ⟨hall, fun fewer hsub h => ?_⟩
    have hfewer := selects_iff_forall (fun c hc => hcompile c (hsub.subset hc))
      (fun c hc => hp c (hsub.subset hc)) (hshare.sublist hsub) doc
    exact hfewer.mpr fun c hc => hall.mp h c (hsub.subset hc)

/-- An age between two bounds, a status or a name, and one of two cities. -/
theorem conditions_conjoined_two_disjunctions :
    let conditions : List Condition :=
      [.on .gt "age" (.one (.integer 1)),
        .group .or "" [[.on .eq "status" (.one (.integer 1))],
          [.on .eq "name" (.one (.text "x"))]] [],
        .on .lt "age" (.one (.integer 9)),
        .group .or "" [[.on .isIn "city" (.many [.text "A", .text "B"])], []] []]
    let doc : Json := .obj [("_id", .int 7), ("age", .int 5), ("name", .str "x"),
      ("city", .str "B")]
    (∃ filter, filterOf conditions "id" = .ok filter) ∧ Selects "id" conditions doc := by
  intro conditions doc
  have fields : ∀ c ∈ conditions, c.isDisjunction = false → isOperator c.key = false := by
    simp only [conditions, List.forall_mem_cons]
    decide
  have maps : ∀ c ∈ conditions, c.HasDistinctKeys := by
    simp [conditions, Condition.HasDistinctKeys]
  have alone : ∀ c ∈ conditions, Selects "id" [c] doc := by
    simp only [conditions, List.forall_mem_cons]
    exact ⟨⟨_, rfl, rfl⟩, ⟨_, rfl, rfl⟩, ⟨_, rfl, rfl⟩, ⟨_, rfl, rfl⟩, by simp⟩
  exact ⟨⟨_, rfl⟩, (conditions_conjoined fields maps rfl doc).2.1 alone⟩

/-- Of two values for one field only the later counts: a document that does not satisfy the first
condition satisfies both together. -/
theorem later_value_replaces :
    let first : Condition := .on .eq "a" (.one (.integer 1))
    let second : Condition := .on .eq "a" (.one (.integer 2))
    let doc : Json := .obj [("_id", .int 7), ("a", .int 2)]
    Selects "id" [first, second] doc ∧ ¬ Selects "id" [first] doc
      ∧ ¬ (Selects "id" [first, second] doc ↔ ∀ c ∈ [first, second], Selects "id" [c] doc) := by
  intro first second doc
  have hboth : Selects "id" [first, second] doc := ⟨_, rfl, rfl⟩
  have hfirst : ¬ Selects "id" [first] doc := by
    rintro ⟨filter, hfilter, h⟩
    have hvalue : filterOf [first] "id" = .ok [("a", .int 1)] := rfl
    rw [hvalue, Except.ok.injEq] at hfilter
    subst hfilter
    have hfalse : satisfies doc [("a", .int 1)] = .ok false := rfl
    rw [hfalse] at h
    simp at h
  exact ⟨hboth, hfirst, fun h => hfirst (h.mp hboth first (by simp))⟩

end DualStore.Document
