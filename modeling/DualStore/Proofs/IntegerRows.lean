import DualStore.Proofs.IntegerConditions
import DualStore.Proofs.WhereClause
import DualStore.Sql.Change

/-!
# Integer conditions on rows

The condition part of a statement, computed on a row whose columns hold integers, has the truth of
the conditions that it was compiled from.

* `Yields`: an expression that a row gives a truth value to;
* `yields_chain_and`, `yields_chain_or`: conjunctions and disjunctions;
* `yields_test`: a test of a column that holds an integer;
* `yields_predicates?`: the predicates of conditions.
-/

namespace DualStore.Relational

open Sql

/-- Whether an expression can be looked up in a table and has the given truth on a row of it. -/
def Yields (shape : TableDef) (row : Row) (e : Expr ColumnName) (b : Bool) : Prop :=
  ∃ found, resolve ((scopeOf shape).find []) e = .ok found ∧ aggregates found = []
    ∧ eval [] row found = .ok (ofTruth (some b))

variable {shape : TableDef} {row : Row}

/-! ## Connectives -/

theorem truth_ofTruth (t : Option Bool) : (ofTruth t).truth = t := by
  cases t with
  | none => rfl
  | some b => cases b <;> rfl

theorem andTruth_some (a b : Bool) : andTruth (some a) (some b) = some (a && b) := by
  cases a <;> cases b <;> rfl

theorem orTruth_some (a b : Bool) : orTruth (some a) (some b) = some (a || b) := by
  cases a <;> cases b <;> rfl

theorem Yields.and {e f : Expr ColumnName} {a b : Bool} (he : Yields shape row e a)
    (hf : Yields shape row f b) : Yields shape row (.and e f) (a && b) := by
  obtain ⟨e', hre, hae, hve⟩ := he
  obtain ⟨f', hrf, haf, hvf⟩ := hf
  refine ⟨.and e' f', ?_, ?_, ?_⟩
  · simp only [resolve, hre, hrf, bind, Except.bind]
  · simp only [aggregates, hae, haf, List.append_nil]
  · simp only [eval, hve, hvf, bind, Except.bind, truth_ofTruth, andTruth_some]

theorem Yields.or {e f : Expr ColumnName} {a b : Bool} (he : Yields shape row e a)
    (hf : Yields shape row f b) : Yields shape row (.or e f) (a || b) := by
  obtain ⟨e', hre, hae, hve⟩ := he
  obtain ⟨f', hrf, haf, hvf⟩ := hf
  refine ⟨.or e' f', ?_, ?_, ?_⟩
  · simp only [resolve, hre, hrf, bind, Except.bind]
  · simp only [aggregates, hae, haf, List.append_nil]
  · simp only [eval, hve, hvf, bind, Except.bind, truth_ofTruth, orTruth_some]

theorem yields_chain_and {es : List (Expr ColumnName)} {bs : List Bool} (hne : es ≠ [])
    (h : List.Forall₂ (Yields shape row) es bs) : Yields shape row (chain .and es) (bs.all id) := by
  induction h with
  | nil => exact absurd rfl hne
  | @cons e b es bs he hes ih =>
    cases hes with
    | nil => simpa [chain] using he
    | @cons f c es bs hf hes =>
      have h := he.and (ih (by simp))
      simpa only [chain, List.all_cons, id] using h

theorem yields_chain_or {es : List (Expr ColumnName)} {bs : List Bool} (hne : es ≠ [])
    (h : List.Forall₂ (Yields shape row) es bs) : Yields shape row (chain .or es) (bs.any id) := by
  induction h with
  | nil => exact absurd rfl hne
  | @cons e b es bs he hes ih =>
    cases hes with
    | nil => simpa [chain] using he
    | @cons f c es bs hf hes =>
      have h := he.or (ih (by simp))
      simpa only [chain, List.any_cons, id] using h

/-! ## Tests of a column -/

/-- A key under which a row has an integer: it names one column, which is none of texts. -/
def ColumnHolds (shape : TableDef) (row : Row) (key : String) (x : Int) : Prop :=
  isPlain key = true ∧
    ∃ place, resolve ((scopeOf shape).find []) (keyExpr key) = .ok (.column place)
    ∧ place.affinity ≠ .text ∧ row[place.index]? = some (.integer x)

theorem convertSides_integer {affinity : Affinity} (h : affinity ≠ .text) (x n : Int) :
    convertSides (affinity, .integer x) (.none, .integer n) = (.integer x, .integer n) := by
  cases affinity with
  | text => exact absurd rfl h
  | _ => rfl

theorem compareSides_integer {affinity : Affinity} (h : affinity ≠ .text) (op : CompareOp)
    (x n : Int) : compareSides op (affinity, .integer x) (.none, .integer n)
      = some (op.accepts (compare x n)) := by
  simp only [compareSides, convertSides_integer h]
  rfl

theorem resolveAll_values (find : ColumnName → Except SqlError (Expr Sql.Place))
    (values : List Value) : resolveAll find (values.map valueExpr)
      = .ok (values.map fun v => .value (Datum.ofValue v)) := by
  induction values with
  | nil => rfl
  | cons v rest ih =>
    have hv : resolve find (valueExpr v) = .ok (.value (Datum.ofValue v)) := resolve_value find _
    simp only [List.map_cons, resolveAll, hv, ih, bind, Except.bind]

theorem aggregatesOfAll_values (values : List Value) :
    aggregatesOfAll (values.map fun v => .value (Datum.ofValue v)) = [] := by
  induction values with
  | nil => rfl
  | cons v rest ih => simp [aggregatesOfAll, aggregates_value, ih]

theorem evalAll_values (group : List Row) (row : Row) (values : List Value) :
    evalAll group row (values.map fun v => .value (Datum.ofValue v))
      = .ok (values.map Datum.ofValue) := by
  induction values with
  | nil => rfl
  | cons v rest ih => simp only [List.map_cons, evalAll, eval_value, ih, bind, Except.bind]

theorem inSides_integers {affinity : Affinity} (h : affinity ≠ .text) (x : Int)
    {values : List Value} (hv : values.all Value.isInt64 = true) :
    inSides (affinity, .integer x) (values.map Datum.ofValue)
      = some (values.any (Value.isInteger x)) := by
  suffices ∀ b : Bool, (values.map Datum.ofValue).foldl
      (fun acc d => orTruth acc (compareSides .eq (affinity, .integer x) (.none, d))) (some b)
        = some (b || values.any (Value.isInteger x)) by simpa [inSides] using this false
  induction values with
  | nil => simp
  | cons v rest ih =>
    simp only [List.all_cons, Bool.and_eq_true] at hv
    obtain ⟨n, rfl⟩ := Value.eq_integer hv.1
    intro b
    have hfirst : compareSides .eq (affinity, .integer x) (.none, Datum.ofValue (.integer n))
        = some (Value.isInteger x (.integer n)) := by
      rw [Datum.ofValue, Value.bound, compareSides_integer h]
      simp only [CompareOp.accepts, Value.isInteger, Int.compare_eq_eq]
    rw [List.map_cons, List.foldl_cons, hfirst, orTruth_some, ih hv.2, List.any_cons, Bool.or_assoc]

theorem yields_compare {key : String} {x n : Int} (h : ColumnHolds shape row key x)
    (operator : Comparison) :
    Yields shape row ((Test.compare operator (.integer n)).expr (keyExpr key))
      (operator.op.accepts (compare x n)) := by
  obtain ⟨-, place, hfind, haffinity, hrow⟩ := h
  refine ⟨.compare operator.op (.column place) (.value (.integer n)), ?_, rfl, ?_⟩
  · simp only [Test.expr, valueExpr, resolve, hfind, bind, Except.bind]
    rfl
  · simp only [eval, hrow, Option.getD_some, affinityOf, bind, Except.bind,
      compareSides_integer haffinity]

theorem yields_isNull {key : String} {x : Int} (h : ColumnHolds shape row key x)
    (negated : Bool) :
    Yields shape row ((Test.isNull negated).expr (keyExpr key)) negated := by
  obtain ⟨-, place, hfind, -, hrow⟩ := h
  refine ⟨.isNull negated (.column place), ?_, rfl, ?_⟩
  · simp only [Test.expr, resolve, hfind, bind, Except.bind]
  · simp only [eval, hrow, Option.getD_some, bind, Except.bind, Datum.isNull]
    cases negated <;> rfl

theorem yields_between {key : String} {x low high : Int} (h : ColumnHolds shape row key x) :
    Yields shape row
      ((Test.between false (.integer low) (.integer high)).expr (keyExpr key))
      (CompareOp.ge.accepts (compare x low) && CompareOp.le.accepts (compare x high)) := by
  obtain ⟨-, place, hfind, haffinity, hrow⟩ := h
  refine ⟨.between false (.column place) (.value (.integer low)) (.value (.integer high)),
    ?_, rfl, ?_⟩
  · simp only [Test.expr, valueExpr, resolve, hfind, bind, Except.bind]
    rfl
  · simp only [eval, hrow, Option.getD_some, affinityOf, bind, Except.bind, betweenSides,
      compareSides_integer haffinity, andTruth_some, negateIf]
    rfl

theorem yields_isIn {key : String} {x : Int} (h : ColumnHolds shape row key x) (negated : Bool)
    {values : List Value} (hv : values.all Value.isInt64 = true) :
    Yields shape row ((Test.isIn negated values).expr (keyExpr key))
      (negated != values.any (Value.isInteger x)) := by
  obtain ⟨-, place, hfind, haffinity, hrow⟩ := h
  refine ⟨.isIn negated (.column place) (values.map fun v => .value (Datum.ofValue v)), ?_, ?_, ?_⟩
  · simp only [Test.expr, resolve, hfind, resolveAll_values, bind, Except.bind]
  · simp only [aggregates, aggregatesOfAll_values, List.append_nil]
  · simp only [eval, hrow, Option.getD_some, affinityOf, evalAll_values, bind, Except.bind,
      inSides_integers haffinity x hv]
    cases negated <;> cases values.any (Value.isInteger x) <;> rfl

/-- The marker of a comparison. -/
def markerOf : Comparison → Logic
  | .eq => .eq
  | .ne => .notEq
  | .lt => .lt
  | .le => .lte
  | .gt => .gt
  | .ge => .gte

theorem accepts_one (operator : Comparison) (x n : Int) :
    (markerOf operator).accepts x (.one (.integer n)) = operator.op.accepts (compare x n) := by
  cases operator <;>
    simp only [markerOf, Logic.accepts, Comparison.op, CompareOp.accepts, Int.compare_eq_eq,
      Int.compare_eq_lt, Int.compare_eq_gt, Int.not_lt, ne_eq]

theorem accepts_range (x low high : Int) :
    Logic.accepts x .between (.range (.integer low) (.integer high))
      = (CompareOp.ge.accepts (compare x low) && CompareOp.le.accepts (compare x high)) := by
  simp only [Logic.accepts, CompareOp.accepts, Int.compare_ne_gt, Int.compare_ne_lt,
    Bool.decide_and]

theorem single_of_test? {logic : Logic} {operand : Operand} {t : Test} (key : String)
    (h : test? logic operand = some t) (hempty : ∀ negated, t ≠ .isIn negated []) :
    single logic key operand = .ok (.test key t) := by
  rw [single, h]
  cases t with
  | isIn negated values =>
    cases values with
    | nil => exact absurd rfl (hempty negated)
    | cons v rest => rfl
  | _ => rfl

/-- What `yields_test` says of one marker and operand. -/
def TestYields (shape : TableDef) (row : Row) (key : String) (x : Int) (logic : Logic)
    (operand : Operand) : Prop :=
  ∃ t, single logic key operand = .ok (.test key t)
    ∧ Yields shape row (t.expr (keyExpr key)) (logic.accepts x operand)

theorem yields_one {key : String} {x : Int} (h : ColumnHolds shape row key x)
    (operator : Comparison) {v : Value} (hv : v.isInt64 = true) :
    TestYields shape row key x (markerOf operator) (.one v) := by
  obtain ⟨n, rfl⟩ := Value.eq_integer hv
  refine ⟨.compare operator (.integer n), ?_, ?_⟩
  · apply single_of_test?
    · cases operator <;> rfl
    · simp
  · rw [accepts_one]
    exact yields_compare h operator

theorem yields_range {key : String} {x : Int} (h : ColumnHolds shape row key x)
    {low high : Value} (hlow : low.isInt64 = true) (hhigh : high.isInt64 = true) :
    TestYields shape row key x .between (.range low high) := by
  obtain ⟨m, rfl⟩ := Value.eq_integer hlow
  obtain ⟨n, rfl⟩ := Value.eq_integer hhigh
  refine ⟨.between false (.integer m) (.integer n), rfl, ?_⟩
  rw [accepts_range]
  exact yields_between h

theorem yields_many {key : String} {x : Int} (h : ColumnHolds shape row key x) (negated : Bool)
    {values : List Value} (hne : values.isEmpty = false)
    (hv : values.all Value.isInt64 = true) :
    TestYields shape row key x (if negated then .notIn else .isIn) (.many values) := by
  refine ⟨.isIn negated values, ?_, ?_⟩
  · apply single_of_test?
    · cases negated <;> rfl
    · intro other heq
      simp only [Test.isIn.injEq] at heq
      simp [heq.2] at hne
  · have hyields := yields_isIn h negated hv
    cases negated <;> simpa [Logic.accepts] using hyields

/-- A test of a column that holds an integer has the truth of its marker on the integer. -/
theorem yields_test {logic : Logic} {key : String} {operand : Operand} {x : Int}
    (h : ColumnHolds shape row key x) (htakes : logic.takes operand = true) :
    TestYields shape row key x logic operand := by
  cases logic <;> cases operand <;>
    simp only [Logic.takes, Bool.and_eq_true, Bool.not_eq_true', Bool.false_eq_true] at htakes
  case eq.one => exact yields_one h .eq htakes
  case notEq.one => exact yields_one h .ne htakes
  case lt.one => exact yields_one h .lt htakes
  case lte.one => exact yields_one h .le htakes
  case gt.one => exact yields_one h .gt htakes
  case gte.one => exact yields_one h .ge htakes
  case between.range => exact yields_range h htakes.1 htakes.2
  case isIn.many => exact yields_many h false htakes.1 htakes.2
  case notIn.many => exact yields_many h true htakes.1 htakes.2
  all_goals first
    | exact ⟨.isNull false, rfl, yields_isNull h false⟩
    | exact ⟨.isNull true, rfl, yields_isNull h true⟩

/-! ## Conditions -/

/-- The truth of predicates on a row, one after the other. -/
abbrev YieldAll (shape : TableDef) (row : Row) : List (Expr ColumnName) → List Bool → Prop :=
  List.Forall₂ (Yields shape row)

/-- What a condition is compiled to has its truth on a row. -/
def Compiles (shape : TableDef) (row : Row) (value : String → Int) (c : Condition) : Prop :=
  ∃ r, predicate? c = .ok r ∧ r.isSome = c.contributes
    ∧ ∀ p ∈ r, Yields shape row p.expr (c.meets value)

/-- What conditions are compiled to has their truth on a row. -/
def AllCompile (shape : TableDef) (row : Row) (value : String → Int) (cs : List Condition) :
    Prop :=
  ∃ ps, predicates? cs = .ok ps ∧ ps.isEmpty = !Condition.anyContributes cs
    ∧ ∃ bs, YieldAll shape row (Predicate.exprs ps) bs ∧ bs.all id = Condition.allMeet value cs

/-- What the groups of a disjunction are compiled to has their truth on a row. -/
def MembersCompile (shape : TableDef) (row : Row) (value : String → Int)
    (members : List (List Condition)) : Prop :=
  ∃ branches, branches? members = .ok branches
    ∧ branches.isEmpty = !Condition.anyMemberContributes members
    ∧ ∃ bs, YieldAll shape row (Predicate.branchExprs branches) bs
      ∧ bs.any id = Condition.someMeet value members

theorem MembersCompile.compiles {value : String → Int} {members : List (List Condition)}
    (h : MembersCompile shape row value members) (key : String) (others : List Parts) :
    Compiles shape row value (.group .or key members others) := by
  obtain ⟨branches, hcompile, hempty, bs, hyield, hmeet⟩ := h
  refine ⟨if branches.isEmpty then none else some (.any branches), ?_, ?_, ?_⟩
  · simp only [predicate?, hcompile, bind, Except.bind]
  · rw [hempty, Condition.contributes]
    cases Condition.anyMemberContributes members <;> rfl
  · intro p hp
    cases branches with
    | nil => simp at hp
    | cons branch branches =>
      simp only [List.isEmpty_cons, Bool.false_eq_true, if_false, Option.mem_def,
        Option.some.injEq] at hp
      subst hp
      rw [Predicate.expr, Condition.meets, ← hmeet]
      exact yields_chain_or (by simp [Predicate.branchExprs]) hyield

theorem AllCompile.cons {value : String → Int} {c : Condition} {cs : List Condition}
    (hc : Compiles shape row value c) (hcs : AllCompile shape row value cs) :
    AllCompile shape row value (c :: cs) := by
  obtain ⟨r, hcompile, hcontributes, hyields⟩ := hc
  obtain ⟨ps, hcompiles, hempty, bs, hyield, hmeet⟩ := hcs
  refine ⟨r.toList ++ ps, by simp only [predicates?, hcompile, hcompiles, bind, Except.bind],
    ?_, ?_⟩
  · cases r <;> simp [Condition.anyContributes, ← hcontributes, hempty]
  · rw [Condition.allMeet, ← hcontributes, ← hmeet]
    cases r with
    | none => exact ⟨bs, hyield, by simp⟩
    | some p =>
      have hp := hyields p rfl
      exact ⟨c.meets value :: bs, .cons hp hyield, by simp⟩

theorem MembersCompile.cons {value : String → Int} {member : List Condition}
    {members : List (List Condition)} (hm : AllCompile shape row value member)
    (hms : MembersCompile shape row value members) :
    MembersCompile shape row value (member :: members) := by
  obtain ⟨branch, hcompile, hempty, bs, hyield, hmeet⟩ := hm
  obtain ⟨branches, hcompiles, hempties, cs, hyields, hmeets⟩ := hms
  refine ⟨if branch.isEmpty then branches else branch :: branches,
    by simp only [branches?, hcompile, hcompiles, bind, Except.bind], ?_, ?_⟩
  · cases branch <;> simp_all [Condition.anyMemberContributes]
  · rw [Condition.someMeet, ← hmeet, ← hmeets]
    cases branch with
    | nil =>
      simp only [List.isEmpty_nil, Bool.true_eq, Bool.not_eq_true'] at hempty
      exact ⟨cs, hyields, by simp [hempty]⟩
    | cons p branch =>
      simp only [List.isEmpty_cons, Bool.false_eq, Bool.not_eq_false'] at hempty
      have hp := yields_chain_and (by simp [Predicate.exprs]) hyield
      exact ⟨bs.all id :: cs, .cons hp hyields, by simp [hempty]⟩

mutual

theorem compiles {value : String → Int} {isField : String → Prop}
    (hcol : ∀ key, isField key → ColumnHolds shape row key (value key)) :
    ∀ c : Condition, c.Compares isField → Compiles shape row value c
  | .on logic key operand, h => by
    obtain ⟨t, hsingle, hyields⟩ := yields_test (hcol key h.1) h.2
    refine ⟨some (.test key t), by simp only [predicate?, hsingle, Except.map], rfl, ?_⟩
    intro p hp
    simp only [Option.mem_def, Option.some.injEq] at hp
    subst hp
    exact hyields
  | .group logic key members others, h => by
    cases logic with
    | or => exact (membersCompile hcol members h).compiles key others
    | _ => exact absurd h (by simp [Condition.Compares])

theorem allCompile {value : String → Int} {isField : String → Prop}
    (hcol : ∀ key, isField key → ColumnHolds shape row key (value key)) :
    ∀ cs : List Condition, Condition.AllCompare isField cs → AllCompile shape row value cs
  | [], _ => ⟨[], rfl, rfl, [], .nil, rfl⟩
  | c :: rest, h => .cons (compiles hcol c h.1) (allCompile hcol rest h.2.2)

theorem membersCompile {value : String → Int} {isField : String → Prop}
    (hcol : ∀ key, isField key → ColumnHolds shape row key (value key)) :
    ∀ members : List (List Condition), Condition.MembersCompare isField members →
      MembersCompile shape row value members
  | [], _ => ⟨[], rfl, rfl, [], .nil, rfl⟩
  | member :: rest, h => .cons (allCompile hcol member h.1) (membersCompile hcol rest h.2)

end

/-! ## The condition part -/

mutual

theorem hasPlainKeys_of_compares {isField : String → Prop}
    (h : ∀ key, isField key → isPlain key = true) :
    ∀ c : Condition, c.Compares isField → c.hasPlainKeys = true
  | .on logic key operand, hc => h key hc.1
  | .group logic key members _, hc => by
    cases logic with
    | or => exact membersHavePlainKeys_of_compare h members hc
    | _ => exact absurd hc (by simp [Condition.Compares])

theorem allHavePlainKeys_of_compare {isField : String → Prop}
    (h : ∀ key, isField key → isPlain key = true) :
    ∀ cs : List Condition, Condition.AllCompare isField cs → Condition.allHavePlainKeys cs = true
  | [], _ => rfl
  | c :: rest, hc => by
    rw [Condition.allHavePlainKeys, hasPlainKeys_of_compares h c hc.1,
      allHavePlainKeys_of_compare h rest hc.2.2]
    rfl

theorem membersHavePlainKeys_of_compare {isField : String → Prop}
    (h : ∀ key, isField key → isPlain key = true) :
    ∀ members : List (List Condition), Condition.MembersCompare isField members →
      Condition.membersHavePlainKeys members = true
  | [], _ => rfl
  | member :: rest, hc => by
    rw [Condition.membersHavePlainKeys, allHavePlainKeys_of_compare h member hc.1,
      membersHavePlainKeys_of_compare h rest hc.2]
    rfl

end

/-- The condition part of integer conditions is true of a row exactly if the integers in the row
meet the conditions. -/
theorem clause_holds {value : String → Int} {isField : String → Prop}
    (hcol : ∀ key, isField key → ColumnHolds shape row key (value key))
    {conditions : List Condition} (h : Condition.AllCompare isField conditions) :
    ∃ text parameters condition found, clause [] conditions = .ok (text, parameters)
      ∧ readClause? text parameters = some condition
      ∧ resolveCondition shape condition = .ok found
      ∧ holds found row = .ok (Condition.allMeet value conditions) := by
  have hplain := allHavePlainKeys_of_compare (fun key hkey => (hcol key hkey).1) conditions h
  obtain ⟨ps, hps, -, bs, hyields, hmeet⟩ := allCompile hcol conditions h
  have hregular := (renders_predicates? conditions ps hplain hps).regular
  have hread := readClause?_clauseText hregular
  have hclause : clause [] conditions = .ok (clauseText ps, Predicate.allParameters ps) := by
    simp only [clause, hps, bind, Except.bind, List.nil_append]
  cases ps with
  | nil =>
    cases hyields
    refine ⟨_, _, none, none, hclause, hread, rfl, ?_⟩
    rw [← hmeet]
    rfl
  | cons p ps =>
    obtain ⟨found, hfound, hagg, heval⟩ := yields_chain_and (by simp [Predicate.exprs]) hyields
    refine ⟨_, _, some (chain .and (Predicate.exprs (p :: ps))), some found, hclause, hread, ?_, ?_⟩
    · simp only [resolveCondition, resolvePlain, hfound, hagg, bind, Except.bind, Except.map,
        List.isEmpty_nil, if_true]
    · simp only [holds, heval, Except.map, truth_ofTruth, hmeet, Option.some.injEq,
        Bool.decide_eq_true]

end DualStore.Relational
