import Mathlib.Data.List.TakeWhile
import Mathlib.Data.List.TakeDrop
import DualStore.Proofs.EntityMetadata
import DualStore.Proofs.IntegerDocuments
import DualStore.Proofs.IntegerRows

/-!
# Both stores select the same entities

An entity is written as a row and as a document. Conditions on its integer fields are true of the
row exactly if the document satisfies their filter: both say what the conditions say of the integers
in the entity. A date is left out, since its column has a text.

* `isIdentifier`, `IsIntegerField`: keys that name an integer in an entity;
* `columnHolds`, `fieldHolds`: the integer in the row, and in the document;
* `stores_select_same`: the main statement;
* `date_differs`: a date on which the stores do not agree.
-/

namespace DualStore

open Model Relational Sql

/-! ## Keys -/

/-- Whether a key is an identifier that the grammar does not keep for itself. -/
def isIdentifier (key : String) : Bool :=
  isPlain key && key.toList.all (fun c => c.isAlphanum || c = '_')
    && !(key.toList.head?.any Char.isDigit)

theorem notMem_of_isIdentifier {key : String} (h : isIdentifier key = true) {c : Char}
    (hc : (c.isAlphanum || c = '_') = false) : c ∉ key.toList := by
  intro hmem
  simp only [isIdentifier, Bool.and_eq_true, List.all_eq_true] at h
  have := h.1.2 c hmem
  rw [hc] at this
  exact Bool.false_ne_true this

theorem ofWord_of_notMem {key : String} (h : '.' ∉ key.toList) :
    ColumnName.ofWord key = ⟨none, key⟩ := by
  have hspan : key.toList.reverse.span (fun c => c ≠ '.') = (key.toList.reverse, []) := by
    rw [List.span_eq_takeWhile_dropWhile, Prod.mk.injEq, List.takeWhile_eq_self_iff,
      List.dropWhile_eq_nil_iff]
    have hall : ∀ c ∈ key.toList.reverse, decide (c ≠ '.') = true := by
      intro c hc
      rw [decide_eq_true_iff]
      rintro rfl
      exact h (List.mem_reverse.mp hc)
    exact ⟨hall, hall⟩
  rw [ColumnName.ofWord, hspan]

theorem keyExpr_of_isIdentifier {key : String} (h : isIdentifier key = true) :
    keyExpr key = .column ⟨none, key⟩ := by
  have hnumber : numberOfWord false key = none := by
    simp only [isIdentifier, Bool.and_eq_true, Bool.not_eq_true'] at h
    unfold numberOfWord
    cases hcs : key.toList with
    | nil => rfl
    | cons c rest =>
      rw [hcs] at h
      have hdigit : c.isDigit = false := by simpa using h.2
      simp [hdigit]
  rw [keyExpr, hnumber, ofWord_of_notMem (notMem_of_isIdentifier h (by decide))]

theorem isOperator_of_isIdentifier {key : String} (h : isIdentifier key = true) :
    Document.isOperator key = false := by
  have hnot := notMem_of_isIdentifier h (c := '$') (by decide)
  unfold Document.isOperator
  cases hcs : key.toList with
  | nil => rfl
  | cons c rest =>
    rw [hcs, List.mem_cons, not_or] at hnot
    simp [Ne.symm hnot.1]

/-! ## Entities -/

/-- A row of a table that holds the columns of an entity: no two columns have one name, and an
integer stands unchanged in its column, which is not declared for texts. -/
structure IsRowOf (shape : TableDef) (row : Row) (values : List (String × Value)) : Prop where
  names : (shape.columns.map fun c => foldCase c.name).Nodup
  integers : ∀ name n, (name, .integer n) ∈ values → ∃ (i : Nat) (column : ColumnDef),
    shape.columns[i]? = some column ∧ column.name = name ∧ column.affinity ≠ .text ∧
      row[i]? = some (.integer n)

/-- Whether a key names an integer of 64 bits in an entity: the identity, or a field of an integer
kind that is stored and no date. -/
structure IsIntegerField (m : EntityMeta) (body : Fields) (key : String) : Prop where
  identifier : isIdentifier key = true
  notIdKey : key ≠ Document.idKey
  field : key = m.idField ∨ ∃ field ∈ m.fields, field.name = key ∧ field.ignored = false
    ∧ field.kind.isInteger = true ∧ field.isDate = false
    ∧ ∃ n, Keyed.get? key body = some (.int n) ∧ Decimal.fitsInt64 n = true

def integerOf (m : EntityMeta) (id : Int) (body : Fields) (key : String) : Int :=
  if key = m.idField then id else ((Keyed.get? key body).bind Json.asInt64?).getD 0

/-- A name that no column has stands for none. -/
theorem places_eq_nil {c : ColumnName} {scope : Scope}
    (h : ∀ v ∈ scope, foldCase v.name ≠ foldCase c.name) (first : Nat) :
    Scope.places c first scope = [] := by
  induction scope generalizing first with
  | nil => rfl
  | cons v rest ih =>
    obtain ⟨hv, hrest⟩ := List.forall_mem_cons.mp h
    have hnamed : v.isNamed c = false := by
      rw [Visible.isNamed, decide_eq_false hv, Bool.false_and]
    rw [Scope.places, hnamed]
    exact ih hrest (first + 1)

theorem places_eq {c : ColumnName} (hc : c.table = none) {scope : Scope}
    (hnames : (scope.map fun v => foldCase v.name).Nodup) {i : Nat} {v : Visible}
    (hv : scope[i]? = some v) (hname : foldCase v.name = foldCase c.name) (first : Nat) :
    Scope.places c first scope = [⟨first + i, v.affinity⟩] := by
  induction scope generalizing i first with
  | nil => simp at hv
  | cons w rest ih =>
    rw [List.map_cons, List.nodup_cons] at hnames
    have hnamed : ∀ u : Visible, u.isNamed c = decide (foldCase u.name = foldCase c.name) := by
      simp [Visible.isNamed, hc]
    cases i with
    | zero =>
      simp only [List.getElem?_cons_zero, Option.some.injEq] at hv
      subst hv
      have hrest : ∀ u ∈ rest, foldCase u.name ≠ foldCase c.name := by
        intro u hu heq
        exact hnames.1 (List.mem_map.mpr ⟨u, hu, heq.trans hname.symm⟩)
      rw [Scope.places, hnamed, hname, places_eq_nil hrest]
      simp
    | succ i =>
      simp only [List.getElem?_cons_succ] at hv
      have hw : w.isNamed c = false := by
        rw [hnamed, decide_eq_false_iff_not, ← hname]
        intro heq
        apply hnames.1
        rw [heq]
        exact List.mem_map.mpr ⟨v, List.mem_of_getElem? hv, rfl⟩
      rw [Scope.places, hw]
      have hplaces := ih hnames.2 hv (first + 1)
      simp only [Bool.false_eq_true, if_false, hplaces, Nat.add_assoc, Nat.add_comm 1 i]

/-- A row that holds the columns of an entity has its integers under their names. -/
theorem IsRowOf.columnHolds {shape : TableDef} {row : Row} {values : List (String × Value)}
    (h : IsRowOf shape row values) {key : String} (hkey : isIdentifier key = true) {n : Int}
    (hn : (key, .integer n) ∈ values) : ColumnHolds shape row key n := by
  obtain ⟨i, column, hcolumn, rfl, haffinity, hrow⟩ := h.integers key n hn
  have hplain : isPlain column.name = true := by
    simp only [isIdentifier, Bool.and_eq_true] at hkey
    exact hkey.1.1
  have hscope : (scopeOf shape)[i]? = some ⟨shape.name, column.name, column.affinity⟩ := by
    simp [scopeOf, hcolumn]
  have hnames : ((scopeOf shape).map fun v => foldCase v.name).Nodup := by
    simpa [scopeOf, Function.comp_def] using h.names
  have hplaces := places_eq (c := ⟨none, column.name⟩) rfl hnames hscope rfl 0
  rw [Nat.zero_add] at hplaces
  refine ⟨hplain, ⟨i, column.affinity⟩, ?_, haffinity, hrow⟩
  rw [keyExpr_of_isIdentifier hkey, resolve, Scope.find, hplaces]

theorem fieldParameter_int {field : Field} {n : Int} (hkind : field.kind.isInteger = true)
    (hdate : field.isDate = false) (hn : Decimal.fitsInt64 n = true) (zone : Calendar.Zone) :
    fieldParameter field (some (.int n)) zone = .ok (some (.integer n)) := by
  cases hk : field.kind <;> simp [hk, FieldKind.isInteger] at hkind
  simp [fieldParameter, hk, Json.asInt64?, hn, hdate]

/-! ## The stores -/

section

variable {m : EntityMeta} {zone : Calendar.Zone} {id : Int} {body : Fields}
  {values : List (String × Value)}

/-- The row of an entity has the integers of the entity. -/
theorem columnHolds (hchecked : m.IsChecked) (hid : m.idField = idColumn)
    (hvalues : columnValues zone body (Field.persisted m.fields) = .ok values)
    {shape : TableDef} {row : Row} (hrow : IsRowOf shape row ((idColumn, .integer id) :: values))
    {key : String} (h : IsIntegerField m body key) :
    ColumnHolds shape row key (integerOf m id body key) := by
  apply hrow.columnHolds h.identifier
  rcases h.field with rfl | ⟨field, hfield, rfl, hkept, hkind, hdate, n, hget, hn⟩
  · simp [integerOf, hid]
  · have hne : field.name ≠ m.idField := hchecked.identity field hfield
    have hvalue : integerOf m id body field.name = n := by
      simp [integerOf, hne, hget, Json.asInt64?, hn]
    have hpersisted : field ∈ Field.persisted m.fields := by
      simp [Field.persisted, hfield, hkept]
    rw [hvalue]
    refine List.mem_cons_of_mem _ (mem_columnValues hvalues hpersisted ?_)
    rw [hget]
    exact fieldParameter_int hkind hdate hn zone

/-- The document of an entity has the integers of the entity. -/
theorem fieldHolds (hchecked : m.IsChecked) (hbody : (Keyed.keys body).Nodup) {d : Document}
    (hstored : Document.ofEntity m id (.obj body) = .ok d) (hfits : Decimal.fitsInt64 id = true)
    {key : String} (h : IsIntegerField m body key) :
    Document.FieldHolds d.toJson m.idField key (integerOf m id body key) := by
  have hop := isOperator_of_isIdentifier h.identifier
  rcases h.field with rfl | ⟨field, hfield, rfl, hkept, hkind, hdate, n, hget, hn⟩
  · refine ⟨hop, h.notIdKey, ?_, by simpa [integerOf] using hfits⟩
    simpa [Document.documentKey, integerOf] using Document.field?_idKey_ofEntity hstored
  · have hne : field.name ≠ m.idField := hchecked.identity field hfield
    have hvalue : integerOf m id body field.name = n := by
      simp [integerOf, hne, hget, Json.asInt64?, hn]
    have hkey : Document.documentKey m.idField field.name = field.name := by
      rw [Document.documentKey, if_neg]
      rintro (heq | heq)
      · exact hne heq
      · exact h.notIdKey heq
    refine ⟨hop, h.notIdKey, ?_, by rw [hvalue]; exact hn⟩
    rw [hkey, hvalue, ← hget]
    exact Document.field?_ofEntity hstored hbody hne.symm h.notIdKey.symm
      fun other hother hignored => hchecked.ne_of_ignored hfield hother hkept hignored

/-- **Both stores select the same entities.** Conditions that compare integer fields of an entity
with integers, disjunctions nested to any depth, no conjunction naming a field twice, can be
compiled for both stores. On the row of the entity the condition part that their text spells has
the truth that their filter has on its document, which is what they say of the integers in the
entity. -/
theorem stores_select_same {t : EntityType} (resolved : t.resolve = .ok m)
    (identity : m.idField = idColumn) (object : (Keyed.keys body).Nodup)
    (fits : Decimal.fitsInt64 id = true)
    (written : columnValues zone body (Field.persisted m.fields) = .ok values)
    {shape : TableDef} {row : Row} (stored : IsRowOf shape row ((idColumn, .integer id) :: values))
    {d : Document} (document : Document.ofEntity m id (.obj body) = .ok d)
    {conditions : List Condition}
    (compare : Condition.AllCompare (IsIntegerField m body) conditions) :
    ∃ text parameters condition found filter,
      clause [] conditions = .ok (text, parameters)
        ∧ readClause? text parameters = some condition
        ∧ resolveCondition shape condition = .ok found
        ∧ holds found row = .ok (Condition.allMeet (integerOf m id body) conditions)
        ∧ Document.filterOf conditions m.idField = .ok filter
        ∧ Document.satisfies d.toJson filter
          = .ok (Condition.allMeet (integerOf m id body) conditions) := by
  have hchecked := isChecked_resolve resolved
  obtain ⟨text, parameters, condition, found, hclause, hread, hfound, hholds⟩ :=
    clause_holds (fun key => columnHolds hchecked identity written stored) compare
  obtain ⟨filter, hfilter, -, hsatisfies⟩ :=
    Document.filterOf_decides (fun key => fieldHolds hchecked object document fits) compare
  exact ⟨text, parameters, condition, found, filter, hclause, hread, hfound, hholds, hfilter,
    hsatisfies⟩

end

/-- The type of an account: a name, and a balance that is no date. -/
def accountType : EntityType where
  name := "Account"
  identity := ⟨"id", "account", false⟩
  fields := [⟨"owner", .string, false, false⟩, ⟨"balance", .int .w64, false, false⟩]
  layout := .record [⟨"id", .int .w64⟩, ⟨"owner", .text⟩, ⟨"balance", .int .w64⟩]
  key := "id"

/-- An account, a balance above five or one of two identities, and a balance of at most nine. -/
theorem stores_select_same_account :
    let body : Fields := [("id", .int 7), ("owner", .str "a"), ("balance", .int 6)]
    let shape : TableDef :=
      ⟨"account", [⟨"id", .integer⟩, ⟨"owner", .text⟩, ⟨"balance", .integer⟩], false, false⟩
    let row : Row := [.integer 7, .text "a", .integer 6]
    let conditions : List Condition :=
      [.group .or "" [[.on .gt "balance" (.one (.integer 5))], [],
          [.on .isIn "id" (.many [.integer 1, .integer 2])]] [],
        .on .lte "balance" (.one (.integer 9))]
    ∃ m d text parameters condition found filter, accountType.resolve = .ok m
      ∧ Document.ofEntity m 7 (.obj body) = .ok d
      ∧ clause [] conditions = .ok (text, parameters)
      ∧ readClause? text parameters = some condition
      ∧ resolveCondition shape condition = .ok found ∧ holds found row = .ok true
      ∧ Document.filterOf conditions m.idField = .ok filter
      ∧ Document.satisfies d.toJson filter = .ok true := by
  intro body shape row conditions
  let m : EntityMeta := ⟨"Account", "account", "id", false, accountType.fields⟩
  have resolved : accountType.resolve = .ok m := by decide +kernel
  have written : columnValues .universal body (Field.persisted m.fields)
      = .ok [("owner", .text "a"), ("balance", .integer 6)] := rfl
  have stored : IsRowOf shape row
      [(idColumn, .integer 7), ("owner", .text "a"), ("balance", .integer 6)] := by
    refine ⟨by decide, fun name n h => ?_⟩
    simp only [List.mem_cons, Prod.mk.injEq, Value.integer.injEq, reduceCtorEq, and_false,
      List.not_mem_nil, or_false, false_or] at h
    rcases h with ⟨rfl, rfl⟩ | ⟨rfl, rfl⟩
    · exact ⟨0, ⟨"id", .integer⟩, rfl, rfl, by decide, rfl⟩
    · exact ⟨2, ⟨"balance", .integer⟩, rfl, rfl, by decide, rfl⟩
  have hbalance : IsIntegerField m body "balance" :=
    ⟨by decide, by decide, .inr ⟨⟨"balance", .int .w64, false, false⟩, by simp [m, accountType],
      rfl, rfl, rfl, rfl, 6, rfl, by decide⟩⟩
  have hid : IsIntegerField m body "id" := ⟨by decide, by decide, .inl rfl⟩
  have compare : Condition.AllCompare (IsIntegerField m body) conditions := by
    simp only [conditions, Condition.AllCompare, Condition.Compares, Condition.MembersCompare,
      Condition.fieldKeys]
    simp [hbalance, hid, Logic.takes, Value.isInt64]
    decide
  obtain ⟨text, parameters, condition, found, filter, hclause, hread, hfound, hholds, hfilter,
    hsatisfies⟩ := stores_select_same resolved rfl (by decide) (by decide)
      written stored (d := ⟨7, [("balance", .int 6), ("owner", .str "a")]⟩) rfl compare
  exact ⟨m, _, text, parameters, condition, found, filter, resolved, rfl, hclause, hread, hfound,
    hholds, hfilter, hsatisfies⟩

/-- The column of a date has a text, which no integer is compared with as the document compares it:
of a birth after 1970 the row says that it is not greater than five, the document that it is. -/
theorem date_differs :
    let m : EntityMeta := ⟨"Profile", "profile", "id", false, [⟨"born", .int .w64, false, true⟩]⟩
    let body : Fields := [("id", .int 1), ("born", .int 1700000000123)]
    let shape : TableDef := ⟨"profile", [⟨"id", .integer⟩, ⟨"born", .text⟩], false, false⟩
    let row : Row := [.integer 1, .text "2023-11-14 22:13:20"]
    let conditions : List Condition := [.on .gt "born" (.one (.integer 5))]
    columnValues .universal body (Field.persisted m.fields)
        = .ok [("born", .text "2023-11-14 22:13:20")]
      ∧ ∃ d text parameters condition found filter, Document.ofEntity m 1 (.obj body) = .ok d
        ∧ clause [] conditions = .ok (text, parameters)
        ∧ readClause? text parameters = some condition
        ∧ resolveCondition shape condition = .ok found ∧ holds found row = .ok false
        ∧ Document.filterOf conditions "id" = .ok filter
        ∧ Document.satisfies d.toJson filter = .ok true := by
  intro m body shape row conditions
  have htext : Calendar.write? 1700000000123 .universal = some "2023-11-14 22:13:20" := by
    decide +kernel
  have hwritten : columnValues .universal body (Field.persisted m.fields)
      = .ok [("born", .text "2023-11-14 22:13:20")] := by
    have hfields : Field.persisted m.fields = m.fields := rfl
    have hget : Keyed.get? "born" body = some (.int 1700000000123) := rfl
    have hfits : Decimal.fitsInt64 1700000000123 = true := by decide +kernel
    simp [hfields, m, columnValues, hget, fieldParameter, Json.asInt64?, hfits, htext, bind,
      Except.bind]
  have hregular : Predicate.AreRegular [.test "born" (.compare .gt (.integer 5))] :=
    ⟨⟨by decide, trivial⟩, trivial⟩
  have htest : clauseText [.test "born" (.compare .gt (.integer 5))] = " WHERE born > ?" := rfl
  have hvalues : Predicate.allParameters [.test "born" (.compare .gt (.integer 5))]
      = [.integer 5] := rfl
  have hcondition : conditionOf [.test "born" (.compare .gt (.integer 5))]
      = some (.compare .gt (.column ⟨none, "born"⟩) (.value (.integer 5))) := rfl
  have hread := readClause?_clauseText hregular
  rw [htest, hvalues, hcondition] at hread
  have hfits : Decimal.fitsInt64 1700000000123 = true := by decide +kernel
  have hsatisfies : Document.satisfies
      (.obj [("_id", .int 1), ("born", .int 1700000000123)])
      [("born", Document.operator "$gt" (.int 5))] = .ok true := by
    have hfield : Json.field? "born" (.obj [("_id", .int 1), ("born", .int 1700000000123)])
        = some (.int 1700000000123) := rfl
    have hgt : Document.testOperator (some (.int 1700000000123)) "$gt" (.int 5) = .ok true := by
      simp [Document.testOperator, Document.ordered_int hfits (n := 5) (by decide),
        Int.compare_eq_gt]
    have hdecides := Document.decidesField_operator (by decide) hgt
    rw [Document.satisfies, if_neg (by decide), if_neg (by decide), hfield, hdecides.answer]
    rfl
  have hfound : resolveCondition ⟨"profile", [⟨"id", .integer⟩, ⟨"born", .text⟩], false, false⟩
      (some (.compare .gt (.column ⟨none, "born"⟩) (.value (.integer 5))))
        = .ok (some (.compare .gt (.column ⟨1, .text⟩) (.value (.integer 5)))) := rfl
  exact ⟨hwritten, ⟨1, [("born", .int 1700000000123)]⟩, " WHERE born > ?", [.integer 5], _,
    _, _, rfl, rfl, hread, hfound, rfl, rfl, hsatisfies⟩

end DualStore
