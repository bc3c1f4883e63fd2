import DualStore.Proofs.DateColumns
import DualStore.Proofs.DateOrder
import DualStore.Proofs.IntegerRows
import DualStore.Proofs.OrderClause
import DualStore.Proofs.PlanRuns
import DualStore.Sql.Query

/-!
# Rows of dates searched and ordered

A column of dates keeps their texts, whatever type it has. Compared with date texts and ordered, the
rows follow the instants that they were saved for. A search for milliseconds compares a text with a
number and follows nothing.

* `readNumber?_write?`, `convert_text`: a column of any type leaves a date text as it is;
* `KeepsDate`: a row that keeps what a field binds for an instant;
* `holds_between`: a range of dates;
* `ComeByDate`, `select_by_date`: a select that orders by a column of dates;
* `date_columns_follow_time`: the main statement;
* `range_of_numbers`: a range of milliseconds misses a date in it.
-/

namespace DualStore.Sql

/-! ## Date texts in columns -/

/-- A text of digits, a hyphen and more is no number. -/
theorem readUnsigned?_hyphen {ds : List Char} (hne : ds ≠ []) (hdigits : ds.all Char.isDigit = true)
    (negative : Bool) (rest : List Char) : readUnsigned? negative (ds ++ '-' :: rest) = none := by
  have hstop : Text.StopsAt Char.isDigit ('-' :: rest) := Text.stopsAt_cons (by decide) _
  have hexponent : readExponent? ('-' :: rest) = none := rfl
  simp only [readUnsigned?, Text.takeWhile_append_stopsAt hdigits hstop,
    Text.dropWhile_append_stopsAt hdigits hstop]
  simp [hne, hexponent]

/-- A text that begins and ends with digits has no blanks to set aside. -/
theorem readNumber?_of_digits {s : String} {first last : Char} {cs : List Char}
    (hs : s.toList = first :: cs) (hfirst : first.isDigit = true)
    (hend : s.toList.reverse.head? = some last) (hlast : last.isDigit = true) :
    readNumber? s = readUnsigned? false s.toList := by
  have hspace : ∀ c : Char, c.isDigit = true → isNumberSpace c = false := by
    intro c hc
    have hrange := Text.isDigit_range hc
    rw [Bool.eq_false_iff]
    intro h
    simp only [isNumberSpace, Bool.or_eq_true, decide_eq_true_eq] at h
    rcases h with ((((rfl | rfl) | rfl) | rfl) | rfl) | rfl <;> exact absurd hrange (by decide)
  have hfront : s.toList.dropWhile isNumberSpace = s.toList := by
    rw [hs]
    exact Text.dropWhile_of_stopsAt (Text.stopsAt_cons (hspace first hfirst) _)
  have hback : s.toList.reverse.dropWhile isNumberSpace = s.toList.reverse := by
    apply Text.dropWhile_of_stopsAt
    intro c hc
    rw [hend] at hc
    rw [← Option.some.inj hc]
    exact hspace last hlast
  simp only [readNumber?, hfront, hback, List.reverse_reverse]
  rw [hs]
  split
  · next heq =>
    rw [(List.cons.inj heq).1] at hfirst
    exact absurd hfirst (by decide)
  · next heq =>
    rw [(List.cons.inj heq).1] at hfirst
    exact absurd hfirst (by decide)
  · rfl

/-- A text that is no number is kept as it is by columns of all types. -/
theorem convert_text {s : String} (h : readNumber? s = none) (affinity : Affinity) :
    affinity.convert (.text s) = .text s := by
  cases affinity with
  | integer => simp only [Affinity.convert, Datum.toNumber, h]
  | text => rfl
  | none => rfl

/-- Texts that are no numbers are compared as texts in columns of all types. -/
theorem compareSides_texts {s t : String} (ht : readNumber? t = none) (affinity : Affinity)
    (op : CompareOp) :
    compareSides op (affinity, .text s) (.none, .text t) = some (op.accepts (compare s t)) := by
  have hsides : convertSides (affinity, .text s) (.none, .text t) = (.text s, .text t) := by
    cases affinity with
    | integer => simp only [convertSides, Datum.toNumber, ht]
    | text => rfl
    | none => rfl
  simp only [compareSides, hsides]
  rfl

end DualStore.Sql

namespace DualStore.Relational

open Model Sql
open Calendar (Zone HasShortYear)

variable {zone : Zone} {field : Field}

/-- A date text of a year with four digits is no number. -/
theorem readNumber?_write? {ms : Int} (h : HasShortYear zone ms) {s : String}
    (hs : Calendar.write? ms zone = some s) : readNumber? s = none := by
  have hshort := h.shortSecond
  obtain ⟨last, hend, hlast⟩ := Calendar.secondChars_last (ms / 1000 + zone.seconds)
  obtain ⟨year, hyear⟩ : ∃ year, year =
      (Calendar.Date.ofDay ((ms / 1000 + zone.seconds) / 86400)).year := ⟨_, rfl⟩
  rw [h.write?_eq] at hs
  have hchars : ∃ rest, s.toList = Calendar.padded 4 year.toNat ++ '-' :: rest := by
    rw [← Option.some.inj hs, String.toList_ofList, Calendar.secondChars, ← hyear,
      Calendar.yearChars_of_short (hyear ▸ hshort.1) (hyear ▸ hshort.2)]
    simp only [List.append_assoc, List.cons_append]
    exact ⟨_, rfl⟩
  obtain ⟨rest, hrest⟩ := hchars
  obtain ⟨first, ds, hds, hfirst⟩ := Calendar.exists_cons_padded 4 year.toNat
  have hcons : s.toList = first :: (ds ++ '-' :: rest) := by rw [hrest, hds, List.cons_append]
  rw [← String.toList_ofList (l := Calendar.secondChars _), Option.some.inj hs] at hend
  rw [readNumber?_of_digits hcons hfirst hend hlast, hrest]
  exact readUnsigned?_hyphen (Calendar.padded_ne_nil 4 _) (Calendar.all_isDigit_padded 4 _) false
    rest

/-! ## Rows -/

/-- A row that keeps, in the column at a place, what a field binds for an instant. -/
def KeepsDate (zone : Zone) (field : Field) (place : Sql.Place) (row : Row) (ms : Int) : Prop :=
  ∃ p, fieldParameter field (some (.int ms)) zone = .ok (some p) ∧
    row[place.index]? = some (place.affinity.convert (Datum.ofValue p))

section Kept

variable {width : IntWidth} {place : Sql.Place} {row : Row} {ms : Int}

/-- The column holds the text of the instant. -/
theorem KeepsDate.text (h : KeepsDate zone field place row ms) (hkind : field.kind = .int width)
    (hdate : field.isDate = true) (hms : HasShortYear zone ms) {s : String}
    (hs : Calendar.write? ms zone = some s) : row[place.index]? = some (.text s) := by
  obtain ⟨p, hp, hrow⟩ := h
  rw [hms.write?_eq] at hs
  rw [fieldParameter_date hkind hdate hms.inCalendar, if_pos hms.1, Option.some.inj hs] at hp
  rw [← Option.some.inj (Except.ok.inj hp)] at hrow
  rw [hrow]
  exact congrArg some
    (convert_text (readNumber?_write? hms (hms.write?_eq.trans hs)) place.affinity)

/-- **A range of dates is true of the rows whose instants lie in it**, by whole seconds. -/
theorem holds_between (hkind : field.kind = .int width) (hdate : field.isDate = true)
    (hplain : isPlain field.name = true) {scope : Scope}
    (hplace : resolve (scope.find []) (keyExpr field.name) = .ok (.column place))
    (hrow : KeepsDate zone field place row ms) (hms : HasShortYear zone ms) {low high : Int}
    (hlow : HasShortYear zone low) (hhigh : HasShortYear zone high) {first last : String}
    (hfirst : Calendar.write? low zone = some first)
    (hlast : Calendar.write? high zone = some last) :
    ∃ text condition found,
      clause [] [.on .between field.name (.range (.text first) (.text last))]
        = .ok (text, [.text first, .text last]) ∧
      readClause? text [.text first, .text last] = some (some condition) ∧
      resolvePlain (scope.find []) condition = .ok found ∧
      holds (some found) row
        = .ok (decide (low / 1000 ≤ ms / 1000 ∧ ms / 1000 ≤ high / 1000)) := by
  let range : Predicate := .test field.name (.between false (.text first) (.text last))
  have hregular : Predicate.AreRegular [range] := ⟨⟨hplain, trivial⟩, trivial⟩
  have hs := hms.write?_eq
  have hkept := hrow.text hkind hdate hms hs
  refine ⟨clauseText [range], _,
    .between false (.column place) (.value (.text first)) (.value (.text last)), rfl,
    readClause?_clauseText hregular, ?_, ?_⟩
  · have hcondition : chain .and (Predicate.exprs [range])
        = .between false (keyExpr field.name) (valueExpr (.text first)) (valueExpr (.text last)) :=
      rfl
    rw [hcondition]
    simp only [resolvePlain, resolve, hplace, valueExpr, bind, Except.bind]
    rfl
  · have hbelow := Calendar.compare_write? hms hlow hs hfirst
    have habove := Calendar.compare_write? hms hhigh hs hlast
    simp only [holds, eval, hkept, Option.getD_some, affinityOf, bind, Except.bind, betweenSides,
      compareSides_texts (readNumber?_write? hlow hfirst),
      compareSides_texts (readNumber?_write? hhigh hlast), hbelow, habove, andTruth_some, negateIf,
      Except.map, truth_ofTruth, CompareOp.accepts, Bool.false_eq_true, if_false]
    simp [Int.compare_ne_gt, Int.compare_ne_lt]

end Kept

/-! ## Ordered selects -/

/-- A key names a column in sight or spells a number, so nothing in it aggregates. -/
theorem aggregates_keyExpr {scope : Scope} {key : String} {e : Expr Sql.Place}
    (h : resolve (scope.find []) (keyExpr key) = .ok e) : aggregates e = [] := by
  unfold keyExpr at h
  split at h
  · rw [resolve_value] at h
    rw [← Except.ok.inj h, aggregates_value]
  · rw [resolve, Scope.find] at h
    split at h
    · rw [← Except.ok.inj h, aggregates]
    · exact absurd h (by simp)
    · simp [Aliases.find?] at h

def columnItems (columns : List String) : List SelectItem :=
  columns.map fun column => .expr (keyExpr column) none

/-- Selected columns have no other names, and nothing in them aggregates. -/
theorem selectedColumns_columns {scope : Scope} {columns : List String} {selected : List Selected}
    (h : selectedColumns scope (columnItems columns) = .ok selected) :
    aliasesOf selected = [] ∧ ∀ s ∈ selected, aggregates s.expr = [] := by
  induction columns generalizing selected with
  | nil =>
    rw [← Except.ok.inj h]
    exact ⟨rfl, by simp⟩
  | cons column columns ih =>
    rw [columnItems, List.map_cons, selectedColumns, ← columnItems] at h
    obtain ⟨e, he, h⟩ := bind_eq_ok h
    obtain ⟨rest, hrest, h⟩ := bind_eq_ok h
    obtain ⟨haliases, hplain⟩ := ih hrest
    rw [← Except.ok.inj h]
    refine ⟨?_, List.forall_mem_cons.mpr ⟨aggregates_keyExpr he, hplain⟩⟩
    simpa [aliasesOf] using haliases

theorem aggregatesOfAll_eq_nil {es : List (Expr Sql.Place)} (h : ∀ e ∈ es, aggregates e = []) :
    aggregatesOfAll es = [] := by
  induction es with
  | nil => rw [aggregatesOfAll]
  | cons e rest ih =>
    obtain ⟨he, hrest⟩ := List.forall_mem_cons.mp h
    rw [aggregatesOfAll, he, ih hrest, List.append_nil]

section Keys

variable {scope : Scope} {selected : List Selected} {e : Expr Sql.Place} {key : String}

/-- A key of an order is a number that counts the selected columns, or is looked up. -/
theorem orderExpr_cases (haliases : aliasesOf selected = []) (key : String) :
    (∃ n, keyExpr key = .value (.integer n) ∧
        orderExpr scope selected (keyExpr key) = selectedAt selected n) ∨
      orderExpr scope selected (keyExpr key) = resolve (scope.find []) (keyExpr key) := by
  unfold orderExpr
  split
  · next n heq => exact .inl ⟨n, heq, rfl⟩
  · next name heq =>
    right
    rw [haliases, Aliases.find?, List.find?_nil, Option.map_none]
  · right
    rw [haliases]

theorem orderExpr_column (haliases : aliasesOf selected = []) {place : Sql.Place}
    (h : resolve (scope.find []) (keyExpr key) = .ok (.column place)) :
    orderExpr scope selected (keyExpr key) = .ok (.column place) := by
  rcases orderExpr_cases haliases key with ⟨n, hkey, -⟩ | hfound
  · rw [hkey, resolve_value] at h
    simp at h
  · rw [hfound, h]

/-- Nothing aggregates in a key of an order. -/
theorem aggregates_orderExpr (haliases : aliasesOf selected = [])
    (hselected : ∀ s ∈ selected, aggregates s.expr = [])
    (h : orderExpr scope selected (keyExpr key) = .ok e) : aggregates e = [] := by
  rcases orderExpr_cases haliases key with ⟨n, -, hcounted⟩ | hfound
  · rw [hcounted, selectedAt] at h
    split at h
    · next s hs =>
      have hmem : s ∈ selected := by
        split at hs
        · exact List.mem_of_getElem? hs
        · simp at hs
      rw [← Except.ok.inj h]
      exact hselected s hmem
    · simp at h
  · rw [hfound] at h
    exact aggregates_keyExpr h

theorem aggregates_orderKeys (haliases : aliasesOf selected = [])
    (hselected : ∀ s ∈ selected, aggregates s.expr = []) {orders : List Directive}
    {found : List (Expr Sql.Place × Bool)}
    (h : orderKeys scope selected (orders.map orderKey) = .ok found) :
    ∀ k ∈ found, aggregates k.1 = [] := by
  induction orders generalizing found with
  | nil =>
    rw [← Except.ok.inj h]
    simp
  | cons o orders ih =>
    rw [List.map_cons, orderKeys] at h
    obtain ⟨e, he, h⟩ := bind_eq_ok h
    obtain ⟨rest, hrest, h⟩ := bind_eq_ok h
    rw [← Except.ok.inj h]
    exact List.forall_mem_cons.mpr ⟨aggregates_orderExpr haliases hselected he, ih hrest⟩

end Keys

/-! ### Rows -/

theorem mem_of_mem_filterRows {condition : Option (Expr Sql.Place)} {rows kept : List Row}
    (h : filterRows condition rows = .ok kept) {row : Row} (hrow : row ∈ kept) : row ∈ rows := by
  induction rows generalizing kept with
  | nil =>
    rw [← Except.ok.inj h] at hrow
    exact hrow
  | cons first rows ih =>
    rw [filterRows] at h
    obtain ⟨keep, -, h⟩ := bind_eq_ok h
    obtain ⟨rest, hrest, h⟩ := bind_eq_ok h
    rw [← Except.ok.inj h] at hrow
    cases keep with
    | false => exact List.mem_cons_of_mem first (ih hrest hrow)
    | true =>
      rcases List.mem_cons.mp hrow with rfl | hmore
      · exact List.mem_cons_self
      · exact List.mem_cons_of_mem first (ih hrest hmore)

/-- Rows that stand for themselves are computed one by one. -/
theorem computeRows_ok {exprs keys : List (Expr Sql.Place)} {rows : List Row}
    {computed : List (Row × List Datum)}
    (h : computeRows exprs keys (rows.map fun row => ([], row)) = .ok computed) :
    ∃ pairs : List (Row × Row × List Datum), pairs.map Prod.fst = rows ∧
      pairs.map Prod.snd = computed ∧
      ∀ p ∈ pairs, evalAll [] p.1 exprs = .ok p.2.1 ∧ evalAll [] p.1 keys = .ok p.2.2 := by
  induction rows generalizing computed with
  | nil =>
    rw [← Except.ok.inj h]
    exact ⟨[], rfl, rfl, by simp⟩
  | cons row rows ih =>
    rw [List.map_cons, computeRows] at h
    obtain ⟨values, hvalues, h⟩ := bind_eq_ok h
    obtain ⟨order, horder, h⟩ := bind_eq_ok h
    obtain ⟨rest, hrest, h⟩ := bind_eq_ok h
    obtain ⟨pairs, hrows, hcomputed, hpairs⟩ := ih hrest
    refine ⟨(row, values, order) :: pairs, ?_, ?_, ?_⟩
    · rw [List.map_cons, hrows]
    · rw [List.map_cons, hcomputed, Except.ok.inj h]
    · exact List.forall_mem_cons.mpr ⟨⟨hvalues, horder⟩, hpairs⟩

/-- Two instants come in an order, by whole seconds. -/
def InOrder (descending : Bool) (m n : Int) : Prop :=
  if descending then n / 1000 ≤ m / 1000 else m / 1000 ≤ n / 1000

theorem InOrder.trans {descending : Bool} {k m n : Int} (h : InOrder descending k m)
    (h' : InOrder descending m n) : InOrder descending k n := by
  unfold InOrder at *
  split <;> simp_all <;> omega

/-- Where date texts are the first keys, they decide unless they are the same. -/
theorem orderByKeys_dates {m n : Int} (hm : HasShortYear zone m) (hn : HasShortYear zone n)
    {s t : String} (hs : Calendar.write? m zone = some s) (ht : Calendar.write? n zone = some t)
    (descending : Bool) (directions : List Bool) (as bs : List Datum) :
    (orderByKeys (descending :: directions) (.text s :: as) (.text t :: bs) = .lt →
        InOrder descending m n) ∧
      (orderByKeys (descending :: directions) (.text s :: as) (.text t :: bs) ≠ .lt →
        InOrder descending n m) := by
  have hfirst : (Datum.text s).order (.text t) = compare (m / 1000) (n / 1000) :=
    Calendar.compare_write? hm hn hs ht
  rw [orderByKeys, hfirst, InOrder, InOrder]
  rcases Int.lt_trichotomy (m / 1000) (n / 1000) with hlt | heq | hgt
  · rw [Int.compare_eq_lt.mpr hlt]
    cases descending <;> simp <;> omega
  · cases descending <;> simp [heq]
  · rw [Int.compare_eq_gt.mpr hgt]
    cases descending <;> simp <;> omega

/-- Rows of a result that come by date: each is computed from one of the rows that were kept, and
these come in the order of their instants. -/
def ComeByDate (instant : Row → Int) (descending : Bool) (w : Option (Int × Int))
    (kept : List Row) (exprs : List (Expr Sql.Place)) (rows : List Row) : Prop :=
  ∃ ordered : List (Row × Row), (ordered.map Prod.fst).Perm kept ∧
    (∀ p ∈ ordered, evalAll [] p.1 exprs = .ok p.2) ∧
    ordered.Pairwise (fun p q => InOrder descending (instant p.1) (instant q.1)) ∧
    rows = window w (ordered.map Prod.snd)

section Select

variable {width : IntWidth} {place : Sql.Place} {relation : Relation} {instant : Row → Int}

/-- Without groups, repetitions and aggregates, the rows that are kept are computed one by one,
ordered and cut out. -/
theorem produce_plain {parts : Resolved} (hkeys : parts.keys = [])
    (hselected : ∀ s ∈ parts.selected, aggregates s.expr = [])
    (horder : ∀ k ∈ parts.order, aggregates k.1 = []) {w : Option (Int × Int)} {output : Output}
    (h : produce relation false parts w = .ok output) :
    ∃ kept computed, filterRows parts.condition relation.rows = .ok kept ∧
      computeRows (parts.selected.map Selected.expr) (parts.order.map Prod.fst)
        (kept.map fun row => ([], row)) = .ok computed ∧
      output.rows = window w ((stableSort
        (fun a b => orderByKeys (parts.order.map Prod.snd) a.2 b.2 = .lt) computed).map
          Prod.fst) := by
  have hcalls : aggregatesOfAll (parts.selected.map Selected.expr) = [] := by
    apply aggregatesOfAll_eq_nil
    intro e he
    obtain ⟨s, hs, rfl⟩ := List.mem_map.mp he
    exact hselected s hs
  have hcallsOrder : aggregatesOfAll (parts.order.map Prod.fst) = [] := by
    apply aggregatesOfAll_eq_nil
    intro e he
    obtain ⟨k, hk, rfl⟩ := List.mem_map.mp he
    exact horder k hk
  simp only [produce, hcalls, hcallsOrder, List.append_nil, hkeys] at h
  obtain ⟨kept, hkept, h⟩ := bind_eq_ok h
  obtain ⟨groups, hgroups, h⟩ := bind_eq_ok h
  obtain ⟨computed, hcomputed, h⟩ := bind_eq_ok h
  have hrows : groups = kept.map fun row => ([], row) := (Except.ok.inj hgroups).symm
  rw [hrows] at hcomputed
  refine ⟨kept, computed, hkept, hcomputed, ?_⟩
  rw [← Except.ok.inj h]
  rfl

/-- The parts of a select of columns in an order. -/
theorem ofParts_columns {scope : Scope} {columns : List String}
    {condition : Option (Expr ColumnName)} {first : Directive} {more : List Directive}
    (hplace : resolve (scope.find []) (keyExpr first.key) = .ok (.column place)) {parts : Resolved}
    (h : Resolved.ofParts scope (columnItems columns) condition []
      ((first :: more).map orderKey) = .ok parts) :
    parts.keys = [] ∧ (∀ s ∈ parts.selected, aggregates s.expr = []) ∧
      (∀ k ∈ parts.order, aggregates k.1 = []) ∧
      ∃ others, parts.order = (.column place, decide (first.logic = .desc)) :: others := by
  rw [Resolved.ofParts] at h
  obtain ⟨selected, hselected, h⟩ := bind_eq_ok h
  have hrest : ∃ found, (do
      let keys ← groupKeys scope selected []
      let order ← orderKeys scope selected ((first :: more).map orderKey)
      Except.ok ⟨selected, found, keys, order⟩) = Except.ok parts := by
    cases condition with
    | none => exact ⟨none, h⟩
    | some e =>
      obtain ⟨found, -, hfound⟩ := bind_eq_ok h
      exact ⟨found, hfound⟩
  obtain ⟨found, h⟩ := hrest
  obtain ⟨keys, hkeys, h⟩ := bind_eq_ok h
  obtain ⟨order, horder, h⟩ := bind_eq_ok h
  obtain ⟨haliases, hplain⟩ := selectedColumns_columns hselected
  have hcolumns := aggregates_orderKeys haliases hplain horder
  rw [List.map_cons, orderKeys] at horder
  obtain ⟨e, he, horder⟩ := bind_eq_ok horder
  obtain ⟨others, -, horder⟩ := bind_eq_ok horder
  have hfirst : orderExpr scope selected (orderKey first).expr = .ok (.column place) :=
    orderExpr_column haliases hplace
  rw [hfirst] at he
  rw [← Except.ok.inj h]
  refine ⟨(Except.ok.inj hkeys).symm, hplain, hcolumns, others, ?_⟩
  rw [← Except.ok.inj horder, ← Except.ok.inj he]
  rfl

/-- The first key of a row in an order by a column of dates is the text of its instant. -/
theorem KeepsDate.order_key {row : Row} {ms : Int} (h : KeepsDate zone field place row ms)
    (hkind : field.kind = .int width) (hdate : field.isDate = true) (hms : HasShortYear zone ms)
    {others : List (Expr Sql.Place)} {keys : List Datum}
    (hkeys : evalAll [] row (.column place :: others) = .ok keys) :
    ∃ s more, Calendar.write? ms zone = some s ∧ keys = .text s :: more := by
  have htext := hms.write?_eq
  rw [evalAll] at hkeys
  obtain ⟨d, hd, hkeys⟩ := bind_eq_ok hkeys
  obtain ⟨more, -, hkeys⟩ := bind_eq_ok hkeys
  rw [eval, h.text hkind hdate hms htext, Option.getD_some] at hd
  refine ⟨_, more, htext, ?_⟩
  rw [← Except.ok.inj hkeys, ← Except.ok.inj hd]

/-- **A select ordered by a column of dates comes in the order of the instants.** -/
theorem select_by_date (hkind : field.kind = .int width) (hdate : field.isDate = true)
    {db : Database} {table : NamedTable} (hrelation : relationOf db table = .ok relation)
    {first : Directive} (hkey : first.key = field.name)
    (hplace : resolve (relation.scope.find []) (keyExpr field.name) = .ok (.column place))
    (hrows : ∀ row ∈ relation.rows,
      HasShortYear zone (instant row) ∧ KeepsDate zone field place row (instant row))
    {columns : List String} {condition : Option (Expr ColumnName)} {more : List Directive}
    {w : Option (Int × Int)} {output : Output}
    (h : Sql.select db (.ofTables false (columnItems columns) table [] condition []
      ((first :: more).map orderKey) w) = .ok output) :
    ∃ parts kept, Resolved.ofParts relation.scope (columnItems columns) condition []
        ((first :: more).map orderKey) = .ok parts ∧
      filterRows parts.condition relation.rows = .ok kept ∧
      ComeByDate instant (decide (first.logic = .desc)) w kept (parts.selected.map Selected.expr)
        output.rows := by
  rw [Sql.select] at h
  obtain ⟨left, hleft, h⟩ := bind_eq_ok h
  obtain rfl : relation = left := Except.ok.inj (hrelation.symm.trans hleft)
  obtain ⟨joined, hjoined, h⟩ := bind_eq_ok h
  obtain rfl : (relation.scope, []) = joined := Except.ok.inj hjoined
  obtain ⟨parts, hparts, h⟩ := bind_eq_ok h
  obtain ⟨other, hother, h⟩ := bind_eq_ok h
  obtain rfl : relation = other := Except.ok.inj hother
  obtain ⟨hkeys, hselected, horder, others, hfirst⟩ := ofParts_columns (hkey ▸ hplace) hparts
  obtain ⟨kept, computed, hkept, hcomputed, houtput⟩ := produce_plain hkeys hselected horder h
  obtain ⟨pairs, hfst, hsnd, hpairs⟩ := computeRows_ok hcomputed
  refine ⟨parts, kept, hparts, hkept, ?_⟩
  -- The pairs of a row and what is computed from it are sorted by what is computed for the order.
  let before (p q : Row × Row × List Datum) : Bool :=
    orderByKeys (parts.order.map Prod.snd) p.2.2 q.2.2 = .lt
  have hkeysOf : ∀ p ∈ pairs, HasShortYear zone (instant p.1) ∧
      ∃ s more, Calendar.write? (instant p.1) zone = some s ∧ p.2.2 = .text s :: more := by
    intro p hp
    have hmem : p.1 ∈ kept := hfst ▸ List.mem_map_of_mem hp
    obtain ⟨hyear, hkeeps⟩ := hrows p.1 (mem_of_mem_filterRows hkept hmem)
    have hkeys := (hpairs p hp).2
    rw [hfirst, List.map_cons] at hkeys
    exact ⟨hyear, hkeeps.order_key hkind hdate hyear hkeys⟩
  have hdecides : ∀ p ∈ pairs, ∀ q ∈ pairs,
      (before p q = true → InOrder (decide (first.logic = .desc)) (instant p.1) (instant q.1)) ∧
      (before p q = false →
        InOrder (decide (first.logic = .desc)) (instant q.1) (instant p.1)) := by
    intro p hp q hq
    obtain ⟨hyear, s, as, hs, hpkeys⟩ := hkeysOf p hp
    obtain ⟨hyear', t, bs, ht, hqkeys⟩ := hkeysOf q hq
    have hdates := orderByKeys_dates hyear hyear' hs ht (decide (first.logic = .desc))
      (others.map Prod.snd) as bs
    simpa only [before, hfirst, List.map_cons, hpkeys, hqkeys, decide_eq_true_eq,
      decide_eq_false_iff_not] using hdates
  have hsorted : (stableSort before pairs).Pairwise fun p q =>
      InOrder (decide (first.logic = .desc)) (instant p.1) (instant q.1) :=
    pairwise_stableSort_of (fun _ _ _ h h' => InOrder.trans h h')
      (fun p hp q hq => (hdecides p hp q hq).1) (fun p hp q hq => (hdecides p hp q hq).2)
  have hperm := stableSort_perm before pairs
  refine ⟨(stableSort before pairs).map fun p => (p.1, p.2.1), ?_, ?_, ?_, ?_⟩
  · rw [List.map_map, ← hfst]
    exact hperm.map Prod.fst
  · intro p hp
    obtain ⟨q, hq, rfl⟩ := List.mem_map.mp hp
    exact (hpairs q (hperm.mem_iff.mp hq)).1
  · rw [List.pairwise_map]
    exact hsorted
  · rw [houtput, ← hsnd, stableSort_map, List.map_map, List.map_map]
    rfl

end Select

/-! ## Dates follow time -/

/-- **Date columns order like the instants they hold.** The texts of two instants after 1970 whose
local years have four digits are equally long and in the order of the instants, and equal exactly in
the same second. A range between two date texts is true of a row that keeps a date exactly if the
instant lies in it, by whole seconds. An order part that names the column first spells that order,
and a select with it comes in the order of the instants. -/
theorem date_columns_follow_time (zone : Zone) :
    (∀ a b : Int, 0 < a → a ≤ b → Calendar.localYear b zone ≤ 9999 →
      ∃ s t, Calendar.write? a zone = some s ∧ Calendar.write? b zone = some t ∧
        s.length = t.length ∧ s ≤ t ∧ (s = t ↔ a / 1000 = b / 1000)) ∧
    ∀ (field : Field) (width : IntWidth), field.kind = .int width → field.isDate = true →
      isPlain field.name = true →
      (∀ (scope : Scope) (place : Sql.Place) (row : Row) (ms low high : Int) (first last : String),
        resolve (scope.find []) (keyExpr field.name) = .ok (.column place) →
        KeepsDate zone field place row ms → HasShortYear zone ms → HasShortYear zone low →
        HasShortYear zone high → Calendar.write? low zone = some first →
        Calendar.write? high zone = some last →
        ∃ text condition found,
          clause [] [.on .between field.name (.range (.text first) (.text last))]
            = .ok (text, [.text first, .text last]) ∧
          readClause? text [.text first, .text last] = some (some condition) ∧
          resolvePlain (scope.find []) condition = .ok found ∧
          holds (some found) row
            = .ok (decide (low / 1000 ≤ ms / 1000 ∧ ms / 1000 ≤ high / 1000))) ∧
      ∀ (logic : Logic) (more : List Directive), (∀ o ∈ more, isPlain o.key = true) →
        readOrderClause? (orderBy (⟨logic, field.name⟩ :: more))
            = some ((⟨logic, field.name⟩ :: more).map orderKey) ∧
        ∀ (db : Database) (table : NamedTable) (relation : Relation) (place : Sql.Place)
          (instant : Row → Int) (columns : List String) (condition : Option (Expr ColumnName))
          (w : Option (Int × Int)) (output : Output),
          relationOf db table = .ok relation →
          resolve (relation.scope.find []) (keyExpr field.name) = .ok (.column place) →
          (∀ row ∈ relation.rows,
            HasShortYear zone (instant row) ∧ KeepsDate zone field place row (instant row)) →
          Sql.select db (.ofTables false (columnItems columns) table [] condition []
            ((⟨logic, field.name⟩ :: more).map orderKey) w) = .ok output →
          ∃ parts kept, Resolved.ofParts relation.scope (columnItems columns) condition []
              ((⟨logic, field.name⟩ :: more).map orderKey) = .ok parts ∧
            filterRows parts.condition relation.rows = .ok kept ∧
            ComeByDate instant (decide (logic = .desc)) w kept (parts.selected.map Selected.expr)
              output.rows := by
  constructor
  · intro a b hpos hle hyear
    exact Calendar.write?_mono ⟨by omega, hyear⟩ hpos hle
  · intro field width hkind hdate hplain
    constructor
    · intro scope place row ms low high first last hplace hrow hms hlow hhigh hfirst hlast
      exact holds_between hkind hdate hplain hplace hrow hms hlow hhigh hfirst hlast
    · intro logic more hmore
      have hkeys : ∀ o ∈ (⟨logic, field.name⟩ : Directive) :: more, isPlain o.key = true :=
        List.forall_mem_cons.mpr ⟨hplain, hmore⟩
      refine ⟨readOrderClause?_orderBy hkeys, ?_⟩
      intro db table relation place instant columns condition w output hrelation hplace hrows h
      exact select_by_date hkind hdate hrelation rfl hplace hrows h

def bornProfiles : Table :=
  ⟨⟨"profile", [⟨"id", .integer⟩, ⟨"born", .text⟩], false, false⟩,
    [[.integer 1, .text "2023-11-14 22:13:20"], [.integer 2, .text "2020-09-13 12:26:40"]], 2⟩

def bornInstant (row : Row) : Int := if row.key = 1 then 1700000000123 else 1600000000000

/-- The profile born in 2023 lies in a range of dates, and in the order of the dates it comes behind
the other. -/
theorem date_columns_follow_time_born :
    (∃ text condition found,
      clause [] [.on .between "born" (.range (.text "2021-01-01 00:00:00")
          (.text "2027-01-15 08:00:00"))]
        = .ok (text, [.text "2021-01-01 00:00:00", .text "2027-01-15 08:00:00"]) ∧
      readClause? text [.text "2021-01-01 00:00:00", .text "2027-01-15 08:00:00"]
        = some (some condition) ∧
      resolvePlain (Scope.find [⟨"profile", "id", .integer⟩, ⟨"profile", "born", .text⟩] [])
        condition = .ok found ∧
      holds (some found) [.integer 1, .text "2023-11-14 22:13:20"] = .ok true) ∧
    ∃ kept exprs, Sql.select [bornProfiles] (.ofTables false (columnItems ["id"])
        ⟨"profile", none⟩ [] none [] ([⟨.asc, "born"⟩].map orderKey) none)
          = .ok ⟨["id"], [[.integer 2], [.integer 1]]⟩ ∧
      ComeByDate bornInstant false none kept exprs [[.integer 2], [.integer 1]] := by
  have hborn : HasShortYear .universal 1700000000123 := ⟨by decide, by decide⟩
  have hother : HasShortYear .universal 1600000000000 := ⟨by decide, by decide⟩
  have hlow : HasShortYear .universal 1609459200000 := ⟨by decide, by decide⟩
  have hhigh : HasShortYear .universal 1800000000000 := ⟨by decide, by decide⟩
  have hfirst : Calendar.write? 1609459200000 .universal = some "2021-01-01 00:00:00" := rfl
  have hlast : Calendar.write? 1800000000000 .universal = some "2027-01-15 08:00:00" := rfl
  have hkept : KeepsDate .universal ⟨"born", .int .w64, false, true⟩ ⟨1, .text⟩
      [.integer 1, .text "2023-11-14 22:13:20"] 1700000000123 :=
    ⟨.text "2023-11-14 22:13:20", rfl, rfl⟩
  have hkept' : KeepsDate .universal ⟨"born", .int .w64, false, true⟩ ⟨1, .text⟩
      [.integer 2, .text "2020-09-13 12:26:40"] 1600000000000 :=
    ⟨.text "2020-09-13 12:26:40", rfl, rfl⟩
  obtain ⟨hrange, horder⟩ := (date_columns_follow_time .universal).2
    ⟨"born", .int .w64, false, true⟩ .w64 rfl rfl rfl
  constructor
  · have hinside : decide ((1609459200000 : Int) / 1000 ≤ 1700000000123 / 1000 ∧
        (1700000000123 : Int) / 1000 ≤ 1800000000000 / 1000) = true := by decide
    rw [← hinside]
    exact hrange [⟨"profile", "id", .integer⟩, ⟨"profile", "born", .text⟩] ⟨1, .text⟩ _ _ _ _ _ _
      rfl hkept hborn hlow hhigh hfirst hlast
  · have hselect : Sql.select [bornProfiles] (.ofTables false (columnItems ["id"])
        ⟨"profile", none⟩ [] none [] ([⟨.asc, "born"⟩].map orderKey) none)
          = .ok ⟨["id"], [[.integer 2], [.integer 1]]⟩ := by with_unfolding_all rfl
    have hrelation : relationOf [bornProfiles] ⟨"profile", none⟩
        = .ok ⟨[⟨"profile", "id", .integer⟩, ⟨"profile", "born", .text⟩], bornProfiles.rows, 0,
            2⟩ := by
      with_unfolding_all rfl
    have hrows : ∀ row ∈ bornProfiles.rows, HasShortYear .universal (bornInstant row) ∧
        KeepsDate .universal ⟨"born", .int .w64, false, true⟩ ⟨1, .text⟩ row (bornInstant row) :=
      List.forall_mem_cons.mpr ⟨⟨hborn, hkept⟩, List.forall_mem_singleton.mpr ⟨hother, hkept'⟩⟩
    obtain ⟨parts, kept, -, -, hcome⟩ := (horder .asc [] (by simp)).2 [bornProfiles]
      ⟨"profile", none⟩ _ ⟨1, .text⟩ bornInstant ["id"] none none _ hrelation rfl hrows hselect
    exact ⟨kept, _, hselect, hcome⟩

/-- A range of milliseconds binds integers, which a column of texts compares as their digits: the
date lies in the range and is not found. -/
theorem range_of_numbers :
    fieldParameter ⟨"born", .int .w64, false, true⟩ (some (.int 1700000000123)) .universal
        = .ok (some (.text "2023-11-14 22:13:20")) ∧
      ∃ text condition found,
        clause [] [.on .between "born" (.range (.integer 1600000000000) (.integer 1800000000000))]
          = .ok (text, [.integer 1600000000000, .integer 1800000000000]) ∧
        readClause? text [.integer 1600000000000, .integer 1800000000000]
          = some (some condition) ∧
        resolvePlain (Scope.find [⟨"profile", "id", .integer⟩, ⟨"profile", "born", .text⟩] [])
          condition = .ok found ∧
        holds (some found) [.integer 1, .text "2023-11-14 22:13:20"] = .ok false := by
  let range : Predicate :=
    .test "born" (.between false (.integer 1600000000000) (.integer 1800000000000))
  have hregular : Predicate.AreRegular [range] := ⟨⟨rfl, trivial⟩, trivial⟩
  refine ⟨rfl, clauseText [range], _, .between false (.column ⟨1, .text⟩)
    (.value (.integer 1600000000000)) (.value (.integer 1800000000000)), rfl,
    readClause?_clauseText hregular, rfl, ?_⟩
  -- The bounds become the texts of their digits.
  have hbelow : compare "2023-11-14 22:13:20" "1600000000000" = .gt := by decide +kernel
  have habove : compare "2023-11-14 22:13:20" "1800000000000" = .gt := by decide +kernel
  have hlow : compareSides .ge (.text, .text "2023-11-14 22:13:20")
      (.none, .integer 1600000000000) = some (CompareOp.ge.accepts .gt) := by
    rw [← hbelow]
    rfl
  have hhigh : compareSides .le (.text, .text "2023-11-14 22:13:20")
      (.none, .integer 1800000000000) = some (CompareOp.le.accepts .gt) := by
    rw [← habove]
    rfl
  simp only [holds, eval, affinityOf, List.getElem?_cons_succ, List.getElem?_cons_zero,
    Option.getD_some, bind, Except.bind, betweenSides, hlow, hhigh]
  rfl

end DualStore.Relational
