import DualStore.Proofs.FilterAnswers
import DualStore.Proofs.PagedReads
import DualStore.Proofs.PlanRuns
import DualStore.Relational.UnitOfWork

/-!
# Projected reads

A pipeline projects before it sorts. The identity and the fields that are asked for are left in a
projected document, so a key of the order counts if it names one of them; by any other key all
projected documents are alike. What a projected read gives are the projected documents of a read
that is ordered by the keys that count.

* `askedFields`, `narrowed`, `field?_narrowed`: a projected document and its fields;
* `sortKeys`, `ordersLeft`, `sortBy_narrowed`: sorting projected documents;
* `run_selectingStages`, `run_windowStages_map`: the stages of a read;
* `unprojected`, `reads_narrowed`: a projected read and the read of the whole documents;
* `selection_fields`: the statements of the same criteria;
* `projection_narrows`: the main statement;
* `order_forgotten`: an order by a field that is not asked for is lost.
-/

namespace DualStore

namespace Keyed

theorem mem_of_mem_put {α : Type} {key : String} {value : α} {entries : List (String × α)}
    {e : String × α} (h : e ∈ put key value entries) : e = (key, value) ∨ e ∈ entries := by
  induction entries with
  | nil => simpa [put] using h
  | cons entry rest ih =>
    obtain ⟨k, v⟩ := entry
    rw [put] at h
    split at h
    · rcases List.mem_cons.mp h with h | h
      · exact .inl h
      · exact .inr (List.mem_cons_of_mem _ h)
    · rcases List.mem_cons.mp h with rfl | h
      · exact .inr List.mem_cons_self
      · exact (ih h).imp_right (List.mem_cons_of_mem _)

/-- Entries that are chosen by their keys after a value was put. -/
theorem filter_put {α : Type} (keep : String → Bool) (key : String) (value : α)
    (entries : List (String × α)) :
    (put key value entries).filter (fun e => keep e.1)
      = if keep key then put key value (entries.filter fun e => keep e.1)
        else entries.filter fun e => keep e.1 := by
  induction entries with
  | nil => cases h : keep key <;> simp [put, h]
  | cons entry rest ih =>
    obtain ⟨k, v⟩ := entry
    by_cases hk : k = key
    · subst hk
      cases h : keep k <;> simp [put, h]
    · cases h : keep k <;> cases hkey : keep key <;> simp [put, hk, h, hkey, ih]

end Keyed

namespace Document

theorem filter_putAll (keep : String → Bool) (earlier later : Fields) :
    (putAll earlier later).filter (fun e => keep e.1)
      = putAll (earlier.filter fun e => keep e.1) (later.filter fun e => keep e.1) := by
  induction later generalizing earlier with
  | nil => rfl
  | cons entry rest ih =>
    obtain ⟨k, v⟩ := entry
    rw [putAll, ih, Keyed.filter_put]
    cases h : keep k <;> simp [h, putAll]

/-! ## Projected documents -/

/-- The fields that a projection asks for, as its stage has them. -/
def askedFields (idField : String) (fields : List String) : Fields :=
  putAll [] (fields.map fun key => (documentKey idField key, .int 1))

/-- A document with its identity and the fields that are asked for. -/
def narrowed (idField : String) (fields : List String) (doc : Json) : Json :=
  project (askedFields idField fields) doc

/-- Whether a field of a document is left in the projected document. -/
def isLeft (idField : String) (fields : List String) (key : String) : Bool :=
  key = idKey || key ∈ fields.map (documentKey idField)

variable {idField : String} {fields : List String}

theorem mem_keys_askedFields (key : String) :
    key ∈ Keyed.keys (askedFields idField fields) ↔ key ∈ fields.map (documentKey idField) := by
  rw [askedFields, mem_keys_putAll]
  simp [Keyed.keys, Function.comp_def]

/-- Every field that is put into an object has a value from one of the two lists. -/
theorem forall_putAll {P : Json → Prop} {earlier later : Fields} (he : ∀ e ∈ earlier, P e.2)
    (hl : ∀ e ∈ later, P e.2) : ∀ e ∈ putAll earlier later, P e.2 := by
  induction later generalizing earlier with
  | nil => exact he
  | cons entry rest ih =>
    obtain ⟨k, v⟩ := entry
    obtain ⟨hv, hrest⟩ := List.forall_mem_cons.mp hl
    apply ih _ hrest
    intro e hmem
    rcases Keyed.mem_of_mem_put hmem with rfl | hmem
    · exact hv
    · exact he e hmem

theorem isTruthy_askedFields : ∀ e ∈ askedFields idField fields, isTruthy e.2 = true := by
  apply forall_putAll (P := fun v => isTruthy v = true)
  · simp
  · simp [isTruthy]

/-- A field behind a projection: it is the field of the document if it is asked for and the document
has it; else it is as it was taken before, and so is the identity. -/
theorem get?_projectFields (doc : Json) (key : String) {spec : Fields}
    (hspec : ∀ e ∈ spec, isTruthy e.2 = true) (taken : Fields) :
    Keyed.get? key (projectFields doc taken spec)
      = if key ≠ idKey ∧ key ∈ Keyed.keys spec then (doc.field? key).or (Keyed.get? key taken)
        else Keyed.get? key taken := by
  induction spec generalizing taken with
  | nil => simp [projectFields, Keyed.keys]
  | cons entry rest ih =>
    obtain ⟨k, flag⟩ := entry
    obtain ⟨hflag, hrest⟩ := List.forall_mem_cons.mp hspec
    have hkeys : key ∈ Keyed.keys ((k, flag) :: rest) ↔ key = k ∨ key ∈ Keyed.keys rest := by
      simp [Keyed.keys]
    simp only [projectFields, hkeys]
    by_cases hid : k = idKey
    · subst hid
      have hsame : key ≠ idKey ∧ (key = idKey ∨ key ∈ Keyed.keys rest)
          ↔ key ≠ idKey ∧ key ∈ Keyed.keys rest := by
        tauto
      rw [if_pos (.inl rfl), ih hrest]
      simp only [hsame]
    · have hasks : ¬(k = idKey ∨ isTruthy flag = false) := by simp [hid, hflag]
      rw [if_neg hasks]
      by_cases hk : k = key
      · subst hk
        cases hfield : doc.field? k <;> simp [ih hrest, hid, hfield]
      · cases hfield : doc.field? k <;>
          simp [ih hrest, Ne.symm hk, Keyed.get?_put_of_ne hk]

/-- A projected document has the fields that are left, with the values of the document. -/
theorem field?_narrowed (doc : Json) (key : String) :
    (narrowed idField fields doc).field? key
      = if isLeft idField fields key then doc.field? key else none := by
  have hnodup : (Keyed.keys (askedFields idField fields)).Nodup := @nodup_putAll [] List.nodup_nil _
  have hwanted : ((Keyed.get? idKey (askedFields idField fields)).map isTruthy).getD true
      = true := by
    cases h : Keyed.get? idKey (askedFields idField fields) with
    | none => rfl
    | some flag => exact isTruthy_askedFields _ (((Keyed.get?_eq_some_iff hnodup _ _).mp h))
  have hid : ∀ id : Option Json, Keyed.get? key (id.map fun id => (idKey, id)).toList
      = if key = idKey then id else none := by
    intro id
    cases id <;> simp [Keyed.get?, eq_comm]
  rw [narrowed, project]
  simp only [hwanted, if_true]
  rw [Json.field?, get?_projectFields doc key isTruthy_askedFields, hid]
  simp only [mem_keys_askedFields, isLeft, Bool.or_eq_true, decide_eq_true_eq]
  by_cases hkey : key = idKey
  · simp [hkey]
  · by_cases hasked : key ∈ fields.map (documentKey idField)
    · simp [hkey, hasked]
    · simp [hkey, hasked]

/-! ## Sorting projected documents -/

def sortKeys (idField : String) (orders : List Directive) : Fields :=
  putAll [] (orders.map fun o =>
    (documentKey idField o.key, .int (if o.logic = .desc then -1 else 1)))

/-- The part of an order that is by fields left in the projected documents. -/
def ordersLeft (idField : String) (fields : List String) (orders : List Directive) :
    List Directive :=
  orders.filter fun o => isLeft idField fields (documentKey idField o.key)

theorem sortKeys_ordersLeft (orders : List Directive) :
    sortKeys idField (ordersLeft idField fields orders)
      = (sortKeys idField orders).filter fun e => isLeft idField fields e.1 := by
  rw [sortKeys, sortKeys, filter_putAll, ordersLeft, List.filter_map]
  rfl

/-- Two projected documents stand to each other as the documents do by the keys that are left: by
any other key they are equal. -/
theorem orderBy_narrowed (keys : Fields) (a b : Json) :
    orderBy keys (narrowed idField fields a) (narrowed idField fields b)
      = orderBy (keys.filter fun e => isLeft idField fields e.1) a b := by
  induction keys with
  | nil => rfl
  | cons entry rest ih =>
    obtain ⟨key, direction⟩ := entry
    rw [orderBy, field?_narrowed, field?_narrowed, ih]
    by_cases hleft : isLeft idField fields key = true
    · simp only [hleft, if_true, List.filter_cons, orderBy]
    · have hequal : sortOrder none none = .eq := rfl
      simp [hleft, hequal]

theorem sortBy_narrowed (keys : Fields) (docs : List Json) :
    sortBy keys (docs.map (narrowed idField fields))
      = (sortBy (keys.filter fun e => isLeft idField fields e.1) docs).map
          (narrowed idField fields) := by
  rw [sortBy, stableSort_map]
  simp only [orderBy_narrowed, sortBy]

/-! ## The stages of a read -/

variable {c : Criteria}

theorem run_projectStage (hfields : c.fields ≠ []) (docs : List Json) :
    run docs (projectStage c idField) = .ok (docs.map (narrowed idField c.fields)) := by
  rw [projectStage, if_neg hfields, run_cons (ofJson_project _), Stage.apply, Except.bind, run]
  rfl

/-- Without an order the documents stay as they are, as they do by an order without keys. -/
theorem run_sortStage (c : Criteria) (docs : List Json) :
    run docs (sortStage c idField) = .ok (sortBy (sortKeys idField c.orders) docs) := by
  rw [sortStage]
  split
  · next h =>
    rw [h, run, sortBy]
    simp [sortKeys, putAll, orderBy, stableSort_id]
  · rw [run_cons (ofJson_sort _), Stage.apply, Except.bind, run]
    rfl

/-- A window takes the same places of any list. -/
theorem run_windowStages_map (c : Criteria) (f : Json → Json) (docs : List Json) :
    run (docs.map f) (windowStages c false)
      = (run docs (windowStages c false)).map (List.map f) := by
  have hskip : Stage.ofJson (operator "$skip" (.int c.page.skip))
      = (expectCount "$skip" (.int c.page.skip)).map .skip := rfl
  have hlimit : Stage.ofJson (operator "$limit" (.int c.page.size))
      = (expectCount "$limit" (.int c.page.size)).map .limit := rfl
  rw [windowStages, if_neg Bool.false_ne_true]
  by_cases hset : c.page.isSet = true
  · rw [if_pos hset, run, run, hskip]
    cases expectCount "$skip" (.int c.page.skip) with
    | error e => rfl
    | ok skipped =>
      simp only [Except.map, Stage.apply, run, hlimit]
      cases expectCount "$limit" (.int c.page.size) with
      | error e => rfl
      | ok kept => simp [List.map_drop, List.map_take]
  · rw [if_neg hset]
    rfl

/-- The criteria that reads the whole documents, in the order that the projected ones can be told
by. -/
def unprojected (idField : String) (c : Criteria) : Criteria :=
  { c with fields := [], orders := ordersLeft idField c.fields c.orders }

/-- The stage that filters, if there is a filter. -/
def filterStage (filter : Fields) : List Json :=
  if filter.isEmpty then [] else [operator "$match" (.obj filter)]

/-- Whole documents are filtered and ordered. -/
theorem run_selectingStages_whole (hplain : c.aggregates = []) (hwhole : c.fields = [])
    (filter : Fields) (docs : List Json) :
    run docs (selectingStages c idField filter)
      = (run docs (filterStage filter)).map (sortBy (sortKeys idField c.orders)) := by
  have hstages : selectingStages c idField filter = filterStage filter ++ sortStage c idField := by
    simp [selectingStages, filterStage, projectStage, groupStage, hplain, hwhole]
  rw [hstages, run_append]
  cases run docs (filterStage filter) with
  | error e => rfl
  | ok kept => exact run_sortStage c kept

/-- The stages in front of the window give projected documents: those that the whole documents
would be read from. -/
theorem run_selectingStages (hplain : c.aggregates = []) (hfields : c.fields ≠ [])
    (filter : Fields) (docs : List Json) :
    run docs (selectingStages c idField filter)
      = (run docs (selectingStages (unprojected idField c) idField filter)).map
          (List.map (narrowed idField c.fields)) := by
  have hstages : selectingStages c idField filter
      = filterStage filter ++ (projectStage c idField ++ sortStage c idField) := by
    simp [selectingStages, filterStage, groupStage, hplain]
  rw [run_selectingStages_whole (c := unprojected idField c) hplain rfl, hstages, run_append]
  cases run docs (filterStage filter) with
  | error e => rfl
  | ok kept =>
    have hkeys : sortKeys idField (unprojected idField c).orders
        = (sortKeys idField c.orders).filter fun e => isLeft idField c.fields e.1 :=
      sortKeys_ordersLeft c.orders
    rw [Except.bind, run_append, run_projectStage hfields, Except.bind, run_sortStage, hkeys,
      sortBy_narrowed]
    rfl

variable {m : Model.EntityMeta} {docs found : List Json}

/-- A projected read gives what the read of the whole documents gives, document by document and in
the same order. -/
theorem reads_narrowed (hplain : c.aggregates = []) (hfields : c.fields ≠ []) :
    Reads m c docs found ↔
      ∃ full, Reads m (unprojected m.idField c) docs full
        ∧ found = full.map (narrowed m.idField c.fields) := by
  have hrun : ∀ filter,
      run docs (selectingStages c m.idField filter ++ windowStages c false)
        = (run docs (selectingStages (unprojected m.idField c) m.idField filter
            ++ windowStages (unprojected m.idField c) false)).map
              (List.map (narrowed m.idField c.fields)) := by
    intro filter
    have hwindow : windowStages (unprojected m.idField c) false = windowStages c false := rfl
    rw [run_append, run_append, run_selectingStages hplain hfields, hwindow]
    cases run docs (selectingStages (unprojected m.idField c) m.idField filter) with
    | error e => rfl
    | ok kept => exact run_windowStages_map c _ kept
  constructor
  · rintro ⟨stages, hstages, hfound⟩
    obtain ⟨filter, hfilter, rfl⟩ := pipelineOf_eq_ok.mp hstages
    rw [hrun] at hfound
    cases hfull : run docs (selectingStages (unprojected m.idField c) m.idField filter
        ++ windowStages (unprojected m.idField c) false) with
    | error e =>
      rw [hfull] at hfound
      cases hfound
    | ok full =>
      rw [hfull] at hfound
      exact ⟨full, ⟨_, pipelineOf_eq_ok.mpr ⟨filter, hfilter, rfl⟩, hfull⟩,
        (Except.ok.inj hfound).symm⟩
  · rintro ⟨full, ⟨stages, hstages, hfull⟩, rfl⟩
    obtain ⟨filter, hfilter, rfl⟩ := pipelineOf_eq_ok.mp hstages
    refine ⟨_, pipelineOf_eq_ok.mpr ⟨filter, hfilter, rfl⟩, ?_⟩
    rw [hrun, hfull]
    rfl

/-- An order by fields that are all left is the order of the whole documents. -/
theorem unprojected_of_left {idField : String}
    (h : ∀ o ∈ c.orders, isLeft idField c.fields (documentKey idField o.key) = true) :
    unprojected idField c = { c with fields := [] } := by
  rw [unprojected, ordersLeft, List.filter_eq_self.mpr h]

end Document

/-! ## Statements of the same criteria -/

namespace Relational.UnitOfWork

variable {t : Model.EntityType} {c : Criteria}

/-- A selection of entities takes its table from the metadata, its predicates from the conditions
and its order from the orders; only its columns depend on the fields that are asked for. -/
theorem selection_eq_ok {q : Query} {projection : Projection}
    (h : selection t c = .ok (q, projection)) :
    ∃ m filter, c.model = some t ∧ t.checked = .ok m
      ∧ Projection.ofMeta m c.fields = .ok projection
      ∧ predicates? c.conditions = .ok filter
      ∧ q = .matching projection.columns m.table filter c.orders := by
  rw [selection] at h
  obtain ⟨_, hsame, h⟩ := bind_eq_ok h
  obtain ⟨m, hm, h⟩ := bind_eq_ok h
  obtain ⟨columns, hcolumns, h⟩ := bind_eq_ok h
  obtain ⟨filter, hfilter, h⟩ := bind_eq_ok h
  obtain ⟨rfl, rfl⟩ := Prod.mk.inj (Except.ok.inj h)
  have hmodel : c.model = some t := by
    cases hmodel : c.model with
    | none => simp [Criteria.target, hmodel] at hm
    | some other =>
      by_cases hother : other = t
      · rw [hother]
      · simp [Criteria.checkTarget, hmodel, hother] at hsame
  simp only [Criteria.target, hmodel] at hm
  exact ⟨m, filter, hmodel, hm, mapError_eq_ok.mp hcolumns, mapError_eq_ok.mp hfilter, rfl⟩

end Relational.UnitOfWork

namespace Document

open Relational (Query)

variable {m : Model.EntityMeta} {c : Criteria}

/-- Two selections of one criteria that ask for different fields differ in their columns only. -/
theorem selection_fields {t : Model.EntityType} {c : Criteria} {fields : List String}
    {q whole : Query} {columns all : Relational.Projection}
    (hq : Relational.UnitOfWork.selection t { c with fields := fields } = .ok (q, columns))
    (hwhole : Relational.UnitOfWork.selection t { c with fields := [] } = .ok (whole, all)) :
    ∃ table filter, q = .matching columns.columns table filter c.orders
      ∧ whole = .matching all.columns table filter c.orders := by
  obtain ⟨m, filter, -, hm, -, hfilter, rfl⟩ := Relational.UnitOfWork.selection_eq_ok hq
  obtain ⟨other, predicates, -, hother, -, hpredicates, rfl⟩ :=
    Relational.UnitOfWork.selection_eq_ok hwhole
  obtain rfl : m = other := Except.ok.inj (hm.symm.trans hother)
  obtain rfl : filter = predicates := Except.ok.inj (hfilter.symm.trans hpredicates)
  exact ⟨m.table, filter, rfl, rfl⟩

/-- Without a window the documents of a projected read are those of the whole read; only their order
may be another one. -/
theorem reads_narrowed_perm {m : Model.EntityMeta} {c : Criteria} {docs found : List Json}
    (hplain : c.aggregates = []) (hfields : c.fields ≠ []) (hpage : c.page.isSet = false)
    (h : Reads m c docs found) :
    ∃ full, Reads m { c with fields := [] } docs full
      ∧ found.Perm (full.map (narrowed m.idField c.fields)) := by
  obtain ⟨ordered, ⟨stages, hstages, hordered⟩, rfl⟩ := (reads_narrowed hplain hfields).mp h
  obtain ⟨filter, hfilter, rfl⟩ := pipelineOf_eq_ok.mp hstages
  have hwindow : ∀ d : Criteria, d.page = c.page → windowStages d false = [] := by
    intro d hd
    simp [windowStages, hd, hpage]
  rw [hwindow (unprojected m.idField c) rfl, List.append_nil,
    run_selectingStages_whole (c := unprojected m.idField c) hplain rfl] at hordered
  cases hkept : run docs (filterStage filter) with
  | error e =>
    rw [hkept] at hordered
    cases hordered
  | ok kept =>
    rw [hkept] at hordered
    have hsorted := Except.ok.inj hordered
    refine ⟨sortBy (sortKeys m.idField c.orders) kept,
      ⟨_, pipelineOf_eq_ok.mpr ⟨filter, hfilter, rfl⟩, ?_⟩, ?_⟩
    · rw [hwindow { c with fields := [] } rfl, List.append_nil,
        run_selectingStages_whole (c := { c with fields := [] }) hplain rfl, hkept]
      rfl
    · rw [← hsorted]
      exact ((stableSort_perm _ kept).trans (stableSort_perm _ kept).symm).map _

/-- **A projection narrows the documents of a read.** Let a criteria without aggregates ask for some
fields. Its read gives, document by document and in the same order, the projections of what is read
of the whole documents in the order by those of its keys that are left in a projected document. If
all its keys are left, that is the read of the same criteria without a projection; and without a
window it is up to the order. A select of the same criteria has other columns for other fields and
is else the same, the order and the page behind it. -/
theorem projection_narrows {m : Model.EntityMeta} {c : Criteria} (hplain : c.aggregates = [])
    (hfields : c.fields ≠ []) (docs : List Json) :
    (∀ found, Reads m c docs found ↔
      ∃ full, Reads m { c with fields := [], orders := ordersLeft m.idField c.fields c.orders } docs
          full
        ∧ found = full.map (narrowed m.idField c.fields))
    ∧ ((∀ o ∈ c.orders, isLeft m.idField c.fields (documentKey m.idField o.key) = true) →
      ∀ found, Reads m c docs found ↔
        ∃ full, Reads m { c with fields := [] } docs full
          ∧ found = full.map (narrowed m.idField c.fields))
    ∧ (c.page.isSet = false → ∀ found, Reads m c docs found →
      ∃ full, Reads m { c with fields := [] } docs full
        ∧ found.Perm (full.map (narrowed m.idField c.fields)))
    ∧ ∀ (t : Model.EntityType) (fields : List String) (q whole : Query)
        (columns all : Relational.Projection),
      Relational.UnitOfWork.selection t { c with fields := fields } = .ok (q, columns) →
      Relational.UnitOfWork.selection t { c with fields := [] } = .ok (whole, all) →
      ∃ table filter, q = .matching columns.columns table filter c.orders
        ∧ whole = .matching all.columns table filter c.orders := by
  have hread := fun found => @reads_narrowed c m docs found hplain hfields
  refine ⟨hread, ?_, fun hpage found h => reads_narrowed_perm hplain hfields hpage h, ?_⟩
  · intro hleft found
    rw [hread found, unprojected_of_left hleft]
  · intro t fields q whole columns all hq hwhole
    exact selection_fields hq hwhole

/-- The second page of accounts by owner, of which only the owner is asked for; by the balance, the
first key of the order, the projected documents are alike. -/
theorem projection_narrows_accounts :
    let m : Model.EntityMeta := ⟨"Account", "account", "id", false, []⟩
    let c := ((({} : Criteria).select ["owner"]).orderBy "balance" .asc).orderBy "owner" .desc
      |>.limit 2 2
    let account (id : Int) (owner : String) (balance : Int) : Json :=
      .obj [("_id", .int id), ("owner", .str owner), ("balance", .int balance)]
    let docs := [account 1 "bob" 7, account 2 "ann" 3, account 3 "cyd" 5]
    c.aggregates = [] ∧ c.fields ≠ []
      ∧ Reads m c docs [.obj [("_id", .int 2), ("owner", .str "ann")]] := by
  intro m c account docs
  have hplain : c.aggregates = [] := rfl
  have hfields : c.fields ≠ [] := by simp [c, Criteria.limit, Criteria.orderBy, Criteria.select]
  have hread := (projection_narrows (m := m) hplain hfields docs).1
  exact ⟨hplain, hfields, (hread _).mpr ⟨[account 2 "ann" 3], ⟨_, rfl, rfl⟩, rfl⟩⟩

/-- The owners of two accounts by balance: the projected documents stay in the order they are stored
in, the whole ones stand the other way round. -/
theorem order_forgotten :
    let m : Model.EntityMeta := ⟨"Account", "account", "id", false, []⟩
    let c := (({} : Criteria).select ["owner"]).orderBy "balance" .asc
    let account (id : Int) (owner : String) (balance : Int) : Json :=
      .obj [("_id", .int id), ("owner", .str owner), ("balance", .int balance)]
    let owner (id : Int) (owner : String) : Json := .obj [("_id", .int id), ("owner", .str owner)]
    let docs := [account 1 "a" 9, account 2 "b" 3]
    let full := [account 2 "b" 3, account 1 "a" 9]
    Reads m { c with fields := [] } docs full
      ∧ full.map (narrowed m.idField c.fields) = [owner 2 "b", owner 1 "a"]
      ∧ ¬Reads m c docs [owner 2 "b", owner 1 "a"] := by
  intro m c account owner docs full
  refine ⟨⟨_, rfl, rfl⟩, rfl, ?_⟩
  rintro ⟨stages, hstages, hrun⟩
  cases hstages
  have hforgotten : (.ok [owner 1 "a", owner 2 "b"] : Except PipelineError (List Json))
      = .ok [owner 2 "b", owner 1 "a"] := hrun
  simp [owner] at hforgotten

end Document

end DualStore
