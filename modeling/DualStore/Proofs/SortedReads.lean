import DualStore.Proofs.ProjectedReads
import DualStore.Proofs.ValueOrder

/-!
# Sorted reads

A read without a window gives the documents that its filter lets through, one order key after the
other deciding which of two documents comes first. Documents that stand level by all keys keep the
order in which they are stored, whichever way the keys are sorted.

* `places`, `MayPrecede`: the places of a document by the keys, and the order that they make;
* `orderBy_cons`, `mayPrecede_of_orderBy`: the program's comparison, key by key;
* `reads_whole`: a read without a window, as filter and order;
* `sorted_reads`: the main statement.
-/

namespace DualStore.Document

open Json

/-! ## The order of documents -/

section Order

variable {idField : String} {o : Directive} {orders : List Directive} {p q r : Place}
  {a b c : Json}

/-- The place of a document by one key of an order. -/
def keyPlace (idField : String) (o : Directive) (doc : Json) : Place :=
  place exact (doc.field? (documentKey idField o.key))

/-- The places of a document by all keys of an order. -/
def places (idField : String) (orders : List Directive) (doc : Json) : List Place :=
  orders.map fun o => keyPlace idField o doc

/-- Whether a place comes before another one by the direction of a key. -/
def ComesFirst (o : Directive) (p q : Place) : Prop := if o.logic = .desc then q < p else p < q

/-- Whether a document may stand in front of another one: it comes first by the first key by which
the two differ, or they differ by none. -/
def MayPrecede (idField : String) : List Directive → Json → Json → Prop
  | [], _, _ => True
  | o :: rest, a, b =>
    ComesFirst o (keyPlace idField o a) (keyPlace idField o b)
      ∨ keyPlace idField o a = keyPlace idField o b ∧ MayPrecede idField rest a b

theorem ComesFirst.trans (h : ComesFirst o p q) (h' : ComesFirst o q r) : ComesFirst o p r := by
  unfold ComesFirst at *
  split
  · next hdesc =>
    rw [if_pos hdesc] at h h'
    exact h'.trans h
  · next hasc =>
    rw [if_neg hasc] at h h'
    exact h.trans h'

theorem MayPrecede.trans (h : MayPrecede idField orders a b) (h' : MayPrecede idField orders b c) :
    MayPrecede idField orders a c := by
  induction orders with
  | nil => trivial
  | cons o rest ih =>
    rcases h with h | ⟨heq, h⟩
    · rcases h' with h' | ⟨heq', -⟩
      · exact .inl (h.trans h')
      · exact .inl (heq' ▸ h)
    · rcases h' with h' | ⟨heq', h'⟩
      · exact .inl (heq ▸ h')
      · exact .inr ⟨heq.trans heq', ih h h'⟩

/-- The order of two places by the direction of a key. -/
def directed (o : Directive) (p q : Place) : Ordering :=
  if o.logic = .desc then compare q p else compare p q

theorem directed_eq_lt : directed o p q = .lt ↔ ComesFirst o p q := by
  unfold directed ComesFirst
  split <;> exact compare_lt_iff_lt

theorem directed_eq_gt : directed o p q = .gt ↔ ComesFirst o q p := by
  unfold directed ComesFirst
  split <;> exact compare_gt_iff_gt

theorem directed_eq_eq : directed o p q = .eq ↔ p = q := by
  unfold directed
  split
  · exact compare_eq_iff_eq.trans eq_comm
  · exact compare_eq_iff_eq

/-- The key and the direction that the stage of an order has for one key. -/
def sortKey (idField : String) (o : Directive) : String × Json :=
  (documentKey idField o.key, .int (if o.logic = .desc then -1 else 1))

theorem isDescending_sortKey (o : Directive) :
    isDescending (sortKey idField o).2 = decide (o.logic = .desc) := by
  by_cases h : o.logic = .desc
  · rw [sortKey, if_pos h, decide_eq_true h]
    rfl
  · rw [sortKey, if_neg h, decide_eq_false h]
    rfl

/-- Whether the numbers of a document under the keys of an order are integers of 64 bits. -/
def HasInt64Keys (idField : String) (orders : List Directive) (doc : Json) : Prop :=
  ∀ o ∈ orders, HasInt64 (doc.field? (documentKey idField o.key))

instance (idField : String) (orders : List Directive) (doc : Json) :
    Decidable (HasInt64Keys idField orders doc) :=
  inferInstanceAs (Decidable (∀ o ∈ orders, HasInt64 (doc.field? (documentKey idField o.key))))

/-- The first key decides, and the others where it does not. -/
theorem orderBy_cons (ha : HasInt64 (a.field? (documentKey idField o.key)))
    (hb : HasInt64 (b.field? (documentKey idField o.key))) (rest : Fields) :
    orderBy (sortKey idField o :: rest) a b
      = (directed o (keyPlace idField o a) (keyPlace idField o b)).then (orderBy rest a b) := by
  have hhead : (if isDescending (sortKey idField o).2 then
        (sortOrder (a.field? (documentKey idField o.key))
          (b.field? (documentKey idField o.key))).swap
      else sortOrder (a.field? (documentKey idField o.key)) (b.field? (documentKey idField o.key)))
      = directed o (keyPlace idField o a) (keyPlace idField o b) := by
    rw [isDescending_sortKey, sortOrder_exact ha hb, directed, ← Std.OrientedOrd.eq_swap]
    simp only [decide_eq_true_eq]
    rfl
  rw [sortKey] at hhead ⊢
  rw [orderBy]
  simp only [hhead]
  cases directed o (keyPlace idField o a) (keyPlace idField o b) <;> rfl

/-- A document that is sorted in front of another one may stand there, and one that is not may
stand behind it. -/
theorem mayPrecede_of_orderBy (ha : HasInt64Keys idField orders a)
    (hb : HasInt64Keys idField orders b) :
    (orderBy (orders.map (sortKey idField)) a b = .lt → MayPrecede idField orders a b)
      ∧ (orderBy (orders.map (sortKey idField)) a b ≠ .lt → MayPrecede idField orders b a) := by
  induction orders with
  | nil => exact ⟨fun _ => trivial, fun _ => trivial⟩
  | cons o rest ih =>
    obtain ⟨hao, ha⟩ := List.forall_mem_cons.mp ha
    obtain ⟨hbo, hb⟩ := List.forall_mem_cons.mp hb
    obtain ⟨hlt, hge⟩ := ih ha hb
    rw [List.map_cons, orderBy_cons hao hbo]
    -- Only where the first key leaves the two level do the other keys decide.
    cases hhead : directed o (keyPlace idField o a) (keyPlace idField o b) with
    | lt => exact ⟨fun _ => .inl (directed_eq_lt.mp hhead), fun h => absurd rfl h⟩
    | eq =>
      have hsame := directed_eq_eq.mp hhead
      exact ⟨fun h => .inr ⟨hsame, hlt h⟩, fun h => .inr ⟨hsame.symm, hge h⟩⟩
    | gt => exact ⟨fun h => (nomatch h), fun _ => .inl (directed_eq_gt.mp hhead)⟩

/-- Documents at the same places stand level. -/
theorem orderBy_of_places (ha : HasInt64Keys idField orders a)
    (hb : HasInt64Keys idField orders b) (h : places idField orders a = places idField orders b) :
    orderBy (orders.map (sortKey idField)) a b = .eq := by
  induction orders with
  | nil => rfl
  | cons o rest ih =>
    obtain ⟨hao, ha⟩ := List.forall_mem_cons.mp ha
    obtain ⟨hbo, hb⟩ := List.forall_mem_cons.mp hb
    obtain ⟨hhead, hrest⟩ := List.cons.inj h
    rw [List.map_cons, orderBy_cons hao hbo, directed_eq_eq.mpr hhead, ih ha hb hrest]
    rfl

end Order

/-! ## Reads -/

variable {m : Model.EntityMeta} {c : Criteria} {docs found : List Json}

/-- An empty filter stands for no stage, and lets all documents through. -/
theorem run_filterStage (filter : Fields) (docs : List Json) :
    run docs (filterStage filter) = filterDocs filter docs := by
  rw [filterStage]
  split
  · next h =>
    obtain rfl := List.isEmpty_iff.mp h
    have hall : ∀ doc, satisfies doc [] = .ok true := fun doc => rfl
    rw [run, eq_comm, filterDocs_eq_ok, matching]
    simp [hall, Except.toOption]
  · rw [run_cons (ofJson_match filter), Stage.apply]
    cases filterDocs filter docs <;> rfl

/-- Keys that are distinct as keys of documents are those of the stage. -/
theorem sortKeys_of_nodup {idField : String} {orders : List Directive}
    (h : (orders.map fun o => documentKey idField o.key).Nodup) :
    sortKeys idField orders = orders.map (sortKey idField) := by
  rw [sortKeys, putAll_nil]
  · rfl
  · rw [Keyed.keys, List.map_map]
    exact h

/-- A read without a window sorts the documents that its filter lets through. -/
theorem reads_whole (hplain : c.aggregates = []) (hwhole : c.fields = [])
    (hwindow : c.page.isSet = false) :
    Reads m c docs found ↔ ∃ filter, filterOf c.conditions m.idField = .ok filter
      ∧ (∀ doc ∈ docs, ∃ b, satisfies doc filter = .ok b)
      ∧ found = sortBy (sortKeys m.idField c.orders) (matching filter docs) := by
  have hstages : windowStages c false = [] := by
    rw [windowStages, if_neg Bool.false_ne_true, hwindow, if_neg Bool.false_ne_true]
  have hrun : ∀ filter, run docs (selectingStages c m.idField filter ++ windowStages c false)
      = (filterDocs filter docs).map (sortBy (sortKeys m.idField c.orders)) := by
    intro filter
    rw [hstages, List.append_nil, run_selectingStages_whole hplain hwhole, run_filterStage]
  constructor
  · rintro ⟨stages, hcompiled, hfound⟩
    obtain ⟨filter, hfilter, rfl⟩ := pipelineOf_eq_ok.mp hcompiled
    rw [hrun] at hfound
    cases hkept : filterDocs filter docs with
    | error e =>
      rw [hkept] at hfound
      cases hfound
    | ok kept =>
      rw [hkept] at hfound
      obtain ⟨hanswers, rfl⟩ := filterDocs_eq_ok.mp hkept
      exact ⟨filter, hfilter, hanswers, (Except.ok.inj hfound).symm⟩
  · rintro ⟨filter, hfilter, hanswers, rfl⟩
    refine ⟨_, pipelineOf_eq_ok.mpr ⟨filter, hfilter, rfl⟩, ?_⟩
    rw [hrun, filterDocs_eq_ok.mpr ⟨hanswers, rfl⟩]
    rfl

/-- **Reads are sorted.** Let a criteria ask for whole documents without a window, in an order whose
keys are distinct as keys of documents, and let all numbers under those keys be integers of 64 bits.
It reads documents exactly when its filter compiles and answers for each of them. What it reads are
the documents that the filter lets through, each as often as before, sorted one key after the other.
Of the documents at the same places by all keys none changes sides with another. -/
theorem sorted_reads (hplain : c.aggregates = []) (hwhole : c.fields = [])
    (hwindow : c.page.isSet = false)
    (hkeys : (c.orders.map fun o => documentKey m.idField o.key).Nodup)
    (hnumbers : ∀ doc ∈ docs, HasInt64Keys m.idField c.orders doc) :
    ((∃ found, Reads m c docs found) ↔ ∃ filter, filterOf c.conditions m.idField = .ok filter
        ∧ ∀ doc ∈ docs, ∃ b, satisfies doc filter = .ok b)
      ∧ ∀ found, Reads m c docs found → ∃ filter, filterOf c.conditions m.idField = .ok filter
        ∧ found.Perm (matching filter docs)
        ∧ found.Pairwise (MayPrecede m.idField c.orders)
        ∧ ∀ level, found.filter (places m.idField c.orders · = level)
          = (matching filter docs).filter (places m.idField c.orders · = level) := by
  have hread := fun found => @reads_whole m c docs found hplain hwhole hwindow
  refine ⟨⟨?_, ?_⟩, ?_⟩
  · rintro ⟨found, h⟩
    obtain ⟨filter, hfilter, hanswers, -⟩ := (hread found).mp h
    exact ⟨filter, hfilter, hanswers⟩
  · rintro ⟨filter, hfilter, hanswers⟩
    exact ⟨_, (hread _).mpr ⟨filter, hfilter, hanswers, rfl⟩⟩
  · intro found h
    obtain ⟨filter, hfilter, -, rfl⟩ := (hread found).mp h
    have hints : ∀ doc ∈ matching filter docs, HasInt64Keys m.idField c.orders doc :=
      fun doc hdoc => hnumbers doc (List.mem_of_mem_filter hdoc)
    refine ⟨filter, hfilter, stableSort_perm _ _, ?_, fun level => ?_⟩
    · rw [sortKeys_of_nodup hkeys]
      refine pairwise_stableSort_of (fun a b c => MayPrecede.trans) ?_ ?_
      · intro a ha b hb h
        exact (mayPrecede_of_orderBy (hints a ha) (hints b hb)).1 (of_decide_eq_true h)
      · intro a ha b hb h
        exact (mayPrecede_of_orderBy (hints a ha) (hints b hb)).2 (of_decide_eq_false h)
    · rw [sortKeys_of_nodup hkeys]
      refine filter_stableSort fun a ha b hb halevel hblevel => ?_
      have hsame := (of_decide_eq_true halevel).trans (of_decide_eq_true hblevel).symm
      rw [orderBy_of_places (hints a ha) (hints b hb) hsame]
      rfl

/-- Notes by their stars, the most first, then by their titles: texts stand in front of numbers, a
missing number of stars comes last, and of two notes alike the older one stays in front. -/
theorem sorted_reads_notes :
    let m : Model.EntityMeta := ⟨"Note", "note", "id", false, []⟩
    let c := (({} : Criteria).orderBy "stars" .desc).orderBy "title" .asc
    let note (id : Int) (stars : Fields) (title : String) : Json :=
      .obj (("_id", .int id) :: ("title", .str title) :: stars)
    let two : Fields := [("stars", .int 2)]
    let many : Fields := [("stars", .str "many")]
    let docs := [note 1 two "b", note 2 [] "a", note 3 many "c", note 4 two "a", note 5 two "b"]
    let found := [note 3 many "c", note 4 two "a", note 1 two "b", note 5 two "b", note 2 [] "a"]
    c.aggregates = [] ∧ c.fields = [] ∧ c.page.isSet = false
      ∧ (c.orders.map fun o => documentKey m.idField o.key).Nodup
      ∧ (∀ doc ∈ docs, HasInt64Keys m.idField c.orders doc)
      ∧ Reads m c docs found ∧ found.Pairwise (MayPrecede m.idField c.orders) := by
  intro m c note two many docs found
  have hplain : c.aggregates = [] := rfl
  have hwhole : c.fields = [] := rfl
  have hwindow : c.page.isSet = false := rfl
  have hkeys : (c.orders.map fun o => documentKey m.idField o.key).Nodup := by decide
  have hnumbers : ∀ doc ∈ docs, HasInt64Keys m.idField c.orders doc := by decide
  have hread : Reads m c docs found := ⟨_, rfl, rfl⟩
  obtain ⟨-, -, -, hpairwise, -⟩ :=
    (sorted_reads hplain hwhole hwindow hkeys hnumbers).2 found hread
  exact ⟨hplain, hwhole, hwindow, hkeys, hnumbers, hread, hpairwise⟩

end DualStore.Document
