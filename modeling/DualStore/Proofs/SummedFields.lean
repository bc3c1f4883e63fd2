import DualStore.Proofs.AcceptedPipelines
import DualStore.Proofs.GroupedRows
import DualStore.Proofs.ValueOrder

/-!
# Summed fields

A sum over a field whose numbers are integers of 64 bits is kept in 64 bits after every addition. As
long as no partial sum leaves the range it is exact, and then it does not depend on the order of the
documents. But a partial sum that leaves the range stops the whole grouping, even where the exact
sum fits, so whether there is an answer at all does depend on the order.

* `fieldInts`, `fieldTotal`, `fieldTotal_perm`: the summands and the exact sum;
* `StaysInRange`, `addInts_of_staysInRange`, `staysInRange_of_addInts`: when they can be added;
* `sum_accumulated`, `sum_field_eq_ok`, `sum_field_error_iff`: what a sum makes of a group;
* `IsGroupSpec.run_ok_or`: a grouping that is well-formed stops at nothing but a sum;
* `summed_fields`: the main statement;
* `sum_beyond_range`: sums that stop the grouping, with an exact sum outside and inside the range.
-/

namespace DualStore.Document

open Json Decimal

/-! ## Partial sums -/

/-- Whether integers can be added from left to right without leaving the range of 64 bits. -/
def StaysInRange (ns : List Int) : Prop := ∀ before, before <+: ns → fitsInt64 before.sum = true

theorem addInts_of_staysInRange {acc : Int} {ns : List Int}
    (h : ∀ before, before <+: ns → fitsInt64 (acc + before.sum) = true) :
    addInts acc ns = .ok (acc + ns.sum) := by
  induction ns generalizing acc with
  | nil => simp [addInts]
  | cons n rest ih =>
    have hfirst := h [n] ⟨rest, rfl⟩
    rw [List.sum_singleton] at hfirst
    rw [addInts, if_pos hfirst, ih, List.sum_cons, Int.add_assoc]
    intro before hbefore
    have hlonger := h (n :: before) (List.cons_prefix_cons.mpr ⟨rfl, hbefore⟩)
    rwa [List.sum_cons, ← Int.add_assoc] at hlonger

theorem staysInRange_of_addInts {acc total : Int} {ns : List Int} (hacc : fitsInt64 acc = true)
    (h : addInts acc ns = .ok total) {before : List Int} (hbefore : before <+: ns) :
    fitsInt64 (acc + before.sum) = true := by
  induction ns generalizing acc before with
  | nil =>
    rw [List.prefix_nil.mp hbefore]
    simpa using hacc
  | cons n rest ih =>
    rw [addInts] at h
    split at h
    · next hfits =>
      rcases List.prefix_cons_iff.mp hbefore with rfl | ⟨more, rfl, hmore⟩
      · simpa using hacc
      · rw [List.sum_cons, ← Int.add_assoc]
        exact ih hfits h hmore
    · cases h

/-! ## Summands -/

section Summands

variable {path : String} {members docs : List Json}

/-- The integers of 64 bits that documents hold in a field, in the order of the documents. -/
def fieldInts (path : String) (members : List Json) : List Int :=
  members.filterMap fun doc => (doc.field? path).bind asInt64?

/-- Their exact sum. -/
def fieldTotal (path : String) (members : List Json) : Int := (fieldInts path members).sum

theorem fieldTotal_perm {docs' : List Json} (h : docs.Perm docs') (id key : Json) :
    fieldTotal path (membersOf id key docs') = fieldTotal path (membersOf id key docs) :=
  ((h.filter _).filterMap _).sum_eq.symm

theorem accumulated_dollar (path : String) (members : List Json) :
    accumulated (.str ("$" ++ path)) members
      = (members.filterMap fun doc => doc.field? path).filter fun v => !v.isNull := by
  simp only [accumulated, path?_dollar]

/-- The integers among the accumulated values are those that the members hold. -/
theorem asInt64?_of_accumulated (path : String) (members : List Json) :
    ((accumulated (.str ("$" ++ path)) members).filter isNumber).filterMap asInt64?
      = fieldInts path members := by
  have hkept : ∀ v : Json,
      (if isNumber v && !v.isNull then v.asInt64? else none) = v.asInt64? := by
    intro v
    cases v <;> rfl
  rw [accumulated_dollar, List.filter_filter, List.filterMap_filter, List.filterMap_filterMap]
  simp only [hkept, fieldInts]

variable (hints : ∀ doc ∈ members, HasInt64 (doc.field? path))

include hints

/-- A sum over the members of a group adds their integers. -/
theorem sum_accumulated :
    sum (accumulated (.str ("$" ++ path)) members)
      = (addInts 0 (fieldInts path members)).map .int := by
  have hall : ((accumulated (.str ("$" ++ path)) members).filter isNumber).all
      (fun n => n.asInt64?.isSome) = true := by
    rw [List.all_eq_true]
    intro v hv
    obtain ⟨hv, hnumber⟩ := List.mem_filter.mp hv
    rw [accumulated_dollar] at hv
    obtain ⟨doc, hdoc, hfield⟩ := List.mem_filterMap.mp (List.mem_of_mem_filter hv)
    exact hints doc hdoc v hfield hnumber
  rw [sum, if_pos hall, asInt64?_of_accumulated]

theorem sum_field_eq_ok {value : Json}
    (h : sum (accumulated (.str ("$" ++ path)) members) = .ok value) :
    value = .int (fieldTotal path members) ∧ StaysInRange (fieldInts path members) := by
  rw [sum_accumulated hints] at h
  cases hadded : addInts 0 (fieldInts path members) with
  | error e => simp [hadded, Except.map] at h
  | ok total =>
    obtain ⟨rfl, -⟩ := addInts_eq_ok rfl hadded
    simp only [hadded, Except.map, Except.ok.injEq, zero_add] at h
    refine ⟨h.symm, fun before hbefore => ?_⟩
    have hrange := staysInRange_of_addInts rfl hadded hbefore
    rwa [zero_add] at hrange

theorem sum_field_error_iff :
    sum (accumulated (.str ("$" ++ path)) members) = .error .sumOverflow
      ↔ ¬StaysInRange (fieldInts path members) := by
  rcases sum_ok_or (accumulated (.str ("$" ++ path)) members) with ⟨value, hvalue⟩ | hover
  · simp [hvalue, (sum_field_eq_ok hints hvalue).2]
  · refine ⟨fun _ hstays => ?_, fun _ => hover⟩
    have hadded : addInts 0 (fieldInts path members) = .ok (0 + fieldTotal path members) :=
      addInts_of_staysInRange fun before hbefore => by rw [zero_add]; exact hstays before hbefore
    rw [sum_accumulated hints, hadded] at hover
    cases hover

end Summands

/-! ## Groupings -/

/-- A grouping that is well-formed gives rows, unless a sum leaves the range over the members of a
key. -/
theorem IsGroupSpec.run_ok_or {spec : Fields} {id : Json} {docs : List Json} (h : IsGroupSpec spec)
    (hspec : (obj spec).IsValue) (hid : (idKey, id) ∈ spec) (hdocs : ∀ doc ∈ docs, doc.IsValue) :
    ((∀ key ∈ keysOf id docs, ¬Overflows spec (membersOf id key docs))
        ∧ ∃ rows, run docs [operator "$group" (.obj spec)] = .ok rows)
      ∨ (∃ key ∈ keysOf id docs, Overflows spec (membersOf id key docs))
        ∧ run docs [operator "$group" (.obj spec)] = .error .sumOverflow := by
  have hget := (Keyed.get?_eq_some_iff hspec.nodup _ _).mpr hid
  have hvalue : id.IsValue := hspec.fields _ hid
  have hgroups := h.group_ok_or hget docs
  simp only [groupDocs_eq hvalue hdocs, List.mem_map, exists_exists_and_eq_and,
    forall_exists_index, and_imp, forall_apply_eq_imp_iff₂] at hgroups
  rw [run_cons (ofJson_group spec), Stage.apply]
  refine hgroups.imp ?_ ?_
  · rintro ⟨hfits, rows, hrows⟩
    exact ⟨hfits, rows, by rw [hrows]; rfl⟩
  · rintro ⟨hover, hrows⟩
    exact ⟨hover, by rw [hrows]; rfl⟩

/-- Whether a grouping puts a sum over a field into a field of its rows. -/
def Sums (path : String) (spec : Fields) (field : String) : Prop :=
  field ≠ idKey ∧ (field, operator "$sum" (.str ("$" ++ path))) ∈ spec

/-- Whether all sums of a grouping are over one field. -/
def SumsOnly (path : String) (spec : Fields) : Prop :=
  ∀ e ∈ spec, e.1 ≠ idKey → ∀ argument, e.2 = operator "$sum" argument →
    argument = .str ("$" ++ path)

theorem overflows_iff {spec : Fields} {path : String} {members : List Json}
    (honly : SumsOnly path spec) (hints : ∀ doc ∈ members, HasInt64 (doc.field? path)) :
    Overflows spec members
      ↔ (∃ field, Sums path spec field) ∧ ¬StaysInRange (fieldInts path members) := by
  rw [← sum_field_error_iff hints]
  constructor
  · rintro ⟨⟨field, accumulator⟩, he, hne, argument, hasked, hover⟩
    cases hasked
    obtain rfl := honly _ he hne argument rfl
    exact ⟨⟨field, hne, he⟩, hover⟩
  · rintro ⟨⟨field, hne, he⟩, hover⟩
    exact ⟨_, he, hne, _, rfl, hover⟩

/-- **What a sum of integers gives.** Let documents be grouped in any order, where every number that
they hold in a field is an integer of 64 bits. A well-formed grouping whose sums are over this field
gives rows, or it is stopped; it is stopped exactly if it has a sum and, for some key, adding the
integers of the documents of the key in their order leaves the range of 64 bits at some point.
Whenever a grouping gives rows, then in the row of a key a sum over the field is the exact sum over
the documents of the key, which then fits into 64 bits. So two orders of the documents never give
different sums, but one may give an answer where the other is stopped. -/
theorem summed_fields {spec : Fields} {id : Json} {path : String} {docs : List Json}
    (hspec : (obj spec).IsValue) (hid : (idKey, id) ∈ spec) (hdocs : ∀ doc ∈ docs, doc.IsValue)
    (hints : ∀ doc ∈ docs, HasInt64 (doc.field? path)) :
    ∀ docs', docs.Perm docs' →
      (IsGroupSpec spec → SumsOnly path spec →
        ((∃ rows, run docs' [operator "$group" (.obj spec)] = .ok rows)
          ∨ run docs' [operator "$group" (.obj spec)] = .error .sumOverflow)
        ∧ (run docs' [operator "$group" (.obj spec)] = .error .sumOverflow
          ↔ (∃ field, Sums path spec field)
            ∧ ∃ key ∈ keysOf id docs', ¬StaysInRange (fieldInts path (membersOf id key docs'))))
      ∧ ∀ rows, run docs' [operator "$group" (.obj spec)] = .ok rows →
        List.Forall₂ (fun key row => row.field? idKey = some key
            ∧ ∀ field, Sums path spec field →
              let total := fieldTotal path (membersOf id key docs)
              row.field? field = some (.int total) ∧ fitsInt64 total = true)
          (keysOf id docs') rows := by
  intro docs' hperm
  have hdocs' : ∀ doc ∈ docs', doc.IsValue := fun doc hdoc => hdocs doc (hperm.mem_iff.mpr hdoc)
  have hmembers : ∀ key, ∀ doc ∈ membersOf id key docs', HasInt64 (doc.field? path) :=
    fun key doc hdoc => hints doc (hperm.mem_iff.mpr (List.mem_of_mem_filter hdoc))
  constructor
  · intro hgroup honly
    have hover : (∃ key ∈ keysOf id docs', Overflows spec (membersOf id key docs'))
        ↔ (∃ field, Sums path spec field)
          ∧ ∃ key ∈ keysOf id docs', ¬StaysInRange (fieldInts path (membersOf id key docs')) := by
      simp only [overflows_iff honly (hmembers _)]
      exact ⟨fun ⟨key, hkey, hsums, hleaves⟩ => ⟨hsums, key, hkey, hleaves⟩,
        fun ⟨hsums, key, hkey, hleaves⟩ => ⟨key, hkey, hsums, hleaves⟩⟩
    rw [← hover]
    rcases hgroup.run_ok_or hspec hid hdocs' with ⟨hfits, rows, hrows⟩ | ⟨hsome, hrows⟩
    · refine ⟨.inl ⟨rows, hrows⟩, fun herror => ?_, fun ⟨key, hkey, hkeyover⟩ => ?_⟩
      · rw [hrows] at herror
        cases herror
      · exact absurd hkeyover (hfits key hkey)
    · exact ⟨.inr hrows, fun _ => hsome, fun _ => hrows⟩
  · intro rows hrun
    refine (rows_by_key hspec hdocs' hid hrun).imp ?_
    intro key row hrow
    constructor
    · obtain ⟨fields, rfl, -⟩ := hrow
      rfl
    · rintro field ⟨hfield, hasked⟩ total
      obtain ⟨value, hvalue, hmade⟩ := hrow.field? hspec.nodup hfield hasked
      rw [accumulate, if_pos rfl] at hmade
      obtain ⟨rfl, hstays⟩ := sum_field_eq_ok (hmembers key) hmade
      have htotal : fieldTotal path (membersOf id key docs') = total := fieldTotal_perm hperm id key
      have hrange := hstays _ (List.prefix_refl _)
      rw [htotal] at hvalue
      rw [← fieldTotal, htotal] at hrange
      exact ⟨hvalue, hrange⟩

/-- Three balances behind a text: added in one order they leave the range on the way, so that the
grouping is stopped; in another order their sum is there. -/
theorem summed_fields_midway :
    let spec : Fields := [("_id", .int 0), ("s", operator "$sum" (.str ("$" ++ "x")))]
    let docs : List Json := [.obj [("x", .int int64Max)], .obj [("x", .str "none")],
      .obj [("x", .int 1)], .obj [("x", .int (-2))]]
    let docs' : List Json := [.obj [("x", .int int64Max)], .obj [("x", .str "none")],
      .obj [("x", .int (-2))], .obj [("x", .int 1)]]
    (obj spec).IsValue ∧ (idKey, Json.int 0) ∈ spec ∧ (∀ doc ∈ docs, doc.IsValue)
      ∧ (∀ doc ∈ docs, HasInt64 (doc.field? "x")) ∧ IsGroupSpec spec ∧ SumsOnly "x" spec
      ∧ docs.Perm docs'
      ∧ run docs [operator "$group" (.obj spec)] = .error .sumOverflow
      ∧ run docs' [operator "$group" (.obj spec)]
        = .ok [.obj [("_id", .int 0), ("s", .int (int64Max - 1))]]
      ∧ ∀ rows, run docs' [operator "$group" (.obj spec)] = .ok rows →
        List.Forall₂ (fun _ row => row.field? "s" = some (.int (int64Max - 1)))
          (keysOf (.int 0) docs') rows := by
  intro spec docs docs'
  have hspec : (obj spec).IsValue := ⟨3, by decide⟩
  have hid : (idKey, Json.int 0) ∈ spec := List.mem_cons_self
  have hdocs : ∀ doc ∈ docs, doc.IsValue := fun doc hdoc => ⟨2, by revert doc; decide⟩
  have hints : ∀ doc ∈ docs, HasInt64 (doc.field? "x") := by
    intro doc hdoc
    revert doc
    decide
  have hgroup : IsGroupSpec spec := by
    refine ⟨hspec.nodup, by decide, ?_⟩
    simp only [spec, List.forall_mem_cons]
    exact ⟨fun h => absurd rfl h, fun _ => ⟨"$sum", by decide, _, rfl⟩, by simp⟩
  have honly : SumsOnly "x" spec := by
    simp only [SumsOnly, spec, List.forall_mem_cons]
    refine ⟨fun h => absurd rfl h, fun _ argument h => ?_, by simp⟩
    cases h
    rfl
  have hsums : Sums "x" spec "s" := ⟨by decide, by simp [spec]⟩
  have hperm : docs.Perm docs' := ((List.Perm.swap _ _ _).cons _).cons _
  have hleaves : ¬StaysInRange (fieldInts "x" (membersOf (.int 0) (.int 0) docs)) :=
    fun h => absurd (h [int64Max, 1] ⟨[-2], rfl⟩) (by decide)
  obtain ⟨hstopped, -⟩ := summed_fields hspec hid hdocs hints docs (List.Perm.refl docs)
  have hover := (hstopped hgroup honly).2.mpr ⟨⟨"s", hsums⟩, .int 0, List.mem_cons_self, hleaves⟩
  obtain ⟨-, hrows⟩ := summed_fields hspec hid hdocs hints docs' hperm
  refine ⟨hspec, hid, hdocs, hints, hgroup, honly, hperm, hover, rfl, fun rows hrun => ?_⟩
  have hkeys : keysOf (.int 0) docs' = [.int 0] := rfl
  have hexact := hrows rows hrun
  rw [hkeys] at hexact ⊢
  cases hexact with
  | cons hrow hrest =>
    cases hrest
    exact .cons (hrow.2 "s" hsums).1 .nil

/-- A sum of two numbers that is not in the range stops the grouping, and so does a sum that is in
the range if it is left on the way; the same numbers in another order have their sum. -/
theorem sum_beyond_range :
    let grouping := operator "$group"
      (.obj [("_id", .int 0), ("s", operator "$sum" (.str "$x"))])
    let holding := fun n : Int => Json.obj [("x", .int n)]
    run [holding int64Max, holding 1] [grouping] = .error .sumOverflow
      ∧ run [holding int64Max, holding 1, holding (-2)] [grouping] = .error .sumOverflow
      ∧ run [holding int64Max, holding (-2), holding 1] [grouping]
        = .ok [.obj [("_id", .int 0), ("s", .int (int64Max - 1))]]
      ∧ fieldTotal "x" [holding int64Max, holding 1, holding (-2)] = int64Max - 1 :=
  ⟨rfl, rfl, rfl, rfl⟩

end DualStore.Document
