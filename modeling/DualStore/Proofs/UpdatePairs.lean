import DualStore.Proofs.AcceptedPipelines
import DualStore.Relational.Statement

/-!
# The pairs that an update assigns

However often keys are assigned, in one call or over several, each key of a criteria is assigned
once: it stands where it came first and has the value that it was given last. A call with more keys
than values, or fewer, does nothing. Both kinds of update take the pairs as they are, the one of
documents without the identity.

* `assignEach`, `givenBy`: calls one after the other, and the pairs that they give;
* `assignEach_eq`: the criteria behind calls; `Built.nodup_assignments`: no key twice;
* `Change.ofCriteria_eq_ok_iff`, `count_assignmentsText`: the update of rows;
* `Document.exists_assignmentsOf`: the update of documents;
* `assigned_once`: the main statement.
-/

namespace DualStore

open Relational

/-! ## Calls -/

namespace Criteria

/-- A criteria behind assignments one after the other. -/
def assignEach (c : Criteria) (calls : List (List String × List Value)) : Criteria :=
  calls.foldl (fun c call => c.assign call.1 call.2) c

/-- The pairs that calls give, a call with as many keys as values. -/
def givenBy (calls : List (List String × List Value)) : List (String × Value) :=
  (calls.filter fun call => call.1.length = call.2.length).flatMap fun call => call.1.zip call.2

theorem assignAll_eq_putEach (entries later : List (String × Value)) :
    assignAll entries later = Keyed.putEach entries later := by
  induction later generalizing entries with
  | nil => rfl
  | cons entry rest ih => exact ih _

/-- **One call** puts its pairs one after the other, if it gives any. -/
theorem assign_eq (c : Criteria) (keys : List String) (values : List Value) :
    c.assign keys values
      = { c with assignments := Keyed.putEach c.assignments (givenBy [(keys, values)]) } := by
  rw [assign]
  by_cases hlength : keys.length = values.length
  · rw [if_pos hlength, assignAll_eq_putEach]
    simp [givenBy, hlength]
  · rw [if_neg hlength]
    simp [givenBy, hlength, Keyed.putEach]

theorem givenBy_cons (call : List String × List Value) (rest : List (List String × List Value)) :
    givenBy (call :: rest) = givenBy [call] ++ givenBy rest := by
  by_cases hlength : call.1.length = call.2.length <;> simp [givenBy, hlength]

/-- **Calls one after the other** put all pairs that they give, and leave everything else. -/
theorem assignEach_eq (c : Criteria) (calls : List (List String × List Value)) :
    c.assignEach calls
      = { c with assignments := Keyed.putEach c.assignments (givenBy calls) } := by
  induction calls generalizing c with
  | nil => rfl
  | cons call rest ih =>
    rw [assignEach, List.foldl_cons, ← assignEach, ih, assign_eq, givenBy_cons call rest,
      Keyed.putEach_append]

/-- No criteria that is put together by the builder functions assigns a key twice. -/
theorem Built.nodup_assignments {c : Criteria} (h : c.Built) :
    (Keyed.keys c.assignments).Nodup := by
  induction h with
  | empty | of model => exact List.nodup_nil
  | join h kind table shortName condition ih =>
    unfold Criteria.join
    split <;> exact ih
  | assign h keys values ih =>
    rw [assign_eq]
    exact Keyed.nodup_putEach ih _
  | _ => assumption

end Criteria

/-! ## Updates of rows -/

namespace Relational

theorem Change.ofCriteria_eq_ok_iff {table : String} {c : Criteria} {change : Change} :
    Change.ofCriteria table c = .ok change
      ↔ c.assignments ≠ [] ∧ ∃ filter, predicates? c.conditions = .ok filter
        ∧ change = .updateMatching table c.assignments filter := by
  rw [Change.ofCriteria]
  by_cases hempty : c.assignments = []
  · simp [hempty]
  · cases hfilter : predicates? c.conditions <;> simp [hempty, eq_comm]

/-- The assignments of columns without question marks have one for each column. -/
theorem count_assignmentsText {columns : List String}
    (h : ∀ column ∈ columns, '?' ∉ column.toList) :
    (assignmentsText columns).toList.count '?' = columns.length := by
  induction columns with
  | nil => rfl
  | cons column rest ih =>
    obtain ⟨hcolumn, hrest⟩ := List.forall_mem_cons.mp h
    have hfirst : (column ++ " = ?").toList.count '?' = 1 := by
      rw [String.toList_append, List.count_append, List.count_eq_zero.mpr hcolumn]
      rfl
    cases rest with
    | nil => exact hfirst
    | cons other others =>
      have hjoin : assignmentsText (column :: other :: others)
          = (column ++ " = ?") ++ ", " ++ assignmentsText (other :: others) := rfl
      have hcomma : (", " : String).toList.count '?' = 0 := by decide
      rw [hjoin, String.toList_append, String.toList_append, List.count_append, List.count_append,
        hfirst, hcomma, ih hrest, Nat.add_zero, Nat.add_comm]
      rfl

end Relational

/-! ## Updates of documents -/

/-- The fields that an update sets are the pairs in their order without those of the identity. -/
theorem Document.exists_assignmentsOf {c : Criteria} (h : c.assignments ≠ [])
    (distinct : (Keyed.keys c.assignments).Nodup) (idField : String) :
    ∃ set, Document.assignmentsOf c idField = .ok set
      ∧ Keyed.keys set = (Keyed.keys c.assignments).filter (documentKey idField · ≠ idKey)
      ∧ (Keyed.keys set).Nodup
      ∧ ∀ key json, (key, json) ∈ set
        ↔ documentKey idField key ≠ idKey ∧ ∃ value, (key, value) ∈ c.assignments
          ∧ value.toJson = json := by
  let kept := c.assignments.filter fun pair => documentKey idField pair.1 ≠ idKey
  have hkeys : Keyed.keys (kept.map fun pair => (pair.1, pair.2.toJson))
      = (Keyed.keys c.assignments).filter (documentKey idField · ≠ idKey) := by
    rw [Keyed.keys, Keyed.keys, List.map_map, List.filter_map]
    rfl
  refine ⟨_, by rw [assignmentsOf, if_neg h], hkeys, hkeys ▸ distinct.filter _, ?_⟩
  intro key json
  rw [List.mem_map]
  constructor
  · rintro ⟨⟨_, value⟩, hpair, heq⟩
    obtain ⟨rfl, rfl⟩ := Prod.mk.inj heq
    obtain ⟨hpair, hkey⟩ := List.mem_filter.mp hpair
    exact ⟨of_decide_eq_true hkey, value, hpair, rfl⟩
  · rintro ⟨hkey, value, hpair, rfl⟩
    exact ⟨(key, value), List.mem_filter.mpr ⟨hpair, decide_eq_true hkey⟩, rfl⟩

/-! ## Runs -/

/-- **Every key is assigned once, whatever calls were made.** Let a criteria assign no key twice, as
none does that is built. Behind any calls only its pairs are others than before. Their keys are
distinct and in the order in which they were first given, and each has the value that was last given
to it by a call with as many keys as values; the other calls have no effect. If there are pairs and
the conditions can be compiled, rows are updated by a statement with one assignment for each pair,
whose parameters come before those of the conditions; documents are updated with the same pairs,
except the identity. -/
theorem assigned_once (c : Criteria) (distinct : (Keyed.keys c.assignments).Nodup)
    (calls : List (List String × List Value)) :
    let updated := c.assignEach calls
    let given := c.assignments ++ Criteria.givenBy calls
    updated = { c with assignments := updated.assignments }
    ∧ (Keyed.keys updated.assignments).Nodup
    ∧ Keyed.keys updated.assignments = (Keyed.keys given).eraseDups
    ∧ (∀ key value, (key, value) ∈ updated.assignments
        ↔ ∃ before after, given = before ++ (key, value) :: after ∧ key ∉ Keyed.keys after)
    ∧ updated = c.assignEach (calls.filter fun call => call.1.length = call.2.length)
    ∧ (∀ table, (∃ change, Change.ofCriteria table updated = .ok change)
        ↔ given ≠ [] ∧ ∃ filter, predicates? c.conditions = .ok filter)
    ∧ (∀ table change, Change.ofCriteria table updated = .ok change →
        ∃ filter, predicates? c.conditions = .ok filter
          ∧ change.text = "UPDATE " ++ table ++ " SET "
            ++ assignmentsText (Keyed.keys updated.assignments) ++ clauseText filter
          ∧ change.parameters = updated.assignments.map Prod.snd ++ Predicate.allParameters filter)
    ∧ ((∀ key ∈ Keyed.keys updated.assignments, '?' ∉ key.toList) →
        (assignmentsText (Keyed.keys updated.assignments)).toList.count '?'
          = updated.assignments.length)
    ∧ (∀ idField, given ≠ [] → ∃ set, Document.assignmentsOf updated idField = .ok set
        ∧ Keyed.keys set = (Keyed.keys updated.assignments).filter
          (Document.documentKey idField · ≠ Document.idKey)
        ∧ (Keyed.keys set).Nodup
        ∧ ∀ key json, (key, json) ∈ set
          ↔ Document.documentKey idField key ≠ Document.idKey
            ∧ ∃ value, (key, value) ∈ updated.assignments ∧ value.toJson = json) := by
  intro updated given
  have hupdated : updated = { c with assignments := Keyed.putEach c.assignments _ } :=
    Criteria.assignEach_eq c calls
  have hnodup : (Keyed.keys updated.assignments).Nodup := by
    rw [hupdated]
    exact Keyed.nodup_putEach distinct _
  have hempty : updated.assignments = [] ↔ given = [] := by
    rw [hupdated]
    exact Keyed.putEach_eq_nil_iff _ _
  have hconditions : updated.conditions = c.conditions := by rw [hupdated]
  refine ⟨?_, hnodup, ?_, ?_, ?_, ?_, ?_, ?_, ?_⟩
  · rw [hupdated]
  · rw [hupdated]
    exact Keyed.keys_putEach distinct _
  · rw [hupdated]
    exact fun key value => Keyed.mem_putEach distinct _ (key, value)
  · rw [hupdated, Criteria.assignEach_eq]
    simp [Criteria.givenBy]
  · intro table
    simp only [Change.ofCriteria_eq_ok_iff, hconditions, ne_eq, hempty]
    exact ⟨fun ⟨_, hgiven, filter, hfilter, _⟩ => ⟨hgiven, filter, hfilter⟩,
      fun ⟨hgiven, filter, hfilter⟩ => ⟨_, hgiven, filter, hfilter, rfl⟩⟩
  · intro table change hchange
    obtain ⟨-, filter, hfilter, rfl⟩ := Change.ofCriteria_eq_ok_iff.mp hchange
    exact ⟨filter, hconditions ▸ hfilter, rfl, rfl⟩
  · intro hkeys
    rw [count_assignmentsText hkeys, Keyed.keys, List.length_map]
  · intro idField hgiven
    exact Document.exists_assignmentsOf (fun h => hgiven (hempty.mp h)) hnodup idField

/-- Keys that are given twice in a call and again in a later one, and a call without a value. -/
def seatCalls : List (List String × List Value) :=
  [(["seat", "row", "seat"], [.integer 1, .integer 2, .integer 3]), (["price"], []),
    (["row", "id"], [.integer 5, .integer 7])]

theorem assigned_once_seat :
    (Keyed.keys ({} : Criteria).assignments).Nodup
      ∧ Keyed.keys (({} : Criteria).assignEach seatCalls).assignments = ["seat", "row", "id"]
      ∧ ("seat", .integer 3) ∈ (({} : Criteria).assignEach seatCalls).assignments
      ∧ (∃ change, Change.ofCriteria "ticket" (({} : Criteria).assignEach seatCalls) = .ok change)
      ∧ ∃ set, Document.assignmentsOf (({} : Criteria).assignEach seatCalls) "id" = .ok set
        ∧ Keyed.keys set = ["seat", "row"] := by
  have distinct := Criteria.Built.empty.nodup_assignments
  obtain ⟨-, -, hkeys, hpairs, -, hrows, -, -, hdocuments⟩ := assigned_once {} distinct seatCalls
  have hnames : Keyed.keys (({} : Criteria).assignEach seatCalls).assignments
      = ["seat", "row", "id"] := hkeys.trans (by decide)
  obtain ⟨set, hset, hsetKeys, -, -⟩ := hdocuments "id" (by simp [seatCalls, Criteria.givenBy])
  refine ⟨distinct, hnames, ?_, (hrows "ticket").mpr ⟨?_, [], rfl⟩, set, hset, ?_⟩
  · exact (hpairs "seat" (.integer 3)).mpr
      ⟨[("seat", .integer 1), ("row", .integer 2)], [("row", .integer 5), ("id", .integer 7)],
        rfl, by decide⟩
  · simp [seatCalls, Criteria.givenBy]
  · rw [hsetKeys, hnames]
    decide

end DualStore
