import DualStore.Proofs.EqualityOperands
import DualStore.Proofs.GroupedRows
import DualStore.Proofs.ValueOrder

/-!
# Matched groups

A grouping puts documents together whose keys are equal as values. A filter that asks a field to
equal the key compares numbers as numbers, so that it also takes those of another form that count
as the same double.

* `equalAsDoubles`: numbers that are level with a key, but another value;
* `compareValues_eq_eq`, `equals_some_iff`, `equals_field?_iff`: what a filter takes for equal;
* `not_equalAsDoubles_of_one_form`: where the two agree;
* `run_equalTo`, `run_equalTo_connective`: the documents that equal a key;
* `equalDocs_eq`, `length_equalDocs`, `equalDocs_eq_membersOf_iff`: those beside the group;
* `matched_groups`: the main statement;
* `level_in_two_groups`: an integer and a double that equal each other in two groups.
-/

namespace DualStore.Document

open Json Decimal

/-! ## Numbers of other forms -/

/-- Whether a field is a number that counts as the same double as a key without being equal to it:
then one of the two is no integer of 64 bits, and they have different forms. -/
def equalAsDoubles (key : Json) (field : Option Json) : Bool :=
  field.any fun v => isNumber key && isNumber v && !(key.asInt64?.isSome && v.asInt64?.isSome)
    && rounded key = rounded v && !same key v

variable {key v : Json}

theorem equalAsDoubles_some : equalAsDoubles key (some v) = true ↔
    isNumber key = true ∧ isNumber v = true ∧ (key.asInt64? = none ∨ v.asInt64? = none)
      ∧ rounded key = rounded v ∧ same key v = false := by
  simp only [equalAsDoubles, Option.any_some, Bool.and_eq_true, Bool.not_eq_true',
    Bool.and_eq_false_iff, Option.isSome_eq_false_iff, Option.isNone_iff_eq_none,
    decide_eq_true_eq, and_assoc]

theorem equalAsDoubles_none : equalAsDoubles key none = false := rfl

/-- Values that compare as equal are equal as values unless they are numbers. -/
theorem compareValues_eq_eq (h : compareValues v key = some .eq) :
    same v key = true ∨ isNumber v = true ∧ isNumber key = true
      ∧ compareNumbers v key = some .eq := by
  by_cases hrank : rank (some v) = rank (some key)
  · cases v <;> cases key <;>
      simp_all [rank, compareValues, compareNumbers, same, isNumber, asInt64?, asFloat?]
  · rw [compareValues_of_rank_ne hrank] at h
    cases h

theorem compareValues_number (h : isNumber v = true) :
    compareValues v key = compareNumbers v key := by
  cases v <;> first | rfl | cases h

/-- A value equals a key in a filter if it is the same, or the same double. -/
theorem equals_some_iff (hv : v.IsValue) (hkey : key.IsValue) :
    equals (some v) key = true ↔ same key v = true ∨ equalAsDoubles key (some v) = true := by
  by_cases hsame : same key v = true
  · simp [equals, hsame, same_symm hkey hv hsame]
  · have hback : same v key = false :=
      Bool.eq_false_iff.mpr fun h => hsame (same_symm hv hkey h)
    rw [Bool.not_eq_true] at hsame
    rw [equalAsDoubles_some]
    simp only [equals, hback, hsame, Bool.or_false, decide_eq_true_eq, Bool.false_eq_true,
      false_or, and_true]
    constructor
    · intro h
      rcases compareValues_eq_eq h with hsame' | ⟨hvnumber, hknumber, hnumbers⟩
      · rw [hback] at hsame'
        cases hsame'
      · refine ⟨hknumber, hvnumber, ?_⟩
        cases hm : v.asInt64? with
        | none =>
          rw [compareNumbers_rounded hv hkey hvnumber hknumber (.inl hm), Option.some.injEq,
            compare_eq_iff_eq] at hnumbers
          exact ⟨.inr rfl, hnumbers.symm⟩
        | some m =>
          cases hn : key.asInt64? with
          | none =>
            rw [compareNumbers_rounded hv hkey hvnumber hknumber (.inr hn), Option.some.injEq,
              compare_eq_iff_eq] at hnumbers
            exact ⟨.inl rfl, hnumbers.symm⟩
          | some n =>
            -- Two integers of 64 bits are compared exactly, so that they would be the same.
            rw [compareNumbers_int64 hm hn, Option.some.injEq, compare_eq_iff_eq] at hnumbers
            obtain ⟨rfl, -⟩ := eq_int_of_asInt64? hm
            obtain ⟨rfl, -⟩ := eq_int_of_asInt64? hn
            simp [same, hnumbers] at hback
    · rintro ⟨hknumber, hvnumber, hint, hlevel⟩
      rw [compareValues_number hvnumber,
        compareNumbers_rounded hv hkey hvnumber hknumber hint.symm, hlevel]
      exact congrArg some (compare_eq_iff_eq.mpr rfl)

/-! ## Keys of documents -/

section Keys

variable {path : String} {doc : Json}

theorem same_null : same key .null = key.isNull := by
  cases key <;> rfl

/-- A field equals a key in a filter if the document has the key, or a number that is the same
double. -/
theorem equals_field?_iff (hdoc : doc.IsValue) (hkey : key.IsValue) :
    equals (doc.field? path) key = true ↔ same key (groupKey (.str ("$" ++ path)) doc) = true
      ∨ equalAsDoubles key (doc.field? path) = true := by
  rw [groupKey_dollar]
  cases hfield : doc.field? path with
  | none => simp [equals, same_null, equalAsDoubles_none]
  | some v => exact equals_some_iff (hdoc.field? hfield) hkey

/-- Only numbers have other forms. -/
theorem not_equalAsDoubles_of_not_number (h : isNumber key = false) (field : Option Json) :
    equalAsDoubles key field = false := by
  cases field <;> simp [equalAsDoubles, h]

theorem not_equalAsDoubles_of_int64 {field : Option Json} (hkey : HasInt64 (some key))
    (hfield : HasInt64 field) : equalAsDoubles key field = false := by
  rw [Bool.eq_false_iff]
  intro h
  cases field with
  | none => cases h
  | some v =>
    obtain ⟨hknumber, hvnumber, hnone, -⟩ := equalAsDoubles_some.mp h
    have hkint := hkey key rfl hknumber
    have hvint := hfield v rfl hvnumber
    rcases hnone with hnone | hnone <;> simp [hnone] at hkint hvint

theorem not_equalAsDoubles_of_not_int {field : Option Json} (hkey : key.IsValue)
    (hfield : ∀ v ∈ field, v.IsValue) (hkeyint : ∀ n, key ≠ .int n)
    (hfieldint : ∀ n, field ≠ some (.int n)) : equalAsDoubles key field = false := by
  rw [Bool.eq_false_iff]
  intro h
  cases field with
  | none => cases h
  | some v =>
    obtain ⟨hknumber, hvnumber, -, hlevel, hdiffers⟩ := equalAsDoubles_some.mp h
    cases key with
    | float x =>
      cases v with
      | float y =>
        -- Doubles that count as the same number are the same.
        obtain ⟨p, hp⟩ := hkey.value?_float
        obtain ⟨q, hq⟩ := (hfield _ rfl).value?_float
        have hsame : p = q := by simpa [rounded, asFloat?, hp, hq] using hlevel
        rw [same, Bool.eq_false_iff] at hdiffers
        exact hdiffers ((beq_iff hp hq).mpr hsame)
      | int n => exact hfieldint n rfl
      | _ => cases hvnumber
    | int n => exact hkeyint n rfl
    | _ => cases hknumber

end Keys

/-! ## Groups and filters -/

/-- The filter stage that asks a field to equal a key. -/
def equalTo (path : String) (key : Json) : Json :=
  operator "$match" (.obj [(path, operator "$eq" key)])

section Groups

variable {path : String} {docs : List Json}

theorem fieldMatches_eq_operator (actual : Option Json) (key : Json) :
    fieldMatches actual (operator "$eq" key) = .ok (equals actual key) := by
  have hops : asOperators (operator "$eq" key) = [("$eq", key)] :=
    asOperators_obj (by simp) (by simp; decide)
  rw [fieldMatches_eq, hops]
  cases h : equals actual key <;> simp [testOperators, testOperator, h]

def equalDocs (path : String) (key : Json) (docs : List Json) : List Json :=
  docs.filter fun doc => equals (doc.field? path) key

theorem run_equalTo (hor : path ≠ "$or") (hand : path ≠ "$and") (key : Json) (docs : List Json) :
    run docs [equalTo path key] = .ok (equalDocs path key docs) := by
  have hanswers : ∀ doc, satisfies doc [(path, operator "$eq" key)]
      = .ok (equals (doc.field? path) key) := by
    intro doc
    rw [satisfies_single hor hand, fieldMatches_eq_operator]
  have hkept : filterDocs [(path, operator "$eq" key)] docs
      = .ok (matching [(path, operator "$eq" key)] docs) :=
    filterDocs_eq_ok.mpr ⟨fun doc _ => ⟨_, hanswers doc⟩, rfl⟩
  rw [equalTo, run_cons (ofJson_match _), Stage.apply, hkept]
  simp [Except.bind, run, matching, hanswers, Except.toOption, equalDocs]

/-- A filter takes the name of a connective for the connective. -/
theorem run_equalTo_connective (hpath : path = "$or" ∨ path = "$and") (key doc : Json)
    (rest : List Json) : run (doc :: rest) [equalTo path key] = .error (.expectsArray path) := by
  rcases hpath with rfl | rfl <;> rfl

theorem exists_doc_of_mem_keysOf {id : Json} (h : key ∈ keysOf id docs) :
    ∃ doc ∈ docs, groupKey id doc = key :=
  List.mem_map.mp ((firstKeys_sublist _).mem h)

theorem field?_of_groupKey {doc : Json} (h : groupKey (.str ("$" ++ path)) doc = key)
    (hnull : key ≠ .null) : doc.field? path = some key := by
  rw [groupKey_dollar] at h
  cases hfield : doc.field? path with
  | none => exact absurd (by rw [← h, hfield]; rfl) hnull
  | some v => rw [hfield, Option.getD_some] at h; rw [h]

/-- In fields that hold numbers of one form only, nothing equals a key without being the same. -/
theorem not_equalAsDoubles_of_one_form (hdocs : ∀ doc ∈ docs, doc.IsValue)
    (hkey : key ∈ keysOf (.str ("$" ++ path)) docs)
    (hform : isNumber key = false ∨ (∀ doc ∈ docs, HasInt64 (doc.field? path))
      ∨ ∀ doc ∈ docs, ∀ n, doc.field? path ≠ some (.int n)) :
    ∀ doc ∈ docs, equalAsDoubles key (doc.field? path) = false := by
  intro doc hdoc
  cases hnumber : isNumber key with
  | false => exact not_equalAsDoubles_of_not_number hnumber _
  | true =>
    obtain ⟨holder, hholder, hheld⟩ := exists_doc_of_mem_keysOf hkey
    have hfield := field?_of_groupKey hheld fun hnull => by rw [hnull] at hnumber; cases hnumber
    rcases hform with hother | hints | hdoubles
    · rw [hnumber] at hother
      cases hother
    · exact not_equalAsDoubles_of_int64 (hfield ▸ hints holder hholder) (hints doc hdoc)
    · refine not_equalAsDoubles_of_not_int ((hdocs holder hholder).field? hfield)
        (fun v hv => (hdocs doc hdoc).field? hv) (fun n hn => ?_) (hdoubles doc hdoc)
      exact hdoubles holder hholder n (hn ▸ hfield)

theorem length_filter_or {α : Type} {p q : α → Bool} {xs : List α}
    (h : ∀ x ∈ xs, q x = true → p x = false) :
    (xs.filter fun x => p x || q x).length = (xs.filter p).length + xs.countP q := by
  induction xs with
  | nil => rfl
  | cons x rest ih =>
    obtain ⟨hx, hrest⟩ := List.forall_mem_cons.mp h
    have hmore := ih hrest
    cases hq : q x with
    | true =>
      have hp := hx hq
      simp only [List.filter_cons, hp, hq, List.countP_cons, Bool.or_true, if_true,
        Bool.false_eq_true, if_false, List.length_cons, hmore]
      omega
    | false =>
      cases hp : p x <;> simp [hp, hq, hmore, Nat.add_right_comm]

/-- A number that is only the same double as a key is not in the group of the key. -/
theorem same_groupKey_of_equalAsDoubles {doc : Json}
    (h : equalAsDoubles key (doc.field? path) = true) :
    same key (groupKey (.str ("$" ++ path)) doc) = false := by
  rw [groupKey_dollar]
  cases hfield : doc.field? path with
  | none => rw [hfield, equalAsDoubles_none] at h; cases h
  | some v =>
    rw [hfield, equalAsDoubles_some] at h
    exact h.2.2.2.2

section Key

variable (hkeyvalue : key.IsValue) (hdocs : ∀ doc ∈ docs, doc.IsValue)

include hkeyvalue hdocs

/-- The documents that equal a key are those of its group and those that hold it as a double. -/
theorem equalDocs_eq : equalDocs path key docs = docs.filter fun doc =>
    same key (groupKey (.str ("$" ++ path)) doc) || equalAsDoubles key (doc.field? path) := by
  refine List.filter_congr fun doc hdoc => ?_
  rw [Bool.eq_iff_iff, equals_field?_iff (hdocs doc hdoc) hkeyvalue, Bool.or_eq_true]

theorem membersOf_sublist :
    (membersOf (.str ("$" ++ path)) key docs).Sublist (equalDocs path key docs) := by
  rw [equalDocs_eq hkeyvalue hdocs]
  exact List.monotone_filter_right _ fun doc hsame => by simp [hsame]

theorem length_equalDocs : (equalDocs path key docs).length
    = (membersOf (.str ("$" ++ path)) key docs).length
      + docs.countP fun doc => equalAsDoubles key (doc.field? path) := by
  rw [equalDocs_eq hkeyvalue hdocs]
  exact length_filter_or fun doc _ => same_groupKey_of_equalAsDoubles

theorem equalDocs_eq_membersOf_iff :
    equalDocs path key docs = membersOf (.str ("$" ++ path)) key docs ↔
      ∀ doc ∈ docs, equalAsDoubles key (doc.field? path) = false := by
  have hlength : (equalDocs path key docs).length
      = (membersOf (.str ("$" ++ path)) key docs).length
        + docs.countP fun doc => equalAsDoubles key (doc.field? path) :=
    length_equalDocs hkeyvalue hdocs
  have hnone : docs.countP (fun doc => equalAsDoubles key (doc.field? path)) = 0 ↔
      ∀ doc ∈ docs, equalAsDoubles key (doc.field? path) = false := by
    simp only [List.countP_eq_zero, Bool.not_eq_true]
  rw [← hnone]
  constructor
  · intro heq
    rw [heq] at hlength
    omega
  · intro hzero
    exact ((membersOf_sublist hkeyvalue hdocs).eq_of_length (by omega)).symm

/-- Counting gives a number, since the document in which the key appeared is counted at least. -/
theorem run_count_equalTo (hor : path ≠ "$or") (hand : path ≠ "$and")
    (hkey : key ∈ keysOf (.str ("$" ++ path)) docs) (field : String) :
    run docs [equalTo path key, operator "$count" (.str field)]
      = .ok [.obj [(field, .int (equalDocs path key docs).length)]] := by
  obtain ⟨doc, hdoc, hheld⟩ := exists_doc_of_mem_keysOf hkey
  have hmember : doc ∈ membersOf (.str ("$" ++ path)) key docs :=
    List.mem_filter.mpr ⟨hdoc, by rw [hheld]; exact same_refl hkeyvalue⟩
  have hsome := List.ne_nil_of_mem ((membersOf_sublist hkeyvalue hdocs).mem hmember)
  have hstages : [equalTo path key, operator "$count" (.str field)]
      = [equalTo path key] ++ [operator "$count" (.str field)] := rfl
  rw [hstages, run_append, run_equalTo hor hand key docs, Except.bind,
    run_cons (ofJson_count _), Stage.apply, if_neg (by simpa using hsome)]
  rfl

end Key

end Groups

/-- **What a filter takes beside a group.** Let documents be grouped by a field. For every key of a
group, the filter that asks the field to equal the key takes the documents of the group and with
them exactly the documents whose field is a number equal to the key as a double but of another form
or precision, each of which is in a group of its own key. So the two agree, and count the same,
exactly when there is no such number: when the key is no number, when all numbers in the field are
integers of 64 bits, and when none is an integer. Fields that are named like the connectives of
filters cannot be asked for in this way. -/
theorem matched_groups {spec : Fields} {path : String} {docs rows : List Json}
    (hspec : (obj spec).IsValue) (hdocs : ∀ doc ∈ docs, doc.IsValue)
    (hid : (idKey, .str ("$" ++ path)) ∈ spec)
    (h : run docs [operator "$group" (.obj spec)] = .ok rows) :
    let id := Json.str ("$" ++ path)
    List.Forall₂ (fun key row => IsRow spec key (membersOf id key docs) row
          ∧ ∀ field, field ≠ idKey → (field, operator "$sum" (.int 1)) ∈ spec →
            row.field? field = some (.int (membersOf id key docs).length))
        (keysOf id docs) rows
      ∧ ∀ key ∈ keysOf id docs,
        (path = "$or" ∨ path = "$and" →
          run docs [equalTo path key] = .error (.expectsArray path))
        ∧ (path ≠ "$or" → path ≠ "$and" → ∃ matched,
          run docs [equalTo path key] = .ok matched
          ∧ (∀ field, run docs [equalTo path key, operator "$count" (.str field)]
            = .ok [.obj [(field, .int matched.length)]])
          ∧ matched = docs.filter (fun doc =>
            same key (groupKey id doc) || equalAsDoubles key (doc.field? path))
          ∧ (membersOf id key docs).Sublist matched
          ∧ matched.length = (membersOf id key docs).length
            + docs.countP (fun doc => equalAsDoubles key (doc.field? path))
          ∧ (matched = membersOf id key docs ↔
            ∀ doc ∈ docs, equalAsDoubles key (doc.field? path) = false)
          ∧ (isNumber key = false ∨ (∀ doc ∈ docs, HasInt64 (doc.field? path))
              ∨ (∀ doc ∈ docs, ∀ n, doc.field? path ≠ some (.int n)) →
            matched = membersOf id key docs)) := by
  intro id
  have hrows := rows_by_key hspec hdocs hid h
  have hidvalue : id.IsValue := hspec.fields _ hid
  constructor
  · refine hrows.imp ?_
    intro key row hrow
    refine ⟨hrow, ?_⟩
    intro field hfield hasked
    exact (hrow.count hspec.nodup hfield hasked).1
  · intro key hkey
    have hkeyvalue := isValue_keysOf hidvalue hdocs key hkey
    have hagree : equalDocs path key docs = membersOf id key docs ↔
        ∀ doc ∈ docs, equalAsDoubles key (doc.field? path) = false :=
      equalDocs_eq_membersOf_iff hkeyvalue hdocs
    constructor
    · intro hpath
      obtain ⟨doc, hdoc, -⟩ := exists_doc_of_mem_keysOf hkey
      obtain ⟨first, rest, rfl⟩ := List.exists_cons_of_ne_nil (List.ne_nil_of_mem hdoc)
      exact run_equalTo_connective hpath key first rest
    · intro hor hand
      exact ⟨_, run_equalTo hor hand key docs, run_count_equalTo hkeyvalue hdocs hor hand hkey,
        equalDocs_eq hkeyvalue hdocs, membersOf_sublist hkeyvalue hdocs,
        length_equalDocs hkeyvalue hdocs, hagree,
        fun hform => hagree.mpr (not_equalAsDoubles_of_one_form hdocs hkey hform)⟩

/-- Two prices are the integer one and one is the double: three prices equal one, while the rows of
the two keys count two and one. -/
theorem matched_groups_prices :
    let spec : Fields := [("_id", .str "$price"), ("n", .obj [("$sum", .int 1)])]
    let docs : List Json := [.obj [("_id", .int 1), ("price", .int 1)],
      .obj [("_id", .int 2), ("price", .float 1.0)], .obj [("_id", .int 3), ("price", .int 1)],
      .obj [("_id", .int 4), ("price", .str "1")]]
    let id := Json.str ("$" ++ "price")
    (obj spec).IsValue ∧ (∀ doc ∈ docs, doc.IsValue) ∧ (idKey, id) ∈ spec
      ∧ ∃ rows, run docs [operator "$group" (.obj spec)] = .ok rows
        ∧ List.Forall₂ (fun key row => IsRow spec key (membersOf id key docs) row)
          (keysOf id docs) rows
        ∧ ∃ matched, run docs [equalTo "price" (.int 1)] = .ok matched
          ∧ matched.length = 3 ∧ (membersOf id (.int 1) docs).length = 2
          ∧ (membersOf id (.int 1) docs).Sublist matched := by
  intro spec docs id
  have hspec : (obj spec).IsValue := ⟨3, by decide⟩
  have hdocs : ∀ doc ∈ docs, doc.IsValue := fun doc hdoc => ⟨2, by revert doc; decide⟩
  have hid : (idKey, id) ∈ spec := List.mem_cons_self
  obtain ⟨hrows, hkeys⟩ := matched_groups hspec hdocs hid rfl
  have hkey : Json.int 1 ∈ keysOf id docs := List.mem_cons_self
  obtain ⟨matched, hrun, -, -, hsublist, hlength, -⟩ :=
    (hkeys (.int 1) hkey).2 (by decide) (by decide)
  have hmembers : (membersOf id (.int 1) docs).length = 2 := by decide
  have hothers : docs.countP (fun doc => equalAsDoubles (.int 1) (doc.field? "price")) = 1 := by
    decide +kernel
  refine ⟨hspec, hdocs, hid, _, rfl, hrows.imp fun _ _ h => h.1, matched, hrun, ?_, hmembers,
    hsublist⟩
  rw [hlength, hothers]
  exact congrArg (· + 1) hmembers

/-- Two documents, one with the integer one and one with the double: each is a group of its own,
but both equal the integer. -/
theorem level_in_two_groups :
    let docs : List Json := [.obj [("f", .int 1)], .obj [("f", .float 1.0)]]
    run docs [operator "$group" (.obj [("_id", .str "$f"), ("n", operator "$sum" (.int 1))])]
        = .ok [.obj [("_id", .int 1), ("n", .int 1)], .obj [("_id", .float 1.0), ("n", .int 1)]]
      ∧ run docs [equalTo "f" (.int 1), operator "$count" (.str "n")]
        = .ok [.obj [("n", .int 2)]] :=
  ⟨rfl, rfl⟩

end DualStore.Document
