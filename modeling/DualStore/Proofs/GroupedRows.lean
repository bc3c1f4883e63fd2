import DualStore.Proofs.PagedReads
import DualStore.Proofs.SameValues

/-!
# Grouped rows

A grouping takes the documents one after the other. In front of each of them there is a group for
every key that has appeared, in the order in which the keys appeared, with the documents of that key
in their order.

* `firstKeys`: keys in the order in which they appear, each once;
* `addToGroup_map`, `groupDocs_eq`: what one document adds, and the groups of all documents;
* `countP_keysOf`, `sum_members`: every document is in one group, so none is lost;
* `Accumulates`, `IsRow`, `groupRows_eq_ok`: the row of a group;
* `addInts_eq_ok`: a sum of integers that stays in the range of 64 bits;
* `accumulate_ones`, `IsRow.count`, `counts_of_rows`: counting by a sum;
* `rows_of_group`, `rows_by_key`: the rows that a grouping gives;
* `groups_partition`: the main statement.
-/

namespace DualStore.Document

open Json Decimal

/-! ## Keys as they appear -/

/-- Keys in the order in which they appear, without those that equal one before. -/
def firstKeys : List Json → List Json
  | [] => []
  | key :: rest => key :: (firstKeys rest).filter fun k => !same key k

variable {key : Json} {keys : List Json}

theorem firstKeys_sublist (keys : List Json) : (firstKeys keys).Sublist keys := by
  induction keys with
  | nil => exact .slnil
  | cons key rest ih => exact (List.filter_sublist.trans ih).cons_cons key

/-- No key stands there twice. -/
theorem pairwise_firstKeys (keys : List Json) :
    (firstKeys keys).Pairwise fun k k' => same k k' = false := by
  induction keys with
  | nil => exact .nil
  | cons key rest ih =>
    refine List.pairwise_cons.mpr ⟨fun k hk => ?_, ih.filter _⟩
    simpa using (List.mem_filter.mp hk).2

/-- Every key stands there, if not itself then one that equals it. -/
theorem exists_firstKey (hkeys : ∀ k ∈ keys, k.IsValue) (h : key ∈ keys) :
    ∃ k ∈ firstKeys keys, same k key = true := by
  induction keys with
  | nil => cases h
  | cons first rest ih =>
    obtain ⟨hfirst, hrest⟩ := List.forall_mem_cons.mp hkeys
    rcases List.mem_cons.mp h with rfl | h
    · exact ⟨key, List.mem_cons_self, same_refl hfirst⟩
    · obtain ⟨k, hk, hsame⟩ := ih hrest h
      by_cases hequal : same first k = true
      · have hkvalue := hrest k ((firstKeys_sublist rest).mem hk)
        exact ⟨first, List.mem_cons_self, same_trans hfirst hkvalue (hrest key h) hequal hsame⟩
      · exact ⟨k, List.mem_cons_of_mem _ (List.mem_filter.mpr ⟨hk, by simpa using hequal⟩), hsame⟩

/-- A key that follows others is added unless one of them equals it. -/
theorem firstKeys_concat (keys : List Json) (key : Json) :
    firstKeys (keys ++ [key])
      = firstKeys keys ++ if keys.any (same · key) then [] else [key] := by
  induction keys with
  | nil => rfl
  | cons first rest ih =>
    rw [List.cons_append, firstKeys, ih, List.filter_append, firstKeys, List.any_cons,
      List.cons_append]
    cases hfirst : same first key <;> cases hrest : rest.any (same · key) <;> simp [hfirst]

/-! ## One document -/

/-- A document is added to the group of its key, or to a new group behind the others. -/
theorem addToGroup_map (members : Json → List Json) (doc : Json)
    (honce : keys.Pairwise fun k k' => ¬(same k key = true ∧ same k' key = true)) :
    addToGroup key doc (keys.map fun k => (k, members k))
      = (keys.map fun k => (k, members k ++ if same k key then [doc] else []))
        ++ if keys.any (same · key) then [] else [(key, [doc])] := by
  induction keys with
  | nil => rfl
  | cons k rest ih =>
    obtain ⟨hk, hrest⟩ := List.pairwise_cons.mp honce
    rw [List.map_cons, addToGroup, List.map_cons, List.any_cons]
    by_cases hsame : same k key = true
    · -- The groups behind this one stay as they are, their keys being other ones.
      have hothers : ∀ k' ∈ rest, same k' key = false := by
        intro k' hk'
        simpa [hsame] using hk k' hk'
      have hmap : (rest.map fun k => (k, members k ++ if same k key then [doc] else []))
          = rest.map fun k => (k, members k) :=
        List.map_congr_left fun k' hk' => by simp [hothers k' hk']
      rw [if_pos hsame, hmap, hsame]
      simp
    · rw [Bool.not_eq_true] at hsame
      rw [hsame, if_neg Bool.false_ne_true, ih hrest]
      simp

/-! ## All documents -/

theorem countP_eq_one {α : Type} {p : α → Bool} {xs : List α}
    (honce : xs.Pairwise fun a b => ¬(p a = true ∧ p b = true)) (hsome : ∃ a ∈ xs, p a = true) :
    xs.countP p = 1 := by
  induction xs with
  | nil => simp at hsome
  | cons a rest ih =>
    obtain ⟨ha, hrest⟩ := List.pairwise_cons.mp honce
    by_cases hp : p a = true
    · have hnone : rest.countP p = 0 := by
        rw [List.countP_eq_zero]
        exact fun b hb hpb => ha b hb ⟨hp, hpb⟩
      rw [List.countP_cons_of_pos hp, hnone]
    · rw [List.countP_cons_of_neg hp]
      obtain ⟨b, hb, hpb⟩ := hsome
      rcases List.mem_cons.mp hb with rfl | hb
      · exact absurd hpb hp
      · exact ih hrest ⟨b, hb, hpb⟩

section Groups

variable {id : Json} {docs : List Json}

theorem path?_dollar (path : String) : path? (.str ("$" ++ path)) = some path := by
  have hchars : ("$" ++ path).toList = ['$'] ++ path.toList := by simp
  rw [path?, hchars, Text.stripPrefix?_append, Option.map_some, String.ofList_toList]

theorem groupKey_dollar (path : String) (doc : Json) :
    groupKey (.str ("$" ++ path)) doc = (doc.field? path).getD .null := by
  simp only [groupKey, path?_dollar]

/-- The documents of a key, in their order. -/
def membersOf (id key : Json) (docs : List Json) : List Json :=
  docs.filter fun doc => same key (groupKey id doc)

/-- The keys of documents, as they appear. -/
def keysOf (id : Json) (docs : List Json) : List Json := firstKeys (docs.map (groupKey id))

theorem isValue_groupKey (hid : id.IsValue) {doc : Json} (h : doc.IsValue) :
    (groupKey id doc).IsValue := by
  unfold groupKey
  split
  · next key _ =>
    cases hfield : doc.field? key with
    | none => exact ⟨0, rfl⟩
    | some v => exact h.field? hfield
  · exact hid

theorem membersOf_concat (id key : Json) (docs : List Json) (doc : Json) :
    membersOf id key (docs ++ [doc])
      = membersOf id key docs ++ if same key (groupKey id doc) then [doc] else [] := by
  rw [membersOf, membersOf, List.filter_append, List.filter_singleton, Bool.cond_eq_ite]

theorem length_membersOf (id key : Json) (docs : List Json) :
    (membersOf id key docs).length
      = (docs.map fun doc => if same key (groupKey id doc) then 1 else 0).sum := by
  rw [membersOf]
  induction docs with
  | nil => rfl
  | cons doc rest ih =>
    rw [List.filter_cons, List.map_cons, List.sum_cons, ← ih]
    split <;> simp [Nat.add_comm]

/-- Documents counted key by key are keys counted document by document. -/
theorem sum_length_membersOf (id : Json) (keys docs : List Json) :
    (keys.map fun key => (membersOf id key docs).length).sum
      = (docs.map fun doc => keys.countP (same · (groupKey id doc))).sum := by
  induction keys with
  | nil => simp
  | cons key rest ih =>
    rw [List.map_cons, List.sum_cons, ih, length_membersOf, ← List.sum_map_add]
    simp only [List.countP_cons, Nat.add_comm]

variable (hid : id.IsValue) (hdocs : ∀ doc ∈ docs, doc.IsValue)

include hid hdocs

theorem isValue_keys : ∀ k ∈ docs.map (groupKey id), k.IsValue := by
  intro k hk
  obtain ⟨doc, hdoc, rfl⟩ := List.mem_map.mp hk
  exact isValue_groupKey hid (hdocs doc hdoc)

theorem isValue_keysOf : ∀ k ∈ keysOf id docs, k.IsValue :=
  fun k hk => isValue_keys hid hdocs k ((firstKeys_sublist _).mem hk)

/-- A key equals at most one of the keys that have appeared. -/
theorem keysOf_once (hkey : key.IsValue) :
    (keysOf id docs).Pairwise fun k k' => ¬(same k key = true ∧ same k' key = true) := by
  have hvalues := isValue_keysOf hid hdocs
  refine (pairwise_firstKeys _).imp_of_mem fun {k k'} hk hk' hdiffer => ?_
  rintro ⟨h, h'⟩
  have hback := same_symm (hvalues k' hk') hkey h'
  rw [same_trans (hvalues k hk) hkey (hvalues k' hk') h hback] at hdiffer
  cases hdiffer

/-- A key equals a key that has appeared first exactly if it equals one that has appeared at all. -/
theorem any_keysOf (hkey : key.IsValue) :
    (keysOf id docs).any (same · key) = (docs.map (groupKey id)).any (same · key) := by
  have hvalues := isValue_keys hid hdocs
  rw [Bool.eq_iff_iff, List.any_eq_true, List.any_eq_true]
  constructor
  · rintro ⟨k, hk, hsame⟩
    exact ⟨k, (firstKeys_sublist _).mem hk, hsame⟩
  · rintro ⟨k, hk, hsame⟩
    obtain ⟨first, hfirst, hequal⟩ := exists_firstKey hvalues hk
    have hfirstvalue := isValue_keysOf hid hdocs first hfirst
    exact ⟨first, hfirst, same_trans hfirstvalue (hvalues k hk) hkey hequal hsame⟩

/-- No document has a key that equals none of the keys of documents. -/
theorem membersOf_new (hkey : key.IsValue)
    (h : (docs.map (groupKey id)).any (same · key) = false) : membersOf id key docs = [] := by
  rw [membersOf, List.filter_eq_nil_iff]
  intro doc hdoc hsame
  have hback := same_symm hkey (isValue_groupKey hid (hdocs doc hdoc)) hsame
  rw [List.any_eq_false] at h
  exact h _ (List.mem_map_of_mem hdoc) hback

/-- The groups of documents: one for each key in the order in which the keys appear, with the
documents of that key. -/
theorem groupDocs_eq :
    groupDocs id docs = (keysOf id docs).map fun key => (key, membersOf id key docs) := by
  -- By induction on the end of the list: the last document meets the groups of all before it.
  induction docs using List.reverseRecOn with
  | nil => rfl
  | append_singleton docs doc ih =>
    obtain ⟨hdocs, hdoc⟩ := List.forall_mem_append.mp hdocs
    have hkey := isValue_groupKey hid (hdoc doc (List.mem_singleton_self doc))
    have hstep : groupDocs id (docs ++ [doc])
        = addToGroup (groupKey id doc) doc (groupDocs id docs) := by
      rw [groupDocs, List.foldl_append]
      rfl
    have hkeys : keysOf id (docs ++ [doc]) = keysOf id docs
        ++ if (docs.map (groupKey id)).any (same · (groupKey id doc)) then []
          else [groupKey id doc] := by
      rw [keysOf, List.map_append, List.map_singleton, firstKeys_concat, keysOf]
    rw [hstep, ih hdocs, addToGroup_map _ doc (keysOf_once hid hdocs hkey),
      any_keysOf hid hdocs hkey, hkeys, List.map_append]
    simp only [membersOf_concat]
    congr 1
    cases hany : (docs.map (groupKey id)).any (same · (groupKey id doc)) with
    | true => rfl
    | false => simp [membersOf_new hid hdocs hkey hany, same_refl hkey]

/-- Every document has one of the keys, and no other one of them. -/
theorem countP_keysOf {doc : Json} (hdoc : doc ∈ docs) :
    (keysOf id docs).countP (same · (groupKey id doc)) = 1 :=
  countP_eq_one (keysOf_once hid hdocs (isValue_groupKey hid (hdocs doc hdoc)))
    (exists_firstKey (isValue_keys hid hdocs) (List.mem_map_of_mem hdoc))

/-- The groups have as many documents as there are. -/
theorem sum_members :
    ((keysOf id docs).map fun key => (membersOf id key docs).length).sum = docs.length := by
  rw [sum_length_membersOf, List.map_congr_left fun doc hdoc => countP_keysOf hid hdocs hdoc]
  simp

end Groups

/-! ## Rows -/

section Rows

variable {spec : Fields} {members : List Json}

/-- Whether a field of a row has what an accumulator makes of the members of a group. -/
def Accumulates (members : List Json) (accumulator field : String × Json) : Prop :=
  field.1 = accumulator.1 ∧ ∃ operator argument, accumulator.2 = .obj [(operator, argument)]
    ∧ accumulate operator argument members = .ok field.2

/-- Whether a row is that of a group: it has the key, and then in the order of the grouping what
each accumulator makes of the members. -/
def IsRow (spec : Fields) (key : Json) (members : List Json) (row : Json) : Prop :=
  ∃ fields, row = .obj ((idKey, key) :: fields)
    ∧ List.Forall₂ (Accumulates members) (spec.filter fun e => e.1 ≠ idKey) fields

theorem singleEntry_eq_ok {v : Json} {entry : String × Json} (h : singleEntry v = .ok entry) :
    v = .obj [entry] := by
  unfold singleEntry at h
  split at h <;> cases h
  rfl

/-- The accumulators of fields that a row does not have yet are appended in order. -/
theorem accumulateFields_eq_ok (hspec : (Keyed.keys spec).Nodup) {row out : Fields}
    (hnew : ∀ e ∈ spec, e.1 ≠ idKey → e.1 ∉ Keyed.keys row)
    (h : accumulateFields members row spec = .ok out) :
    ∃ fields, out = row ++ fields
      ∧ List.Forall₂ (Accumulates members) (spec.filter fun e => e.1 ≠ idKey) fields := by
  induction spec generalizing row with
  | nil =>
    cases h
    exact ⟨[], by simp, .nil⟩
  | cons entry rest ih =>
    obtain ⟨field, accumulator⟩ := entry
    obtain ⟨hentry, hrest⟩ := List.forall_mem_cons.mp hnew
    obtain ⟨hfresh, hnodup⟩ := List.nodup_cons.mp hspec
    rw [accumulateFields] at h
    by_cases hfield : field = idKey
    · rw [if_pos hfield] at h
      rw [List.filter_cons_of_neg (by simp [hfield])]
      exact ih hnodup hrest h
    · rw [if_neg hfield] at h
      cases hsingle : singleEntry accumulator with
      | error e => simp [hsingle] at h
      | ok asked =>
        obtain ⟨operator, argument⟩ := asked
        cases hvalue : accumulate operator argument members with
        | error e => simp [hsingle, hvalue] at h
        | ok value =>
          simp only [hsingle, hvalue] at h
          rw [Keyed.put_of_notMem (hentry hfield)] at h
          have hmore : ∀ e ∈ rest, e.1 ≠ idKey → e.1 ∉ Keyed.keys (row ++ [(field, value)]) := by
            intro e he hne hmem
            rw [Keyed.keys, List.map_append, List.mem_append] at hmem
            rcases hmem with hmem | hmem
            · exact hrest e he hne hmem
            · have hsame : e.1 = field := by simpa using hmem
              have hlater := Keyed.mem_keys he
              rw [hsame] at hlater
              exact hfresh hlater
          obtain ⟨fields, rfl, hfields⟩ := ih hnodup hmore h
          refine ⟨(field, value) :: fields, by simp, ?_⟩
          rw [List.filter_cons_of_pos (by simpa using hfield)]
          exact .cons ⟨rfl, operator, argument, singleEntry_eq_ok hsingle, hvalue⟩ hfields

/-- The rows of groups are those of the groups, one by one. -/
theorem groupRows_eq_ok (hspec : (Keyed.keys spec).Nodup) {groups : List (Json × List Json)}
    {out : List Json} (h : groupRows spec groups = .ok out) :
    List.Forall₂ (fun g row => IsRow spec g.1 g.2 row) groups out := by
  induction groups generalizing out with
  | nil =>
    cases h
    exact .nil
  | cons g rest ih =>
    obtain ⟨key, members⟩ := g
    rw [groupRows] at h
    cases hrow : accumulateFields members [(idKey, key)] spec with
    | error e => simp [hrow] at h
    | ok row =>
      cases hrows : groupRows spec rest with
      | error e => simp [hrow, hrows] at h
      | ok rows =>
        simp only [hrow, hrows, Except.ok.injEq] at h
        subst h
        have hnew : ∀ e ∈ spec, e.1 ≠ idKey → e.1 ∉ Keyed.keys [(idKey, key)] := by
          simp [Keyed.keys]
        obtain ⟨fields, rfl, hfields⟩ := accumulateFields_eq_ok hspec hnew hrow
        exact .cons ⟨fields, rfl, hfields⟩ (ih hrows)

theorem keys_of_accumulates {accumulators fields : Fields}
    (h : List.Forall₂ (Accumulates members) accumulators fields) :
    Keyed.keys fields = Keyed.keys accumulators := by
  induction h with
  | nil => rfl
  | cons hfield _ ih =>
    rw [Keyed.keys] at ih ⊢
    rw [List.map_cons, ih, hfield.1]
    rfl

theorem made_of_accumulates {accumulators fields : Fields}
    (h : List.Forall₂ (Accumulates members) accumulators fields) {field operator : String}
    {argument : Json} (hasked : (field, .obj [(operator, argument)]) ∈ accumulators) :
    ∃ value, (field, value) ∈ fields ∧ accumulate operator argument members = .ok value := by
  induction h with
  | nil => cases hasked
  | @cons accumulator made _ _ hfirst _ ih =>
    rcases List.mem_cons.mp hasked with rfl | hasked
    · obtain ⟨hname, _, _, hentry, hvalue⟩ := hfirst
      cases hentry
      obtain ⟨name, value⟩ := made
      cases hname
      exact ⟨value, List.mem_cons_self, hvalue⟩
    · obtain ⟨value, hvalue, hmade⟩ := ih hasked
      exact ⟨value, List.mem_cons_of_mem _ hvalue, hmade⟩

/-- What an accumulator has made stands in its field of the row. -/
theorem IsRow.field? (hspec : (Keyed.keys spec).Nodup) {key row : Json}
    (h : IsRow spec key members row) {field operator : String} {argument : Json}
    (hfield : field ≠ idKey) (hasked : (field, .obj [(operator, argument)]) ∈ spec) :
    ∃ value, row.field? field = some value ∧ accumulate operator argument members = .ok value := by
  obtain ⟨fields, rfl, hfields⟩ := h
  have hkept : (field, Json.obj [(operator, argument)]) ∈ spec.filter fun e => e.1 ≠ idKey :=
    List.mem_filter.mpr ⟨hasked, by simpa using hfield⟩
  have hnodup : (Keyed.keys fields).Nodup := by
    rw [keys_of_accumulates hfields]
    exact hspec.sublist (List.filter_sublist.map _)
  obtain ⟨value, hvalue, hmade⟩ := made_of_accumulates hfields hkept
  refine ⟨value, ?_, hmade⟩
  rw [Json.field?, Keyed.get?, if_neg (Ne.symm hfield)]
  exact (Keyed.get?_eq_some_iff hnodup field value).mpr hvalue

end Rows

/-! ## Sums of integers -/

/-- Integers that are added one by one give their sum, in the range of 64 bits, if they give one. -/
theorem addInts_eq_ok {acc total : Int} {ns : List Int} (hacc : fitsInt64 acc = true)
    (h : addInts acc ns = .ok total) : total = acc + ns.sum ∧ fitsInt64 total = true := by
  induction ns generalizing acc with
  | nil =>
    cases h
    exact ⟨by simp, hacc⟩
  | cons n ns ih =>
    rw [addInts] at h
    split at h
    · next hfits =>
      obtain ⟨htotal, hrange⟩ := ih hfits h
      exact ⟨by rw [htotal, List.sum_cons, Int.add_assoc], hrange⟩
    · cases h

/-- The sum of a constant one counts the members. -/
theorem accumulate_ones {members : List Json} {value : Json}
    (h : accumulate "$sum" (.int 1) members = .ok value) :
    value = .int members.length ∧ fitsInt64 members.length = true := by
  have hconstant : path? (.int 1) = none := rfl
  have hvalues : accumulated (.int 1) members = List.replicate members.length (.int 1) := by
    simp [accumulated, hconstant, isNull]
  have hint : (Json.int 1).asInt64? = some 1 := rfl
  have hsum : sum (List.replicate members.length (.int 1))
      = (addInts 0 (List.replicate members.length 1)).map .int := by
    simp only [sum, List.filter_replicate, isNumber, if_true, List.all_replicate, hint,
      List.filterMap_replicate, Option.isSome_some, ite_self]
  rw [accumulate, if_pos rfl, hvalues, hsum] at h
  cases hadded : addInts 0 (List.replicate members.length 1) with
  | error e => simp [hadded, Except.map] at h
  | ok total =>
    obtain ⟨htotal, hrange⟩ := addInts_eq_ok rfl hadded
    rw [List.sum_replicate, zero_add, nsmul_one] at htotal
    simp only [hadded, Except.map, Except.ok.injEq] at h
    rw [← h, ← htotal]
    exact ⟨rfl, hrange⟩

/-- A row that adds up ones has the number of the members of its group. -/
theorem IsRow.count {spec : Fields} {key row : Json} {members : List Json}
    (hspec : (Keyed.keys spec).Nodup) (h : IsRow spec key members row) {field : String}
    (hfield : field ≠ idKey) (hasked : (field, operator "$sum" (.int 1)) ∈ spec) :
    row.field? field = some (.int members.length) ∧ fitsInt64 members.length = true := by
  obtain ⟨value, hvalue, hsum⟩ := h.field? hspec hfield hasked
  obtain ⟨rfl, hrange⟩ := accumulate_ones hsum
  exact ⟨hvalue, hrange⟩

/-- Rows that add up ones have the numbers of the members of their groups. -/
theorem counts_of_rows {spec : Fields} (hspec : (Keyed.keys spec).Nodup) {field : String}
    (hfield : field ≠ idKey) (hasked : (field, operator "$sum" (.int 1)) ∈ spec)
    {members : Json → List Json} {keys rows : List Json}
    (h : List.Forall₂ (fun key row => IsRow spec key (members key) row) keys rows) :
    rows.map (fun row => ((row.field? field).bind asInt64?).getD 0)
      = keys.map fun key => ((members key).length : Int) := by
  induction h with
  | nil => rfl
  | cons hrow _ ih =>
    obtain ⟨hcount, hrange⟩ := hrow.count hspec hfield hasked
    rw [List.map_cons, List.map_cons, ih, hcount, Option.bind_some, asInt64?, if_pos hrange,
      Option.getD_some]

/-- What a grouping that succeeds gives: for each key of the documents the row of its group. -/
theorem rows_of_group {spec : Fields} {docs rows : List Json} (hspec : (obj spec).IsValue)
    (hdocs : ∀ doc ∈ docs, doc.IsValue)
    (h : run docs [operator "$group" (.obj spec)] = .ok rows) :
    ∃ id, (idKey, id) ∈ spec
      ∧ List.Forall₂ (fun key row => IsRow spec key (membersOf id key docs) row)
        (keysOf id docs) rows := by
  rw [run_cons (ofJson_group spec), Stage.apply] at h
  cases hgroup : group spec docs with
  | error e => simp [hgroup, Except.bind] at h
  | ok out =>
    simp only [hgroup, Except.bind, run, Except.ok.injEq] at h
    subst h
    rw [group] at hgroup
    cases hget : Keyed.get? idKey spec with
    | none => simp [hget] at hgroup
    | some id =>
      simp only [hget] at hgroup
      have hmem := Keyed.mem_of_get? hget
      rw [groupDocs_eq (hspec.fields _ hmem) hdocs] at hgroup
      exact ⟨id, hmem, List.forall₂_map_left_iff.mp (groupRows_eq_ok hspec.nodup hgroup)⟩

theorem rows_by_key {spec : Fields} {id : Json} {docs rows : List Json} (hspec : (obj spec).IsValue)
    (hdocs : ∀ doc ∈ docs, doc.IsValue) (hid : (idKey, id) ∈ spec)
    (h : run docs [operator "$group" (.obj spec)] = .ok rows) :
    List.Forall₂ (fun key row => IsRow spec key (membersOf id key docs) row)
      (keysOf id docs) rows := by
  obtain ⟨found, hfound, hrows⟩ := rows_of_group hspec hdocs h
  have hget := (Keyed.get?_eq_some_iff hspec.nodup _ _).mpr hfound
  rw [(Keyed.get?_eq_some_iff hspec.nodup _ _).mpr hid, Option.some.injEq] at hget
  rw [hget]
  exact hrows

/-- **Groups partition the documents.** When a grouping succeeds, it has a key, and it gives one row
for each key of the documents in the order in which the keys appear first. No two of the keys are
equal, and every document has exactly one of them. A row has its key and what every accumulator
makes of the documents of that key in their order. So rows that add up ones add up to the number of
documents, and without documents there are no rows. -/
theorem groups_partition {spec : Fields} {docs rows : List Json} (hspec : (obj spec).IsValue)
    (hdocs : ∀ doc ∈ docs, doc.IsValue)
    (h : run docs [operator "$group" (.obj spec)] = .ok rows) :
    ∃ id, (idKey, id) ∈ spec
      ∧ (keysOf id docs).Sublist (docs.map (groupKey id))
      ∧ (keysOf id docs).Pairwise (fun k k' => same k k' = false)
      ∧ (∀ doc ∈ docs, (keysOf id docs).countP (same · (groupKey id doc)) = 1)
      ∧ List.Forall₂ (fun key row => IsRow spec key (membersOf id key docs) row)
          (keysOf id docs) rows
      ∧ (∀ field, field ≠ idKey → (field, operator "$sum" (.int 1)) ∈ spec →
          (rows.map fun row => ((row.field? field).bind asInt64?).getD 0).sum = docs.length)
      ∧ (docs = [] → rows = []) := by
  have hkeys := hspec.nodup
  obtain ⟨id, hmem, hrows⟩ := rows_of_group hspec hdocs h
  have hid : id.IsValue := hspec.fields _ hmem
  refine ⟨id, hmem, firstKeys_sublist _, pairwise_firstKeys _,
    fun doc => countP_keysOf hid hdocs, hrows, ?_, ?_⟩
  · intro field hfield hasked
    rw [counts_of_rows hkeys hfield hasked hrows, ← sum_members hid hdocs]
    push_cast
    rw [List.map_map]
    rfl
  · rintro rfl
    cases hrows
    rfl

/-- Accounts by owner: those without an owner and the one whose owner is null are one group. -/
theorem groups_partition_owners :
    let spec : Fields := [("_id", .str "$owner"), ("n", .obj [("$sum", .int 1)]),
      ("most", .obj [("$max", .str "$balance")])]
    let docs : List Json := [.obj [("_id", .int 1), ("balance", .int 5)],
      .obj [("_id", .int 2), ("owner", .str "ann"), ("balance", .int 3)],
      .obj [("_id", .int 3), ("owner", .null), ("balance", .int 9)],
      .obj [("_id", .int 4), ("owner", .str "ann"), ("balance", .int 2)]]
    let rows : List Json :=
      [.obj [("_id", .null), ("n", .int 2), ("most", .int 9)],
        .obj [("_id", .str "ann"), ("n", .int 2), ("most", .int 3)]]
    (obj spec).IsValue ∧ (∀ doc ∈ docs, doc.IsValue)
      ∧ run docs [operator "$group" (.obj spec)] = .ok rows
      ∧ ∃ id, (idKey, id) ∈ spec
        ∧ (keysOf id docs).Pairwise (fun k k' => same k k' = false)
        ∧ List.Forall₂ (fun key row => IsRow spec key (membersOf id key docs) row)
            (keysOf id docs) rows
        ∧ (rows.map fun row => ((row.field? "n").bind asInt64?).getD 0).sum = docs.length := by
  intro spec docs rows
  have hspec : (obj spec).IsValue := ⟨3, by decide⟩
  have hdocs : ∀ doc ∈ docs, doc.IsValue := fun doc hdoc => ⟨2, by revert doc; decide⟩
  have hrun : run docs [operator "$group" (.obj spec)] = .ok rows := rfl
  obtain ⟨id, hid, -, hdistinct, -, hrows, hsum, -⟩ := groups_partition hspec hdocs hrun
  have hcounts := hsum "n" (by decide) (by simp [spec, operator])
  exact ⟨hspec, hdocs, hrun, id, hid, hdistinct, hrows, hcounts⟩

end DualStore.Document
