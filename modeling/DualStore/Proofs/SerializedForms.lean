import DualStore.Model.Layout
import DualStore.Proofs.EntityDocuments

/-!
# Serialized forms

What a layout reads is a serialized form, and reading it once more gives it again: an entity that is
written as JSON and read back is the same.

* `MemberType.IsForm`: what is read of a type as it is;
* `isForm_of_read?`, `isForm_initial`: all that is read, and the values of missing members;
* `Layout.RoundTrips`, `Layout.roundTrips`: the same of entities whose members have different names.
-/

namespace DualStore

namespace Keyed

variable {α : Type}

theorem putSorted_append {entries : List (String × α)} {key : String} (value : α)
    (h : ∀ k ∈ keys entries, k < key) :
    putSorted key value entries = entries ++ [(key, value)] := by
  induction entries with
  | nil => rfl
  | cons entry rest ih =>
    obtain ⟨k, v⟩ := entry
    obtain ⟨hk, hrest⟩ := List.forall_mem_cons.mp h
    have hne : k ≠ key := fun heq => String.lt_irrefl key (heq ▸ hk)
    have hnot : ¬key < k := fun hlt => String.lt_irrefl k (String.lt_trans hk hlt)
    rw [putSorted, if_neg hne, if_neg hnot, ih hrest, List.cons_append]

/-- Entries that are ordered by key stay in order when they are put one after the other. -/
theorem foldl_putSorted (earlier later : List (String × α)) (h : IsSorted (earlier ++ later)) :
    later.foldl (fun acc entry => putSorted entry.1 entry.2 acc) earlier = earlier ++ later := by
  induction later generalizing earlier with
  | nil => rw [List.foldl_nil, List.append_nil]
  | cons entry rest ih =>
    have hbefore : ∀ k ∈ keys earlier, k < entry.1 := by
      intro k hk
      rw [IsSorted, keys, List.map_append, List.map_cons] at h
      exact (List.pairwise_append.mp h).2.2 k hk entry.1 List.mem_cons_self
    rw [List.append_cons earlier entry rest] at h ⊢
    rw [List.foldl_cons, putSorted_append entry.2 hbefore]
    exact ih _ h

theorem sorted_of_isSorted {entries : List (String × α)} (h : IsSorted entries) :
    sorted entries = entries := foldl_putSorted [] entries h

/-- Entries put in order of their keys are in order, and none of them is new. -/
theorem foldl_putSorted_spec (earlier later : List (String × α)) (h : IsSorted earlier) :
    IsSorted (later.foldl (fun acc entry => putSorted entry.1 entry.2 acc) earlier)
      ∧ ∀ e ∈ later.foldl (fun acc entry => putSorted entry.1 entry.2 acc) earlier,
        e ∈ earlier ∨ e ∈ later := by
  induction later generalizing earlier with
  | nil => exact ⟨h, fun e he => .inl he⟩
  | cons entry rest ih =>
    obtain ⟨hsorted, hmem⟩ := ih _ (isSorted_putSorted h entry.1 entry.2)
    refine ⟨hsorted, fun e he => ?_⟩
    rcases hmem e he with he | he
    · rcases mem_putSorted he with rfl | he
      · exact .inr List.mem_cons_self
      · exact .inl he
    · exact .inr (List.mem_cons_of_mem _ he)

theorem isSorted_sorted (entries : List (String × α)) : IsSorted (sorted entries) :=
  (foldl_putSorted_spec [] entries List.Pairwise.nil).1

theorem mem_of_mem_sorted {entries : List (String × α)} {e : String × α} (h : e ∈ sorted entries) :
    e ∈ entries :=
  ((foldl_putSorted_spec [] entries List.Pairwise.nil).2 e h).resolve_left
    List.not_mem_nil

end Keyed

namespace Model

/-! ## Members -/

/-- Whether a value is read as it is. -/
def MemberType.IsForm (type : MemberType) (v : Json) : Prop := type.read? v = some v

theorem readAll_of_fixed {read : Json → Option Json} {items : List Json}
    (h : ∀ v ∈ items, read v = some v) : readAll read items = some items := by
  induction items with
  | nil => rfl
  | cons v rest ih =>
    obtain ⟨hv, hrest⟩ := List.forall_mem_cons.mp h
    rw [readAll, hv, ih hrest]
    rfl

theorem readValues_of_fixed {read : Json → Option Json} {fields : Fields}
    (h : ∀ field ∈ fields, read field.2 = some field.2) :
    readValues read fields = some fields := by
  induction fields with
  | nil => rfl
  | cons field rest ih =>
    obtain ⟨key, v⟩ := field
    obtain ⟨hv, hrest⟩ := List.forall_mem_cons.mp h
    rw [readValues, hv, ih hrest]
    rfl

/-- What is read of the items of an array, each by the same reading. -/
theorem forall_mem_readAll {read : Json → Option Json} (holds : Json → Prop)
    (hread : ∀ v w, read v = some w → holds w) {items given : List Json}
    (h : readAll read items = some given) : ∀ w ∈ given, holds w := by
  induction items generalizing given with
  | nil =>
    obtain rfl := Option.some.inj h
    simp
  | cons v rest ih =>
    obtain ⟨w, hw, h⟩ := Option.bind_eq_some_iff.mp h
    obtain ⟨others, hothers, h⟩ := Option.bind_eq_some_iff.mp h
    obtain rfl := Option.some.inj h
    exact List.forall_mem_cons.mpr ⟨hread v w hw, ih hothers⟩

/-- What is read of the values of fields. -/
theorem forall_mem_readValues {read : Json → Option Json} (holds : Json → Prop)
    (hread : ∀ v w, read v = some w → holds w) {fields given : Fields}
    (h : readValues read fields = some given) : ∀ field ∈ given, holds field.2 := by
  induction fields generalizing given with
  | nil =>
    obtain rfl := Option.some.inj h
    simp
  | cons field rest ih =>
    obtain ⟨key, v⟩ := field
    obtain ⟨w, hw, h⟩ := Option.bind_eq_some_iff.mp h
    obtain ⟨others, hothers, h⟩ := Option.bind_eq_some_iff.mp h
    obtain rfl := Option.some.inj h
    exact List.forall_mem_cons.mpr ⟨hread v w hw, ih hothers⟩

namespace MemberType

theorem read?_optional_of_ne {inner : MemberType} {v : Json} (h : v ≠ .null) :
    (MemberType.optional inner).read? v = inner.read? v := by
  cases v with
  | null => exact absurd rfl h
  | _ => rfl

/-- **What is read is read as it is**, by induction on the type. -/
theorem isForm_of_read? (type : MemberType) {v w : Json} (h : type.read? v = some w) :
    type.IsForm w := by
  unfold IsForm
  induction type generalizing v w with
  | text =>
    cases v <;> cases h
    rfl
  | bool =>
    cases v <;> cases h
    rfl
  | float => cases v <;> cases h <;> rfl
  | any => rfl
  | int width =>
    cases v <;> try cases h
    rename_i n
    have hread : (if Decimal.fitsBits width.bits n then some (Json.int n) else none) = some w := h
    split at hread
    · next hfits =>
      obtain rfl := Option.some.inj hread
      rw [read?, if_pos hfits]
    · cases hread
  | list element ih =>
    cases v <;> try cases h
    obtain ⟨given, hgiven, rfl⟩ := Option.map_eq_some_iff.mp h
    have hfixed := readAll_of_fixed (forall_mem_readAll _ (fun v w hvw => ih hvw) hgiven)
    rw [read?, hfixed, Option.map_some]
  | map element ih =>
    cases v <;> try cases h
    obtain ⟨given, hgiven, rfl⟩ := Option.map_eq_some_iff.mp h
    have hgiven := forall_mem_readValues (fun w => element.read? w = some w)
      (fun v w hvw => ih hvw) hgiven
    have hfixed := readValues_of_fixed fun field hfield =>
      hgiven field (Keyed.mem_of_mem_sorted hfield)
    rw [read?, hfixed, Option.map_some, Keyed.sorted_of_isSorted (Keyed.isSorted_sorted given)]
  | optional inner ih =>
    by_cases hw : w = .null
    · rw [hw]
      rfl
    · rw [read?_optional_of_ne hw]
      by_cases hv : v = .null
      · subst hv
        exact absurd (Option.some.inj h).symm hw
      · rw [read?_optional_of_ne hv] at h
        exact ih h

/-- The value of a missing member is read as it is. -/
theorem isForm_initial (type : MemberType) : type.IsForm type.initial := by
  cases type with
  | int width => cases width <;> rfl
  | _ => rfl

end MemberType

/-! ## Entities -/

/-- Whether every entity that is read is read as it is once more. -/
def Layout.RoundTrips (layout : Layout) : Prop :=
  ∀ v w, layout.read? v = some w → layout.read? w = some w

/-- Fields that have the members in order, each with a form of its type. -/
def AreForms (fields : Fields) (members : List Member) : Prop :=
  List.Forall₂ (fun field member => field.1 = member.name ∧ member.type.IsForm field.2) fields
    members

theorem areForms_readMembers {fields given : Fields} {members : List Member}
    (h : readMembers fields members = some given) : AreForms given members := by
  induction members generalizing given with
  | nil =>
    obtain rfl := Option.some.inj h
    exact .nil
  | cons member rest ih =>
    rw [readMembers_cons] at h
    obtain ⟨v, hv, h⟩ := Option.bind_eq_some_iff.mp h
    obtain ⟨others, hothers, rfl⟩ := Option.map_eq_some_iff.mp h
    refine .cons ⟨rfl, ?_⟩ (ih hothers)
    rw [Member.value?] at hv
    split at hv
    · exact member.type.isForm_of_read? hv
    · obtain rfl := Option.some.inj hv
      exact member.type.isForm_initial

theorem areForms_readPositions {items : List Json} {given : Fields} {members : List Member}
    (h : readPositions items members = some given) : AreForms given members := by
  induction members generalizing items given with
  | nil =>
    cases items with
    | nil =>
      obtain rfl := Option.some.inj h
      exact .nil
    | cons v rest => cases h
  | cons member rest ih =>
    cases items with
    | nil =>
      obtain ⟨others, hothers, h⟩ := Option.bind_eq_some_iff.mp h
      obtain rfl := Option.some.inj h
      exact .cons ⟨rfl, member.type.isForm_initial⟩ (ih hothers)
    | cons v items =>
      obtain ⟨w, hw, h⟩ := Option.bind_eq_some_iff.mp h
      obtain ⟨others, hothers, h⟩ := Option.bind_eq_some_iff.mp h
      obtain rfl := Option.some.inj h
      exact .cons ⟨rfl, member.type.isForm_of_read? hw⟩ (ih hothers)

/-- Members of different names are read from fields that have them in order, whatever other fields
stand in front of these. -/
theorem readMembers_of_areForms {fields : Fields} {members : List Member}
    (hnodup : (members.map Member.name).Nodup) (h : AreForms fields members) (front : Fields)
    (hfront : ∀ member ∈ members, member.name ∉ Keyed.keys front) :
    readMembers (front ++ fields) members = some fields := by
  induction h generalizing front with
  | nil => rfl
  | @cons field member fields members hfirst _ ih =>
    obtain ⟨hname, hform⟩ := hfirst
    obtain ⟨hother, hnodup⟩ := List.nodup_cons.mp hnodup
    obtain ⟨hnew, hnews⟩ := List.forall_mem_cons.mp hfront
    have hget : Keyed.get? member.name (front ++ field :: fields) = some field.2 := by
      rw [Keyed.get?_append, (Keyed.get?_eq_none_iff _ _).mpr hnew, ← hname]
      simp [Keyed.get?]
    have hrest : readMembers (front ++ field :: fields) members = some fields := by
      rw [List.append_cons]
      refine ih hnodup (front ++ [field]) fun other hmem => ?_
      rw [Keyed.keys, List.map_append, List.mem_append]
      rintro (hold | hlast)
      · exact hnews other hmem hold
      · rw [← hname, ← List.mem_singleton.mp hlast] at hother
        exact hother (List.mem_map_of_mem hmem)
    have hvalue : member.value? (front ++ field :: fields) = some field.2 := by
      rw [Member.value?, hget]
      exact hform
    rw [readMembers_cons, hvalue, hrest, ← hname]
    rfl

/-- **Entities make round trips** if their members have different names. -/
theorem Layout.roundTrips {layout : Layout}
    (h : ∀ members, layout = .record members → (members.map Member.name).Nodup) :
    layout.RoundTrips := by
  intro v w hread
  cases layout with
  | anything => rfl
  | integer => exact MemberType.isForm_of_read? (.int .w64) hread
  | record members =>
    have hforms : ∃ fields, w = .obj fields ∧ AreForms fields members := by
      cases v with
      | obj fields =>
        obtain ⟨given, hgiven, rfl⟩ := Option.map_eq_some_iff.mp hread
        exact ⟨given, rfl, areForms_readMembers hgiven⟩
      | arr items =>
        obtain ⟨given, hgiven, rfl⟩ := Option.map_eq_some_iff.mp hread
        exact ⟨given, rfl, areForms_readPositions hgiven⟩
      | _ => cases hread
    obtain ⟨fields, rfl, hforms⟩ := hforms
    have hgiven := readMembers_of_areForms (h members rfl) hforms [] (by simp [Keyed.keys])
    rw [Layout.read?, ← List.nil_append fields, hgiven, Option.map_some, List.nil_append]

end Model

end DualStore
