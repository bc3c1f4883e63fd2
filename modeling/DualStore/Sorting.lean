/-!
# Stable sorting

Sorting by insertion: each element in turn moves from the end towards the front past the elements
that it has to stand before. Elements of which neither has to stand before the other keep their
order.

* `stableSort`: the sorted list;
* `stableSort_perm`: nothing is lost;
* `pairwise_stableSort_of`: the sorted elements ascend;
* `filter_stableSort`: elements that stand level keep their order;
* `stableSort_map`, `stableSort_id`: sorting images, and sorting where nothing comes first.
-/

namespace DualStore

variable {α : Type}

/-- Inserts an element into a list that is sorted the other way round: the element moves past the
heads that it has to stand before. -/
def insertBack (before : α → α → Bool) (x : α) : List α → List α
  | [] => [x]
  | y :: rest => if before x y then y :: insertBack before x rest else x :: y :: rest

def insertAll (before : α → α → Bool) : List α → List α → List α
  | sorted, [] => sorted
  | sorted, x :: rest => insertAll before (insertBack before x sorted) rest

/-- The elements in order; `before x y` says that `x` has to stand before `y`. -/
def stableSort (before : α → α → Bool) (xs : List α) : List α := (insertAll before [] xs).reverse

theorem insertBack_perm (before : α → α → Bool) (x : α) (xs : List α) :
    (insertBack before x xs).Perm (x :: xs) := by
  induction xs with
  | nil => exact .refl _
  | cons y rest ih =>
    rw [insertBack]
    split
    · exact (ih.cons y).trans (.swap x y rest)
    · exact .refl _

theorem insertAll_perm (before : α → α → Bool) (sorted xs : List α) :
    (insertAll before sorted xs).Perm (xs ++ sorted) := by
  induction xs generalizing sorted with
  | nil => exact .refl _
  | cons x rest ih =>
    have hinsert := (insertBack_perm before x sorted).append_left rest
    exact ((ih _).trans hinsert).trans List.perm_middle

theorem stableSort_perm (before : α → α → Bool) (xs : List α) :
    (stableSort before xs).Perm xs := by
  have hall := insertAll_perm before [] xs
  rw [List.append_nil] at hall
  exact (List.reverse_perm _).trans hall

section Order

variable {before : α → α → Bool} {le : α → α → Prop}

/-- The elements inserted so far stand the other way round. What is inserted moves past elements
that have to follow it, and stays where the first one is that may precede it. -/
theorem pairwise_insertBack {x : α} {xs : List α} (htrans : ∀ a b c, le a b → le b c → le a c)
    (hbefore : ∀ y ∈ xs, before x y = true → le x y)
    (hafter : ∀ y ∈ xs, before x y = false → le y x) (h : xs.Pairwise fun a b => le b a) :
    (insertBack before x xs).Pairwise fun a b => le b a := by
  induction xs with
  | nil => exact List.pairwise_singleton _ _
  | cons y rest ih =>
    obtain ⟨hy, hrest⟩ := List.pairwise_cons.mp h
    have hmore := ih (fun z hz => hbefore z (List.mem_cons_of_mem y hz))
      (fun z hz => hafter z (List.mem_cons_of_mem y hz)) hrest
    rw [insertBack]
    split
    · next hfirst =>
      apply List.pairwise_cons.mpr ⟨_, hmore⟩
      intro z hz
      rcases List.mem_cons.mp ((insertBack_perm before x rest).mem_iff.mp hz) with rfl | hz
      · exact hbefore y List.mem_cons_self hfirst
      · exact hy z hz
    · next hfirst =>
      rw [Bool.not_eq_true] at hfirst
      have hyx := hafter y List.mem_cons_self hfirst
      apply List.pairwise_cons.mpr ⟨_, h⟩
      intro z hz
      rcases List.mem_cons.mp hz with rfl | hz
      · exact hyx
      · exact htrans _ _ _ (hy z hz) hyx

theorem pairwise_insertAll {sorted xs : List α} (htrans : ∀ a b c, le a b → le b c → le a c)
    (hbefore : ∀ x ∈ xs ++ sorted, ∀ y ∈ xs ++ sorted, before x y = true → le x y)
    (hafter : ∀ x ∈ xs ++ sorted, ∀ y ∈ xs ++ sorted, before x y = false → le y x)
    (h : sorted.Pairwise fun a b => le b a) :
    (insertAll before sorted xs).Pairwise fun a b => le b a := by
  induction xs generalizing sorted with
  | nil => exact h
  | cons x rest ih =>
    have hmem : ∀ y ∈ rest ++ insertBack before x sorted, y ∈ x :: rest ++ sorted := by
      intro y hy
      have hall := ((insertBack_perm before x sorted).append_left rest).mem_iff.mp hy
      exact List.perm_middle.mem_iff.mp hall
    have hx : x ∈ x :: rest ++ sorted := List.mem_cons_self
    have hsorted : ∀ y ∈ sorted, y ∈ x :: rest ++ sorted := fun y hy =>
      List.mem_append_right _ hy
    exact ih (fun y hy z hz => hbefore y (hmem y hy) z (hmem z hz))
      (fun y hy z hz => hafter y (hmem y hy) z (hmem z hz))
      (pairwise_insertBack htrans (fun y hy => hbefore x hx y (hsorted y hy))
        (fun y hy => hafter x hx y (hsorted y hy)) h)

/-- The sorted elements ascend in every order that elements keep to when one has to stand before the
other, and that they keep to the other way round when it has not. -/
theorem pairwise_stableSort_of {xs : List α} (htrans : ∀ a b c, le a b → le b c → le a c)
    (hbefore : ∀ x ∈ xs, ∀ y ∈ xs, before x y = true → le x y)
    (hafter : ∀ x ∈ xs, ∀ y ∈ xs, before x y = false → le y x) :
    (stableSort before xs).Pairwise le := by
  rw [stableSort, List.pairwise_reverse]
  refine pairwise_insertAll htrans ?_ ?_ .nil
  · rwa [List.append_nil]
  · rwa [List.append_nil]

/-- What is inserted moves only past elements that it has to stand before, and so not past those
that it stands level with. -/
theorem filter_insertBack {level : α → Bool} {x : α} {xs : List α}
    (h : ∀ y ∈ xs, level x = true → level y = true → before x y = false) :
    (insertBack before x xs).filter level = (x :: xs).filter level := by
  induction xs with
  | nil => rfl
  | cons y rest ih =>
    have hrest := ih fun z hz => h z (List.mem_cons_of_mem y hz)
    rw [insertBack]
    split
    · next hfirst =>
      have hlevel : ¬(level x = true ∧ level y = true) := by
        rintro ⟨hx, hy⟩
        simp [h y List.mem_cons_self hx hy] at hfirst
      rw [List.filter_cons, hrest]
      cases hx : level x <;> cases hy : level y <;> simp_all
    · rfl

theorem filter_insertAll {level : α → Bool} {sorted xs : List α}
    (h : ∀ x ∈ xs ++ sorted, ∀ y ∈ xs ++ sorted, level x = true → level y = true →
      before x y = false) :
    (insertAll before sorted xs).filter level = (xs.reverse ++ sorted).filter level := by
  induction xs generalizing sorted with
  | nil => rfl
  | cons x rest ih =>
    have hmem : ∀ y ∈ rest ++ insertBack before x sorted, y ∈ x :: rest ++ sorted := by
      intro y hy
      have hall := ((insertBack_perm before x sorted).append_left rest).mem_iff.mp hy
      exact List.perm_middle.mem_iff.mp hall
    have hinsert := filter_insertBack fun y hy =>
      h x List.mem_cons_self y (List.mem_append_right _ hy)
    rw [insertAll, ih fun y hy z hz => h y (hmem y hy) z (hmem z hz), List.filter_append, hinsert,
      ← List.filter_append, List.reverse_cons, List.append_assoc, List.singleton_append]

/-- Elements of which none has to stand before another keep their order. -/
theorem filter_stableSort {level : α → Bool} {xs : List α}
    (h : ∀ x ∈ xs, ∀ y ∈ xs, level x = true → level y = true → before x y = false) :
    (stableSort before xs).filter level = xs.filter level := by
  rw [stableSort, List.filter_reverse, filter_insertAll (by simpa using h), List.append_nil,
    List.filter_reverse, List.reverse_reverse]

end Order

/-! ## Images -/

section Images

variable {β : Type}

theorem insertBack_map (before : β → β → Bool) (f : α → β) (x : α) (xs : List α) :
    insertBack before (f x) (xs.map f)
      = (insertBack (fun a b => before (f a) (f b)) x xs).map f := by
  induction xs with
  | nil => rfl
  | cons y rest ih =>
    rw [List.map_cons, insertBack, insertBack]
    by_cases h : before (f x) (f y) = true
    · rw [if_pos h, if_pos h, List.map_cons, ih]
    · rw [if_neg h, if_neg h, List.map_cons, List.map_cons]

theorem insertAll_map (before : β → β → Bool) (f : α → β) (sorted xs : List α) :
    insertAll before (sorted.map f) (xs.map f)
      = (insertAll (fun a b => before (f a) (f b)) sorted xs).map f := by
  induction xs generalizing sorted with
  | nil => rfl
  | cons x rest ih => rw [List.map_cons, insertAll, insertAll, insertBack_map, ih]

theorem stableSort_map (before : β → β → Bool) (f : α → β) (xs : List α) :
    stableSort before (xs.map f) = (stableSort (fun a b => before (f a) (f b)) xs).map f := by
  have hall := insertAll_map before f [] xs
  rw [List.map_nil] at hall
  rw [stableSort, stableSort, hall, List.map_reverse]

end Images

/-- Elements stay where they are if none has to stand before another. -/
theorem stableSort_id (xs : List α) : stableSort (fun _ _ => false) xs = xs := by
  have hback : ∀ (x : α) (ys : List α), insertBack (fun _ _ => false) x ys = x :: ys := by
    intro x ys
    cases ys <;> simp [insertBack]
  have hall : ∀ sorted : List α, insertAll (fun _ _ => false) sorted xs = xs.reverse ++ sorted := by
    induction xs with
    | nil => simp [insertAll]
    | cons x rest ih => simp [insertAll, hback, ih]
  simp [stableSort, hall]

example : stableSort (fun a b : Nat × Nat => a.1 < b.1) [(2, 0), (1, 0), (2, 1), (1, 1)]
    = [(1, 0), (1, 1), (2, 0), (2, 1)] := by decide

end DualStore
