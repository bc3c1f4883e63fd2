import DualStore.Proofs.ValueOrder

/-!
# Extreme values

The least and the greatest of values are found in one pass, which gives its candidate up only for a
value that is strictly better. Where the numbers among the values are integers of 64 bits, values of
all types stand in one line, so that no value given up before can be better than the last candidate.

* `IsFirst`, `Leads`: the first of the values that stand level, and the candidate of a pass;
* `Leads.replace`, `Leads.keep`, `Leads.run`: one more value, and all values;
* `Leads.bound`, `Leads.level`: a candidate as a bound, and the candidates in two orders;
* `extremes_attained`: the main statement.
-/

namespace DualStore.Document

open Json

variable {want : Ordering} {a b c v best other : Json} {seen rest values others : List Json}

/-! ## One line for values of all types -/

/-- Swapping two values reverses their order. -/
theorem sortOrder_swap_int64 (ha : HasInt64 (some a)) (hb : HasInt64 (some b)) :
    sortOrder (some b) (some a) = (sortOrder (some a) (some b)).swap := by
  rw [sortOrder_exact ha hb, sortOrder_exact hb ha]
  exact Std.OrientedOrd.eq_swap

/-- Strictly in front, or strictly behind, goes on from one value to the next. -/
theorem sortOrder_trans_int64 (hwant : want ≠ .eq) (ha : HasInt64 (some a))
    (hb : HasInt64 (some b)) (hc : HasInt64 (some c)) (hab : sortOrder (some a) (some b) = want)
    (hbc : sortOrder (some b) (some c) = want) : sortOrder (some a) (some c) = want := by
  rw [sortOrder_exact ha hb] at hab
  rw [sortOrder_exact hb hc] at hbc
  rw [sortOrder_exact ha hc]
  cases want with
  | lt => exact compare_lt_iff_lt.mpr ((compare_lt_iff_lt.mp hab).trans (compare_lt_iff_lt.mp hbc))
  | eq => exact absurd rfl hwant
  | gt => exact compare_gt_iff_gt.mpr ((compare_gt_iff_gt.mp hbc).trans (compare_gt_iff_gt.mp hab))

/-- Values that stand level compare alike with every other value. -/
theorem sortOrder_of_level (ha : HasInt64 (some a)) (hb : HasInt64 (some b))
    (hc : HasInt64 (some c)) (hab : sortOrder (some a) (some b) = .eq) :
    sortOrder (some a) (some c) = sortOrder (some b) (some c) := by
  rw [sortOrder_exact ha hb, compare_eq_iff_eq] at hab
  rw [sortOrder_exact ha hc, sortOrder_exact hb hc, hab]

/-- A value stands level with itself. -/
theorem sortOrder_self_int64 (ha : HasInt64 (some a)) : sortOrder (some a) (some a) = .eq := by
  rw [sortOrder_exact ha ha, compare_eq_iff_eq]

/-! ## The candidate -/

/-- Whether a value is a member of a list and the first of those that stand level with it. -/
def IsFirst (values : List Json) (best : Json) : Prop :=
  ∃ before after, values = before ++ best :: after
    ∧ ∀ v ∈ before, sortOrder (some v) (some best) ≠ .eq

theorem IsFirst.mem (h : IsFirst values best) : best ∈ values := by
  obtain ⟨before, after, rfl, -⟩ := h
  exact List.mem_append_right before List.mem_cons_self

/-- A value stays the first one when further values follow. -/
theorem IsFirst.append (h : IsFirst values best) (rest : List Json) :
    IsFirst (values ++ rest) best := by
  obtain ⟨before, after, rfl, hbefore⟩ := h
  exact ⟨before, after ++ rest, by rw [List.append_assoc, List.cons_append], hbefore⟩

/-- What a pass knows of its candidate: no value seen is better, and of those that are as good it
is the first. Better means less where the pass wants `.lt`, and greater where it wants `.gt`. -/
structure Leads (want : Ordering) (seen : List Json) (best : Json) : Prop where
  unbeaten : ∀ v ∈ seen, sortOrder (some v) (some best) ≠ want
  first : IsFirst seen best

theorem leads_single (hwant : want ≠ .eq) (hb : HasInt64 (some b)) : Leads want [b] b := by
  refine ⟨fun v hv => ?_, [], [], rfl, fun v hv => absurd hv List.not_mem_nil⟩
  rw [List.mem_singleton.mp hv, sortOrder_self_int64 hb]
  exact hwant.symm

/-- A better value becomes the candidate: no value seen before beats it or stands level with it, as
such a value would have beaten the old candidate. -/
theorem Leads.replace (hwant : want ≠ .eq) (hseen : ∀ w ∈ seen, HasInt64 (some w))
    (hv : HasInt64 (some v)) (h : Leads want seen b)
    (hbetter : sortOrder (some v) (some b) = want) : Leads want (seen ++ [v]) v := by
  have hb := hseen b h.first.mem
  refine ⟨fun w hw => ?_, seen, [], rfl, fun w hw hlevel => ?_⟩
  · simp only [List.mem_append, List.mem_singleton] at hw
    rcases hw with hw | rfl
    · intro hbeats
      exact h.unbeaten w hw (sortOrder_trans_int64 hwant (hseen w hw) hv hb hbeats hbetter)
    · rw [sortOrder_self_int64 hv]
      exact hwant.symm
  · have hbeats := sortOrder_of_level (hseen w hw) hv hb hlevel
    exact h.unbeaten w hw (hbeats.trans hbetter)

/-- The candidate stays when the next value is no better. -/
theorem Leads.keep (h : Leads want seen b) (hkept : sortOrder (some v) (some b) ≠ want) :
    Leads want (seen ++ [v]) b := by
  refine ⟨fun w hw => ?_, h.first.append [v]⟩
  simp only [List.mem_append, List.mem_singleton] at hw
  rcases hw with hw | rfl
  · exact h.unbeaten w hw
  · exact hkept

/-- The candidate that leads the values seen makes way for one that leads all values. -/
theorem Leads.run (hwant : want ≠ .eq) (hseen : ∀ w ∈ seen, HasInt64 (some w))
    (hrest : ∀ w ∈ rest, HasInt64 (some w)) (h : Leads want seen b) :
    ∃ best, extreme want (some b) rest = some best ∧ Leads want (seen ++ rest) best := by
  -- Each value to come moves over to those seen, with the candidate that leads them then.
  induction rest generalizing seen b with
  | nil => exact ⟨b, rfl, by rwa [List.append_nil]⟩
  | cons v rest ih =>
    obtain ⟨hv, hrest⟩ := List.forall_mem_cons.mp hrest
    have hseen' : ∀ w ∈ seen ++ [v], HasInt64 (some w) :=
      List.forall_mem_append.mpr ⟨hseen, List.forall_mem_singleton.mpr hv⟩
    rw [extreme, List.append_cons]
    split
    · next hbetter => exact ih hseen' hrest (h.replace hwant hseen hv hbetter)
    · next hkept => exact ih hseen' hrest (h.keep hkept)

/-- A pass over values ends with a candidate. -/
theorem exists_leads (hwant : want ≠ .eq) (hvalues : values ≠ [])
    (hnumbers : ∀ v ∈ values, HasInt64 (some v)) :
    ∃ best, extreme want none values = some best ∧ Leads want values best := by
  cases values with
  | nil => exact absurd rfl hvalues
  | cons b rest =>
    obtain ⟨hb, hrest⟩ := List.forall_mem_cons.mp hnumbers
    exact (leads_single hwant hb).run hwant (List.forall_mem_singleton.mpr hb) hrest

/-- A value that no value beats is a bound of them all. -/
theorem Leads.bound (hnumbers : ∀ v ∈ values, HasInt64 (some v)) (h : Leads want values best) :
    ∀ v ∈ values, sortOrder (some best) (some v) ≠ want.swap := by
  intro v hv hbeyond
  apply h.unbeaten v hv
  rw [sortOrder_swap_int64 (hnumbers best h.first.mem) (hnumbers v hv), hbeyond,
    Ordering.swap_swap]

/-- What leads the same values in two orders stands level. -/
theorem Leads.level (hwant : want ≠ .eq) (hnumbers : ∀ v ∈ values, HasInt64 (some v))
    (h : Leads want values best) (hother : Leads want others other) (hperm : others.Perm values) :
    sortOrder (some other) (some best) = .eq := by
  have hunbeaten := h.unbeaten other (hperm.mem_iff.mp hother.first.mem)
  have hbound := hother.bound (fun v hv => hnumbers v (hperm.mem_iff.mp hv)) best
    (hperm.mem_iff.mpr h.first.mem)
  cases want with
  | eq => exact absurd rfl hwant
  | _ => cases horder : sortOrder (some other) (some best) <;> simp_all

/-! ## Least and greatest values -/

/-- **Extremes are attained.** Let there be values of any types, at least one, and let the numbers
among them be integers of 64 bits. A least and a greatest value are found, and they are what the
accumulators give for these values: members of the list, the one at most and the other at least
every member, and each the first of the members that stand level with it. In another order of the
values members are found that stand level with them. -/
theorem extremes_attained (hvalues : values ≠ [])
    (hnumbers : ∀ v ∈ values, HasInt64 (some v)) :
    ∃ least greatest, extreme .lt none values = some least
      ∧ extreme .gt none values = some greatest
      ∧ (∀ v ∈ values, sortOrder (some least) (some v) ≠ .gt) ∧ IsFirst values least
      ∧ (∀ v ∈ values, sortOrder (some greatest) (some v) ≠ .lt) ∧ IsFirst values greatest
      ∧ (∀ argument members, accumulated argument members = values →
        accumulate "$min" argument members = .ok least
          ∧ accumulate "$max" argument members = .ok greatest)
      ∧ ∀ others : List Json, others.Perm values →
        ∃ least' ∈ values, ∃ greatest' ∈ values, extreme .lt none others = some least'
          ∧ extreme .gt none others = some greatest'
          ∧ sortOrder (some least') (some least) = .eq
          ∧ sortOrder (some greatest') (some greatest) = .eq := by
  have hlt : Ordering.lt ≠ .eq := nofun
  have hgt : Ordering.gt ≠ .eq := nofun
  obtain ⟨least, hleast, hleads⟩ := exists_leads hlt hvalues hnumbers
  obtain ⟨greatest, hgreatest, hleads'⟩ := exists_leads hgt hvalues hnumbers
  refine ⟨least, greatest, hleast, hgreatest, hleads.bound hnumbers, hleads.first,
    hleads'.bound hnumbers, hleads'.first, ?_, ?_⟩
  · rintro argument members rfl
    constructor
    · simp [accumulate, hleast]
    · simp [accumulate, hgreatest]
  · intro others hperm
    have hothers : others ≠ [] := fun h => hvalues (List.perm_nil.mp (h ▸ hperm.symm))
    have hnumbers' : ∀ v ∈ others, HasInt64 (some v) := fun v hv =>
      hnumbers v (hperm.mem_iff.mp hv)
    obtain ⟨least', hleast', hother⟩ := exists_leads hlt hothers hnumbers'
    obtain ⟨greatest', hgreatest', hother'⟩ := exists_leads hgt hothers hnumbers'
    exact ⟨least', hperm.mem_iff.mp hother.first.mem, greatest',
      hperm.mem_iff.mp hother'.first.mem, hleast', hgreatest',
      hleads.level hlt hnumbers hother hperm, hleads'.level hgt hnumbers hother' hperm⟩

/-- Values of all types: the lesser number is the least, and of an array and an object, which stand
level behind all others, the one that comes first is the greatest. The other way round it is the
other one. -/
theorem extremes_attained_mixed :
    let values : List Json :=
      [.str "b", .arr [.int 7], .int 9, .bool true, .obj [("x", .null)], .int (-3), .str "a"]
    values ≠ [] ∧ (∀ v ∈ values, HasInt64 (some v))
      ∧ extreme .lt none values = some (.int (-3))
      ∧ extreme .gt none values = some (.arr [.int 7])
      ∧ (∀ v ∈ values, sortOrder (some (.int (-3))) (some v) ≠ .gt)
      ∧ (∀ v ∈ values, sortOrder (some (.arr [.int 7])) (some v) ≠ .lt)
      ∧ extreme .gt none values.reverse = some (.obj [("x", .null)])
      ∧ sortOrder (some (.obj [("x", .null)])) (some (.arr [.int 7])) = .eq := by
  intro values
  have hvalues : values ≠ [] := List.cons_ne_nil _ _
  have hnumbers : ∀ v ∈ values, HasInt64 (some v) := by decide
  obtain ⟨least, greatest, hleast, hgreatest, hatMost, -, hatLeast, -, -, hperm⟩ :=
    extremes_attained hvalues hnumbers
  obtain ⟨-, -, greatest', -, -, hgreatest', -, hlevel⟩ := hperm _ values.reverse_perm
  obtain rfl : Json.int (-3) = least := Option.some.inj hleast
  obtain rfl : Json.arr [.int 7] = greatest := Option.some.inj hgreatest
  obtain rfl : Json.obj [("x", .null)] = greatest' := Option.some.inj hgreatest'
  exact ⟨hvalues, hnumbers, hleast, hgreatest, hatMost, hatLeast, hgreatest', hlevel⟩

end DualStore.Document
