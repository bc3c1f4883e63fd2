import DualStore.Document.Compile

/-!
# Runs of compiled pipelines

A pipeline is run stage by stage. The pipeline of a criteria has the stages that select, project,
order and aggregate, which do not depend on the page, and behind them the stages of the window.

* `run_append`, `run_cons`: a run in two parts, and the run of a first stage;
* `selectingStages`, `pipelineOf_eq_ok`: the stages in front of the window;
* `matching`, `filterDocs_eq_ok`: what the filtering stage gives, and when;
* `ofJson_match` … `ofJson_count`: how the stages of a compiled pipeline are read.
-/

namespace DualStore.Document

theorem run_cons {stage : Json} {read : Stage} (h : Stage.ofJson stage = .ok read)
    (docs rest : List Json) :
    run docs (stage :: rest) = (read.apply docs).bind fun docs => run docs rest := by
  rw [run, h]
  cases hread : read.apply docs <;> simp [hread, Except.bind]

/-- The stages of a longer pipeline are run in two parts. -/
theorem run_append (docs stages more : List Json) :
    run docs (stages ++ more) = (run docs stages).bind fun docs => run docs more := by
  induction stages generalizing docs with
  | nil => rfl
  | cons stage rest ih =>
    rw [List.cons_append, run, run]
    cases Stage.ofJson stage with
    | error e => rfl
    | ok read =>
      cases hread : read.apply docs with
      | error e => simp [hread, Except.bind]
      | ok kept => simp only [hread, ih]

/-! ## Stages as they are read -/

theorem ofJson_match (filter : Fields) :
    Stage.ofJson (operator "$match" (.obj filter)) = .ok (.filter filter) := rfl

theorem ofJson_project (fields : Fields) :
    Stage.ofJson (operator "$project" (.obj fields)) = .ok (.project fields) := rfl

theorem ofJson_sort (keys : Fields) :
    Stage.ofJson (operator "$sort" (.obj keys)) = .ok (.sort keys) := rfl

theorem ofJson_group (spec : Fields) :
    Stage.ofJson (operator "$group" (.obj spec)) = .ok (.group spec) := rfl

theorem ofJson_skip (n : Nat) : Stage.ofJson (operator "$skip" (.int n)) = .ok (.skip n) := rfl

theorem ofJson_limit (n : Nat) : Stage.ofJson (operator "$limit" (.int n)) = .ok (.limit n) := rfl

theorem ofJson_count (field : String) :
    Stage.ofJson (operator "$count" (.str field)) = .ok (.count field) := rfl

/-! ## The documents that a filter lets through -/

/-- The documents that satisfy a filter, in their order. -/
def matching (filter : Fields) (docs : List Json) : List Json :=
  docs.filter fun doc => (satisfies doc filter).toOption = some true

theorem matching_cons {filter : Fields} {doc : Json} {b : Bool}
    (h : satisfies doc filter = .ok b) (rest : List Json) :
    matching filter (doc :: rest)
      = if b then doc :: matching filter rest else matching filter rest := by
  cases b <;> simp [matching, h, Except.toOption]

theorem filterDocs_eq_ok {filter : Fields} {docs kept : List Json} :
    filterDocs filter docs = .ok kept ↔
      (∀ doc ∈ docs, ∃ b, satisfies doc filter = .ok b) ∧ kept = matching filter docs := by
  induction docs generalizing kept with
  | nil => simp [filterDocs, matching, eq_comm]
  | cons doc rest ih =>
    rw [filterDocs, List.forall_mem_cons]
    cases hdoc : satisfies doc filter with
    | error e => simp
    | ok b =>
      rw [matching_cons hdoc]
      cases hrest : filterDocs filter rest with
      | error e =>
        have hnone : ¬∀ doc ∈ rest, ∃ b, satisfies doc filter = .ok b := by
          intro hall
          have hkept := ih.mpr ⟨hall, rfl⟩
          rw [hrest] at hkept
          cases hkept
        exact ⟨fun h => (nomatch h), fun h => absurd h.1.2 hnone⟩
      | ok more =>
        obtain ⟨hall, rfl⟩ := ih.mp hrest
        rw [Except.ok.injEq]
        exact ⟨fun h => ⟨⟨⟨b, rfl⟩, hall⟩, h.symm⟩, fun h => h.2.symm⟩

/-! ## The stages in front of the window -/

/-- The stages of a compiled criteria in front of its window. -/
def selectingStages (c : Criteria) (idField : String) (filter : Fields) : List Json :=
  (if filter.isEmpty then [] else [operator "$match" (.obj filter)]) ++ projectStage c idField
    ++ sortStage c idField ++ groupStage c idField

theorem pipelineOf_eq_ok {c : Criteria} {idField : String} {counting : Bool} {stages : List Json} :
    pipelineOf c idField counting = .ok stages ↔
      ∃ filter, filterOf c.conditions idField = .ok filter
        ∧ stages = selectingStages c idField filter ++ windowStages c counting := by
  unfold pipelineOf selectingStages
  cases filterOf c.conditions idField with
  | error e => simp [bind, Except.bind]
  | ok filter =>
    simp only [bind, Except.bind, Except.ok.injEq, exists_eq_left']
    exact eq_comm

end DualStore.Document
