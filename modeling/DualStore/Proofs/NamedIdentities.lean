import DualStore.Proofs.FoundDocuments
import DualStore.Proofs.IdentityRows
import DualStore.Proofs.ProjectedReads
import DualStore.Proofs.RefusedConditions
import DualStore.Proofs.StatementColumns

/-!
# Named identities

A criteria may call the identity of an entity by its declared name. The document compiler writes the
key of documents instead, wherever a condition, an order or a projection names it. Statements select
the column of the identity for that name, but conditions and orders stand in them as they are named:
a declared name other than that of the column is no column of the table.

* `Condition.allRenamed`, `Criteria.renamed`: criteria that call fields otherwise;
* `Document.pipelineOf_renamed`: a pipeline does without the declared name of the identity;
* `Document.finds_identity`, `Document.counts_identity`: the document of an identity;
* `Query.keys`, `keys_predicates?`, `Query.NamesColumns`: the names in a statement;
* `asks_findList`, `asks_findOne`, `asks_count`: the statements of a session;
* `TranslatedInDocuments`, `RepeatedInStatements`, `AskedOfRows`: what becomes of the name;
* `named_identities`: the main statement;
* `name_not_translated`: guests who cannot be counted by their identities.
-/

namespace DualStore

open Model

/-! ## Conditions under other names -/

namespace Condition

mutual

/-- A condition on a field that goes by another name; of a disjunction its members. -/
def renamed (f : String → String) : Condition → Condition
  | .on logic key operand => .on logic (f key) operand
  | .group .or key members others => .group .or key (membersRenamed f members) others
  | .group logic key members others => .group logic (f key) members others

def allRenamed (f : String → String) : List Condition → List Condition
  | [] => []
  | c :: rest => renamed f c :: allRenamed f rest

/-- Members whose conditions are on fields that go by other names. -/
def membersRenamed (f : String → String) : List (List Condition) → List (List Condition)
  | [] => []
  | member :: rest => allRenamed f member :: membersRenamed f rest

end

variable {f : String → String}

theorem renamed_group {logic : Logic} (h : logic ≠ .or) (key : String)
    (members : List (List Condition)) (others : List Parts) :
    renamed f (.group logic key members others) = .group logic (f key) members others := by
  cases logic with
  | or => exact absurd rfl h
  | _ => rfl

mutual

theorem keys_leaves_renamed : ∀ c : Condition,
    (leaves (renamed f c)).map key = (leaves c).map fun leaf => f leaf.key
  | .on logic key operand => rfl
  | .group logic key members _ => by
    cases logic with
    | or => exact keys_memberLeaves_renamed members
    | _ => rfl

/-- The keys of the conditions that are compiled, under their other names. -/
theorem keys_allLeaves_renamed : ∀ cs : List Condition,
    (allLeaves (allRenamed f cs)).map key = (allLeaves cs).map fun leaf => f leaf.key
  | [] => rfl
  | c :: rest => by
    rw [allRenamed, allLeaves, allLeaves, List.map_append, List.map_append,
      keys_leaves_renamed c, keys_allLeaves_renamed rest]

theorem keys_memberLeaves_renamed : ∀ members : List (List Condition),
    (memberLeaves (membersRenamed f members)).map key
      = (memberLeaves members).map fun leaf => f leaf.key
  | [] => rfl
  | member :: rest => by
    rw [membersRenamed, memberLeaves, memberLeaves, List.map_append, List.map_append,
      keys_allLeaves_renamed member, keys_memberLeaves_renamed rest]

end

end Condition

/-- The keys that the conditions and the orders of a criteria name. -/
def Criteria.namedKeys (c : Criteria) : List String :=
  (Condition.allLeaves c.conditions).map Condition.key ++ c.orders.map Directive.key

/-- A criteria whose conditions, order and projection name fields otherwise. -/
def Criteria.renamed (f : String → String) (c : Criteria) : Criteria :=
  { c with
    conditions := Condition.allRenamed f c.conditions
    fields := c.fields.map f
    orders := c.orders.map fun o => { o with key := f o.key } }

theorem Criteria.namedKeys_renamed (f : String → String) (c : Criteria) :
    (c.renamed f).namedKeys = c.namedKeys.map f := by
  rw [namedKeys, namedKeys, renamed, Condition.keys_allLeaves_renamed, List.map_append,
    List.map_map, List.map_map, List.map_map]
  rfl

/-! ## Compiled filters -/

namespace Document

open Condition

theorem toOption_bind {ε α β : Type} (x : Except ε α) (g : α → Except ε β) :
    (x >>= g).toOption = x.toOption.bind fun a => (g a).toOption := by
  cases x <;> rfl

variable {idField : String}

/-- No key is translated to the declared name of the identity, unless that is the key of
documents. -/
theorem documentKey_ne (h : idField ≠ idKey) (key : String) :
    documentKey idField key ≠ idField := by
  unfold documentKey
  split
  · exact h.symm
  · next hother =>
    rw [not_or] at hother
    exact hother.1

/-- A key that is translated is a key of documents. -/
theorem documentKey_documentKey (idField key : String) :
    documentKey idKey (documentKey idField key) = documentKey idField key := by
  by_cases h : key = idField ∨ key = idKey
  · rw [documentKey, documentKey, if_pos h, if_pos (.inl rfl)]
  · rw [documentKey, documentKey, if_neg h, if_neg (by simp_all)]

theorem addClause_renamed (filter : Fields) (c c' : Condition)
    (hkey : c'.key = documentKey idField c.key) (clause : Clause) :
    (addClause idKey filter c' clause).toOption = (addClause idField filter c clause).toOption := by
  cases clause with
  | condition condition => rw [addClause, addClause, hkey, documentKey_documentKey]
  | _ => rfl

theorem addCondition_group {logic : Logic} (h : logic ≠ .or) (filter : Fields) (key : String)
    (members : List (List Condition)) (others : List Parts) :
    addCondition idField filter (.group logic key members others)
      = addClause idField filter (.group logic key members others) (groupClause logic) := by
  cases logic with
  | or => exact absurd rfl h
  | _ => rfl

mutual

theorem addCondition_renamed : ∀ (filter : Fields) (c : Condition),
    (addCondition idKey filter (c.renamed (documentKey idField))).toOption
      = (addCondition idField filter c).toOption
  | filter, .on logic key operand =>
    addClause_renamed filter (.on logic key operand) (.on logic (documentKey idField key) operand)
      rfl (clauseOf logic operand)
  | filter, .group logic key members others => by
    by_cases hlogic : logic = .or
    · subst hlogic
      rw [renamed, addCondition, addCondition, toOption_bind, toOption_bind,
        branchesOf_renamed members]
    · rw [renamed_group hlogic, addCondition_group hlogic, addCondition_group hlogic]
      exact addClause_renamed filter (.group logic key members others)
        (.group logic (documentKey idField key) members others) rfl (groupClause logic)

/-- A filter of translated conditions is that of the conditions, except that a refusal names the
condition as it is named there. -/
theorem addConditions_renamed : ∀ (filter : Fields) (cs : List Condition),
    (addConditions idKey filter (allRenamed (documentKey idField) cs)).toOption
      = (addConditions idField filter cs).toOption
  | filter, [] => rfl
  | filter, c :: rest => by
    rw [allRenamed, addConditions, addConditions, toOption_bind, toOption_bind,
      addCondition_renamed filter c]
    exact congrArg _ (funext fun filter => addConditions_renamed filter rest)

theorem branchesOf_renamed : ∀ members : List (List Condition),
    (branchesOf idKey (membersRenamed (documentKey idField) members)).toOption
      = (branchesOf idField members).toOption
  | [] => rfl
  | member :: rest => by
    rw [membersRenamed, branchesOf, branchesOf, toOption_bind, toOption_bind,
      addConditions_renamed [] member]
    refine congrArg _ (funext fun branch => ?_)
    rw [toOption_bind, toOption_bind, branchesOf_renamed rest]

end

/-- What goes by its names in documents does not name the identity as it is declared. -/
theorem not_named_renamed (h : idField ≠ idKey) (c : Criteria) :
    idField ∉ (c.renamed (documentKey idField)).namedKeys
      ∧ idField ∉ (c.renamed (documentKey idField)).fields := by
  have hnone : ∀ keys : List String, idField ∉ keys.map (documentKey idField) := by
    intro keys hmem
    obtain ⟨key, -, hkey⟩ := List.mem_map.mp hmem
    exact documentKey_ne h key hkey
  rw [Criteria.namedKeys_renamed]
  exact ⟨hnone c.namedKeys, hnone c.fields⟩

theorem projectStage_renamed (c : Criteria) (idField : String) :
    projectStage (c.renamed (documentKey idField)) idKey = projectStage c idField := by
  simp only [projectStage, Criteria.renamed, List.map_eq_nil_iff, List.map_map, Function.comp_def,
    documentKey_documentKey]

theorem sortStage_renamed (c : Criteria) (idField : String) :
    sortStage (c.renamed (documentKey idField)) idKey = sortStage c idField := by
  simp only [sortStage, Criteria.renamed, List.map_eq_nil_iff, List.map_map, Function.comp_def,
    documentKey_documentKey]

/-- The pipeline of a criteria as it is without a declared name of the identity: what selects,
projects and orders is that of the criteria in which the identity goes by its name in documents. -/
def renamedPipeline (idField : String) (c : Criteria) (counting : Bool) : Option (List Json) :=
  let renamed := c.renamed (documentKey idField)
  (filterOf renamed.conditions idKey).toOption.map fun filter =>
    (if filter.isEmpty then [] else [operator "$match" (.obj filter)])
      ++ projectStage renamed idKey ++ sortStage renamed idKey ++ groupStage c idField
      ++ windowStages c counting

theorem pipelineOf_renamed (c : Criteria) (idField : String) (counting : Bool) :
    (pipelineOf c idField counting).toOption = renamedPipeline idField c counting := by
  have hfilter : (filterOf (c.renamed (documentKey idField)).conditions idKey).toOption
      = (filterOf c.conditions idField).toOption := addConditions_renamed [] c.conditions
  simp only [renamedPipeline, projectStage_renamed, sortStage_renamed, hfilter, pipelineOf,
    toOption_bind]
  cases filterOf c.conditions idField <;> rfl

/-! ## Documents of one identity -/

variable {t : Model.EntityType} {m : Model.EntityMeta} {id : Int} {s : Store}

theorem pipelineOf_identity (t : Model.EntityType) (m : Model.EntityMeta) (id : Int)
    (counting : Bool) :
    pipelineOf ((Criteria.of t).eq m.idField (.integer id)) m.idField counting
      = .ok (operator "$match" (.obj [(idKey, .int id)]) ::
          if counting then [operator "$count" (.str countField)] else []) := by
  have hkey : documentKey m.idField m.idField = idKey := by
    rw [documentKey, if_pos (.inl rfl)]
  have hfilter : filterOf ((Criteria.of t).eq m.idField (.integer id)).conditions m.idField
      = .ok (mergeClause [] (documentKey m.idField m.idField) (.int id)) := rfl
  rw [pipelineOf, hfilter, hkey]
  cases counting <;> rfl

/-- The document of an identity is found under the declared name of the identity. -/
theorem finds_identity (h : s.Sound) (hvalid : Collection.checkName m.table = .ok ())
    (hid : Decimal.fitsInt64 id = true) :
    ∃ stages, pipelineOf ((Criteria.of t).eq m.idField (.integer id)) m.idField false = .ok stages
      ∧ s.aggregate m.table stages = .ok ((s.document? m.table id).toList.map toJson) :=
  ⟨_, pipelineOf_identity t m id false, h.aggregate_match hvalid hid rfl⟩

theorem counts_identity (h : s.Sound) (hvalid : Collection.checkName m.table = .ok ())
    (hid : Decimal.fitsInt64 id = true) :
    ∃ stages found,
      pipelineOf ((Criteria.of t).eq m.idField (.integer id)) m.idField true = .ok stages
        ∧ s.aggregate m.table stages = .ok found
        ∧ countOf found = (s.document? m.table id).toList.length := by
  obtain ⟨found, hfound, hcount⟩ : ∃ found,
      run ((s.document? m.table id).toList.map toJson) [operator "$count" (.str countField)]
        = .ok found ∧ countOf found = (s.document? m.table id).toList.length := by
    cases s.document? m.table id with
    | none => exact ⟨[], rfl, rfl⟩
    | some doc => exact ⟨[.obj [(countField, .int 1)]], rfl, countOf_count (n := 1) (by decide)⟩
  exact ⟨_, found, pipelineOf_identity t m id true, h.aggregate_match hvalid hid hfound, hcount⟩

end Document

/-! ## Names in statements -/

namespace Relational

open Model

namespace Predicate

mutual

def keys : Predicate → List String
  | .test key _ => [key]
  | .any branches => branchKeys branches

def allKeys : List Predicate → List String
  | [] => []
  | p :: rest => keys p ++ allKeys rest

def branchKeys : List (List Predicate) → List String
  | [] => []
  | branch :: rest => allKeys branch ++ branchKeys rest

end

end Predicate

/-- The keys that the condition and the order of a statement name. -/
def Query.keys : Query → List String
  | .byId _ _ _ => [idColumn]
  | .matching _ _ filter order => Predicate.allKeys filter ++ order.map Directive.key
  | .counting _ filter => Predicate.allKeys filter
  | .free s => Predicate.allKeys s.filter ++ s.groups ++ s.order.map Directive.key
  | .counted q => q.keys
  | .paged q _ => q.keys

theorem key_of_single {logic : Logic} {key : String} {operand : Operand} {p : Predicate}
    (h : single logic key operand = .ok p) : p.keys = [key] := by
  unfold single at h
  split at h
  · obtain ⟨rfl, -⟩ := checked_eq_ok h
    rfl
  · cases h

mutual

theorem keys_predicate? : ∀ (c : Condition) {found : Option Predicate},
    predicate? c = .ok found → Predicate.allKeys found.toList = c.leaves.map Condition.key
  | .on logic key operand, found, h => by
    rw [predicate?] at h
    cases hsingle : single logic key operand with
    | error e =>
      rw [hsingle] at h
      cases h
    | ok p =>
      rw [hsingle] at h
      rw [← Except.ok.inj h]
      exact (List.append_nil _).trans (key_of_single hsingle)
  | .group logic key members _, found, h => by
    cases logic with
    | or =>
      rw [predicate?] at h
      obtain ⟨branches, hbranches, h⟩ := bind_eq_ok h
      have hkeys := keys_branches? members hbranches
      rw [← Except.ok.inj h, Condition.leaves, ← hkeys]
      cases branches with
      | nil => rfl
      | cons branch rest => exact List.append_nil _
    | isNull =>
      rw [← Except.ok.inj h]
      rfl
    | isNotNull =>
      rw [← Except.ok.inj h]
      rfl
    | _ => cases h

/-- The predicates of conditions name the keys of the conditions, as they are. -/
theorem keys_predicates? : ∀ (cs : List Condition) {ps : List Predicate},
    predicates? cs = .ok ps →
      Predicate.allKeys ps = (Condition.allLeaves cs).map Condition.key
  | [], ps, h => by
    rw [← Except.ok.inj h]
    rfl
  | c :: rest, ps, h => by
    rw [predicates?] at h
    obtain ⟨first, hfirst, h⟩ := bind_eq_ok h
    obtain ⟨others, hothers, h⟩ := bind_eq_ok h
    have hc := keys_predicate? c hfirst
    have hrest := keys_predicates? rest hothers
    rw [← Except.ok.inj h, Condition.allLeaves, List.map_append, ← hc, ← hrest]
    cases first with
    | none => rfl
    | some p => exact congrArg (· ++ _) (List.append_nil _).symm

theorem keys_branches? : ∀ (members : List (List Condition)) {branches : List (List Predicate)},
    branches? members = .ok branches →
      Predicate.branchKeys branches = (Condition.memberLeaves members).map Condition.key
  | [], branches, h => by
    rw [← Except.ok.inj h]
    rfl
  | member :: rest, branches, h => by
    rw [branches?] at h
    obtain ⟨branch, hbranch, h⟩ := bind_eq_ok h
    obtain ⟨others, hothers, h⟩ := bind_eq_ok h
    have hmember := keys_predicates? member hbranch
    have hrest := keys_branches? rest hothers
    rw [← Except.ok.inj h, Condition.memberLeaves, List.map_append, ← hmember, ← hrest]
    cases branch with
    | nil => rfl
    | cons p branch => rfl

end

/-- The column that a key names, where the identity may go by its declared name. -/
def columnKey (idField key : String) : String := if key = idField then idColumn else key

/-- Whether the keys in a statement are those of columns, where the identity may go by its declared
name; names of columns are the same whatever the case of their letters. -/
def Query.NamesColumns (idField : String) (q : Query) : Prop :=
  ∀ key ∈ q.keys, Sql.foldCase (columnKey idField key) = Sql.foldCase key

theorem Query.namesColumns_iff (idField : String) (q : Query) : q.NamesColumns idField ↔
    (idField ∈ q.keys → Sql.foldCase idField = Sql.foldCase idColumn) := by
  constructor
  · intro h hmem
    have hfold := h idField hmem
    rw [columnKey, if_pos rfl] at hfold
    exact hfold.symm
  · intro h key hkey
    unfold columnKey
    split
    · next heq =>
      subst heq
      exact (h hkey).symm
    · rfl

/-! ## Statements of a session -/

/-- Requests to run statements that name some keys in their conditions and orders. -/
def NamesKeys (keys : List String) : Request → Prop
  | .query q => q.keys = keys
  | _ => False

namespace UnitOfWork

variable {t : EntityType} {m : EntityMeta} {c : Criteria} {keys : List String}

theorem asks_askCount {q : Query} (h : q.keys = keys) :
    Work.Asks (NamesKeys keys) (askCount q).run := by
  have hquery : Work.Asks (NamesKeys keys) (askQuery q).run := ⟨h, fun _ => trivial⟩
  refine Work.Asks.attempt hquery fun answer => ?_
  cases readCount answer.rows <;> trivial

/-- A read by pages only asks for its statement, counted or restricted to a page. -/
theorem asks_pagedRead {α : Type} {q : Query} (h : q.keys = keys) (dialect : Dialect) (page : Page)
    (read : RawRows → Except Failure α) :
    Work.Asks (NamesKeys keys) (pagedRead dialect page q read) := by
  have hread : ∀ (asked : Query) (page : Page), asked.keys = keys →
      Work.Asks (NamesKeys keys) (do
        let result ← (do
          let answer ← askQuery asked
          Attempt.ofExcept (read answer) : Attempt α).run
        pure (⟨result, page⟩ : Document.Found α)) := by
    intro asked page hasked
    refine Work.Asks.bind ?_ fun _ => trivial
    exact Work.Asks.attempt ⟨hasked, fun _ => trivial⟩ fun answer => trivial
  rw [pagedRead, paginate]
  split
  · exact hread q page h
  · split
    · trivial
    · split
      · exact hread (.paged q page) page h
      · -- The rows are counted first; the page is asked for only if that gives a number.
        refine ⟨h, fun answer => ?_⟩
        cases answer with
        | error e => trivial
        | ok counted =>
          dsimp only [Except.mapError, Plan.bind, ExceptT.bindCont]
          cases readCount counted.rows with
          | error e => trivial
          | ok n => exact hread (.paged q (page.applyTotal n)) (page.applyTotal n) h

theorem asks_selectEntities (settings : Settings) (t : EntityType) (c : Criteria) :
    Work.Asks (NamesKeys c.namedKeys) (selectEntities settings t c) := by
  rw [selectEntities]
  split
  · trivial
  · next q projection hselection =>
    obtain ⟨m, filter, -, -, -, hfilter, rfl⟩ := selection_eq_ok hselection
    refine asks_pagedRead ?_ _ _ _
    rw [Query.keys, keys_predicates? c.conditions hfilter, Criteria.namedKeys]

/-- Finding a list asks for statements that name what the criteria names, as it is named there. -/
theorem asks_findList (u : UnitOfWork) (t : EntityType) (c : Criteria) :
    Work.Asks (NamesKeys c.namedKeys) (u.findList t c) :=
  (asks_selectEntities u.settings t c).bind fun _ => trivial

theorem asks_findOne (u : UnitOfWork) (t : EntityType) (c : Criteria) :
    Work.Asks (NamesKeys c.namedKeys) (u.findOne t c) := by
  have hfirst : Work.Asks (NamesKeys c.namedKeys)
      (selectEntities u.settings t (c.offset 0 1) >>= fun found => pure (first found)) :=
    (asks_selectEntities u.settings t (c.offset 0 1)).bind fun _ => trivial
  exact hfirst.bind fun _ => trivial

/-- Counting asks for a statement that names what the conditions name. -/
theorem asks_count (u : UnitOfWork) (c : Criteria) :
    Work.Asks (NamesKeys ((Condition.allLeaves c.conditions).map Condition.key)) (u.count c) := by
  have hcount : Work.Asks (NamesKeys ((Condition.allLeaves c.conditions).map Condition.key))
      (countRows c).run := by
    refine asks_ofExcept fun m _ => asks_lift fun filter hfilter => asks_askCount ?_
    rw [Query.keys, keys_predicates? c.conditions hfilter]
  refine Work.Asks.bind (Work.Asks.bind hcount fun result => ?_) fun _ => trivial
  cases result <;> trivial

/-- The statements that count and select the entities of a type, with their condition left open. -/
def entityStatements (m : EntityMeta) : List (List Predicate → Query) :=
  [.counting m.table, fun ps => .matching (allColumns m) m.table ps []]

/-- A criteria that asks for an identity by its declared name is counted and selected by the
statements that ask for a column of that name. -/
theorem selection_identity (h : t.resolve = .ok m) (id : Int) :
    selection t ((Criteria.of t).eq m.idField (.integer id))
        = .ok (.matching (allColumns m) m.table [equals m.idField id] [],
          ⟨allColumns m, allBindings m⟩)
      ∧ Work.Asks (fun r => r = .query (.counting m.table [equals m.idField id]))
        (countRows ((Criteria.of t).eq m.idField (.integer id))).run := by
  have htarget : ((Criteria.of t).eq m.idField (.integer id)).target = .ok m :=
    t.checked_of_resolve h
  have hsame : ((Criteria.of t).eq m.idField (.integer id)).checkTarget t = .ok () := if_pos rfl
  have hfields : ((Criteria.of t).eq m.idField (.integer id)).fields = [] := rfl
  have hfilter : predicates? ((Criteria.of t).eq m.idField (.integer id)).conditions
      = .ok [equals m.idField id] := rfl
  constructor
  · simp only [selection, hsame, htarget, hfields, hfilter, ofMeta_all, mapError_ok, bind,
      Except.bind]
    rfl
  · rw [countRows, htarget, hfilter]
    exact ⟨rfl, fun answer => by cases answer <;> trivial⟩

end UnitOfWork

/-- A projection on the declared name of the identity selects its column; no other column goes by
that name. -/
theorem projection_identity (hm : m.IsChecked) {wanted : List String} {p : Projection}
    (h : Projection.ofMeta m wanted = .ok p) : (m.idField ∈ wanted → idColumn ∈ p.columns)
      ∧ (m.idField ∈ p.columns → m.idField = idColumn) := by
  rw [ofMeta_eq_ok h]
  constructor
  · intro hwanted
    have hasked : Projection.isWanted wanted m.idField = true := by
      rw [Projection.isWanted, List.contains_iff_mem.mpr hwanted, Bool.or_true]
    rw [hasked, Bool.or_true, if_pos rfl]
    exact List.mem_append_left _ (List.mem_singleton_self _)
  · intro hmem
    rcases List.mem_append.mp hmem with hidentity | hfield
    · split at hidentity
      · exact List.mem_singleton.mp hidentity
      · cases hidentity
    · obtain ⟨-, field, hfield, hname⟩ := mem_wantedNames.mp hfield
      have hdeclared := List.mem_of_mem_filter (List.mem_of_mem_filter hfield)
      exact absurd hname (hm.identity field hdeclared)

end Relational

/-! ## Both stores -/

open Relational Relational.UnitOfWork

/-- The document store takes the declared name of the identity for the key of documents: in the
pipelines of all criteria, and in the answers to one that asks for an identity. -/
structure TranslatedInDocuments (t : EntityType) (m : EntityMeta) : Prop where
  renamed : m.idField ≠ Document.idKey → ∀ c : Criteria,
    m.idField ∉ (c.renamed (Document.documentKey m.idField)).namedKeys
      ∧ m.idField ∉ (c.renamed (Document.documentKey m.idField)).fields
  pipelines : ∀ c counting,
    (Document.pipelineOf c m.idField counting).toOption
      = Document.renamedPipeline m.idField c counting
  found : ∀ (s : Store) (id : Int), s.Sound → Collection.checkName m.table = .ok () →
    Decimal.fitsInt64 id = true → ∃ stages,
      Document.pipelineOf ((Criteria.of t).eq m.idField (.integer id)) m.idField false = .ok stages
        ∧ s.aggregate m.table stages = .ok ((s.document? m.table id).toList.map Document.toJson)
  counted : ∀ (s : Store) (id : Int), s.Sound → Collection.checkName m.table = .ok () →
    Decimal.fitsInt64 id = true → ∃ stages found,
      Document.pipelineOf ((Criteria.of t).eq m.idField (.integer id)) m.idField true = .ok stages
        ∧ s.aggregate m.table stages = .ok found
        ∧ Document.countOf found = (s.document? m.table id).toList.length

/-- Statements repeat the keys of conditions and orders. These are those of columns exactly if the
identity is not among them, or is declared under the name of its column. Columns that are selected
go by their own names. -/
structure RepeatedInStatements (t : EntityType) (m : EntityMeta) : Prop where
  found : ∀ (u : UnitOfWork) (c : Criteria), Work.Asks (NamesKeys c.namedKeys) (u.findList t c)
    ∧ Work.Asks (NamesKeys c.namedKeys) (u.findOne t c)
  counted : ∀ (u : UnitOfWork) (c : Criteria),
    Work.Asks (NamesKeys ((Condition.allLeaves c.conditions).map Condition.key)) (u.count c)
  columns : ∀ q : Query, q.NamesColumns m.idField ↔
    (m.idField ∈ q.keys → Sql.foldCase m.idField = Sql.foldCase idColumn)
  projected : ∀ wanted p, Projection.ofMeta m wanted = .ok p →
    (m.idField ∈ wanted → idColumn ∈ p.columns) ∧ (m.idField ∈ p.columns → m.idField = idColumn)

/-- A table of a type on a server, under names that statements can have for it. -/
structure IsTableOf (s : Sql.Server) (client : String) (m : EntityMeta) (table : Sql.Table) :
    Prop where
  found : Sql.findTable (s.view client) m.table = .ok table
  name : isTableName m.table = true
  columns : ∀ column ∈ allColumns m, isColumnName column = true
  identity : isIdentifier m.idField = true

theorem IsTableOf.readsTable {s : Sql.Server} {client : String} {m : EntityMeta}
    {table : Sql.Table} (h : IsTableOf s client m table) {q : List Predicate → Query}
    (hq : q ∈ entityStatements m) : ∃ items, ReadsTable q m.table items := by
  rcases List.mem_cons.mp hq with rfl | hq
  · exact ⟨_, readsTable_counting h.name⟩
  · obtain rfl := List.mem_singleton.mp hq
    exact ⟨_, readsTable_matching (by simp [allColumns]) h.columns h.name⟩

/-- Rows are asked for an identity under the declared name. If that is the name of the column, the
statement is answered from the rows of the identity; if no column is called so, it is refused. -/
structure AskedOfRows (t : EntityType) (m : EntityMeta) : Prop where
  statements : ∀ id : Int, selection t ((Criteria.of t).eq m.idField (.integer id))
      = .ok (.matching (allColumns m) m.table [equals m.idField id] [],
        ⟨allColumns m, allBindings m⟩)
    ∧ Work.Asks (fun r => r = .query (.counting m.table [equals m.idField id]))
      (countRows ((Criteria.of t).eq m.idField (.integer id))).run
  answered : ∀ (s : Sql.Server) client table (id : Int), IsTableOf s client m table →
    Sql.HoldsIdentities table → Sql.foldCase m.idField = Sql.foldCase idColumn →
    ∀ q ∈ entityStatements m,
      (s.query client (q [equals m.idField id]).text (q [equals m.idField id]).parameters).1
        = (Sql.Server.query { committed := [table.onlyKey id] } client (q []).text
            (q []).parameters).1
  counted : ∀ (s : Sql.Server) client table (id : Int), IsTableOf s client m table →
    Sql.HoldsIdentities table → table.rows.length < 2 ^ 63 →
    Sql.foldCase m.idField = Sql.foldCase idColumn → ∃ answer,
      (s.query client (Query.counting m.table [equals m.idField id]).text
          (Query.counting m.table [equals m.idField id]).parameters).1 = .ok answer
        ∧ readCount answer.rows = .ok (table.onlyKey id).rows.length
  refused : ∀ (s : Sql.Server) client table (id : Int), IsTableOf s client m table →
    (∀ c ∈ table.shape.columns, Sql.foldCase c.name ≠ Sql.foldCase m.idField) →
    ∀ q ∈ entityStatements m, ∀ answer,
      (s.query client (q []).text (q []).parameters).1 = .ok answer →
      (s.query client (q [equals m.idField id]).text (q [equals m.idField id]).parameters).1
        = .error (.query ("no such column: " ++ m.idField))

/-- **Under which name the stores know an identity.** The document store takes the declared name of
the identity for the key of documents wherever a condition, an order or a projection names it, and
so finds and counts the document of an identity. A statement selects the column of the identity for
that name, but repeats it in conditions and orders. So it asks for the column there exactly if the
identity is declared under the name of the column: then entities are selected and counted from the
rows of the identity, and a name that no column has is refused. -/
theorem named_identities {t : EntityType} {m : EntityMeta} (h : t.resolve = .ok m) :
    TranslatedInDocuments t m ∧ RepeatedInStatements t m ∧ AskedOfRows t m where
  left :=
    { renamed := Document.not_named_renamed
      pipelines := fun c counting => Document.pipelineOf_renamed c m.idField counting
      found := fun _ _ hs hvalid hid => Document.finds_identity hs hvalid hid
      counted := fun _ _ hs hvalid hid => Document.counts_identity hs hvalid hid }
  right.left :=
    { found := fun u c => ⟨asks_findList u t c, asks_findOne u t c⟩
      counted := asks_count
      columns := Query.namesColumns_iff m.idField
      projected := fun _ _ hp => projection_identity (isChecked_resolve h) hp }
  right.right :=
    { statements := selection_identity h
      answered := fun s client table id htable hrows hname q hq => by
        obtain ⟨items, hreads⟩ := htable.readsTable hq
        exact hreads.query_identity htable.identity hname htable.found hrows id
      counted := fun s client table id htable hrows hlength hname => by
        obtain ⟨answer, hanswer, hcount⟩ := query_count htable.name
          { committed := [table.onlyKey id] } client (Sql.findTable_withRows htable.found _)
          (Nat.lt_of_le_of_lt (List.length_filter_le _ _) hlength)
        refine ⟨answer, ?_, hcount⟩
        rw [(readsTable_counting htable.name).query_identity htable.identity hname htable.found
          hrows id]
        exact hanswer
      refused := fun s client table id htable hname q hq answer hplain => by
        obtain ⟨items, hreads⟩ := htable.readsTable hq
        exact hreads.query_unknown htable.identity htable.found hname id hplain }

def guestType : EntityType where
  name := "Guest"
  identity := ⟨"uid", "guest", false⟩
  fields := [⟨"seat", .int .w32, false, false⟩]
  layout := .record [⟨"uid", .int .w64⟩, ⟨"seat", .int .w32⟩]
  key := "uid"

def guestTable : Sql.Table where
  shape := ⟨"guest", [⟨"id", .integer⟩, ⟨"seat", .integer⟩], false, false⟩
  rows := [[.integer 5, .integer 1], [.integer 6, .integer 2]]

theorem isTableOf_guestTable : IsTableOf { committed := [guestTable] } ""
    ⟨"Guest", "guest", "uid", false, guestType.fields⟩ guestTable where
  found := rfl
  name := by decide +kernel
  columns := by decide +kernel
  identity := by decide +kernel

/-- Guests are found by their identities as documents, and cannot be counted by them as rows. -/
theorem named_identities_guest :
    let m : EntityMeta := ⟨"Guest", "guest", "uid", false, guestType.fields⟩
    let s : Sql.Server := { committed := [guestTable] }
    guestType.resolve = .ok m
      ∧ (∀ c counting, (Document.pipelineOf c "uid" counting).toOption
        = Document.renamedPipeline "uid" c counting)
      ∧ ∀ id, (s.query "" (Query.counting "guest" [equals "uid" id]).text [.integer id]).1
        = .error (.query "no such column: uid") := by
  intro m s
  have resolved : guestType.resolve = .ok m := by decide +kernel
  obtain ⟨hdocuments, -, hrows⟩ := named_identities resolved
  obtain ⟨answer, hanswer, -⟩ := query_count isTableOf_guestTable.name s ""
    isTableOf_guestTable.found (by decide)
  refine ⟨resolved, hdocuments.pipelines, fun id => ?_⟩
  exact hrows.refused s "" guestTable id isTableOf_guestTable (by decide +kernel) _
    List.mem_cons_self answer hanswer

/-- A guest who is counted by the declared name of the identity: the pipeline asks for the key of
documents, the statement for a column that is not there, although the table has the row. -/
theorem name_not_translated :
    let m : EntityMeta := ⟨"Guest", "guest", "uid", false, guestType.fields⟩
    let c := (Criteria.of guestType).eq "uid" (.integer 5)
    let s : Sql.Server := { committed := [guestTable] }
    guestType.resolve = .ok m
      ∧ Document.pipelineOf c m.idField true
        = .ok [Document.operator "$match" (.obj [("_id", .int 5)]),
          Document.operator "$count" (.str Document.countField)]
      ∧ predicates? c.conditions = .ok [equals "uid" 5]
      ∧ (Query.counting m.table [equals "uid" 5]).text = "SELECT count(1) FROM guest WHERE uid = ?"
      ∧ (s.query "" (Query.counting m.table [equals "uid" 5]).text [.integer 5]).1
        = .error (.query "no such column: uid")
      ∧ ∃ answer, (s.query "" (Query.counting m.table [equals "id" 5]).text [.integer 5]).1
          = .ok answer ∧ readCount answer.rows = .ok 1 := by
  intro m c s
  have hreads := readsTable_counting isTableOf_guestTable.name
  obtain ⟨all, hall, -⟩ := query_count isTableOf_guestTable.name s ""
    isTableOf_guestTable.found (by decide)
  obtain ⟨answer, hanswer, hcount⟩ := query_count isTableOf_guestTable.name
    { committed := [guestTable.onlyKey 5] } ""
    (Sql.findTable_withRows isTableOf_guestTable.found _) (by decide)
  have hidentities : Sql.HoldsIdentities guestTable := by
    refine ⟨by decide +kernel, ⟨_, _, rfl, rfl, by decide⟩, ?_⟩
    simp [guestTable]
  refine ⟨by decide +kernel, rfl, rfl, by decide +kernel, ?_, answer, ?_, hcount⟩
  · exact hreads.query_unknown isTableOf_guestTable.identity isTableOf_guestTable.found
      (by decide +kernel) 5 hall
  · rw [← hanswer]
    exact hreads.query_identity (by decide +kernel) rfl isTableOf_guestTable.found hidentities 5

end DualStore
