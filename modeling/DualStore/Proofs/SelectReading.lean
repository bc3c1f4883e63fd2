import DualStore.Proofs.DateRows

/-!
# Reading of selects

A select of one table is put together from what is selected, the name of the table and a condition
part. Its text, with values for its question marks, is read as these parts.

* `clauseTokens`, `readCondition_clauseTokens`: the condition part as tokens;
* `SpellsItems`: texts of what is selected;
* `isColumnName`, `isTableName`: names that a statement can have for columns and tables;
* `spellsItems_columns`, `spellsItems_count`: columns, and the number of rows;
* `spells_name`, `readName_word`: the name of a table;
* `prepare_select`: the main statement.
-/

namespace DualStore.Relational

open Sql

/-! ## The condition part -/

/-- The tokens of the condition part of a statement; `slot` is what stands for a value. -/
def clauseTokens (slot : Value → Token) (ps : List Predicate) : List Token :=
  if ps = [] then []
  else .word "WHERE" :: separated (.word "and") (Predicate.tokensOfAll slot ps)

theorem breaks_clauseText (ps : List Predicate) : Breaks (clauseText ps).toList := by
  cases ps with
  | nil => exact breaks_nil
  | cons p ps =>
    rw [clauseText, String.toList_append]
    · exact breaks_cons rfl _
    · simp

theorem scans_clauseText {ps : List Predicate} (h : Predicate.AreRegular ps) :
    Scans (clauseText ps).toList (clauseTokens unbound ps) := by
  cases ps with
  | nil => exact .nil
  | cons p ps =>
    have hspells := spells_joinWith separates_and (Predicate.spells_texts (p :: ps) h)
    have hscans := scans_where (hspells [] [] breaks_nil .nil)
    rw [List.append_nil, List.append_nil] at hscans
    rw [clauseTokens, if_neg (by simp), clauseText, String.toList_append]
    · exact hscans
    · simp

theorem fills_clauseTokens (ps : List Predicate) :
    Fills (clauseTokens unbound ps) (clauseTokens bound ps) (Predicate.allParameters ps) := by
  cases ps with
  | nil => exact .nil
  | cons p ps =>
    rw [clauseTokens, clauseTokens, if_neg (by simp), if_neg (by simp)]
    exact .cons (bind?_word "WHERE") (Predicate.fills_tokensOfAll (p :: ps))

theorem readCondition_clauseTokens {ps : List Predicate} (h : Predicate.AreRegular ps) :
    readCondition (clauseTokens bound ps) = some (conditionOf ps, []) := by
  cases ps with
  | nil => rfl
  | cons p ps =>
    have hread := Predicate.readExpression_tokens (by simp) h endsDisjunction_nil
    have hwhere : ∀ rest, afterWord "where" (.word "WHERE" :: rest) = some rest := fun _ => rfl
    rw [List.append_nil] at hread
    rw [clauseTokens, if_neg (by simp), readCondition, hwhere]
    simp only [hread, Option.map_some]
    rfl

/-! ## What is selected -/

/-- A text that is read as what a select selects, in front of the table. -/
structure SpellsItems (text : String) (tokens : List Token) (items : List SelectItem) : Prop where
  spells : Spells text tokens
  fixed : Fills tokens tokens []
  plain : ∀ rest, afterWord "distinct" (tokens ++ .word "FROM" :: rest) = none
  read : ∀ rest steps, tokens.length ≤ steps →
    readSeparated (Token.isMark ",") readItem (steps + 1) (tokens ++ .word "FROM" :: rest)
      = some (items, .word "FROM" :: rest)

/-- Whether a name can stand for a column that is selected. -/
def isColumnName (name : String) : Bool := isPlain name && foldCase name ≠ "distinct"

theorem Fills.of_words (words : List String) :
    Fills (separated (.mark ",") (words.map fun w => [.word w]))
      (separated (.mark ",") (words.map fun w => [.word w])) [] := by
  induction words with
  | nil => exact .nil
  | cons w words ih =>
    cases words with
    | nil => exact .cons (bind?_word w) .nil
    | cons next rest => exact .cons (bind?_word w) (.cons (bind?_mark ",") ih)

/-- What follows a selected column: another one, or the table. -/
def FollowsItem (rest : List Token) : Prop :=
  ∃ t more, rest = t :: more ∧ (t = .mark "," ∨ t = .word "FROM")

theorem readItem_word {name : String} (h : isPlain name = true) {rest : List Token}
    (hrest : FollowsItem rest) :
    readItem ([.word name] ++ rest) = some (.expr (keyExpr name) none, rest) := by
  obtain ⟨t, more, rfl, ht⟩ := hrest
  have hends : EndsDisjunction (t :: more) := by
    refine ⟨⟨?_, ?_⟩, ?_⟩ <;>
      · intro u hu
        rw [← Option.some.inj hu]
        rcases ht with rfl | rfl <;> rfl
  have hmark : t.isMark "(" = false := by rcases ht with rfl | rfl <;> rfl
  have halias : readAlias (t :: more) = some (none, t :: more) := by
    rcases ht with rfl | rfl <;> rfl
  have hread := readExpression_key h hmark hends
  simp only [readItem, List.singleton_append, hread, halias, Option.bind_eq_bind,
    Option.bind_some]

/-- Columns with plain names are read as these columns. -/
theorem spellsItems_columns {columns : List String} (hne : columns ≠ [])
    (h : ∀ c ∈ columns, isColumnName c = true) :
    SpellsItems (Text.joinWith ", " columns)
      (separated (.mark ",") (columns.map fun c => [.word c])) (columnItems columns) := by
  have hplain : ∀ c ∈ columns, isPlain c = true := by
    intro c hc
    exact (Bool.and_eq_true_iff.mp (h c hc)).1
  refine ⟨?_, .of_words columns, ?_, ?_⟩
  · refine spells_words fun c hc => ?_
    have hword := hplain c hc
    simp only [isPlain, ne_eq, Bool.and_eq_true, decide_eq_true_eq] at hword
    exact spells_word hword.1.1 hword.1.2
  · intro rest
    cases columns with
    | nil => exact absurd rfl hne
    | cons c columns =>
      have hother : foldCase c ≠ "distinct" := by
        have hc := h c List.mem_cons_self
        simp only [isColumnName, Bool.and_eq_true, decide_eq_true_eq] at hc
        exact hc.2
      cases columns <;> simp [separated, afterWord, Token.isWord, hother]
  · intro rest steps hsteps
    have hlength := length_le_separated (.mark ",") (columns.map fun c => [Token.word c])
    rw [List.length_map] at hlength
    refine readSeparated_separated (Token.isMark ",") rfl readItem FollowsItem
      (fun rest => ⟨_, rest, rfl, .inl rfl⟩) (fun c => [.word c]) (fun c => .expr (keyExpr c) none)
      ⟨_, rest, rfl, .inr rfl⟩ ?_ columns hne
      (fun c hc rest hrest => readItem_word (hplain c hc) hrest) _ (by omega)
    intro t ht
    rw [← Option.some.inj ht]
    rfl

/-- What a statement that counts selects. -/
def countItems : List SelectItem := [.expr (.call "count" [.value (.integer 1)]) none]

/-- The number of rows is read as such. -/
theorem spellsItems_count : SpellsItems "count(1)"
    [.word "count", .mark "(", .word "1", .mark ")"] countItems := by
  refine ⟨?_, ?_, fun _ => rfl, ?_⟩
  · intro rest others hbreaks hscans
    exact .word (w := ['c', 'o', 'u', 'n', 't']) (by simp) rfl (breaks_cons rfl _)
      (.openParen (.word (w := ['1']) (by simp) rfl (breaks_cons rfl _) (.closeParen hscans)))
  · exact .cons (bind?_word _) (.cons (bind?_mark _) (.cons (bind?_word _)
      (.cons (bind?_mark _) .nil)))
  · intro rest steps _
    rfl

/-! ## The statement -/

/-- Whether a table can have a name in a statement. -/
def isTableName (name : String) : Bool :=
  name ≠ "" && name.toList.all isWordChar && !clauseWords.contains (foldCase name)

theorem spells_name {name : String} (h : isTableName name = true) : Spells name [.word name] := by
  simp only [isTableName, ne_eq, Bool.and_eq_true, decide_eq_true_eq] at h
  exact spells_word h.1.1 h.1.2

theorem readName_word {name : String} (h : isTableName name = true) (rest : List Token) :
    readName (.word name :: rest) = some (name, rest) := by
  simp only [isTableName, Bool.and_eq_true, Bool.not_eq_true', List.contains_eq_mem,
    decide_eq_false_iff_not] at h
  rw [readName, if_neg h.2]

/-- A select of a table as tokens. -/
def selectTokens (slot : Value → Token) (items : List Token) (table : String)
    (ps : List Predicate) : List Token :=
  .word "SELECT" :: (items ++ .word "FROM" :: .word table :: clauseTokens slot ps)

variable {text table : String} {tokens : List Token} {items : List SelectItem}
  {ps : List Predicate}

theorem scan?_select (hitems : SpellsItems text tokens items) (htable : isTableName table = true)
    (hps : Predicate.AreRegular ps) :
    Token.scan? ("SELECT " ++ text ++ " FROM " ++ table ++ clauseText ps)
      = some (selectTokens unbound tokens table ps) := by
  have hname := spells_name htable _ _ (breaks_clauseText ps) (scans_clauseText hps)
  have hfrom : Scans (" FROM ".toList ++ (table.toList ++ (clauseText ps).toList))
      (.word "FROM" :: .word table :: clauseTokens unbound ps) :=
    .space (.word (w := ['F', 'R', 'O', 'M']) (by simp) rfl (breaks_cons rfl _) (.space hname))
  have hselect : Scans ("SELECT ".toList ++ (text.toList ++
      (" FROM ".toList ++ (table.toList ++ (clauseText ps).toList))))
      (selectTokens unbound tokens table ps) :=
    .word (w := ['S', 'E', 'L', 'E', 'C', 'T']) (by simp) rfl (breaks_cons rfl _)
      (.space (hitems.spells _ _ (breaks_cons rfl _) hfrom))
  apply Scans.scan?_eq
  simpa only [String.toList_append, List.append_assoc] using hselect

theorem read?_select (hitems : SpellsItems text tokens items) (htable : isTableName table = true)
    (hps : Predicate.AreRegular ps) :
    Command.read? (selectTokens bound tokens table ps)
      = some (.select (.ofTables false items ⟨table, none⟩ [] (conditionOf ps) [] [] none)) := by
  have hname := readName_word htable (clauseTokens bound ps)
  have halias : readAlias (clauseTokens bound ps) = some (none, clauseTokens bound ps) := by
    unfold clauseTokens
    split <;> rfl
  have hjoins : ∀ steps, readJoins (steps + 1) (clauseTokens bound ps)
      = some ([], clauseTokens bound ps) := by
    intro steps
    unfold clauseTokens
    split <;> rfl
  have hfrom : ∀ rest, afterWord "from" (.word "FROM" :: rest) = some rest := fun _ => rfl
  have hplain : ∀ name rest, afterMark "(" (.word name :: rest) = none := fun _ _ => rfl
  have hitemsRead := hitems.read (.word table :: clauseTokens bound ps)
    (tokens ++ .word "FROM" :: .word table :: clauseTokens bound ps).length (by simp)
  have hselection : ∀ levels, readSelection (levels + 1)
      (tokens ++ .word "FROM" :: .word table :: clauseTokens bound ps)
        = some (.ofTables false items ⟨table, none⟩ [] (conditionOf ps) [] [] none, []) := by
    intro levels
    simp only [readSelection, hitems.plain, hitemsRead, hfrom, hplain, readTable, hname, halias,
      hjoins, readCondition_clauseTokens hps, Option.bind_eq_bind, Option.bind_some]
    rfl
  have hany : Command.readAny (selectTokens bound tokens table ps) = some
      (.select (.ofTables false items ⟨table, none⟩ [] (conditionOf ps) [] [] none), []) := by
    have hword : Token.isWord "select" (.word "SELECT") = true := rfl
    rw [selectTokens, Command.readAny, if_pos hword, hselection]
    rfl
  rw [Command.read?, hany]

/-- **A select of a table is read as its parts**: what is selected, the table, and the condition
of its predicates with their values. -/
theorem prepare_select (hitems : SpellsItems text tokens items)
    (htable : isTableName table = true) (hps : Predicate.AreRegular ps) :
    prepare ("SELECT " ++ text ++ " FROM " ++ table ++ clauseText ps) (Predicate.allParameters ps)
      = .ok (.select (.ofTables false items ⟨table, none⟩ [] (conditionOf ps) [] [] none)) := by
  have hfills : Fills (selectTokens unbound tokens table ps) (selectTokens bound tokens table ps)
      (Predicate.allParameters ps) :=
    .cons (bind?_word "SELECT") (hitems.fixed.append (.cons (bind?_word "FROM")
      (.cons (bind?_word table) (fills_clauseTokens ps))))
  rw [prepare, scan?_select hitems htable hps]
  simp only [hfills.bind?_eq, read?_select hitems htable hps]

end DualStore.Relational
