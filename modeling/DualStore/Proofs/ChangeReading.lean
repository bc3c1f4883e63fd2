import DualStore.Proofs.SelectReading
import DualStore.Relational.Statement

/-!
# Reading of inserts and updates

A statement that changes rows is put together from the name of the table, the names of columns and
question marks. Its text, with as many values as it has columns, is read as an insert or as an
update that gives each value to the column of its place.

* `readExpression_bound`: a value in the place of its question mark;
* `insertTokens`, `prepare_insert`: inserts;
* `updateTokens`, `prepare_update`: updates with a condition part.
-/

namespace DualStore.Relational

open Sql

/-! ## Values -/

/-- A value that stands in the place of its question mark is read as an expression. -/
theorem readExpression_bound (v : Value) {rest : List Token} (hrest : EndsDisjunction rest) :
    readExpression (bound v :: rest) = some (valueExpr v, rest) := by
  have hpart : ReadsPart (readExpr (rest.length + 1)) [bound v] (valueExpr v) := fun _ hends =>
    ⟨rfl, readComparison_operand (readOperand_bound _ v _) hends⟩
  have hone : [()] ≠ [] := by simp
  exact readOr_conjunction (fun _ => [bound v]) (fun _ => valueExpr v) hone (fun _ _ => hpart) hrest

theorem endsDisjunction_comma (rest : List Token) : EndsDisjunction (.mark "," :: rest) := by
  refine ⟨⟨?_, ?_⟩, ?_⟩ <;>
    · intro t ht
      rw [← Option.some.inj ht]
      rfl

/-! ## Inserts -/

/-- An insert of values for columns as tokens; `slot` is what stands for a value. -/
def insertTokens (slot : Value → Token) (table : String) (values : List (String × Value)) :
    List Token :=
  .word "INSERT" :: .word "INTO" :: .word table :: .mark "(" ::
    (separated (.mark ",") ((Keyed.keys values).map fun c => [.word c]) ++ .mark ")"
      :: .word "VALUES" :: .mark "("
      :: (separated (.mark ",") ((values.map Prod.snd).map fun v => [slot v]) ++ [.mark ")"]))

variable {table : String} {values : List (String × Value)}

theorem scan?_insert (htable : isTableName table = true)
    (hcolumns : ∀ c ∈ Keyed.keys values, isTableName c = true) :
    Token.scan? (insert table (Keyed.keys values)) = some (insertTokens unbound table values) := by
  let names := (Text.joinWith ", " (Keyed.keys values)).toList
  let marks := (placeholders (values.map Prod.snd).length).toList
  have hlength : (Keyed.keys values).length = (values.map Prod.snd).length := by simp [Keyed.keys]
  have hmarks := spells_placeholders (values.map Prod.snd) ")".toList [.mark ")"]
    (breaks_cons rfl _) (.closeParen .nil)
  have hvalues : Scans (") VALUES (".toList ++ (marks ++ ")".toList)) _ :=
    .closeParen (.space (.word (w := ['V', 'A', 'L', 'U', 'E', 'S']) (by simp) rfl
      (breaks_cons rfl _) (.space (.openParen hmarks))))
  have hcolumnNames := spells_words fun c hc => spells_name (hcolumns c hc)
  have hnames :
      Scans (" (".toList ++ (names ++ (") VALUES (".toList ++ (marks ++ ")".toList)))) _ :=
    .space (.openParen (hcolumnNames _ _ (breaks_cons rfl _) hvalues))
  have hinsert : Scans ("INSERT INTO ".toList ++ (table.toList ++ (" (".toList ++ (names ++
      (") VALUES (".toList ++ (marks ++ ")".toList)))))) (insertTokens unbound table values) :=
    .word (w := ['I', 'N', 'S', 'E', 'R', 'T']) (by simp) rfl (breaks_cons rfl _)
      (.space (.word (w := ['I', 'N', 'T', 'O']) (by simp) rfl (breaks_cons rfl _)
        (.space (spells_name htable _ _ (breaks_cons rfl _) hnames))))
  apply Scans.scan?_eq
  unfold insert
  rw [hlength]
  simpa only [String.toList_append, List.append_assoc] using hinsert

theorem fills_insertTokens :
    Fills (insertTokens unbound table values) (insertTokens bound table values)
      (values.map Prod.snd) := by
  have hmarks := (fills_slots (values.map Prod.snd)).snoc (bind?_mark ")")
  have hvalues := (Fills.of_words (Keyed.keys values)).append
    (.cons (bind?_mark ")") (.cons (bind?_word "VALUES") (.cons (bind?_mark "(") hmarks)))
  exact .cons (bind?_word "INSERT") (.cons (bind?_word "INTO") (.cons (bind?_word table)
    (.cons (bind?_mark "(") hvalues)))

/-- A closing parenthesis ends what commas separate. -/
theorem isMark_comma_closing {rest : List Token} {t : Token}
    (h : (Token.mark ")" :: rest).head? = some t) : t.isMark "," = false := by
  rw [← Option.some.inj h]
  rfl

theorem read?_insert (htable : isTableName table = true)
    (hcolumns : ∀ c ∈ Keyed.keys values, isTableName c = true) (hne : values ≠ []) :
    Command.read? (insertTokens bound table values)
      = some (.insert table (Keyed.keys values) ((values.map Prod.snd).map valueExpr)) := by
  have hcomma : Token.isMark "," (.mark ",") = true := rfl
  have hlength := length_le_separated (.mark ",") ((Keyed.keys values).map fun c => [.word c])
  have hmarks := length_le_separated (.mark ",") ((values.map Prod.snd).map fun v => [bound v])
  have hnames : ∀ rest steps, (Keyed.keys values).length ≤ steps →
      readSeparated (Token.isMark ",") readName steps
        (separated (.mark ",") ((Keyed.keys values).map fun c => [.word c]) ++ .mark ")" :: rest)
        = some (Keyed.keys values, .mark ")" :: rest) := by
    intro rest steps hsteps
    have hread := readSeparated_separated (Token.isMark ",") hcomma readName (fun _ => True)
      (fun _ => trivial) (fun c => [.word c]) id trivial
      (fun t (ht : (Token.mark ")" :: rest).head? = some t) => isMark_comma_closing ht)
      (Keyed.keys values)
      (by simpa [Keyed.keys] using hne)
      (fun c hc rest _ => readName_word (hcolumns c hc) rest) steps hsteps
    rw [List.map_id] at hread
    exact hread
  have hvalues : ∀ rest steps, (values.map Prod.snd).length ≤ steps →
      readSeparated (Token.isMark ",") readExpression steps
        (separated (.mark ",") ((values.map Prod.snd).map fun v => [bound v]) ++ .mark ")" :: rest)
        = some ((values.map Prod.snd).map valueExpr, .mark ")" :: rest) := by
    intro rest steps hsteps
    exact readSeparated_separated (Token.isMark ",") hcomma readExpression EndsDisjunction
      endsDisjunction_comma (fun v => [bound v]) valueExpr (endsDisjunction_closing rest)
      (fun t => isMark_comma_closing) (values.map Prod.snd) (by simpa using hne)
      (fun v _ rest hrest => readExpression_bound v hrest) steps hsteps
  have hinto : ∀ rest, afterWord "into" (.word "INTO" :: rest) = some rest := fun _ => rfl
  have hopen : ∀ rest, afterMark "(" (.mark "(" :: rest) = some rest := fun _ => rfl
  have hclose : ∀ rest, afterMark ")" (.mark ")" :: rest) = some rest := fun _ => rfl
  have hword : ∀ rest, afterWord "values" (.word "VALUES" :: rest) = some rest := fun _ => rfl
  have hany : Command.readAny (insertTokens bound table values)
      = some (.insert table (Keyed.keys values) ((values.map Prod.snd).map valueExpr), []) := by
    have hinsert : Token.isWord "insert" (.word "INSERT") = true := rfl
    have hselect : ¬Token.isWord "select" (.word "INSERT") = true := by decide
    rw [List.length_map] at hlength hmarks
    rw [insertTokens, Command.readAny, if_neg hselect, if_pos hinsert, Command.readInsert]
    simp only [hinto, readName_word htable, hopen, Option.bind_eq_bind, Option.bind_some]
    rw [hnames _ _ (by simp only [List.length_append]; omega)]
    simp only [hclose, hword, hopen, Option.bind_some]
    rw [hvalues _ _ (by simp only [List.length_append]; omega)]
    rfl
  rw [Command.read?, hany]

/-- **An insert is read as giving each value to the column of its place.** -/
theorem prepare_insert (htable : isTableName table = true)
    (hcolumns : ∀ c ∈ Keyed.keys values, isTableName c = true) (hne : values ≠ []) :
    prepare (insert table (Keyed.keys values)) (values.map Prod.snd)
      = .ok (.insert table (Keyed.keys values) ((values.map Prod.snd).map valueExpr)) := by
  rw [prepare, scan?_insert htable hcolumns]
  simp only [fills_insertTokens.bind?_eq, read?_insert htable hcolumns hne]

/-! ## Updates -/

/-- The tokens of an assignment. -/
def assignmentTokens (slot : Value → Token) (v : String × Value) : List Token :=
  [.word v.1, .mark "=", slot v.2]

/-- An update of columns with a condition part as tokens. -/
def updateTokens (slot : Value → Token) (table : String) (values : List (String × Value))
    (ps : List Predicate) : List Token :=
  .word "UPDATE" :: .word table :: .word "SET" ::
    (separated (.mark ",") (values.map (assignmentTokens slot)) ++ clauseTokens slot ps)

variable {ps : List Predicate}

theorem spells_assignments (hcolumns : ∀ c ∈ Keyed.keys values, isTableName c = true) :
    Spells (assignmentsText (Keyed.keys values))
      (separated (.mark ",") (values.map (assignmentTokens unbound))) := by
  rw [assignmentsText, Keyed.keys, List.map_map]
  apply spells_joinWith separates_comma
  rw [List.forall₂_map_left_iff, List.forall₂_map_right_iff, List.forall₂_same]
  intro v hv rest others hbreaks hscans
  have hmark : Scans (" = ?".toList ++ rest) (.mark "=" :: .question :: others) :=
    .space (.mark (c := '=') (by simp) rfl (Nat.le_refl _) (.space (.question hscans)))
  have hname : Scans (v.1.toList ++ (" = ?".toList ++ rest))
      (assignmentTokens unbound v ++ others) :=
    spells_name (hcolumns v.1 (Keyed.mem_keys hv)) _ _ (breaks_cons rfl _) hmark
  simpa only [Function.comp_apply, String.toList_append, List.append_assoc] using hname

theorem scan?_update (htable : isTableName table = true)
    (hcolumns : ∀ c ∈ Keyed.keys values, isTableName c = true) (hps : Predicate.AreRegular ps) :
    Token.scan? ("UPDATE " ++ table ++ " SET " ++ assignmentsText (Keyed.keys values)
      ++ clauseText ps) = some (updateTokens unbound table values ps) := by
  have hsets := spells_assignments hcolumns _ _ (breaks_clauseText ps) (scans_clauseText hps)
  have hset : Scans (" SET ".toList ++ ((assignmentsText (Keyed.keys values)).toList
      ++ (clauseText ps).toList)) _ :=
    .space (.word (w := ['S', 'E', 'T']) (by simp) rfl (breaks_cons rfl _) (.space hsets))
  have hupdate : Scans ("UPDATE ".toList ++ (table.toList ++ (" SET ".toList
      ++ ((assignmentsText (Keyed.keys values)).toList ++ (clauseText ps).toList))))
      (updateTokens unbound table values ps) :=
    .word (w := ['U', 'P', 'D', 'A', 'T', 'E']) (by simp) rfl (breaks_cons rfl _)
      (.space (spells_name htable _ _ (breaks_cons rfl _) hset))
  apply Scans.scan?_eq
  simpa only [String.toList_append, List.append_assoc] using hupdate

theorem fills_assignments (values : List (String × Value)) :
    Fills (separated (.mark ",") (values.map (assignmentTokens unbound)))
      (separated (.mark ",") (values.map (assignmentTokens bound))) (values.map Prod.snd) := by
  have hone : ∀ v, Fills (assignmentTokens unbound v) (assignmentTokens bound v) [v.2] :=
    fun v => .cons (bind?_word v.1) (.cons (bind?_mark "=") (.slot v.2))
  induction values with
  | nil => exact .nil
  | cons v values ih =>
    cases values with
    | nil => exact hone v
    | cons w values => exact (hone v).append (.cons (bind?_mark ",") ih)

/-- What follows an assignment: another one, or the condition part. -/
theorem endsDisjunction_clauseTokens (ps : List Predicate) :
    EndsDisjunction (clauseTokens bound ps) := by
  unfold clauseTokens
  split
  · exact endsDisjunction_nil
  · refine ⟨⟨?_, ?_⟩, ?_⟩ <;>
      · intro t ht
        rw [← Option.some.inj ht]
        rfl

theorem readSet_assignment {v : String × Value} (hname : isTableName v.1 = true)
    {rest : List Token} (hrest : EndsDisjunction rest) :
    readSet (assignmentTokens bound v ++ rest) = some ((v.1, valueExpr v.2), rest) := by
  have hmark : ∀ rest, afterMark "=" (.mark "=" :: rest) = some rest := fun _ => rfl
  simp only [assignmentTokens, List.cons_append, List.nil_append, readSet, readName_word hname,
    hmark, readExpression_bound v.2 hrest, Option.bind_eq_bind, Option.bind_some]

theorem read?_update (htable : isTableName table = true)
    (hcolumns : ∀ c ∈ Keyed.keys values, isTableName c = true) (hne : values ≠ [])
    (hps : Predicate.AreRegular ps) :
    Command.read? (updateTokens bound table values ps)
      = some (.update table (values.map fun v => (v.1, valueExpr v.2)) (conditionOf ps)) := by
  have hcomma : Token.isMark "," (.mark ",") = true := rfl
  have hlength := length_le_separated (.mark ",") (values.map (assignmentTokens bound))
  have hstop : ∀ t, (clauseTokens bound ps).head? = some t → t.isMark "," = false := by
    unfold clauseTokens
    split
    · simp
    · intro t ht
      rw [← Option.some.inj ht]
      rfl
  have hsets : ∀ steps, values.length ≤ steps →
      readSeparated (Token.isMark ",") readSet steps
        (separated (.mark ",") (values.map (assignmentTokens bound)) ++ clauseTokens bound ps)
        = some (values.map fun v => (v.1, valueExpr v.2), clauseTokens bound ps) :=
    readSeparated_separated (Token.isMark ",") hcomma readSet EndsDisjunction
      endsDisjunction_comma (assignmentTokens bound) (fun v => (v.1, valueExpr v.2))
      (endsDisjunction_clauseTokens ps) hstop values hne
      fun v hv rest hrest => readSet_assignment (hcolumns v.1 (Keyed.mem_keys hv)) hrest
  have hset : ∀ rest, afterWord "set" (.word "SET" :: rest) = some rest := fun _ => rfl
  have hany : Command.readAny (updateTokens bound table values ps)
      = some (.update table (values.map fun v => (v.1, valueExpr v.2)) (conditionOf ps), []) := by
    have hselect : ¬Token.isWord "select" (.word "UPDATE") = true := by decide
    have hinsert : ¬Token.isWord "insert" (.word "UPDATE") = true := by decide
    have hupdate : Token.isWord "update" (.word "UPDATE") = true := rfl
    rw [List.length_map] at hlength
    rw [updateTokens, Command.readAny, if_neg hselect, if_neg hinsert, if_pos hupdate,
      Command.readUpdate]
    simp only [hset, readName_word htable, Option.bind_eq_bind, Option.bind_some]
    rw [hsets _ (by simp only [List.length_append]; omega)]
    simp only [readCondition_clauseTokens hps, Option.bind_some]
  rw [Command.read?, hany]

/-- **An update is read as giving each value to the column of its place** in the rows of which the
condition part is true. -/
theorem prepare_update (htable : isTableName table = true)
    (hcolumns : ∀ c ∈ Keyed.keys values, isTableName c = true) (hne : values ≠ [])
    (hps : Predicate.AreRegular ps) :
    prepare ("UPDATE " ++ table ++ " SET " ++ assignmentsText (Keyed.keys values) ++ clauseText ps)
        (values.map Prod.snd ++ Predicate.allParameters ps)
      = .ok (.update table (values.map fun v => (v.1, valueExpr v.2)) (conditionOf ps)) := by
  have hfills : Fills (updateTokens unbound table values ps) (updateTokens bound table values ps)
      (values.map Prod.snd ++ Predicate.allParameters ps) :=
    .cons (bind?_word "UPDATE") (.cons (bind?_word table) (.cons (bind?_word "SET")
      ((fills_assignments values).append (fills_clauseTokens ps))))
  rw [prepare, scan?_update htable hcolumns hps]
  simp only [hfills.bind?_eq, read?_update htable hcolumns hne hps]

end DualStore.Relational
