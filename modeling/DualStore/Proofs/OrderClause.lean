import DualStore.Proofs.WhereClause
import DualStore.Relational.Statement

/-!
# The order part of a statement

The text of an order part spells the keys of the order with their directions.

* `readExpression_key`: a plain key as an expression;
* `readOrderClause?`: the keys that an order part spells;
* `orderKey`, `readOrderClause?_orderBy`: the keys of plain orders.
-/

namespace DualStore.Sql

open Relational (isPlain grammarWords)

/-! ## Keys -/

/-- A single part, where no separator follows. -/
theorem readSeparated_one {α : Type} {isSeparator : Token → Bool} {part : Reader α} {a : α}
    {ts rest : List Token} (h : part ts = some (a, rest))
    (hstop : ∀ t, rest.head? = some t → isSeparator t = false) (steps : Nat) :
    readSeparated isSeparator part (steps + 1) ts = some ([a], rest) := by
  cases rest with
  | nil => simp [readSeparated, h]
  | cons t rest => simp [readSeparated, h, hstop t rfl]

/-- A plain key is read as an expression up to a word with which no expression goes on. -/
theorem readExpression_key {key : String} (hk : isPlain key = true) {t : Token}
    {rest : List Token} (ht : t.isMark "(" = false) (hends : EndsDisjunction (t :: rest)) :
    readExpression (.word key :: t :: rest) = some (keyExpr key, t :: rest) := by
  obtain ⟨⟨hcomparison, hand⟩, hor⟩ := hends
  have hword : afterWord "not" (.word key :: t :: rest) = none := by
    have hnot : foldCase key ≠ "not" := by
      intro h
      simp [isPlain, h, grammarWords] at hk
    simp [afterWord, Token.isWord, hnot]
  have hread : ∀ inner : Reader (Expr ColumnName),
      readComparison inner (.word key :: t :: rest) = some (keyExpr key, t :: rest) :=
    fun inner => readComparison_operand (readOperand_key inner hk ht rest) hcomparison
  have hnots : ∀ (inner : Reader (Expr ColumnName)) (steps : Nat),
      readNot inner (steps + 1) (.word key :: t :: rest) = some (keyExpr key, t :: rest) := by
    intro inner steps
    simp only [readNot, hword, hread]
  have hands : ∀ inner : Reader (Expr ColumnName),
      readAnd inner (.word key :: t :: rest) = some (keyExpr key, t :: rest) := by
    intro inner
    have hone : readSeparated (Token.isWord "and") (fun ts => readNot inner (ts.length + 1) ts)
        (rest.length + 2 + 1) (.word key :: t :: rest) = some ([keyExpr key], t :: rest) := by
      refine readSeparated_one ?_ hand _
      exact hnots inner (rest.length + 2)
    simp only [readAnd, List.length_cons, hone, Option.bind_eq_bind, Option.bind_some, combine]
  have hone : readSeparated (Token.isWord "or") (readAnd (readExpr (rest.length + 2)))
      (rest.length + 2 + 1) (.word key :: t :: rest) = some ([keyExpr key], t :: rest) :=
    readSeparated_one (hands _) hor _
  have hlevels : readExpression (.word key :: t :: rest)
      = readOr (readExpr (rest.length + 2)) (.word key :: t :: rest) := rfl
  simp only [hlevels, readOr, List.length_cons, hone, Option.bind_eq_bind, Option.bind_some,
    combine]

end DualStore.Sql

namespace DualStore.Relational

open Sql

/-! ## The text -/

/-- The keys that an order part spells; an empty text spells none. -/
def readOrderClause? (text : String) : Option (List OrderKey) := do
  let tokens ← Token.scan? text
  match readOrder tokens with
  | some (keys, []) => some keys
  | _ => none

def orderKey (o : Directive) : OrderKey := ⟨keyExpr o.key, o.logic = .desc⟩

def directionWord (o : Directive) : String := if o.logic = .desc then "desc" else "asc"

def orderTokens (o : Directive) : List Token := [.word o.key, .word (directionWord o)]

theorem spells_orderText {o : Directive} (hk : isPlain o.key = true) :
    Spells (orderText o) (orderTokens o) := by
  have hword : ∀ w : List Char, w ≠ [] → w.all isWordChar = true →
      Spells (String.ofList (' ' :: w)) [.word (String.ofList w)] := by
    intro w hne hw rest others hbreaks hscans
    rw [String.toList_ofList]
    exact .space (.word hne hw hbreaks hscans)
  unfold orderText orderTokens directionWord
  split
  · exact spells_key hk (fun _ => breaks_cons rfl _) (hword ['d', 'e', 's', 'c'] (by simp) rfl)
  · exact spells_key hk (fun _ => breaks_cons rfl _) (hword ['a', 's', 'c'] (by simp) rfl)

theorem scans_orderBy {cs : List Char} {tokens : List Token} (h : Scans cs tokens) :
    Scans (" ORDER BY ".toList ++ cs) (.word "ORDER" :: .word "BY" :: tokens) :=
  .space (.word (w := ['O', 'R', 'D', 'E', 'R']) (by simp) rfl (breaks_cons rfl _)
    (.space (.word (w := ['B', 'Y']) (by simp) rfl (breaks_cons rfl _) (.space h))))

theorem readOrderKey_tokens {o : Directive} (hk : isPlain o.key = true) (rest : List Token) :
    readOrderKey (orderTokens o ++ rest) = some (orderKey o, rest) := by
  have hends : ∀ w, w = "desc" ∨ w = "asc" → EndsDisjunction (.word w :: rest) := by
    intro w hw
    refine ⟨⟨?_, ?_⟩, ?_⟩ <;>
      · intro t ht
        rw [← Option.some.inj ht]
        rcases hw with rfl | rfl <;> rfl
  have hkey : ∀ w, w = "desc" ∨ w = "asc" → readExpression (.word o.key :: .word w :: rest)
      = some (keyExpr o.key, .word w :: rest) :=
    fun w hw => readExpression_key hk rfl (hends w hw)
  by_cases hdesc : o.logic = .desc
  · have htokens : orderTokens o ++ rest = .word o.key :: .word "desc" :: rest := by
      simp [orderTokens, directionWord, hdesc]
    have hafter : afterWord "desc" (.word "desc" :: rest) = some rest := rfl
    simp only [htokens, readOrderKey, hkey _ (.inl rfl), hafter, orderKey, hdesc,
      Option.bind_eq_bind, Option.bind_some, decide_true]
  · have htokens : orderTokens o ++ rest = .word o.key :: .word "asc" :: rest := by
      simp [orderTokens, directionWord, hdesc]
    have hother : afterWord "desc" (.word "asc" :: rest) = none := rfl
    have hafter : afterWord "asc" (.word "asc" :: rest) = some rest := rfl
    simp only [htokens, readOrderKey, hkey _ (.inr rfl), hother, hafter, orderKey, hdesc,
      Option.bind_eq_bind, Option.bind_some, Option.getD_some, decide_false]

/-- **The order part of plain keys spells the keys** with their directions. -/
theorem readOrderClause?_orderBy {orders : List Directive}
    (h : ∀ o ∈ orders, isPlain o.key = true) :
    readOrderClause? (orderBy orders) = some (orders.map orderKey) := by
  by_cases hnone : orders = []
  · subst hnone
    rfl
  · have htexts : List.Forall₂ Spells (orders.map orderText) (orders.map orderTokens) := by
      rw [List.forall₂_map_left_iff, List.forall₂_map_right_iff, List.forall₂_same]
      exact fun o ho => spells_orderText (h o ho)
    have hscans := scans_orderBy (spells_joinWith separates_comma htexts [] [] breaks_nil .nil)
    have hscan : Token.scan? (orderBy orders) = some (.word "ORDER" :: .word "BY" ::
        separated (.mark ",") (orders.map orderTokens)) := by
      rw [orderBy, if_neg hnone]
      apply Scans.scan?_eq
      simpa using hscans
    have hlength := length_le_separated (.mark ",") (orders.map orderTokens)
    rw [List.length_map] at hlength
    have hcomma : Token.isMark "," (.mark ",") = true := rfl
    have hends : ∀ t, ([] : List Token).head? = some t → Token.isMark "," t = false := by simp
    have hread := readSeparated_separated (Token.isMark ",") hcomma readOrderKey (fun _ => True)
      (fun _ => trivial) orderTokens orderKey trivial hends orders hnone
      (fun o ho rest _ => readOrderKey_tokens (h o ho) rest) _ hlength
    have horder : ∀ rest, afterWord "order" (.word "ORDER" :: rest) = some rest := fun _ => rfl
    have hby : ∀ rest, afterWord "by" (.word "BY" :: rest) = some rest := fun _ => rfl
    rw [List.append_nil] at hread
    simp only [readOrderClause?, hscan, readOrder, horder, hby, hread, Option.bind_eq_bind,
      Option.bind_some]

end DualStore.Relational
