import DualStore.Proofs.PredicateText

/-!
# Reading expressions back

The reader of expressions, on tokens of the kind that predicates have: operands, tests, and parts
with separators between them. What is read is said together with what follows it.

* `readSeparated_separated`: parts with separators;
* `readItems_values`: lists of values;
* `readComparison_test`: a test of a plain key;
* `readAnd_parts`, `readOr_parts`: conjunctions and disjunctions.
-/

namespace DualStore.Sql

open Relational (separated grammarWords isPlain)

/-! ## Parts with separators -/

/-- If a reader reads each part, then it reads the parts with separators between them, in front of
a text that goes on with no separator. -/
theorem readSeparated_separated {α β : Type} (isSeparator : Token → Bool) {separator : Token}
    (hs : isSeparator separator = true) (part : Reader β) (follows : List Token → Prop)
    (hf : ∀ rest, follows (separator :: rest)) (tokens : α → List Token) (value : α → β)
    {rest : List Token} (hrest : follows rest)
    (hstop : ∀ t, rest.head? = some t → isSeparator t = false) (items : List α) (hne : items ≠ [])
    (hpart : ∀ a ∈ items, ∀ rest, follows rest → part (tokens a ++ rest) = some (value a, rest))
    (steps : Nat) (hsteps : items.length ≤ steps) :
    readSeparated isSeparator part steps (separated separator (items.map tokens) ++ rest)
      = some (items.map value, rest) := by
  induction items generalizing steps with
  | nil => exact absurd rfl hne
  | cons a items ih =>
    cases steps with
    | zero => simp at hsteps
    | succ steps =>
      have ha := hpart a (by simp)
      cases items with
      | nil =>
        have h := ha rest hrest
        cases rest with
        | nil =>
          rw [List.append_nil] at h
          simp [readSeparated, separated, h]
        | cons t rest => simp [readSeparated, separated, h, hstop t rfl]
      | cons b items =>
        have h := ha (separator :: (separated separator ((b :: items).map tokens) ++ rest)) (hf _)
        have hmore := ih (by simp) (fun c hc => hpart c (List.mem_cons_of_mem a hc)) steps
          (by simpa using hsteps)
        rw [List.map_cons] at h hmore
        simp only [List.map_cons, separated, List.append_assoc, List.cons_append, readSeparated, h,
          hs, ↓reduceIte, hmore, Option.map_some]

theorem length_le_separated (separator : Token) (parts : List (List Token)) :
    parts.length ≤ (separated separator parts).length + 1 := by
  induction parts with
  | nil => simp
  | cons p parts ih =>
    cases parts with
    | nil => simp
    | cons q parts =>
      simp only [separated, List.length_append, List.length_cons] at ih ⊢
      omega

/-- The operand that a key is read as: a column, unless it spells a number. -/
def keyExpr (key : String) : Expr ColumnName :=
  match numberOfWord false key with
  | some d => .value d
  | none => .column (.ofWord key)

theorem readOperand_key (inner : Reader (Expr ColumnName)) {key : String}
    (hk : isPlain key = true) {t : Token} (ht : t.isMark "(" = false) (rest : List Token) :
    readOperand inner (.word key :: t :: rest) = some (keyExpr key, t :: rest) := by
  have hnull : foldCase key ≠ "null" := by
    intro h
    simp [isPlain, h, grammarWords] at hk
  cases t with
  | mark s =>
    have hs : s ≠ "(" := by simpa [Token.isMark] using ht
    cases hn : numberOfWord false key <;> simp [readOperand, keyExpr, hs, hn, hnull]
  | _ => cases hn : numberOfWord false key <;> simp [readOperand, keyExpr, hn, hnull]

/-- Whether a token ends a comparison that could already be complete. -/
def endsComparison : Token → Bool
  | .mark s => (CompareOp.ofMark? s).isNone
  | .word s => !(["is", "not", "between", "in", "like"].contains (foldCase s))
  | _ => true

/-- What follows does not go on with a comparison. -/
def Ends (rest : List Token) : Prop := ∀ t, rest.head? = some t → endsComparison t = true

theorem readComparison_operand {inner : Reader (Expr ColumnName)} {ts rest : List Token}
    {a : Expr ColumnName} (h : readOperand inner ts = some (a, rest)) (hr : Ends rest) :
    readComparison inner ts = some (a, rest) := by
  unfold readComparison
  rw [h]
  cases rest with
  | nil => rfl
  | cons t rest =>
    have ht := hr t rfl
    cases t with
    | mark s =>
      have hs : CompareOp.ofMark? s = none := by simpa [endsComparison] using ht
      simp [hs]
    | word s =>
      simp [endsComparison] at ht
      simp [Token.isWord, ht]
    | _ => rfl


/-! ## Items -/

/-- The value of a token that is a value. -/
def Token.datum? : Token → Option Datum
  | .parameter d => some d
  | .text s => some (.text s)
  | _ => none

/-- An item of a list or an argument of a call ends here. -/
def Closes (rest : List Token) : Prop :=
  ∃ s more, rest = .mark s :: more ∧ (s = "," ∨ s = ")")

/-- A reader that reads single values inside parentheses. -/
def ReadsValues (inner : Reader (Expr ColumnName)) : Prop :=
  ∀ t d rest, t.datum? = some d → Closes rest → inner (t :: rest) = some (.value d, rest)

theorem readItems_values {inner : Reader (Expr ColumnName)} (hin : ReadsValues inner)
    {α : Type} (token : α → Token) (datum : α → Datum) (items : List α) (hne : items ≠ [])
    (h : ∀ a ∈ items, (token a).datum? = some (datum a)) (rest : List Token) :
    readItems inner (separated (.mark ",") (items.map fun a => [token a]) ++ .mark ")" :: rest)
      = some (items.map fun a => .value (datum a), rest) := by
  have hlen := length_le_separated (.mark ",") (items.map fun a => [token a])
  rw [List.length_map] at hlen
  have hcloses : Closes (.mark ")" :: rest) := ⟨")", rest, rfl, Or.inr rfl⟩
  have hread := readSeparated_separated (Token.isMark ",") rfl inner Closes
    (fun more => ⟨",", more, rfl, Or.inl rfl⟩) (fun a => [token a]) (fun a => .value (datum a))
    hcloses
    (by intro t ht; simp only [List.head?_cons, Option.some.injEq] at ht; rw [← ht]; rfl)
    items hne (fun a ha more hmore => hin (token a) (datum a) more (h a ha) hmore)
    ((separated (.mark ",") (items.map fun a => [token a]) ++ .mark ")" :: rest).length + 1)
    (by rw [List.length_append]; omega)
  simp only [readItems, hread, Option.bind_eq_bind, Option.bind_some]
  rfl

end DualStore.Sql

namespace DualStore.Relational

open Sql

/-! ## Expressions of tests -/

/-- The comparison of expressions that a comparison is written as. -/
def Comparison.op : Comparison → CompareOp
  | .eq => .eq
  | .ne => .ne
  | .lt => .lt
  | .le => .le
  | .gt => .gt
  | .ge => .ge

def valueExpr (v : Value) : Expr ColumnName := .value (.ofValue v)

def Test.expr (a : Expr ColumnName) : Test → Expr ColumnName
  | .compare operator v => .compare operator.op a (valueExpr v)
  | .isNull negated => .isNull negated a
  | .between negated low high => .between negated a (valueExpr low) (valueExpr high)
  | .isIn negated values => .isIn negated a (values.map valueExpr)
  | .like negated v =>
    .like negated a (.call "concat" [.value (.text "%"), valueExpr v, .value (.text "%")])

end DualStore.Relational

namespace DualStore.Sql

open Relational

theorem ofMark?_symbol (operator : Comparison) :
    CompareOp.ofMark? operator.symbol = some operator.op := by
  cases operator <;> rfl

theorem readOperand_bound (inner : Reader (Expr ColumnName)) (v : Value) (rest : List Token) :
    readOperand inner (bound v :: rest) = some (valueExpr v, rest) := rfl

theorem readWordTest_between (inner : Reader (Expr ColumnName)) (a : Expr ColumnName)
    (negated : Bool) (low high : Value) (rest : List Token) :
    readWordTest inner a negated
      (.word "between" :: bound low :: .word "and" :: bound high :: rest)
      = some ((Test.between negated low high).expr a, rest) := rfl

theorem readWordTest_in {inner : Reader (Expr ColumnName)} (hin : ReadsValues inner)
    (a : Expr ColumnName) (negated : Bool) {values : List Value} (hne : values ≠ [])
    (rest : List Token) :
    readWordTest inner a negated (.word "in" :: .mark "(" ::
      (separated (.mark ",") (values.map fun v => [bound v]) ++ .mark ")" :: rest))
      = some ((Test.isIn negated values).expr a, rest) := by
  have h := readItems_values hin bound Datum.ofValue values hne (fun v _ => rfl) rest
  have hb : Token.isWord "between" (.word "in") = false := rfl
  have hi : Token.isWord "in" (.word "in") = true := rfl
  simp [readWordTest, hb, hi, afterMark, Token.isMark, h, Test.expr, valueExpr]

theorem readWordTest_like {inner : Reader (Expr ColumnName)} (hin : ReadsValues inner)
    (a : Expr ColumnName) (negated : Bool) (v : Value) (rest : List Token) :
    readWordTest inner a negated (.word "like" :: .word "concat" :: .mark "(" :: .text "%"
      :: .mark "," :: bound v :: .mark "," :: .text "%" :: .mark ")" :: rest)
      = some ((Test.like negated v).expr a, rest) := by
  have h := readItems_values hin id (fun t => t.datum?.getD .null)
    [.text "%", bound v, .text "%"] (by simp) (by simp [Token.datum?, bound]) rest
  simp only [List.map_cons, List.map_nil, id_eq, separated, List.cons_append, List.nil_append] at h
  have hoperand : readOperand inner (.word "concat" :: .mark "(" :: .text "%"
      :: .mark "," :: bound v :: .mark "," :: .text "%" :: .mark ")" :: rest)
      = some (.call "concat" [.value (.text "%"), valueExpr v, .value (.text "%")], rest) := by
    rw [readOperand, h]
    · rfl
    · simp
  have hb : Token.isWord "between" (.word "like") = false := rfl
  have hi : Token.isWord "in" (.word "like") = false := rfl
  have hl : Token.isWord "like" (.word "like") = true := rfl
  simp [readWordTest, hb, hi, hl, hoperand, Test.expr]

/-- A comparison whose operand is followed by a word that turns the test around or by the test. -/
theorem readComparison_word {inner : Reader (Expr ColumnName)} {ts rest : List Token}
    {a : Expr ColumnName} {result : Expr ColumnName × List Token} (negated : Bool) {s : String}
    (hs : s = "between" ∨ s = "in" ∨ s = "like")
    (ha : readOperand inner ts = some (a, negationTokens negated ++ .word s :: rest))
    (ht : readWordTest inner a negated (.word s :: rest) = some result) :
    readComparison inner ts = some result := by
  cases negated with
  | true =>
    have hi : Token.isWord "is" (.word "not") = false := rfl
    have hn : Token.isWord "not" (.word "not") = true := rfl
    simp only [negationTokens, ↓reduceIte, List.cons_append, List.nil_append] at ha
    simp [readComparison, ha, hi, hn, ht]
  | false =>
    simp only [negationTokens, Bool.false_eq_true, ↓reduceIte, List.nil_append] at ha
    have hi : Token.isWord "is" (.word s) = false := by rcases hs with rfl | rfl | rfl <;> rfl
    have hn : Token.isWord "not" (.word s) = false := by rcases hs with rfl | rfl | rfl <;> rfl
    have hw : (Token.isWord "between" (.word s) || Token.isWord "in" (.word s)
        || Token.isWord "like" (.word s)) = true := by
      rcases hs with rfl | rfl | rfl <;> rfl
    simp [readComparison, ha, hi, hn, hw, ht]

theorem head_tokens (t : Test) (rest : List Token) :
    ∃ first more, t.tokens bound ++ rest = first :: more ∧ first.isMark "(" = false := by
  cases t with
  | compare operator v => exact ⟨_, _, rfl, by cases operator <;> rfl⟩
  | isNull negated => exact ⟨_, _, rfl, rfl⟩
  | between negated low high => cases negated <;> exact ⟨_, _, rfl, rfl⟩
  | isIn negated values => cases negated <;> exact ⟨_, _, rfl, rfl⟩
  | like negated v => cases negated <;> exact ⟨_, _, rfl, rfl⟩

/-- A test of a plain key is read as its expression. -/
theorem readComparison_test {inner : Reader (Expr ColumnName)} (hin : ReadsValues inner)
    {key : String} (hk : isPlain key = true) {t : Test} (ht : t.IsRegular) (rest : List Token) :
    readComparison inner (.word key :: (t.tokens bound ++ rest))
      = some (t.expr (keyExpr key), rest) := by
  obtain ⟨first, more, hhead, hmark⟩ := head_tokens t rest
  have ha : readOperand inner (.word key :: (t.tokens bound ++ rest))
      = some (keyExpr key, t.tokens bound ++ rest) := by
    rw [hhead]
    exact readOperand_key inner hk hmark more
  cases t with
  | compare operator v =>
    simp only [Test.tokens, List.cons_append, List.nil_append] at ha ⊢
    simp [readComparison, ha, ofMark?_symbol, readOperand_bound, Test.expr]
  | isNull negated =>
    have his : Token.isWord "is" (.word "is") = true := rfl
    cases negated with
    | false =>
      have hnull : Token.isWord "null" (.word "null") = true := rfl
      simp only [Test.tokens, negationTokens, Bool.false_eq_true, ↓reduceIte, List.cons_append,
        List.nil_append] at ha ⊢
      simp [readComparison, ha, his, hnull, afterWord, Test.expr]
    | true =>
      have hnull : Token.isWord "null" (.word "null") = true := rfl
      have hnot : Token.isWord "not" (.word "not") = true := rfl
      have hother : Token.isWord "null" (.word "not") = false := rfl
      simp only [Test.tokens, negationTokens, ↓reduceIte, List.cons_append,
        List.nil_append] at ha ⊢
      simp [readComparison, ha, his, hnull, hnot, hother, afterWord, Test.expr]
  | between negated low high =>
    refine readComparison_word negated (Or.inl rfl) ?_
      (readWordTest_between inner (keyExpr key) negated low high rest)
    simpa [Test.tokens] using ha
  | isIn negated values =>
    refine readComparison_word negated (Or.inr (Or.inl rfl)) ?_
      (readWordTest_in hin (keyExpr key) negated ht rest)
    simpa [Test.tokens] using ha
  | like negated v =>
    refine readComparison_word negated (Or.inr (Or.inr rfl)) ?_
      (readWordTest_like hin (keyExpr key) negated v rest)
    simpa [Test.tokens] using ha

/-! ## Conjunctions and disjunctions -/

/-- A conjunction that could be complete ends here. -/
def EndsConjunction (rest : List Token) : Prop :=
  Ends rest ∧ ∀ t, rest.head? = some t → t.isWord "and" = false

/-- A disjunction that could be complete ends here. -/
def EndsDisjunction (rest : List Token) : Prop :=
  EndsConjunction rest ∧ ∀ t, rest.head? = some t → t.isWord "or" = false

/-- The tokens are read as a comparison, whatever follows that ends one. -/
def ReadsPart (inner : Reader (Expr ColumnName)) (tokens : List Token) (e : Expr ColumnName) :
    Prop :=
  ∀ rest, Ends rest → afterWord "not" (tokens ++ rest) = none
    ∧ readComparison inner (tokens ++ rest) = some (e, rest)

/-- Expressions joined from left to right, of which there is at least one. -/
def chain {κ : Type} (join : Expr κ → Expr κ → Expr κ) : List (Expr κ) → Expr κ
  | [] => .value .null
  | [a] => a
  | a :: b :: rest => join a (chain join (b :: rest))

theorem combine_eq_chain {κ : Type} (join : Expr κ → Expr κ → Expr κ) (es : List (Expr κ))
    (h : es ≠ []) : combine join es = some (chain join es) := by
  induction es with
  | nil => exact absurd rfl h
  | cons a es ih =>
    cases es with
    | nil => rfl
    | cons b es => simp [combine, chain, ih (by simp)]

section

variable {α : Type} {inner : Reader (Expr ColumnName)} (tokens : α → List Token)
  (value : α → Expr ColumnName) {items : List α} {rest : List Token}

theorem readNot_part {ts : List Token} {e : Expr ColumnName} (h : ReadsPart inner ts e)
    (hr : Ends rest) (steps : Nat) : readNot inner (steps + 1) (ts ++ rest) = some (e, rest) := by
  obtain ⟨hnot, hread⟩ := h rest hr
  simp [readNot, hnot, hread]

theorem readAnd_parts (hne : items ≠ [])
    (hparts : ∀ a ∈ items, ReadsPart inner (tokens a) (value a)) (hr : EndsConjunction rest) :
    readAnd inner (separated (.word "and") (items.map tokens) ++ rest)
      = some (chain .and (items.map value), rest) := by
  have hlen := length_le_separated (.word "and") (items.map tokens)
  rw [List.length_map] at hlen
  have hword : (Token.word "and").isWord "and" = true := rfl
  have hread := readSeparated_separated (Token.isWord "and") hword
    (fun ts => readNot inner (ts.length + 1) ts) Ends
    (by intro more t ht; simp at ht; rw [← ht]; rfl) tokens value hr.1 hr.2 items hne
    (fun a ha more hmore => readNot_part (hparts a ha) hmore _)
    ((separated (.word "and") (items.map tokens) ++ rest).length + 1)
    (by rw [List.length_append]; omega)
  have hcombine := combine_eq_chain .and (items.map value) (by simpa using hne)
  simp only [readAnd, hread, hcombine, Option.bind_eq_bind, Option.bind_some]

theorem readOr_parts (hne : items ≠ [])
    (hparts : ∀ a ∈ items, ∀ more, EndsConjunction more →
      readAnd inner (tokens a ++ more) = some (value a, more)) (hr : EndsDisjunction rest) :
    readOr inner (separated (.word "or") (items.map tokens) ++ rest)
      = some (chain .or (items.map value), rest) := by
  have hlen := length_le_separated (.word "or") (items.map tokens)
  rw [List.length_map] at hlen
  have hword : (Token.word "or").isWord "or" = true := rfl
  have hread := readSeparated_separated (Token.isWord "or") hword (readAnd inner) EndsConjunction
    (by
      intro more
      constructor <;> (intro t ht; simp at ht; rw [← ht]; rfl))
    tokens value hr.1 hr.2 items hne hparts
    ((separated (.word "or") (items.map tokens) ++ rest).length + 1)
    (by rw [List.length_append]; omega)
  have hcombine := combine_eq_chain .or (items.map value) (by simpa using hne)
  simp only [readOr, hread, hcombine, Option.bind_eq_bind, Option.bind_some]

/-- A conjunction alone is a disjunction of one part. -/
theorem readOr_conjunction (hne : items ≠ [])
    (hparts : ∀ a ∈ items, ReadsPart inner (tokens a) (value a)) (hr : EndsDisjunction rest) :
    readOr inner (separated (.word "and") (items.map tokens) ++ rest)
      = some (chain .and (items.map value), rest) := by
  have hone : [()] ≠ [] := by simp
  exact readOr_parts (fun _ => separated (.word "and") (items.map tokens))
    (fun _ => chain .and (items.map value)) hone
    (fun _ _ more hmore => readAnd_parts tokens value hne hparts hmore) hr

end

theorem endsDisjunction_closing (rest : List Token) : EndsDisjunction (.mark ")" :: rest) := by
  refine ⟨⟨?_, ?_⟩, ?_⟩ <;> (intro t ht; simp at ht; rw [← ht]; rfl)

theorem endsDisjunction_nil : EndsDisjunction [] := by
  refine ⟨⟨?_, ?_⟩, ?_⟩ <;> (intro t ht; simp at ht)

/-- What a reader reads up to a closing parenthesis is a part when it stands in parentheses. -/
theorem readsPart_parens {inner : Reader (Expr ColumnName)} {tokens : List Token}
    {e : Expr ColumnName}
    (h : ∀ rest, EndsDisjunction rest → inner (tokens ++ rest) = some (e, rest)) :
    ReadsPart inner (.mark "(" :: tokens ++ [.mark ")"]) e := by
  intro rest hr
  refine ⟨rfl, ?_⟩
  have hin := h _ (endsDisjunction_closing rest)
  have hoperand : readOperand inner (.mark "(" :: (tokens ++ .mark ")" :: rest))
      = some (e, rest) := by
    simp [readOperand, hin]
  simpa using readComparison_operand hoperand hr

end DualStore.Sql
