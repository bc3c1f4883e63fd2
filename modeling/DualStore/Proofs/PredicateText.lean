import Mathlib.Data.List.Forall2
import DualStore.Proofs.Scan
import DualStore.Relational.Where
import DualStore.Sql.Expr

/-!
# Predicates as tokens

The text of a predicate is scanned into the tokens that its structure says, with one question mark
for each of its values, and binding the values of the predicate puts each of them in the place of
its own question mark.

* `IsPlain`: keys that are one word and no word of the grammar;
* `Predicate.tokens`: the tokens of a predicate, with a token of choice for each value;
* `Predicate.spells_text`: the text of a predicate has these tokens;
* `Predicate.fills_tokens`: the values of a predicate take the places of its question marks.
-/

namespace DualStore.Relational

open Sql

/-! ## Plain keys -/

/-- The words that the grammar of expressions keeps for itself. -/
def grammarWords : List String := ["and", "or", "not", "is", "null", "between", "in", "like"]

/-- Whether a key is one word of a statement that the grammar does not keep for itself. -/
def isPlain (key : String) : Bool :=
  key ≠ "" && key.toList.all isWordChar && !grammarWords.contains (foldCase key)

/-! ## Tokens -/

/-- Lists of tokens with a separator between neighbours. -/
def separated (separator : Token) : List (List Token) → List Token
  | [] => []
  | [part] => part
  | part :: next :: rest => part ++ separator :: separated separator (next :: rest)

/-- The word that turns a test around. -/
def negationTokens (negated : Bool) : List Token := if negated then [.word "not"] else []

/-- The tokens of a test behind its key; `slot` is what stands for a value. -/
def Test.tokens (slot : Value → Token) : Test → List Token
  | .compare operator value => [.mark operator.symbol, slot value]
  | .isNull negated => .word "is" :: negationTokens negated ++ [.word "null"]
  | .between negated low high =>
    negationTokens negated ++ [.word "between", slot low, .word "and", slot high]
  | .isIn negated values =>
    negationTokens negated ++ .word "in" :: .mark "(" ::
      separated (.mark ",") (values.map fun v => [slot v]) ++ [.mark ")"]
  | .like negated value =>
    negationTokens negated ++ [.word "like", .word "concat", .mark "(", .text "%", .mark ",",
      slot value, .mark ",", .text "%", .mark ")"]

namespace Predicate

/-- The tokens of a conjunction inside a disjunction. -/
def branchTokens : List (List Token) → List Token
  | [part] => part
  | parts => .mark "(" :: separated (.word "and") parts ++ [.mark ")"]

mutual

/-- The tokens of a predicate; `slot` is what stands for a value. -/
def tokens (slot : Value → Token) : Predicate → List Token
  | .test key t => .word key :: t.tokens slot
  | .any branches =>
    .mark "(" :: separated (.word "or") (tokensOfBranches slot branches) ++ [.mark ")"]

def tokensOfAll (slot : Value → Token) : List Predicate → List (List Token)
  | [] => []
  | p :: rest => tokens slot p :: tokensOfAll slot rest

def tokensOfBranches (slot : Value → Token) : List (List Predicate) → List (List Token)
  | [] => []
  | branch :: rest => branchTokens (tokensOfAll slot branch) :: tokensOfBranches slot rest

end

/-! ## Predicates that come from conditions -/

end Predicate

/-- Whether a test has a value where it needs one. -/
def Test.IsRegular : Test → Prop
  | .isIn _ values => values ≠ []
  | _ => True

namespace Predicate

mutual

/-- A predicate with plain keys in which no list of values, no branch and no disjunction is
empty. -/
def IsRegular : Predicate → Prop
  | .test key t => isPlain key = true ∧ t.IsRegular
  | .any branches => branches ≠ [] ∧ AreRegularBranches branches

def AreRegular : List Predicate → Prop
  | [] => True
  | p :: rest => IsRegular p ∧ AreRegular rest

/-- Branches that are not empty and hold regular predicates. -/
def AreRegularBranches : List (List Predicate) → Prop
  | [] => True
  | branch :: rest => (branch ≠ [] ∧ AreRegular branch) ∧ AreRegularBranches rest

end

end Predicate

/-! ## Scanning -/

/-- The text has these tokens, whatever follows that is no part of a word. -/
def Spells (text : String) (tokens : List Token) : Prop :=
  ∀ rest others, Breaks rest → Scans rest others → Scans (text.toList ++ rest) (tokens ++ others)

/-- A text that separates others: it starts with no part of a word, and whatever may follow. -/
structure Separates (text : String) (token : Token) : Prop where
  breaks : ∀ rest, Breaks (text.toList ++ rest)
  scans : ∀ rest others, Scans rest others → Scans (text.toList ++ rest) (token :: others)

theorem separates_and : Separates " and " (.word "and") where
  breaks _ := breaks_cons rfl _
  scans _ _ h :=
    .space (.word (w := ['a', 'n', 'd']) (by simp) rfl (breaks_cons rfl _) (.space h))

theorem separates_or : Separates " or " (.word "or") where
  breaks _ := breaks_cons rfl _
  scans _ _ h :=
    .space (.word (w := ['o', 'r']) (by simp) rfl (breaks_cons rfl _) (.space h))

theorem separates_comma : Separates ", " (.mark ",") where
  breaks _ := breaks_cons rfl _
  scans _ _ h := .comma (.space h)

theorem spells_joinWith {separator : String} {token : Token} (hs : Separates separator token)
    {texts : List String} {parts : List (List Token)} (h : List.Forall₂ Spells texts parts) :
    Spells (Text.joinWith separator texts) (separated token parts) := by
  induction h with
  | nil =>
    intro rest others _ hrest
    exact hrest
  | @cons s part texts parts hfirst hmore ih =>
    cases hmore with
    | nil => exact hfirst
    | cons hnext hrest =>
      intro rest others hb hr
      rw [Text.joinWith_cons_cons]
      simp only [separated, String.toList_append, List.append_assoc, List.cons_append]
      exact hfirst _ _ (hs.breaks _) (hs.scans _ _ (ih rest others hb hr))

/-- Words with commas between them. -/
theorem spells_words {words : List String} (h : ∀ w ∈ words, Spells w [.word w]) :
    Spells (Text.joinWith ", " words) (separated (.mark ",") (words.map fun w => [.word w])) := by
  apply spells_joinWith separates_comma
  rw [List.forall₂_map_right_iff, List.forall₂_same]
  exact h

theorem spells_word {name : String} (hne : name ≠ "") (hall : name.toList.all isWordChar = true) :
    Spells name [.word name] := by
  intro rest others hbreaks hscans
  have hscan := Scans.word (by simpa using hne) hall hbreaks hscans
  rw [String.ofList_toList] at hscan
  exact hscan

theorem spells_parens {text : String} {tokens : List Token} (h : Spells text tokens) :
    Spells ("(" ++ text ++ ")") (.mark "(" :: tokens ++ [.mark ")"]) := by
  intro rest others _ hr
  simp only [String.toList_append, List.append_assoc, List.cons_append]
  exact .openParen (h _ _ (breaks_cons rfl _) (.closeParen hr))

/-- What stands for a value in a text. -/
def unbound : Value → Token := fun _ => .question

theorem spells_placeholders (values : List Value) :
    Spells (placeholders values.length)
      (separated (.mark ",") (values.map fun v => [unbound v])) := by
  apply spells_joinWith separates_comma
  induction values with
  | nil => exact .nil
  | cons v values ih =>
    refine .cons ?_ ih
    intro rest others _ hr
    exact .question hr

theorem spells_key {key text : String} {tokens : List Token} (hk : isPlain key = true)
    (hb : ∀ rest, Breaks (text.toList ++ rest)) (h : Spells text tokens) :
    Spells (key ++ text) (.word key :: tokens) := by
  intro rest others hrest hr
  simp only [isPlain, ne_eq, Bool.and_eq_true, decide_eq_true_eq] at hk
  obtain ⟨⟨hne, hall⟩, -⟩ := hk
  have hw := spells_word hne hall _ _ (hb rest) (h rest others hrest hr)
  simpa only [String.toList_append, List.append_assoc, List.cons_append, List.nil_append] using hw

theorem scans_symbol (operator : Comparison) {cs : List Char} {others : List Token}
    (h : Scans cs others) :
    Scans (operator.symbol.toList ++ ' ' :: cs) (.mark operator.symbol :: others) := by
  have hl : (' ' :: cs).length ≤ ('=' :: ' ' :: cs).length := by simp
  cases operator with
  | eq => exact .mark (c := '=') (by simp) rfl (Nat.le_refl _) (.space h)
  | ne => exact .mark (c := '<') (by simp) rfl hl (.space h)
  | lt => exact .mark (c := '<') (by simp) rfl (Nat.le_refl _) (.space h)
  | le => exact .mark (c := '<') (by simp) rfl hl (.space h)
  | gt => exact .mark (c := '>') (by simp) rfl (Nat.le_refl _) (.space h)
  | ge => exact .mark (c := '>') (by simp) rfl hl (.space h)

theorem scans_negation (negated : Bool) {cs : List Char} {others : List Token}
    (h : Scans cs others) :
    Scans ((negation negated).toList ++ cs) (negationTokens negated ++ others) := by
  cases negated with
  | false => exact h
  | true => exact .word (w := ['n', 'o', 't']) (by simp) rfl (breaks_cons rfl _) (.space h)

theorem Test.spells_text (t : Test) : Spells t.text (t.tokens unbound) := by
  intro rest others hb hr
  cases t with
  | compare operator value =>
    have h := scans_symbol operator (Scans.question hr)
    simpa [Test.text, Test.tokens, unbound] using h.space
  | isNull negated =>
    have h := Scans.word (w := ['n', 'u', 'l', 'l']) (by simp) rfl hb hr
    have h := Scans.word (w := ['i', 's']) (by simp) rfl (breaks_cons rfl _)
      (Scans.space (scans_negation negated h))
    simpa [Test.text, Test.tokens] using h.space
  | between negated low high =>
    have h : Scans
        (['b', 'e', 't', 'w', 'e', 'e', 'n'] ++ ' ' :: '?' :: (" and ".toList ++ '?' :: rest))
        (.word "between" :: .question :: .word "and" :: .question :: others) :=
      .word (by simp) rfl (breaks_cons rfl _)
        (.space (.question (separates_and.scans _ _ (.question hr))))
    simpa [Test.text, Test.tokens, unbound] using (scans_negation negated h).space
  | isIn negated values =>
    have h : Scans ('(' :: ((placeholders values.length).toList ++ ')' :: rest)) _ :=
      .openParen (spells_placeholders values _ _ (breaks_cons rfl _) (.closeParen hr))
    have h := Scans.word (w := ['i', 'n']) (by simp) rfl (breaks_cons rfl _) h
    simpa [Test.text, Test.tokens] using (scans_negation negated h).space
  | like negated value =>
    have hargs : Scans
        ('(' :: '\x27' :: '%' :: '\x27' :: ',' :: '?' :: ',' :: '\x27' :: '%' :: '\x27' :: ')'
          :: rest)
        (.mark "(" :: .text "%" :: .mark "," :: .question :: .mark "," :: .text "%" :: .mark ")"
          :: others) :=
      .openParen (.percent (by simp) (.comma (.question (.comma
        (.percent (by simp) (.closeParen hr))))))
    have h := Scans.word (w := ['c', 'o', 'n', 'c', 'a', 't']) (by simp) rfl (breaks_cons rfl _)
      hargs
    have h := Scans.word (w := ['l', 'i', 'k', 'e']) (by simp) rfl (breaks_cons rfl _) h.space
    simpa [Test.text, Test.tokens, unbound] using (scans_negation negated h).space

theorem Test.breaks_text (t : Test) (rest : List Char) : Breaks (t.text.toList ++ rest) := by
  cases t <;> simp [Test.text, breaks_cons, isWordChar]

namespace Predicate

theorem texts_ne_nil {ps : List Predicate} (h : ps ≠ []) : texts ps ≠ [] := by
  cases ps with
  | nil => exact absurd rfl h
  | cons p ps => simp [texts]

theorem spells_branchText {texts : List String} {parts : List (List Token)} (hne : texts ≠ [])
    (h : List.Forall₂ Spells texts parts) : Spells (branchText texts) (branchTokens parts) := by
  cases h with
  | nil => exact absurd rfl hne
  | cons hfirst hmore =>
    cases hmore with
    | nil => exact hfirst
    | cons hnext hrest =>
      exact spells_parens (spells_joinWith separates_and (.cons hfirst (.cons hnext hrest)))

mutual

/-- The text of a predicate has the tokens of the predicate. -/
theorem spells_text : ∀ p : Predicate, p.IsRegular → Spells p.text (p.tokens unbound)
  | .test _ t, h => spells_key h.1 t.breaks_text t.spells_text
  | .any branches, h =>
    spells_parens (spells_joinWith separates_or (spells_branchTexts branches h.2))

theorem spells_texts : ∀ ps : List Predicate, AreRegular ps →
    List.Forall₂ Spells (texts ps) (tokensOfAll unbound ps)
  | [], _ => .nil
  | p :: rest, h => .cons (spells_text p h.1) (spells_texts rest h.2)

theorem spells_branchTexts : ∀ branches : List (List Predicate), AreRegularBranches branches →
    List.Forall₂ Spells (branchTexts branches) (tokensOfBranches unbound branches)
  | [], _ => .nil
  | branch :: rest, h =>
    .cons (spells_branchText (texts_ne_nil h.1.1) (spells_texts branch h.1.2))
      (spells_branchTexts rest h.2)

end

end Predicate

/-! ## Binding -/

/-- What stands for a value after binding. -/
def bound (v : Value) : Token := .parameter (.ofValue v)

/-- Binding these values turns the first tokens into the second ones, and leaves what follows to the
values that follow. -/
def Fills (blank filled : List Token) (values : List Value) : Prop :=
  ∀ rest data, Token.bind? (blank ++ rest) (values.map Datum.ofValue ++ data)
    = (Token.bind? rest data).map (filled ++ ·)

namespace Fills

theorem nil : Fills [] [] [] := by
  intro rest data
  simp

theorem append {b₁ b₂ f₁ f₂ : List Token} {v₁ v₂ : List Value} (h₁ : Fills b₁ f₁ v₁)
    (h₂ : Fills b₂ f₂ v₂) : Fills (b₁ ++ b₂) (f₁ ++ f₂) (v₁ ++ v₂) := by
  intro rest data
  rw [List.append_assoc, List.map_append, List.append_assoc, h₁, h₂, Option.map_map]
  congr 1
  funext ts
  simp

theorem slot (v : Value) : Fills [unbound v] [bound v] [v] := by
  intro rest data
  rfl

/-- A token that is no question mark stays. -/
theorem cons {t : Token} (ht : ∀ rest data, Token.bind? (t :: rest) data
    = (Token.bind? rest data).map (t :: ·)) {blank filled : List Token} {values : List Value}
    (h : Fills blank filled values) : Fills (t :: blank) (t :: filled) values := by
  intro rest data
  rw [List.cons_append, ht, h, Option.map_map]
  rfl

theorem snoc {t : Token} (ht : ∀ rest data, Token.bind? (t :: rest) data
    = (Token.bind? rest data).map (t :: ·)) {blank filled : List Token} {values : List Value}
    (h : Fills blank filled values) : Fills (blank ++ [t]) (filled ++ [t]) values := by
  have := h.append (cons ht nil)
  rwa [List.append_nil] at this

theorem bind?_eq {blank filled : List Token} {values : List Value}
    (h : Fills blank filled values) :
    Token.bind? blank (values.map Datum.ofValue) = some filled := by
  simpa [Token.bind?] using h [] []

end Fills

theorem bind?_word (s : String) (rest : List Token) (data : List Datum) :
    Token.bind? (.word s :: rest) data = (Token.bind? rest data).map (.word s :: ·) := by
  cases data <;> rfl

theorem bind?_mark (s : String) (rest : List Token) (data : List Datum) :
    Token.bind? (.mark s :: rest) data = (Token.bind? rest data).map (.mark s :: ·) := by
  cases data <;> rfl

theorem bind?_text (s : String) (rest : List Token) (data : List Datum) :
    Token.bind? (.text s :: rest) data = (Token.bind? rest data).map (.text s :: ·) := by
  cases data <;> rfl

theorem fills_negation (negated : Bool) {blank filled : List Token} {values : List Value}
    (h : Fills blank filled values) :
    Fills (negationTokens negated ++ blank) (negationTokens negated ++ filled) values := by
  cases negated with
  | false => exact h
  | true => exact .cons (bind?_word "not") h

theorem fills_slots (values : List Value) :
    Fills (separated (.mark ",") (values.map fun v => [unbound v]))
      (separated (.mark ",") (values.map fun v => [bound v])) values := by
  induction values with
  | nil => exact .nil
  | cons v values ih =>
    cases values with
    | nil => exact .slot v
    | cons w values => exact (Fills.slot v).append (.cons (bind?_mark ",") ih)

theorem Test.fills_tokens (t : Test) :
    Fills (t.tokens unbound) (t.tokens bound) t.parameters := by
  cases t with
  | compare operator value => exact .cons (bind?_mark _) (.slot value)
  | isNull negated =>
    exact .cons (bind?_word "is") (fills_negation negated (.cons (bind?_word "null") .nil))
  | between negated low high =>
    exact fills_negation negated (.cons (bind?_word "between")
      ((Fills.slot low).append (.cons (bind?_word "and") (.slot high))))
  | isIn negated values =>
    have h := (fills_slots values).snoc (bind?_mark ")")
    have h := fills_negation negated (.cons (bind?_word "in") (.cons (bind?_mark "(") h))
    simpa [Test.tokens, Test.parameters] using h
  | like negated value =>
    have harg := (Fills.slot value).append (.cons (bind?_mark ",") (.cons (bind?_text "%")
      (.cons (bind?_mark ")") .nil)))
    exact fills_negation negated (.cons (bind?_word "like") (.cons (bind?_word "concat")
      (.cons (bind?_mark "(") (.cons (bind?_text "%") (.cons (bind?_mark ",") harg)))))

namespace Predicate

mutual

/-- The values of a predicate take the places of its question marks, in order. -/
theorem fills_tokens : ∀ p : Predicate, Fills (p.tokens unbound) (p.tokens bound) p.parameters
  | .test key t => .cons (bind?_word key) t.fills_tokens
  | .any branches => .cons (bind?_mark "(") ((fills_branches branches).snoc (bind?_mark ")"))

theorem fills_tokensOfAll : ∀ ps : List Predicate,
    Fills (separated (.word "and") (tokensOfAll unbound ps))
      (separated (.word "and") (tokensOfAll bound ps)) (allParameters ps)
  | [] => .nil
  | [p] => by
    have h := fills_tokens p
    simpa [tokensOfAll, allParameters, separated] using h
  | p :: q :: rest =>
    (fills_tokens p).append (.cons (bind?_word "and") (fills_tokensOfAll (q :: rest)))

theorem fills_branch : ∀ branch : List Predicate,
    Fills (branchTokens (tokensOfAll unbound branch)) (branchTokens (tokensOfAll bound branch))
      (allParameters branch)
  | [] => .cons (bind?_mark "(") (.cons (bind?_mark ")") .nil)
  | [p] => fills_tokensOfAll [p]
  | p :: q :: rest =>
    .cons (bind?_mark "(") ((fills_tokensOfAll (p :: q :: rest)).snoc (bind?_mark ")"))

theorem fills_branches : ∀ branches : List (List Predicate),
    Fills (separated (.word "or") (tokensOfBranches unbound branches))
      (separated (.word "or") (tokensOfBranches bound branches)) (branchParameters branches)
  | [] => .nil
  | [branch] => by
    have h := fills_branch branch
    simpa [tokensOfBranches, branchParameters, separated] using h
  | branch :: next :: rest =>
    (fills_branch branch).append (.cons (bind?_word "or") (fills_branches (next :: rest)))

end

end Predicate

end DualStore.Relational
