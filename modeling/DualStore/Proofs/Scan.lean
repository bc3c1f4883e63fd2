import DualStore.Sql.Token
import DualStore.Proofs.Spans

/-!
# Scanning texts piece by piece

A text is scanned from its front, so a statement that is put together from pieces is scanned piece
by piece, as long as no word runs into the next piece.

* `Scans`: a text has the given tokens, however many steps are allowed;
* `Breaks`: a text does not go on with a word;
* `Scans.space`, `Scans.word`, `Scans.mark`, `Scans.question`: one piece more in front.
-/

namespace DualStore.Sql

/-- The characters have these tokens, for every number of steps that is large enough. -/
def Scans (cs : List Char) (tokens : List Token) : Prop :=
  ∀ steps, cs.length ≤ steps → Token.scanSteps steps cs = some tokens

/-- No word goes on at the front of the characters. -/
def Breaks (cs : List Char) : Prop := Text.StopsAt isWordChar cs

theorem breaks_nil : Breaks [] := Text.stopsAt_nil

theorem breaks_cons {c : Char} (h : isWordChar c = false) (cs : List Char) : Breaks (c :: cs) :=
  Text.stopsAt_cons h cs

namespace Scans

theorem scan?_eq {s : String} {tokens : List Token} (h : Scans s.toList tokens) :
    Token.scan? s = some tokens := h s.toList.length (Nat.le_refl _)

theorem nil : Scans [] [] := by
  intro steps _
  cases steps <;> simp [Token.scanSteps]

/-- A character that starts a token, behind which scanning goes on. -/
theorem of_read {c : Char} {rest after : List Char} {token : Token} {tokens : List Token}
    (hc : isTokenSpace c = false) (hr : Token.read c rest = some (token, after))
    (hl : after.length ≤ rest.length) (h : Scans after tokens) :
    Scans (c :: rest) (token :: tokens) := by
  intro steps hs
  cases steps with
  | zero => simp at hs
  | succ steps =>
    have ha := h steps (by simp only [List.length_cons] at hs; omega)
    simp [Token.scanSteps, hc, hr, ha]

theorem space {cs : List Char} {tokens : List Token} (h : Scans cs tokens) :
    Scans (' ' :: cs) tokens := by
  intro steps hs
  cases steps with
  | zero => simp at hs
  | succ steps =>
    have ha := h steps (by simpa using hs)
    have hc : isTokenSpace ' ' = true := rfl
    simp [Token.scanSteps, hc, ha]

theorem question {cs : List Char} {tokens : List Token} (h : Scans cs tokens) :
    Scans ('?' :: cs) (.question :: tokens) :=
  of_read rfl rfl (Nat.le_refl _) h

/-- A mark in front of a text that does not make it a longer mark. -/
theorem mark {c : Char} {rest after : List Char} {name : String} {tokens : List Token}
    (hc : c ∈ ['=', '<', '>', '(', ')', ',']) (hr : readMark (c :: rest) = some (name, after))
    (hl : after.length ≤ rest.length) (h : Scans after tokens) :
    Scans (c :: rest) (.mark name :: tokens) := by
  have hread : Token.read c rest = some (.mark name, after) := by
    simp only [List.mem_cons, List.not_mem_nil, or_false] at hc
    rcases hc with rfl | rfl | rfl | rfl | rfl | rfl <;>
      · rw [Token.read, hr]
        rfl
  refine of_read ?_ hread hl h
  simp only [List.mem_cons, List.not_mem_nil, or_false] at hc
  rcases hc with rfl | rfl | rfl | rfl | rfl | rfl <;> rfl

theorem openParen {cs : List Char} {tokens : List Token} (h : Scans cs tokens) :
    Scans ('(' :: cs) (.mark "(" :: tokens) :=
  mark (by simp) rfl (Nat.le_refl _) h

theorem closeParen {cs : List Char} {tokens : List Token} (h : Scans cs tokens) :
    Scans (')' :: cs) (.mark ")" :: tokens) :=
  mark (by simp) rfl (Nat.le_refl _) h

theorem comma {cs : List Char} {tokens : List Token} (h : Scans cs tokens) :
    Scans (',' :: cs) (.mark "," :: tokens) :=
  mark (by simp) rfl (Nat.le_refl _) h

theorem isTokenSpace_of_isWordChar {c : Char} (h : isWordChar c = true) :
    isTokenSpace c = false := by
  rw [Bool.eq_false_iff]
  intro hs
  simp only [isTokenSpace, Bool.or_eq_true, decide_eq_true_eq] at hs
  rcases hs with (((rfl | rfl) | rfl) | rfl) | rfl <;> exact absurd h (by decide)

/-- A word, in front of a text that does not go on with a word. -/
theorem word {w rest : List Char} {tokens : List Token} (hne : w ≠ [])
    (hw : w.all isWordChar = true) (hr : Breaks rest) (h : Scans rest tokens) :
    Scans (w ++ rest) (.word (String.ofList w) :: tokens) := by
  cases w with
  | nil => exact absurd rfl hne
  | cons c w =>
    simp only [List.all_cons, Bool.and_eq_true] at hw
    have hread : Token.read c (w ++ rest) = some (.word (String.ofList (c :: w)), rest) := by
      rw [Token.read, if_pos hw.1, Text.takeWhile_append_stopsAt hw.2 hr,
        Text.dropWhile_append_stopsAt hw.2 hr]
    exact of_read (isTokenSpace_of_isWordChar hw.1) hread (by simp) h

/-- The percent sign between quotes, in front of a text that does not start with a quote. -/
theorem percent {c : Char} {cs : List Char} {tokens : List Token} (hc : c ≠ '\x27')
    (h : Scans (c :: cs) tokens) :
    Scans ('\x27' :: '%' :: '\x27' :: c :: cs) (.text "%" :: tokens) := by
  refine of_read rfl ?_ (by simp) h
  have hq : readQuoted '\x27' ('%' :: '\x27' :: c :: cs) = some (['%'], c :: cs) := by
    simp [readQuoted, hc]
  rw [Token.read, hq]
  rfl

end Scans

end DualStore.Sql
