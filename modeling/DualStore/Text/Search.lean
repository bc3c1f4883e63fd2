/-!
# Searching texts

* `contains`: whether a text stands somewhere in another;
* `stripPrefix?`: what follows a given beginning;
* `stripSuffix?`: what stands before a given end;
* `lastPart`: what follows the last occurrence of a mark.
-/

namespace DualStore.Text

/-- Whether the characters `part` stand somewhere in the given ones. -/
def contains (part : List Char) : List Char → Bool
  | [] => part.isEmpty
  | c :: rest => part.isPrefixOf (c :: rest) || contains part rest

/-- What follows a beginning. -/
def stripPrefix? : List Char → List Char → Option (List Char)
  | [], cs => some cs
  | _ :: _, [] => none
  | p :: ps, c :: cs => if p = c then stripPrefix? ps cs else none

def stripSuffix? (ending cs : List Char) : Option (List Char) :=
  (stripPrefix? ending.reverse cs.reverse).map List.reverse

/-- What follows the last occurrence of a mark; everything if there is none. -/
def lastPart (mark : Char) (cs : List Char) : List Char :=
  (cs.reverse.takeWhile fun c => c ≠ mark).reverse

theorem stripPrefix?_append (p cs : List Char) : stripPrefix? p (p ++ cs) = some cs := by
  induction p with
  | nil => rfl
  | cons c p ih => simp [stripPrefix?, ih]

example : contains ['l', 'i'] ['a', 'l', 'i'] = true ∧ contains [] [] = true := by decide

example : lastPart '.' ['t', '.', 'k', '.', 'n'] = ['n'] ∧ lastPart '.' ['a'] = ['a'] := by decide

end DualStore.Text
