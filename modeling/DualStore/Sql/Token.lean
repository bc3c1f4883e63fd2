import DualStore.Sql.Datum

/-!
# Tokens of statements

* `Token`: words, quoted names, texts, marks, and question marks;
* `Token.scan?`: the tokens of a statement;
* `Token.bind?`: the tokens with the values of the parameters in the places of the question marks.
-/

namespace DualStore.Sql

/-- A token of a statement. A word holds letters, digits, underscores and points; a parameter is
there only after the values have been bound. -/
inductive Token where
  | word (s : String)
  | quoted (s : String)
  | text (s : String)
  | mark (s : String)
  | question
  | parameter (d : Datum)

def isWordChar (c : Char) : Bool :=
  c.isAlphanum || c = '_' || c = '.' || c = '$' || 128 ≤ c.toNat

def isTokenSpace (c : Char) : Bool := c = ' ' || c = '\t' || c = '\n' || c = '\r' || c = '\x0c'

/-- What stands before the closing quote, in which a quote is written twice, and what follows it. -/
def readQuoted (quote : Char) : List Char → Option (List Char × List Char)
  | [] => none
  | c :: rest =>
    if c = quote then
      match rest with
      | d :: rest' =>
        if d = quote then (readQuoted quote rest').map fun (s, after) => (quote :: s, after)
        else some ([], rest)
      | [] => some ([], [])
    else (readQuoted quote rest).map fun (s, after) => (c :: s, after)

def readMark : List Char → Option (String × List Char)
  | '<' :: '>' :: rest => some ("<>", rest)
  | '<' :: '=' :: rest => some ("<=", rest)
  | '>' :: '=' :: rest => some (">=", rest)
  | '!' :: '=' :: rest => some ("<>", rest)
  | '=' :: '=' :: rest => some ("=", rest)
  | '=' :: rest => some ("=", rest)
  | '<' :: rest => some ("<", rest)
  | '>' :: rest => some (">", rest)
  | '(' :: rest => some ("(", rest)
  | ')' :: rest => some (")", rest)
  | ',' :: rest => some (",", rest)
  | '*' :: rest => some ("*", rest)
  | '+' :: rest => some ("+", rest)
  | '-' :: rest => some ("-", rest)
  | _ => none

namespace Token

/-- The token at the front of a text, and what follows it. -/
def read (c : Char) (rest : List Char) : Option (Token × List Char) :=
  if isWordChar c then
    some (.word (String.ofList (c :: rest.takeWhile isWordChar)), rest.dropWhile isWordChar)
  else if c = '?' then some (.question, rest)
  else if c = '\x27' then (readQuoted c rest).map fun (s, after) => (.text (String.ofList s), after)
  else if c = '\x22' ∨ c = '\x60' then
    (readQuoted c rest).map fun (s, after) => (.quoted (String.ofList s), after)
  else (readMark (c :: rest)).map fun (s, after) => (.mark s, after)

/-- The tokens of a text, read in at most so many steps. -/
def scanSteps : Nat → List Char → Option (List Token)
  | 0, cs => if cs = [] then some [] else none
  | _ + 1, [] => some []
  | steps + 1, c :: rest =>
    if isTokenSpace c then scanSteps steps rest
    else
      match read c rest with
      | none => none
      | some (token, after) => (scanSteps steps after).map (token :: ·)

/-- The tokens of a statement; every step reads a character or more. -/
def scan? (sql : String) : Option (List Token) := scanSteps sql.toList.length sql.toList

/-- The tokens with values in the places of the question marks; there have to be as many of one as
of the other. -/
def bind? : List Token → List Datum → Option (List Token)
  | [], [] => some []
  | [], _ :: _ => none
  | .question :: _, [] => none
  | .question :: rest, d :: ds => (bind? rest ds).map (.parameter d :: ·)
  | token :: rest, ds => (bind? rest ds).map (token :: ·)

end Token

end DualStore.Sql
