import DualStore.Json.Basic
import DualStore.Decimal.Layout

/-!
# JSON texts

Two forms of a value as text: the compact one, without any blank, and the indented one, with two
blanks a level.

* `escaped`, `stringChars`: what is escaped inside a string;
* `Json.chars`, `Json.text`: the compact form;
* `Json.indented`, `Json.prettyText`: the indented form.
-/

namespace DualStore.Json

def hexDigit (n : Nat) : Char := Nat.digitChar n

/-- One character inside a string: the quote, the backslash and the controls are escaped. -/
def escaped (c : Char) : List Char :=
  if c = '\x22' then ['\\', '\x22']
  else if c = '\\' then ['\\', '\\']
  else if c = '\x08' then ['\\', 'b']
  else if c = '\x0c' then ['\\', 'f']
  else if c = '\n' then ['\\', 'n']
  else if c = '\r' then ['\\', 'r']
  else if c = '\t' then ['\\', 't']
  else if c.toNat < 32 then ['\\', 'u', '0', '0', hexDigit (c.toNat / 16), hexDigit (c.toNat % 16)]
  else [c]

def stringChars (s : String) : List Char := '\x22' :: s.toList.flatMap escaped ++ ['\x22']

/-- A value that is neither an array nor an object. -/
def scalarChars : Json → List Char
  | .null => ['n', 'u', 'l', 'l']
  | .bool true => ['t', 'r', 'u', 'e']
  | .bool false => ['f', 'a', 'l', 's', 'e']
  | .int n => Decimal.intChars n
  | .float x => (Decimal.Layout.json.text x).toList
  | .str s => stringChars s
  | .arr _ => []
  | .obj _ => []

/-! ## The compact form -/

mutual

/-- A value without any blank. -/
def chars : Json → List Char
  | .arr [] => ['[', ']']
  | .arr (value :: rest) => '[' :: chars value ++ restItems rest
  | .obj [] => ['\x7b', '\x7d']
  | .obj ((key, value) :: rest) =>
    '\x7b' :: stringChars key ++ ':' :: chars value ++ restFields rest
  | value => scalarChars value

/-- What follows an item of an array. -/
def restItems : List Json → List Char
  | [] => [']']
  | value :: rest => ',' :: chars value ++ restItems rest

def restFields : List (String × Json) → List Char
  | [] => ['\x7d']
  | (key, value) :: rest => ',' :: stringChars key ++ ':' :: chars value ++ restFields rest

end

/-- The compact form of a value. -/
def text (value : Json) : String := String.ofList (chars value)

/-! ## The indented form -/

/-- A new line and the blanks of a level. -/
def newLine (level : Nat) : List Char := '\n' :: List.replicate (2 * level) ' '

mutual

/-- A value at a level: every item and every field stands on a line of its own. -/
def indented (level : Nat) : Json → List Char
  | .arr [] => ['[', ']']
  | .arr (value :: rest) =>
    '[' :: newLine (level + 1) ++ indented (level + 1) value ++ restItemsIndented level rest
  | .obj [] => ['\x7b', '\x7d']
  | .obj ((key, value) :: rest) =>
    '\x7b' :: newLine (level + 1) ++ stringChars key ++ [':', ' '] ++ indented (level + 1) value
      ++ restFieldsIndented level rest
  | value => scalarChars value

def restItemsIndented (level : Nat) : List Json → List Char
  | [] => newLine level ++ [']']
  | value :: rest =>
    ',' :: newLine (level + 1) ++ indented (level + 1) value ++ restItemsIndented level rest

def restFieldsIndented (level : Nat) : List (String × Json) → List Char
  | [] => newLine level ++ ['\x7d']
  | (key, value) :: rest =>
    ',' :: newLine (level + 1) ++ stringChars key ++ [':', ' '] ++ indented (level + 1) value
      ++ restFieldsIndented level rest

end

def prettyText (value : Json) : String := String.ofList (indented 0 value)

example : text (.obj [("a", .arr [.int 1, .str "x"])]) = "\x7b\"a\":[1,\"x\"]\x7d" :=
  by decide +kernel

end DualStore.Json
