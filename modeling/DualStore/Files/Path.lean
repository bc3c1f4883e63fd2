/-!
# Paths

Paths as texts. The parts of a path stand between strokes; a path that begins with a stroke is
absolute.

* `Path.join`: a path seen from a directory;
* `Path.parent`: the directory that a path is in;
* `Path.parts`: the parts of a path.
-/

namespace DualStore.Path

def stroke : Char := '/'

/-- Whether a path does not depend on a directory. -/
def isAbsolute (path : String) : Bool := path.toList.head? = some stroke

/-- A path seen from a directory: an absolute one stays as it is. -/
def join (directory path : String) : String :=
  if isAbsolute path ∨ directory = "" then path
  else if directory.toList.getLast? = some stroke then directory ++ path
  else directory ++ "/" ++ path

/-- Strokes, and parts that stand for the directory itself, taken from the end of a path that is
written backwards. -/
def trimBack : List Char → List Char
  | ['/'] => ['/']
  | '/' :: rest => trimBack rest
  | '.' :: '/' :: rest => trimBack ('/' :: rest)
  | cs => cs

def parent (path : String) : String :=
  let rest := (trimBack path.toList.reverse).dropWhile fun c => c ≠ stroke
  String.ofList (trimBack rest).reverse

/-- The parts of the characters of a path, given the characters of the part that is being read. -/
def partsFrom (part : List Char) : List Char → List String
  | [] => [String.ofList part.reverse]
  | c :: rest =>
    if c = stroke then String.ofList part.reverse :: partsFrom [] rest
    else partsFrom (c :: part) rest

/-- The parts of a path that say something: empty ones and those that stand for the directory itself
are left out. -/
def parts (path : String) : List String :=
  (partsFrom [] path.toList).filter fun part => part ≠ "" ∧ part ≠ "."

example : join "a" "b" = "a/b" ∧ join "a" "/b" = "/b" ∧ join "" "b" = "b" ∧ join "a/" "" = "a/" :=
  by
  decide +kernel

example : parent "a/./x" = "a" ∧ parent "x" = "" ∧ parent "/x" = "/" ∧ parent "./x" = "." := by
  decide +kernel

end DualStore.Path
