import DualStore.Decimal.Integer
import DualStore.Text.Search

/-!
# Arguments of the command line

Arguments are read from left to right: options with or without a value, and plain words, of which
the first is the name of a command. An option of the whole program may stand before the name of the
command or behind it; behind it counts more.

* `OptionSpec`: an option;
* `step`, `scan`: what one argument is, and the options and words among arguments;
* `Format`, `Command`, `Invocation`: what arguments ask for;
* `Invocation.ofArguments`: reading arguments; `Stop` says why nothing is run.
-/

namespace DualStore.CommandLine

inductive Stop where
  | help
  | version
  | usage
  deriving DecidableEq, Repr

/-- What an option is for. -/
inductive Purpose where
  /-- It is followed by a value that passes a test. -/
  | value (accepts : String → Bool)
  /-- It stands for itself. -/
  | flag
  /-- It ends the reading. -/
  | stop (s : Stop)

/-- An option: its long name, its letter, and what it is for. -/
structure OptionSpec where
  name : String
  letter : Option Char
  purpose : Purpose

abbrev Given := List (String × String)

/-- What was read: options, words, and the arguments behind them. -/
structure Scanned where
  given : Given
  words : List String
  rest : List String

/-- Notes an option, which may not be given twice. -/
def note (given : Given) (name value : String) : Except Stop Given :=
  if (given.lookup name).isSome then .error .usage else .ok (given ++ [(name, value)])

def noteValue (given : Given) (spec : OptionSpec) (accepts : String → Bool) (value : String) :
    Except Stop Given :=
  if accepts value then note given spec.name value else .error .usage

/-- Whether an argument looks like an option: a dash alone does not. -/
def looksLikeOption (argument : String) : Bool :=
  match argument.toList with
  | '-' :: _ :: _ => true
  | _ => false

/-- An argument: the end of all options, a long option with its value, letters, or a word. -/
inductive Argument where
  | endOfOptions
  | long (name : String) (value : Option String)
  | letters (first : Char) (rest : List Char)
  | word (s : String)

def Argument.ofText (s : String) : Argument :=
  match s.toList with
  | ['-', '-'] => .endOfOptions
  | '-' :: '-' :: cs =>
    match cs.dropWhile fun c => c ≠ '=' with
    | _ :: value =>
      .long (String.ofList (cs.takeWhile fun c => c ≠ '=')) (some (String.ofList value))
    | [] => .long (String.ofList cs) none
  | '-' :: c :: cs => .letters c cs
  | _ => .word s

/-- The value that stands directly behind the letter of an option; an equals sign in front is no
part of it. -/
def attached : List Char → String
  | '=' :: cs => String.ofList cs
  | cs => String.ofList cs

/-- Letters of options that take no value, up to one that takes a value; with it what stands behind
its letter. -/
def readLetters (specs : List OptionSpec) (given : Given) :
    List Char → Except Stop (Given × Option (OptionSpec × (String → Bool) × List Char))
  | [] => .ok (given, none)
  | c :: cs =>
    match specs.find? fun spec => spec.letter = some c with
    | none => .error .usage
    | some spec =>
      match spec.purpose with
      | .stop s => .error s
      | .flag => do
        let given ← note given spec.name ""
        readLetters specs given cs
      | .value accepts => .ok (given, some (spec, accepts, cs))

inductive Step where
  | word (s : String)
  /-- All arguments behind it are words. -/
  | onlyWords
  /-- Options that are complete. -/
  | noted (given : Given)
  /-- An option whose value is the next argument. -/
  | awaits (given : Given) (spec : OptionSpec) (accepts : String → Bool)

def step (specs : List OptionSpec) (given : Given) (argument : String) : Except Stop Step :=
  match Argument.ofText argument with
  | .word s => .ok (.word s)
  | .endOfOptions => .ok .onlyWords
  | .letters c cs =>
    match readLetters specs given (c :: cs) with
    | .error s => .error s
    | .ok (given, none) => .ok (.noted given)
    | .ok (given, some (spec, accepts, [])) => .ok (.awaits given spec accepts)
    | .ok (given, some (spec, accepts, cs)) =>
      (noteValue given spec accepts (attached cs)).map .noted
  | .long name value =>
    match specs.find? fun spec => spec.name = name with
    | none => .error .usage
    | some spec =>
      match spec.purpose, value with
      | .stop s, none => .error s
      | .flag, none => (note given name "").map .noted
      | .value accepts, none => .ok (.awaits given spec accepts)
      | .value accepts, some value => (noteValue given spec accepts value).map .noted
      | _, some _ => .error .usage

/-- Reads arguments. With `oneWord` the reading ends behind the first word, which must not stand
behind the end of the options. -/
def scan (specs : List OptionSpec) (oneWord : Bool) (given : Given) (words : List String) :
    List String → Except Stop Scanned
  | [] => .ok ⟨given, words, []⟩
  | argument :: rest =>
    match step specs given argument with
    | .error s => .error s
    | .ok .onlyWords => if oneWord then .error .usage else .ok ⟨given, words ++ rest, []⟩
    | .ok (.word s) =>
      if oneWord then .ok ⟨given, words ++ [s], rest⟩
      else scan specs oneWord given (words ++ [s]) rest
    | .ok (.noted given) => scan specs oneWord given words rest
    | .ok (.awaits given spec accepts) =>
      match rest with
      | [] => .error .usage
      | value :: rest =>
        if looksLikeOption value then .error .usage
        else
          match noteValue given spec accepts value with
          | .error s => .error s
          | .ok given => scan specs oneWord given words rest

/-! ## Invocations -/

inductive Format where
  | text
  | json
  deriving DecidableEq, Repr

inductive Command where
  /-- Open all sources and ask whether they answer. -/
  | check (config : Option String)
  /-- Show a select restricted to a page, and the select that counts its rows. -/
  | paginate (dialect : String) (number size : Int) (isOffset : Bool) (sql : String)
  deriving DecidableEq, Repr

structure Invocation where
  project : Option String
  format : Format
  command : Command
  deriving DecidableEq, Repr

def formats : List (String × Format) := [("text", .text), ("json", .json)]

def isPath (s : String) : Bool := s ≠ ""

def isInteger (s : String) : Bool := (Decimal.readInt64? s.toList).isSome

def sharedOptions : List OptionSpec :=
  [⟨"project", some 'p', .value isPath⟩,
    ⟨"format", some 'f', .value fun s => (formats.lookup s).isSome⟩,
    ⟨"help", some 'h', .stop .help⟩]

/-- The options in front of the name of a command. -/
def mainOptions : List OptionSpec := sharedOptions ++ [⟨"version", some 'V', .stop .version⟩]

def checkOptions : List OptionSpec := sharedOptions ++ [⟨"config", some 'c', .value isPath⟩]

def paginateOptions : List OptionSpec :=
  sharedOptions ++ [⟨"dialect", some 'd', .value fun _ => true⟩,
    ⟨"page-no", none, .value isInteger⟩, ⟨"page-size", none, .value isInteger⟩,
    ⟨"offset", none, .flag⟩]

def integerOf (given : Given) (name : String) (default : Int) : Int :=
  ((given.lookup name).bind fun s => Decimal.readInt64? s.toList).getD default

/-- An option of the whole program: behind the name of the command it counts more than in front. -/
def sharedOf (outer inner : Given) (name : String) : Option String :=
  (inner.lookup name).or (outer.lookup name)

def invocation (outer inner : Given) (command : Command) : Invocation :=
  ⟨sharedOf outer inner "project",
    ((sharedOf outer inner "format").bind fun s => formats.lookup s).getD .text, command⟩

def readCommand (outer : Given) (name : String) (arguments : List String) :
    Except Stop Invocation :=
  if name = "check" then do
    let scanned ← scan checkOptions false [] [] arguments
    match scanned.words with
    | [] => .ok (invocation outer scanned.given (.check (scanned.given.lookup "config")))
    | _ => .error .usage
  else if name = "paginate" then do
    let scanned ← scan paginateOptions false [] [] arguments
    match scanned.words with
    | [sql] =>
      let given := scanned.given
      .ok (invocation outer given (.paginate ((given.lookup "dialect").getD "mysql")
        (integerOf given "page-no" 1) (integerOf given "page-size" 10)
        (given.lookup "offset").isSome sql))
    | _ => .error .usage
  else if name = "help" then .error .help
  else .error .usage

def Invocation.ofArguments (arguments : List String) : Except Stop Invocation := do
  let scanned ← scan mainOptions true [] [] arguments
  match scanned.words with
  | name :: _ => readCommand scanned.given name scanned.rest
  | [] => .error .usage

end DualStore.CommandLine
