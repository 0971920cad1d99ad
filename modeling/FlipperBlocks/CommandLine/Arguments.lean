/-! Arguments of the command line.

Arguments are read from left to right. What is wrong with an argument itself ends the reading at
once, as does a request for the version; options that lack their value or were given twice are found
when all arguments have been read. -/
namespace FlipperBlocks.CommandLine

/-- What a compilation was asked to do. -/
structure Options where
  input : Option String := none
  output : Option String := none
  manifest : Option String := none
  strict : Bool := false
  verbose : Bool := false
  deriving DecidableEq

inductive Request where
  | compile (options : Options)
  | version
  | help
  /-- The arguments make no sense. -/
  | misuse
  deriving DecidableEq

/-- An option that takes a value. -/
inductive Target where
  | output
  | manifest
  deriving DecidableEq

structure Given where
  inputs : List String := []
  outputs : List String := []
  manifests : List String := []
  strict : Nat := 0
  verbose : Nat := 0
  /-- The option whose value comes next. -/
  awaiting : Option Target := none
  /-- Whether an option went without its value. -/
  incomplete : Bool := false

namespace Given

/-- Gives up waiting for the value of an option. -/
def settle (given : Given) : Given :=
  { given with awaiting := none, incomplete := given.incomplete || given.awaiting.isSome }

def put (given : Given) (target : Target) (value : String) : Given :=
  match target with
  | .output => { given with outputs := given.outputs ++ [value] }
  | .manifest => { given with manifests := given.manifests ++ [value] }

/-- Takes an option with the value attached to it, or waits for its value. -/
def option (given : Given) (target : Target) : Option (List Char) → Given
  | some value => given.settle.put target (String.ofList value)
  | none => { given.settle with awaiting := some target }

/-- Takes an argument that is no option. There may be one only. -/
def positional (given : Given) (argument : String) : Except Request Given :=
  if given.inputs.isEmpty then .ok { given with inputs := [argument] } else .error .misuse

/-- Takes an option written out after two dashes. -/
def long (given : Given) (name : List Char) (attached : Option (List Char)) : Except Request Given :=
  match String.ofList name, attached with
  | "output", value => .ok (given.option .output value)
  | "manifest", value => .ok (given.option .manifest value)
  | "strict", none => .ok { given.settle with strict := given.strict + 1 }
  | "verbose", none => .ok { given.settle with verbose := given.verbose + 1 }
  | "version", none => .error .version
  | "help", none => .error .help
  | _, _ => .error .misuse

/-- Takes the letters after one dash: flags, and last an option with its value, if the letters do
not end there. -/
def short (given : Given) : List Char → Except Request Given
  | [] => .ok given
  | 'v' :: rest => short { given.settle with verbose := given.verbose + 1 } rest
  | 'o' :: [] => .ok (given.option .output none)
  | 'o' :: '=' :: value | 'o' :: value => .ok (given.option .output (some value))
  | 'V' :: _ => .error .version
  | 'h' :: _ => .error .help
  | _ => .error .misuse

/-- A name and the value attached to it by an equals sign. -/
def splitValue (text : List Char) : List Char × Option (List Char) :=
  match text.dropWhile (· ≠ '=') with
  | [] => (text, none)
  | _ :: value => (text.takeWhile (· ≠ '='), some value)

/-- Takes an argument before any that ends the options. -/
def argument (given : Given) (text : String) : Except Request Given :=
  match text.toList with
  | '-' :: '-' :: option =>
    let (name, value) := splitValue option
    given.long name value
  | '-' :: letter :: letters => given.short (letter :: letters)
  | _ =>
    match given.awaiting with
    | some target => .ok ({ given with awaiting := none }.put target text)
    | none => given.positional text

/-- Takes the arguments after the one that ends the options. -/
def positionals (given : Given) : List String → Except Request Given
  | [] => .ok given
  | text :: rest => do (← given.positional text).positionals rest

/-- Takes arguments; two dashes alone end the options. -/
def arguments (given : Given) : List String → Except Request Given
  | [] => .ok given
  | text :: rest => do
    if text = "--" then given.settle.positionals rest
    else (← given.argument text).arguments rest

def request (given : Given) : Request :=
  if given.settle.incomplete || 1 < given.outputs.length || 1 < given.manifests.length ||
      1 < given.strict || 1 < given.verbose then .misuse
  else
    .compile
      { input := given.inputs.head?, output := given.outputs.head?, manifest := given.manifests.head?
        strict := given.strict = 1, verbose := given.verbose = 1 }

end Given

def Request.ofArguments (arguments : List String) : Request :=
  match ({} : Given).arguments arguments with
  | .ok given => given.request
  | .error request => request

end FlipperBlocks.CommandLine
