import FlipperBlocks.Text.Blank

/-! Identifiers of C.

Names come from people and may hold spaces, accents or reserved words. `sanitize` makes a usable
identifier of any text and leaves usable ones alone. -/
namespace FlipperBlocks.C.Identifier

/-- The name given to a text from which nothing can be kept. -/
def fallback : String := "variable"

/-- The reserved words of C, compared without regard to case. -/
def reservedWords : List String :=
  ["auto", "break", "case", "char", "const", "continue", "default", "do", "double", "else",
    "enum", "extern", "float", "for", "goto", "if", "int", "long", "register", "return", "short",
    "signed", "sizeof", "static", "struct", "switch", "typedef", "union", "unsigned", "void",
    "volatile", "while"]

def isReserved (name : String) : Bool := reservedWords.any fun word => Text.sameLetters word name

/-- A character that may start an identifier. -/
def isStart (c : Char) : Bool := c.isAlpha || c == '_'

/-- A character that may stand in an identifier. -/
def isPart (c : Char) : Bool := c.isAlphanum || c == '_'

def isIdentifier (name : String) : Bool :=
  match name.toList with
  | first :: rest => isStart first && rest.all isPart
  | [] => false

/-- Keeps the letters, digits and underscores of a text, and puts `var_` in front where they do
not start an identifier or spell a reserved word. -/
def repair (name : String) : String :=
  let kept := String.ofList (name.toList.filter isPart)
  if kept == "" || kept == "_" then fallback
  else if !isIdentifier kept || isReserved kept then "var_" ++ kept
  else kept

/-- A usable identifier for any text; one that is usable already is only trimmed. -/
def sanitize (name : String) : String :=
  let name := Text.trim name
  if isIdentifier name && !isReserved name && name != "_" then name else repair name

/-- The text if it is an identifier, and the default otherwise: for fields that name a symbol of
the device's library. -/
def symbolOr (text : Option String) (default : String) : String :=
  match text with
  | some text => if isIdentifier text then text else default
  | none => default

end FlipperBlocks.C.Identifier
