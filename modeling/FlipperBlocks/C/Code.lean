import FlipperBlocks.C.Expr
import FlipperBlocks.Text.Lines

/-! Lines of C code.

A piece of code is a list of lines. The text of a line may have several rows, since names may hold
line ends. A line starts at a margin, which its first row alone is moved by, and is then indented
together with the code around it, which moves every row. -/
namespace FlipperBlocks.C

inductive Line where
  | run (action : Expr)
  /-- An action under a condition, on one line. -/
  | guarded (test action : Expr)
  /-- A variable declared without a value. -/
  | reserve (type name : String)
  | comment (text : String)
  /-- What stands in place of a block that has no code. -/
  | placeholder (kind : String)
  | openBlock
  | openIf (test : Expr)
  /-- The first branch of a chain of branches. -/
  | openBranch (test : Expr)
  | nextBranch (test : Expr)
  | lastBranch
  | openWhile (test : Expr)
  /-- A loop whose counter runs from zero up to a bound. -/
  | openFor (counter : String) (bound : Expr)
  | close
  /-- Any text, with the line ends it brings. -/
  | verbatim (text : String)

namespace Line

def text : Line → String
  | run action => action.code ++ ";"
  | guarded test action => "if(" ++ test.code ++ ") " ++ action.code ++ ";"
  | reserve type name => type ++ " " ++ name ++ ";"
  | comment text => "// " ++ Text.oneLine text
  | placeholder kind => "/* unsupported block: " ++ inComment kind ++ " */"
  | openBlock => "\x7b"
  | openIf test => "if(" ++ test.code ++ ") \x7b"
  | openBranch test => "if (" ++ test.code ++ ") \x7b"
  | nextBranch test => "\x7d else if (" ++ test.code ++ ") \x7b"
  | lastBranch => "\x7d else \x7b"
  | openWhile test => "while(" ++ test.code ++ ") \x7b"
  | openFor counter bound =>
    "for(int " ++ counter ++ " = 0; " ++ counter ++ " < " ++ bound.code ++ "; " ++ counter ++
      "++) \x7b"
  | close => "\x7d"
  | verbatim text => text

def ended : Line → String
  | verbatim text => text
  | line => line.text ++ "\n"

end Line

/-- A line that starts at a margin and has been indented to a depth. -/
structure PlacedLine where
  margin : Nat
  depth : Nat
  line : Line

def PlacedLine.text (placed : PlacedLine) : String :=
  Text.indentBy placed.depth (Text.margin placed.margin ++ placed.line.ended)

abbrev Code := List PlacedLine

namespace Code

def text : Code → String
  | [] => ""
  | placed :: rest => placed.text ++ text rest

def ofLines (lines : List Line) : Code := lines.map (PlacedLine.mk 0 0)

def line (line : Line) : Code := [⟨0, 0, line⟩]

def run (action : Expr) : Code := line (.run action)

/-- Code that is given as text, with the line ends it brings. -/
def ofText (text : String) : Code := line (.verbatim text)

def comment (text : String) : Code := line (.comment text)

/-- Code with every row moved right by one step. -/
def indent (code : Code) : Code := code.map fun placed => ⟨placed.margin, placed.depth + 1, placed.line⟩

/-- Code whose lines start further right by one step. -/
def inset (code : Code) : Code := code.map fun placed => ⟨placed.margin + 1, placed.depth, placed.line⟩

def braced (opening : Line) (body : Code) : Code := line opening ++ body.indent ++ line .close

/-- A body of inset lines in the braces that a line opens. -/
def framed (opening : Line) (body : Code) : Code := line opening ++ body.inset ++ line .close

@[simp] theorem text_nil : text [] = "" := rfl

@[simp] theorem text_cons (placed : PlacedLine) (rest : Code) :
    text (placed :: rest) = placed.text ++ text rest := rfl

@[simp] theorem text_append (a b : Code) : text (a ++ b) = text a ++ text b := by
  induction a with
  | nil => simp
  | cons placed rest ih => simp [ih, String.append_assoc]

@[simp] theorem indent_append (a b : Code) : indent (a ++ b) = indent a ++ indent b := by simp [indent]

end Code

end FlipperBlocks.C
