import FlipperBlocks.Text.Blank

/-! Lines of a text and their indentation, and parts between separators.

A line ends at a line feed, and a carriage return right before the line feed belongs to the line
end. Text after the last line feed is a line of its own, with whatever it holds. -/
namespace FlipperBlocks.Text

/-- A reversed line without the carriage return that its line feed takes along. -/
def dropReturn : List Char → List Char
  | '\r' :: line => line
  | line => line

/-- The lines of a text, `line` being the current one read so far, reversed. -/
def linesFrom (line : List Char) : List Char → List (List Char)
  | [] => if line.isEmpty then [] else [line.reverse]
  | c :: cs =>
    if c = '\n' then (dropReturn line).reverse :: linesFrom [] cs else linesFrom (c :: line) cs

/-- The lines of a text, without their line ends. -/
def lines (cs : List Char) : List (List Char) := linesFrom [] cs

/-- The lines of a text with their ends, `line` being the current one read so far, reversed. -/
def rowsFrom (line : List Char) : List Char → List (List Char)
  | [] => if line.isEmpty then [] else [line.reverse]
  | c :: cs =>
    if c = '\n' then (c :: line).reverse :: rowsFrom [] cs else rowsFrom (c :: line) cs

/-- The lines of a text with their ends. -/
def rows (cs : List Char) : List (List Char) := rowsFrom [] cs

/-- One line moved right by four columns; a blank line is left empty. -/
def indentLine (line : List Char) : List Char :=
  if line.all isBlank then ['\n'] else ' ' :: ' ' :: ' ' :: ' ' :: (line ++ ['\n'])

/-- Every line moved right by four columns and ended by a line feed. -/
def indentChars (cs : List Char) : List Char := (lines cs).flatMap indentLine

/-- Every line of the text moved right by four columns and ended by a line feed. -/
def indent (s : String) : String := String.ofList (indentChars s.toList)

/-- The text indented `depth` times. -/
def indentBy : Nat → String → String
  | 0, s => s
  | depth + 1, s => indent (indentBy depth s)

/-- The blanks before a row, four for each step. -/
def margin (steps : Nat) : String := String.ofList (List.replicate (4 * steps) ' ')

/-- Line breaks replaced by spaces. -/
def oneLine (s : String) : String :=
  String.ofList (s.toList.map fun c => if c = '\n' || c = '\r' then ' ' else c)

/-- Every occurrence of a character replaced. -/
def replace (old : Char) (new cs : List Char) : List Char := cs.flatMap fun c => if c = old then new else [c]

/-- The parts between separators; there is one part more than there are separators. -/
def partsAt (separator : Char) : List Char → List (List Char)
  | [] => [[]]
  | c :: cs =>
    if c = separator then [] :: partsAt separator cs
    else
      match partsAt separator cs with
      | part :: rest => (c :: part) :: rest
      | [] => [[c]]

end FlipperBlocks.Text
