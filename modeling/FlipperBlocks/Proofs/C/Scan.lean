import FlipperBlocks.C.Identifier

/-! A scanner of C text.

It tells code from literals and comments, reads the longest word or operator it can, and knows
whether a word has an opening parenthesis right behind it. Blanks are passed over, and of a literal
or a comment only the fact that it is there is kept. -/
namespace FlipperBlocks.C

inductive Token where
  | word (text : List Char)
  | call (name : List Char)
  | mark (text : List Char)
  | string
  | character
  | comment
  deriving DecidableEq

/-- Where a scanner is. The word or the operator being read is kept with its last character first. -/
inductive Mode where
  | code
  | word (read : List Char)
  | operator (read : List Char)
  | string
  | stringEscape
  | character
  | characterEscape
  | lineComment
  | blockComment
  | blockCommentStar
  | broken
  deriving DecidableEq

namespace Scan

def longOperators : List (List Char) :=
  [['-', '>'], ['+', '+'], ['-', '-'], ['<', '<'], ['>', '>'], ['<', '='], ['>', '='], ['=', '='],
    ['!', '='], ['&', '&'], ['|', '|'], ['+', '='], ['-', '='], ['*', '='], ['/', '='], ['%', '='],
    ['&', '='], ['^', '='], ['|', '='], ['<', '<', '='], ['>', '>', '=']]

def operatorStarts : List Char := ['+', '-', '*', '/', '%', '<', '>', '=', '!', '&', '|', '^']

def isSign (c : Char) : Bool := c == '+' || c == '-'

/-- The letters that a sign may follow in a number. -/
def isExponentMark (c : Char) : Bool := c == 'e' || c == 'E' || c == 'p' || c == 'P'

/-- Whether a character goes on with the word read so far. A word that starts with a digit is a
number, which may have points and signed exponents. -/
def joinsWord (read : List Char) (c : Char) : Bool :=
  Identifier.isPart c ||
    ((read.getLast?.any Char.isDigit) && (c == '.' || (isSign c && read.head?.any isExponentMark)))

def joinsOperator (read : List Char) (c : Char) : Bool := longOperators.contains ((c :: read).reverse)

/-- What is found at a character between two tokens, and where the scanner is then. -/
def start (c : Char) : List Token × Mode :=
  if Identifier.isPart c then ([], .word [c])
  else if operatorStarts.contains c then ([], .operator [c])
  else if c = '"' then ([], .string)
  else if c = '\'' then ([], .character)
  else if Text.isBlank c then ([], .code)
  else ([.mark [c]], .code)

def finishedWord (read : List Char) (c : Char) : Token :=
  if c = '(' then .call read.reverse else .word read.reverse

def after (token : Token) (c : Char) : List Token × Mode := (token :: (start c).1, (start c).2)

/-- A step inside a literal, which the quote ends and a backslash prolongs. -/
def literalStep (quote : Char) (token : Token) (inside escape : Mode) (c : Char) : List Token × Mode :=
  if c = quote then ([token], .code)
  else if c = '\\' then ([], escape)
  else if c = '\n' then ([], .broken)
  else ([], inside)

def escapeStep (inside : Mode) (c : Char) : List Token × Mode :=
  if c = '\n' then ([], .broken) else ([], inside)

def step : Mode → Char → List Token × Mode
  | .code, c => start c
  | .word read, c =>
    if joinsWord read c then ([], .word (c :: read)) else after (finishedWord read c) c
  | .operator read, c =>
    if read = ['/'] ∧ c = '/' then ([], .lineComment)
    else if read = ['/'] ∧ c = '*' then ([], .blockComment)
    else if joinsOperator read c then ([], .operator (c :: read))
    else after (.mark read.reverse) c
  | .string, c => literalStep '"' .string .string .stringEscape c
  | .stringEscape, c => escapeStep .string c
  | .character, c => literalStep '\'' .character .character .characterEscape c
  | .characterEscape, c => escapeStep .character c
  | .lineComment, c => if c = '\n' then ([.comment], .code) else ([], .lineComment)
  | .blockComment, c => if c = '*' then ([], .blockCommentStar) else ([], .blockComment)
  | .blockCommentStar, c =>
    if c = '/' then ([.comment], .code)
    else if c = '*' then ([], .blockCommentStar)
    else ([], .blockComment)
  | .broken, _ => ([], .broken)

def run : Mode → List Char → List Token × Mode
  | mode, [] => ([], mode)
  | mode, c :: rest =>
    match step mode c with
    | (found, next) =>
      match run next rest with
      | (more, final) => (found ++ more, final)

def pending : Mode → List Token
  | .word read => [.word read.reverse]
  | .operator read => [.mark read.reverse]
  | _ => []

def settled : Mode → Mode
  | .word _ | .operator _ => .code
  | mode => mode

@[simp] theorem run_nil (mode : Mode) : run mode [] = ([], mode) := rfl

theorem run_cons (mode : Mode) (c : Char) (rest : List Char) : run mode (c :: rest) =
      ((step mode c).1 ++ (run (step mode c).2 rest).1, (run (step mode c).2 rest).2) := rfl

theorem run_append (mode : Mode) (a b : List Char) : run mode (a ++ b) =
      ((run mode a).1 ++ (run (run mode a).2 b).1, (run (run mode a).2 b).2) := by
  induction a generalizing mode with
  | nil => simp
  | cons c rest ih =>
    rw [List.cons_append, run_cons, run_cons, ih]
    simp

theorem run_append_of_eq {mode middle final : Mode} {a b : List Char} {first second : List Token}
    (left : run mode a = (first, middle)) (right : run middle b = (second, final)) :
    run mode (a ++ b) = (first ++ second, final) := by
  rw [run_append, left, right]

@[simp] theorem run_broken (cs : List Char) : run .broken cs = ([], .broken) := by
  induction cs with
  | nil => rfl
  | cons c rest ih => rw [run_cons]; simp [step, ih]

end Scan

def tokens (text : String) : List Token :=
  let (found, mode) := Scan.run .code text.toList
  found ++ Scan.pending mode

def endMode (text : String) : Mode := Scan.settled (Scan.run .code text.toList).2

def opener? : Char → Option Char
  | ')' => some '('
  | ']' => some '['
  | '}' => some '{'
  | _ => none

def isOpener (c : Char) : Bool := c == '(' || c == '[' || c == '{'

/-- The brackets open after some tokens, the innermost first, given those open before. There are
none if a bracket closes what is not open or another one than the innermost. -/
def nest : List Char → List Token → Option (List Char)
  | opened, [] => some opened
  | opened, .mark [c] :: rest =>
    if isOpener c then nest (c :: opened) rest
    else
      match opener? c, opened with
      | none, _ => nest opened rest
      | some _, [] => none
      | some bracket, innermost :: outer =>
        if bracket = innermost then nest outer rest else none
  | opened, _ :: rest => nest opened rest

def Nested (list : List Token) : Prop := nest [] list = some []

instance (list : List Token) : Decidable (Nested list) := inferInstanceAs (Decidable (_ = _))

def callsIn (list : List Token) : List String :=
  list.filterMap fun
    | .call name => some (String.ofList name)
    | _ => none

def calls (text : String) : List String := callsIn (tokens text)

@[simp] theorem callsIn_nil : callsIn [] = [] := rfl

@[simp] theorem callsIn_append (a b : List Token) : callsIn (a ++ b) = callsIn a ++ callsIn b := by
  simp [callsIn]

@[simp] theorem callsIn_call (name : String) (rest : List Token) :
    callsIn (.call name.toList :: rest) = name :: callsIn rest := by
  simp [callsIn]

@[simp] theorem callsIn_word (text : List Char) (rest : List Token) :
    callsIn (.word text :: rest) = callsIn rest := rfl

@[simp] theorem callsIn_mark (text : List Char) (rest : List Token) :
    callsIn (.mark text :: rest) = callsIn rest := rfl

/-- A text that stands for itself wherever code may stand: it leaves no literal or comment open, and
every bracket in it is closed in its turn. -/
structure SelfContained (text : String) : Prop where
  ends : endMode text = .code
  nested : Nested (tokens text)

end FlipperBlocks.C
