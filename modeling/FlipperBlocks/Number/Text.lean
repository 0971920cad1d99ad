import FlipperBlocks.Number.Nearest
import FlipperBlocks.Number.Shortest

/-! Numbers as text: what programs are written with, and what fields are read as. -/
namespace FlipperBlocks.Binary64

def digitChars (n : Nat) : List Char := Nat.toDigits 10 n

def zeros (count : Nat) : List Char := List.replicate count '0'

/-- A decimal without an exponent, padded with zeros up to the point. -/
def Decimal.positional (d : Decimal) : List Char :=
  let digits := digitChars d.digits
  if 0 ≤ d.exponent then digits ++ zeros d.exponent.toNat
  else
    let places := (-d.exponent).toNat
    let padded := zeros (places + 1 - digits.length) ++ digits
    let point := padded.length - places
    padded.take point ++ '.' :: padded.drop point

/-- A decimal that always shows it is no integer: with a point, or with an exponent when it is at
least `10 ^ 16` or below `10 ^ -5`. The exponent has a sign. -/
def Decimal.fractional (d : Decimal) : List Char :=
  let digits := digitChars d.digits
  let point : Int := digits.length + d.exponent
  if 0 ≤ d.exponent && point ≤ 16 then d.positional ++ ['.', '0']
  else if -5 < point && point ≤ 16 then d.positional
  else
    let mantissa :=
      match digits with
      | first :: second :: rest => first :: '.' :: second :: rest
      | short => short
    let power := point - 1
    mantissa ++ 'e' :: (if power < 0 then '-' else '+') :: digitChars power.natAbs

/-- A number as a literal of a program: whole numbers below `10 ^ 15` as integers, other finite
ones with their shortest digits and no exponent, a tie to the upper digit, and zero for what is not
finite. -/
def literal (x : Binary64) : String :=
  String.ofList <|
    if !x.isFinite then ['0']
    else if x.isWhole && x.whole < tenTo 15 then
      (if x.negative && x.whole != 0 then ['-'] else []) ++ digitChars x.whole
    else (if x.negative then ['-'] else []) ++ (x.shortest .upper).positional

/-- A number as messages show it, with its shortest digits, a tie to the even one. -/
def shown (x : Binary64) : String :=
  String.ofList ((if x.negative then ['-'] else []) ++ (x.shortest .even).fractional)

def digitsValue (digits : List Char) : Nat := digits.foldl (fun n c => 10 * n + (c.toNat - '0'.toNat)) 0

/-- A sign in front of a number, and what follows it. -/
def splitSign : List Char → Bool × List Char
  | '-' :: rest => (true, rest)
  | '+' :: rest => (false, rest)
  | rest => (false, rest)

/-- An exponent mark with its digits, or nothing at all. -/
def readExponent : List Char → Option Int
  | [] => some 0
  | mark :: rest =>
    let (negative, digits) := splitSign rest
    if (mark = 'e' || mark = 'E') && !digits.isEmpty && digits.all Char.isDigit then
      some (if negative then -(digitsValue digits : Int) else digitsValue digits)
    else none

/-- The number that a text spells in decimal: digits with at most one point among or around them,
then possibly an exponent. -/
def ofDecimalText (text : List Char) : Option Binary64 :=
  let (negative, rest) := splitSign text
  let whole := rest.takeWhile Char.isDigit
  let rest := rest.dropWhile Char.isDigit
  let (places, rest) :=
    match rest with
    | '.' :: rest => (rest.takeWhile Char.isDigit, rest.dropWhile Char.isDigit)
    | rest => ([], rest)
  if whole.isEmpty && places.isEmpty then none
  else (readExponent rest).map fun exponent =>
    ofDecimal negative (digitsValue (whole ++ places)) (exponent - places.length)

/-- The finite number that a text spells. A text that names infinity or no number spells none. -/
def ofText? (text : List Char) : Option Binary64 := (ofDecimalText text).filter isFinite

end FlipperBlocks.Binary64
