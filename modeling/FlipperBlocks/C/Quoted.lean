/-! String literals and comments of C. -/
namespace FlipperBlocks.C

/-- The hexadecimal digit of a number below sixteen, in lower case. -/
def hexDigit (n : Nat) : Char :=
  if n < 10 then Char.ofNat (48 + n) else Char.ofNat (87 + n)

def escape (c : Char) : List Char :=
  if c = '\\' then ['\\', '\\']
  else if c = '"' then ['\\', '"']
  else if c = '\n' then ['\\', 'n']
  else if c = '\r' then ['\\', 'r']
  else if c = '\t' then ['\\', 't']
  else if c.toNat < 0x20 then ['\\', 'x', hexDigit (c.toNat / 16), hexDigit (c.toNat % 16)]
  else [c]

def quoted (contents : String) : String := String.ofList ('"' :: (contents.toList.flatMap escape ++ ['"']))

/-- Characters in which every end of a block comment has been pulled apart. -/
def splitCommentEnds : List Char → List Char
  | '*' :: '/' :: rest => '*' :: ' ' :: '/' :: splitCommentEnds rest
  | c :: rest => c :: splitCommentEnds rest
  | [] => []

/-- A text that may stand in a block comment: every `*/` becomes `* /`. -/
def inComment (text : String) : String := String.ofList (splitCommentEnds text.toList)

end FlipperBlocks.C
