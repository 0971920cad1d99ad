import FlipperBlocks.Entries
import FlipperBlocks.Number.Text
import FlipperBlocks.Text.Blank

/-! Fields of blocks: texts, numbers and truth values. -/
namespace FlipperBlocks

inductive Field where
  | text (contents : String)
  | number (value : Binary64)
  | truth (value : Bool)

namespace Field

def toText : Field → String
  | text contents => contents
  | number value => value.literal
  | truth true => "TRUE"
  | truth false => "FALSE"

/-- A field as a number. A text must spell a finite one. -/
def toNumber? : Field → Option Binary64
  | text contents => Binary64.ofText? (Text.trimChars contents.toList)
  | number value => some value
  | truth _ => none

end Field

end FlipperBlocks
