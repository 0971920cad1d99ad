import FlipperBlocks.Entries
import FlipperBlocks.Number.Binary64

/-! Values of JSON. Integers are kept apart from floating-point numbers. -/
namespace FlipperBlocks

inductive Json where
  | null
  | truth (value : Bool)
  | integer (value : Int)
  | float (value : Binary64)
  | text (contents : String)
  | list (items : List Json)
  | object (members : List (String × Json))
  deriving Inhabited

namespace Json

def text? : Json → Option String
  | text contents => some contents
  | _ => none

def member? (name : String) : Json → Option Json
  | object members => Entries.get? members name
  | _ => none

end Json

end FlipperBlocks
