import FlipperBlocks.Block.Field
import FlipperBlocks.Block.Kind

/-! Blocks, chains of blocks, and programs.

A block has a head of its own and inputs that hold chains: value inputs and statement inputs. A
chain is a block with the blocks that follow it. A program is a list of chains. -/
namespace FlipperBlocks

/-- What a block says about itself, its inputs apart. -/
structure BlockHead where
  kind : BlockKind
  id : Option String := none
  fields : Entries Field := []

namespace BlockHead

/-- The text of a field, even if it is blank. -/
def rawField (head : BlockHead) (name : String) : String := ((head.fields.get? name).map Field.toText).getD ""

/-- The text of a field that is there and not blank. -/
def field? (head : BlockHead) (name : String) : Option String :=
  ((head.fields.get? name).map Field.toText).filter fun text => !Text.allBlank text

def fieldOr (head : BlockHead) (name default : String) : String := (head.field? name).getD default

def numberField? (head : BlockHead) (name : String) : Option Binary64 :=
  (head.fields.get? name).bind Field.toNumber?

end BlockHead

inductive Block where
  | mk (head : BlockHead) (values : List (String × List Block))
      (bodies : List (String × List Block))

abbrev Chain := List Block

namespace Block

def head : Block → BlockHead
  | mk head _ _ => head

def values : Block → Entries Chain
  | mk _ values _ => values

def bodies : Block → Entries Chain
  | mk _ _ bodies => bodies

/-- Whether an input of that name holds a block. -/
def hasInput (block : Block) (name : String) : Bool := block.values.has name || block.bodies.has name

end Block

structure Program where
  roots : List Chain

end FlipperBlocks
