import FlipperBlocks.Lowering.Basic

/-! Blocks in place, ready to be lowered.

A block is lowered through the meanings of the blocks in its inputs: what each of them is as a value
and as a statement. -/
namespace FlipperBlocks

variable (site : Site)

/-- What a block is to the blocks around it. -/
structure Meaning where
  kind : BlockKind
  id : Option String
  /-- The block as a value; the argument tells whether text is wanted. -/
  value : Bool → Lowering Value
  /-- The block as a statement. -/
  statement : Lowering C.Code

namespace Meaning

/-- The statements after the first one of a chain, each one step further on. -/
def following : List Meaning → Lowering C.Code
  | [] => return []
  | next :: rest =>
    Lowering.within ⟨"next", next.id⟩ do
      let code ← next.statement
      return code ++ (← following rest)

/-- The statements of a chain, one after another. -/
def chain : List Meaning → Lowering C.Code
  | [] => return []
  | first :: rest => do
    let code ← first.statement
    return code ++ (← following rest)

end Meaning

/-- A block with the meanings of what its inputs hold. -/
structure Site where
  head : BlockHead
  values : Entries (List Meaning)
  bodies : Entries (List Meaning)

namespace Site

def kind : BlockKind := site.head.kind

def hasInput (name : String) : Bool := site.values.has name || site.bodies.has name

def statements (input : String) : Lowering C.Code :=
  match site.bodies.get? input with
  | some (first :: rest) => Lowering.within ⟨input, first.id⟩ (Meaning.chain (first :: rest))
  | _ => return []

/-- The value in an input, or the default where the input is empty. -/
def value (input : String) (default : Value) : Lowering Value :=
  match site.values.get? input with
  | some (first :: _) => Lowering.within ⟨input, first.id⟩ (first.value (site.kind.takesText input))
  | _ => return default

def number (input default : String) : Lowering Value := site.value input (.number default)

def text (input default : String) : Lowering Value := site.value input (.text default)

def truth (input : String) (default : Bool) : Lowering Value := site.value input (.truth default)

end Site

end FlipperBlocks
