import FlipperBlocks.Lowering.Block

/-! Programs: the chains at top level.

What counts at top level is what blocks add to the draft. Code that would run there has no place to
run, so that a block which gives any is discarded. -/
namespace FlipperBlocks

namespace Meaning

/-- Lowers a block at top level, discarding it if it gives code of its own. -/
def loose (block : Meaning) : Lowering Unit := do
  let kept ← Lowering.tentatively do
    let code ← block.statement
    return if code.isEmpty then some () else none
  if kept.isNone then
    Lowering.degrade (.detached block.kind.name)

/-- Lowers the blocks after the first one of a chain at top level. -/
def followingLoose : List Meaning → Lowering Unit
  | [] => return
  | next :: rest =>
    Lowering.within ⟨"next", next.id⟩ do
      next.loose
      followingLoose rest

/-- Lowers a chain at top level. One that starts with a value is discarded whole. -/
def looseChain (index : Nat) : List Meaning → Lowering Unit
  | [] => return
  | first :: rest =>
    Lowering.within ⟨"blocks[" ++ toString index ++ "]", first.id⟩ do
      if first.kind.producesValue then
        Lowering.degrade (.detached first.kind.name)
      else
        Lowering.inPhase .detached do
          first.loose
          followingLoose rest

end Meaning

namespace Program

def lowerFrom (index : Nat) : List Chain → Lowering Unit
  | [] => return
  | root :: rest => do
    Meaning.looseChain index (chainMeanings root)
    lowerFrom (index + 1) rest

def lower (program : Program) : Lowering Unit := lowerFrom 0 program.roots

end Program

end FlipperBlocks
