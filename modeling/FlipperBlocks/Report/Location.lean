/-! Places in a program of blocks. -/
namespace FlipperBlocks

/-- One step on the way from the roots to a block, with the id of the block it leads to. -/
structure Step where
  segment : String
  block : Option String := none
  deriving DecidableEq

/-- The place of a block: the segments from the roots to it, and an id to know it by. -/
structure Location where
  segments : List String
  block : Option String
  deriving DecidableEq

namespace Location

/-- The place of the whole program. -/
def root : Location := ⟨[], none⟩

/-- The place at the end of a way, whose steps are given from the last to the first. Its id is
that of the last block on the way that has one. -/
def ofSteps (steps : List Step) : Location where
  segments := (steps.map Step.segment).reverse
  block := steps.findSome? Step.block

def path (location : Location) : String :=
  " > ".intercalate location.segments

/-- A location as reports show it. -/
def text (location : Location) : String :=
  (if location.path == "" then "<workspace>" else location.path) ++
    match location.block with
    | some block => " (block " ++ block ++ ")"
    | none => ""

end Location

end FlipperBlocks
