import FlipperBlocks.Json.Value

/-! A block program as the editor saves it.

A saved block names its kind, may carry an id, and holds fields, inputs and a link to the block
after it. An input or a link holds a block, a shadow that stands in for one, both or neither. -/
namespace FlipperBlocks.Document

mutual

inductive SavedBlock where
  | mk (kind : String) (id : Option String) (fields : Entries Json)
      (inputs : List (String × SavedInput)) (next : Option SavedInput)

inductive SavedInput where
  | mk (block shadow : Option SavedBlock)

end

/-- A variable of the editor's table: blocks refer to it by its id. -/
structure SavedVariable where
  id : Option String
  name : Option String

structure Workspace where
  blocks : List SavedBlock
  table : List SavedVariable

end FlipperBlocks.Document
