import FlipperBlocks.Block.Basic
import FlipperBlocks.Document.Check
import FlipperBlocks.Document.Read

/-! Programs from documents.

A link or an input leads to its block, or to its shadow where it has no block, and ends there where
it has neither. Links are followed in a loop, so that only inputs nest. A field that refers to a
variable becomes the variable's name. -/
namespace FlipperBlocks

open Document

/-- The name of a variable reference: its own, or that of the variable with its id, or the id. -/
def referenceName (names : Entries String) (reference : Json) : Option String :=
  let id := (reference.member? "id").bind Json.text?
  ((reference.member? "name").bind Json.text?).or ((id.bind names.get?).or id)

/-- The field that a saved value stands for. -/
def Field.ofJson (names : Entries String) : Json → Option Field
  | .text contents => some (.text contents)
  | .integer value => some (.number (.ofInt value))
  | .float value => some (.number value)
  | .truth value => some (.truth value)
  | .object members => (referenceName names (.object members)).map .text
  | .null | .list _ => none

/-- The head of a saved block. -/
def BlockHead.ofSaved (names : Entries String) (kind : String) (id : Option String)
    (fields : Entries Json) : BlockHead where
  kind := .ofName kind
  id := id
  fields := fields.filterMap fun entry => (Field.ofJson names entry.2).map (entry.1, ·)

/-- The block with one more input, which its kind counts among the statements or the values. Inputs
come in the order of their names, so the new one is the last. -/
def Block.place (name : String) (chain : Chain) : Block → Block
  | mk head values bodies =>
    if head.kind.takesStatements name then mk head values (bodies ++ [(name, chain)])
    else mk head (values ++ [(name, chain)]) bodies

mutual

/-- The chain that starts with a saved block. It is put together from its last block on. -/
def Document.SavedBlock.load (names : Entries String) : SavedBlock → Chain
  | .mk kind id fields inputs next =>
    let followers := SavedBlock.follow names #[] next
    SavedBlock.fill names (.mk (.ofSaved names kind id fields) [] []) inputs ::
      followers.foldr (fun block rest => block :: rest) []

/-- The loop along the links, which collects the blocks that they lead to. -/
def Document.SavedBlock.follow (names : Entries String) (before : Array Block) :
    Option SavedInput → Array Block
  | some (.mk (some (.mk kind id fields inputs next)) _)
  | some (.mk none (some (.mk kind id fields inputs next))) =>
    let block := SavedBlock.fill names (.mk (.ofSaved names kind id fields) [] []) inputs
    SavedBlock.follow names (before.push block) next
  | some (.mk none none) | none => before

/-- The loop over the inputs of a block. -/
def Document.SavedBlock.fill (names : Entries String) (block : Block) : List (String × SavedInput) → Block
  | [] => block
  | (name, input) :: rest =>
    match input.load? names with
    | some chain => SavedBlock.fill names (block.place name chain) rest
    | none => SavedBlock.fill names block rest

def Document.SavedInput.load? (names : Entries String) : SavedInput → Option Chain
  | .mk (some block) _ => some (block.load names)
  | .mk none (some shadow) => some (shadow.load names)
  | .mk none none => none

end

/-- The names of the variables that have both an id and a name, by id. -/
def variableNames (table : List SavedVariable) : Entries String :=
  Entries.ofPairs (table.filterMap fun saved => do
    return (← saved.id, ← saved.name))

def Program.ofWorkspace (workspace : Workspace) : Program :=
  ⟨workspace.blocks.map (SavedBlock.load (variableNames workspace.table))⟩

/-- Why a document is no program. -/
inductive LoadError where
  | notAnObject
  | malformed (fault : Json.Fault)

def LoadError.message : LoadError → String
  | notAnObject => "Expected a JSON object at the document root"
  | malformed fault => "Malformed block document: " ++ fault.message

namespace Program

def ofBytes (bytes : List UInt8) : Except LoadError Program :=
  match (readRoot (bytes.length + 1)).run' bytes with
  | .error fault => .error (.malformed fault)
  | .ok none => .error .notAnObject
  | .ok (some workspace) => .ok (ofWorkspace workspace)

def ofText (text : String) : Except LoadError Program := ofBytes text.toUTF8.toList

def ofJson : Json → Except LoadError Program
  | .object members =>
    match (Shape.record .workspace).check (.object members) with
    | .error fault => .error (.malformed fault)
    | .ok workspace => .ok (ofWorkspace workspace)
  | _ => .error .notAnObject

end Program

end FlipperBlocks
