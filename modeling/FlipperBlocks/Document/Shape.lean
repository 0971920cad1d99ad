import FlipperBlocks.Document.Saved
import FlipperBlocks.Json.Fault

/-! The shape of a block document.

A shape says which values a place takes and what they become. A record is an object with known
members, or a list of them in order. `Document.Read` follows the shape through a text and
`Document.Check` through a value; both build the same data. -/
namespace FlipperBlocks.Document

inductive Form where
  | workspace
  | blocks
  | variable
  | block
  | input

abbrev Form.Carrier : Form → Type
  | .workspace => Workspace
  | .blocks => List SavedBlock
  | .variable => SavedVariable
  | .block => SavedBlock
  | .input => SavedInput

def Form.name : Form → String
  | .workspace => "RawWorkspace"
  | .blocks => "RawBlocks"
  | .variable => "RawVariable"
  | .block => "RawBlock"
  | .input => "RawInput"

inductive Shape where
  | text
  | list (item : Shape)
  | table (entry : Shape)
  | anything
  | record (form : Form)

abbrev Shape.Carrier : Shape → Type
  | .text => String
  | .list item => List item.Carrier
  | .table entry => Entries entry.Carrier
  | .anything => Json
  | .record form => form.Carrier

def Shape.expectation : Shape → String
  | .text => "a string"
  | .list _ => "a sequence"
  | .table _ => "a map"
  | .anything => "any value"
  | .record form => "struct " ++ form.name

inductive Member where
  | workspaceBlocks
  | workspaceVariables
  | blocksList
  | variableId
  | variableName
  | blockKind
  | blockId
  | blockFields
  | blockInputs
  | blockNext
  | inputBlock
  | inputShadow
  deriving DecidableEq

def Form.members : Form → List Member
  | .workspace => [.workspaceBlocks, .workspaceVariables]
  | .blocks => [.blocksList]
  | .variable => [.variableId, .variableName]
  | .block => [.blockKind, .blockId, .blockFields, .blockInputs, .blockNext]
  | .input => [.inputBlock, .inputShadow]

namespace Member

def key : Member → String
  | workspaceBlocks => "blocks"
  | workspaceVariables => "variables"
  | blocksList => "blocks"
  | variableId => "id"
  | variableName => "name"
  | blockKind => "type"
  | blockId => "id"
  | blockFields => "fields"
  | blockInputs => "inputs"
  | blockNext => "next"
  | inputBlock => "block"
  | inputShadow => "shadow"

abbrev shape : Member → Shape
  | workspaceBlocks => .record .blocks
  | workspaceVariables => .list (.record .variable)
  | blocksList => .list (.record .block)
  | variableId => .text
  | variableName => .text
  | blockKind => .text
  | blockId => .text
  | blockFields => .table .anything
  | blockInputs => .table (.record .input)
  | blockNext => .record .input
  | inputBlock => .record .block
  | inputShadow => .record .block

/-- Whether null may stand for a member that is absent. -/
def nullable : Member → Bool
  | variableId | variableName | blockId | blockNext | inputBlock | inputShadow => true
  | _ => false

/-- Whether a list that gives a record must reach this member. -/
def requiredInList : Member → Bool
  | variableId | variableName | blockKind => true
  | _ => false

end Member

def Form.member? (form : Form) (key : String) : Option Member :=
  form.members.find? fun member => member.key == key

/-- The fault of a list that ends before a required member, with `length` items. -/
def Form.tooShort (form : Form) (length : Nat) : Json.Fault :=
  .tooShort length
    ("struct " ++ form.name ++ " with " ++ toString form.members.length ++ " elements")

/-- Members read so far: each is absent, null, or has a value. -/
def Store := (member : Member) → Option (Option member.shape.Carrier)

namespace Store

def empty : Store := fun _ => none

def has (store : Store) (member : Member) : Bool := (store member).isSome

/-- The value of a member that is neither absent nor null. -/
def get? (store : Store) (member : Member) : Option member.shape.Carrier := (store member).join

def set (store : Store) (member : Member) (value : Option member.shape.Carrier) : Store :=
  fun other => if same : other = member then some (same ▸ value) else store other

end Store

/-- The record made of its members. Only the kind of a block has no default. -/
def Form.build : (form : Form) → Store → Except Json.Fault form.Carrier
  | .workspace, store => .ok ⟨(store.get? .workspaceBlocks).getD [], (store.get? .workspaceVariables).getD []⟩
  | .blocks, store => .ok ((store.get? .blocksList).getD [])
  | .variable, store => .ok ⟨store.get? .variableId, store.get? .variableName⟩
  | .block, store =>
    match store.get? .blockKind with
    | none => .error (.missing Member.blockKind.key)
    | some kind =>
      .ok (.mk kind (store.get? .blockId) ((store.get? .blockFields).getD [])
        ((store.get? .blockInputs).getD []) (store.get? .blockNext))
  | .input, store => .ok (.mk (store.get? .inputBlock) (store.get? .inputShadow))

end FlipperBlocks.Document
