import FlipperBlocks.Document.Shape
import FlipperBlocks.Json.Skip

/-! Reading a block document from bytes.

The shape is followed while the bytes are read, so a value of the wrong kind is a fault at its
place, before anything that comes after it. Members that a record does not know are skipped. -/
namespace FlipperBlocks.Document

open Json Json.Reader

/-- A member's value, or null where it may be absent. -/
def Member.read (member : Member) (value : Reader member.shape.Carrier) :
    Reader (Option member.shape.Carrier) := do
  if member.nullable && (← peek) = some Byte.lowerN then
    skip
    word Byte.afterN
    return none
  else
    return some (← value)

/-- The members of a record given as an object, after its opening brace. -/
def Form.readMembers (form : Form) (value : (member : Member) → Reader member.shape.Carrier)
    (unknown : Reader Unit) : Nat → Bool → Store → Reader Store
  | 0, _, _ => throw .endOfObject
  | budget + 1, first, store => do
    if ← nextMember first then
      let key ← Reader.text
      match form.member? key with
      | some member =>
        if store.has member then throw (.duplicate key)
        colon
        let given ← member.read (value member)
        form.readMembers value unknown budget false (store.set member given)
      | none =>
        colon
        unknown
        form.readMembers value unknown budget false store
    else
      return store

/-- The members of a record given as a list, after its opening bracket. -/
def Form.readItems (form : Form) (value : (member : Member) → Reader member.shape.Carrier) :
    List Member → Nat → Store → Reader Store
  | [], _, store => return store
  | member :: rest, index, store => do
    if ← nextItem (index == 0) then
      let given ← member.read (value member)
      form.readItems value rest (index + 1) (store.set member given)
    else if member.requiredInList then
      throw (form.tooShort index)
    else
      form.readItems value rest (index + 1) store

/-- A record given as an object, after its opening brace. -/
def Form.readObject (form : Form) (budget : Nat)
    (value : (member : Member) → Reader member.shape.Carrier) : Reader form.Carrier := do
  let store ← form.readMembers value (Skip.value budget) budget true .empty
  let record ← form.build store
  skip
  return record

/-- A record given as a list, after its opening bracket. -/
def Form.readList (form : Form) (value : (member : Member) → Reader member.shape.Carrier) :
    Reader form.Carrier := do
  let store ← form.readItems value form.members 0 .empty
  let record ← form.build store
  endList
  return record

def Shape.read : Nat → (shape : Shape) → Reader shape.Carrier
  | 0, _ => throw .endOfValue
  | _ + 1, .text => do
    match ← peek with
    | none => throw .endOfValue
    | some b => if b = Byte.quote then skip; Reader.text else unexpected b Shape.text.expectation
  | budget + 1, .list item => do
    match ← peek with
    | none => throw .endOfValue
    | some b =>
      if b = Byte.openList then skip; listOf budget (item.read budget)
      else unexpected b (Shape.list item).expectation
  | budget + 1, .table entry => do
    match ← peek with
    | none => throw .endOfValue
    | some b =>
      if b = Byte.openObject then
        skip
        return Entries.ofPairs (← objectOf budget (entry.read budget))
      else unexpected b (Shape.table entry).expectation
  | budget + 1, .anything => Reader.value (budget + 1)
  | budget + 1, .record form => do
    match ← peek with
    | none => throw .endOfValue
    | some b =>
      if b = Byte.openObject then
        skip
        form.readObject budget fun member => member.shape.read budget
      else if b = Byte.openList then
        skip
        form.readList fun member => member.shape.read budget
      else unexpected b (Shape.record form).expectation

/-- Passes over a root that is no object: a scalar is read, the items of a list are skipped. -/
def readOther (budget : Nat) (b : UInt8) : Reader Unit := do
  if b = Byte.openList then
    skip
    discard (listOf budget (Skip.value budget))
  else
    discard (scalar b)

/-- Reads the root of a document, which describes a workspace only if it is an object. -/
def readRoot (budget : Nat) : Reader (Option Workspace) := do
  match ← peek with
  | none => throw .endOfValue
  | some b =>
    if b = Byte.openObject then
      skip
      let workspace ← Form.workspace.readObject budget fun member => member.shape.read budget
      finish
      return some workspace
    else
      readOther budget b
      finish
      return none

end FlipperBlocks.Document
