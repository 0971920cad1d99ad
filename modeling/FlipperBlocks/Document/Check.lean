import FlipperBlocks.Document.Shape

/-! Checking a JSON value against the shape of a block document.

The members of an object are visited in the order of their names. -/
namespace FlipperBlocks.Document

open Json

/-- The fault of a value of another kind than its shape takes. -/
def Shape.mismatch (shape : Shape) (value : Json) : Fault := .wrongKind value.found shape.expectation

/-- Only a place for anything takes a scalar that is no text. -/
def Shape.checkScalar (shape : Shape) (value : Json) : Except Fault shape.Carrier :=
  match shape with
  | .anything => .ok value
  | other => .error (other.mismatch value)

mutual

def Shape.check (shape : Shape) : Json → Except Fault shape.Carrier
  | .text contents =>
    match shape with
    | .text => .ok contents
    | .anything => .ok (.text contents)
    | other => .error (other.mismatch (.text contents))
  | .list values =>
    match shape with
    | .list item => item.checkItems values
    | .anything => .ok (.list values)
    | .record form => do
      let store ← form.checkPositions form.members 0 .empty values
      let record ← form.build store
      if form.members.length < values.length then .error (.tooLong values.length) else .ok record
    | other => .error (other.mismatch (.list values))
  | .object members =>
    match shape with
    | .table entry => entry.checkEntries members
    | .anything => .ok (.object members)
    | .record form => do form.build (← form.checkMembers .empty members)
    | other => .error (other.mismatch (.object members))
  | .null => shape.checkScalar .null
  | .truth value => shape.checkScalar (.truth value)
  | .integer value => shape.checkScalar (.integer value)
  | .float value => shape.checkScalar (.float value)

def Shape.checkItems (item : Shape) : List Json → Except Fault (List item.Carrier)
  | [] => .ok []
  | value :: rest => do
    let head ← item.check value
    return head :: (← item.checkItems rest)

def Shape.checkEntries (entry : Shape) : List (String × Json) → Except Fault (Entries entry.Carrier)
  | [] => .ok []
  | (name, value) :: rest => do
    let head ← entry.check value
    return (name, head) :: (← entry.checkEntries rest)

/-- The members of a record given as an object. -/
def Form.checkMembers (form : Form) (store : Store) : List (String × Json) → Except Fault Store
  | [] => .ok store
  | (name, value) :: rest =>
    match form.member? name with
    | none => form.checkMembers store rest
    | some member =>
      match member.nullable, value with
      | true, .null => form.checkMembers (store.set member none) rest
      | _, value => do
        let given ← member.shape.check value
        form.checkMembers (store.set member (some given)) rest

/-- The members of a record given as a list. -/
def Form.checkPositions (form : Form) (members : List Member) (index : Nat) (store : Store) :
    List Json → Except Fault Store
  | [] =>
    if members.any Member.requiredInList then .error (form.tooShort index) else .ok store
  | value :: rest =>
    match members with
    | [] => .ok store
    | member :: members =>
      match member.nullable, value with
      | true, .null => form.checkPositions members (index + 1) (store.set member none) rest
      | _, value => do
        let given ← member.shape.check value
        form.checkPositions members (index + 1) (store.set member (some given)) rest

end

end FlipperBlocks.Document
