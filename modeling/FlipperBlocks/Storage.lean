import FlipperBlocks.C.Code
import FlipperBlocks.Value

/-! Storage of generated programs.

Numbers are members of the application's structure and are reached through it. Texts and byte
arrays are global. -/
namespace FlipperBlocks

inductive StorageType where
  | int
  | unsigned8
  | unsigned16
  | unsigned32
  | text (size : Nat)
  | bytes (length : Nat) (initial : Option (List UInt8))
  deriving DecidableEq

/-- Where storage lives. -/
inductive Scope where
  | application
  | program
  deriving DecidableEq

structure Storage where
  name : String
  type : StorageType
  deriving DecidableEq

def hexByte (byte : UInt8) : String :=
  String.ofList ['0', 'x', (C.hexDigit (byte.toNat / 16)).toUpper, (C.hexDigit (byte.toNat % 16)).toUpper]

namespace Storage

def scope (storage : Storage) : Scope :=
  match storage.type with
  | .text _ | .bytes .. => .program
  | _ => .application

def kind (storage : Storage) : ValueKind :=
  match storage.type with
  | .text _ => .text
  | .bytes .. => .bytes
  | _ => .number

def place (storage : Storage) : C.Expr :=
  match storage.scope with
  | .application => .member "app" storage.name
  | .program => .name storage.name

def value (storage : Storage) : Value where
  expr := storage.place
  kind := storage.kind
  array := match storage.kind with
    | .bytes => some storage.name
    | _ => none

def declaration (storage : Storage) : String :=
  let name := storage.name
  match storage.type with
  | .int => "int " ++ name ++ ";"
  | .unsigned8 => "uint8_t " ++ name ++ ";"
  | .unsigned16 => "uint16_t " ++ name ++ ";"
  | .unsigned32 => "uint32_t " ++ name ++ ";"
  | .text size => "char " ++ name ++ "[" ++ toString size ++ "];"
  | .bytes length none => "uint8_t " ++ name ++ "[" ++ toString length ++ "];"
  | .bytes length (some initial) =>
    "uint8_t " ++ name ++ "[" ++ toString length ++ "] = \x7b " ++
      ", ".intercalate (initial.map hexByte) ++ " \x7d;"

/-- The line that sets a member of the application to zero. -/
def reset? (storage : Storage) : Option C.Line :=
  match storage.scope with
  | .application => some (.run (.assign .set storage.place (.number "0")))
  | .program => none

end Storage

end FlipperBlocks
