import FlipperBlocks.CommandLine.Path

/-! A host in memory: one directory of files, an input, and what has been printed. -/
namespace FlipperBlocks.CommandLine

structure Desk where
  input : List UInt8 := []
  files : Entries String := []
  printed : String := ""
  reported : String := ""

namespace Desk

def decode (bytes : List UInt8) : Except Trouble String :=
  match String.fromUTF8? ⟨bytes.toArray⟩ with
  | some text => .ok text
  | none => .error .notText

def print (desk : Desk) (text : String) : Desk := { desk with printed := desk.printed ++ text }

def report (desk : Desk) (text : String) : Desk := { desk with reported := desk.reported ++ text }

def destination (desk : Desk) (path : String) : Except Trouble Destination :=
  Destination.ofPath desk.files.has path

def readDevice (desk : Desk) : Device → Except Trouble String
  | .input => decode desk.input
  | .terminal => .error .noDevice
  | .null | .full | .output | .report => .ok ""

def readFile (desk : Desk) (path : String) : Except Trouble String := do
  match ← desk.destination path with
  | .directory => .error .isDirectory
  | .named place name slashed =>
    checkName name
    match place.entry desk.files.has name with
    | .absent => .error .missing
    | .directory _ => .error .isDirectory
    | .file => if slashed then .error .notDirectory else return (desk.files.get? name).getD ""
    | .device device => if slashed then .error .notDirectory else desk.readDevice device

def writeDevice (desk : Desk) (text : String) : Device → Except WriteTrouble Desk
  | .null | .input => .ok desk
  | .full => .error (.filling .noSpace)
  | .terminal => .error (.opening .noDevice)
  | .output => .ok (desk.print text)
  | .report => .ok (desk.report text)

/-- The entry that a file at a path is written to, with its place and name. -/
def target (desk : Desk) (path : String) : Except Trouble (Place × String × Entry) := do
  match ← desk.destination path with
  | .directory | .named _ _ true => .error .isDirectory
  | .named place name false =>
    checkName name
    match place.entry desk.files.has name with
    | .directory _ => .error .isDirectory
    | entry => return (place, name, entry)

/-- The desk with a text in the file that a path leads to. Files outside of its directory are not
kept. -/
def writeFile (desk : Desk) (path text : String) : Except WriteTrouble Desk := do
  match ← (desk.target path).mapError .opening with
  | (_, _, .device device) => desk.writeDevice text device
  | (.home, name, _) => return { desk with files := desk.files.put name text }
  | _ => return desk

end Desk

def Host.desk : Host (StateM Desk) where
  readInput := return Desk.decode (← get).input
  readFile path := return (← get).readFile path
  writeFile path text := do
    match (← get).writeFile path text with
    | .ok desk =>
      set desk
      return .ok ()
    | .error trouble => return .error trouble
  print text := modify (·.print text)
  report text := modify (·.report text)

end FlipperBlocks.CommandLine
