import FlipperBlocks.CommandLine.Device

/-! Where a path leads, from a directory that holds nothing but files.

A path is followed part by part. A part that is not the last has to be a directory, and so has one
with a slash behind it. Names are bounded in bytes, as are whole paths. -/
namespace FlipperBlocks.CommandLine

inductive Place where
  /-- The one where paths start. -/
  | home
  /-- One that is named from the root. -/
  | system (parts : List String)
  /-- One above home, taken to hold nothing else. -/
  | above
  deriving DecidableEq

def Place.parent : Place → Place
  | home | above => above
  | system parts => system parts.dropLast

inductive Entry where
  | file
  | device (device : Device)
  | directory (place : Place)
  | absent
  deriving DecidableEq

/-- What stands under a name in a directory, where the files at home are known. -/
def Place.entry (isFile : String → Bool) (name : String) : Place → Entry
  | home => if isFile name then .file else .absent
  | system parts =>
    match SystemEntry.ofParts (parts ++ [name]) with
    | .directory => .directory (system (parts ++ [name]))
    | .device device => .device device
    | .absent => .absent
  | above => .absent

/-- What a path leads to: a directory, or a name in one, which asks for a directory if there is a
slash behind it. -/
inductive Destination where
  | directory
  | named (place : Place) (name : String) (slashed : Bool)
  deriving DecidableEq

def checkName (name : String) : Except Trouble Unit :=
  if name.utf8ByteSize ≤ 255 then .ok () else .error .nameTooLong

/-- Follows the parts of a path from a directory. -/
def follow (isFile : String → Bool) (place : Place) : List (List Char) → Except Trouble Destination
  | [] => .ok .directory
  | part :: rest =>
    if part = [] ∨ part = ['.'] then follow isFile place rest
    else if part = ['.', '.'] then follow isFile place.parent rest
    else
      let name := String.ofList part
      if rest.all List.isEmpty then .ok (.named place name (!rest.isEmpty))
      else
        match checkName name, place.entry isFile name with
        | .error trouble, _ => .error trouble
        | .ok (), .directory inner => follow isFile inner rest
        | .ok (), .absent => .error .missing
        | .ok (), _ => .error .notDirectory

/-- What a path leads to. It starts at home unless it begins with a slash. -/
def Destination.ofPath (isFile : String → Bool) (path : String) : Except Trouble Destination :=
  if path = "" then .error .missing
  else if 4096 ≤ path.utf8ByteSize then .error .nameTooLong
  else
    follow isFile (if path.toList.head? = some '/' then .system [] else .home)
      (Text.partsAt '/' path.toList)

end FlipperBlocks.CommandLine
