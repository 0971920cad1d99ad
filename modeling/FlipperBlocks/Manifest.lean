import FlipperBlocks.Block.Basic
import FlipperBlocks.C.Identifier
import FlipperBlocks.C.Quoted
import FlipperBlocks.Text.Lines

/-! Application manifests: the `application.fam` file that tells the build what an application is. -/
namespace FlipperBlocks

structure Manifest where
  id : String
  name : String
  type : String
  icon : Option String
  stack : Option Nat
  category : Option String
  author : Option String
  version : Option String
  description : Option String

namespace Manifest

/-- The function with which a generated program starts. -/
def entryPoint : String := "app_main"

def defaultType : String := "FlipperAppType.EXTERNAL"

/-- Whether a text is made of identifiers with points between them. -/
def isTypeName (text : String) : Bool :=
  (Text.partsAt '.' text.toList).all fun part => C.Identifier.isIdentifier (String.ofList part)

def ofHead (head : BlockHead) : Manifest :=
  let type := head.fieldOr "APPTYPE" defaultType
  let stack := ((head.numberField? "STACK").map (Binary64.clampWhole 0 (twoTo 32 - 1))).getD 4096
  { id := head.fieldOr "APPID" "my_app", name := head.fieldOr "NAME" "My App"
    type := if isTypeName type then type else defaultType
    icon := head.field? "ICON"
    stack := if stack = 0 then none else some stack
    category := head.fieldOr "CATEGORY" "General"
    author := head.fieldOr "AUTHOR" "Unknown"
    version := head.fieldOr "VERSION" "0.1.0"
    description := head.fieldOr "DESCRIPTION" "Generated from blocks" }

/-- A text between quotes that neither ends the line nor the comment the manifest stands in. -/
def quoted (text : String) : String :=
  let escaped := Text.replace '"' ['\\', '"'] (Text.replace '\\' ['\\', '\\'] text.toList)
  String.ofList ('"' :: (C.splitCommentEnds (Text.replace '\n' [' '] escaped) ++ ['"']))

/-- A field that may be left out or empty. -/
def optional (key : String) (value : Option String) : List (String × String) :=
  match value with
  | some text => if text == "" then [] else [(key, quoted text)]
  | none => []

/-- The fields of a manifest that have a value, with their text. -/
def fields (manifest : Manifest) : List (String × String) :=
  [("appid", quoted manifest.id)] ++
  optional "name" manifest.name ++
  [("apptype", manifest.type), ("entry_point", quoted entryPoint)] ++
  optional "fap_icon" manifest.icon ++
  (match manifest.stack with
    | some stack => [("stack_size", toString stack)]
    | none => []) ++
  optional "fap_category" manifest.category ++
  optional "fap_author" manifest.author ++
  optional "fap_version" manifest.version ++
  optional "fap_description" manifest.description

def fieldLine (field : String × String) : String :=
  "    " ++ field.1 ++ "=" ++ field.2 ++ ",\n"

def text (manifest : Manifest) : String :=
  "App(\n" ++ "".intercalate (manifest.fields.map fieldLine) ++ ")"

end Manifest

end FlipperBlocks
