import FlipperBlocks.Application.Assembly

/-! The result of a compilation, and how it is taken apart again. -/
namespace FlipperBlocks

/-- The text of a program with its manifests, and what there is to report about it. -/
structure Artifact where
  text : String
  diagnostics : Diagnostics

namespace Artifact

/-- The characters before the first place where the pattern stands. -/
def before (pattern : List Char) : List Char → List Char
  | [] => []
  | c :: cs => if pattern.isPrefixOf (c :: cs) then [] else c :: before pattern cs

/-- What stands between a program and its manifests. -/
def footer : List Char := ("\n/*\n" ++ Application.manifestStart ++ "\n").toList

def source (artifact : Artifact) : String := String.ofList (before footer artifact.text.toList)

/-- Characters without the line ends after them. -/
def dropEnds (cs : List Char) : List Char := (cs.reverse.dropWhile fun c => c = '\r' || c = '\n').reverse

/-- The manifests among some rows. `body` holds the rows of an open manifest, the last one first;
a manifest that is never closed does not count. -/
def manifestsFrom (body : Option (List (List Char))) : List (List Char) → List String
  | [] => []
  | row :: rest =>
    let content := String.ofList (dropEnds row)
    match body with
    | none => manifestsFrom (if content = Application.manifestStart then some [] else none) rest
    | some rows =>
      if content = Application.manifestEnd then
        String.ofList (dropEnds rows.reverse.flatten) :: manifestsFrom none rest
      else manifestsFrom (some (row :: rows)) rest

/-- The manifests in a text, between rows that hold nothing but their marks. -/
def manifestsIn (text : String) : List String := manifestsFrom none (Text.rows text.toList)

def manifests (artifact : Artifact) : List String := manifestsIn artifact.text

end Artifact

end FlipperBlocks
