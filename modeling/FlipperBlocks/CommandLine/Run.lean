import FlipperBlocks.CommandLine.Arguments
import FlipperBlocks.Compile

/-! What the command does, over any host that can read and write for it. -/
namespace FlipperBlocks.CommandLine

/-- Why reading or writing did not work. -/
inductive Trouble where
  | missing
  | notDirectory
  | isDirectory
  | nameTooLong
  | noDevice
  | noSpace
  | notText
  | other (text : String)
  deriving DecidableEq

def Trouble.message : Trouble → String
  | missing => "No such file or directory (os error 2)"
  | notDirectory => "Not a directory (os error 20)"
  | isDirectory => "Is a directory (os error 21)"
  | nameTooLong => "File name too long (os error 36)"
  | noDevice => "No such device or address (os error 6)"
  | noSpace => "No space left on device (os error 28)"
  | notText => "stream did not contain valid UTF-8"
  | other text => text

/-- Why a file was not written: it could not be opened, or not be filled. -/
inductive WriteTrouble where
  | opening (trouble : Trouble)
  | filling (trouble : Trouble)
  deriving DecidableEq

/-- Why a run failed, and what led to it. -/
structure Failure where
  message : String
  causes : List String

namespace Failure

def numberedCauses (number : Nat) : List String → String
  | [] => ""
  | cause :: rest =>
    "    " ++ toString number ++ ": " ++ cause ++ "\n" ++ numberedCauses (number + 1) rest

/-- The report of a failure. A single cause has no number. -/
def text (failure : Failure) : String :=
  "Error: " ++ failure.message ++ "\n" ++
    match failure.causes with
    | [] => ""
    | [cause] => "\nCaused by:\n    " ++ cause ++ "\n"
    | causes => "\nCaused by:\n" ++ numberedCauses 0 causes

def ofTrouble (message : String) (trouble : Trouble) : Failure := ⟨message, [trouble.message]⟩

def ofProgram (path : String) : WriteTrouble → Failure
  | .opening trouble => ofTrouble ("Failed to open for writing: " ++ path) trouble
  | .filling trouble => ofTrouble ("Failed to emit to file: " ++ path) trouble

def ofManifests (path : String) : WriteTrouble → Failure
  | .opening trouble | .filling trouble => ofTrouble ("Failed to write manifest: " ++ path) trouble

def ofLoadError (error : LoadError) : Failure :=
  ⟨"Failed to load block document",
    match error with
    | .notAnObject => [error.message]
    | .malformed fault => [error.message, fault.message]⟩

def noManifest : Failure := ⟨"The program declares no application manifest", []⟩

end Failure

/-- How a host reads and writes. -/
structure Host (m : Type → Type) where
  readInput : m (Except Trouble String)
  readFile : String → m (Except Trouble String)
  writeFile : String → String → m (Except WriteTrouble Unit)
  print : String → m Unit
  report : String → m Unit

def versionText : String := "Blocks to Flipper Zero compiler 1.0.0\n"

def usageText : String :=
  "USAGE: [INPUT] [-o FILE] [--manifest FILE] [--strict] [-v] [-V] [-h]\n"

section

variable {m : Type → Type} [Monad m]

/-- A result, or the failure that a trouble to get it means. -/
def orFail {ε α : Type} (failure : ε → Failure) (result : m (Except ε α)) : ExceptT Failure m α := do
  match ← (result : m _) with
  | .ok value => return value
  | .error trouble => throw (failure trouble)

/-- The document: that of a file, or of the input where no file is named. -/
def readDocument (host : Host m) : Option String → ExceptT Failure m String
  | none | some "-" => orFail (.ofTrouble "Failed to read from stdin") host.readInput
  | some path => orFail (.ofTrouble ("Failed to open for reading: " ++ path)) (host.readFile path)

def loadProgram (document : String) : ExceptT Failure m Program :=
  match Program.ofText document with
  | .ok program => return program
  | .error error => throw (.ofLoadError error)

/-- Writes the program to a file, or prints it where no file is named. -/
def writeProgram (host : Host m) (artifact : Artifact) : Option String → ExceptT Failure m Unit
  | none | some "-" => host.print artifact.text
  | some path => orFail (.ofProgram path) (host.writeFile path artifact.text)

/-- The text of a file of manifests. -/
def manifestFile (manifests : List String) : String :=
  "\n\n".intercalate manifests ++ "\n"

/-- Writes the manifests to a file; there have to be some. -/
def writeManifests (host : Host m) (artifact : Artifact) : Option String → ExceptT Failure m Unit
  | none => return
  | some path =>
    match artifact.manifests with
    | [] => throw .noManifest
    | manifests => orFail (.ofManifests path) (host.writeFile path (manifestFile manifests))

/-- Compiles a document and gives the exit code. A strict run fails if there is anything to
report. -/
def compileDocument (host : Host m) (options : Options) : ExceptT Failure m Nat := do
  let document ← readDocument host options.input
  let program ← loadProgram document
  let artifact := program.compile
  writeProgram host artifact options.output
  writeManifests host artifact options.manifest
  if options.strict && !artifact.diagnostics.isClean then
    host.report artifact.diagnostics.report
    return 1
  else
    return 0

def compile (host : Host m) (options : Options) : m Nat := do
  match ← (compileDocument host options).run with
  | .ok code => return code
  | .error failure =>
    host.report failure.text
    return 1

def run (host : Host m) (arguments : List String) : m Nat := do
  match Request.ofArguments arguments with
  | .compile options => compile host options
  | .version =>
    host.print versionText
    return 0
  | .help =>
    host.print usageText
    return 0
  | .misuse =>
    host.report usageText
    return 2

end

end FlipperBlocks.CommandLine
