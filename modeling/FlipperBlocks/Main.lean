import FlipperBlocks.CommandLine.Run

/-! The command: reads a document of blocks and writes the program it describes. -/
namespace FlipperBlocks.CommandLine

/-- What kept the system from reading or writing. -/
def Trouble.ofError : IO.Error → Trouble
  | .noFileOrDirectory .. => .missing
  | .inappropriateType _ code _ => if code = 20 ∨ code = -20 then .notDirectory else .isDirectory
  | .resourceExhausted _ 28 _ => .noSpace
  | error => .other (toString error)

/-- The bytes that are left to read from a stream. -/
partial def readBytes (stream : IO.FS.Stream) (bytes : ByteArray) : IO ByteArray := do
  let more ← stream.read 65536
  if more.isEmpty then return bytes else readBytes stream (bytes ++ more)

/-- The text that an action reads. -/
def textOf (action : IO ByteArray) : IO (Except Trouble String) := do
  try
    match String.fromUTF8? (← action) with
    | some text => return .ok text
    | none => return .error .notText
  catch error => return .error (.ofError error)

/-- The host that works on files and streams of the system. -/
def Host.system : Host IO where
  readInput := textOf do readBytes (← IO.getStdin) ByteArray.empty
  readFile path := textOf (IO.FS.readBinFile path)
  writeFile path text := do
    match ← (IO.FS.Handle.mk path .write).toBaseIO with
    | .error error => return .error (.opening (.ofError error))
    | .ok handle =>
      try
        handle.putStr text
        handle.flush
        return .ok ()
      catch error => return .error (.filling (.ofError error))
  print text := IO.print text
  report text := IO.eprint text

end FlipperBlocks.CommandLine

open FlipperBlocks.CommandLine in
def main (arguments : List String) : IO UInt32 := do
  return UInt32.ofNat (← run Host.system arguments)
