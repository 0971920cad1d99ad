/-! Sinks: where a text is written, piece by piece. -/
namespace FlipperBlocks

/-- A place with room for some number of bytes, or any number of them, and the pieces that were offered
to it, each with whether it was taken. -/
structure Sink where
  room : Option Nat
  offers : List (String × Bool) := []

/-- Why a program could not be written. -/
inductive WriteError where
  | full
  deriving DecidableEq

def WriteError.message : WriteError → String
  | full => "an error occurred when formatting an argument"

/-- Steps that write to a sink, the first of which that fails is the last one. -/
abbrev Writing := ExceptT WriteError (StateM Sink)

namespace Sink

def written (sink : Sink) : List String :=
  sink.offers.filterMap fun (piece, taken) => if taken then some piece else none

def size (sink : Sink) : Nat := sink.written.foldl (fun size piece => size + piece.utf8ByteSize) 0

/-- Whether a piece still fits. -/
def fits (sink : Sink) (piece : String) : Bool :=
  match sink.room with
  | some room => sink.size + piece.utf8ByteSize ≤ room
  | none => true

def text (sink : Sink) : String := "".intercalate sink.written

/-- Offers a piece, which is taken if it fits. -/
def offer (piece : String) : Writing Unit := do
  let sink ← get
  let taken := sink.fits piece
  set { sink with offers := sink.offers ++ [(piece, taken)] }
  if taken then return else throw .full

end Sink

end FlipperBlocks
