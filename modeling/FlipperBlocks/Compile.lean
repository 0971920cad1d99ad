import FlipperBlocks.Application.Writing
import FlipperBlocks.Artifact
import FlipperBlocks.Block.Load
import FlipperBlocks.Lowering.Program

/-! Compilation of programs. -/
namespace FlipperBlocks

namespace Program

/-- The state after all blocks of a program have been lowered. -/
def lowered (program : Program) : Compilation := (program.lower.run {}).2

/-- Lowers a program and writes its text to a sink. What there is to report is told only if the sink took
all of the text. -/
def compileInto (program : Program) (sink : Sink) : Sink × Except WriteError Diagnostics :=
  let compilation := program.lowered
  let writing : Writing Diagnostics := do
    Application.writeText compilation.draft
    return (Lowering.takeDiagnostics compilation).1
  let (result, sink) := writing.run sink
  (sink, result)

def compile (program : Program) : Artifact :=
  let (sink, result) := program.compileInto { room := none }
  { text := sink.text, diagnostics := result.toOption.getD { entries := [] } }

end Program

end FlipperBlocks
