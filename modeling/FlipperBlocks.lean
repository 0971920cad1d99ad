import FlipperBlocks.Main
import FlipperBlocks.Proofs.Application.BoundedSinks
import FlipperBlocks.Proofs.Application.ButtonCallbacks
import FlipperBlocks.Proofs.Application.Drivers
import FlipperBlocks.Proofs.Application.RandomNumbers
import FlipperBlocks.Proofs.Application.StoppedOutputs
import FlipperBlocks.Proofs.C.SanitizedNames
import FlipperBlocks.Proofs.CommandLine.Outcomes
import FlipperBlocks.Proofs.Document.Loaders
import FlipperBlocks.Proofs.Lowering.BlockIds
import FlipperBlocks.Proofs.Lowering.BlockLengths
import FlipperBlocks.Proofs.Lowering.Branches
import FlipperBlocks.Proofs.Lowering.ByteStreams
import FlipperBlocks.Proofs.Lowering.CleanPrograms
import FlipperBlocks.Proofs.Lowering.KeyEvents
import FlipperBlocks.Proofs.Lowering.LineDiscipline
import FlipperBlocks.Proofs.Lowering.Locations
import FlipperBlocks.Proofs.Lowering.LogFormats
import FlipperBlocks.Proofs.Lowering.LoopCounters
import FlipperBlocks.Proofs.Lowering.Operators
import FlipperBlocks.Proofs.Lowering.SplicedInputs
