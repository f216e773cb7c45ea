import StackScheme.Main
import StackScheme.Proofs.Compiler.Safety
import StackScheme.Proofs.Compiler.Simulation
import StackScheme.Proofs.Evaluator.Refinement
import StackScheme.Proofs.Machine.Listing
import StackScheme.Proofs.Reader.Soundness
import StackScheme.Proofs.Relocation
import StackScheme.Proofs.WellShaped.Assignment
import StackScheme.Proofs.WellShaped.Evaluation
import StackScheme.Proofs.WellShaped.Execution
import StackScheme.Proofs.Evaluator.Height
import StackScheme.Proofs.Evaluator.Shortage
import StackScheme.Proofs.Evaluator.Agreement
import StackScheme.Proofs.Machine.Site
import StackScheme.Proofs.Machine.Pieces
import StackScheme.Proofs.Compiler.Blocks
import StackScheme.Proofs.Compiler.Record
import StackScheme.Proofs.Compiler.Session
import StackScheme.Proofs.Static.Judging
import StackScheme.Proofs.Static.Acceptance
import StackScheme.Proofs.Static.Agreement
import StackScheme.Proofs.Machine.Position
import StackScheme.Proofs.Compiler.Reuse
import StackScheme.Proofs.Compiler.Accesses
import StackScheme.Proofs.Compiler.Allocation
import StackScheme.Proofs.Renaming.Names
import StackScheme.Proofs.Renaming.Programs
import StackScheme.Proofs.Bytecode.Canonical
import StackScheme.Proofs.Files.Texts
import StackScheme.Proofs.Machine.Bounds
import StackScheme.Proofs.Files.Builds
import StackScheme.Proofs.Machine.Blockage
import StackScheme.Proofs.Reader.Tokens
import StackScheme.Proofs.Reader.Failures
import StackScheme.Proofs.Joining
