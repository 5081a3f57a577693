import LexKit.Main
import LexKit.Proofs.Buffer.Amortization
import LexKit.Proofs.CommandLine.Ending
import LexKit.Proofs.CommandLine.Precedence
import LexKit.Proofs.Integer
import LexKit.Proofs.Listing
import LexKit.Proofs.Scan.Margin
import LexKit.Proofs.Session.Arena
import LexKit.Proofs.Settings.Size
import LexKit.Proofs.Source.Position
import LexKit.Proofs.Symbol.Arrangement
import LexKit.Proofs.Symbol.Validation
import LexKit.Proofs.Text.Decoding
import LexKit.Proofs.Workspace.Diagnosis
import LexKit.Proofs.Workspace.Doubling
import LexKit.Proofs.Workspace.Exhaustion
import LexKit.Proofs.Workspace.InlineStorage
import LexKit.Proofs.Workspace.Joining
import LexKit.Proofs.Workspace.Ledger
import LexKit.Proofs.Workspace.LineEndings
import LexKit.Proofs.Workspace.Lines
import LexKit.Proofs.Workspace.Literals
import LexKit.Proofs.Workspace.Numerals
import LexKit.Proofs.Workspace.Refinement
import LexKit.Proofs.Workspace.Rejection
import LexKit.Proofs.Workspace.Report
import LexKit.Proofs.Workspace.Reuse
import LexKit.Proofs.Workspace.Spelling
import LexKit.Proofs.Workspace.Strictness
import LexKit.Proofs.Workspace.Threshold
import LexKit.Proofs.Workspace.Tokenization
import LexKit.Session.Routine
