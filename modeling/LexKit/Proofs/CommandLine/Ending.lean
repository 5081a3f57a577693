import LexKit.Proofs.CommandLine.Gathering
import LexKit.Proofs.CommandLine.Resolving
import LexKit.Proofs.CommandLine.Scanning

/-!
# How a run ends

A run that was asked to scan ends in one of eight ways, and `Ends` tells which. The exit code is 0
if the source was listed and 1 if it has a lexical failure. All else should end with code 2 and a
complaint, but three kinds of fault have no message and end the run abruptly: some faults of the
options, an input that cannot be the name of a file, and memory that the machine does not have.
-/

set_option autoImplicit false

namespace LexKit

namespace Completion

def listing (tokens : List (Token Bytes)) : Completion :=
  ⟨.exit 0, Listing.ofTokens tokens, ""⟩

def report (name : String) (source : Bytes) (failure : Failure) : Completion :=
  ⟨.exit 1, "", (failure.toError source).format name ++ "\n"⟩

end Completion

namespace OptionFault

end OptionFault

namespace Options

variable {options : Options} {machine : Machine} {files : Files} {standardInput : Bytes}

end Options

namespace Arguments

end Arguments

namespace CommandLine

variable {arguments : Arguments} {machine : Machine} {files : Files} {standardInput : Bytes}

/-! ## Logs -/

variable {options : Options} {source : Bytes}

end CommandLine

end LexKit
