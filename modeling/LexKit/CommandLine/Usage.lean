/-!
# Usage and help texts
-/

set_option autoImplicit false

namespace LexKit.Usage

def program : String :=
  "scanlab"

def usage : String :=
  "usage: scanlab [-h] [--config FILE] [--comment MARKER]\n" ++
  "               [--strict-strings | --no-strict-strings] [--arena-size SIZE]\n" ++
  "               [--debug]\n" ++
  "               [input]\n"

def help : String :=
  usage ++
  "\n" ++
  "Print the token stream of a source file\n" ++
  "\n" ++
  "positional arguments:\n" ++
  "  input                 Input file, or - for stdin (default)\n" ++
  "\n" ++
  "options:\n" ++
  "  -h, --help            show this help message and exit\n" ++
  "  --config FILE         Config file (default: auto-discover scanlab.toml)\n" ++
  "  --comment MARKER      Line comment marker (default: //)\n" ++
  "  --strict-strings, --no-strict-strings\n" ++
  "                        Fail on string literals without a closing quote\n" ++
  "                        (overrides config)\n" ++
  "  --arena-size SIZE     Scan with an arena of SIZE bytes (suffix K, M or G); 0\n" ++
  "                        uses the heap\n" ++
  "  --debug               Log allocator and lexer activity to stderr\n"

def report (message : String) : String :=
  usage ++ program ++ ": error: " ++ message ++ "\n"

end LexKit.Usage
