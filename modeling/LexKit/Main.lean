import LexKit.CommandLine.Run

/-!
# The program

Reads the files that a run asks for, and writes what the run leaves.
-/

set_option autoImplicit false

namespace LexKit.Main

/-- The fault that a failed read reports. A name on the way that is no directory is noticed on
opening, when the error tells the file; a directory is noticed on reading, when it does not. -/
def faultOf : IO.Error → ReadFault
  | .noFileOrDirectory .. => .missing
  | .inappropriateType (some _) .. => .notDirectory
  | .inappropriateType none .. => .directory
  | .permissionDenied .. => .denied
  | .invalidArgument _ _ details =>
      if details = ReadFault.looped.message then .looped
      else if details = ReadFault.nameTooLong.message then .nameTooLong
      else .other details
  | error => .other (toString error)

def readFile (path : FilePath) : IO (Except ReadFault Bytes) := do
  try
    let bytes ← IO.FS.readBinFile path.text
    return .ok bytes.toList
  catch failure =>
    return .error (faultOf failure)

/-- Reads a stream to its end, behind the bytes `done`. -/
partial def readAll (stream : IO.FS.Stream) (done : ByteArray) : IO ByteArray := do
  let bytes ← stream.read 65536
  if bytes.isEmpty then return done
  readAll stream (done ++ bytes)

def filesOf (contents : List (FilePath × Except ReadFault Bytes)) : Files := fun path =>
  (contents.lookup path).getD (.error .missing)

def explain : Crash → String
  | .options (.unreachable fault) => "cannot read the config file: " ++ fault.message
  | .options .undecodable => "the config file is not UTF-8"
  | .options _ => "an option has no usable value"
  | .memory _ => "out of memory"
  | .unnameable _ => "the input cannot be the name of a file"

/-- The exit code, and what is still to be written to the error output. -/
def concluding : Ending → UInt32 × String
  | .exit code => (UInt32.ofNat code, "")
  | .crash cause => (1, Usage.program ++ ": " ++ explain cause ++ "\n")

def runWith (words : List String) : IO UInt32 := do
  let contents ← (CommandLine.filesRead words).mapM fun path => do
    return (path, ← readFile path)
  let input ←
    if CommandLine.readsStandardInput words then readAll (← IO.getStdin) .empty else pure .empty
  let completion := CommandLine.run words (filesOf contents) input.toList
  let (code, explanation) := concluding completion.ending
  (← IO.getStdout).putStr completion.output
  (← IO.getStderr).putStr (completion.errors ++ explanation)
  return code

end LexKit.Main

def main (words : List String) : IO UInt32 :=
  LexKit.Main.runWith words
