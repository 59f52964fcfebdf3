import PoolQuote.CommandLine

/-!
The command itself: reads the files that its arguments name, prints and sets the exit code.
-/

set_option autoImplicit false

namespace PoolQuote.CommandLine

def helpText : String :=
  "Quote a swap against an Elysium pool snapshot\n\n" ++
    "Usage: elysium-quote [OPTIONS] --snapshot <SNAPSHOT> --amount <AMOUNT> " ++
    "<--input-mint <INPUT_MINT>|--output-mint <OUTPUT_MINT>>\n"

def faultOf : IO.Error → FileFault
  | .permissionDenied .. => .denied
  | .inappropriateType _ code _ => if code = 21 then .isFolder else .notFolder
  | .invalidArgument .. => .nameTooLong
  | .userError _ => .notText
  | _ => .missing

def readFile (path : String) : IO (Except FileFault String) := do
  try
    return .ok (← IO.FS.readFile path)
  catch cause => return .error (faultOf cause)

def readFiles (arguments : Arguments) : IO (List (String × Except FileFault String)) := do
  let paths := arguments.config.toList ++ [arguments.snapshot]
  paths.mapM fun path => do return (path, ← readFile path)

def execute (arguments : Arguments) : IO UInt32 := do
  let files ← readFiles arguments
  match run (fun path => (files.lookup path).getD (.error .missing)) arguments with
  | .printed text =>
      IO.print text
      return 0
  | .failed message =>
      IO.eprintln ("Error: " ++ message)
      return 1
  | .givenUp =>
      IO.eprintln "Error: a number is too large"
      return 101

end PoolQuote.CommandLine

open PoolQuote CommandLine in
def main (arguments : List String) : IO UInt32 := do
  match read arguments with
  | .quote arguments => execute arguments
  | .help =>
      IO.print helpText
      return 0
  | .version =>
      IO.print versionText
      return 0
  | .wrongUsage =>
      IO.eprint helpText
      return 2
