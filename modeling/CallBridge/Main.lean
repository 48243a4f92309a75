import CallBridge.CommandLine.Run

/-!
# The program

The outer layer: it reads the files that the options name, writes what
`CommandLine.toWrite` says, and shows what `CommandLine.conclude` says.
-/

namespace CallBridge

open CommandLine
open Files (FileFault)

/-- What went wrong with a file. -/
def faultOf : IO.Error → FileFault
  | .noFileOrDirectory .. => .missing
  | .inappropriateType _ 20 _ => .notDirectory
  | .inappropriateType .. => .isDirectory
  | .invalidArgument _ 36 _ => .nameTooLong
  | error => .other (toString error)

/-- Reads the text of a file. -/
def readText (path : String) : IO (Except FileFault String) := do
  try
    return Files.Tree.decode (← IO.FS.readBinFile path)
  catch error =>
    return .error (faultOf error)

/-- Writes the text of a file. -/
def writeText (path text : String) : IO (Except FileFault Unit) := do
  try
    IO.FS.writeFile path text
    return .ok ()
  catch error =>
    return .error (faultOf error)

/-- Reads the files that options name, generates and writes. -/
def generate (g : Given) : IO Shown := do
  let files ← g.inputs.mapM fun path => return (path, ← readText path)
  let read path := ((files.find? (·.1 == path)).map Prod.snd).getD (.error .missing)
  let produced := produce read g
  match toWrite g produced with
  | none => return conclude g produced (.ok ())
  | some (path, text) => return conclude g produced (← writeText path text)

/-- What a run with arguments shows. -/
def shownFor (arguments : List String) : IO Shown :=
  match Request.parse arguments with
  | .ok (.generate g) => generate g
  | _ => return (CommandLine.run {} arguments).1

end CallBridge

/-- Runs the program. -/
def main (arguments : List String) : IO UInt32 := do
  let shown ← CallBridge.shownFor arguments
  IO.print shown.stdout
  IO.eprint shown.stderr
  if shown.exitCode = 2 then IO.eprint CallBridge.CommandLine.usageText
  return shown.exitCode.toUInt32
