/-
# The program

The outer layer: it reads files and standard input, runs the command line and
prints what the session says. Neither the prober nor the web service is started
from here, so for this program the prober is not installed.
-/
import ClipScript.CommandLine.Run

set_option autoImplicit false

namespace ClipScript

/-- Everything that is left of a stream. -/
partial def readRest (stream : IO.FS.Stream) (bytes : ByteArray) : IO ByteArray := do
  let chunk ← stream.read 65536
  if chunk.isEmpty then return bytes else readRest stream (bytes ++ chunk)

/-- The bytes of a file, or why there are none. -/
def readBytes (path : String) : IO (Except Fault (List UInt8)) := do
  try
    return .ok (← IO.FS.readBinFile path).toList
  catch _ => return .error .noFile

/-- The host of a real run. -/
def realHost : Host IO :=
  { readFile := fun path => readBytes path.text
    readInput := do return (← readRest (← IO.getStdin) .empty).toList
    prober := none }

end ClipScript

/-- **The program.** -/
def main (words : List String) : IO UInt32 := do
  match ← (ClipScript.CommandLine.run words ClipScript.realHost).run with
  | .ok session =>
    IO.print session.stdout
    IO.eprint session.stderr
    return session.status.toUInt32
  | .error fault =>
    IO.eprintln fault.message
    return 1
