import Tabletop.Console

/-!
# The program

Rolls the dice notation of its standard input, line by line, with random faces. With the option
`--markdown` the rolls carry markup.
-/

namespace Tabletop.Console

/-- Reads the bytes of one line, its end included. -/
partial def readLine (input : IO.FS.Stream) (line : Array UInt8) : IO (Array UInt8) := do
  let bytes ← input.read 1
  match bytes.data[0]? with
  | none => return line
  | some byte =>
    if byte = lineFeed then return line.push byte else readLine input (line.push byte)

/-- Answers the lines of the standard input up to its end or to one that is not valid UTF-8. -/
partial def serve (style : Style) (session : Session StdGen) : IO Unit := do
  let line ← readLine (← IO.getStdin) #[]
  if line.isEmpty then return
  let some text := decodeLine? line.toList | return
  let (reply, session) := answer style text session
  (← IO.getStderr).putStr reply.errorOutput
  let output ← IO.getStdout
  output.putStr reply.output
  output.flush
  serve style session

/-- Runs the console with a fresh random source. -/
def run (arguments : List String) : IO Unit := do
  let output ← IO.getStdout
  output.putStr prompt
  output.flush
  serve (styleOf arguments) (session (mkStdGen (← IO.monoNanosNow)))

end Tabletop.Console

def main (arguments : List String) : IO UInt32 := do
  Tabletop.Console.run arguments
  return Tabletop.Console.exitStatus
