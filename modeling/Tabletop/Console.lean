import Tabletop.Batch
import Tabletop.Outcome.Render
import Tabletop.Text.Blank

/-!
# The console

The console reads one batch a line and answers with a line for each roll, or with a complaint. One
session goes on from line to line.
-/

namespace Tabletop.Console

/-- What stands before each line of input. -/
def prompt : String := "> "

/-- What a line is answered with. -/
inductive Reply where
  | rolls (lines : List String)
  | complaint (error : Error)
  deriving DecidableEq

namespace Reply

/-- What a reply writes to the output, with the prompt for the next line. -/
def output : Reply → String
  | .rolls lines => String.join (lines.map (· ++ "\n")) ++ prompt
  | .complaint _ => prompt

/-- What a reply writes to the error output. -/
def errorOutput : Reply → String
  | .rolls _ => ""
  | .complaint error => "Error: " ++ error.message ++ "\n"

end Reply

/-- Whether a line holds nothing but blanks. -/
def isBlankLine (line : String) : Bool :=
  line.toList.all Text.isBlank

variable {σ : Type}

/-- Answers a line. A batch that fails is answered by its complaint alone. -/
def answer [Source σ] (style : Style) (line : String) (session : Session σ) : Reply × Session σ :=
  if isBlankLine line then (.rolls [], session)
  else
    match Batch.roll line session with
    | .ok rolls session => (.rolls (rolls.map (·.render style)), session)
    | .error error session => (.complaint error, session)

/-- Answers lines one after another. -/
def answerAll [Source σ] (style : Style) : List String → Session σ → List Reply
  | [], _ => []
  | line :: rest, session =>
    let (reply, session) := answer style line session
    reply :: answerAll style rest session

/-- The session of a console, with dice from `source`. -/
def session (source : σ) : Session σ :=
  .start (some Session.defaultLimit) source

/-- The option that asks for rolls with markup. -/
def markdownOption : String := "--markdown"

/-- The style that the arguments of the program ask for. -/
def styleOf (arguments : List String) : Style :=
  if arguments.contains markdownOption then .markdown else .plain

/-- The byte that ends a line. -/
def lineFeed : UInt8 := 10

/-- The byte that may stand before the end of a line without being part of it. -/
def carriageReturn : UInt8 := 13

/-- A line without its end. Only a line that was ended gives up a carriage return. -/
def trimEnd (line : List UInt8) : List UInt8 :=
  if line.getLast? = some lineFeed then
    let body := line.dropLast
    if body.getLast? = some carriageReturn then body.dropLast else body
  else line

/-- The lines of an input, each with its end; what follows the last end is a line if it is not
empty. -/
def splitLines : List UInt8 → List (List UInt8)
  | [] => []
  | byte :: rest =>
    if byte = lineFeed then [byte] :: splitLines rest
    else
      match splitLines rest with
      | [] => [[byte]]
      | line :: lines => (byte :: line) :: lines

/-- The text of a line, if its bytes are valid UTF-8. -/
def decodeLine? (line : List UInt8) : Option String :=
  String.fromUTF8? ⟨(trimEnd line).toArray⟩

/-- The lines that are read from an input: those before the first one that is not valid UTF-8. -/
def readLines (input : List UInt8) : List String :=
  ((splitLines input).map decodeLine?).takeWhile Option.isSome |>.reduceOption

/-- How the console ends. Lines that fail, or that cannot be read, do not count as a failure. -/
def exitStatus : UInt32 := 0

/-- How the console ends, and all that it has written by then. -/
structure Transcript where
  status : UInt32
  output : String
  errorOutput : String
  deriving DecidableEq

/-- Runs the console on a whole input. -/
def transcript [Source σ] (arguments : List String) (input : List UInt8) (source : σ) :
    Transcript :=
  let replies := answerAll (styleOf arguments) (readLines input) (session source)
  ⟨exitStatus, prompt ++ String.join (replies.map Reply.output),
    String.join (replies.map Reply.errorOutput)⟩

end Tabletop.Console
