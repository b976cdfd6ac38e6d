import SyntaxTriage.CommandLine.Usage
import SyntaxTriage.Source

/-!
The program as a function of its arguments and of the file that they name. `plan` reads the
arguments; what it leaves to do needs the bytes of one file, and `Job.run` gives what is then
written and how the program ends. With a log this depends on whether a source has been read in the
thread before.
-/

namespace SyntaxTriage.CommandLine

inductive Ending where
  | returned (code : Nat)
  /-- The arguments settled everything. -/
  | exited (code : Nat)
  /-- The file holds no text. -/
  | undecodable
  /-- The mode was given without a name. -/
  | modeless
  deriving DecidableEq

structure Outcome where
  ending : Ending
  stdout : String := ""
  stderr : String := ""
  deriving DecidableEq

structure Job where
  command : Command
  file : String
  /-- How the file is read; there is no way if the mode was given without a name. -/
  mode : Option Mode
  interactive : Bool
  verbose : Bool

inductive Plan where
  | finished (outcome : Outcome)
  | job (job : Job)

def misuse (usage program message : String) : Outcome :=
  ⟨.exited 2, "", usage ++ program ++ ": error: " ++ message ++ "\n"⟩

def programMisuse (message : String) : Outcome := misuse programUsage programName message

def commandMisuse (c : Command) (message : String) : Outcome :=
  misuse c.usage (programName ++ " " ++ c.name) message

/-- The arguments of a positional without the first bare double dash. -/
def withoutSeparator (arguments : List String) : List String := arguments.erase "--"

def settle (c : Command) : Job → (file : Option String) → List Found →
    Except Outcome (Job × Option String)
  | job, file, [] => .ok (job, file)
  | job, file, .option flag value :: rest =>
    if flag = helpFlag then .error ⟨.exited 0, c.help, ""⟩
    else if flag = modeFlag then
      match value.mapM Mode.ofName with
      | .ok mode => settle c { job with mode } file rest
      | .error e => .error (commandMisuse c ("argument " ++ modeFlag.label ++ ": " ++ e.message))
    else settle c { job with interactive := true } file rest
  | job, _, .positional arguments :: rest =>
    settle c job ((withoutSeparator arguments).head?) rest

/-- Reads the arguments of a command; the second part holds those that it does not know. -/
def planCommand (c : Command) (verbose : Bool) (arguments : List String) :
    Except Outcome (Job × List String) := do
  let reading := readArguments c.flags .single arguments
  let (job, file) ← settle c ⟨c, "", some .program, false, verbose⟩ none reading.found
  match reading.error, file with
  | some e, _ => throw (commandMisuse c e.message)
  | none, none => throw (commandMisuse c "the following arguments are required: file")
  | none, some file => return ({ job with file }, reading.unknown)

def invalidCommand (name : String) : String :=
  "argument command: invalid choice: " ++ Text.quoted name ++ " (choose from " ++
    ", ".intercalate (Command.all.map fun c => Text.quoted c.name) ++ ")"

def settleProgram (verbose : Bool) (job : Option (Job × List String)) :
    List Found → Except Outcome (Bool × Option (Job × List String))
  | [] => .ok (verbose, job)
  | .option flag _ :: rest =>
    if flag = helpFlag then .error ⟨.exited 0, programHelp, ""⟩ else settleProgram true job rest
  | .positional arguments :: rest =>
    let name := arguments.headD ""
    match Command.ofName? name with
    | none => .error (programMisuse (invalidCommand name))
    | some c =>
      match planCommand c verbose arguments.tail with
      | .error outcome => .error outcome
      | .ok job => settleProgram verbose (some job) rest

def planOrOutcome (arguments : List String) : Except Outcome Job := do
  let reading := readArguments programFlags .remainder arguments
  let (_, job) ← settleProgram false none reading.found
  match reading.error with
  | some e => throw (programMisuse e.message)
  | none =>
    let unknown := reading.unknown ++ (job.map (·.2)).getD []
    if unknown ≠ [] then
      throw (programMisuse ("unrecognized arguments: " ++ " ".intercalate unknown))
    match job with
    | some (job, _) => return job
    | none => throw ⟨.returned 1, programHelp, ""⟩

def plan (arguments : List String) : Plan :=
  match planOrOutcome arguments with
  | .ok job => .job job
  | .error outcome => .finished outcome

/-- A text in which every line ends in the same way. -/
def normalizeLines : List Char → List Char
  | '\r' :: '\n' :: rest => '\n' :: normalizeLines rest
  | '\r' :: rest => '\n' :: normalizeLines rest
  | c :: rest => c :: normalizeLines rest
  | [] => []

def haltMessage : Source.Halt → String
  | .invalid error => error.toDiagnostic.message
  | .defect .unopenedBracket => "closing bracket without an opening one"
  | .defect .noLineBreak => "line break without a line"
  | .defect .noQuote => "string without quotes"
  | .defect .endless => "expressions without end"

def isIncomplete : Source.Halt → Bool
  | .invalid error => error.reason.isIncomplete
  | .defect _ => false

def Job.logged (job : Job) (events : List Event) : String :=
  if job.verbose then String.join (events.map fun event => event.message ++ "\n") else ""

def Job.runSource (job : Job) (thread : Source.Thread) (mode : Mode) (source : String) : Outcome :=
  let parsed := Source.parseIn thread mode source
  let log := job.logged parsed.events
  match parsed.result with
  | .ok tree =>
    match job.command with
    | .check => ⟨.returned 0, "OK\n", log⟩
    | .tree => ⟨.returned 0, tree.outline ++ "\n", log⟩
  | .error halt =>
    if job.interactive && isIncomplete halt then
      ⟨.returned 2, "", log ++ "incomplete: " ++ haltMessage halt ++ "\n"⟩
    else ⟨.returned 1, "", log ++ "Error: " ++ haltMessage halt ++ "\n"⟩

def Job.run (job : Job) (thread : Source.Thread) : Option ByteArray → Outcome
  | none => ⟨.returned 1, "", "Error: file not found: " ++ job.file ++ "\n"⟩
  | some bytes =>
    match String.fromUTF8? bytes with
    | none => ⟨.undecodable, "", ""⟩
    | some text =>
      match job.mode with
      | none => ⟨.modeless, "", job.logged thread.preparation⟩
      | some mode => job.runSource thread mode (String.ofList (normalizeLines text.toList))

def runIn (thread : Source.Thread) (arguments : List String)
    (files : String → Option ByteArray) : Outcome :=
  match plan arguments with
  | .finished outcome => outcome
  | .job job => job.run thread (files job.file)

def mainThread : String := "MainThread"

/-- The outcome of a call that is not the first one in its process. -/
def run (arguments : List String) (files : String → Option ByteArray) : Outcome :=
  runIn ⟨mainThread, true⟩ arguments files

end SyntaxTriage.CommandLine
