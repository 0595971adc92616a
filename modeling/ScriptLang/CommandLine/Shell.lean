import ScriptLang.CommandLine.Arguments
import ScriptLang.CommandLine.Notice
import ScriptLang.Text.Ansi
import ScriptLang.Text.Blank

/-!
# The shell

Runs what a command line asks for. All scripts of one command line share an engine, the room for
reading and the statistics. A script that fails ends the shell with status one, unless errors are
ignored; the prompt goes on after every error, and collects lines for as long as the text is only
incomplete. Files and the input are read with their line ends normalized, commands are taken as they
are.

The shell is a function of its surroundings: the files, the input, what comes of the commands that
are launched, and the room for reading at the start. It yields what is written and launched, in
order, and the exit status. Its clock stands still.
-/

namespace ScriptLang.CommandLine

/-- The surroundings of a shell: files, input, what comes of commands, and the room for reading at
the start. -/
structure World where
  files : Files
  input : String
  launches : List String → Launch
  room : Nat

/-- What a shell did: what it wrote and launched, in order, and its exit status. -/
structure Transcript where
  effects : List Effect
  status : Nat

/-- The state of a shell: the engine, the room for reading, the totals if they are asked for, the
lines of the input that are left, the number of scripts that came to their end, and what was done so
far, the newest first. -/
structure Console where
  engine : Engine
  room : Nat
  totals : Option Statistics
  lines : List (List Char)
  finished : Nat
  done : List Effect

/-- A part of what a shell does. It may end with an exit status. -/
abbrev Shell := EStateM Nat Console

/-- A text with its line ends normalized. -/
def normalText (text : String) : String := String.ofList (Text.normalizeLineEnds text.toList)

namespace Shell

/-- Does something. -/
def perform (effects : List Effect) : Shell Unit :=
  modify fun c => { c with done := effects.reverse ++ c.done }

/-- Writes to the output. -/
def say (text : String) : Shell Unit := perform [.write .output text]

/-- What an event of a run does to the outside. -/
def effectOf : Event → Effect
  | .effect effect => effect
  | .stepTrace _ text => .write .output text
  | .callTrace text => .write .output text

/-- Runs a script on the engine and does what it does. -/
def run (flags : Flags) (interactive : Bool) (source : String) :
    Shell (Except Problem (Option Value)) := do
  let c ← get
  let (report, engine, room) :=
    c.engine.runWithin .standard c.room source ⟨flags.verbosity, c.totals, interactive⟩
  set { c with engine := engine, room := room, totals := report.statistics }
  perform (report.events.map effectOf)
  return report.outcome

/-- Tells of a problem. -/
def report (file source : String) (problem : Problem) : Shell Unit :=
  perform [.write .error (notice file source problem).text]

/-- Runs a script that has a name. Its result is shown if asked for. -/
def runScript (flags : Flags) (file source : String) (shown : Bool) : Shell Unit := do
  match ← run flags false source with
  | .ok result =>
    if shown then
      if let some value := result then say (value.echo ++ "\n")
    modify fun c => { c with finished := c.finished + 1 }
  | .error problem =>
    report file source problem
    if !flags.ignore then throw 1

/-- What a prompt shows before it reads a line, given the text it has collected. -/
def promptText (source : List Char) : String :=
  if (Text.trim source).isEmpty then "\x1b[36m<<< \x1b[0m" else "\x1b[36m... \x1b[0m"

/-- The name of the scripts that are typed at a prompt. -/
def promptFile : String := "<REPL>"

/-- Runs what was typed. Yields the text that is to be kept for the next line. -/
def runTyped (flags : Flags) (source : List Char) : Shell (List Char) := do
  let text := String.ofList source
  match ← run flags true text with
  | .ok result =>
    if let some value := result then say ("\x1b[90m>>>\x1b[0m " ++ value.echo ++ "\n")
    return []
  | .error (.malformed e) =>
    if e.isIncomplete then return source
    else
      report promptFile text (.malformed e)
      return []
  | .error problem =>
    report promptFile text problem
    return []

/-- The words that leave a prompt. -/
def isFarewell (line : List Char) : Bool :=
  line == ['q', 'u', 'i', 't'] || line == ['e', 'x', 'i', 't']

/-- Reads lines at a prompt and runs them, given the text that is not complete yet. -/
def readLines (flags : Flags) : List Char → List (List Char) → Shell Unit
  | source, [] => do
    say (promptText source)
    say "\n"
    modify fun c => { c with lines := [] }
  | source, line :: rest => do
    say (promptText source)
    let word := Text.trim line
    if word.isEmpty then readLines flags source rest
    else if isFarewell word then modify fun c => { c with lines := rest }
    else
      let source ← runTyped flags (source ++ line ++ ['\n'])
      readLines flags source rest

/-- A prompt, up to a farewell or the end of the input. -/
def prompt (flags : Flags) : Shell Unit := do
  say "pcli - Scripting language REPL; type Ctrl+C to exit.\n"
  readLines flags [] (← get).lines

/-- A command as a script: without the blanks at its end, and with a line feed. -/
def commandSource (code : String) : String :=
  String.ofList (Text.trimRight code.toList ++ ['\n'])

/-- The name of a command by its number. -/
def commandName (number : Nat) : String := "<INPUT_" ++ toString number ++ ">"

/-- Does actions in order. The commands are numbered from `number` on. -/
def act (flags : Flags) (files : Files) : Nat → List Action → Shell Unit
  | _, [] => return
  | number, .file path :: rest => do
    match files.read? path with
    | some text => runScript flags path (normalText text) false
    | none => throw 1
    act flags files number rest
  | number, .command code :: rest => do
    runScript flags (commandName number) (commandSource code) true
    act flags files (number + 1) rest
  | number, .prompt :: rest => do
    prompt flags
    act flags files number rest

/-- A line of the statistics. -/
def totalLine (word value : String) : String :=
  word ++ "\t\x1b[97m" ++ value ++ "\x1b[0m\n"

/-- Writes the statistics, if they are asked for and a script came to its end. -/
def conclude : Shell Unit := do
  let c ← get
  match c.totals with
  | some totals =>
    if 0 < c.finished then
      say "\n\x1b[97m\x1b[48;5;30m STATISTICS. \x1b[0m\n"
      say (totalLine "step" (Text.thousands ((totals.get? "steps").getD 0)))
      say (totalLine "call" (Text.thousands ((totals.get? "calls").getD 0)))
      say (totalLine "time" "0.000s")
  | none => return

/-- The exit status of a refused command line. -/
def usageStatus : Nat := 2

/-- A refusal. Terminal sequences in it are removed. -/
def refusalText (message : String) : String :=
  String.ofList (Text.strip Text.controls ("Error: " ++ message ++ "\n").toList)

/-- What is told of a refused command line, given the name and the pattern of what was to run. -/
def usageText (name pattern message : String) : String :=
  "Usage: pcli " ++ name ++ " [OPTIONS] " ++ pattern ++ "\nTry 'pcli " ++ name ++
    " --help' for help.\n\n" ++ refusalText message

/-- Drops the first argument that only separates. -/
def dropSeparator (arguments : List String) : List String := arguments.erase "--"

/-- Does what a sequence of arguments asks for. Without any action there is a prompt. -/
def runSequence (flags : Flags) (files : Files) (arguments : List String) : Shell Unit := do
  match parseActions files (dropSeparator arguments) with
  | .error e =>
    perform [.write .error (usageText "run-dev" "[TOKENS]..." e.message)]
    throw usageStatus
  | .ok [] => prompt flags
  | .ok actions => act flags files 1 actions

/-- The console at the start. -/
def consoleFor (flags : Flags) (world : World) : Console where
  engine := .new (Library.standard world.launches)
  room := world.room
  totals := if flags.stats then some ⟨[("steps", 0), ("calls", 0)]⟩ else none
  lines := Text.inputLines (Text.normalizeLineEnds world.input.toList)
  finished := 0
  done := []

/-- With plain output everything that is written goes to the output, without colours. -/
def plainly (plain : Bool) : Effect → Effect
  | .write channel text =>
    if plain then .write .output (Text.stripColours text) else .write channel text
  | .launch command => .launch command

/-- What a shell does from its start. -/
def performed (flags : Flags) (world : World) (shell : Shell Unit) : Transcript :=
  let (status, c) := match shell (consoleFor flags world) with
    | .ok _ c => (0, c)
    | .error status c => (status, c)
  ⟨(c.done.reverse).map (plainly flags.plain), status⟩

/-- Runs one script and concludes. -/
def single (flags : Flags) (file source : String) : Shell Unit := do
  runScript flags file (normalText source) false
  conclude

/-- What a command line does. -/
def main (world : World) (arguments : List String) : Transcript :=
  let flags := Flags.ofArguments (arguments.filter isFlag)
  match route world.files (arguments.filter (!isFlag ·)) with
  | .input => performed flags world (single flags "<stdin>" world.input)
  | .script path =>
    match world.files.read? path with
    | some text => performed flags world (single flags path text)
    | none =>
      let message := "Invalid value for 'SCRIPT': '" ++ path ++ "': Is a directory"
      ⟨[.write .error (usageText "run-file" "SCRIPT" message)], usageStatus⟩
  | .prompt => performed flags world do
    prompt flags
    conclude
  | .sequence arguments =>
    if givesHelpValue arguments then ⟨[.write .error (refusalText helpValueText)], usageStatus⟩
    else performed flags world do
      runSequence flags world.files arguments
      conclude

end Shell

end ScriptLang.CommandLine
