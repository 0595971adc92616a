import ScriptLang.CommandLine.Files

/-!
# Arguments

What a command line asks for. The global flags are taken out wherever they stand, and `route` sees
from the rest what is to be run: one script, a prompt, or a sequence of scripts, commands and
prompts, which `parseActions` reads. It refuses the whole sequence at the first argument that it
cannot use.
-/

namespace ScriptLang.CommandLine

/-- The global flags. -/
structure Flags where
  verbosity : Nat
  ignore : Bool
  stats : Bool
  plain : Bool
  deriving DecidableEq, Repr

/-- Whether an argument is the verbosity flag, possibly given several times at once. -/
def isVerbosity (argument : String) : Bool :=
  match argument.toList with
  | '-' :: 'v' :: rest => rest.all (· = 'v')
  | _ => false

/-- Whether an argument is a global flag. -/
def isFlag (argument : String) : Bool :=
  ["--ignore", "--stats", "--plain", "-i", "-p", "--verbose"].contains argument ||
    isVerbosity argument

/-- How much an argument adds to the verbosity. -/
def verbosityOf (argument : String) : Nat :=
  if argument = "--verbose" then 1
  else if isVerbosity argument then argument.length - 1
  else 0

/-- The flags among arguments. More verbosity than two is no more than two. -/
def Flags.ofArguments (arguments : List String) : Flags where
  verbosity := min 2 (arguments.foldl (fun total a => total + verbosityOf a) 0)
  ignore := arguments.any fun a => a = "--ignore" || a = "-i"
  stats := arguments.contains "--stats"
  plain := arguments.any fun a => a = "--plain" || a = "-p"

/-- What a command line runs. -/
inductive Route where
  | script (path : String)
  | input
  | prompt
  | sequence (arguments : List String)
  deriving DecidableEq, Repr

/-- The ending of the names of scripts. -/
def scriptSuffix : String := ".pcl"

/-- What arguments without global flags run. Without any, the script comes from the input. -/
def route (files : Files) (arguments : List String) : Route :=
  match arguments with
  | [] => .input
  | [argument] =>
    if argument = "-" then .input
    else if argument = "--repl" then .prompt
    else if !argument.startsWith "-" && argument.endsWith scriptSuffix &&
        (files.entry? (normalPath argument)).isSome then .script argument
    else .sequence [argument]
  | _ => .sequence arguments

/-- One thing to run. -/
inductive Action where
  | file (path : String)
  | command (code : String)
  | prompt
  deriving DecidableEq, Repr

/-- Why a sequence of arguments is refused. -/
inductive UsageError where
  | missingCode
  | emptyCode
  | unknownOption (token : String)
  | fileNotFound (token : String)
  | notAScript (token : String)
  deriving DecidableEq, Repr

/-- What messages say of a refusal. -/
def UsageError.text : UsageError → String
  | missingCode => "Missing inline code after -c/--command option."
  | emptyCode => "Empty code supplied to command option."
  | unknownOption token => "Unknown option `" ++ token ++ "`."
  | fileNotFound token => "File `" ++ token ++ "` not found."
  | notAScript token => "Expected `.pcl` source file, got `" ++ token ++ "`."

/-- The message of a refusal. -/
def UsageError.message (e : UsageError) : String := "Invalid value: " ++ e.text

/-- Whether arguments give a value to the help option, which takes none. What follows a separator is
no option. -/
def givesHelpValue (arguments : List String) : Bool :=
  (arguments.takeWhile (· ≠ "--")).any (·.startsWith "--help=")

/-- What messages say of a value for the help option. -/
def helpValueText : String := "Option '--help' does not take a value."

/-- The code in an argument that names the command option and gives its code after an equals sign.
-/
def inlineCode? (argument : String) : Option String :=
  if argument.startsWith "-c=" || argument.startsWith "--command=" then
    some (String.ofList ((argument.toList.dropWhile (· ≠ '=')).drop 1))
  else none

/-- The action of an argument that stands for itself. -/
def parseAction (files : Files) (argument : String) : Except UsageError Action :=
  match inlineCode? argument with
  | some code => if code.isEmpty then .error .emptyCode else .ok (.command code)
  | none =>
    if argument = "-r" || argument = "--repl" then .ok .prompt
    else if argument.startsWith "-" then .error (.unknownOption argument)
    else
      let path := normalPath argument
      if (files.entry? path).isNone then .error (.fileNotFound argument)
      else if suffix path ≠ scriptSuffix then .error (.notAScript argument)
      else .ok (.file path)

/-- The actions of a sequence of arguments. -/
def parseActions (files : Files) : List String → Except UsageError (List Action)
  | [] => .ok []
  | argument :: rest =>
    if argument = "--" then parseActions files rest
    else if argument = "-c" || argument = "--command" then
      match rest with
      | [] => .error .missingCode
      | code :: rest => do return .command code :: (← parseActions files rest)
    else do
      let action ← parseAction files argument
      return action :: (← parseActions files rest)

end ScriptLang.CommandLine
