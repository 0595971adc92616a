import ScriptLang.CommandLine.Shell

/-!
# The program

The command line as a program: reads the input and the files that are named, hands everything to the
shell, and writes what the shell writes. Commands cannot be launched from here, so every launch is
reported as failed.
-/

namespace ScriptLang

/-- The files among arguments, each under the path that names it and under its normal path. -/
def readFiles (arguments : List String) : IO CommandLine.Files := do
  let mut files : CommandLine.Files := .empty
  for argument in arguments do
    let path := CommandLine.normalPath argument
    let text ← try some <$> IO.FS.readFile path catch _ => pure none
    if let some text := text then
      files := (files.set path text).set argument text
  return files

end ScriptLang

/-- Runs the command line and exits with its status. -/
def main (arguments : List String) : IO UInt32 := do
  let input ← (← IO.getStdin).readToEnd
  let files ← ScriptLang.readFiles arguments
  let world := ⟨files, input, fun _ => .failed, ScriptLang.initialRoom⟩
  let transcript := ScriptLang.CommandLine.Shell.main world arguments
  for effect in transcript.effects do
    match effect with
    | .write .output text => IO.print text
    | .write .error text => IO.eprint text
    | .launch _ => pure ()
  return transcript.status.toUInt32
