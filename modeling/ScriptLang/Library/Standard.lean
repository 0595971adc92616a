import ScriptLang.Library.Basic
import ScriptLang.Value.Printer

/-!
# The standard library

Two functions: `print` writes its arguments one after the other and ends the line, and `cmd`, which
is also called `run`, launches a command and waits for it. What comes of a command is up to the
surroundings. One that cannot be launched is reported and is no error, but one that the surroundings
refuse to launch at all is a fault.
-/

namespace ScriptLang

/-- What comes of a command: it ends with a status, it cannot be launched, or it is refused because
a text in it holds a character that no argument may hold. -/
inductive Launch where
  | ended (status : Int)
  | failed
  | refused
  deriving DecidableEq, Repr

/-- The status that a command gives back, if it was launched. -/
def Launch.status? : Launch → Option Int
  | ended status => some status
  | failed | refused => none

namespace Library

/-- What printing texts does. -/
def printEffects (texts : List String) : List Effect :=
  [.write .output (String.join texts ++ "\n")]

/-- What launching a command does. -/
def commandEffects (launches : List String → Launch) (command : List String) : List Effect :=
  match launches command with
  | .ended _ => [.launch command]
  | .failed => [.launch command, .write .error "command failed!\n"]
  | .refused => []

/-- The failure of a command, if it is one. -/
def commandFailure (launches : List String → Launch) (command : List String) : Option Failure :=
  match launches command with
  | .ended _ | .failed => none
  | .refused => some (.fault .embeddedNull)

/-- Writes its arguments. -/
def print : Builtin where
  hostName := "op_print"
  signature := some ⟨[], 0, true⟩
  respond _ arguments := ⟨printEffects (Value.texts arguments), none⟩

/-- Launches a command. -/
def command (launches : List String → Launch) : Builtin where
  hostName := "op_cmd"
  signature := some ⟨["name"], 0, true⟩
  respond _ arguments :=
    let command := Value.texts arguments
    ⟨commandEffects launches command, commandFailure launches command⟩

/-- The library that scripts start with. -/
def standard (launches : List String → Launch) : Library where
  builtins := ⟨[("cmd", command launches), ("print", print)]⟩
  aliases := ⟨[("run", "cmd")]⟩

end Library

end ScriptLang
