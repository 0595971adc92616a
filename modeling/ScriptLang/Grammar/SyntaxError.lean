import ScriptLang.Grammar.Cursor
import ScriptLang.Text.Quoted
import ScriptLang.Token.Piece

/-!
# Syntax errors

What is wrong with the text of a script: a character at which no token starts, a token that cannot
stand where it does, or an end that comes too early. Only the last can be mended by more text.
-/

namespace ScriptLang

/-- An error in the text of a script. -/
inductive SyntaxError where
  | atCharacter (found : Token.Unexpected)
  | atToken (cause : Malformation) (found : Token)
  | atEnd (cause : Malformation) (position : Position)
  deriving DecidableEq, Repr

namespace SyntaxError

/-- The error of a failure in a script that ends at a place. -/
def ofFailure (stop : Position) (failure : Parser.Failure) : SyntaxError :=
  match failure.found with
  | some found => .atToken failure.cause found
  | none => .atEnd failure.cause stop

/-- The place of an error. -/
def position : SyntaxError → Position
  | atCharacter found => found.position
  | atToken _ found => found.position
  | atEnd _ position => position

/-- The text that an error is found at. -/
def found : SyntaxError → String
  | atCharacter found => found.char.toString
  | atToken _ found => found.text
  | atEnd .. => ""

/-- Whether more text could still make the script well formed. -/
def isIncomplete : SyntaxError → Bool
  | atEnd (.unexpected _) _ => true
  | _ => false

/-- A place as messages name it. -/
def placeText (p : Position) : String :=
  "at line " ++ toString p.line ++ ", column " ++ toString p.column

/-- What a message says of the token that should have stood there. -/
def hint : Option Token.Kind → String
  | none => ""
  | some kind => ", expected " ++ kind.label

/-- The message of a cause, given the words for what was found, its text and its place. -/
def causeText (words text : String) (p : Position) : Malformation → String
  | .unexpected expected => "Unexpected " ++ words ++ " " ++ placeText p ++ hint expected ++ "."
  | .trailing => "Unexpected " ++ words ++ " " ++ placeText p ++ ", expected EOF."
  | .jumpOutsideLoop => "`" ++ text ++ "` outside of a loop " ++ placeText p ++ "."
  | .invalidTarget =>
    "Invalid assignment target " ++ placeText p ++ "; only names can be assigned."
  | .unreachable => "Entered unreachable code."
  | .exhausted => "The script nests too deeply."

/-- The message of an error. -/
def message : SyntaxError → String
  | atCharacter found =>
    "Unexpected character " ++ String.ofList (Text.quoted [found.char]) ++ " " ++
      placeText found.position ++ "."
  | atToken cause found =>
    causeText ("token `" ++ found.text ++ "`") found.text found.position cause
  | atEnd cause position => causeText "end of input" "" position cause

end SyntaxError

end ScriptLang
