import ScriptLang.Grammar.Rule
import ScriptLang.Grammar.SyntaxError

/-!
# Reading a script

A script is scanned as a whole and then read one statement at a time, up to its end or to the first
statement that is not well formed. Reading nests as deeply as the script does, so it may also take
more room than there is.
-/

namespace ScriptLang

open ScriptLang.Parser

/-- The statements that tokens hold, and the failure that ends them early, if one does. Each
statement takes at least one token, and its rules call one another no more deeply than `bound`. -/
def statementsFrom (bound : Nat) : Nat → Cursor → List Statement × Option Failure
  | 0, _ => ([], none)
  | fuel + 1, cursor =>
    if cursor.rest.isEmpty then ([], none)
    else match Rule.parseWith bound .statement cursor with
      | .ok statement cursor =>
        let (statements, failure) := statementsFrom bound fuel cursor
        (statement :: statements, failure)
      | .error failure _ => ([], some failure)

/-- The statements of a list of tokens, and the failure that ends them early, if one does. -/
def statementsOf (tokens : List Token) : List Statement × Option Failure :=
  statementsFrom (Rule.bound tokens.length) tokens.length ⟨tokens, 0⟩

/-- The program of a list of tokens. -/
def parseTokens (tokens : List Token) : Except Failure Program :=
  match statementsOf tokens with
  | (program, none) => .ok program
  | (_, some failure) => .error failure

/-- The tokens of a script. -/
def tokenize (source : String) : Except SyntaxError (List Token) :=
  (Token.scan source.toList).mapError .atCharacter

/-- What a script consists of for who reads it from the start to the end: tokens, and a mark behind
the last. -/
inductive Word where
  | token (token : Token)
  | stop (position : Position)
  deriving DecidableEq, Repr

/-- The tokens of a script, and the mark of its end. -/
def words (source : String) : Except SyntaxError (List Word) :=
  (tokenize source).map fun tokens =>
    tokens.map .token ++ [.stop (Token.endOf source.toList)]

/-- The statements of a script, and the error that ends them early, if one does. -/
def parseStatements (source : String) :
    Except SyntaxError (List Statement × Option SyntaxError) := do
  let (statements, failure) := statementsOf (← tokenize source)
  return (statements, failure.map (.ofFailure (Token.endOf source.toList)))

/-- The program of a script. -/
def parse (source : String) : Except SyntaxError Program := do
  let tokens ← tokenize source
  (parseTokens tokens).mapError (.ofFailure (Token.endOf source.toList))

/-- The program of tokens whose statements are read one after the other, or the first failure. -/
def programBy (read : Parser Statement) : Nat → Cursor → Except Failure Program
  | 0, _ => .ok []
  | fuel + 1, cursor =>
    if cursor.rest.isEmpty then .ok []
    else match read cursor with
      | .ok statement cursor => (programBy read fuel cursor).map (statement :: ·)
      | .error failure _ => .error failure

/-- The program of a script that is read within some room, or the error in it. There is neither if
the room does not suffice. -/
def parseWithin (room : Nat) (source : String) : Option (Except SyntaxError Program) :=
  match tokenize source with
  | .error e => some (.error e)
  | .ok tokens =>
    let read := Rule.parseWithin (Rule.bound tokens.length) room .statement
    match programBy read tokens.length ⟨tokens, 0⟩ with
    | .ok program => some (.ok program)
    | .error failure =>
      if failure.cause = .exhausted then none
      else some (.error (.ofFailure (Token.endOf source.toList) failure))

end ScriptLang
