import ScriptLang.Token.Basic

/-!
# Cursors

A parser moves a cursor over the tokens that are left. The cursor also counts the loops around it,
since a jump is only allowed inside one. A failure names its cause and the tokens from where it was
found; when none are left, the script may only be unfinished.
-/

namespace ScriptLang

/-- Why a script is not well formed. -/
inductive Malformation where
  | unexpected (expected : Option Token.Kind)
  | trailing
  | jumpOutsideLoop
  | invalidTarget
  | unreachable
  | exhausted
  deriving DecidableEq, Repr

namespace Parser

/-- A failure of a parser: its cause, and the tokens from the one on at which it was found. -/
structure Failure where
  cause : Malformation
  rest : List Token
  deriving DecidableEq, Repr

/-- The token at which a failure was found. -/
def Failure.found (failure : Failure) : Option Token := failure.rest.head?

/-- The tokens that are left and the number of loops around them. -/
structure Cursor where
  rest : List Token
  loopDepth : Nat
  deriving DecidableEq, Repr

end Parser

/-- A reader of tokens. -/
abbrev Parser := EStateM Parser.Failure Parser.Cursor

namespace Parser

/-- The next token. -/
def peek : Parser (Option Token) := do return (← get).rest.head?

/-- The kind of the next token. -/
def peekKind : Parser (Option Token.Kind) := do return (← peek).map (·.kind)

/-- The kind of the token after the next. -/
def peekSecondKind : Parser (Option Token.Kind) := do
  return (← get).rest.tail.head?.map (·.kind)

/-- Moves past the next token. -/
def advance : Parser Unit := modify fun c => { c with rest := c.rest.tail }

/-- Fails at the next token. -/
def fail {α : Type} (cause : Malformation) : Parser α := do throw ⟨cause, (← get).rest⟩

/-- Moves past the next token, which has to be of the given kind. -/
def expect (kind : Token.Kind) : Parser Token := do
  match ← peek with
  | some token =>
    if token.kind = kind then
      advance
      return token
    else fail (.unexpected kind)
  | none => fail (.unexpected kind)

/-- Fails at the next token where a list should go on or close. -/
def failToClose {α : Type} : Option Token.Kind → Parser α
  | some kind => fail (.unexpected kind)
  | none => fail .trailing

/-- Moves past the token that closes a list. A list without a closing token is closed by the end of
the script. -/
def close (closing : Option Token.Kind) : Parser Unit := do
  match closing with
  | some kind => discard <| expect kind
  | none => if (← peek).isSome then failToClose none

/-- Runs a parser inside one more loop. -/
def inLoop {α : Type} (p : Parser α) : Parser α := fun c =>
  match p { c with loopDepth := c.loopDepth + 1 } with
  | .ok a c' => .ok a { c' with loopDepth := c'.loopDepth - 1 }
  | .error e c' => .error e { c' with loopDepth := c'.loopDepth - 1 }

/-- Runs a parser outside all loops. -/
def outsideLoops {α : Type} (p : Parser α) : Parser α := fun c =>
  match p { c with loopDepth := 0 } with
  | .ok a c' => .ok a { c' with loopDepth := c.loopDepth }
  | .error e c' => .error e { c' with loopDepth := c.loopDepth }

end Parser

end ScriptLang
