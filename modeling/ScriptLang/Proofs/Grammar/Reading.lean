import ScriptLang.Proofs.Grammar.Progress

/-!
# Rules wherever tokens are read

What a rule does with tokens, it does by a few operations. `Reading` lists them, and what follows is
the text of the rules over whatever provides them. Provided by parsers, the text is that of the
rules that scripts are parsed with (`Reading.parseWith_eq`); so what another reader of the same
text adds up, such as the steps it takes, is added up of them.
-/

namespace ScriptLang
open ScriptLang.Parser

/-- What rules ask of a reader: to look at the cursor, to move past the next token, to fail, to read
inside one more loop or outside all, and to read by a rule. -/
class Reading (m : Type → Type) where
  look : m Cursor
  advance : m Unit
  throw {α : Type} : Failure → m α
  inLoop {α : Type} : m α → m α
  outsideLoops {α : Type} : m α → m α
  call {α : Type} : m α → m α

namespace Reading
variable {m : Type → Type} [Monad m] [Reading m]

/-- The next token. -/
def peek : m (Option Token) := do return (← look).rest.head?

/-- The kind of the next token. -/
def peekKind : m (Option Token.Kind) := do return (← peek).map (·.kind)

/-- The kind of the token after the next. -/
def peekSecondKind : m (Option Token.Kind) := do
  return (← look).rest.tail.head?.map (·.kind)

/-- Fails at the next token. -/
def fail {α : Type} (cause : Malformation) : m α := do throw ⟨cause, (← look).rest⟩

/-- Moves past the next token, which has to be of the given kind. -/
def expect (kind : Token.Kind) : m Token := do
  match ← peek with
  | some token =>
    if token.kind = kind then
      advance
      return token
    else fail (.unexpected kind)
  | none => fail (.unexpected kind)

/-- Fails at the next token where a list should go on or close. -/
def failToClose {α : Type} : Option Token.Kind → m α
  | some kind => fail (.unexpected kind)
  | none => fail .trailing

/-- Moves past the token that closes a list. -/
def close (closing : Option Token.Kind) : m Unit := do
  match closing with
  | some kind => discard <| expect kind
  | none => if (← peek).isSome then failToClose none

/-- After an element of a list: moves past a comma, or makes sure that the list ends. -/
def separator (closing : Option Token.Kind) : m Unit := do
  let kind ← peekKind
  if kind = some .comma then advance
  else if kind ≠ closing then failToClose closing

open ScriptLang.Rule (statementAt)

variable (read : {α : Type} → Rule α → m α)

/-- A statement is told by its first token, a function declaration by its first two. -/
def readStatement : m Statement := do
  match ← peek with
  | none => fail (.unexpected none)
  | some token =>
    let second ← peekSecondKind
    match token.kind with
    | .letWord => read .declaration
    | .ifWord => read .conditional
    | .loopWord => read .loop
    | .returnWord => read .returning
    | .breakWord | .continueWord => read .jump
    | kind =>
      if kind = .fnWord ∧ second = some .name then read .definition
      else return statementAt token (.evaluate (← read (.expression .lowest)))

/-- The declaration of a variable. -/
def readDeclaration : m Statement := do
  let first ← expect .letWord
  let name ← expect .name
  discard <| expect .assign
  return statementAt first (.declare name.text (← read (.expression .lowest)))

/-- The definition of a named function. -/
def readDefinition : m Statement := do
  let first ← expect .fnWord
  let name ← expect .name
  let parameters ← read .parameters
  return statementAt first (.define name.text parameters (← read .functionBody))

/-- A conditional. An alternative with a condition of its own is a block of one conditional. -/
def readConditional : m Statement := do
  match ← peek with
  | none => fail (.unexpected (some .ifWord))
  | some first =>
    if first.kind ≠ .ifWord ∧ first.kind ≠ .elifWord then fail (.unexpected (some .ifWord))
    else
      advance
      let condition ← read (.expression .statement)
      let consequent ← read .block
      let kind ← peekKind
      if kind = some .elifWord then
        let alternative ← read .conditional
        return statementAt first (.branch condition consequent (some [alternative]))
      else if kind = some .elseWord then
        advance
        return statementAt first (.branch condition consequent (some (← read .block)))
      else return statementAt first (.branch condition consequent none)

/-- A loop, over the elements of a list when parentheses follow the keyword. -/
def readLoop : m Statement := do
  let first ← expect .loopWord
  if (← peekKind) = some .leftParen then
    advance
    discard <| expect .letWord
    let name ← expect .name
    discard <| expect .colon
    let iterable ← read (.expression .lowest)
    discard <| expect .rightParen
    let body ← inLoop (read .block)
    return statementAt first (.loop body (some name.text) (some iterable))
  else
    let body ← inLoop (read .block)
    return statementAt first (.loop body none none)

/-- A return, with a value when the next token may start one. -/
def readReturning : m Statement := do
  let first ← expect .returnWord
  if ((← peekKind).map (·.startsExpression)).getD false then
    return statementAt first (.returns (some (← read (.expression .lowest))))
  else return statementAt first (.returns none)

/-- A jump to the end or to the next round of the loop around it. -/
def readJump : m Statement := do
  let start ← look
  if start.loopDepth = 0 then fail .jumpOutsideLoop
  else
    advance
    match start.rest with
    | [] => throw ⟨.unreachable, []⟩
    | token :: _ =>
      match token.kind with
      | .breakWord => return statementAt token .breakLoop
      | .continueWord => return statementAt token .continueLoop
      | _ => throw ⟨.unreachable, start.rest⟩

/-- A block between braces. -/
def readBlock : m Block := do
  discard <| expect .leftBrace
  let statements ← read .statements
  discard <| expect .rightBrace
  return statements

/-- The statements up to a closing brace. -/
def readStatements : m Block := do
  if (← peekKind) = some .rightBrace then return []
  else
    let first ← read .statement
    return first :: (← read .statements)

/-- The parameters of a function, between parentheses. -/
def readParameters : m (List String) := do
  discard <| expect .leftParen
  let names ← read .parameterNames
  discard <| expect .rightParen
  return names

/-- Names up to a closing parenthesis. -/
def readParameterNames : m (List String) := do
  if (← peekKind) = some .rightParen then return []
  else
    let name ← expect .name
    separator (some .rightParen)
    return name.text :: (← read .parameterNames)

/-- An expression in surroundings of the given level. -/
def readExpression (level : Precedence) : m Expression := do
  let left ← read .leaf
  read (.continuation level left)

/-- What an expression goes on with: a call, an access, an operator and its right operand, or
nothing. -/
def readContinuation (level : Precedence) (left : Expression) : m Expression := do
  match ← peekKind with
  | none => return left
  | some kind =>
    if kind.precedence.rank ≤ level.rank then return left
    else match kind with
      | .leftParen =>
        advance
        let arguments ← read (.sequence (some .rightParen))
        read (.continuation level (.call left arguments))
      | .dot =>
        advance
        let name ← expect .name
        read (.continuation level (.member left name.text))
      | .leftBracket =>
        advance
        let place ← read (.expression .lowest)
        discard <| expect .rightBracket
        read (.continuation level (.index left place))
      | .assign =>
        match left with
        | .identifier _ =>
          advance
          let value ← read (.expression .lowest)
          read (.continuation level (.assign left value))
        | _ => fail .invalidTarget
      | kind =>
        match kind.binaryOperator? with
        | some operator =>
          advance
          let right ← read (.expression kind.precedence)
          read (.continuation level (.binary left operator right))
        | none => return left

/-- An expression that no operator of two operands or access is the outermost part of. -/
def readLeaf : m Expression := do
  match ← peek with
  | none => fail (.unexpected none)
  | some token =>
    match token.kind with
    | .number =>
      advance
      return .number (Number.literal token.text.toList)
    | .string =>
      advance
      return .string (String.ofList (Token.Literal.decode token.text.toList))
    | .trueWord =>
      advance
      return .boolean true
    | .falseWord =>
      advance
      return .boolean false
    | .name =>
      advance
      return .identifier token.text
    | .fnWord =>
      advance
      let parameters ← read .parameters
      return .function parameters (← read .functionBody)
    | .minus =>
      advance
      return .unary .subtract (← read (.expression .unary))
    | .bang =>
      advance
      return .unary .not (← read (.expression .unary))
    | .leftBracket =>
      advance
      return .list (← read (.sequence (some .rightBracket)))
    | .leftParen =>
      advance
      let inner ← read (.expression .lowest)
      discard <| expect .rightParen
      return inner
    | _ => fail (.unexpected none)

/-- Expressions up to and including the closing token. -/
def readSequence (closing : Option Token.Kind) : m (List Expression) := do
  let items ← read (.items closing)
  close closing
  return items

/-- Expressions up to the closing token. -/
def readItems (closing : Option Token.Kind) : m (List Expression) := do
  if (← peekKind) = closing then return []
  else
    let first ← read (.expression .lowest)
    separator closing
    return first :: (← read (.items closing))

/-- How a rule reads tokens, given readers for the rules it calls. -/
def step {α : Type} : Rule α → m α
  | .statement => readStatement read
  | .declaration => readDeclaration read
  | .definition => readDefinition read
  | .conditional => readConditional read
  | .loop => readLoop read
  | .returning => readReturning read
  | .jump => readJump
  | .block => readBlock read
  | .statements => readStatements read
  | .functionBody => outsideLoops (read .block)
  | .parameters => readParameters read
  | .parameterNames => readParameterNames read
  | .expression level => readExpression read level
  | .continuation level left => readContinuation read level left
  | .leaf => readLeaf read
  | .sequence closing => readSequence read closing
  | .items closing => readItems read closing

/-- Reads by a rule, with at most `bound` rules calling one another. -/
def parseWith : Nat → {α : Type} → Rule α → m α
  | 0, _, _ => fail .exhausted
  | bound + 1, _, rule => call (step (parseWith bound) rule)

end Reading

instance : Reading Parser where
  look := get
  advance := Parser.advance
  throw := MonadExcept.throw
  inLoop := Parser.inLoop
  outsideLoops := Parser.outsideLoops
  call := id

namespace Reading

/-- Read by a parser, the rules are those of the grammar. -/
lemma step_eq (read : Rule.Readers) {α : Type} (rule : Rule α) :
    step read rule = rule.step read := by
  cases rule <;> rfl

/-- Over cursors the rules read as the parser does. -/
lemma parseWith_eq (n : Nat) {α : Type} (rule : Rule α) :
    (parseWith n rule : Parser α) = rule.parseWith n := by
  induction n generalizing α with
  | zero => rfl
  | succ n ih =>
    have same : (fun {α : Type} => parseWith n : Rule.Readers) =
        (fun {α : Type} => Rule.parseWith n) := by
      funext α rule
      exact ih rule
    exact (congrArg (fun read : Rule.Readers => step read rule) same).trans (step_eq _ rule)

end Reading

end ScriptLang
