import ScriptLang.Grammar.Cursor
import ScriptLang.Number.Reader
import ScriptLang.Program.Precedence
import ScriptLang.Token.Literal

/-!
# The rules of the grammar

One rule for every kind of phrase. `Rule.step` says how a rule reads tokens, given readers for the
rules it calls, and `Rule.parseWith` closes the circle with a bound on how deeply rules may call one
another. On the way from one token to the next a rule calls only a few others, so a bound linear in
the number of tokens is never reached, and `Rule.parse` takes such a bound from the cursor.

Expressions are read by precedence: a leaf, and then calls, accesses and operators for as long as
the next token binds more tightly than the surroundings.
-/

namespace ScriptLang

/-- The rules of the grammar, by the trees they yield. -/
inductive Rule : Type → Type where
  | statement : Rule Statement
  | declaration : Rule Statement
  | definition : Rule Statement
  | conditional : Rule Statement
  | loop : Rule Statement
  | returning : Rule Statement
  | jump : Rule Statement
  | block : Rule Block
  | statements : Rule Block
  | functionBody : Rule Block
  | parameters : Rule (List String)
  | parameterNames : Rule (List String)
  | expression (level : Precedence) : Rule Expression
  | continuation (level : Precedence) (left : Expression) : Rule Expression
  | leaf : Rule Expression
  | sequence (closing : Option Token.Kind) : Rule (List Expression)
  | items (closing : Option Token.Kind) : Rule (List Expression)

namespace Rule

open ScriptLang.Parser

/-- Readers for all rules. -/
abbrev Readers := {α : Type} → Rule α → Parser α

/-- A statement that starts at a token. -/
def statementAt (token : Token) (form : Form) : Statement := .mk (some token.position.line) form

/-- After an element of a list: moves past a comma, or makes sure that the list ends. -/
def separator (closing : Option Token.Kind) : Parser Unit := do
  let kind ← peekKind
  if kind = some .comma then advance
  else if kind ≠ closing then failToClose closing

variable (read : Readers)

/-- A statement is told by its first token, a function declaration by its first two. -/
def readStatement : Parser Statement := do
  match ← peek with
  | none => fail (.unexpected none)
  | some token =>
    let second ← peekSecondKind
    match token.kind with
    | .letWord => read .declaration
    | .ifWord => read .conditional
    | .loopWord => read .loop
    | .returnWord => read .returning
    | .breakWord | .continueWord => read .jump
    | kind =>
      if kind = .fnWord ∧ second = some .name then read .definition
      else return statementAt token (.evaluate (← read (.expression .lowest)))

/-- The declaration of a variable. -/
def readDeclaration : Parser Statement := do
  let first ← expect .letWord
  let name ← expect .name
  discard <| expect .assign
  return statementAt first (.declare name.text (← read (.expression .lowest)))

/-- The definition of a named function. -/
def readDefinition : Parser Statement := do
  let first ← expect .fnWord
  let name ← expect .name
  let parameters ← read .parameters
  return statementAt first (.define name.text parameters (← read .functionBody))

/-- A conditional. An alternative with a condition of its own is a block of one conditional. -/
def readConditional : Parser Statement := do
  match ← peek with
  | none => fail (.unexpected (some .ifWord))
  | some first =>
    if first.kind ≠ .ifWord ∧ first.kind ≠ .elifWord then fail (.unexpected (some .ifWord))
    else
      advance
      let condition ← read (.expression .statement)
      let consequent ← read .block
      let kind ← peekKind
      if kind = some .elifWord then
        let alternative ← read .conditional
        return statementAt first (.branch condition consequent (some [alternative]))
      else if kind = some .elseWord then
        advance
        return statementAt first (.branch condition consequent (some (← read .block)))
      else return statementAt first (.branch condition consequent none)

/-- A loop, over the elements of a list when parentheses follow the keyword. -/
def readLoop : Parser Statement := do
  let first ← expect .loopWord
  if (← peekKind) = some .leftParen then
    advance
    discard <| expect .letWord
    let name ← expect .name
    discard <| expect .colon
    let iterable ← read (.expression .lowest)
    discard <| expect .rightParen
    let body ← inLoop (read .block)
    return statementAt first (.loop body (some name.text) (some iterable))
  else
    let body ← inLoop (read .block)
    return statementAt first (.loop body none none)

/-- A return, with a value when the next token may start one. -/
def readReturning : Parser Statement := do
  let first ← expect .returnWord
  if ((← peekKind).map (·.startsExpression)).getD false then
    return statementAt first (.returns (some (← read (.expression .lowest))))
  else return statementAt first (.returns none)

/-- A jump to the end or to the next round of the loop around it. -/
def readJump : Parser Statement := do
  let start ← get
  if start.loopDepth = 0 then fail .jumpOutsideLoop
  else
    advance
    match start.rest with
    | [] => throw ⟨.unreachable, []⟩
    | token :: _ =>
      match token.kind with
      | .breakWord => return statementAt token .breakLoop
      | .continueWord => return statementAt token .continueLoop
      | _ => throw ⟨.unreachable, start.rest⟩

/-- A block between braces. -/
def readBlock : Parser Block := do
  discard <| expect .leftBrace
  let statements ← read .statements
  discard <| expect .rightBrace
  return statements

/-- The statements up to a closing brace. -/
def readStatements : Parser Block := do
  if (← peekKind) = some .rightBrace then return []
  else
    let first ← read .statement
    return first :: (← read .statements)

/-- The parameters of a function, between parentheses. -/
def readParameters : Parser (List String) := do
  discard <| expect .leftParen
  let names ← read .parameterNames
  discard <| expect .rightParen
  return names

/-- Names up to a closing parenthesis. -/
def readParameterNames : Parser (List String) := do
  if (← peekKind) = some .rightParen then return []
  else
    let name ← expect .name
    separator (some .rightParen)
    return name.text :: (← read .parameterNames)

/-- An expression in surroundings of the given level. -/
def readExpression (level : Precedence) : Parser Expression := do
  let left ← read .leaf
  read (.continuation level left)

/-- What an expression goes on with: a call, an access, an operator and its right operand, or
nothing. -/
def readContinuation (level : Precedence) (left : Expression) : Parser Expression := do
  match ← peekKind with
  | none => return left
  | some kind =>
    if kind.precedence.rank ≤ level.rank then return left
    else match kind with
      | .leftParen =>
        advance
        let arguments ← read (.sequence (some .rightParen))
        read (.continuation level (.call left arguments))
      | .dot =>
        advance
        let name ← expect .name
        read (.continuation level (.member left name.text))
      | .leftBracket =>
        advance
        let place ← read (.expression .lowest)
        discard <| expect .rightBracket
        read (.continuation level (.index left place))
      | .assign =>
        match left with
        | .identifier _ =>
          advance
          let value ← read (.expression .lowest)
          read (.continuation level (.assign left value))
        | _ => fail .invalidTarget
      | kind =>
        match kind.binaryOperator? with
        | some operator =>
          advance
          let right ← read (.expression kind.precedence)
          read (.continuation level (.binary left operator right))
        | none => return left

/-- An expression that no operator of two operands or access is the outermost part of. -/
def readLeaf : Parser Expression := do
  match ← peek with
  | none => fail (.unexpected none)
  | some token =>
    match token.kind with
    | .number =>
      advance
      return .number (Number.literal token.text.toList)
    | .string =>
      advance
      return .string (String.ofList (Token.Literal.decode token.text.toList))
    | .trueWord =>
      advance
      return .boolean true
    | .falseWord =>
      advance
      return .boolean false
    | .name =>
      advance
      return .identifier token.text
    | .fnWord =>
      advance
      let parameters ← read .parameters
      return .function parameters (← read .functionBody)
    | .minus =>
      advance
      return .unary .subtract (← read (.expression .unary))
    | .bang =>
      advance
      return .unary .not (← read (.expression .unary))
    | .leftBracket =>
      advance
      return .list (← read (.sequence (some .rightBracket)))
    | .leftParen =>
      advance
      let inner ← read (.expression .lowest)
      discard <| expect .rightParen
      return inner
    | _ => fail (.unexpected none)

/-- Expressions up to and including the closing token. -/
def readSequence (closing : Option Token.Kind) : Parser (List Expression) := do
  let items ← read (.items closing)
  close closing
  return items

/-- Expressions up to the closing token. -/
def readItems (closing : Option Token.Kind) : Parser (List Expression) := do
  if (← peekKind) = closing then return []
  else
    let first ← read (.expression .lowest)
    separator closing
    return first :: (← read (.items closing))

/-- How a rule reads tokens, given readers for the rules it calls. -/
def step {α : Type} : Rule α → Parser α
  | statement => readStatement read
  | declaration => readDeclaration read
  | definition => readDefinition read
  | conditional => readConditional read
  | loop => readLoop read
  | returning => readReturning read
  | jump => readJump
  | block => readBlock read
  | statements => readStatements read
  | functionBody => outsideLoops (read .block)
  | parameters => readParameters read
  | parameterNames => readParameterNames read
  | expression level => readExpression read level
  | continuation level left => readContinuation read level left
  | leaf => readLeaf read
  | sequence closing => readSequence read closing
  | items closing => readItems read closing

/-- Reads by a rule, with at most `bound` rules calling one another. -/
def parseWith : Nat → {α : Type} → Rule α → Parser α
  | 0, _, _ => fail .exhausted
  | bound + 1, _, rule => step (parseWith bound) rule

/-- How deeply rules may call one another over a number of tokens. -/
def bound (tokens : Nat) : Nat := 8 * tokens + 8

/-- Reads by a rule. -/
def parse {α : Type} (rule : Rule α) : Parser α := fun c =>
  parseWith (bound c.rest.length) rule c

/-- Whether a rule goes on with what the rule before it began. -/
def continues {α : Type} : Rule α → Bool
  | statements | parameterNames | continuation .. | items _ => true
  | _ => false

/-- How much room a rule takes inside of another. To go on with something takes none, and what an
expression goes on with is read one call further inside. -/
def room {α β : Type} (caller : Rule α) (rule : Rule β) : Nat :=
  if rule.continues then 0
  else match caller with
    | continuation .. => 2
    | _ => 1

/-- Reads by a rule, with at most `bound` rules calling one another and within some room for calls
inside one another. -/
def parseWithin : Nat → Nat → {α : Type} → Rule α → Parser α
  | 0, _, _, _ => fail .exhausted
  | bound + 1, available, _, rule =>
    if available = 0 then fail .exhausted
    else step (fun callee => parseWithin bound (available - rule.room callee) callee) rule

end Rule

end ScriptLang
