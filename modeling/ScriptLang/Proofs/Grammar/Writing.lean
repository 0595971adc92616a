import Mathlib.Data.List.Forall2
import ScriptLang.Proofs.Grammar.Script

/-!
# Writing programs

A program as it is written, with no parentheses but those it needs. A lexeme is a token without its
place and without the choice between spellings of the same number or string, so what is written is a
list of lexemes, and the tokens that `Spells` relates to it are all the ways to write the program.

An operand stands between parentheses if it binds less tightly than its place asks for, by the ranks
that `Derives` asks for. An assignment stands without them only where nothing is asked for. A
conditional that is all there is to an alternative may be written with `elif`, and `chain` says
whether it is.
-/

namespace ScriptLang

/-- A token without its place, and with its meaning for its text. -/
inductive Lexeme where
  | word (kind : Token.Kind)
  | name (text : String)
  | number (value : Float)
  | string (value : String)

namespace Lexeme

/-- The kind of the tokens of a lexeme. -/
def kind : Lexeme → Token.Kind
  | word kind => kind
  | name _ => .name
  | number _ => .number
  | string _ => .string

/-- The tokens of a lexeme. -/
def Spells (token : Token) (lexeme : Lexeme) : Prop :=
  token.kind = lexeme.kind ∧ match lexeme with
    | word _ => True
    | name text => token.text = text
    | number value => Number.literal token.text.toList = value
    | string value => String.ofList (Token.Literal.decode token.text.toList) = value

/-- Lexemes between parentheses, unless they bind tightly enough without. -/
def operand (rank : Nat) (e : Expression) (written : List Lexeme) : List Lexeme :=
  if rank ≤ e.rank then written else word .leftParen :: (written ++ [word .rightParen])

/-- Names with commas between them. -/
def names : List String → List Lexeme
  | [] => []
  | first :: others => name first :: others.flatMap fun other => [word .comma, name other]

/-- The parameters of a function. -/
def parameters (written : List String) : List Lexeme :=
  word .leftParen :: (names written ++ [word .rightParen])

/-- A block between braces. -/
def braced (written : List Lexeme) : List Lexeme :=
  word .leftBrace :: (written ++ [word .rightBrace])

end Lexeme

/-- Whether a statement is a conditional. -/
def Form.isBranch : Form → Bool
  | branch .. => true
  | _ => false

section
open Lexeme
variable (chain : Statement → Bool)

/-- Whether an alternative is a conditional that is written with `elif`. -/
def Lexeme.chains : Block → Bool
  | [s] => s.form.isBranch && chain s
  | _ => false

mutual

/-- An expression as it is written where nothing is asked of it. -/
def Expression.lexemes : Expression → List Lexeme
  | .number value => [.number value]
  | .string value => [.string value]
  | .boolean value => [word (if value then .trueWord else .falseWord)]
  | .identifier text => [name text]
  | .assign target value => target.lexemes ++ word .assign :: value.lexemes
  | .binary left operator right =>
    operand operator.sign.precedence.rank left left.lexemes ++ word operator.sign ::
      operand (operator.sign.precedence.rank + 1) right right.lexemes
  | .unary operator e => word operator.sign :: operand Precedence.unary.rank e e.lexemes
  | .call callee arguments =>
    operand Precedence.call.rank callee callee.lexemes ++ word .leftParen ::
      (elementLexemes arguments ++ [word .rightParen])
  | .list elements => word .leftBracket :: (elementLexemes elements ++ [word .rightBracket])
  | .function names body => word .fnWord :: (parameters names ++ braced (blockLexemes body))
  | .member target text =>
    operand Precedence.call.rank target target.lexemes ++ [word .dot, name text]
  | .index target place =>
    operand Precedence.call.rank target target.lexemes ++ word .leftBracket ::
      (place.lexemes ++ [word .rightBracket])
  | .unknown => []

/-- Expressions with commas between them. -/
def elementLexemes : List Expression → List Lexeme
  | [] => []
  | e :: es => e.lexemes ++ moreLexemes es

/-- Expressions with a comma before each of them. -/
def moreLexemes : List Expression → List Lexeme
  | [] => []
  | e :: es => word .comma :: (e.lexemes ++ moreLexemes es)

/-- A statement as it is written. -/
def Statement.lexemes : Statement → List Lexeme
  | .mk _ form => form.lexemes

/-- A form as it is written. -/
def Form.lexemes : Form → List Lexeme
  | .declare text value => word .letWord :: name text :: word .assign :: value.lexemes
  | .define text names body =>
    word .fnWord :: name text :: (parameters names ++ braced (blockLexemes body))
  | .branch condition consequent alternative =>
    word .ifWord :: (operand Precedence.logical.rank condition condition.lexemes ++
      (braced (blockLexemes consequent) ++ alternativeLexemes alternative))
  | .loop body (some text) (some iterable) =>
    word .loopWord :: word .leftParen :: word .letWord :: name text :: word .colon ::
      (iterable.lexemes ++ word .rightParen :: braced (blockLexemes body))
  | .loop body _ _ => word .loopWord :: braced (blockLexemes body)
  | .returns none => [word .returnWord]
  | .returns (some value) => word .returnWord :: value.lexemes
  | .breakLoop => [word .breakWord]
  | .continueLoop => [word .continueWord]
  | .evaluate e => e.lexemes
  | .unknown => []

/-- Statements one after the other. -/
def blockLexemes : List Statement → List Lexeme
  | [] => []
  | s :: b => s.lexemes ++ blockLexemes b

/-- What follows the block of a conditional. -/
def alternativeLexemes : Option (List Statement) → List Lexeme
  | none => []
  | some b =>
    if chains chain b then word .elifWord :: (blockLexemes b).tail
    else word .elseWord :: braced (blockLexemes b)

end

/-- Whether a statement ends before a statement that starts with a token. What ends in an expression
would go on with a parenthesis, a bracket or a minus sign, and a return would take any expression
for its value. -/
def Form.EndsBefore (kind : Token.Kind) : Form → Prop
  | declare .. | evaluate _ | returns (some _) =>
    kind ≠ .leftParen ∧ kind ≠ .leftBracket ∧ kind ≠ .minus
  | returns none => kind.startsExpression = false
  | _ => True

mutual

/-- An expression that has a way to be written: its numbers are those that tokens are read as,
operators stand between as many operands as they take, and only names are assigned. -/
def Expression.WellFormed : Expression → Prop
  | .number value => ∃ text : String, Number.literal text.toList = value
  | .assign target value => (∃ text, target = .identifier text) ∧ value.WellFormed
  | .binary left operator right => operator ≠ .not ∧ left.WellFormed ∧ right.WellFormed
  | .unary operator e => (operator = .subtract ∨ operator = .not) ∧ e.WellFormed
  | .call callee arguments => callee.WellFormed ∧ ElementsWellFormed arguments
  | .list elements => ElementsWellFormed elements
  | .function _ body => BlockWellFormed false body
  | .member target _ => target.WellFormed
  | .index target place => target.WellFormed ∧ place.WellFormed
  | .unknown => False
  | _ => True

/-- Expressions that have a way to be written. -/
def ElementsWellFormed : List Expression → Prop
  | [] => True
  | e :: es => e.WellFormed ∧ ElementsWellFormed es

/-- A statement that has a way to be written. -/
def Statement.WellFormed (l : Bool) : Statement → Prop
  | .mk _ form => form.WellFormed l

/-- A form that has a way to be written, possibly inside a loop: jumps only stand inside loops, and
a loop over a list names its elements. -/
def Form.WellFormed (l : Bool) : Form → Prop
  | .declare _ value => value.WellFormed
  | .define _ _ body => BlockWellFormed false body
  | .branch condition consequent alternative =>
    condition.WellFormed ∧ BlockWellFormed l consequent ∧ AlternativeWellFormed l alternative
  | .loop body (some _) (some iterable) => iterable.WellFormed ∧ BlockWellFormed true body
  | .loop body none none => BlockWellFormed true body
  | .loop .. => False
  | .returns none => True
  | .returns (some value) => value.WellFormed
  | .breakLoop => l = true
  | .continueLoop => l = true
  | .evaluate e => e.WellFormed
  | .unknown => False

/-- Statements that have a way to be written, each of which ends before the next. -/
def BlockWellFormed (l : Bool) : List Statement → Prop
  | [] => True
  | s :: b =>
    s.WellFormed l ∧ (∀ next ∈ (blockLexemes chain b).head?, s.form.EndsBefore next.kind) ∧
      BlockWellFormed l b

/-- An alternative that has a way to be written. -/
def AlternativeWellFormed (l : Bool) : Option (List Statement) → Prop
  | none => True
  | some b => BlockWellFormed l b

end

end

mutual

/-- An expression without the lines of the statements in it. -/
def Expression.withoutLines : Expression → Expression
  | .assign target value => .assign target.withoutLines value.withoutLines
  | .binary left operator right => .binary left.withoutLines operator right.withoutLines
  | .unary operator e => .unary operator e.withoutLines
  | .call callee arguments => .call callee.withoutLines (elementsWithoutLines arguments)
  | .list elements => .list (elementsWithoutLines elements)
  | .function names body => .function names (blockWithoutLines body)
  | .member target text => .member target.withoutLines text
  | .index target place => .index target.withoutLines place.withoutLines
  | .number value => .number value
  | .string value => .string value
  | .boolean value => .boolean value
  | .identifier text => .identifier text
  | .unknown => .unknown

/-- Expressions without the lines of the statements in them. -/
def elementsWithoutLines : List Expression → List Expression
  | [] => []
  | e :: es => e.withoutLines :: elementsWithoutLines es

/-- A statement without lines. -/
def Statement.withoutLines : Statement → Statement
  | .mk _ form => .mk none form.withoutLines

/-- A form without the lines of the statements in it. -/
def Form.withoutLines : Form → Form
  | .declare text value => .declare text value.withoutLines
  | .define text names body => .define text names (blockWithoutLines body)
  | .branch condition consequent alternative =>
    .branch condition.withoutLines (blockWithoutLines consequent)
      (alternativeWithoutLines alternative)
  | .loop body text none => .loop (blockWithoutLines body) text none
  | .loop body text (some iterable) =>
    .loop (blockWithoutLines body) text (some iterable.withoutLines)
  | .returns none => .returns none
  | .returns (some value) => .returns (some value.withoutLines)
  | .breakLoop => .breakLoop
  | .continueLoop => .continueLoop
  | .evaluate e => .evaluate e.withoutLines
  | .unknown => .unknown

/-- Statements without lines. -/
def blockWithoutLines : List Statement → List Statement
  | [] => []
  | s :: b => s.withoutLines :: blockWithoutLines b

/-- An alternative without lines. -/
def alternativeWithoutLines : Option (List Statement) → Option (List Statement)
  | none => none
  | some b => some (blockWithoutLines b)

end

/-- The tokens spell the lexemes. -/
def Spelling : List Token → List Lexeme → Prop := List.Forall₂ Lexeme.Spells

/-- There are tokens that spell the lexemes. -/
def Spellable (written : List Lexeme) : Prop := ∃ ts, Spelling ts written

namespace Spellable
variable {a b : List Lexeme}

/-- Nothing can be spelled. -/
lemma nil : Spellable [] := ⟨[], .nil⟩

/-- What one token spells can be spelled, before what can be. -/
lemma cons {x : Lexeme} (token : Token) (h : Lexeme.Spells token x) (ha : Spellable a) :
    Spellable (x :: a) := by
  obtain ⟨ts, m⟩ := ha
  exact ⟨token :: ts, .cons h m⟩

/-- Words can be spelled, before what can be. -/
lemma word {kind : Token.Kind} (ha : Spellable a) : Spellable (.word kind :: a) :=
  .cons (.sample kind) ⟨rfl, trivial⟩ ha

/-- Names can be spelled, before what can be. -/
lemma name {text : String} (ha : Spellable a) : Spellable (.name text :: a) :=
  .cons ⟨.name, text, .start⟩ ⟨rfl, rfl⟩ ha

/-- Strings can be spelled. -/
lemma string (text : String) : Spellable [.string text] := by
  refine .cons ⟨.string, String.ofList (Token.Literal.encode text.toList), .start⟩ ⟨rfl, ?_⟩ .nil
  simp [Token.Literal.decode_encode]

/-- What is left behind the first lexeme can be spelled. -/
lemma tail (ha : Spellable a) : Spellable a.tail := by
  obtain ⟨ts, m⟩ := ha
  cases m with
  | nil => exact .nil
  | cons _ m => exact ⟨_, m⟩

/-- Two parts can be spelled in a row. -/
lemma append (ha : Spellable a) (hb : Spellable b) : Spellable (a ++ b) := by
  obtain ⟨ts, ma⟩ := ha
  obtain ⟨us, mb⟩ := hb
  exact ⟨ts ++ us, List.rel_append ma mb⟩

/-- An operand can be spelled, with parentheses or without. -/
lemma operand {rank : Nat} {e : Expression} (ha : Spellable a) :
    Spellable (Lexeme.operand rank e a) := by
  unfold Lexeme.operand
  split
  · exact ha
  · exact .word (.append ha (.word .nil))

/-- What can be spelled can be between braces. -/
lemma braced (ha : Spellable a) : Spellable (Lexeme.braced a) :=
  .word (.append ha (.word .nil))

/-- Names with commas between them can be spelled. -/
lemma names (written : List String) : Spellable (Lexeme.names written) := by
  cases written with
  | nil => exact .nil
  | cons first others =>
    apply Spellable.name
    induction others with
    | nil => exact .nil
    | cons other others ih => exact .word (.name ih)

/-- Parameters can be spelled. -/
lemma parameters (written : List String) : Spellable (Lexeme.parameters written) :=
  .word (.append (.names written) (.word .nil))

end Spellable

variable {chain : Statement → Bool}

mutual

/-- Expressions that are well formed can be spelled. -/
lemma Expression.spellable (e : Expression) (h : e.WellFormed chain) :
    Spellable (e.lexemes chain) := by
  cases e with
  | number value =>
    obtain ⟨text, rfl⟩ := h
    exact .cons ⟨.number, text, .start⟩ ⟨rfl, rfl⟩ .nil
  | string value => exact .string value
  | boolean value => exact .word .nil
  | identifier text => exact .name .nil
  | assign target value =>
    obtain ⟨⟨text, rfl⟩, hv⟩ := h
    exact .name (.word (value.spellable hv))
  | binary left operator right =>
    obtain ⟨_, hl, hr⟩ := h
    exact .append (.operand (left.spellable hl)) (.word (.operand (right.spellable hr)))
  | unary operator e => exact .word (.operand (e.spellable h.2))
  | call callee arguments =>
    obtain ⟨hc, ha⟩ := h
    refine .append (.operand (callee.spellable hc)) (.word ?_)
    exact .append (elements_spellable arguments ha) (.word .nil)
  | list elements => exact .word (.append (elements_spellable elements h) (.word .nil))
  | function names body =>
    exact .word (.append (.parameters names) (.braced (block_spellable body h)))
  | member target text => exact .append (.operand (target.spellable h)) (.word (.name .nil))
  | index target place =>
    obtain ⟨ht, hp⟩ := h
    refine .append (.operand (target.spellable ht)) (.word ?_)
    exact .append (place.spellable hp) (.word .nil)
  | unknown => cases h

/-- Elements that are well formed can be spelled. -/
lemma elements_spellable (es : List Expression) (h : ElementsWellFormed chain es) :
    Spellable (elementLexemes chain es) := by
  cases es with
  | nil => exact .nil
  | cons e es => exact .append (e.spellable h.1) (more_spellable es h.2)

/-- Elements behind the first can be spelled if they are well formed. -/
lemma more_spellable (es : List Expression) (h : ElementsWellFormed chain es) :
    Spellable (moreLexemes chain es) := by
  cases es with
  | nil => exact .nil
  | cons e es => exact .word (.append (e.spellable h.1) (more_spellable es h.2))

/-- Statements that are well formed can be spelled. -/
lemma Statement.spellable (s : Statement) {l : Bool} (h : s.WellFormed chain l) :
    Spellable (s.lexemes chain) := by
  cases s with
  | mk line form => exact form.spellable h

/-- Forms that are well formed can be spelled. -/
lemma Form.spellable (form : Form) {l : Bool} (h : form.WellFormed chain l) :
    Spellable (form.lexemes chain) := by
  cases form with
  | declare text value => exact .word (.name (.word (value.spellable h)))
  | define text names body =>
    exact .word (.name (.append (.parameters names) (.braced (block_spellable body h))))
  | branch condition consequent alternative =>
    obtain ⟨hc, hb, ha⟩ := h
    refine .word (.append (.operand (condition.spellable hc)) ?_)
    exact .append (.braced (block_spellable consequent hb)) (alternative_spellable alternative ha)
  | loop body text iterable =>
    cases text with
    | none =>
      cases iterable with
      | some => cases h
      | none => exact .word (.braced (block_spellable body h))
    | some text =>
      cases iterable with
      | none => cases h
      | some iterable =>
        obtain ⟨hi, hb⟩ := h
        refine .word (.word (.word (.name (.word ?_))))
        exact .append (iterable.spellable hi) (.word (.braced (block_spellable body hb)))
  | returns value =>
    cases value with
    | none => exact .word .nil
    | some value => exact .word (value.spellable h)
  | breakLoop => exact .word .nil
  | continueLoop => exact .word .nil
  | evaluate e => exact e.spellable h
  | unknown => cases h

/-- Blocks that are well formed can be spelled. -/
lemma block_spellable (b : List Statement) {l : Bool} (h : BlockWellFormed chain l b) :
    Spellable (blockLexemes chain b) := by
  cases b with
  | nil => exact .nil
  | cons s b => exact .append (s.spellable h.1) (block_spellable b h.2.2)

/-- Alternatives that are well formed can be spelled. -/
lemma alternative_spellable (alternative : Option (List Statement)) {l : Bool}
    (h : AlternativeWellFormed chain l alternative) :
    Spellable (alternativeLexemes chain alternative) := by
  cases alternative with
  | none => exact .nil
  | some b =>
    have written := block_spellable b h
    unfold alternativeLexemes
    split
    · exact .word written.tail
    · exact .word (.braced written)

end

/-- Of what goes on with an expression, only these may start a statement. -/
lemma Token.Kind.not_continuesExpression {kind : Kind} (hs : kind.startsStatement = true)
    (hparen : kind ≠ .leftParen) (hbracket : kind ≠ .leftBracket) (hminus : kind ≠ .minus) :
    kind.continuesExpression = false := by
  cases kind <;> first | rfl | contradiction

/-- A form may precede the start of a statement that it ends before. -/
lemma Form.EndsBefore.mayPrecede {form : Form} {kind : Token.Kind} (h : form.EndsBefore kind)
    (hs : kind.startsStatement = true) : form.mayPrecede kind = true := by
  have ends (h : kind ≠ .leftParen ∧ kind ≠ .leftBracket ∧ kind ≠ .minus) :
      (!kind.continuesExpression) = true := by
    obtain ⟨hparen, hbracket, hminus⟩ := h
    rw [Token.Kind.not_continuesExpression hs hparen hbracket hminus]
    rfl
  cases form with
  | declare => exact ends h
  | evaluate => exact ends h
  | returns value =>
    cases value with
    | none =>
      have h : kind.startsExpression = false := h
      change (!kind.startsExpression) = true
      rw [h]
      rfl
    | some => exact ends h
  | _ => rfl

/-- Lines do not tell how tightly an expression binds. -/
lemma Expression.rank_withoutLines (e : Expression) : e.withoutLines.rank = e.rank := by
  cases e <;> rfl

/-- Lines do not tell what a form may precede. -/
lemma Form.mayPrecede_withoutLines (form : Form) (kind : Token.Kind) :
    form.withoutLines.mayPrecede kind = form.mayPrecede kind := by
  cases form with
  | returns value => cases value <;> rfl
  | loop body name iterable => cases iterable <;> rfl
  | _ => rfl

end ScriptLang
