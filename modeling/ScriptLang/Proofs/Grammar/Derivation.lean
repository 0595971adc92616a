import Mathlib.Tactic.Common
import ScriptLang.Program.Reader

/-!
# The grammar

What a list of tokens says, by rules alone. `Derives l ph ts` means that the tokens `ts`, all of
them and in this order, can be read as the phrase `ph`; the flag `l` tells whether a loop is around
them. The rules follow the shape of trees and know nothing of how a parser goes about its work.

An operand is an expression at a place that asks for a rank. It may stand there as it is if its
outermost operator binds at least as tightly, and between parentheses in any case. So the left
operand of an operator asks for the operator's own rank and the right operand for one more, what is
called or accessed asks for the rank of a call, and an assignment is only an operand where no rank
is asked for.
-/

namespace ScriptLang

/-- The token that an operator is written as. -/
def Operator.sign : Operator → Token.Kind
  | add => .plus
  | subtract => .minus
  | multiply => .star
  | divide => .slash
  | modulo => .percent
  | equal => .equal
  | notEqual => .notEqual
  | less => .less
  | greater => .greater
  | lessEqual => .lessEqual
  | greaterEqual => .greaterEqual
  | and => .and
  | or => .or
  | not => .bang

/-- The operator of one operand that a token stands for. -/
def Token.Kind.unaryOperator? : Kind → Option Operator
  | minus => some .subtract
  | bang => some .not
  | _ => none

/-- Whether a token goes on with the expression before it. -/
def Token.Kind.continuesExpression (kind : Kind) : Bool :=
  decide (Precedence.statement.rank < kind.precedence.rank)

/-- How tightly the outermost operator of an expression binds. What has no operator binds as
tightly as a call. -/
def Expression.rank : Expression → Nat
  | assign .. => Precedence.assignment.rank
  | binary _ operator _ => operator.sign.precedence.rank
  | unary .. => Precedence.unary.rank
  | _ => Precedence.call.rank

/-- Whether a statement may stand right before a token. One that ends in an expression may not if
the token goes on with the expression, and a return without a value may not if the token starts an
expression. -/
def Form.mayPrecede : Form → Token.Kind → Bool
  | declare .., kind | evaluate _, kind | returns (some _), kind => !kind.continuesExpression
  | returns none, kind => !kind.startsExpression
  | _, _ => true

/-- What tokens may be read as. -/
inductive Phrase where
  | operand (rank : Nat) (e : Expression)
  | expression (e : Expression)
  | elements (es : List Expression)
  | statement (s : Statement)
  | conditional (word : Token.Kind) (s : Statement)
  | alternative (b : Option Block)
  | block (b : Block)
  | statements (b : Block)

/-- Names with commas between them, and possibly one after the last. -/
inductive DerivesNames : List String → List Token → Prop where
  | nil : DerivesNames [] []
  | last {name : Token} : name.kind = .name → DerivesNames [name.text] [name]
  | cons {name comma : Token} {names ts} :
    name.kind = .name → comma.kind = .comma → DerivesNames names ts →
    DerivesNames (name.text :: names) (name :: comma :: ts)

/-- The parameters of a function, between parentheses. -/
inductive DerivesParameters : List String → List Token → Prop where
  | intro {opening closing : Token} {names ts} :
    opening.kind = .leftParen → DerivesNames names ts → closing.kind = .rightParen →
    DerivesParameters names (opening :: (ts ++ [closing]))

open Rule (statementAt)

/-- The tokens can be read as the phrase. -/
inductive Derives : Bool → Phrase → List Token → Prop where
  | bare {l rank e ts} :
    rank ≤ e.rank → Derives l (.expression e) ts → Derives l (.operand rank e) ts
  | grouped {l rank e ts} {opening closing : Token} :
    opening.kind = .leftParen → Derives l (.operand 0 e) ts → closing.kind = .rightParen →
    Derives l (.operand rank e) (opening :: (ts ++ [closing]))
  | number {l} {token : Token} : token.kind = .number →
    Derives l (.expression (.number (Number.literal token.text.toList))) [token]
  | string {l} {token : Token} : token.kind = .string →
    Derives l (.expression (.string (String.ofList (Token.Literal.decode token.text.toList))))
      [token]
  | trueWord {l} {token : Token} : token.kind = .trueWord →
    Derives l (.expression (.boolean true)) [token]
  | falseWord {l} {token : Token} : token.kind = .falseWord →
    Derives l (.expression (.boolean false)) [token]
  | identifier {l} {token : Token} : token.kind = .name →
    Derives l (.expression (.identifier token.text)) [token]
  | function {l parameters body ts us} {first : Token} :
    first.kind = .fnWord → DerivesParameters parameters ts → Derives false (.block body) us →
    Derives l (.expression (.function parameters body)) (first :: (ts ++ us))
  | list {l es ts} {opening closing : Token} :
    opening.kind = .leftBracket → Derives l (.elements es) ts → closing.kind = .rightBracket →
    Derives l (.expression (.list es)) (opening :: (ts ++ [closing]))
  | unary {l operator e ts} {sign : Token} :
    sign.kind.unaryOperator? = some operator → Derives l (.operand Precedence.unary.rank e) ts →
    Derives l (.expression (.unary operator e)) (sign :: ts)
  | binary {l operator left right ts us} {sign : Token} :
    sign.kind.binaryOperator? = some operator →
    Derives l (.operand sign.kind.precedence.rank left) ts →
    Derives l (.operand (sign.kind.precedence.rank + 1) right) us →
    Derives l (.expression (.binary left operator right)) (ts ++ sign :: us)
  | assign {l name value ts us} {sign : Token} :
    Derives l (.operand Precedence.assignment.rank (.identifier name)) ts → sign.kind = .assign →
    Derives l (.operand 0 value) us →
    Derives l (.expression (.assign (.identifier name) value)) (ts ++ sign :: us)
  | call {l target arguments ts us} {opening closing : Token} :
    Derives l (.operand Precedence.call.rank target) ts → opening.kind = .leftParen →
    Derives l (.elements arguments) us → closing.kind = .rightParen →
    Derives l (.expression (.call target arguments)) (ts ++ opening :: (us ++ [closing]))
  | member {l target ts} {dot name : Token} :
    Derives l (.operand Precedence.call.rank target) ts → dot.kind = .dot → name.kind = .name →
    Derives l (.expression (.member target name.text)) (ts ++ [dot, name])
  | index {l target place ts us} {opening closing : Token} :
    Derives l (.operand Precedence.call.rank target) ts → opening.kind = .leftBracket →
    Derives l (.operand 0 place) us → closing.kind = .rightBracket →
    Derives l (.expression (.index target place)) (ts ++ opening :: (us ++ [closing]))
  | noElements {l} : Derives l (.elements []) []
  | lastElement {l e ts} : Derives l (.operand 0 e) ts → Derives l (.elements [e]) ts
  | moreElements {l e es ts us} {comma : Token} :
    Derives l (.operand 0 e) ts → comma.kind = .comma → Derives l (.elements es) us →
    Derives l (.elements (e :: es)) (ts ++ comma :: us)
  | declare {l value ts} {first name sign : Token} :
    first.kind = .letWord → name.kind = .name → sign.kind = .assign →
    Derives l (.operand 0 value) ts →
    Derives l (.statement (statementAt first (.declare name.text value)))
      (first :: name :: sign :: ts)
  | define {l parameters body ts us} {first name : Token} :
    first.kind = .fnWord → name.kind = .name → DerivesParameters parameters ts →
    Derives false (.block body) us →
    Derives l (.statement (statementAt first (.define name.text parameters body)))
      (first :: name :: (ts ++ us))
  | branch {l s ts} : Derives l (.conditional .ifWord s) ts → Derives l (.statement s) ts
  | conditional {l word condition consequent alternative ts us vs} {first : Token} :
    first.kind = word → Derives l (.operand 0 condition) ts → Derives l (.block consequent) us →
    Derives l (.alternative alternative) vs →
    Derives l (.conditional word (statementAt first (.branch condition consequent alternative)))
      (first :: (ts ++ (us ++ vs)))
  | noAlternative {l} : Derives l (.alternative none) []
  | chained {l s ts} :
    Derives l (.conditional .elifWord s) ts → Derives l (.alternative (some [s])) ts
  | otherwise {l b ts} {word : Token} :
    word.kind = .elseWord → Derives l (.block b) ts →
    Derives l (.alternative (some b)) (word :: ts)
  | loop {l body ts} {first : Token} :
    first.kind = .loopWord → Derives true (.block body) ts →
    Derives l (.statement (statementAt first (.loop body none none))) (first :: ts)
  | loopOver {l iterable body ts us} {first opening word name colon closing : Token} :
    first.kind = .loopWord → opening.kind = .leftParen → word.kind = .letWord →
    name.kind = .name → colon.kind = .colon → Derives l (.operand 0 iterable) ts →
    closing.kind = .rightParen → Derives true (.block body) us →
    Derives l (.statement (statementAt first (.loop body (some name.text) (some iterable))))
      (first :: opening :: word :: name :: colon :: (ts ++ closing :: us))
  | returns {l value ts} {first : Token} :
    first.kind = .returnWord → Derives l (.operand 0 value) ts →
    Derives l (.statement (statementAt first (.returns (some value)))) (first :: ts)
  | returnsNothing {l} {first : Token} :
    first.kind = .returnWord → Derives l (.statement (statementAt first (.returns none))) [first]
  | breakLoop {first : Token} :
    first.kind = .breakWord → Derives true (.statement (statementAt first .breakLoop)) [first]
  | continueLoop {first : Token} :
    first.kind = .continueWord →
    Derives true (.statement (statementAt first .continueLoop)) [first]
  | evaluate {l e ts} {first : Token} :
    Derives l (.operand 0 e) (first :: ts) →
    Derives l (.statement (statementAt first (.evaluate e))) (first :: ts)
  | block {l b ts} {opening closing : Token} :
    opening.kind = .leftBrace → Derives l (.statements b) ts → closing.kind = .rightBrace →
    Derives l (.block b) (opening :: (ts ++ [closing]))
  | noStatements {l} : Derives l (.statements []) []
  | moreStatements {l s b ts us} :
    Derives l (.statement s) ts → (∀ token ∈ us.head?, s.form.mayPrecede token.kind) →
    Derives l (.statements b) us → Derives l (.statements (s :: b)) (ts ++ us)

/-- A kind of token as it is written. Of names, numbers and strings this is only one. -/
def Token.Kind.spelling : Kind → String
  | letWord => "let"
  | fnWord => "fn"
  | ifWord => "if"
  | elifWord => "elif"
  | elseWord => "else"
  | loopWord => "loop"
  | returnWord => "return"
  | continueWord => "continue"
  | breakWord => "break"
  | trueWord => "true"
  | falseWord => "false"
  | name => "x"
  | number => "0"
  | string => "\"\""
  | leftParen => "("
  | rightParen => ")"
  | leftBrace => "\x7b"
  | rightBrace => "\x7d"
  | leftBracket => "["
  | rightBracket => "]"
  | comma => ","
  | colon => ":"
  | dot => "."
  | plus => "+"
  | minus => "-"
  | star => "*"
  | slash => "/"
  | percent => "%"
  | equal => "=="
  | notEqual => "!="
  | lessEqual => "<="
  | greaterEqual => ">="
  | less => "<"
  | greater => ">"
  | assign => "="
  | and => "&&"
  | or => "||"
  | bang => "!"

/-- Some token of a kind. -/
def Token.sample (kind : Kind) : Token := ⟨kind, kind.spelling, .start⟩

/-- A sample of a kind is of that kind. -/
@[simp] lemma Token.kind_sample (kind : Kind) : (Token.sample kind).kind = kind := rfl

/-- How tightly the next token binds what is before it. -/
def nextRank (rest : List Token) : Nat := (rest.head?.map (·.kind.precedence.rank)).getD 0

/-- The next rank is that of the first token. -/
@[simp] lemma nextRank_cons (token : Token) (rest : List Token) :
    nextRank (token :: rest) = token.kind.precedence.rank := rfl

/-- The least rank of an expression that is read in surroundings of a level. -/
def Precedence.operandRank (level : Precedence) : Nat := min (level.rank + 1) Precedence.unary.rank

/-- The next token does not go on with an expression read in surroundings of a level. -/
def Precedence.Stops (level : Precedence) (rest : List Token) : Prop :=
  nextRank rest ≤ max level.rank Precedence.statement.rank

/-- Nothing binds more tightly than a call. -/
lemma Precedence.rank_le (level : Precedence) : level.rank ≤ Precedence.call.rank := by
  cases level <;> decide

/-- No operand has to bind more tightly than that of an operator of one operand. -/
lemma Precedence.operandRank_le (level : Precedence) : level.operandRank ≤ Precedence.unary.rank :=
  Nat.min_le_right _ _

/-- No next token binds more tightly than a call. -/
lemma nextRank_le (rest : List Token) : nextRank rest ≤ Precedence.call.rank := by
  cases rest with
  | nil => exact Nat.zero_le _
  | cons token rest => exact Precedence.rank_le _

namespace Token.Kind

/-- An operator of two operands is written with its sign. -/
lemma eq_sign {kind : Kind} {operator : Operator} (h : kind.binaryOperator? = some operator) :
    kind = operator.sign := by
  cases kind <;> cases h <;> rfl

/-- Every operator of two operands binds more tightly than an assignment and less tightly than an
operator of one. -/
lemma rank_of_binaryOperator? {kind : Kind} {operator : Operator}
    (h : kind.binaryOperator? = some operator) :
    Precedence.assignment.rank < kind.precedence.rank ∧
      kind.precedence.rank < Precedence.unary.rank := by
  cases kind <;> cases h <;> decide

/-- An operator of two operands, a call, an access and an assignment are all that goes on with an
expression. -/
lemma rank_of_binaryOperator?_eq_none {kind : Kind} (h : kind.binaryOperator? = none)
    (hcall : kind ≠ .leftParen) (hmember : kind ≠ .dot) (hindex : kind ≠ .leftBracket)
    (hassign : kind ≠ .assign) : kind.precedence.rank ≤ Precedence.statement.rank := by
  cases kind <;> first | contradiction | decide

end Token.Kind

namespace Derives

/-- What may stand as an operand may where less is asked for. -/
lemma mono {l rank rank' e ts} (h : Derives l (.operand rank e) ts) (le : rank' ≤ rank) :
    Derives l (.operand rank' e) ts := by
  cases h with
  | bare fits h => exact .bare (Nat.le_trans le fits) h
  | grouped opening h closing => exact .grouped opening h closing

/-- An expression without an operator outside may stand at every place. -/
lemma tight {l rank e ts} (h : Derives l (.expression e) ts) (he : e.rank = Precedence.call.rank)
    (le : rank ≤ Precedence.call.rank) : Derives l (.operand rank e) ts :=
  .bare (he ▸ le) h

/-- There is an operand of any rank. -/
lemma sample_operand {l rank} (le : rank ≤ Precedence.call.rank) :
    Derives l (.operand rank (.boolean true)) [Token.sample .trueWord] :=
  tight (.trueWord rfl) rfl le

/-- There is a block. -/
lemma sample_block {l} :
    Derives l (.block []) [Token.sample .leftBrace, Token.sample .rightBrace] :=
  .block rfl .noStatements rfl

/-- There are parameters. -/
lemma sample_parameters :
    DerivesParameters [] [Token.sample .leftParen, Token.sample .rightParen] :=
  .intro rfl .nil rfl

end Derives

/-- Whether what is read as a phrase has at least one token. -/
def Phrase.isProper : Phrase → Bool
  | elements _ | alternative _ | statements _ => false
  | _ => true

/-- A phrase that is proper has tokens. -/
lemma Derives.ne_nil {l ph ts} (h : Derives l ph ts) (proper : ph.isProper) : ts ≠ [] := by
  induction h with
  | bare _ _ ih => exact ih rfl
  | branch _ ih => exact ih rfl
  | noElements | lastElement | moreElements => cases proper
  | noAlternative | chained | otherwise => cases proper
  | noStatements | moreStatements => cases proper
  | _ => simp

/-- Elements without tokens are none. -/
lemma Derives.elements_eq_nil {l es ts} (h : Derives l (.elements es) ts) (e : ts = []) :
    es = [] := by
  cases h with
  | noElements => rfl
  | lastElement h => exact absurd e (h.ne_nil rfl)
  | moreElements => simp at e

end ScriptLang
