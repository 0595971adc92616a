import ScriptLang.Program.Basic
import ScriptLang.Token.Basic

/-!
# Precedence

How tightly a token binds the expression before it, and which operator a token stands for. An
expression goes on as long as the next token binds more tightly than its surroundings.
-/

namespace ScriptLang

/-- The levels of binding, the weakest first. -/
inductive Precedence where
  | lowest | statement | assignment | logical | comparison | equality | sum | product | unary | call
  deriving DecidableEq, Repr

namespace Precedence

/-- The place of a level in the order. -/
def rank : Precedence → Nat
  | lowest => 0
  | statement => 1
  | assignment => 2
  | logical => 3
  | comparison => 4
  | equality => 5
  | sum => 6
  | product => 7
  | unary => 8
  | call => 9

/-- The level of a rank. Ranks beyond the ends belong to the level at that end. -/
def ofRank (rank : Int) : Precedence :=
  match rank.toNat with
  | 0 => lowest
  | 1 => statement
  | 2 => assignment
  | 3 => logical
  | 4 => comparison
  | 5 => equality
  | 6 => sum
  | 7 => product
  | 8 => unary
  | _ => call

/-- A level is found again by its rank. -/
theorem ofRank_rank (p : Precedence) : ofRank p.rank = p := by cases p <;> rfl

end Precedence

namespace Token.Kind

/-- How tightly a token binds the expression before it. -/
def precedence : Kind → Precedence
  | leftBrace => .statement
  | assign => .assignment
  | and | or => .logical
  | less | greater | lessEqual | greaterEqual => .comparison
  | equal | notEqual => .equality
  | plus | minus => .sum
  | star | slash | percent => .product
  | leftParen | dot | leftBracket => .call
  | _ => .lowest

/-- The operator of two operands that a token stands for. -/
def binaryOperator? : Kind → Option Operator
  | plus => some .add
  | minus => some .subtract
  | star => some .multiply
  | slash => some .divide
  | percent => some .modulo
  | equal => some .equal
  | notEqual => some .notEqual
  | less => some .less
  | greater => some .greater
  | lessEqual => some .lessEqual
  | greaterEqual => some .greaterEqual
  | and => some .and
  | or => some .or
  | _ => none

/-- Whether a token may start an expression. -/
def startsExpression : Kind → Bool
  | number | string | trueWord | falseWord | name | fnWord | minus | bang | leftBracket
  | leftParen => true
  | _ => false

end Token.Kind

end ScriptLang
