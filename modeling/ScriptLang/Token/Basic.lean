/-!
# Tokens

The words of a script: keywords, literals, punctuation and operators, each with the text it was
written as and the place where it starts. A place counts lines and columns from one, and only a line
feed opens a new line.
-/

namespace ScriptLang

/-- A place in a script. -/
structure Position where
  line : Nat
  column : Nat
  deriving DecidableEq, Repr

namespace Position

/-- The place of the first character. -/
def start : Position := ⟨1, 1⟩

/-- The place after one character. -/
def next (p : Position) (c : Char) : Position :=
  if c = '\n' then ⟨p.line + 1, 1⟩ else ⟨p.line, p.column + 1⟩

/-- The place after a text. -/
def advance (p : Position) (text : List Char) : Position := text.foldl next p

end Position

namespace Token

/-- The kinds of tokens. -/
inductive Kind where
  | letWord | fnWord | ifWord | elifWord | elseWord | loopWord | returnWord | continueWord
  | breakWord | trueWord | falseWord
  | name | number | string
  | leftParen | rightParen | leftBrace | rightBrace | leftBracket | rightBracket
  | comma | colon | dot
  | plus | minus | star | slash | percent
  | equal | notEqual | lessEqual | greaterEqual | less | greater | assign
  | and | or | bang
  deriving DecidableEq, Repr

/-- What messages call a kind of token. -/
def Kind.label : Kind → String
  | letWord => "LET"
  | fnWord => "FN"
  | ifWord => "IF"
  | elifWord => "ELIF"
  | elseWord => "ELSE"
  | loopWord => "LOOP"
  | returnWord => "RETURN"
  | continueWord => "CONTINUE"
  | breakWord => "BREAK"
  | trueWord => "TRUE"
  | falseWord => "FALSE"
  | name => "NAME"
  | number => "NUMBER"
  | string => "STRING"
  | leftParen => "LPAREN"
  | rightParen => "RPAREN"
  | leftBrace => "LBRACE"
  | rightBrace => "RBRACE"
  | leftBracket => "LSQB"
  | rightBracket => "RSQB"
  | comma => "COMMA"
  | colon => "COLON"
  | dot => "DOT"
  | plus => "PLUS"
  | minus => "MINUS"
  | star => "STAR"
  | slash => "SLASH"
  | percent => "PERCENT"
  | equal => "EQUAL"
  | notEqual => "NOT_EQUAL"
  | lessEqual => "LESS_EQUAL"
  | greaterEqual => "GREATER_EQUAL"
  | less => "LESS"
  | greater => "GREATER"
  | assign => "ASSIGN"
  | and => "AND"
  | or => "OR"
  | bang => "BANG"

end Token

/-- A token as it stands in a script. -/
structure Token where
  kind : Token.Kind
  text : String
  position : Position
  deriving DecidableEq, Repr

end ScriptLang
