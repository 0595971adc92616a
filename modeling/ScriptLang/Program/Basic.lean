/-!
# Programs

The trees that scripts are read into. An expression may hold statements, as the body of a function
literal, and a statement holds expressions and blocks, so the types are mutual. A statement is a
form together with the line it starts on, which only diagnostics look at. Trees built by a host may
be stranger than those that are read: any operator may stand anywhere, any expression may be the
target of an assignment, and a node may be of no known kind.
-/

namespace ScriptLang

/-- The operators, of one operand or two. -/
inductive Operator where
  | add | subtract | multiply | divide | modulo
  | equal | notEqual | less | greater | lessEqual | greaterEqual
  | and | or | not
  deriving DecidableEq, Repr

/-- An operator as it is written. -/
def Operator.symbol : Operator → String
  | add => "+"
  | subtract => "-"
  | multiply => "*"
  | divide => "/"
  | modulo => "%"
  | equal => "=="
  | notEqual => "!="
  | less => "<"
  | greater => ">"
  | lessEqual => "<="
  | greaterEqual => ">="
  | and => "&&"
  | or => "||"
  | not => "!"

mutual

/-- What may stand where a value is asked for. -/
inductive Expression where
  | number (value : Float)
  | string (value : String)
  | boolean (value : Bool)
  | identifier (name : String)
  | assign (target value : Expression)
  | binary (left : Expression) (operator : Operator) (right : Expression)
  | unary (operator : Operator) (operand : Expression)
  | call (callee : Expression) (arguments : List Expression)
  | list (elements : List Expression)
  | function (parameters : List String) (body : List Statement)
  | member (target : Expression) (name : String)
  | index (target place : Expression)
  | unknown

/-- A form and the line it starts on. -/
inductive Statement where
  | mk (line : Option Int) (form : Form)

/-- The forms of statements. A loop over a list has an iterable, and a name for its elements; a loop
without an iterable has no bound. -/
inductive Form where
  | declare (name : String) (value : Expression)
  | define (name : String) (parameters : List String) (body : List Statement)
  | branch (condition : Expression) (consequent : List Statement)
      (alternative : Option (List Statement))
  | loop (body : List Statement) (name : Option String) (iterable : Option Expression)
  | returns (value : Option Expression)
  | breakLoop
  | continueLoop
  | evaluate (expression : Expression)
  | unknown

end

instance : Inhabited Expression := ⟨.unknown⟩

instance : Inhabited Statement := ⟨.mk none .unknown⟩

/-- Statements to run one after the other. -/
abbrev Block := List Statement

/-- A whole script. -/
abbrev Program := List Statement

namespace Statement

/-- The line that a statement starts on. -/
def line : Statement → Option Int
  | mk line _ => line

/-- What a statement says. -/
def form : Statement → Form
  | mk _ form => form

/-- The line that a statement was made with. -/
@[simp] theorem line_mk (line : Option Int) (form : Form) : (mk line form).line = line := rfl

/-- The form that a statement was made with. -/
@[simp] theorem form_mk (line : Option Int) (form : Form) : (mk line form).form = form := rfl

end Statement

/-- What messages call a kind of expression. -/
def Expression.kindName : Expression → String
  | number _ => "Number"
  | string _ => "String"
  | boolean _ => "Boolean"
  | identifier _ => "Identifier"
  | assign .. => "Assign"
  | binary .. => "Infix"
  | unary .. => "Prefix"
  | call .. => "Call"
  | list _ => "List"
  | function .. => "FunctionLiteral"
  | member .. => "Get"
  | index .. => "Index"
  | unknown => "Expression"

/-- What messages call a kind of statement. -/
def Form.kindName : Form → String
  | declare .. => "Let"
  | define .. => "FunctionDeclaration"
  | branch .. => "If"
  | loop .. => "Loop"
  | returns _ => "Return"
  | breakLoop => "Break"
  | continueLoop => "Continue"
  | evaluate _ => "ExpressionStatement"
  | unknown => "Statement"

end ScriptLang
