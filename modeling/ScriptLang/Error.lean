import ScriptLang.Value.Basic

/-!
# Errors of running scripts

Why a script stops early. A `Cause` holds what there is to know of an error of the script itself,
and its kind, its message and the word it is about are read off it. An error is located at the
innermost statement that was running. A `HostFault` comes from outside the language: arithmetic
without an answer, or a function of the host that fails in its own way.
-/

namespace ScriptLang

/-- The kinds of errors, by which a host tells them apart. -/
inductive ErrorKind where
  | name | type | arity | value | runtime
  deriving DecidableEq, Repr

/-- What messages call a kind of error. -/
def ErrorKind.label : ErrorKind → String
  | name => "PcliNameError"
  | type => "PcliTypeError"
  | arity => "PcliArityError"
  | value => "PcliValueError"
  | runtime => "PcliRuntimeError"

/-- The places where an expression has to yield a value. -/
inductive Role where
  | leftOperand (operator : Operator)
  | rightOperand (operator : Operator)
  | operand (operator : Operator)
  | element
  | assignment (name : String)
  | memberTarget (name : String)
  | indexed
  | index
  | callee
  | argument (number : Nat) (function : String)
  deriving DecidableEq, Repr

/-- What messages call a place. -/
def Role.text : Role → String
  | leftOperand operator => "left operand of `" ++ operator.symbol ++ "`"
  | rightOperand operator => "right operand of `" ++ operator.symbol ++ "`"
  | operand operator => "operand of `" ++ operator.symbol ++ "`"
  | element => "list element"
  | assignment name => "assignment to `" ++ name ++ "`"
  | memberTarget name => "target of `." ++ name ++ "`"
  | indexed => "indexed value"
  | index => "index"
  | callee => "callee"
  | argument number function => "argument " ++ toString number ++ " of `" ++ function ++ "`"

/-- Why a function of the host does not take its arguments. -/
inductive ArgumentProblem where
  | missing (parameter : String)
  | tooMany
  deriving DecidableEq, Repr

/-- What messages say of an argument problem. -/
def ArgumentProblem.text : ArgumentProblem → String
  | missing parameter => "missing a required argument: '" ++ parameter ++ "'"
  | tooMany => "too many positional arguments"

/-- What went wrong in a script. -/
inductive Cause where
  | undefinedName (name : String)
  | undeclaredName (name : String)
  | undefinedFunction (name : String)
  | unknownBuiltin (name : String)
  | unmarkedBuiltin (name : String)
  | noInitializer (name : String)
  | noValue (role : Role)
  | divisionByZero
  | moduloByZero
  | indexOutOfRange (index : Int) (container : TypeName) (length : Nat)
  | conditionNotBoolean (found : TypeName)
  | notIterable (name : Option String) (found : TypeName)
  | unsupportedBinary (left : TypeName) (operator : Operator) (right : TypeName)
  | unsupportedUnary (operator : Operator) (operand : TypeName)
  | invalidTarget (kind : String)
  | unknownMember (name : String) (found : TypeName)
  | notIndexable (found : TypeName)
  | indexNotWhole (found : TypeName)
  | notCallable (found : TypeName) (name : Option String)
  | wrongArity (name : String) (expected received : Nat)
  | builtinArity (name : String) (received : Nat) (problem : ArgumentProblem)
  | escapedSignal (signal : String)
  | unknownStatement (kind : String)
  | unknownExpression (kind : String)
  | depthExceededIn (name : String)
  | depthExceeded
  | raised (kind : ErrorKind) (message : String) (token : Option String)
  deriving DecidableEq, Repr

namespace Cause

/-- The kind of an error. -/
def kind : Cause → ErrorKind
  | undefinedName _ | undeclaredName _ | undefinedFunction _ | unknownBuiltin _
  | unmarkedBuiltin _ => .name
  | noInitializer _ | noValue _ | divisionByZero | moduloByZero | indexOutOfRange .. => .value
  | conditionNotBoolean _ | notIterable .. | unsupportedBinary .. | unsupportedUnary ..
  | invalidTarget _ | unknownMember .. | notIndexable _ | indexNotWhole _ | notCallable .. => .type
  | wrongArity .. | builtinArity .. => .arity
  | escapedSignal _ | unknownStatement _ | unknownExpression _ | depthExceededIn _
  | depthExceeded => .runtime
  | raised kind _ _ => kind

/-- The word of the script that an error is about. -/
def token? : Cause → Option String
  | undefinedName name | undeclaredName name | undefinedFunction name | unknownBuiltin name
  | unmarkedBuiltin name | noInitializer name | unknownMember name _ | wrongArity name _ _
  | builtinArity name _ _ | depthExceededIn name => some name
  | notIterable name _ | notCallable _ name => name
  | raised _ _ token => token
  | _ => none

/-- How a message names what cannot be called. -/
def calledName : Option String → String
  | some name => if name.isEmpty then "" else " `" ++ name ++ "`"
  | none => ""

/-- The message of an error. -/
def message : Cause → String
  | undefinedName name => "Undefined name `" ++ name ++ "`."
  | undeclaredName name =>
    "Cannot assign to undeclared name `" ++ name ++ "`; declare it with `let` first."
  | undefinedFunction name => "Undefined function `" ++ name ++ "`."
  | unknownBuiltin name => "Builtin `" ++ name ++ "` not found in library."
  | unmarkedBuiltin name =>
    "Builtin function `" ++ name ++ "` requires prefix `op_` by convention."
  | noInitializer name =>
    "Cannot bind `" ++ name ++ "` with `let`: initializer produced no value."
  | noValue role =>
    "Expected a value for " ++ role.text ++ ", but the expression produced none."
  | divisionByZero => "Division by zero."
  | moduloByZero => "Modulo by zero."
  | indexOutOfRange index container length =>
    "Index " ++ toString index ++ " out of range for " ++ container.text ++ " of length " ++
      toString length ++ "."
  | conditionNotBoolean found => "Condition of `if` must be a boolean, got " ++ found.text ++ "."
  | notIterable name found =>
    "Loop over `" ++ name.getD "None" ++ "` requires a list, got " ++ found.text ++ "."
  | unsupportedBinary left operator right =>
    "Unsupported operation: " ++ left.text ++ " " ++ operator.symbol ++ " " ++ right.text ++ "."
  | unsupportedUnary operator operand =>
    "Unsupported operation: " ++ operator.symbol ++ operand.text ++ "."
  | invalidTarget kind =>
    "Invalid assignment target `" ++ kind ++ "`; only names can be assigned."
  | unknownMember name found => "Unknown member `" ++ name ++ "` on " ++ found.text ++ "."
  | notIndexable found => "Cannot index into " ++ found.text ++ "."
  | indexNotWhole found => "List index must be a whole number, got " ++ found.text ++ "."
  | notCallable found name =>
    "Cannot call " ++ found.text ++ calledName name ++ "; only functions are callable."
  | wrongArity name expected received =>
    "Function `" ++ name ++ "` takes " ++ toString expected ++ " argument(s) but " ++
      toString received ++ " were given."
  | builtinArity name received problem =>
    "Builtin `" ++ name ++ "` cannot be called with " ++ toString received ++
      " argument(s): " ++ problem.text ++ "."
  | escapedSignal signal => "Control-flow signal `" ++ signal ++ "` escaped the program."
  | unknownStatement kind => "Unknown statement type `" ++ kind ++ "`."
  | unknownExpression kind => "Unknown expression type `" ++ kind ++ "`."
  | depthExceededIn name => "Maximum recursion depth exceeded in `" ++ name ++ "`."
  | depthExceeded =>
    "Maximum recursion depth exceeded; expression or call nesting is too deep."
  | raised _ message _ => message

end Cause

/-- An error of a script, with the statement it belongs to. -/
structure ScriptError where
  cause : Cause
  line : Option Int
  statement : Option Statement

namespace ScriptError

/-- An error that belongs to no statement yet. -/
def ofCause (cause : Cause) : ScriptError := ⟨cause, none, none⟩

/-- Gives an error without a line the statement that was running. -/
def locate (e : ScriptError) (statement : Statement) : ScriptError :=
  match e.line with
  | some _ => e
  | none => { e with line := statement.line, statement := some statement }

end ScriptError

/-- A fault from outside the language. -/
inductive HostFault where
  | mathDomain
  | embeddedNull
  | stackExhausted
  | missingKey (key : String)
  | missingName (kind : String)
  deriving DecidableEq, Repr

namespace HostFault

/-- What messages call a kind of fault. -/
def label : HostFault → String
  | mathDomain | embeddedNull => "ValueError"
  | stackExhausted => "RecursionError"
  | missingKey _ => "KeyError"
  | missingName _ => "AttributeError"

/-- The message of a fault. -/
def message : HostFault → String
  | mathDomain => "math domain error"
  | embeddedNull => "embedded null byte"
  | stackExhausted => "maximum recursion depth exceeded"
  | missingKey key => "'" ++ key ++ "'"
  | missingName kind => "'" ++ kind ++ "' object has no attribute 'name'"

end HostFault

/-- Why running a script ends early. -/
inductive Failure where
  | error (e : ScriptError)
  | fault (f : HostFault)

end ScriptLang
