import ScriptLang.Evaluation.Machine
import ScriptLang.Evaluation.Trace
import ScriptLang.Number.Reader
import ScriptLang.Operation
import ScriptLang.Value.Printer

/-!
# Evaluation

Statements are run and expressions are evaluated by recursion on their shape, except that a call
runs the body of a function, which is no part of the call. So `evaluateWith` and `execute` are given
an evaluator for the expressions inside, and `evaluate` closes the circle with a limit on how deeply
evaluations may nest. A run that reaches the limit stops with an error of the innermost function
that was called. A loop without bound gets a number of rounds; all other loops end by themselves.
-/

namespace ScriptLang

/-- What a run is given: the library, how much of it is traced, and the number of rounds for a loop
without bound. At verbosity one calls are traced, at two also statements. -/
structure Settings where
  library : Library
  verbosity : Int
  rounds : Nat

/-- How expressions are evaluated. An expression may yield no value. -/
abbrev Evaluator := Expression → Run (Option Value)

namespace Evaluation

variable (settings : Settings) (evaluate : Evaluator)

/-- Evaluates an expression that has to yield a value. -/
def valueOf (role : Role) (expression : Expression) : Run Value := do
  match ← evaluate expression with
  | some value => return value
  | none => Run.fail (.noValue role)

/-- Evaluates the arguments of a call, counted from `number` on. -/
def argumentsOf (function : String) : Nat → List Expression → Run (List Value)
  | _, [] => return []
  | number, argument :: rest => do
    let value ← valueOf evaluate (.argument number function) argument
    return value :: (← argumentsOf function (number + 1) rest)

/-- Evaluates the elements of a list. -/
def elementsOf : List Expression → Run (List Value)
  | [] => return []
  | element :: rest => do
    let value ← valueOf evaluate .element element
    return value :: (← elementsOf rest)

/-- Traces a call. -/
def traceCall (name : String) (arguments : List Value) : Run Unit := do
  if 1 ≤ settings.verbosity then
    let depth := (← get).environment.depth
    Run.emit (.callTrace (Trace.callLine name (Value.echoes arguments) depth))

/-- Traces a statement that is about to run. -/
def traceStep (statement : Statement) : Run Unit := do
  if settings.verbosity = 2 then
    match statement.form.nameless? with
    | some target => throw (.failure (.fault (.missingName target.kindName)))
    | none =>
      let m ← get
      Run.emit (.stepTrace m.steps
        (Trace.stepLine m.steps statement m.environment.depth Trace.standardWidth))

/-- Counts a statement that is about to run. -/
def countStep : Run Unit := do
  modify fun m => { m with steps := m.steps + 1 }
  Run.count "steps"

/-- Runs a block for each value of a list, until it ends in a break or a return. -/
def forEach (body : Value → Run Signal) : List Value → Run Signal
  | [] => return .normal
  | value :: rest => do
    match ← body value with
    | .broken => return .normal
    | .returned result => return .returned result
    | _ => forEach body rest

/-- Runs a block until it ends in a break or a return, in at most a number of rounds. -/
def forever (body : Run Signal) : Nat → Run Signal
  | 0 => throw .unfinished
  | rounds + 1 => do
    match ← body with
    | .broken => return .normal
    | .returned result => return .returned result
    | _ => forever body rounds

/-- Evaluates the condition of a conditional. -/
def conditionOf (condition : Expression) : Run Bool := do
  match ← evaluate condition with
  | some (.boolean value) => return value
  | found => Run.fail (.conditionNotBoolean (.ofResult found))

/-- Evaluates what a loop goes over. -/
def iterableOf (name : Option String) (iterable : Expression) : Run (List Value) := do
  match ← evaluate iterable with
  | some (.list values) => return values
  | found => Run.fail (.notIterable name (.ofResult found))

mutual

/-- Runs the statements of a block up to the first that does not end normally. -/
def executeBlock : List Statement → Run Signal
  | [] => return .normal
  | statement :: rest => do
    match ← execute statement with
    | .normal => executeBlock rest
    | signal => return signal

/-- Runs a statement. -/
def execute : Statement → Run Signal
  | .mk line form => do
    countStep
    traceStep settings (.mk line form)
    Run.locatedAt (.mk line form) (executeForm form)

/-- Runs what a statement says. -/
def executeForm : Form → Run Signal
  | .declare name value => do
    match ← evaluate value with
    | some value =>
      Run.modifyScope (·.declare name value)
      return .normal
    | none => Run.fail (.noInitializer name)
  | .define name parameters body => do
    Run.modifyScope (·.define name ⟨name, parameters, body⟩)
    return .normal
  | .branch condition consequent alternative => do
    if ← conditionOf evaluate condition then executeBlock consequent
    else match alternative with
      | some block => executeBlock block
      | none => return .normal
  | .loop body name (some iterable) => do
    let values ← iterableOf evaluate name iterable
    Run.inScope false <| forEach (fun value => do
      if let some name := name then Run.modifyScope (·.declare name value)
      executeBlock body) values
  | .loop body _ none => Run.inScope false <| forever (executeBlock body) settings.rounds
  | .returns (some value) => do return .returned (← evaluate value)
  | .returns none => return .returned none
  | .breakLoop => return .broken
  | .continueLoop => return .continued
  | .evaluate expression => do
    discard <| evaluate expression
    return .normal
  | .unknown => Run.fail (.unknownStatement Form.unknown.kindName)

end

/-- Gives parameters their arguments in the current scope. -/
def bindAll (parameters : List String) (arguments : List Value) : Run Unit :=
  Run.modifyScope fun scope =>
    (parameters.zip arguments).foldl (fun scope (name, value) => scope.bind name value) scope

/-- Calls a function. Its body runs in a scope that sees no variables of the caller, and ends with a
value only through a return. -/
def callFunction (function : FunctionValue) (arguments : List Value) : Run (Option Value) := do
  if arguments.length ≠ function.arity then
    Run.fail (.wrongArity function.name function.arity arguments.length)
  else
    Run.count "calls"
    traceCall settings function.name arguments
    let signal ← Run.reportingDepth (.depthExceededIn function.name) <| Run.inScope true do
      bindAll function.parameters arguments
      executeBlock settings evaluate function.body
    match signal with
    | .returned value => return value
    | _ => return none

/-- Calls a function of the host. It yields no value. -/
def callBuiltin (builtin : Builtin) (arguments : List Value) : Run Unit := do
  let m ← get
  let response := builtin.respond m.hostCalls arguments
  set { m with
    hostCalls := ⟨builtin.hostName, arguments⟩ :: m.hostCalls
    history := (response.effects.map Event.effect).reverse ++ m.history }
  match response.failure with
  | some failure => throw (.failure failure)
  | none => return

/-- The value that is called by a name which is no function of the host: a function, else a
variable. -/
def namedCallee (name : String) : Run Value := do
  let scope := (← get).environment
  match scope.function? name with
  | some function => return .function function
  | none =>
    match scope.lookup? name with
    | some value => return value
    | none => Run.fail (.undefinedFunction name)

/-- Calls a value, which has to be a function, with arguments that are still to be evaluated. -/
def callValue (name : Option String) (callee : Value) (arguments : List Expression) :
    Run (Option Value) := do
  match callee with
  | .function function =>
    callFunction settings evaluate function (← argumentsOf evaluate function.name 1 arguments)
  | _ => Run.fail (.notCallable callee.typeName name)

/-- Evaluates a call. A name stands for a function of the host first of all. -/
def call (callee : Expression) (arguments : List Expression) : Run (Option Value) := do
  match callee with
  | .identifier name =>
    match settings.library.builtin? name with
    | some builtin =>
      let values ← argumentsOf evaluate name 1 arguments
      match settings.library.checkArguments name values.length with
      | .error cause => Run.fail cause
      | .ok () =>
        traceCall settings name values
        callBuiltin builtin values
        return none
    | none => callValue settings evaluate (some name) (← namedCallee name) arguments
  | _ => callValue settings evaluate none (← valueOf evaluate .callee callee) arguments

/-- A member of a value: the length of a list or a string. -/
def memberOf (target : Value) (name : String) : Run Value :=
  match name == "len", target with
  | true, .list elements => return .number (Number.ofDecimal ⟨elements.length, 0⟩)
  | true, .string text => return .number (Number.ofDecimal ⟨text.length, 0⟩)
  | _, _ => Run.fail (.unknownMember name target.typeName)

/-- The whole number that an index is. -/
def placeOf (index : Value) : Run Int :=
  match index with
  | .number x =>
    match Number.whole? x with
    | some place => return place
    | none => Run.fail (.indexNotWhole index.typeName)
  | _ => Run.fail (.indexNotWhole index.typeName)

/-- The element of a list at a place, counted from zero. -/
def elementAt {α : Type} (container : TypeName) (elements : List α) (place : Int) : Run α :=
  match if 0 ≤ place then elements[place.toNat]? else none with
  | some element => return element
  | none => Run.fail (.indexOutOfRange place container elements.length)

/-- The element of a list or the character of a string at an index. -/
def indexOf (container index : Value) : Run Value := do
  match container with
  | .list elements => elementAt container.typeName elements (← placeOf index)
  | .string text =>
    return .string (← elementAt container.typeName text.toList (← placeOf index)).toString
  | _ => Run.fail (.notIndexable container.typeName)

/-- Gives a visible variable a new value. -/
def assign (name : String) (value : Value) : Run Unit := do
  match (← get).environment.assign? name value with
  | some scope => Run.modifyScope fun _ => scope
  | none => Run.fail (.undeclaredName name)

/-- Evaluates an expression, given an evaluator for the expressions inside. -/
def evaluateWith : Evaluator
  | .number value => return some (.number value)
  | .string value => return some (.string value)
  | .boolean value => return some (.boolean value)
  | .identifier name => do
    match (← get).environment.lookup? name with
    | some value => return some value
    | none => Run.fail (.undefinedName name)
  | .binary left operator right => do
    let left ← valueOf evaluate (.leftOperand operator) left
    let right ← valueOf evaluate (.rightOperand operator) right
    return some (← Run.ofExcept (operator.applyBinary left right))
  | .unary operator operand => do
    let operand ← valueOf evaluate (.operand operator) operand
    return some (← Run.ofExcept (operator.applyUnary operand))
  | .list elements => do return some (.list (← elementsOf evaluate elements))
  | .assign (.identifier name) value => do
    assign name (← valueOf evaluate (.assignment name) value)
    return none
  | .assign target _ => Run.fail (.invalidTarget target.kindName)
  | .function parameters body => return some (.function ⟨"anonymous", parameters, body⟩)
  | .call callee arguments => call settings evaluate callee arguments
  | .member target name => do
    return some (← memberOf (← valueOf evaluate (.memberTarget name) target) name)
  | .index target place => do
    let container ← valueOf evaluate .indexed target
    return some (← indexOf container (← valueOf evaluate .index place))
  | .unknown => Run.fail (.unknownExpression Expression.unknown.kindName)

end Evaluation

/-- Evaluates an expression, with at most `limit` evaluations inside one another. -/
def evaluate (settings : Settings) : Nat → Evaluator
  | 0, _ => throw .tooDeep
  | limit + 1, expression => Evaluation.evaluateWith settings (evaluate settings limit) expression

/-- Runs a statement. -/
def execute (settings : Settings) (limit : Nat) (statement : Statement) : Run Signal :=
  Evaluation.execute settings (evaluate settings limit) statement

/-- Runs a program. A return on the top level gives its result. -/
def runProgram (settings : Settings) (limit : Nat) (program : Program) : Run (Option Value) := do
  let signal ← Run.reportingDepth .depthExceeded
    (Evaluation.executeBlock settings (evaluate settings limit) program)
  match signal with
  | .returned value => return value
  | .normal => return none
  | signal => Run.fail (.escapedSignal signal.label)

end ScriptLang
