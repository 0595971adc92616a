import Mathlib.Tactic.Common
import ScriptLang.Evaluation.Evaluate

/-!
# Observed runs

Some facts are about what goes on inside a run and leaves no trace in its end: that a function is
called with as many arguments as it takes, or that its body ends in a jump. An `Observer` is told of
the first and asked for the result of the call in the second case. Observed runs differ from others
in nothing but that, and a silent observer makes no difference at all
(`runProgramObserved_silent`).
-/

namespace ScriptLang

/-- Who watches the calls of functions: what is done when a call begins, and what becomes of a call
whose body ends in a jump. -/
structure Observer where
  enter : FunctionValue → List Value → Run Unit
  stray : Signal → Run (Option Value)

/-- An observer who does nothing and has no value for a jump. -/
def Observer.silent : Observer := ⟨fun _ _ => pure (), fun _ => pure none⟩

namespace Evaluation

/-- How functions are called. -/
abbrev Caller := FunctionValue → List Value → Run (Option Value)

/-- Counts a statement that is about to run, and traces it. -/
def announceStep (settings : Settings) (s : Statement) : Run Unit := do
  countStep
  traceStep settings s

/-- Tells the observer of a call of a function, counts it and traces it. -/
def announceCall (observer : Observer) (settings : Settings) (function : FunctionValue)
    (arguments : List Value) : Run Unit := do
  observer.enter function arguments
  Run.count "calls"
  traceCall settings function.name arguments

/-- Traces a call of a function of the host, and calls it. -/
def performBuiltin (settings : Settings) (name : String) (builtin : Builtin)
    (arguments : List Value) : Run Unit := do
  traceCall settings name arguments
  callBuiltin builtin arguments

/-- Runs the body of a function. -/
def runBody (settings : Settings) (evaluate : Evaluator) (function : FunctionValue)
    (arguments : List Value) : Run Signal :=
  Run.reportingDepth (.depthExceededIn function.name) <| Run.inScope true do
    bindAll function.parameters arguments
    executeBlock settings evaluate function.body

/-- What a call comes to when the body has ended. -/
def finishCall (observer : Observer) : Signal → Run (Option Value)
  | .returned value => return value
  | .normal => return none
  | jump => observer.stray jump

/-- Calls a function in front of an observer. -/
def callObserved (observer : Observer) (settings : Settings) (evaluate : Evaluator) : Caller :=
  fun function arguments =>
    if arguments.length ≠ function.arity then
      Run.fail (.wrongArity function.name function.arity arguments.length)
    else do
      announceCall observer settings function arguments
      finishCall observer (← runBody settings evaluate function arguments)

/-- Calls a value, which has to be a function. -/
def callValueBy (evaluate : Evaluator) (caller : Caller) (name : Option String) (callee : Value)
    (arguments : List Expression) : Run (Option Value) := do
  match callee with
  | .function function => caller function (← argumentsOf evaluate function.name 1 arguments)
  | _ => Run.fail (.notCallable callee.typeName name)

/-- Evaluates a call, given how functions are called. -/
def callBy (settings : Settings) (evaluate : Evaluator) (caller : Caller) (callee : Expression)
    (arguments : List Expression) : Run (Option Value) := do
  match callee with
  | .identifier name =>
    match settings.library.builtin? name with
    | some builtin =>
      let values ← argumentsOf evaluate name 1 arguments
      match settings.library.checkArguments name values.length with
      | .error cause => Run.fail cause
      | .ok () =>
        performBuiltin settings name builtin values
        return none
    | none => callValueBy evaluate caller (some name) (← namedCallee name) arguments
  | _ => callValueBy evaluate caller none (← valueOf evaluate .callee callee) arguments

/-- Evaluates an expression, given how functions are called. -/
def evaluateBy (settings : Settings) (evaluate : Evaluator) (caller : Caller) : Evaluator
  | .call callee arguments => callBy settings evaluate caller callee arguments
  | e => evaluateWith settings evaluate e

end Evaluation

open Evaluation

/-- Evaluates an expression in front of an observer. -/
def evaluateObserved (observer : Observer) (settings : Settings) : Nat → Evaluator
  | 0, _ => throw .tooDeep
  | limit + 1, e =>
    evaluateBy settings (evaluateObserved observer settings limit)
      (callObserved observer settings (evaluateObserved observer settings limit)) e

/-- Runs a program in front of an observer. -/
def runProgramObserved (observer : Observer) (settings : Settings) (limit : Nat)
    (program : Program) : Run (Option Value) := do
  let signal ← Run.reportingDepth .depthExceeded
    (executeBlock settings (evaluateObserved observer settings limit) program)
  match signal with
  | .returned value => return value
  | .normal => return none
  | signal => Run.fail (.escapedSignal signal.label)

namespace Evaluation
variable {settings : Settings} {evaluate : Evaluator}

/-- A statement is announced and runs with its own place for errors. -/
lemma execute_mk (line : Option Int) (form : Form) :
    execute settings evaluate (.mk line form) = (do
      announceStep settings (.mk line form)
      Run.locatedAt (.mk line form) (executeForm settings evaluate form)) := by
  simp only [execute, announceStep, bind_assoc]

/-- In front of a silent observer functions are called as they always are. -/
lemma callObserved_silent :
    callObserved .silent settings evaluate = callFunction settings evaluate := by
  funext function arguments
  unfold callObserved callFunction
  split
  · rfl
  · simp only [announceCall, Observer.silent, pure_bind, bind_assoc]
    refine bind_congr fun _ => bind_congr fun _ => bind_congr fun signal => ?_
    cases signal <;> rfl

/-- Calls by the functions of a program are its calls. -/
lemma callBy_callFunction (callee : Expression) (arguments : List Expression) :
    callBy settings evaluate (callFunction settings evaluate) callee arguments =
      call settings evaluate callee arguments := by
  cases callee with
  | identifier name =>
    unfold callBy call
    dsimp only
    cases settings.library.builtin? name with
    | none => rfl
    | some builtin =>
      refine bind_congr fun values => ?_
      cases settings.library.checkArguments name values.length with
      | error cause => rfl
      | ok _ => exact bind_assoc ..
  | _ => rfl

/-- Evaluations by the functions of a program are its evaluations. -/
lemma evaluateBy_callFunction :
    evaluateBy settings evaluate (callFunction settings evaluate) =
      evaluateWith settings evaluate := by
  funext e
  cases e with
  | call callee arguments => exact callBy_callFunction callee arguments
  | _ => rfl

end Evaluation

/-- In front of a silent observer expressions are evaluated as they always are. -/
lemma evaluateObserved_silent (settings : Settings) (limit : Nat) :
    evaluateObserved .silent settings limit = evaluate settings limit := by
  induction limit with
  | zero => rfl
  | succ limit ih =>
    funext e
    unfold evaluateObserved evaluate
    rw [ih, callObserved_silent, evaluateBy_callFunction]

/-- In front of a silent observer programs run as they do in front of nobody. -/
lemma runProgramObserved_silent (settings : Settings) (limit : Nat) (program : Program) :
    runProgramObserved .silent settings limit program = runProgram settings limit program := by
  unfold runProgramObserved
  rw [evaluateObserved_silent]
  rfl

end ScriptLang
