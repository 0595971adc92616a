import ScriptLang.Environment
import ScriptLang.Library.Basic

/-!
# The state of a run

What a run changes: the environment, the number of statements it has run, the statistics if someone
keeps them, and the record of what happened. The record keeps traces apart from what the functions
of the host do, and lists the newest event first, as the list of host calls does.
-/

namespace ScriptLang

/-- Counters by name. A counter appears when it is first counted. -/
abbrev Statistics := Bindings Int

/-- Adds one to a counter. -/
def Statistics.count (s : Statistics) (name : String) : Statistics :=
  Bindings.set s name ((Bindings.get? s name).getD 0 + 1)

/-- What happened in a run, in the eyes of an observer. -/
inductive Event where
  | effect (effect : Effect)
  | stepTrace (number : Nat) (text : String)
  | callTrace (text : String)
  deriving DecidableEq, Repr

/-- The environment of a script. -/
abbrev Scope := Environment Value FunctionValue

/-- The state of a run. -/
structure Machine where
  environment : Scope
  steps : Nat
  statistics : Option Statistics
  history : List Event
  hostCalls : List HostCall

/-- The state in which a script starts. -/
def Machine.initial : Machine := ⟨.root, 0, none, [], []⟩

instance : Inhabited Machine := ⟨.initial⟩

/-- How a statement ends: by going on to the next, or by a return or a jump on its way out. -/
inductive Signal where
  | normal
  | returned (value : Option Value)
  | broken
  | continued

/-- What messages call a signal. -/
def Signal.label : Signal → String
  | normal => "Normal"
  | returned _ => "Returned"
  | broken => "Broken"
  | continued => "Continued"

/-- Why a run stops: a failure, evaluation that nests too deeply, or a loop without bound that took
all the rounds it was given. -/
inductive Interruption where
  | failure (failure : Failure)
  | tooDeep
  | unfinished

/-- A run, or a part of one. -/
abbrev Run := EStateM Interruption Machine

namespace Run

/-- Stops with an error of the script. -/
def fail {α : Type} (cause : Cause) : Run α := throw (.failure (.error (.ofCause cause)))

/-- Goes on with the value of a computation, or stops with its failure. -/
def ofExcept {α : Type} : Except Failure α → Run α
  | .ok value => return value
  | .error failure => throw (.failure failure)

/-- Changes the environment. -/
def modifyScope (f : Scope → Scope) : Run Unit :=
  modify fun m => { m with environment := f m.environment }

/-- Adds an event to the record. -/
def emit (event : Event) : Run Unit := modify fun m => { m with history := event :: m.history }

/-- Adds one to a counter, if statistics are kept. -/
def count (name : String) : Run Unit :=
  modify fun m => { m with statistics := m.statistics.map (·.count name) }

/-- Runs in a scope of its own, which is closed whatever happens. -/
def inScope {α : Type} (boundary : Bool) (act : Run α) : Run α := fun m =>
  match act { m with environment := m.environment.push boundary } with
  | .ok value m' => .ok value { m' with environment := m'.environment.pop }
  | .error stop m' => .error stop { m' with environment := m'.environment.pop }

/-- Locates the errors of a part of a run at a statement. -/
def locatedAt {α : Type} (statement : Statement) (act : Run α) : Run α := fun m =>
  match act m with
  | .error (.failure (.error e)) m' => .error (.failure (.error (e.locate statement))) m'
  | result => result

/-- Turns evaluation that nests too deeply into an error with the given cause. -/
def reportingDepth {α : Type} (cause : Cause) (act : Run α) : Run α := fun m =>
  match act m with
  | .error .tooDeep m' => .error (.failure (.error (.ofCause cause))) m'
  | result => result

end Run

end ScriptLang
