import ScriptLang.Evaluation.Evaluate
import ScriptLang.Library.Standard
import ScriptLang.Program.Reader

/-!
# Engines

What a host embeds: a library that scripts can call into, and a session that keeps the names of the
top level between the scripts that are run interactively. Every other script starts afresh. A run
ends in a report, with the outcome and all that happened on the way, and in the engine for the next
run.

The room in which scripts are read is shared by all engines of a process. A process may start with
less of it than scripts need, and a run makes up for that.
-/

namespace ScriptLang

/-- How far a run may go: how deeply evaluations may nest, and how many rounds a loop without bound
may take. -/
structure Limits where
  depth : Nat
  rounds : Nat
  deriving DecidableEq, Repr

/-- Limits beyond what scripts of any use need. -/
def Limits.standard : Limits := ⟨10000, 1000000000000000000⟩

/-- The room for reading in a process that has run nothing. -/
def initialRoom : Nat := 1000

/-- The room for reading that a run makes, if there is less. -/
def fullRoom : Nat := 50000

/-- What a session keeps between two scripts. -/
structure Session where
  scope : Scope
  steps : Nat

/-- The session before its first script. -/
def Session.initial : Session := ⟨.root, 0⟩

/-- A library, a session if one was begun, and the calls made to the host so far, the newest
first. -/
structure Engine where
  library : Library
  session : Option Session
  hostCalls : List HostCall

/-- What a host chooses for a run. -/
structure Options where
  verbosity : Int
  statistics : Option Statistics
  interactive : Bool

/-- Why a script has no result. -/
inductive Problem where
  | malformed (e : SyntaxError)
  | failed (failure : Failure)
  | unfinished

/-- What a run leads to. The events and the calls to the host are those of this run, the oldest
first. -/
structure Report where
  outcome : Except Problem (Option Value)
  events : List Event
  hostCalls : List HostCall
  statistics : Option Statistics

/-- The text of an event on a channel. Traces are written to the output. -/
def Event.textOn (channel : Channel) : Event → String
  | effect (.write target text) => if target = channel then text else ""
  | effect (.launch _) => ""
  | stepTrace _ text | callTrace text => if channel = .output then text else ""

/-- The command that an event launches. -/
def Event.command? : Event → Option (List String)
  | effect (.launch command) => some command
  | _ => none

/-- All that events write to a channel. -/
def textOn (channel : Channel) (events : List Event) : String :=
  String.join (events.map (·.textOn channel))

/-- The commands that events launch. -/
def commandsIn (events : List Event) : List (List String) := events.filterMap (·.command?)

/-- The outcome of a run that was stopped. -/
def Problem.ofInterruption : Interruption → Problem
  | .failure failure => failed failure
  | .tooDeep => failed (.error (.ofCause .depthExceeded))
  | .unfinished => unfinished

namespace Engine

/-- An engine without a session. -/
def new (library : Library) : Engine := ⟨library, none, []⟩

/-- The session that a run works on. -/
def sessionFor (engine : Engine) (interactive : Bool) : Session :=
  if interactive then engine.session.getD .initial else .initial

/-- The state that a run starts in. -/
def machineFor (engine : Engine) (options : Options) : Machine where
  environment := (engine.sessionFor options.interactive).scope
  steps := (engine.sessionFor options.interactive).steps
  statistics := options.statistics
  history := []
  hostCalls := engine.hostCalls

/-- The engine after a run that ended in a state. -/
def after (engine : Engine) (options : Options) (m : Machine) : Engine where
  library := engine.library
  session := if options.interactive then some ⟨m.environment, m.steps⟩ else engine.session
  hostCalls := m.hostCalls

/-- Runs a program. -/
def execute (engine : Engine) (limits : Limits) (program : Program) (options : Options) :
    Report × Engine :=
  let settings : Settings := ⟨engine.library, options.verbosity, limits.rounds⟩
  let report (outcome : Except Problem (Option Value)) (m : Machine) : Report × Engine :=
    ({ outcome
       events := m.history.reverse
       hostCalls := (m.hostCalls.take (m.hostCalls.length - engine.hostCalls.length)).reverse
       statistics := m.statistics },
     engine.after options m)
  match runProgram settings limits.depth program (engine.machineFor options) with
  | .ok value m => report (.ok value) m
  | .error stop m => report (.error (.ofInterruption stop)) m

/-- Reads and runs a script, whatever room reading takes. One that is not well formed runs not at
all. -/
def run (engine : Engine) (limits : Limits) (source : String) (options : Options) :
    Report × Engine :=
  match parse source with
  | .ok program => engine.execute limits program options
  | .error e => (⟨.error (.malformed e), [], [], options.statistics⟩, engine)

/-- Reads and runs a script within some room for reading, and yields the room for the next. Room is
made by the first script that runs, so it comes too late for that one: if its text nests too deeply,
this is a fault. -/
def runWithin (engine : Engine) (limits : Limits) (room : Nat) (source : String)
    (options : Options) : Report × Engine × Nat :=
  let refuse (problem : Problem) : Report × Engine × Nat :=
    (⟨.error problem, [], [], options.statistics⟩, engine, room)
  match parseWithin room source with
  | none => refuse (.failed (.fault .stackExhausted))
  | some (.error e) => refuse (.malformed e)
  | some (.ok program) =>
    let (report, engine) := engine.execute limits program options
    (report, engine, max room fullRoom)

/-- Ends the session. -/
def reset (engine : Engine) : Engine := { engine with session := none }

/-- Lets scripts call a function of the host by a name. -/
def registerBuiltin (engine : Engine) (name : String) (candidate : Candidate) :
    Except RegistrationError Unit × Engine :=
  match engine.library.addBuiltin name candidate with
  | .ok library => (.ok (), { engine with library })
  | .error e => (.error e, engine)

/-- Makes a name an alias of another. An alias of a name without a function is an error, and stays.
-/
def registerAlias (engine : Engine) (nickname name : String) :
    Except RegistrationError Unit × Engine :=
  let library := engine.library.addAlias nickname name
  (library.ensureConsistent, { engine with library })

end Engine

end ScriptLang
