import ScriptLang.Proofs.Environment.Contents
import ScriptLang.Proofs.Evaluation.Simulation

/-!
# Runs that agree

The relation between two runs that is used throughout: started in states that are related they end
alike, with the same value or for the same reason, and in states that are related again (`Agree`). A
relation between states has two parts. One relates the environments and is kept by all that is done
to environments (`Coupled`); the other relates the rest, which only a few steps touch.
`Coupled.steps` leaves just these steps to be looked at.
-/

namespace ScriptLang
open Evaluation

/-- If a run stops with an error of the script, then with one whose cause is among these. -/
def Interruption.Within (causes : Cause → Prop) : Interruption → Prop
  | failure (.error e) => causes e.cause
  | _ => True

/-- All reasons for which programs that obey stop are among these, apart from evaluation that nests
too deeply and failures of functions of the host. -/
structure Conventions.StopsWithin (c : Conventions) (stops : Interruption → Prop) : Prop where
  fail {cause : Cause} : c.Admits cause → stops (.failure (.error (.ofCause cause)))
  locate {e : ScriptError} {inLoop : Bool} {s : Statement} : s.Obeys c inLoop →
    stops (.failure (.error e)) → stops (.failure (.error (e.locate s)))
  fault {left right : Expression} : c.expression (.binary left .modulo right) →
    stops (.failure (.fault .mathDomain))
  nameless {inLoop : Bool} {s : Statement} {target : Expression} : s.Obeys c inLoop →
    s.form.nameless? = some target → stops (.failure (.fault (.missingName target.kindName)))
  unfinished {inLoop : Bool} {line : Option Int} {body : List Statement} {name : Option String} :
    c.statement inLoop (.mk line (.loop body name none)) → stops .unfinished

/-- A place changes no cause. -/
@[simp] lemma ScriptError.cause_locate (e : ScriptError) (s : Statement) :
    (e.locate s).cause = e.cause := by
  unfold locate
  split <;> rfl

/-- Programs that obey stop with errors of the causes that are admitted. -/
lemma Conventions.stopsWithin_causes {c : Conventions} {causes : Cause → Prop}
    (admitted : ∀ cause, c.Admits cause → causes cause) :
    c.StopsWithin (Interruption.Within causes) where
  fail h := admitted _ h
  locate {e _ s} _ within := (congrArg causes (e.cause_locate s)).mpr within
  fault _ := trivial
  nameless _ _ := trivial
  unfinished _ := trivial

/-- Two runs end with the same value, which has a property, or for the same reason, and in states
that are related. -/
inductive EndAlike {α : Type} (R : Machine → Machine → Prop) (stops : Interruption → Prop)
    (P : α → Prop) : (r r' : EStateM.Result Interruption Machine α) → Prop where
  | ok {a : α} {m m' : Machine} : P a → R m m' → EndAlike R stops P (.ok a m) (.ok a m')
  | error {stop : Interruption} {m m' : Machine} :
    stops stop → R m m' → EndAlike R stops P (.error stop m) (.error stop m')

/-- States whose environments are related, and so is the rest. -/
structure Paired (E : Nat → Scope → Scope → Prop) (R : Machine → Machine → Prop) (d : Nat)
    (m m' : Machine) : Prop where
  environments : E d m.environment m'.environment
  rest : R m m'

/-- Started in states that are related, two runs end alike. -/
def Agree (E : Nat → Scope → Scope → Prop) (R : Machine → Machine → Prop)
    (stops : Interruption → Prop) {α : Type} (d : Nat) (P : α → Prop) (p p' : Run α) : Prop :=
  ∀ m m', Paired E R d m m' → EndAlike (Paired E R d) stops P (p m) (p' m')

/-- A relation between states that does not look at environments. -/
def IgnoresScope (R : Machine → Machine → Prop) : Prop :=
  ∀ ⦃m m'⦄ (scope scope' : Scope), R m m' →
    R { m with environment := scope } { m' with environment := scope' }

namespace Agree
variable {E : Nat → Scope → Scope → Prop} {R : Machine → Machine → Prop}
  {stops : Interruption → Prop} {α β : Type} {d : Nat} {P : α → Prop} {Q : β → Prop} {p p' : Run α}

/-- Runs that do nothing agree. -/
lemma pure {a : α} (h : P a) : Agree E R stops d P (pure a) (pure a) := fun _ _ paired =>
  .ok h paired

/-- Runs that stop for the same reason agree. -/
lemma throw {stop : Interruption} (h : stops stop) :
    Agree E R stops d P (throw stop) (throw stop) := fun _ _ paired => .error h paired

/-- Runs that fail for the same cause agree. -/
lemma fail {cause : Cause} (h : stops (.failure (.error (.ofCause cause)))) :
    Agree E R stops d P (Run.fail cause) (Run.fail cause) := throw h

/-- Runs agree if their first parts do, and what follows on any value. -/
lemma bind {f f' : α → Run β} (h : Agree E R stops d P p p')
    (hf : ∀ a, P a → Agree E R stops d Q (f a) (f' a)) :
    Agree E R stops d Q (p >>= f) (p' >>= f') := by
  intro m m' paired
  have first := h m m' paired
  change EndAlike _ _ _ (EStateM.bind p f m) (EStateM.bind p' f' m')
  unfold EStateM.bind
  generalize p m = r, p' m' = r' at first ⊢
  cases first with
  | ok ha paired => exact hf _ ha _ _ paired
  | error stop paired => exact .error stop paired

/-- Runs that begin by looking at the state. -/
lemma get {f f' : Machine → Run α}
    (h : ∀ m m', Paired E R d m m' → EndAlike (Paired E R d) stops P (f m m) (f' m' m')) :
    Agree E R stops d P (get >>= f) (get >>= f') := h

/-- Changes of the state agree if they keep states related. -/
lemma modify {f f' : Machine → Machine}
    (h : ∀ m m', Paired E R d m m' → Paired E R d (f m) (f' m')) :
    Agree E R stops d (fun _ => True) (modify f) (modify f') := fun m m' paired =>
  .ok trivial (h m m' paired)

/-- Changes of the environment agree if they keep environments related. -/
lemma modifyScope {f f' : Scope → Scope} (ignores : IgnoresScope R)
    (h : ∀ env env', E d env env' → E d (f env) (f' env')) :
    Agree E R stops d (fun _ => True) (Run.modifyScope f) (Run.modifyScope f') :=
  modify fun _ _ paired => ⟨h _ _ paired.environments, ignores _ _ paired.rest⟩

/-- Errors are located alike. -/
lemma locatedAt {s : Statement}
    (located : ∀ e, stops (.failure (.error e)) → stops (.failure (.error (e.locate s))))
    (h : Agree E R stops d P p p') :
    Agree E R stops d P (Run.locatedAt s p) (Run.locatedAt s p') := by
  intro m m' paired
  have first := h m m' paired
  unfold Run.locatedAt
  generalize p m = r, p' m' = r' at first ⊢
  cases first with
  | ok ha paired => exact .ok ha paired
  | @error stop _ _ within paired =>
    match stop with
    | .failure (.error e) => exact .error (located e within) paired
    | .failure (.fault _) | .tooDeep | .unfinished => exact .error within paired

/-- Nesting too deeply is reported alike. -/
lemma reportingDepth {cause : Cause} (ok : stops (.failure (.error (.ofCause cause))))
    (h : Agree E R stops d P p p') :
    Agree E R stops d P (Run.reportingDepth cause p) (Run.reportingDepth cause p') := by
  intro m m' paired
  have first := h m m' paired
  unfold Run.reportingDepth
  generalize p m = r, p' m' = r' at first ⊢
  cases first with
  | ok ha paired => exact .ok ha paired
  | @error stop _ _ within paired =>
    match stop with
    | .tooDeep => exact .error ok paired
    | .failure _ | .unfinished => exact .error within paired

/-- Runs in scopes of their own, which relate the environments in a way of their own. -/
lemma inScope {E' : Nat → Scope → Scope → Prop} {d' : Nat} {boundary : Bool}
    (ignores : IgnoresScope R)
    (push : ∀ env env', E d env env' → E' d' (env.push boundary) (env'.push boundary))
    (pop : ∀ env env', E' d' env env' → E d env.pop env'.pop)
    (h : Agree E' R stops d' P p p') :
    Agree E R stops d P (Run.inScope boundary p) (Run.inScope boundary p') := by
  intro m m' paired
  have pushed : Paired E' R d' { m with environment := m.environment.push boundary }
      { m' with environment := m'.environment.push boundary } :=
    ⟨push _ _ paired.environments, ignores _ _ paired.rest⟩
  have popped {m m' : Machine} (paired : Paired E' R d' m m') :
      Paired E R d { m with environment := m.environment.pop }
        { m' with environment := m'.environment.pop } :=
    ⟨pop _ _ paired.environments, ignores _ _ paired.rest⟩
  have inner := h _ _ pushed
  unfold Run.inScope
  generalize p _ = r, p' _ = r' at inner ⊢
  cases inner with
  | ok ha paired => exact .ok ha (popped paired)
  | error stop paired => exact .error stop (popped paired)

end Agree

/-- A relation between environments, counting the scopes that were opened, that tells them apart by
nothing a script can do, and is kept by all that a script does to them. What they hold obeys. -/
structure Coupled (c : Conventions) (E : Nat → Scope → Scope → Prop) : Prop where
  depth {d : Nat} {env env' : Scope} : E d env env' → env'.depth = env.depth
  lookup? {d : Nat} {env env' : Scope} (name : String) : E d env env' →
    env'.lookup? name = env.lookup? name ∧ ∀ v ∈ env.lookup? name, v.Obeys c
  function? {d : Nat} {env env' : Scope} (name : String) : E d env env' →
    env'.function? name = env.function? name ∧ ∀ f ∈ env.function? name, f.Obeys c
  push {d : Nat} {env env' : Scope} (boundary : Bool) : E d env env' →
    E (d + 1) (env.push boundary) (env'.push boundary)
  pop {d : Nat} {env env' : Scope} : E (d + 1) env env' → E d env.pop env'.pop
  bind {d : Nat} {env env' : Scope} (name : String) {v : Value} : E d env env' → v.Obeys c →
    E d (env.bind name v) (env'.bind name v)
  assign? {d : Nat} {env env' : Scope} (name : String) {v : Value} : E d env env' → v.Obeys c →
    Option.Rel (E d) (env.assign? name v) (env'.assign? name v)
  define {d : Nat} {env env' : Scope} (name : String) {f : FunctionValue} : E d env env' →
    f.Obeys c → E d (env.define name f) (env'.define name f)

namespace Coupled
variable {c : Conventions} {E : Nat → Scope → Scope → Prop} (C : Coupled c E)
include C

/-- Declarations keep environments related. -/
lemma declare {d : Nat} {env env' : Scope} (name : String) {v : Value} (h : E d env env')
    (hv : v.Obeys c) : E d (env.declare name v) (env'.declare name v) := by
  have assigned := C.assign? name h hv
  unfold Environment.declare
  generalize env.assign? name v = r, env'.assign? name v = r' at assigned ⊢
  cases assigned with
  | some h => exact h
  | none => exact C.bind name h hv

variable {R : Machine → Machine → Prop} (ignores : IgnoresScope R) {stops : Interruption → Prop}

/-- Variables are read alike. -/
lemma readVariable (ok : ∀ name, stops (.failure (.error (.ofCause (.undefinedName name)))))
    {d : Nat} (name : String) :
    Agree E R stops d (Obeying c) (readVariable name) (readVariable name) := by
  refine Agree.get fun m m' paired => ?_
  obtain ⟨same, obeys⟩ := C.lookup? name paired.environments
  rw [same]
  cases found : m.environment.lookup? name with
  | some v => exact .ok (obeying_some (obeys v found)) paired
  | none => exact .error (ok name) paired

/-- Functions are found alike by their names. -/
lemma namedCallee (ok : ∀ name, stops (.failure (.error (.ofCause (.undefinedFunction name)))))
    {d : Nat} (name : String) :
    Agree E R stops d (Value.Obeys c) (namedCallee name) (namedCallee name) := by
  refine Agree.get fun m m' paired => ?_
  obtain ⟨same, obeys⟩ := C.function? name paired.environments
  rw [same]
  cases found : m.environment.function? name with
  | some f => exact .ok (.function (obeys f found)) paired
  | none =>
    obtain ⟨same, obeys⟩ := C.lookup? name paired.environments
    dsimp only
    rw [same]
    cases found : m.environment.lookup? name with
    | some v => exact .ok (obeys v found) paired
    | none => exact .error (ok name) paired

include ignores

/-- Assignments agree. -/
lemma assign (ok : ∀ name, stops (.failure (.error (.ofCause (.undeclaredName name))))) {d : Nat}
    (name : String) {v : Value} (hv : v.Obeys c) :
    Agree E R stops d (fun _ => True) (Evaluation.assign name v) (Evaluation.assign name v) := by
  refine Agree.get fun m m' paired => ?_
  have assigned := C.assign? name paired.environments hv
  generalize m.environment.assign? name v = r, m'.environment.assign? name v = r' at assigned ⊢
  cases assigned with
  | some h => exact .ok trivial ⟨h, ignores _ _ paired.rest⟩
  | none => exact .error (ok name) paired

/-- Parameters are bound alike. -/
lemma bindAll {d : Nat} (parameters : List String) {arguments : List Value}
    (obey : ∀ v ∈ arguments, v.Obeys c) :
    Agree E R stops d (fun _ => True) (Evaluation.bindAll parameters arguments)
      (Evaluation.bindAll parameters arguments) := by
  refine Agree.modifyScope ignores fun env env' related => ?_
  have obey : ∀ entry ∈ parameters.zip arguments, entry.2.Obeys c := fun _ mem =>
    obey _ (List.of_mem_zip mem).2
  generalize parameters.zip arguments = entries at obey ⊢
  induction entries generalizing env env' with
  | nil => exact related
  | cons entry rest ih =>
    obtain ⟨first, others⟩ := List.forall_mem_cons.1 obey
    exact ih _ _ (C.bind entry.1 related first) others

/-- Runs agree if they do in the steps that touch more than the environment. -/
lemma steps {settings settings' : Settings} (library : settings'.library = settings.library)
    (rounds : ∀ {inLoop line body name}, c.statement inLoop (.mk line (.loop body name none)) →
      settings'.rounds = settings.rounds)
    (within : c.StopsWithin stops)
    (announceStep : ∀ {d : Nat} {inLoop : Bool} {s : Statement}, s.Obeys c inLoop →
      Agree E R stops d (fun _ => True) (announceStep settings s) (announceStep settings' s))
    (performBuiltin : ∀ {d : Nat} {name : String} {builtin : Builtin} {arguments : List Value},
      c.CallsByName name → settings.library.builtin? name = some builtin →
      Agree E R stops d (fun _ => True) (performBuiltin settings name builtin arguments)
        (performBuiltin settings' name builtin arguments)) :
    Steps c settings settings' (Agree E R stops) where
  library := library
  rounds := rounds
  pure := .pure
  bind := .bind
  fail h := .fail (within.fail h)
  fault h := .throw (within.fault h)
  unfinished h := .throw (within.unfinished h)
  locatedAt obeys := .locatedAt fun _ => within.locate obeys
  inScope boundary := .inScope ignores (fun _ _ => C.push boundary) fun _ _ => C.pop
  announceStep := announceStep
  performBuiltin := performBuiltin
  readVariable := C.readVariable (fun _ => within.fail trivial) _
  namedCallee := C.namedCallee (fun _ => within.fail trivial) _
  declare hv := .modifyScope ignores fun _ _ h => C.declare _ h hv
  define hf := .modifyScope ignores fun _ _ h => C.define _ h hf
  bindAll := C.bindAll ignores _
  assign := C.assign ignores (fun _ => within.fail trivial) _

omit C ignores in
/-- Observed runs agree if unobserved ones do, and observers do. -/
lemma simulation {o o' : Observer} {settings settings' : Settings}
    (steps : Steps c settings settings' (Agree E R stops)) (within : c.StopsWithin stops)
    (tooDeep : stops .tooDeep)
    (announceCall : ∀ {d : Nat} {function : FunctionValue} {arguments : List Value},
      Agree E R stops d (fun _ => True) (announceCall o settings function arguments)
        (announceCall o' settings' function arguments))
    (stray : ∀ {d : Nat} {jump : Signal}, jump = .broken ∨ jump = .continued →
      jump.Obeys c false → Agree E R stops d (Obeying c) (o.stray jump) (o'.stray jump)) :
    Simulation c o o' settings settings' (Agree E R stops) where
  toSteps := steps
  tooDeep := .throw tooDeep
  reportingDepth h := .reportingDepth (within.fail h)
  announceCall := announceCall
  stray := stray

end Coupled

/-- Environments that are the same and in which all obeys. -/
structure SameObeying (c : Conventions) (_ : Nat) (env env' : Scope) : Prop where
  eq : env' = env
  holds : env.Holds (Value.Obeys c) (FunctionValue.Obeys c)

/-- Nothing tells an environment from itself. -/
lemma SameObeying.coupled (c : Conventions) : Coupled c (SameObeying c) where
  depth := fun ⟨eq, _⟩ => congrArg Environment.depth eq
  lookup? name := fun ⟨eq, h⟩ => ⟨congrArg (·.lookup? name) eq, fun _ found => h.lookup? found⟩
  function? name := fun ⟨eq, h⟩ =>
    ⟨congrArg (·.function? name) eq, fun _ found => h.function? found⟩
  push boundary := fun ⟨eq, h⟩ => ⟨congrArg (·.push boundary) eq, h.push boundary⟩
  pop := fun ⟨eq, h⟩ => ⟨congrArg Environment.pop eq, h.pop⟩
  bind name v := fun ⟨eq, h⟩ hv => ⟨congrArg (·.bind name v) eq, h.bind name hv⟩
  define name f := fun ⟨eq, h⟩ hf => ⟨congrArg (·.define name f) eq, h.define name hf⟩
  assign? name v := by
    rintro ⟨rfl, h⟩ hv
    cases assigned : Environment.assign? _ name v with
    | none => exact .none
    | some env => exact .some ⟨rfl, h.assign? hv assigned⟩

/-- The effects of a function of the host as they are recorded, the newest first. -/
def Response.record (response : Response) : List Event :=
  (response.effects.map Event.effect).reverse

/-- The state after a function of the host was called. -/
def Machine.answered (m : Machine) (builtin : Builtin) (arguments : List Value) : Machine :=
  { m with
    hostCalls := ⟨builtin.hostName, arguments⟩ :: m.hostCalls
    history := (builtin.respond m.hostCalls arguments).record ++ m.history }

/-- A call of the host changes the state by the answer, and fails if that does. -/
lemma Evaluation.callBuiltin_apply (builtin : Builtin) (arguments : List Value) (m : Machine) :
    callBuiltin builtin arguments m =
      match (builtin.respond m.hostCalls arguments).failure with
      | some failure => .error (.failure failure) (m.answered builtin arguments)
      | none => .ok () (m.answered builtin arguments) := by
  change (match (builtin.respond m.hostCalls arguments).failure with
    | some failure => throw (.failure failure)
    | none => pure () : Run Unit) (m.answered builtin arguments) = _
  cases (builtin.respond m.hostCalls arguments).failure <;> rfl

/-- A function of a host stops runs for these reasons only, if it fails. -/
def Builtin.StopsWithin (stops : Interruption → Prop) (builtin : Builtin) : Prop :=
  ∀ calls arguments, ∀ failure ∈ (builtin.respond calls arguments).failure, stops (.failure failure)

/-- The functions of a library stop runs for these reasons only, if they fail. -/
def Library.StopsWithin (stops : Interruption → Prop) (library : Library) : Prop :=
  ∀ ⦃name : String⦄ ⦃builtin : Builtin⦄, library.builtins.get? name = some builtin →
    builtin.StopsWithin stops

/-- A function of a host fails with errors of these causes only, if it fails. -/
def Builtin.FailsWithin (causes : Cause → Prop) (builtin : Builtin) : Prop :=
  ∀ calls arguments, ∀ failure ∈ (builtin.respond calls arguments).failure,
    (Interruption.failure failure).Within causes

/-- The functions of a library fail with errors of these causes only, if they fail. -/
def Library.FailsWithin (causes : Cause → Prop) (library : Library) : Prop :=
  ∀ ⦃name : String⦄ ⦃builtin : Builtin⦄, library.builtins.get? name = some builtin →
    builtin.FailsWithin causes

/-- A relation between states that is kept by all that a run counts and traces, and tells apart
nothing that a run looks at there. -/
structure TraceAlike (R : Machine → Machine → Prop) : Prop where
  ignoresScope : IgnoresScope R
  steps {m m' : Machine} : R m m' → m'.steps = m.steps
  step {m m' : Machine} : R m m' →
    R { m with steps := m.steps + 1 } { m' with steps := m'.steps + 1 }
  count {m m' : Machine} (name : String) : R m m' →
    R { m with statistics := m.statistics.map (·.count name) }
      { m' with statistics := m'.statistics.map (·.count name) }
  emit {m m' : Machine} (event : Event) : R m m' →
    R { m with history := event :: m.history } { m' with history := event :: m'.history }

/-- A relation between states that is kept by all that a run does to both of them besides changing
environments, and tells apart nothing that a run looks at there. -/
structure RecordAlike (R : Machine → Machine → Prop) : Prop extends TraceAlike R where
  hostCalls {m m' : Machine} : R m m' → m'.hostCalls = m.hostCalls
  answered {m m' : Machine} (builtin : Builtin) (arguments : List Value) : R m m' →
    R (m.answered builtin arguments) (m'.answered builtin arguments)

section
variable {E : Nat → Scope → Scope → Prop} {R : Machine → Machine → Prop} (K : TraceAlike R)
  {stops : Interruption → Prop} {d : Nat}
include K

/-- Names are counted alike. -/
lemma Agree.count (name : String) :
    Agree E R stops d (fun _ => True) (Run.count name) (Run.count name) :=
  .modify fun _ _ ⟨environments, h⟩ => ⟨environments, K.count name h⟩

/-- Steps are counted alike. -/
lemma Agree.countStep : Agree E R stops d (fun _ => True) countStep countStep :=
  .bind (.modify fun _ _ ⟨environments, h⟩ => ⟨environments, K.step h⟩) fun _ _ =>
    .count K "steps"

/-- Events are recorded alike. -/
lemma Agree.emit {m m' : Machine} (event : Event) (h : Paired E R d m m') :
    EndAlike (Paired E R d) stops (fun _ => True) (Run.emit event m) (Run.emit event m') :=
  .ok trivial ⟨h.environments, K.emit event h.rest⟩

variable (depth : ∀ env env', E d env env' → env'.depth = env.depth) (settings : Settings)
include depth

/-- Steps are traced alike. -/
lemma Agree.traceStep {s : Statement} (nameless : ∀ target, s.form.nameless? = some target →
      stops (.failure (.fault (.missingName target.kindName)))) :
    Agree E R stops d (fun _ => True) (traceStep settings s) (traceStep settings s) := by
  unfold Evaluation.traceStep
  split
  · split
    case h_1 target found => exact .throw (nameless target found)
    case h_2 =>
      refine Agree.get fun m m' paired => ?_
      rw [depth _ _ paired.environments, K.steps paired.rest]
      exact Agree.emit K _ paired
  · exact .pure trivial

/-- Calls are traced alike. -/
lemma Agree.traceCall (name : String) (arguments : List Value) :
    Agree E R stops d (fun _ => True) (traceCall settings name arguments)
      (traceCall settings name arguments) := by
  unfold Evaluation.traceCall
  split
  · refine Agree.get fun m m' paired => ?_
    rw [depth _ _ paired.environments]
    exact Agree.emit K _ paired
  · exact .pure trivial

end

/-- Calls of the host agree. -/
lemma Agree.callBuiltin {E : Nat → Scope → Scope → Prop} {R : Machine → Machine → Prop}
    (K : RecordAlike R) {stops : Interruption → Prop} {d : Nat} {builtin : Builtin}
    (h : builtin.StopsWithin stops) (arguments : List Value) :
    Agree E R stops d (fun _ => True) (callBuiltin builtin arguments)
      (callBuiltin builtin arguments) := by
  intro m m' ⟨environments, related⟩
  have paired : Paired E R d (m.answered builtin arguments) (m'.answered builtin arguments) :=
    ⟨environments, K.answered builtin arguments related⟩
  rw [callBuiltin_apply, callBuiltin_apply, K.hostCalls related]
  cases failed : (builtin.respond m.hostCalls arguments).failure with
  | some failure => exact .error (h _ _ failure failed) paired
  | none => exact .ok trivial paired

namespace Coupled
variable {c : Conventions} {E : Nat → Scope → Scope → Prop} (C : Coupled c E)
  {R : Machine → Machine → Prop} {stops : Interruption → Prop} {settings : Settings}
include C

section
variable (K : TraceAlike R)
include K

/-- Runs that start in states which are traced alike agree on all that they do, if they do in calls
of the host. They are given as many rounds for loops without bound, if there may be such loops. -/
lemma steps_of_traceAlike {rounds : Nat}
    (same : ∀ {inLoop line body name}, c.statement inLoop (.mk line (.loop body name none)) →
      rounds = settings.rounds)
    (within : c.StopsWithin stops)
    (callBuiltin : ∀ {d : Nat} {name : String} {builtin : Builtin} {arguments : List Value},
      c.CallsByName name → settings.library.builtin? name = some builtin →
      Agree E R stops d (fun _ => True) (callBuiltin builtin arguments)
        (callBuiltin builtin arguments)) :
    Steps c settings { settings with rounds } (Agree E R stops) := by
  have sameLibrary : { settings with rounds }.library = settings.library := rfl
  apply C.steps K.ignoresScope sameLibrary same within
  case announceStep =>
    exact fun obeys => .bind (.countStep K) fun _ _ =>
      .traceStep K (fun _ _ => C.depth) settings fun _ => within.nameless obeys
  case performBuiltin =>
    exact fun called found => .bind (.traceCall K (fun _ _ => C.depth) settings _ _) fun _ _ =>
      callBuiltin called found

/-- Calls are announced alike. -/
lemma announceCall_of_traceAlike {stray stray' : Signal → Run (Option Value)} {rounds d : Nat}
    (function : FunctionValue) (arguments : List Value) :
    Agree E R stops d (fun _ => True)
      (announceCall ⟨fun _ _ => pure (), stray⟩ settings function arguments)
      (announceCall ⟨fun _ _ => pure (), stray'⟩ { settings with rounds } function arguments) :=
  .bind (P := fun _ => True) (.pure trivial) fun _ _ =>
    .bind (.count K "calls") fun _ _ => .traceCall K (fun _ _ => C.depth) settings _ _

/-- The same of observed runs, if stray calls agree. -/
lemma simulation_of_traceAlike {stray stray' : Signal → Run (Option Value)} {rounds : Nat}
    (same : ∀ {inLoop line body name}, c.statement inLoop (.mk line (.loop body name none)) →
      rounds = settings.rounds)
    (within : c.StopsWithin stops) (tooDeep : stops .tooDeep)
    (callBuiltin : ∀ {d : Nat} {name : String} {builtin : Builtin} {arguments : List Value},
      c.CallsByName name → settings.library.builtin? name = some builtin →
      Agree E R stops d (fun _ => True) (callBuiltin builtin arguments)
        (callBuiltin builtin arguments))
    (strays : ∀ {d : Nat} {jump : Signal}, jump = .broken ∨ jump = .continued →
      jump.Obeys c false → Agree E R stops d (Obeying c) (stray jump) (stray' jump)) :
    Simulation c ⟨fun _ _ => pure (), stray⟩ ⟨fun _ _ => pure (), stray'⟩ settings
      { settings with rounds } (Agree E R stops) :=
  simulation (C.steps_of_traceAlike K same within callBuiltin) within tooDeep
    (C.announceCall_of_traceAlike K _ _) strays

end

variable (K : RecordAlike R)
include K

/-- Runs that start in states which record alike agree on all that they do. -/
lemma steps_of_recordAlike {rounds : Nat}
    (same : ∀ {inLoop line body name}, c.statement inLoop (.mk line (.loop body name none)) →
      rounds = settings.rounds)
    (within : c.StopsWithin stops) (library : settings.library.StopsWithin stops) :
    Steps c settings { settings with rounds } (Agree E R stops) :=
  C.steps_of_traceAlike K.toTraceAlike same within fun _ found => .callBuiltin K (library found) _

/-- The same of observed runs, if stray calls agree. -/
lemma simulation_of_recordAlike {stray stray' : Signal → Run (Option Value)} {rounds : Nat}
    (same : ∀ {inLoop line body name}, c.statement inLoop (.mk line (.loop body name none)) →
      rounds = settings.rounds)
    (within : c.StopsWithin stops) (tooDeep : stops .tooDeep)
    (library : settings.library.StopsWithin stops)
    (strays : ∀ {d : Nat} {jump : Signal}, jump = .broken ∨ jump = .continued →
      jump.Obeys c false → Agree E R stops d (Obeying c) (stray jump) (stray' jump)) :
    Simulation c ⟨fun _ _ => pure (), stray⟩ ⟨fun _ _ => pure (), stray'⟩ settings
      { settings with rounds } (Agree E R stops) :=
  C.simulation_of_traceAlike K.toTraceAlike same within tooDeep
    (fun _ found => .callBuiltin K (library found) _) strays

end Coupled

/-- States of which all but the environments is the same. -/
structure SameRecord (m m' : Machine) : Prop where
  steps : m'.steps = m.steps
  statistics : m'.statistics = m.statistics
  history : m'.history = m.history
  hostCalls : m'.hostCalls = m.hostCalls

namespace SameRecord

/-- Another environment leaves the rest as it is. -/
lemma of_scope (m : Machine) (scope : Scope) : SameRecord m { m with environment := scope } :=
  ⟨rfl, rfl, rfl, rfl⟩

/-- A state is told by another that records the same and by its own environment. -/
lemma eq {m m' : Machine} (h : SameRecord m m') :
    m' = { m with environment := m'.environment } := by
  cases m'
  obtain ⟨rfl, rfl, rfl, rfl⟩ := h
  rfl

end SameRecord

/-- States that record the same record alike. -/
lemma RecordAlike.sameRecord : RecordAlike SameRecord where
  ignoresScope _ _ _ _ h := ⟨h.steps, h.statistics, h.history, h.hostCalls⟩
  steps h := h.steps
  hostCalls h := h.hostCalls
  step h := ⟨congrArg (· + 1) h.steps, h.statistics, h.history, h.hostCalls⟩
  count name h :=
    ⟨h.steps, congrArg (Option.map (·.count name)) h.statistics, h.history, h.hostCalls⟩
  emit event h := ⟨h.steps, h.statistics, congrArg (event :: ·) h.history, h.hostCalls⟩
  answered builtin arguments h := by
    refine ⟨h.steps, h.statistics, ?_, ?_⟩
    · simp only [Machine.answered, h.hostCalls, h.history]
    · simp only [Machine.answered, h.hostCalls]

/-- States that record the same are traced alike. -/
lemma TraceAlike.sameRecord : TraceAlike SameRecord := RecordAlike.sameRecord.toTraceAlike

end ScriptLang
