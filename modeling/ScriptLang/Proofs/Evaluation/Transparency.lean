import ScriptLang.Proofs.Evaluation.Sessions

/-!
# Traces and statistics change nothing

A run that is traced or counted is compared with a quiet one that a counting observer watches. Both
take the same steps; what each of them writes to the record in a step is listed by `Tells`, and what
can be said of the two records and of the counters follows by induction on it. The observer only
leaves marks in the record, so a run that nobody watches does the same too
(`tracing_is_transparent`).
-/

namespace ScriptLang
open Evaluation

/-- What becomes of a counter that is raised a number of times. -/
def raised (value : Option Int) : Nat → Option Int
  | 0 => value
  | n + 1 => some (value.getD 0 + (n + 1 : Nat))

/-- To raise a counter once more adds one to it. -/
lemma raised_succ (value : Option Int) (n : Nat) :
    raised value (n + 1) = some ((raised value n).getD 0 + 1) := by
  cases n with
  | zero => rfl
  | succ n =>
    unfold raised
    rw [Option.getD_some, Int.add_assoc]
    rfl

namespace Statistics

/-- A count adds one to the counter of the name, and leaves the others. -/
lemma get?_count (s : Statistics) (name other : String) :
    Bindings.get? (s.count name) other =
      if name = other then some ((Bindings.get? s name).getD 0 + 1) else Bindings.get? s other :=
  Bindings.get?_set s name other _

/-- Counters of which those of statements and calls are raised. -/
structure Raised (steps calls : Nat) (s s' : Statistics) : Prop where
  steps : Bindings.get? s' "steps" = raised (Bindings.get? s "steps") steps
  calls : Bindings.get? s' "calls" = raised (Bindings.get? s "calls") calls
  others {name : String} : name ≠ "steps" → name ≠ "calls" →
    Bindings.get? s' name = Bindings.get? s name

namespace Raised
variable {steps calls : Nat} {s s' : Statistics}

/-- Counters are raised by nothing if nothing is counted. -/
lemma refl (s : Statistics) : Raised 0 0 s s := ⟨rfl, rfl, fun _ _ => rfl⟩

/-- The count of a statement raises the counter of statements. -/
lemma count_steps (h : Raised steps calls s s') :
    Raised (steps + 1) calls s (s'.count "steps") where
  steps := by rw [get?_count, if_pos rfl, h.steps, raised_succ]
  calls := by rw [get?_count, if_neg (by decide), h.calls]
  others ne ne' := by rw [get?_count, if_neg (Ne.symm ne), h.others ne ne']

/-- The count of a call raises the counter of calls. -/
lemma count_calls (h : Raised steps calls s s') :
    Raised steps (calls + 1) s (s'.count "calls") where
  steps := by rw [get?_count, if_neg (by decide), h.steps]
  calls := by rw [get?_count, if_pos rfl, h.calls, raised_succ]
  others ne ne' := by rw [get?_count, if_neg (Ne.symm ne'), h.others ne ne']

end Raised
end Statistics

/-- Statistics that are kept are counted in. -/
lemma rel_map_count {R R' : Statistics → Statistics → Prop} {name : String}
    {s s' : Option Statistics} (h : Option.Rel R s s') (hR : ∀ a b, R a b → R' a (b.count name)) :
    Option.Rel R' s (s'.map (·.count name)) := by
  cases h with
  | none => exact .none
  | some h => exact .some (hR _ _ h)

namespace Event

/-- Something that the host did, and no trace. -/
def isEffect : Event → Bool
  | effect _ => true
  | _ => false

/-- The number that a traced statement has. -/
def stepNumber? : Event → Option Nat
  | stepTrace number _ => some number
  | _ => none

/-- The trace of a call. -/
def isCall : Event → Bool
  | callTrace _ => true
  | _ => false

/-- An event that is part of the record if it is asked for. -/
def shownIf (shown : Prop) [Decidable shown] (event : Event) : List Event :=
  if shown then [event] else []

section
variable (shown : Prop) [Decidable shown] (number : Nat) (text : String)

/-- The trace of a step is no effect. -/
@[simp] lemma filter_isEffect_step :
    (shownIf shown (.stepTrace number text)).filter (·.isEffect) = [] := by
  unfold shownIf
  split <;> rfl

/-- The trace of a call is no effect. -/
@[simp] lemma filter_isEffect_call :
    (shownIf shown (.callTrace text)).filter (·.isEffect) = [] := by
  unfold shownIf
  split <;> rfl

/-- The trace of a step has its number. -/
@[simp] lemma filterMap_stepNumber?_step :
    (shownIf shown (.stepTrace number text)).filterMap (·.stepNumber?) =
      if shown then [number] else [] := by
  unfold shownIf
  split <;> rfl

/-- The trace of a call has no number. -/
@[simp] lemma filterMap_stepNumber?_call :
    (shownIf shown (.callTrace text)).filterMap (·.stepNumber?) = [] := by
  unfold shownIf
  split <;> rfl

/-- The trace of a step is not that of a call. -/
@[simp] lemma countP_isCall_step :
    (shownIf shown (.stepTrace number text)).countP (·.isCall) = 0 := by
  unfold shownIf
  split <;> rfl

/-- The trace of a call is one of a call. -/
@[simp] lemma countP_isCall_call :
    (shownIf shown (.callTrace text)).countP (·.isCall) = if shown then 1 else 0 := by
  unfold shownIf
  split <;> rfl

end

end Event

open Event (shownIf)

namespace Response
variable (response : Response)

/-- What an answer of the host records is effects. -/
lemma effect_of_mem_record {event : Event} (h : event ∈ response.record) :
    ∃ effect, event = .effect effect := by
  obtain ⟨effect, _, rfl⟩ := List.mem_map.1 (List.mem_reverse.1 h)
  exact ⟨effect, rfl⟩

/-- All that an answer of the host records is effects. -/
@[simp] lemma filter_isEffect_record : response.record.filter (·.isEffect) = response.record := by
  refine List.filter_eq_self.2 fun event mem => ?_
  obtain ⟨effect, rfl⟩ := response.effect_of_mem_record mem
  rfl

/-- No step is traced by an answer of the host. -/
@[simp] lemma filterMap_stepNumber?_record :
    response.record.filterMap (·.stepNumber?) = [] := by
  refine List.filterMap_eq_nil_iff.2 fun event mem => ?_
  obtain ⟨effect, rfl⟩ := response.effect_of_mem_record mem
  rfl

/-- No call is traced by an answer of the host. -/
@[simp] lemma countP_isCall_record : response.record.countP (·.isCall) = 0 := by
  refine List.countP_eq_zero.2 fun event mem => ?_
  obtain ⟨effect, rfl⟩ := response.effect_of_mem_record mem
  exact Bool.false_ne_true

end Response

/-- What two runs tell in their records, both with the newest event first, after a number of
statements, of calls of functions and of calls of the host. The first run is only marked where it
calls a function; the second is traced. -/
inductive Tells (verbosity : Int) (start : Nat) :
    (steps calls hosts : Nat) → (marks events : List Event) → Prop where
  | nothing : Tells verbosity start 0 0 0 [] []
  | statement {k c h marks events} (text : String) : Tells verbosity start k c h marks events →
    Tells verbosity start (k + 1) c h marks
      (shownIf (verbosity = 2) (.stepTrace (start + k + 1) text) ++ events)
  | call {k c h marks events} (name text : String) : Tells verbosity start k c h marks events →
    Tells verbosity start k (c + 1) h (.callTrace name :: marks)
      (shownIf (1 ≤ verbosity) (.callTrace text) ++ events)
  | host {k c h marks events} (text : String) (response : Response) :
    Tells verbosity start k c h marks events →
    Tells verbosity start k c (h + 1) (response.record ++ marks)
      (response.record ++ (shownIf (1 ≤ verbosity) (.callTrace text) ++ events))

namespace Tells
variable {verbosity : Int} {start k c h : Nat} {marks events : List Event}

/-- What the host did is told by both. -/
lemma effects (t : Tells verbosity start k c h marks events) :
    events.filter (·.isEffect) = marks.filter (·.isEffect) := by
  induction t with
  | nothing => rfl
  | statement text _ ih => simp [ih]
  | call name text _ ih =>
    rw [List.filter_append, Event.filter_isEffect_call, List.nil_append, ih]
    rfl
  | host text response _ ih => simp [ih]

/-- Traced statements are numbered one after the other. -/
lemma numbers (t : Tells verbosity start k c h marks events) :
    (events.filterMap (·.stepNumber?)).reverse =
      if verbosity = 2 then List.range' (start + 1) k else [] := by
  induction t with
  | nothing => simp
  | @statement k _ _ _ _ text _ ih =>
    rw [List.filterMap_append, List.reverse_append, ih, Event.filterMap_stepNumber?_step]
    split
    · rw [List.range'_concat, Nat.one_mul, Nat.add_right_comm]
      rfl
    · rfl
  | call name text _ ih => simp [ih]
  | host text response _ ih => simp [ih]

/-- There is a mark for each call of a function. -/
lemma calls_marks (t : Tells verbosity start k c h marks events) :
    marks.countP (·.isCall) = c := by
  induction t with
  | nothing => rfl
  | statement text _ ih => exact ih
  | call name text _ ih => rw [List.countP_cons, ih, if_pos (by rfl)]
  | host text response _ ih => simp [ih]

/-- There is a trace for each call of a function and each call of the host. -/
lemma calls_events (t : Tells verbosity start k c h marks events) :
    events.countP (·.isCall) = if 1 ≤ verbosity then c + h else 0 := by
  induction t with
  | nothing => simp
  | statement text _ ih => simp [ih]
  | call name text _ ih =>
    rw [List.countP_append, ih, Event.countP_isCall_call]
    split <;> omega
  | host text response _ ih =>
    rw [List.countP_append, List.countP_append, ih, Event.countP_isCall_call,
      response.countP_isCall_record]
    split <;> omega

/-- The record of a quiet run has effects only. -/
lemma quiet (t : Tells 0 start k c h marks events) : events.filter (·.isEffect) = events := by
  induction t with
  | nothing => rfl
  | statement text _ ih => simpa [shownIf] using ih
  | call name text _ ih => simpa [shownIf] using ih
  | host text response _ ih => simpa [shownIf] using ih

end Tells

namespace Evaluation
variable (library : Library) (rounds : Nat) (verbosity : Int) (m : Machine)

/-- Without traces a step is only counted. -/
lemma announceStep_quiet (s : Statement) :
    announceStep ⟨library, 0, rounds⟩ s m = .ok () { m with
      steps := m.steps + 1
      statistics := m.statistics.map (·.count "steps") } := rfl

/-- A statement that can be shown is counted, and traced if that is asked for. -/
lemma announceStep_traced {s : Statement} (named : s.form.nameless? = none) :
    ∃ text, announceStep ⟨library, verbosity, rounds⟩ s m = .ok () { m with
      steps := m.steps + 1
      statistics := m.statistics.map (·.count "steps")
      history := shownIf (verbosity = 2) (.stepTrace (m.steps + 1) text) ++ m.history } := by
  refine ⟨Trace.stepLine (m.steps + 1 : Nat) s m.environment.depth Trace.standardWidth, ?_⟩
  unfold announceStep traceStep shownIf
  dsimp only
  split
  · rw [named]
    rfl
  · rfl

/-- Without traces nothing tells of a call. -/
lemma traceCall_quiet (name : String) (arguments : List Value) :
    traceCall ⟨library, 0, rounds⟩ name arguments m = .ok () m := rfl

/-- A call is traced if that is asked for. -/
lemma traceCall_traced (name : String) (arguments : List Value) :
    ∃ text, traceCall ⟨library, verbosity, rounds⟩ name arguments m = .ok () { m with
      history := shownIf (1 ≤ verbosity) (.callTrace text) ++ m.history } := by
  refine ⟨Trace.callLine name (Value.echoes arguments) m.environment.depth, ?_⟩
  unfold traceCall shownIf
  dsimp only
  split <;> rfl

/-- A function of the host is called after the call was traced. -/
lemma performBuiltin_apply {settings : Settings} {name : String} {builtin : Builtin}
    {arguments : List Value} {m m' : Machine}
    (h : traceCall settings name arguments m = .ok () m') :
    performBuiltin settings name builtin arguments m =
      match (builtin.respond m'.hostCalls arguments).failure with
      | some failure => .error (.failure failure) (m'.answered builtin arguments)
      | none => .ok () (m'.answered builtin arguments) := by
  exact (Run.bind_of_ok h).trans (callBuiltin_apply builtin arguments m')

end Evaluation

/-- An observer who marks the calls of functions in the record. -/
def Observer.counting : Observer :=
  ⟨fun function _ => Run.emit (.callTrace function.name), fun _ => pure none⟩

/-- How a state of a marked run and one of a traced run are related to the states the runs started
in, after a number of statements, of calls of functions and of calls of the host. -/
structure Account (verbosity : Int) (start : Machine) (statistics : Option Statistics) (k c h : Nat)
    (marks events : List Event) (m m' : Machine) : Prop where
  tells : Tells verbosity start.steps k c h marks events
  marked : m.history = marks ++ start.history
  told : m'.history = events ++ start.history
  steps : m.steps = start.steps + k
  sameSteps : m'.steps = m.steps
  hosts : m.hostCalls.length = start.hostCalls.length + h
  sameHosts : m'.hostCalls = m.hostCalls
  counted : Option.Rel (Statistics.Raised k c) statistics m'.statistics

/-- Two states of which there is an account. -/
def Accounted (verbosity : Int) (start : Machine) (statistics : Option Statistics)
    (m m' : Machine) : Prop :=
  ∃ k c h marks events, Account verbosity start statistics k c h marks events m m'

namespace Accounted
variable {verbosity : Int} {start : Machine} {statistics : Option Statistics}

/-- At the start nothing has to be accounted for. -/
lemma refl (verbosity : Int) (start : Machine) (statistics : Option Statistics) :
    Accounted verbosity start statistics start { start with statistics } := by
  refine ⟨0, 0, 0, [], [], .nothing, rfl, rfl, rfl, rfl, rfl, rfl, ?_⟩
  cases statistics with
  | none => exact .none
  | some s => exact .some (.refl s)

/-- The steps of both runs are the same in number. -/
lemma sameSteps {m m' : Machine} (h : Accounted verbosity start statistics m m') :
    m'.steps = m.steps := by
  obtain ⟨_, _, _, _, _, account⟩ := h
  exact account.sameSteps

/-- The calls of the host are the same in both runs. -/
lemma sameHosts {m m' : Machine} (h : Accounted verbosity start statistics m m') :
    m'.hostCalls = m.hostCalls := by
  obtain ⟨_, _, _, _, _, account⟩ := h
  exact account.sameHosts

section
variable {m m' : Machine} (h : Accounted verbosity start statistics m m')
  (fresh : start.history = [])
include h fresh

/-- An account of states whose runs started without a record, in terms of these states. -/
lemma account : ∃ k hosts, Account verbosity start statistics k (m.history.countP (·.isCall)) hosts
    m.history m'.history m m' := by
  obtain ⟨k, c, hosts, marks, events, account⟩ := h
  have marked := account.marked
  have told := account.told
  rw [fresh, List.append_nil] at marked told
  rw [marked, told, account.tells.calls_marks]
  exact ⟨k, hosts, account⟩

/-- What the host did is recorded in both states. -/
lemma effects : m'.history.filter (·.isEffect) = m.history.filter (·.isEffect) := by
  obtain ⟨_, _, account⟩ := h.account fresh
  exact account.tells.effects

end

/-- Without traces the record is one of effects. -/
lemma onlyEffects {m m' : Machine} (h : Accounted 0 start statistics m m')
    (fresh : start.history = []) : m'.history.filter (·.isEffect) = m'.history := by
  obtain ⟨_, _, account⟩ := h.account fresh
  exact account.tells.quiet

/-- The account does not look at environments. -/
lemma ignoresScope : IgnoresScope (Accounted verbosity start statistics) := by
  rintro m m' _ _ ⟨k, c, h, marks, events, account⟩
  exact ⟨k, c, h, marks, events, account.tells, account.marked, account.told, account.steps,
    account.sameSteps, account.hosts, account.sameHosts, account.counted⟩

end Accounted

section
variable {library : Library} {rounds : Nat} {verbosity : Int} {start : Machine}
  {statistics : Option Statistics} {d : Nat}

namespace Accounted

/-- Steps keep the account. -/
lemma announceStep {inLoop : Bool} {s : Statement} (h : s.Obeys .namedTargets inLoop) :
    Agree (SameObeying .namedTargets) (Accounted verbosity start statistics) (fun _ => True) d
      (fun _ => True) (announceStep ⟨library, 0, rounds⟩ s)
      (announceStep ⟨library, verbosity, rounds⟩ s) := by
  rintro m m' ⟨environments, k, c, hosts, marks, events, account⟩
  obtain ⟨text, traced⟩ :=
    announceStep_traced library rounds verbosity m' (Statement.nameless?_eq_none h)
  rw [announceStep_quiet, traced]
  refine .ok trivial ⟨environments, k + 1, c, hosts, marks, _, account.tells.statement text,
    account.marked, ?_, congrArg (· + 1) account.steps, congrArg (· + 1) account.sameSteps,
    account.hosts, account.sameHosts, rel_map_count account.counted fun _ _ => .count_steps⟩
  simp only [account.told, account.sameSteps, account.steps, List.append_assoc]

/-- Calls of functions keep the account. -/
lemma announceCall {function : FunctionValue} {arguments : List Value} :
    Agree (SameObeying .namedTargets) (Accounted verbosity start statistics) (fun _ => True) d
      (fun _ => True) (announceCall .counting ⟨library, 0, rounds⟩ function arguments)
      (announceCall .silent ⟨library, verbosity, rounds⟩ function arguments) := by
  rintro m m' ⟨environments, k, c, hosts, marks, events, account⟩
  obtain ⟨text, traced⟩ := traceCall_traced library rounds verbosity
    { m' with statistics := m'.statistics.map (·.count "calls") } function.name arguments
  have quiet : Evaluation.announceCall .counting ⟨library, 0, rounds⟩ function arguments m =
      .ok () { m with
        statistics := m.statistics.map (·.count "calls")
        history := .callTrace function.name :: m.history } := rfl
  have traced : Evaluation.announceCall .silent ⟨library, verbosity, rounds⟩ function arguments m' =
      _ := traced
  rw [quiet, traced]
  refine .ok trivial ⟨environments, k, c + 1, hosts, _, _, account.tells.call function.name text,
    congrArg _ account.marked, ?_, account.steps, account.sameSteps, account.hosts,
    account.sameHosts, rel_map_count account.counted fun _ _ => .count_calls⟩
  simp only [account.told, List.append_assoc]

/-- Calls of the host keep the account. -/
lemma performBuiltin {name : String} {builtin : Builtin} {arguments : List Value} :
    Agree (SameObeying .namedTargets) (Accounted verbosity start statistics) (fun _ => True) d
      (fun _ => True) (performBuiltin ⟨library, 0, rounds⟩ name builtin arguments)
      (performBuiltin ⟨library, verbosity, rounds⟩ name builtin arguments) := by
  rintro m m' ⟨environments, k, c, hosts, marks, events, account⟩
  obtain ⟨text, traced⟩ := traceCall_traced library rounds verbosity m' name arguments
  rw [performBuiltin_apply (traceCall_quiet library rounds m name arguments),
    performBuiltin_apply traced]
  dsimp only
  rw [account.sameHosts]
  have answered : Paired (SameObeying .namedTargets) (Accounted verbosity start statistics) d
      (m.answered builtin arguments)
      (Machine.answered { m' with
        history := shownIf (1 ≤ verbosity) (.callTrace text) ++ m'.history
        hostCalls := m.hostCalls } builtin arguments) := by
    refine ⟨environments, k, c, hosts + 1, _, _,
      account.tells.host text (builtin.respond m.hostCalls arguments), ?_, ?_, account.steps,
      account.sameSteps, congrArg (· + 1) account.hosts, rfl, account.counted⟩
    · simp only [Machine.answered, account.marked, List.append_assoc]
    · simp only [Machine.answered, account.told, List.append_assoc]
  cases (builtin.respond m.hostCalls arguments).failure with
  | none => exact .ok trivial answered
  | some failure => exact .error trivial answered

/-- There is an account of every run that is traced beside one that is marked. -/
lemma simulation : Simulation .namedTargets .counting .silent ⟨library, 0, rounds⟩
    ⟨library, verbosity, rounds⟩
    (Agree (SameObeying .namedTargets) (Accounted verbosity start statistics) fun _ => True) :=
  Coupled.simulation
    ((SameObeying.coupled _).steps .ignoresScope rfl (fun _ => rfl) Conventions.stopsWithin_any
      announceStep fun _ _ => performBuiltin)
    Conventions.stopsWithin_any trivial announceCall fun _ _ => .pure obeying_none

/-- A traced run beside one that is marked, from the same state but for the statistics. -/
lemma runProgram (limit : Nat) {program : Program}
    (named : Statement.AllObey .namedTargets false program) {m : Machine}
    (holds : m.Obeys .namedTargets) (statistics : Option Statistics) :
    EndAlike (Paired (SameObeying .namedTargets) (Accounted verbosity m statistics) 0)
      (fun _ => True) (Obeying .namedTargets)
      (runProgramObserved .counting ⟨library, 0, rounds⟩ limit program m)
      (runProgram ⟨library, verbosity, rounds⟩ limit program { m with statistics }) := by
  rw [← runProgramObserved_silent]
  exact simulation.runProgramObserved limit 0 named _ _
    ⟨⟨rfl, holds⟩, .refl verbosity m statistics⟩

end Accounted

end

/-- Traces and statistics change nothing for programs that assign to names only, as all do that are
read. A traced run ends with the same value or for the same reason as a quiet one, in the same
environment, with the same calls of the host, and with the same record but for the traces. At
verbosity two the statements that were run are traced once each, numbered on from where the run
started. If statistics are kept, the counter of statements is raised by their number and that of
calls by the number of times that a function was called with as many arguments as it takes, which
is what the counting observer counts. -/
theorem tracing_is_transparent (library : Library) (rounds limit : Nat) {program : Program}
    (assigns : Statement.AllObey .namedTargets false program ∨ ∃ source, parse source = .ok program)
    {m : Machine} (holds : m.Obeys .namedTargets) (fresh : m.history = []) (verbosity : Int)
    (statistics : Option Statistics) :
    let quiet := runProgram ⟨library, 0, rounds⟩ limit program m
    let counted := runProgramObserved .counting ⟨library, 0, rounds⟩ limit program m
    let traced := runProgram ⟨library, verbosity, rounds⟩ limit program { m with statistics }
    let events := (Run.after traced).history
    let calls := (Run.after counted).history.countP (·.isCall)
    Run.result traced = Run.result quiet ∧
    (Run.after traced).environment = (Run.after quiet).environment ∧
    (Run.after traced).steps = (Run.after quiet).steps ∧
    (Run.after traced).hostCalls = (Run.after quiet).hostCalls ∧
    (Run.after quiet).history = events.filter (·.isEffect) ∧
    Run.result counted = Run.result quiet ∧
    (Run.after counted).history.filter (·.isEffect) = (Run.after quiet).history ∧
    ∃ steps hosts, (Run.after quiet).steps = m.steps + steps ∧
      (Run.after quiet).hostCalls.length = m.hostCalls.length + hosts ∧
      (events.filterMap (·.stepNumber?)).reverse =
        (if verbosity = 2 then List.range' (m.steps + 1) steps else []) ∧
      events.countP (·.isCall) = (if 1 ≤ verbosity then calls + hosts else 0) ∧
      Option.Rel (Statistics.Raised steps calls) statistics (Run.after traced).statistics := by
  intro quiet counted traced events calls
  have named : Statement.AllObey .namedTargets false program := by
    obtain named | ⟨source, parsed⟩ := assigns
    · exact named
    · exact obeys_of_parse Conventions.namedTargets_allowsWellFormed parsed
  have toTraced : EndAlike _ _ _ counted traced := Accounted.runProgram limit named holds statistics
  have toQuiet : EndAlike _ _ _ counted quiet := Accounted.runProgram limit named holds m.statistics
  obtain ⟨scope, accounted⟩ := toTraced.after
  obtain ⟨scope', accounted'⟩ := toQuiet.after
  obtain ⟨steps, hosts, account⟩ := accounted.account fresh
  have onlyEffects : (Run.after quiet).history = (Run.after quiet).history.filter (·.isEffect) :=
    (accounted'.onlyEffects fresh).symm
  exact ⟨toTraced.result.trans toQuiet.result.symm, scope.eq.trans scope'.eq.symm,
    accounted.sameSteps.trans accounted'.sameSteps.symm,
    accounted.sameHosts.trans accounted'.sameHosts.symm,
    onlyEffects.trans ((accounted'.effects fresh).trans (accounted.effects fresh).symm),
    toQuiet.result.symm, (accounted'.effects fresh).symm.trans onlyEffects.symm, steps, hosts,
    accounted'.sameSteps.trans account.steps,
    (congrArg List.length accounted'.sameHosts).trans account.hosts, account.tells.numbers,
    account.tells.calls_events, account.counted⟩

/-- A program that defines a function, calls it and assigns to a name. -/
def assigning : Program :=
  [.mk (some 1) (.define "same" ["x"] [.mk (some 1) (.returns (some (.identifier "x")))]),
    .mk (some 2) (.declare "y" (.call (.identifier "same") [.string "a"])),
    .mk (some 3) (.evaluate (.assign (.identifier "y") (.identifier "z")))]

/-- The program comes to the same with traces and statistics as without. -/
theorem assigning_is_transparent :
    Statement.AllObey .namedTargets false assigning ∧
      Run.result (runProgram ⟨.empty, 2, 0⟩ 9 assigning
          { Machine.initial with statistics := some .empty }) =
        Run.result (runProgram ⟨.empty, 0, 0⟩ 9 assigning .initial) := by
  have named : Statement.AllObey .namedTargets false assigning := by
    simp [assigning, Statement.AllObey, Statement.Obeys, Form.Obeys, Expression.Obeys,
      Expression.AllObey, Conventions.namedTargets]
  have holds : Machine.initial.Obeys .namedTargets := Environment.holds_root
  exact ⟨named, (tracing_is_transparent .empty 0 9 (.inl named) holds rfl 2 (some .empty)).1⟩

end ScriptLang
