import Mathlib.Logic.Relation
import ScriptLang.Proofs.Evaluation.Sessions

/-!
# Sessions in pieces

A program that is run in a session goes on where the one before it ended, so it makes no difference
whether a session is given two programs one after the other or as one, if the first ends normally
(`session_in_pieces`). All that a run does not find as the run before it left it is the record,
which starts empty again. Nothing that a run does depends on it: two runs of which only one recalls
what happened before tell the same story (`Recalls`).
-/

namespace ScriptLang
open Evaluation

/-- A run whose result is a value ended with it in some state. -/
lemma Run.ok_of_result {α : Type} {r : EStateM.Result Interruption Machine α} {a : α}
    (h : Run.result r = .ok a) : ∃ m, r = .ok a m := by
  cases r with
  | ok b m =>
    cases h
    exact ⟨m, rfl⟩
  | error stop m => cases h

namespace Evaluation
variable {settings : Settings} {E : Evaluator} {p : Program} {m m' : Machine}

/-- Two blocks in a row run one after the other if the first ends normally. -/
lemma executeBlock_append (p q : Program) :
    executeBlock settings E (p ++ q) = (do
      match ← executeBlock settings E p with
      | .normal => executeBlock settings E q
      | signal => return signal) := by
  induction p with
  | nil => rfl
  | cons s rest ih =>
    rw [List.cons_append, executeBlock, executeBlock, ih, bind_assoc]
    refine bind_congr fun signal => ?_
    cases signal <;> rfl

/-- After a block that ends normally the next one runs in the state that it left. -/
lemma executeBlock_append_of_normal (h : executeBlock settings E p m = .ok .normal m')
    (q : Program) : executeBlock settings E (p ++ q) m = executeBlock settings E q m' := by
  rw [executeBlock_append, Run.bind_of_ok h]

/-- After a block that ends in any other way nothing runs. -/
lemma executeBlock_append_of_not_normal
    (h : Run.result (executeBlock settings E p m) ≠ .ok .normal) (q : Program) :
    executeBlock settings E (p ++ q) m = executeBlock settings E p m := by
  rw [executeBlock_append]
  cases ran : executeBlock settings E p m with
  | error stop n => exact Run.bind_of_error ran
  | ok signal n =>
    rw [Run.bind_of_ok ran]
    cases signal with
    | normal => exact absurd (congrArg Run.result ran) h
    | returned _ | broken | continued => rfl

end Evaluation

/-- A program whose statements all end normally gives no value. -/
lemma runProgram_of_normal {settings : Settings} {limit : Nat} {p : Program} {m m' : Machine}
    (h : executeBlock settings (evaluate settings limit) p m = .ok .normal m') :
    runProgram settings limit p m = .ok none m' := by
  rw [runProgram_apply, h]
  rfl

/-- States of which only the second has the past in its record. Calls of the host that were made
before are still known. -/
structure Recalls (past : List Event) (calls : List HostCall) (m m' : Machine) : Prop where
  steps : m'.steps = m.steps
  statistics : m'.statistics = m.statistics
  history : m'.history = m.history ++ past
  hostCalls : m'.hostCalls = m.hostCalls
  since : calls <:+ m.hostCalls

section
variable {past : List Event} {calls : List HostCall}

/-- States that differ in what they recall record alike. -/
lemma Recalls.recordAlike : RecordAlike (Recalls past calls) where
  ignoresScope _ _ _ _ h := ⟨h.steps, h.statistics, h.history, h.hostCalls, h.since⟩
  steps h := h.steps
  hostCalls h := h.hostCalls
  step h := ⟨congrArg (· + 1) h.steps, h.statistics, h.history, h.hostCalls, h.since⟩
  count name h :=
    ⟨h.steps, congrArg (Option.map (·.count name)) h.statistics, h.history, h.hostCalls, h.since⟩
  emit event h := ⟨h.steps, h.statistics, congrArg (event :: ·) h.history, h.hostCalls, h.since⟩
  answered builtin arguments h := by
    refine ⟨h.steps, h.statistics, ?_, ?_, h.since.trans (List.suffix_cons _ _)⟩
    · simp only [Machine.answered, h.hostCalls, h.history, List.append_assoc]
    · simp only [Machine.answered, h.hostCalls]

/-- A state recalls no more than itself. -/
lemma Recalls.refl (m : Machine) : Recalls [] m.hostCalls m m :=
  ⟨rfl, rfl, (List.append_nil _).symm, rfl, List.suffix_rfl⟩

/-- Runs that differ in what they recall end alike. -/
lemma Recalls.runProgram (settings : Settings) (limit : Nat) (program : Program) {m m' : Machine}
    (scope : m'.environment = m.environment) (h : Recalls past calls m m') :
    EndAlike (Paired (SameObeying .any) (Recalls past calls) 0) (fun _ => True) (Obeying .any)
      (runProgram settings limit program m) (runProgram settings limit program m') := by
  have simulation : Simulation .any .silent .silent settings settings
      (Agree (SameObeying .any) (Recalls past calls) fun _ => True) :=
    (SameObeying.coupled .any).simulation_of_recordAlike Recalls.recordAlike (fun _ => rfl)
      Conventions.stopsWithin_any trivial settings.library.stopsWithin_any fun _ _ =>
        .pure obeying_none
  rw [← runProgramObserved_silent]
  exact simulation.runProgramObserved limit 0 (Statement.allObey_any false program) m m'
    ⟨⟨scope, m.obeys_any⟩, h⟩

end

/-- What was added to the front of a list. -/
lemma take_added {α : Type} (more l : List α) :
    (more ++ l).take ((more ++ l).length - l.length) = more := by
  rw [List.length_append, Nat.add_sub_cancel, List.take_left]

/-- What was added to the front of a list in two steps, the oldest first. -/
lemma reverse_take_of_suffix {α : Type} {a b c : List α} (h : a <:+ b) (h' : b <:+ c) :
    (c.take (c.length - a.length)).reverse =
      (b.take (b.length - a.length)).reverse ++ (c.take (c.length - b.length)).reverse := by
  obtain ⟨first, rfl⟩ := h
  obtain ⟨second, rfl⟩ := h'
  rw [take_added, take_added, ← List.append_assoc, take_added, List.reverse_append]

namespace Engine

/-- How the statements of a program end: normally, by a return or a jump, or not at all. -/
def signal (engine : Engine) (limits : Limits) (program : Program) (options : Options) :
    Except Interruption Signal :=
  let settings : Settings := ⟨engine.library, options.verbosity, limits.rounds⟩
  Run.result (executeBlock settings (evaluate settings limits.depth) program
    (engine.machineFor options))

/-- Something runs beside the session. -/
inductive Aside (engine : Engine) : Engine → Prop where
  | execute (limits : Limits) (program : Program) {options : Options} :
    options.interactive = false → Aside engine (engine.execute limits program options).2
  | run (limits : Limits) (source : String) {options : Options} :
    options.interactive = false → Aside engine (engine.run limits source options).2

/-- A run beside the session leaves the session. -/
lemma session_execute_of_not_interactive (engine : Engine) (limits : Limits) (program : Program)
    {options : Options} (alone : options.interactive = false) :
    (engine.execute limits program options).2.session = engine.session := by
  rw [execute_snd]
  unfold Engine.after
  rw [alone]
  rfl

/-- Runs beside the session leave it. -/
lemma Aside.session {engine engine' : Engine} (h : engine.Aside engine') :
    engine'.session = engine.session := by
  cases h with
  | execute limits program alone =>
    exact engine.session_execute_of_not_interactive limits program alone
  | run limits source alone =>
    unfold Engine.run
    split
    · exact engine.session_execute_of_not_interactive limits _ alone
    · rfl

/-- A run in the session starts where the one before it ended, with an empty record. -/
lemma machineFor_after (engine : Engine) {options : Options} (interactive : options.interactive)
    (m : Machine) :
    (engine.after options m).machineFor { options with statistics := m.statistics } =
      { m with history := [] } := by
  unfold Engine.after machineFor sessionFor
  rw [interactive]
  rfl

/-- The report on a run that ended so. -/
def report (engine : Engine) (r : EStateM.Result Interruption Machine (Option Value)) : Report where
  outcome := (Run.result r).mapError .ofInterruption
  events := (Run.after r).history.reverse
  hostCalls := ((Run.after r).hostCalls.take
    ((Run.after r).hostCalls.length - engine.hostCalls.length)).reverse
  statistics := (Run.after r).statistics

/-- A program is run in the state that the engine and the options make. -/
lemma execute_eq (engine : Engine) {limits : Limits} {program : Program} {options : Options}
    {r : EStateM.Result Interruption Machine (Option Value)}
    (h : runProgram ⟨engine.library, options.verbosity, limits.rounds⟩ limits.depth program
      (engine.machineFor options) = r) :
    engine.execute limits program options =
      (engine.report r, engine.after options (Run.after r)) :=
  Prod.ext (engine.execute_fst limits program options h) (by rw [execute_snd, h])

/-- The report on a run that recalls what another one did is the report on both. -/
lemma report_append {engine : Engine} (engine' : Engine) {m : Machine}
    {r r' : EStateM.Result Interruption Machine (Option Value)} {P : Option Value → Prop}
    (since : engine.hostCalls <:+ m.hostCalls) (calls : engine'.hostCalls = m.hostCalls)
    (h : EndAlike (Paired (SameObeying .any) (Recalls m.history m.hostCalls) 0) (fun _ => True) P
      r r') :
    engine.report r' =
      { outcome := (engine'.report r).outcome
        events := m.history.reverse ++ (engine'.report r).events
        hostCalls := (m.hostCalls.take (m.hostCalls.length - engine.hostCalls.length)).reverse ++
          (engine'.report r).hostCalls
        statistics := (engine'.report r).statistics } := by
  have recalls := h.after.rest
  unfold report
  rw [h.result, recalls.history, recalls.statistics, recalls.hostCalls, List.reverse_append, calls,
    reverse_take_of_suffix since recalls.since]

/-- What becomes of an engine depends on the scope, the steps and the calls of the host only. -/
lemma after_append {engine : Engine} {options options' : Options} {m : Machine}
    {r r' : EStateM.Result Interruption Machine (Option Value)} {P : Option Value → Prop}
    (interactive : options.interactive) (interactive' : options'.interactive)
    (h : EndAlike (Paired (SameObeying .any) (Recalls m.history m.hostCalls) 0) (fun _ => True) P
      r r') :
    engine.after options (Run.after r') =
      (engine.after options m).after options' (Run.after r) := by
  have recalls := h.after.rest
  unfold Engine.after
  rw [interactive, interactive', h.after.environments.eq, recalls.steps, recalls.hostCalls]
  rfl

/-- A run in the session goes on where the run before it ended. -/
lemma execute_append (engine : Engine) (limits : Limits) {p : Program} (q : Program)
    {options : Options} (interactive : options.interactive)
    (normal : engine.signal limits p options = .ok .normal) :
    let first := engine.execute limits p options
    let second := first.2.execute limits q { options with statistics := first.1.statistics }
    engine.execute limits (p ++ q) options =
      ({ outcome := second.1.outcome
         events := first.1.events ++ second.1.events
         hostCalls := first.1.hostCalls ++ second.1.hostCalls
         statistics := second.1.statistics },
       second.2) := by
  intro first second
  let settings : Settings := ⟨engine.library, options.verbosity, limits.rounds⟩
  obtain ⟨m, ran⟩ := Run.ok_of_result normal
  have firstRan : runProgram settings limits.depth p (engine.machineFor options) = .ok none m :=
    runProgram_of_normal ran
  have bothRan : runProgram settings limits.depth (p ++ q) (engine.machineFor options) =
      runProgram settings limits.depth q m := by
    rw [runProgram_apply, executeBlock_append_of_normal ran q, ← runProgram_apply]
  have firstEnds : first = (engine.report (.ok none m), engine.after options m) :=
    engine.execute_eq firstRan
  have continued : first.2.machineFor { options with statistics := first.1.statistics } =
      { m with history := [] } := by
    rw [firstEnds]
    exact engine.machineFor_after interactive m
  have secondRan : second = _ := first.2.execute_eq (congrArg _ continued)
  have since : engine.hostCalls <:+ m.hostCalls := by
    have alike := Recalls.runProgram settings limits.depth p rfl
      (.refl (engine.machineFor options))
    rw [firstRan] at alike
    exact alike.after.rest.since
  -- The second run starts without the record of the first, which it never looks at.
  have alike : EndAlike (Paired (SameObeying .any) (Recalls m.history m.hostCalls) 0) _ _
      (runProgram settings limits.depth q { m with history := [] })
      (runProgram settings limits.depth q m) :=
    Recalls.runProgram settings limits.depth q rfl ⟨rfl, rfl, rfl, rfl, List.suffix_rfl⟩
  rw [engine.execute_eq bothRan, report_append (engine.after options m) since rfl alike,
    after_append interactive interactive alike, secondRan, firstEnds]
  rfl

end Engine

/-- It makes no difference whether a session runs two programs one after the other or as one. If the
statements of the first end normally, the one run has the result, the statistics and the engine of
the second, and its events and its calls of the host are those of both. If they end in any other
way, the one run is the run of the first. What runs beside the session in between leaves its scope
and its steps as they are. -/
theorem session_in_pieces (engine : Engine) (limits : Limits) (p q : Program) (verbosity : Int)
    (statistics : Option Statistics) :
    let options : Options := ⟨verbosity, statistics, true⟩
    let both := engine.execute limits (p ++ q) options
    let first := engine.execute limits p options
    let second := first.2.execute limits q { options with statistics := first.1.statistics }
    (engine.signal limits p options = .ok .normal →
      first.1.outcome = .ok none ∧
      both.1.outcome = second.1.outcome ∧
      both.1.events = first.1.events ++ second.1.events ∧
      both.1.hostCalls = first.1.hostCalls ++ second.1.hostCalls ∧
      both.1.statistics = second.1.statistics ∧
      both.2 = second.2) ∧
    (engine.signal limits p options ≠ .ok .normal → both = first) ∧
    ∀ engine', Relation.ReflTransGen Engine.Aside first.2 engine' →
      engine'.session = first.2.session := by
  intro options both first second
  let settings : Settings := ⟨engine.library, verbosity, limits.rounds⟩
  let start := engine.machineFor options
  refine ⟨fun normal => ?_, fun other => ?_, fun engine' aside => ?_⟩
  case refine_1 =>
    obtain ⟨m, ran⟩ := Run.ok_of_result normal
    have firstEnds : first = _ := engine.execute_eq (runProgram_of_normal ran)
    have appended : both = _ := engine.execute_append limits q rfl normal
    rw [appended]
    exact ⟨congrArg (·.1.outcome) firstEnds, rfl, rfl, rfl, rfl, rfl⟩
  case refine_2 =>
    have same : runProgram settings limits.depth (p ++ q) start =
        runProgram settings limits.depth p start := by
      rw [runProgram_apply, executeBlock_append_of_not_normal other q, ← runProgram_apply]
    show engine.execute limits (p ++ q) options = engine.execute limits p options
    unfold Engine.execute
    dsimp only
    rw [same]
  case refine_3 =>
    induction aside with
    | refl => rfl
    | tail _ step ih => exact step.session.trans ih

end ScriptLang
