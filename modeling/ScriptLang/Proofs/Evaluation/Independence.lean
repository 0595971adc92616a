import ScriptLang.Proofs.Evaluation.Concatenation
import ScriptLang.Proofs.Evaluation.Errors
import ScriptLang.Proofs.Evaluation.Room

/-!
# Runs that know nothing of each other

What a script does in a run beside the session does not depend on what was run before, if no
function of the host answers differently because of earlier calls and there is the same room to read
it. The engine that it runs on may have run other scripts, and the statistics may count those as
well: the script comes to the same outcome, does the same and counts the same
(`Engine.runWithin_independent`).
-/

namespace ScriptLang
open Evaluation

/-- A function of the host answers the same whatever was called before. -/
def Builtin.Forgetful (builtin : Builtin) : Prop :=
  ∀ calls calls' arguments, builtin.respond calls' arguments = builtin.respond calls arguments

/-- All functions that names of a library stand for do. -/
def Library.Forgetful (library : Library) : Prop :=
  ∀ ⦃name : String⦄ ⦃builtin : Builtin⦄, library.builtin? name = some builtin → builtin.Forgetful

/-- The standard library answers the same whatever was called before. -/
lemma Library.standard_forgetful (launches : List String → Launch) :
    (Library.standard launches).Forgetful := by
  intro name builtin found calls calls' arguments
  obtain ⟨_, rfl⟩ | ⟨_, rfl⟩ := command_or_print found
  · rfl
  · rfl

namespace Statistics

/-- Counters in which names were counted, one after the other. -/
def countAll (names : List String) (s : Statistics) : Statistics := names.foldl count s

/-- Names are counted one part after the other. -/
lemma countAll_append (names more : List String) (s : Statistics) :
    s.countAll (names ++ more) = (s.countAll names).countAll more := List.foldl_append

/-- Without names nothing is counted. -/
lemma map_countAll_nil (s : Option Statistics) : s.map (countAll []) = s := congrFun Option.map_id s

/-- Names are counted one part after the other, if there are counters. -/
lemma map_countAll_append (names more : List String) (s : Option Statistics) :
    s.map (countAll (names ++ more)) = (s.map (countAll names)).map (countAll more) := by
  rw [Option.map_map]
  exact congrArg (Option.map · s) (funext (countAll_append names more))

end Statistics

/-- States of two runs that took the same steps and did the same, and counted and called the same in
addition to what each of them started from. -/
structure CountedAlike (s s' : Option Statistics) (calls calls' : List HostCall) (m m' : Machine) :
    Prop where
  steps : m'.steps = m.steps
  history : m'.history = m.history
  counted : ∃ names, m.statistics = s.map (.countAll names) ∧
    m'.statistics = s'.map (.countAll names)
  called : ∃ own, m.hostCalls = own ++ calls ∧ m'.hostCalls = own ++ calls'

namespace CountedAlike
variable {s s' : Option Statistics} {calls calls' : List HostCall} {m m' : Machine}

/-- States that were counted alike are traced alike. -/
lemma traceAlike : TraceAlike (CountedAlike s s' calls calls') where
  ignoresScope _ _ _ _ h := ⟨h.steps, h.history, h.counted, h.called⟩
  steps h := h.steps
  step h := ⟨congrArg (· + 1) h.steps, h.history, h.counted, h.called⟩
  count name h := by
    obtain ⟨names, counted, counted'⟩ := h.counted
    refine ⟨h.steps, h.history, ⟨names ++ [name], ?_, ?_⟩, h.called⟩
    · rw [Statistics.map_countAll_append, ← counted]
      rfl
    · rw [Statistics.map_countAll_append, ← counted']
      rfl
  emit event h := ⟨h.steps, congrArg (event :: ·) h.history, h.counted, h.called⟩

/-- Answers of a forgetful function keep the states alike. -/
lemma answered (h : CountedAlike s s' calls calls' m m') {builtin : Builtin}
    (forgetful : builtin.Forgetful) (arguments : List Value) :
    CountedAlike s s' calls calls' (m.answered builtin arguments)
      (m'.answered builtin arguments) where
  steps := h.steps
  history := by
    unfold Machine.answered
    rw [forgetful m.hostCalls m'.hostCalls, h.history]
  counted := h.counted
  called := by
    obtain ⟨own, called, called'⟩ := h.called
    let call : HostCall := ⟨builtin.hostName, arguments⟩
    exact ⟨call :: own, congrArg (call :: ·) called, congrArg (call :: ·) called'⟩

/-- Calls of a forgetful function agree. -/
lemma callBuiltin {E : Nat → Scope → Scope → Prop} {d : Nat} {builtin : Builtin}
    (forgetful : builtin.Forgetful) (arguments : List Value) :
    Agree E (CountedAlike s s' calls calls') (fun _ => True) d (fun _ => True)
      (callBuiltin builtin arguments) (callBuiltin builtin arguments) := by
  intro m m' ⟨environments, related⟩
  have paired : Paired E (CountedAlike s s' calls calls') d (m.answered builtin arguments)
      (m'.answered builtin arguments) := ⟨environments, related.answered forgetful arguments⟩
  rw [callBuiltin_apply, callBuiltin_apply, forgetful m.hostCalls m'.hostCalls]
  cases (builtin.respond m.hostCalls arguments).failure with
  | some failure => exact .error trivial paired
  | none => exact .ok trivial paired

/-- Runs that differ in what was counted and called before them end alike. -/
lemma runProgram (h : CountedAlike s s' calls calls' m m') (scope : m'.environment = m.environment)
    {settings : Settings} (forgetful : settings.library.Forgetful) (limit : Nat)
    (program : Program) :
    EndAlike (Paired (SameObeying .any) (CountedAlike s s' calls calls') 0) (fun _ => True)
      (Obeying .any) (runProgram settings limit program m)
      (runProgram settings limit program m') := by
  have simulation : Simulation .any .silent .silent settings settings
      (Agree (SameObeying .any) (CountedAlike s s' calls calls') fun _ => True) :=
    (SameObeying.coupled .any).simulation_of_traceAlike traceAlike (fun _ => rfl)
      Conventions.stopsWithin_any trivial (fun _ found => callBuiltin (forgetful found) _)
      fun _ _ => .pure obeying_none
  rw [← runProgramObserved_silent]
  exact simulation.runProgramObserved limit 0 (Statement.allObey_any false program) m m'
    ⟨⟨scope, m.obeys_any⟩, h⟩

end CountedAlike

namespace Engine
open Statistics
variable {engine engine' : Engine}

/-- Runs beside the session on engines with the same library tell the same, apart from what was
counted before them. -/
lemma execute_independent (library : engine'.library = engine.library)
    (forgetful : engine.library.Forgetful) (limits : Limits) (program : Program) (verbosity : Int)
    (s s' : Option Statistics) :
    let report := (engine.execute limits program ⟨verbosity, s, false⟩).1
    ∃ names, report.statistics = s.map (.countAll names) ∧
      (engine'.execute limits program ⟨verbosity, s', false⟩).1 =
        { report with statistics := s'.map (.countAll names) } := by
  intro report
  let settings : Settings := ⟨engine.library, verbosity, limits.rounds⟩
  let m := engine.machineFor ⟨verbosity, s, false⟩
  let m' := engine'.machineFor ⟨verbosity, s', false⟩
  have start : CountedAlike s s' engine.hostCalls engine'.hostCalls m m' :=
    ⟨rfl, rfl, ⟨[], (map_countAll_nil s).symm, (map_countAll_nil s').symm⟩, ⟨[], rfl, rfl⟩⟩
  have alike : EndAlike _ _ _ (runProgram settings limits.depth program m)
      (runProgram settings limits.depth program m') :=
    start.runProgram rfl forgetful limits.depth program
  have told : report = _ := engine.execute_fst limits program ⟨verbosity, s, false⟩ rfl
  have told' := engine'.execute_fst limits program ⟨verbosity, s', false⟩
    (congrArg (fun l => runProgram ⟨l, verbosity, limits.rounds⟩ limits.depth program m') library)
  have related := alike.after.rest
  obtain ⟨names, counted, counted'⟩ := related.counted
  obtain ⟨own, called, called'⟩ := related.called
  refine ⟨names, by rw [told]; exact counted, ?_⟩
  rw [told', told, alike.result, related.history, called, called', counted', take_added, take_added]

/-- A script that runs beside the session within some room does the same whatever ran before, and
counts the same in addition. -/
lemma runWithin_independent (library : engine'.library = engine.library)
    (forgetful : engine.library.Forgetful) (limits : Limits) (room : Nat) (source : String)
    (verbosity : Int) (s s' : Option Statistics) :
    let report := (engine.runWithin limits room source ⟨verbosity, s, false⟩).1
    ∃ names, report.statistics = s.map (.countAll names) ∧
      (engine'.runWithin limits room source ⟨verbosity, s', false⟩).1 =
        { report with statistics := s'.map (.countAll names) } := by
  match read : parseWithin room source with
  | none =>
    rw [runWithin_of_none read, runWithin_of_none read]
    exact ⟨[], (map_countAll_nil s).symm, by rw [map_countAll_nil]⟩
  | some (.error e) =>
    rw [runWithin_of_malformed read, runWithin_of_malformed read]
    exact ⟨[], (map_countAll_nil s).symm, by rw [map_countAll_nil]⟩
  | some (.ok program) =>
    rw [runWithin_of_program read, runWithin_of_program read]
    exact execute_independent library forgetful limits program verbosity s s'

end Engine

end ScriptLang
