import ScriptLang.Proofs.Evaluation.Agreement
import ScriptLang.Proofs.Evaluation.Scopes
import ScriptLang.Proofs.Grammar.WellFormed

/-!
# What sessions hold

A run brings nothing into the environment that does not obey, if its program does. So a session that
was only given scripts to read holds nothing but functions whose bodies were read, and that goes for
every run that it is used in.
-/

namespace ScriptLang

/-- All reasons to stop are among all reasons. -/
lemma Conventions.stopsWithin_any {c : Conventions} : c.StopsWithin fun _ => True where
  fail _ := trivial
  locate _ _ := trivial
  fault _ := trivial
  nameless _ _ := trivial
  unfinished _ := trivial

/-- All reasons to stop a run are among all reasons. -/
lemma Library.stopsWithin_any (library : Library) : library.StopsWithin fun _ => True :=
  fun _ _ _ _ _ _ _ => trivial

/-- One more function that fails with these causes changes nothing. -/
lemma Library.FailsWithin.addBuiltin {causes : Cause → Prop} {library : Library}
    (h : library.FailsWithin causes) (name : String) {builtin : Builtin}
    (hb : builtin.FailsWithin causes) :
    Library.FailsWithin causes { library with builtins := library.builtins.set name builtin } := by
  intro other found e
  rw [Bindings.get?_set] at e
  split at e
  · cases e
    exact hb
  · exact h e

/-- The value of a run or why it stopped, apart from the state that it ended in. -/
def Run.result {α : Type} : EStateM.Result Interruption Machine α → Except Interruption α
  | .ok a _ => .ok a
  | .error stop _ => .error stop

/-- All that is in a state obeys. -/
def Machine.Obeys (c : Conventions) (m : Machine) : Prop :=
  m.environment.Holds (Value.Obeys c) (FunctionValue.Obeys c)

/-- Every state obeys where all is allowed. -/
lemma Machine.obeys_any (m : Machine) : m.Obeys .any := fun _ _ =>
  ⟨fun _ => Value.obeys_any _, fun _ => FunctionValue.obeys_any _⟩

section
variable {c : Conventions} {E : Nat → Scope → Scope → Prop} {R : Machine → Machine → Prop}
  {stops : Interruption → Prop}

/-- Runs that end alike end in states that are related. -/
lemma EndAlike.after {α : Type} {P : α → Prop} {r r' : EStateM.Result Interruption Machine α}
    (h : EndAlike R stops P r r') : R (Run.after r) (Run.after r') := by
  cases h with
  | ok _ related => exact related
  | error _ related => exact related

/-- Runs that end alike have the same result. -/
lemma EndAlike.result {α : Type} {P : α → Prop} {r r' : EStateM.Result Interruption Machine α}
    (h : EndAlike R stops P r r') : Run.result r' = Run.result r := by
  cases h with
  | ok _ _ => rfl
  | error _ _ => rfl

/-- States are the same if their environments are and the rest is. -/
lemma Paired.eq {d : Nat} {m m' : Machine} (h : Paired (SameObeying c) SameRecord d m m') :
    m' = m := h.rest.eq.trans (by rw [h.environments.eq])

/-- Runs that end alike in all respects are the same. -/
lemma EndAlike.eq {α : Type} {d : Nat} {P : α → Prop} {r r' : EStateM.Result Interruption Machine α}
    (h : EndAlike (Paired (SameObeying c) SameRecord d) stops P r r') : r' = r := by
  cases h with
  | ok _ same => rw [same.eq]
  | error _ same => rw [same.eq]

/-- A state that obeys is paired with itself. -/
lemma Machine.Obeys.paired {d : Nat} {m : Machine} (h : m.Obeys c) :
    Paired (SameObeying c) SameRecord d m m := ⟨⟨rfl, h⟩, .of_scope m m.environment⟩

/-- Silently observed runs agree with themselves, so all obeys throughout. -/
lemma simulation_silent (settings : Settings) :
    Simulation c .silent .silent settings settings
      (Agree (SameObeying c) SameRecord fun _ => True) :=
  (SameObeying.coupled c).simulation_of_recordAlike .sameRecord (fun _ => rfl)
    Conventions.stopsWithin_any trivial settings.library.stopsWithin_any fun _ _ =>
      .pure obeying_none

/-- After a program that obeys the state obeys. -/
lemma Machine.Obeys.after_runProgram {m : Machine} (h : m.Obeys c) (settings : Settings)
    (limit : Nat) {program : Program} (obeys : Statement.AllObey c false program) :
    (Run.after (runProgram settings limit program m)).Obeys c := by
  have run := (simulation_silent settings).runProgramObserved limit 0 obeys m m h.paired
  rw [runProgramObserved_silent] at run
  exact run.after.environments.holds

end

namespace Run
variable {α β : Type} {act : Run α} {f : α → Run β} {m m' : Machine}

/-- Behind a run that came to a value the next goes on. -/
lemma bind_of_ok {a : α} (h : act m = .ok a m') : (act >>= f) m = f a m' := by
  change EStateM.bind _ _ m = _
  unfold EStateM.bind
  rw [h]

/-- Behind a run that stopped nothing is done. -/
lemma bind_of_error {stop : Interruption} (h : act m = .error stop m') :
    (act >>= f) m = .error stop m' := by
  change EStateM.bind _ _ m = _
  unfold EStateM.bind
  rw [h]

end Run

/-- What a program comes to whose statements ended so. -/
def Run.ending : EStateM.Result Interruption Machine Signal →
    EStateM.Result Interruption Machine (Option Value)
  | .ok (.returned value) m => .ok value m
  | .ok .normal m => .ok none m
  | .ok signal m => .error (.failure (.error (.ofCause (.escapedSignal signal.label)))) m
  | .error .tooDeep m => .error (.failure (.error (.ofCause .depthExceeded))) m
  | .error stop m => .error stop m

/-- A program runs its statements and ends in what their signal means. -/
lemma runProgram_apply (settings : Settings) (limit : Nat) (program : Program) (m : Machine) :
    runProgram settings limit program m =
      Run.ending (Evaluation.executeBlock settings (evaluate settings limit) program m) := by
  change EStateM.bind (Run.reportingDepth _ _) _ m = _
  unfold EStateM.bind Run.reportingDepth
  cases Evaluation.executeBlock settings (evaluate settings limit) program m with
  | ok signal m' => cases signal <;> rfl
  | error stop m' => cases stop <;> rfl

namespace Engine

/-- The report on a run, given how it ended. -/
lemma execute_fst (engine : Engine) (limits : Limits) (program : Program) (options : Options)
    {r : EStateM.Result Interruption Machine (Option Value)}
    (h : runProgram ⟨engine.library, options.verbosity, limits.rounds⟩ limits.depth program
      (engine.machineFor options) = r) :
    (engine.execute limits program options).1 =
      { outcome := (Run.result r).mapError .ofInterruption
        events := (Run.after r).history.reverse
        hostCalls := ((Run.after r).hostCalls.take
          ((Run.after r).hostCalls.length - engine.hostCalls.length)).reverse
        statistics := (Run.after r).statistics } := by
  unfold execute
  dsimp only
  rw [h]
  cases r <;> rfl

/-- All that the session holds, if there is one, obeys. -/
def Obeys (c : Conventions) (engine : Engine) : Prop :=
  ∀ session ∈ engine.session, session.scope.Holds (Value.Obeys c) (FunctionValue.Obeys c)

/-- The engines that a host comes to if it runs only scripts in the session, and has functions that
fail with errors of some causes only. -/
inductive Scripted (causes : Cause → Prop) : Engine → Prop where
  | new {library : Library} : library.FailsWithin causes → Scripted causes (.new library)
  | run {engine} (limits : Limits) (source : String) (options : Options) :
    Scripted causes engine → Scripted causes (engine.run limits source options).2
  | execute {engine} (limits : Limits) (program : Program) {options : Options} :
    options.interactive = false → Scripted causes engine →
    Scripted causes (engine.execute limits program options).2
  | reset {engine} : Scripted causes engine → Scripted causes engine.reset
  | registerBuiltin {engine} (name : String) {candidate : Candidate} :
    (∀ builtin, candidate = .function builtin → builtin.FailsWithin causes) →
    Scripted causes engine → Scripted causes (engine.registerBuiltin name candidate).2
  | registerAlias {engine} (nickname name : String) :
    Scripted causes engine → Scripted causes (engine.registerAlias nickname name).2

variable {c : Conventions} {engine : Engine} {limits : Limits} {options : Options}

/-- A run on an engine that obeys starts in a state that obeys. -/
lemma Obeys.machineFor (h : engine.Obeys c) (options : Options) :
    (engine.machineFor options).Obeys c := by
  unfold Machine.Obeys Engine.machineFor Engine.sessionFor
  dsimp only
  split
  · cases e : engine.session with
    | none => exact Environment.holds_root
    | some session => exact h session e
  · exact Environment.holds_root

/-- A run that starts afresh starts with nothing that could break a convention. -/
lemma Obeys.of_fresh (engine : Engine) {options : Options} (fresh : options.interactive = false) :
    (engine.machineFor options).Obeys c := by
  have root : (engine.machineFor options).environment = .root := by
    unfold Engine.machineFor Engine.sessionFor
    rw [fresh]
    rfl
  show (engine.machineFor options).environment.Holds _ _
  rw [root]
  exact Environment.holds_root

/-- An engine obeys after a run that ended in a state that obeys. -/
lemma Obeys.after (h : engine.Obeys c) (options : Options) {m : Machine}
    (hm : options.interactive = true → m.Obeys c) : (engine.after options m).Obeys c := by
  intro session mem
  unfold Engine.after at mem
  dsimp only at mem
  split at mem
  case isTrue interactive =>
    cases mem
    exact hm interactive
  case isFalse => exact h session mem

/-- An engine obeys after a program that obeys. -/
lemma Obeys.execute (h : engine.Obeys c) (limits : Limits) {program : Program} (options : Options)
    (obeys : options.interactive = true → Statement.AllObey c false program) :
    (engine.execute limits program options).2.Obeys c := by
  rw [execute_snd]
  exact h.after options fun interactive =>
    (h.machineFor options).after_runProgram _ _ (obeys interactive)

/-- A script leaves the library. -/
lemma library_run (engine : Engine) (limits : Limits) (source : String) (options : Options) :
    (engine.run limits source options).2.library = engine.library := by
  unfold Engine.run
  split
  · rw [execute_snd]
    rfl
  · rfl

namespace Scripted
variable {causes : Cause → Prop}

/-- The functions of a scripted engine fail with these causes only. -/
lemma failsWithin (h : engine.Scripted causes) : engine.library.FailsWithin causes := by
  induction h with
  | new fails => exact fails
  | run limits source options _ ih =>
    rw [library_run]
    exact ih
  | execute limits program _ _ ih =>
    rw [execute_snd]
    exact ih
  | reset _ ih => exact ih
  | registerBuiltin name fails _ ih =>
    unfold Engine.registerBuiltin Library.addBuiltin
    split
    case h_1 e =>
      split at e
      · cases e
        exact ih.addBuiltin name (fails _ rfl)
      · cases e
    case h_2 => exact ih
  | registerAlias nickname name _ ih => exact ih

/-- A scripted engine obeys all that well formed programs do. -/
lemma obeys (C : c.AllowsWellFormed) (h : engine.Scripted causes) : engine.Obeys c := by
  induction h with
  | new => exact fun session mem => nomatch mem
  | run limits source options _ ih =>
    unfold Engine.run
    split
    case h_1 program parsed => exact ih.execute limits options fun _ => obeys_of_parse C parsed
    case h_2 => exact ih
  | execute limits program alone _ ih =>
    exact ih.execute limits _ fun interactive => absurd (alone.symm.trans interactive) nofun
  | reset => exact fun session mem => nomatch mem
  | registerBuiltin name fails _ ih =>
    unfold Engine.registerBuiltin
    split
    · exact ih
    · exact ih
  | registerAlias nickname name _ ih => exact ih

end Scripted

end Engine

end ScriptLang
