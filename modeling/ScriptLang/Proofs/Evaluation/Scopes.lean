import ScriptLang.Proofs.Evaluation.Leaves

/-!
# Scopes are closed again

Whatever an expression or a statement comes to, a value, a jump, an error of the script or of the
host, or the limit on nesting, the scopes that it opened are closed: an expression keeps the
environment it was evaluated in, and a statement at most adds names to the current frame of its own.
A call leaves no trace of its scope at all.
-/

namespace ScriptLang
open Environment (Keeps Extends)
open Run (Leaves Discipline)
open Run.Discipline (keeps adds)

namespace Evaluation
variable {settings : Settings} {evaluate : Evaluator}

section
variable {R : Scope → Scope → Prop} (D : Discipline R)
include D

/-- Traces of calls do not touch the environment. -/
lemma leaves_traceCall (name : String) (arguments : List Value) :
    Leaves R (traceCall settings name arguments) := by
  unfold traceCall
  split
  · exact .bind D (.get D) fun _ => .emit D _
  · exact .pure D _

/-- Traces of steps do not touch the environment. -/
lemma leaves_traceStep (statement : Statement) : Leaves R (traceStep settings statement) := by
  unfold traceStep
  split
  · split
    · exact .throw D _
    · exact .bind D (.get D) fun _ => .emit D _
  · exact .pure D _

/-- Counts of steps do not touch the environment. -/
lemma leaves_countStep : Leaves R countStep :=
  .bind D (fun m => D.refl m.environment) fun _ => .count D _

/-- Calls of the host do not touch the environment. -/
lemma leaves_callBuiltin (builtin : Builtin) (arguments : List Value) :
    Leaves R (callBuiltin builtin arguments) := by
  refine .of_get fun m => ?_
  cases (builtin.respond m.hostCalls arguments).failure with
  | none => exact D.refl m.environment
  | some failure => exact D.refl m.environment

/-- The search for a function does not touch the environment. -/
lemma leaves_namedCallee (name : String) : Leaves R (namedCallee name) := by
  refine .bind D (.get D) fun m => ?_
  dsimp only
  split
  · exact .pure D _
  · split
    · exact .pure D _
    · exact .fail D _

/-- The access to a member does not touch the environment. -/
lemma leaves_memberOf (target : Value) (name : String) : Leaves R (memberOf target name) := by
  unfold memberOf
  split
  · exact .pure D _
  · exact .pure D _
  · exact .fail D _

/-- The reading of an index does not touch the environment. -/
lemma leaves_placeOf (index : Value) : Leaves R (placeOf index) := by
  unfold placeOf
  split
  · split
    · exact .pure D _
    · exact .fail D _
  · exact .fail D _

/-- The access to an element does not touch the environment. -/
lemma leaves_elementAt {α : Type} (container : TypeName) (elements : List α) (place : Int) :
    Leaves R (elementAt container elements place) := by
  unfold elementAt
  split
  · exact .pure D _
  · exact .fail D _

/-- An access by an index does not touch the environment. -/
lemma leaves_indexOf (container index : Value) : Leaves R (indexOf container index) := by
  unfold indexOf
  split
  · exact .bind D (leaves_placeOf D _) fun _ => leaves_elementAt D _ _ _
  · exact .bind D (leaves_placeOf D _) fun _ =>
      .bind D (leaves_elementAt D _ _ _) fun _ => .pure D _
  · exact .fail D _

end

/-- An assignment keeps the environment. -/
lemma leaves_assign (name : String) (value : Value) : Leaves Keeps (assign name value) := by
  refine .of_get fun m => ?_
  cases h : m.environment.assign? name value with
  | none => exact keeps.refl _
  | some scope => exact Environment.keeps_of_assign? h

section
variable (E : ∀ e, Leaves Keeps (evaluate e))
include E

/-- An operand keeps the environment if evaluations do. -/
lemma leaves_valueOf (role : Role) (e : Expression) : Leaves Keeps (valueOf evaluate role e) := by
  refine .bind keeps (E e) fun found => ?_
  split
  · exact .pure keeps _
  · exact .fail keeps _

/-- Arguments keep the environment if evaluations do. -/
lemma leaves_argumentsOf (function : String) (number : Nat) (arguments : List Expression) :
    Leaves Keeps (argumentsOf evaluate function number arguments) := by
  induction arguments generalizing number with
  | nil => exact .pure keeps _
  | cons argument rest ih =>
    exact .bind keeps (leaves_valueOf E _ _) fun _ => .bind keeps (ih _) fun _ => .pure keeps _

/-- Elements keep the environment if evaluations do. -/
lemma leaves_elementsOf (elements : List Expression) :
    Leaves Keeps (elementsOf evaluate elements) := by
  induction elements with
  | nil => exact .pure keeps _
  | cons element rest ih =>
    exact .bind keeps (leaves_valueOf E _ _) fun _ => .bind keeps ih fun _ => .pure keeps _

/-- A condition keeps the environment if evaluations do. -/
lemma leaves_conditionOf (condition : Expression) :
    Leaves Keeps (conditionOf evaluate condition) := by
  refine .bind keeps (E condition) fun found => ?_
  split
  · exact .pure keeps _
  · exact .fail keeps _

/-- What a loop goes over keeps the environment if evaluations do. -/
lemma leaves_iterableOf (name : Option String) (iterable : Expression) :
    Leaves Keeps (iterableOf evaluate name iterable) := by
  refine .bind keeps (E iterable) fun found => ?_
  split
  · exact .pure keeps _
  · exact .fail keeps _

end

/-- A loop over values extends the environment if its rounds do. -/
lemma leaves_forEach {body : Value → Run Signal} (h : ∀ value, Leaves Extends (body value))
    (values : List Value) : Leaves Extends (forEach body values) := by
  induction values with
  | nil => exact .pure adds _
  | cons value rest ih =>
    refine .bind adds (h value) fun signal => ?_
    split
    · exact .pure adds _
    · exact .pure adds _
    · exact ih

/-- A loop without bound extends the environment if its rounds do. -/
lemma leaves_forever {body : Run Signal} (h : Leaves Extends body) (rounds : Nat) :
    Leaves Extends (forever body rounds) := by
  induction rounds with
  | zero => exact .throw adds _
  | succ rounds ih =>
    refine .bind adds h fun signal => ?_
    split
    · exact .pure adds _
    · exact .pure adds _
    · exact ih

/-- Each round of a loop may declare its name anew. -/
lemma leaves_round {body : Run Signal} (h : Leaves Extends body) (name : Option String)
    (value : Value) :
    Leaves Extends (do
      if let some name := name then Run.modifyScope (·.declare name value)
      body) := by
  cases name with
  | none => exact h
  | some name =>
    exact .bind adds (.modifyScope fun scope => Environment.extends_declare scope name value)
      fun _ => h

mutual

/-- A block extends the environment if evaluations keep it. -/
lemma leaves_executeBlock (E : ∀ e, Leaves Keeps (evaluate e)) (b : List Statement) :
    Leaves Extends (executeBlock settings evaluate b) := by
  cases b with
  | nil => exact .pure adds _
  | cons s rest =>
    refine .bind adds (leaves_execute E s) fun signal => ?_
    split
    · exact leaves_executeBlock E rest
    · exact .pure adds _

/-- A statement extends the environment if evaluations keep it. -/
lemma leaves_execute (E : ∀ e, Leaves Keeps (evaluate e)) (s : Statement) :
    Leaves Extends (execute settings evaluate s) := by
  cases s with
  | mk line form =>
    exact .bind adds (leaves_countStep adds) fun _ =>
      .bind adds (leaves_traceStep adds _) fun _ => .locatedAt (leaves_executeForm E form) _

/-- A form extends the environment if evaluations keep it. -/
lemma leaves_executeForm (E : ∀ e, Leaves Keeps (evaluate e)) (form : Form) :
    Leaves Extends (executeForm settings evaluate form) := by
  cases form with
  | declare name value =>
    refine .bind adds (E value).weaken fun found => ?_
    split
    · exact .bind adds (.modifyScope fun scope => Environment.extends_declare scope name _)
        fun _ => .pure adds _
    · exact .fail adds _
  | define name parameters body =>
    exact .bind adds (.modifyScope fun scope => Environment.extends_define scope name _)
      fun _ => .pure adds _
  | branch condition consequent alternative =>
    -- The recursion goes through the alternative, so this case opens by its equation only.
    unfold executeForm
    refine .bind adds (leaves_conditionOf E condition).weaken fun test => ?_
    cases test with
    | true => exact leaves_executeBlock E consequent
    | false => exact leaves_alternative E alternative
  | loop body name iterable =>
    cases iterable with
    | none => exact (Leaves.inLoop (leaves_forever (leaves_executeBlock E body) _)).weaken
    | some iterable =>
      refine .bind adds (leaves_iterableOf E name iterable).weaken fun values => ?_
      -- All the rounds share one scope, which is closed behind the last of them.
      have rounds := leaves_forEach (leaves_round (leaves_executeBlock E body) name) values
      exact (Leaves.inLoop rounds).weaken
  | returns value =>
    cases value with
    | none => exact .pure adds _
    | some value => exact .bind adds (E value).weaken fun _ => .pure adds _
  | breakLoop => exact .pure adds _
  | continueLoop => exact .pure adds _
  | evaluate e => exact .bind adds (Leaves.discard (E e).weaken) fun _ => .pure adds _
  | unknown => exact .fail adds _

/-- An alternative extends the environment if evaluations keep it. -/
lemma leaves_alternative (E : ∀ e, Leaves Keeps (evaluate e))
    (alternative : Option (List Statement)) :
    Leaves Extends (match alternative with
      | some block => executeBlock settings evaluate block
      | none => return .normal) := by
  cases alternative with
  | none => exact .pure adds _
  | some block => exact leaves_executeBlock E block

end

section
variable (E : ∀ e, Leaves Keeps (evaluate e))
include E

/-- A loop keeps the environment around it. -/
lemma leaves_loop (body : List Statement) (name : Option String) (iterable : Option Expression) :
    Leaves Keeps (executeForm settings evaluate (.loop body name iterable)) := by
  cases iterable with
  | none => exact .inLoop (leaves_forever (leaves_executeBlock E body) _)
  | some iterable =>
    refine .bind keeps (leaves_iterableOf E name iterable) fun values => ?_
    exact .inLoop (leaves_forEach (leaves_round (leaves_executeBlock E body) name) values)

omit E in
/-- Parameters extend the environment. -/
lemma leaves_bindAll (parameters : List String) (arguments : List Value) :
    Leaves Extends (bindAll parameters arguments) := by
  refine .modifyScope fun scope => ?_
  -- The induction is on the pairs, each of which adds to the scope the earlier ones left.
  induction parameters.zip arguments generalizing scope with
  | nil => exact adds.refl scope
  | cons pair rest ih =>
    exact adds.trans (Environment.extends_bind scope pair.1 pair.2) (ih _)

/-- A call of a function leaves the whole environment as it was. -/
lemma leaves_callFunction (function : FunctionValue) (arguments : List Value) :
    Leaves Eq (callFunction settings evaluate function arguments) := by
  have body : Leaves Eq (Run.inScope true do
      bindAll function.parameters arguments
      executeBlock settings evaluate function.body) :=
    .inCall (.bind adds (leaves_bindAll _ _) fun _ => leaves_executeBlock E _)
  unfold callFunction
  split
  · exact .fail .eq _
  · refine .bind .eq (.count .eq _) fun _ => .bind .eq (leaves_traceCall .eq _ _) fun _ => ?_
    refine .bind .eq (body.reportingDepth _) fun signal => ?_
    split
    · exact .pure .eq _
    · exact .pure .eq _

/-- The call of a value keeps the environment if evaluations do. -/
lemma leaves_callValue (name : Option String) (callee : Value) (arguments : List Expression) :
    Leaves Keeps (callValue settings evaluate name callee arguments) := by
  unfold callValue
  split
  · exact .bind keeps (leaves_argumentsOf E _ _ _) fun _ =>
      .of_eq keeps (leaves_callFunction E _ _)
  · exact .fail keeps _

/-- A call keeps the environment if evaluations do. -/
lemma leaves_call (callee : Expression) (arguments : List Expression) :
    Leaves Keeps (call settings evaluate callee arguments) := by
  unfold call
  split
  · split
    · refine .bind keeps (leaves_argumentsOf E _ _ _) fun values => ?_
      split
      · exact .fail keeps _
      · exact .bind keeps (leaves_traceCall keeps _ _) fun _ =>
          .bind keeps (leaves_callBuiltin keeps _ _) fun _ => .pure keeps _
    · exact .bind keeps (leaves_namedCallee keeps _) fun _ => leaves_callValue E _ _ _
  · exact .bind keeps (leaves_valueOf E _ _) fun _ => leaves_callValue E _ _ _

/-- Evaluating an expression keeps the environment, if the expressions inside keep it. -/
lemma leaves_evaluateWith (e : Expression) : Leaves Keeps (evaluateWith settings evaluate e) := by
  cases e with
  | number | string | boolean | function => exact .pure keeps _
  | identifier name =>
    refine .bind keeps (.get keeps) fun m => ?_
    split
    · exact .pure keeps _
    · exact .fail keeps _
  | assign target value =>
    cases target with
    | identifier name =>
      exact .bind keeps (leaves_valueOf E _ _) fun _ =>
        .bind keeps (leaves_assign _ _) fun _ => .pure keeps _
    | _ => exact .fail keeps _
  | binary left operator right =>
    refine .bind keeps (leaves_valueOf E _ _) fun _ => ?_
    refine .bind keeps (leaves_valueOf E _ _) fun _ => ?_
    exact .bind keeps (.ofExcept keeps _) fun _ => .pure keeps _
  | unary operator operand =>
    refine .bind keeps (leaves_valueOf E _ _) fun _ => ?_
    exact .bind keeps (.ofExcept keeps _) fun _ => .pure keeps _
  | call callee arguments => exact leaves_call E callee arguments
  | list elements => exact .bind keeps (leaves_elementsOf E _) fun _ => .pure keeps _
  | member target name =>
    exact .bind keeps (leaves_valueOf E _ _) fun _ =>
      .bind keeps (leaves_memberOf keeps _ _) fun _ => .pure keeps _
  | index target place =>
    refine .bind keeps (leaves_valueOf E _ _) fun _ => ?_
    refine .bind keeps (leaves_valueOf E _ _) fun _ => ?_
    exact .bind keeps (leaves_indexOf keeps _ _) fun _ => .pure keeps _
  | unknown => exact .fail keeps _

end

end Evaluation

/-- Evaluating an expression keeps the environment, whatever the limit. -/
lemma leaves_evaluate (settings : Settings) (limit : Nat) (e : Expression) :
    Leaves Keeps (evaluate settings limit e) := by
  -- Functions that are called are run with a smaller limit than the call.
  induction limit generalizing e with
  | zero => exact .throw keeps _
  | succ limit ih => exact Evaluation.leaves_evaluateWith ih e

/-- A program extends the environment. -/
lemma leaves_runProgram (settings : Settings) (limit : Nat) (program : Program) :
    Leaves Extends (runProgram settings limit program) := by
  have body : Leaves Extends
      (Evaluation.executeBlock settings (evaluate settings limit) program) :=
    Evaluation.leaves_executeBlock (leaves_evaluate settings limit) program
  refine .bind adds (body.reportingDepth _) fun signal => ?_
  split
  · exact .pure adds _
  · exact .pure adds _
  · exact .fail adds _

/-- A loop keeps the environment around it. -/
lemma leaves_execute_loop (settings : Settings) (limit : Nat) (line : Option Int)
    (body : List Statement) (name : Option String) (iterable : Option Expression) :
    Leaves Keeps (execute settings limit (.mk line (.loop body name iterable))) := by
  refine .bind keeps (Evaluation.leaves_countStep keeps) fun _ => ?_
  refine .bind keeps (Evaluation.leaves_traceStep keeps _) fun _ => .locatedAt ?_ _
  exact Evaluation.leaves_loop (leaves_evaluate settings limit) body name iterable

namespace Engine

/-- The engines that a host can come to. -/
inductive Reachable : Engine → Prop where
  | new (library : Library) : Reachable (.new library)
  | execute {engine} (limits : Limits) (program : Program) (options : Options) :
    Reachable engine → Reachable (engine.execute limits program options).2
  | run {engine} (limits : Limits) (source : String) (options : Options) :
    Reachable engine → Reachable (engine.run limits source options).2
  | reset {engine} : Reachable engine → Reachable engine.reset
  | registerBuiltin {engine} (name : String) (candidate : Candidate) :
    Reachable engine → Reachable (engine.registerBuiltin name candidate).2
  | registerAlias {engine} (nickname name : String) :
    Reachable engine → Reachable (engine.registerAlias nickname name).2

/-- The session, if there is one, is in no scope but the root. -/
def AtRoot (engine : Engine) : Prop := ∀ session ∈ engine.session, session.scope.depth = 0

variable {engine : Engine} {limits : Limits} {options : Options}

/-- The engine after a run is the one after the state that the run ended in. -/
lemma execute_snd (engine : Engine) (limits : Limits) (program : Program) (options : Options) :
    (engine.execute limits program options).2 =
      engine.after options (Run.after (runProgram
        ⟨engine.library, options.verbosity, limits.rounds⟩ limits.depth program
        (engine.machineFor options))) := by
  unfold execute
  dsimp only
  split
  case h_1 e => rw [e, Run.after]
  case h_2 e => rw [e, Run.after]

/-- A run starts at the outermost scope. -/
lemma AtRoot.depth_machineFor (h : engine.AtRoot) (options : Options) :
    (engine.machineFor options).environment.depth = 0 := by
  unfold machineFor sessionFor
  dsimp only
  split
  case isTrue =>
    cases e : engine.session with
    | none => rfl
    | some session => exact h session e
  case isFalse => rfl

/-- A run ends at the outermost scope. -/
lemma AtRoot.depth_after (h : engine.AtRoot) (settings : Settings) (program : Program)
    (options : Options) (limit : Nat) :
    (Run.after (runProgram settings limit program
      (engine.machineFor options))).environment.depth = 0 :=
  (leaves_runProgram settings limit program _).depth.trans (h.depth_machineFor options)

/-- After a program the engine is at the outermost scope. -/
lemma AtRoot.execute (h : engine.AtRoot) (limits : Limits) (program : Program)
    (options : Options) : (engine.execute limits program options).2.AtRoot := by
  intro session mem
  rw [execute_snd] at mem
  unfold Engine.after at mem
  dsimp only at mem
  split at mem
  case isTrue =>
    cases mem
    exact h.depth_after _ program options limits.depth
  case isFalse => exact h session mem

/-- After a script the engine is at the outermost scope. -/
lemma AtRoot.run (h : engine.AtRoot) (limits : Limits) (source : String) (options : Options) :
    (engine.run limits source options).2.AtRoot := by
  unfold Engine.run
  split
  · exact h.execute limits _ options
  · exact h

/-- Every engine that can be reached is at the outermost scope. -/
lemma Reachable.atRoot (h : engine.Reachable) : engine.AtRoot := by
  induction h with
  | new library => exact fun session mem => nomatch mem
  | execute limits program options _ ih => exact ih.execute limits program options
  | run limits source options _ ih => exact ih.run limits source options
  | reset => exact fun session mem => nomatch mem
  | registerBuiltin name candidate _ ih =>
    unfold Engine.registerBuiltin
    split
    · exact ih
    · exact ih
  | registerAlias nickname name _ ih => exact ih

end Engine

/-- However they end, statements and blocks at most add names to the current frame, expressions and
loops keep every frame, and a call of a function leaves the environment as it was. A session is at
the root after every script. -/
theorem scope_discipline (settings : Settings) (limit : Nat) :
    (∀ s, Leaves Extends (execute settings limit s)) ∧
    (∀ b, Leaves Extends (Evaluation.executeBlock settings (evaluate settings limit) b)) ∧
    (∀ e, Leaves Keeps (evaluate settings limit e)) ∧
    (∀ callee arguments,
      Leaves Keeps (Evaluation.call settings (evaluate settings limit) callee arguments)) ∧
    (∀ function arguments,
      Leaves Eq (Evaluation.callFunction settings (evaluate settings limit) function arguments)) ∧
    (∀ line body name iterable,
      Leaves Keeps (execute settings limit (.mk line (.loop body name iterable)))) ∧
    ∀ engine : Engine, engine.Reachable → ∀ limits options, options.interactive = true →
      (∀ program, ∃ session, (engine.execute limits program options).2.session = some session ∧
        session.scope.depth = 0) ∧
      ∀ source, ∀ session ∈ (engine.run limits source options).2.session,
        session.scope.depth = 0 := by
  have E := leaves_evaluate settings limit
  refine ⟨Evaluation.leaves_execute E, Evaluation.leaves_executeBlock E, E,
    Evaluation.leaves_call E, Evaluation.leaves_callFunction E,
    leaves_execute_loop settings limit, ?_⟩
  intro engine reachable limits options interactive
  refine ⟨fun program => ?_, fun source => reachable.atRoot.run limits source options⟩
  rw [Engine.execute_snd]
  unfold Engine.after
  rw [if_pos interactive]
  exact ⟨_, rfl, reachable.atRoot.depth_after _ program options limits.depth⟩

end ScriptLang
