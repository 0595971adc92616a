import ScriptLang.Proofs.Evaluation.Raising
import ScriptLang.Proofs.Evaluation.WellFormedRuns

/-!
# What a run is busy with

A run is busy with tasks inside of one another: it evaluates expressions and runs statements.
`Begins` says which tasks a task begins, and in which states, in the order in which things are done:
the operands of an operation, the arguments of a call and the statements of a body. If a task stops
with an error of the script, then so does the task that began it (`Begins.failsWith`), and a task
stops with one only because a task that it began does, or because it raises one itself
(`Task.origin`).
-/

namespace ScriptLang
open Evaluation

/-- The expressions that an evaluation begins with, one after the other. -/
def Expression.operands : Expression → List Expression
  | .binary left _ right => [left, right]
  | .unary _ operand => [operand]
  | .list elements => elements
  | .assign (.identifier _) value => [value]
  | .member target _ => [target]
  | .index target place => [target, place]
  | .call (.identifier _) _ => []
  | .call callee _ => [callee]
  | _ => []

namespace Evaluation
variable {settings : Settings} {E : Evaluator} {m : Machine} {e : ScriptError}

/-- Nothing more occurs in a run that only raises errors. -/
lemma passes_rest {α : Type} {act : Run α} (h : act.OnlyRaises settings) :
    act.Passes settings m (OccursAmong E (· ≠ none) [] m) :=
  (Run.Passes.of_only h).congr fun _ => iff_of_false id not_occursAmong_nil

/-- An operand is a value that the expression came to. -/
lemma valueOf_eq_ok_iff {role : Role} {x : Expression} {v : Value} {n : Machine} :
    valueOf E role x m = .ok v n ↔ E x m = .ok (some v) n := by
  change EStateM.bind (E x) _ m = _ ↔ _
  unfold EStateM.bind
  cases E x m with
  | error stop m' => exact ⟨nofun, nofun⟩
  | ok result m' =>
    cases result with
    | none => exact ⟨nofun, nofun⟩
    | some w =>
      constructor
      · rintro ⟨⟩
        rfl
      · rintro ⟨⟩
        rfl

/-- An expression that has to yield a value, before those that are evaluated after it. -/
lemma passes_operand {α : Type} {role : Role} {x : Expression} {rest : List Expression}
    {next : Value → Run α}
    (h : ∀ v n, (next v).Passes settings n (OccursAmong E (· ≠ none) rest n)) :
    (valueOf E role x >>= next).Passes settings m (OccursAmong E (· ≠ none) (x :: rest) m) := by
  have value : (valueOf E role x).Passes settings m ((E x).FailsWith m) := by
    refine .andThen (.refl _ m) fun result => ?_
    cases result with
    | none => exact .fail _
    | some => exact .pure _
  refine (value.bind fun v n _ => h v n).congr fun e => ?_
  rw [occursAmong_cons_iff]
  refine or_congr_right ⟨?_, ?_⟩
  · rintro ⟨v, n, ran, occurs⟩
    exact ⟨some v, n, valueOf_eq_ok_iff.1 ran, Option.some_ne_none v, occurs⟩
  · rintro ⟨result, n, ran, isValue, occurs⟩
    obtain ⟨v, rfl⟩ := Option.ne_none_iff_exists'.1 isValue
    exact ⟨v, n, valueOf_eq_ok_iff.2 ran, occurs⟩

/-- What goes wrong in arguments goes wrong in one of them. -/
lemma passes_argumentsOf (function : String) (number : Nat) (arguments : List Expression)
    (m : Machine) : (argumentsOf E function number arguments).Passes settings m
      (OccursAmong E (· ≠ none) arguments m) := by
  induction arguments generalizing number m with
  | nil => exact passes_rest (.pure _)
  | cons argument rest ih => exact passes_operand fun _ n => (ih _ n).andThen fun _ => .pure _

/-- What goes wrong in elements goes wrong in one of them. -/
lemma passes_elementsOf (elements : List Expression) (m : Machine) :
    (elementsOf E elements).Passes settings m (OccursAmong E (· ≠ none) elements m) := by
  induction elements generalizing m with
  | nil => exact passes_rest (.pure _)
  | cons element rest ih => exact passes_operand fun _ n => (ih n).andThen fun _ => .pure _

/-- What goes wrong in a condition goes wrong in the expression. -/
lemma passes_conditionOf (condition : Expression) :
    (conditionOf E condition).Passes settings m ((E condition).FailsWith m) := by
  refine .andThen (.refl _ m) fun result => ?_
  split
  · exact .pure _
  · exact .fail _

/-- What goes wrong where a list is asked for goes wrong in the expression. -/
lemma passes_iterableOf (name : Option String) (iterable : Expression) :
    (iterableOf E name iterable).Passes settings m ((E iterable).FailsWith m) := by
  refine .andThen (.refl _ m) fun result => ?_
  split
  · exact .pure _
  · exact .fail _

/-- What is called: a function of the host or one of the script. -/
inductive Callee where
  | host (name : String) (builtin : Builtin)
  | script (function : FunctionValue)

/-- The name that messages about the arguments of a call give. -/
def Callee.name : Callee → String
  | host name _ => name
  | script function => function.name

/-- The function that a value is. -/
def functionIn (name : Option String) : Value → Run Callee
  | .function function => return .script function
  | value => Run.fail (.notCallable value.typeName name)

/-- What an expression calls. -/
def calleeOf (settings : Settings) (E : Evaluator) : Expression → Run Callee
  | .identifier name =>
    match settings.library.builtin? name with
    | some builtin => return .host name builtin
    | none => do functionIn (some name) (← namedCallee name)
  | callee => do functionIn none (← valueOf E .callee callee)

/-- Calls what was found with arguments that were evaluated. -/
def callFound (settings : Settings) (E : Evaluator) : Callee → List Value → Run (Option Value)
  | .host name builtin, values =>
    match settings.library.checkArguments name values.length with
    | .error cause => Run.fail cause
    | .ok () => do
      performBuiltin settings name builtin values
      return none
  | .script function, values => callFunction settings E function values

/-- A call finds what it calls, evaluates the arguments and calls. -/
lemma call_eq (callee : Expression) (arguments : List Expression) :
    call settings E callee arguments = (do
      let found ← calleeOf settings E callee
      let values ← argumentsOf E found.name 1 arguments
      callFound settings E found values) := by
  have value (name : Option String) (v : Value) :
      callValue settings E name v arguments = (do
        let found ← functionIn name v
        let values ← argumentsOf E found.name 1 arguments
        callFound settings E found values) := by
    cases v <;> rfl
  cases callee with
  | identifier name =>
    unfold call calleeOf
    dsimp only
    cases settings.library.builtin? name with
    | none => simp only [value, bind_assoc]
    | some builtin =>
      refine bind_congr fun values => ?_
      unfold callFound
      dsimp only
      cases settings.library.checkArguments name values.length with
      | error cause => rfl
      | ok _ => exact (bind_assoc ..).symm
  | _ =>
    unfold call calleeOf
    simp only [value, bind_assoc]

/-- What is done before the body of a function runs: the call is counted and traced, and the
parameters get their arguments in a scope of their own. -/
def enterCall (settings : Settings) (function : FunctionValue) (values : List Value) :
    Run Unit := do
  announceCall .silent settings function values
  Run.modifyScope (·.push true)
  bindAll function.parameters values

/-- The search for a function in a value only raises errors. -/
lemma functionIn_onlyRaises (name : Option String) (v : Value) :
    (functionIn name v).OnlyRaises settings := by
  cases v with
  | function => exact .pure _
  | number | string | boolean | list => exact .fail _

/-- What is done before a body only raises errors. -/
lemma enterCall_onlyRaises (function : FunctionValue) (values : List Value) :
    (enterCall settings function values).OnlyRaises settings :=
  .bind (.bind (.pure _) fun _ => .bind (.modify _) fun _ => .traceCall _ _) fun _ =>
    .bind (.modify _) fun _ => .modify _

/-- What goes wrong in the body of a function that is called: one of its statements stops with an
error. -/
def OccursInBody (settings : Settings) (E : Evaluator) (function : FunctionValue)
    (values : List Value) (m : Machine) (e : ScriptError) : Prop :=
  values.length = function.arity ∧ ∃ a n, enterCall settings function values m = .ok a n ∧
    OccursAmong (execute settings E) (· = .normal) function.body n e

/-- What goes wrong in a body goes wrong in one of its statements. -/
lemma passes_runBody (function : FunctionValue) (values : List Value) (m : Machine) :
    Run.Passes settings (do
      announceCall .silent settings function values
      finishCall .silent (← runBody settings E function values) : Run (Option Value)) m fun e =>
        ∃ a n, enterCall settings function values m = .ok a n ∧
          OccursAmong (execute settings E) (· = .normal) function.body n e := by
  have body (n : Machine) : (runBody settings E function values).Passes settings n
      ((do
        Run.modifyScope (·.push true)
        bindAll function.parameters values
        executeBlock settings E function.body).FailsWith n) :=
    .reportingDepth (.inScope (.refl _ _))
  have finish (signal : Signal) : (finishCall .silent signal).OnlyRaises settings := by
    cases signal <;> exact .pure _
  have entered : (do
      announceCall .silent settings function values
      Run.modifyScope (·.push true)
      bindAll function.parameters values
      executeBlock settings E function.body) = (do
        enterCall settings function values
        executeBlock settings E function.body) := by
    simp only [enterCall, bind_assoc]
  refine .trans (.bind_congr fun _ n => (body n).andThen finish) ?_
  rw [entered]
  exact .following (enterCall_onlyRaises function values) fun _ n =>
    .congr (.refl _ n) fun _ => executeBlock_failsWith_iff

/-- What goes wrong in the call of a function goes wrong in its body. -/
lemma passes_callFunction (function : FunctionValue) (values : List Value) (m : Machine) :
    (callFunction settings E function values).Passes settings m
      (OccursInBody settings E function values m) := by
  rw [← callObserved_silent]
  unfold callObserved
  split
  case isTrue wrong =>
    exact (Run.Passes.of_only (.fail _)).congr fun _ => iff_of_false id fun occurs => wrong occurs.1
  case isFalse right =>
    exact (passes_runBody function values m).congr fun _ =>
      (and_iff_right (of_not_not right)).symm

/-- What goes wrong where a callee is looked for goes wrong in the operands of the call. -/
lemma passes_calleeOf (callee : Expression) (arguments : List Expression) :
    (calleeOf settings E callee).Passes settings m
      (OccursAmong E (· ≠ none) (callee.call arguments).operands m) := by
  cases callee with
  | identifier name =>
    refine passes_rest ?_
    unfold calleeOf
    dsimp only
    cases settings.library.builtin? name with
    | some builtin => exact .pure _
    | none => exact .bind (.namedCallee name) fun v => functionIn_onlyRaises _ v
  | _ => exact passes_operand fun v n => passes_rest (functionIn_onlyRaises none v)

/-- What is called as a function of the host is in the library. -/
lemma calleeOf_yields (callee : Expression) :
    (calleeOf settings E callee).Yields fun found => ∀ name builtin, found = .host name builtin →
      settings.library.builtin? name = some builtin := by
  have script (name : Option String) (v : Value) : (functionIn name v).Yields fun found =>
      ∀ name builtin, found = .host name builtin →
        settings.library.builtin? name = some builtin := by
    cases v with
    | function => exact .pure fun _ _ => nofun
    | number | string | boolean | list => exact .throw _
  cases callee with
  | identifier name =>
    unfold calleeOf
    dsimp only
    cases found : settings.library.builtin? name with
    | some builtin =>
      refine .pure ?_
      rintro _ _ ⟨⟩
      exact found
    | none => exact .bind fun v => script _ v
  | _ => exact .bind fun v => script _ v

/-- What goes wrong in a call with values goes wrong in the body of a function. -/
lemma passes_callFound (found : Callee) (values : List Value)
    (library : ∀ name builtin, found = .host name builtin →
      settings.library.builtin? name = some builtin) :
    (callFound settings E found values).Passes settings m fun e =>
      ∃ function, found = .script function ∧ OccursInBody settings E function values m e := by
  cases found with
  | host name builtin =>
    have only : (callFound settings E (.host name builtin) values).OnlyRaises settings := by
      unfold callFound
      dsimp only
      cases settings.library.checkArguments name values.length with
      | error cause => exact .fail cause
      | ok _ => exact .bind (.performBuiltin (library name builtin rfl) values) fun _ => .pure _
    refine (Run.Passes.of_only only).congr fun e => iff_of_false id ?_
    rintro ⟨_, ⟨⟩, _⟩
  | script function =>
    refine (passes_callFunction function values m).congr fun e => ?_
    constructor
    · exact fun occurs => ⟨function, rfl, occurs⟩
    · rintro ⟨_, ⟨⟩, occurs⟩
      exact occurs

/-- What goes wrong in a call goes wrong in its operands, its arguments or the body. -/
lemma passes_call (callee : Expression) (arguments : List Expression) :
    (call settings E callee arguments).Passes settings m fun e =>
      OccursAmong E (· ≠ none) (callee.call arguments).operands m e ∨
      ∃ found n, calleeOf settings E callee m = .ok found n ∧
        (OccursAmong E (· ≠ none) arguments n e ∨
        ∃ values k, argumentsOf E found.name 1 arguments n = .ok values k ∧
          ∃ function, found = .script function ∧
            OccursInBody settings E function values k e) := by
  rw [call_eq]
  refine .bind (passes_calleeOf callee arguments) fun found n ran => ?_
  refine .bind (passes_argumentsOf _ _ arguments n) fun values k _ => ?_
  exact passes_callFound found values (calleeOf_yields callee m found n ran)

/-- What goes wrong in an evaluation without a call goes wrong in its operands. -/
lemma passes_evaluateWith {x : Expression}
    (notCall : ∀ callee arguments, x ≠ .call callee arguments) :
    (evaluateWith settings E x).Passes settings m
      (OccursAmong E (· ≠ none) x.operands m) := by
  cases x with
  | number | string | boolean | function => exact passes_rest (.pure _)
  | identifier name =>
    refine passes_rest (.get fun m => ?_)
    split
    · exact .pure _
    · exact .fail _
  | binary left operator right =>
    refine passes_operand fun a _ => passes_operand fun b _ => passes_rest ?_
    exact .bind (.ofExcept (operator.ordinary_applyBinary a b)) fun _ => .pure _
  | unary operator operand =>
    refine passes_operand fun a _ => passes_rest ?_
    exact .bind (.ofExcept (operator.ordinary_applyUnary a)) fun _ => .pure _
  | list elements => exact (passes_elementsOf elements m).andThen fun _ => .pure _
  | assign target value =>
    cases target with
    | identifier name =>
      exact passes_operand fun v _ => passes_rest (.bind (.assign name v) fun _ => .pure _)
    | _ => exact passes_rest (.fail _)
  | call callee arguments => exact absurd rfl (notCall callee arguments)
  | member target name =>
    exact passes_operand fun v _ => passes_rest (.bind (.memberOf v name) fun _ => .pure _)
  | index target place =>
    refine passes_operand fun v _ => passes_operand fun i _ => passes_rest ?_
    exact .bind (.indexOf v i) fun _ => .pure _
  | unknown => exact passes_rest (.fail _)

end Evaluation

/-- The expression that a statement begins with. -/
def Form.head? : Form → Option Expression
  | .declare _ value => some value
  | .branch condition _ _ => some condition
  | .loop _ _ iterable => iterable
  | .returns value => value
  | .evaluate e => some e
  | _ => none

/-- The state in which a loop begins to go round. -/
def Machine.inLoop (m : Machine) : Machine :=
  { m with environment := m.environment.push false }

namespace Evaluation
variable {settings : Settings} {E : Evaluator} {m : Machine} {e : ScriptError}

/-- What is done before each round of a loop that goes over a list. -/
def enterRound (name : Option String) (value : Value) : Run Unit :=
  match name with
  | some name => Run.modifyScope (·.declare name value)
  | none => return

/-- A round of a loop that goes over a list. -/
def round (settings : Settings) (E : Evaluator) (body : List Statement) (name : Option String)
    (value : Value) : Run Signal := do
  enterRound name value
  executeBlock settings E body

/-- Of the statements inside of a statement, one begins in a state, when what is outside is begun in
a state. -/
inductive BeginsIn (settings : Settings) (E : Evaluator) :
    Form → Machine → Statement → Machine → Prop where
  | consequent {condition consequent alternative m m' s n} :
    conditionOf E condition m = .ok true m' →
    Starts (execute settings E) (· = .normal) consequent m' s n →
    BeginsIn settings E (.branch condition consequent alternative) m s n
  | alternative {condition consequent alternative m m' s n} :
    conditionOf E condition m = .ok false m' →
    Starts (execute settings E) (· = .normal) alternative m' s n →
    BeginsIn settings E (.branch condition consequent (some alternative)) m s n
  | element {body name iterable values value m m' k k' s n} :
    iterableOf E name iterable m = .ok values m' →
    Starts (round settings E body name) GoesRound values m'.inLoop value k →
    enterRound name value k = .ok () k' →
    Starts (execute settings E) (· = .normal) body k' s n →
    BeginsIn settings E (.loop body name (some iterable)) m s n
  | round {body name m k s n} :
    Starts (fun _ => executeBlock settings E body) GoesRound (List.replicate settings.rounds ())
      m.inLoop () k →
    Starts (execute settings E) (· = .normal) body k s n →
    BeginsIn settings E (.loop body name none) m s n

/-- What goes wrong inside of a statement: an evaluation or a statement in it stops with an
error. -/
def OccursIn (settings : Settings) (E : Evaluator) (form : Form) (m : Machine) (e : ScriptError) :
    Prop :=
  (∃ x, form.head? = some x ∧ (E x).FailsWith m e) ∨
    ∃ s n, BeginsIn settings E form m s n ∧ (execute settings E s).FailsWith n e

/-- In a statement that evaluates an expression and has no statements inside, the evaluation is all
that may go wrong besides what the statement raises. -/
lemma passes_head {form : Form} {x : Expression} {next : Option Value → Run Signal}
    (same : executeForm settings E form = E x >>= next) (head : form.head? = some x)
    (leaf : ∀ s n, ¬ BeginsIn settings E form m s n)
    (own : ∀ result, (next result).OnlyRaises settings) :
    (executeForm settings E form).Passes settings m (OccursIn settings E form m) := by
  rw [same]
  refine ((Run.Passes.refl (E x) m).andThen own).congr fun e => ?_
  constructor
  · exact fun failed => .inl ⟨x, head, failed⟩
  · rintro (⟨y, head', failed⟩ | ⟨s, n, begins, _⟩)
    · obtain rfl := Option.some.inj (head.symm.trans head')
      exact failed
    · exact absurd begins (leaf s n)

/-- A statement with nothing inside only raises errors. -/
lemma passes_leaf {form : Form} (own : (executeForm settings E form).OnlyRaises settings)
    (head : form.head? = none) (leaf : ∀ s n, ¬ BeginsIn settings E form m s n) :
    (executeForm settings E form).Passes settings m (OccursIn settings E form m) := by
  refine (Run.Passes.of_only own).congr fun e => iff_of_false id ?_
  rintro (⟨_, head', _⟩ | ⟨s, n, begins, _⟩)
  · cases head.symm.trans head'
  · exact absurd begins (leaf s n)

/-- What goes wrong in a block goes wrong in one of its statements. -/
lemma passes_executeBlock (b : List Statement) (m : Machine) :
    (executeBlock settings E b).Passes settings m
      (OccursAmong (execute settings E) (· = .normal) b m) :=
  .congr (.refl _ m) fun _ => executeBlock_failsWith_iff

/-- A condition without an alternative has one that is empty. -/
lemma executeForm_branch (condition : Expression) (consequent : List Statement)
    (alternative : Option (List Statement)) :
    executeForm settings E (.branch condition consequent alternative) =
      conditionOf E condition >>= fun test =>
        executeBlock settings E (if test then consequent else alternative.getD []) := by
  unfold executeForm
  refine bind_congr fun test => ?_
  cases test with
  | true => rfl
  | false =>
    cases alternative with
    | some block => rfl
    | none => rfl

/-- What goes wrong in a conditional goes wrong in its condition or in a block of it. -/
lemma passes_branch (condition : Expression) (consequent : List Statement)
    (alternative : Option (List Statement)) (m : Machine) :
    (executeForm settings E (.branch condition consequent alternative)).Passes settings m
      (OccursIn settings E (.branch condition consequent alternative) m) := by
  rw [executeForm_branch]
  refine ((passes_conditionOf condition).bind fun test n _ =>
    passes_executeBlock _ n).congr fun e => ?_
  constructor
  · rintro (failed | ⟨test, n, ran, s, k, starts, failed⟩)
    · exact .inl ⟨condition, rfl, failed⟩
    · cases test with
      | true => exact .inr ⟨s, k, .consequent ran starts, failed⟩
      | false =>
        cases alternative with
        | some block => exact .inr ⟨s, k, .alternative ran starts, failed⟩
        | none => cases starts
  · rintro (⟨_, ⟨⟩, failed⟩ | ⟨s, k, begins, failed⟩)
    · exact .inl failed
    · cases begins with
      | consequent ran starts => exact .inr ⟨true, _, ran, s, k, starts, failed⟩
      | alternative ran starts => exact .inr ⟨false, _, ran, s, k, starts, failed⟩

/-- A round of a loop stops with an error if and only if one of its statements does. -/
lemma round_failsWith_iff {body : List Statement} {name : Option String} {value : Value} :
    (round settings E body name value).FailsWith m e ↔
      ∃ n, enterRound name value m = .ok () n ∧
        OccursAmong (execute settings E) (· = .normal) body n e := by
  unfold round
  rw [Run.failsWith_bind_iff]
  constructor
  · rintro (⟨n, failed⟩ | ⟨⟨⟩, n, ran, failed⟩)
    · cases name <;> cases failed
    · exact ⟨n, ran, executeBlock_failsWith_iff.1 failed⟩
  · rintro ⟨n, ran, occurs⟩
    exact .inr ⟨(), n, ran, executeBlock_failsWith_iff.2 occurs⟩

/-- A loop over a list evaluates the list and goes round in a scope of its own. -/
lemma executeForm_loop_some (body : List Statement) (name : Option String)
    (iterable : Expression) :
    executeForm settings E (.loop body name (some iterable)) = (do
      let values ← iterableOf E name iterable
      Run.inScope false (forEach (round settings E body name) values)) := by
  unfold executeForm
  cases name <;> rfl

/-- What goes wrong in a loop goes wrong in its list or in one of its rounds. -/
lemma passes_loop (body : List Statement) (name : Option String) (iterable : Option Expression)
    (m : Machine) :
    (executeForm settings E (.loop body name iterable)).Passes settings m
      (OccursIn settings E (.loop body name iterable) m) := by
  cases iterable with
  | none =>
    -- A loop without a list goes round as one over a list of as many units as it may have rounds.
    have rounds : (forever (executeBlock settings E body) settings.rounds).Passes settings m.inLoop
        (OccursAmong (fun _ : Unit => executeBlock settings E body) GoesRound
          (List.replicate settings.rounds ()) m.inLoop) :=
      .congr (.refl _ _) fun _ => forever_failsWith_iff
    unfold executeForm
    refine rounds.inScope.congr fun e => ?_
    constructor
    · rintro ⟨⟨⟩, k, starts, failed⟩
      obtain ⟨s, n, inside, failed⟩ := executeBlock_failsWith_iff.1 failed
      exact .inr ⟨s, n, .round starts inside, failed⟩
    · rintro (⟨_, ⟨⟩, _⟩ | ⟨s, n, begins, failed⟩)
      cases begins with
      | round starts inside =>
        exact ⟨(), _, starts, executeBlock_failsWith_iff.2 ⟨s, n, inside, failed⟩⟩
  | some iterable =>
    have rounds (values : List Value) (n : Machine) :
        (Run.inScope false (forEach (round settings E body name) values)).Passes settings n
          (OccursAmong (round settings E body name) GoesRound values n.inLoop) :=
      .inScope (.congr (.refl _ _) fun _ => forEach_failsWith_iff)
    rw [executeForm_loop_some]
    refine ((passes_iterableOf name iterable).bind fun values n _ => rounds values n).congr
      fun e => ?_
    constructor
    · rintro (failed | ⟨values, n, ran, value, k, starts, failed⟩)
      · exact .inl ⟨iterable, rfl, failed⟩
      · obtain ⟨k', entered, s, n, inside, failed⟩ := round_failsWith_iff.1 failed
        exact .inr ⟨s, n, .element ran starts entered inside, failed⟩
    · rintro (⟨_, ⟨⟩, failed⟩ | ⟨s, n, begins, failed⟩)
      · exact .inl failed
      · cases begins with
        | element ran starts entered inside =>
          exact .inr ⟨_, _, ran, _, _, starts,
            round_failsWith_iff.2 ⟨_, entered, s, n, inside, failed⟩⟩

/-- What goes wrong inside of a statement goes wrong in it, and else only what it raises. -/
lemma passes_executeForm (form : Form) (m : Machine) :
    (executeForm settings E form).Passes settings m (OccursIn settings E form m) := by
  cases form with
  | declare name value =>
    refine passes_head rfl rfl (fun _ _ begins => nomatch begins) fun result => ?_
    cases result with
    | none => exact .fail _
    | some v => exact .bind (.modify _) fun _ => .pure _
  | define name parameters body =>
    exact passes_leaf (.bind (.modify _) fun _ => .pure _) rfl fun _ _ begins => nomatch begins
  | branch condition consequent alternative =>
    exact passes_branch condition consequent alternative m
  | loop body name iterable => exact passes_loop body name iterable m
  | returns value =>
    cases value with
    | some value =>
      exact passes_head rfl rfl (fun _ _ begins => nomatch begins) fun _ => .pure _
    | none => exact passes_leaf (.pure _) rfl fun _ _ begins => nomatch begins
  | breakLoop | continueLoop =>
    exact passes_leaf (.pure _) rfl fun _ _ begins => nomatch begins
  | evaluate x =>
    have first : (discard (E x) : Run Unit) = E x >>= fun _ => pure () :=
      (bind_pure_comp (fun _ => ()) (E x)).symm
    have same : executeForm settings E (.evaluate x) = E x >>= fun _ => return .normal := by
      unfold executeForm
      rw [first, bind_assoc]
      rfl
    exact passes_head same rfl (fun _ _ begins => nomatch begins) fun _ => .pure _
  | unknown => exact passes_leaf (.fail _) rfl fun _ _ begins => nomatch begins

end Evaluation

/-- What a run is busy with: the evaluation of an expression or a statement. Evaluations nest inside
up to a limit. -/
inductive Task where
  | evaluation (limit : Nat) (x : Expression)
  | statement (limit : Nat) (s : Statement)

/-- A task that is begun in a state stops with an error. That of a statement is not located there
yet. -/
def Task.FailsWith (settings : Settings) : Task → Machine → ScriptError → Prop
  | evaluation limit x => (evaluate settings limit x).FailsWith
  | statement limit s => Run.FailsWith (do
    announceStep settings s
    executeForm settings (evaluate settings limit) s.form)

/-- What becomes of an error on its way out of a task. -/
def Task.locate : Task → ScriptError → ScriptError
  | evaluation _ _, e => e
  | statement _ s, e => e.locate s

/-- A task begins another in a state, when it is begun itself in a state. An evaluation begins those
of its operands, and a call those of its arguments and then the statements of the body. A statement
begins an evaluation and the statements inside. -/
inductive Begins (settings : Settings) : Task → Machine → Task → Machine → Prop where
  | operand {limit x operand m n} :
    Starts (evaluate settings limit) (· ≠ none) x.operands m operand n →
    Begins settings (.evaluation (limit + 1) x) m (.evaluation limit operand) n
  | argument {limit callee arguments found argument m m' n} :
    calleeOf settings (evaluate settings limit) callee m = .ok found m' →
    Starts (evaluate settings limit) (· ≠ none) arguments m' argument n →
    Begins settings (.evaluation (limit + 1) (.call callee arguments)) m
      (.evaluation limit argument) n
  | body {limit callee arguments function values s m m' k k' n} :
    calleeOf settings (evaluate settings limit) callee m = .ok (.script function) m' →
    argumentsOf (evaluate settings limit) function.name 1 arguments m' = .ok values k →
    values.length = function.arity →
    enterCall settings function values k = .ok () k' →
    Starts (execute settings limit) (· = .normal) function.body k' s n →
    Begins settings (.evaluation (limit + 1) (.call callee arguments)) m (.statement limit s) n
  | head {limit s x m m'} :
    announceStep settings s m = .ok () m' → s.form.head? = some x →
    Begins settings (.statement limit s) m (.evaluation limit x) m'
  | nested {limit s s' m m' n} :
    announceStep settings s m = .ok () m' →
    BeginsIn settings (evaluate settings limit) s.form m' s' n →
    Begins settings (.statement limit s) m (.statement limit s') n

section
variable {settings : Settings} {limit : Nat} {m n : Machine} {e : ScriptError}

/-- A statement stops with the errors of its task, located at it. -/
lemma execute_failsWith_iff {s : Statement} : (execute settings limit s).FailsWith m e ↔
    ∃ raised, (Task.statement limit s).FailsWith settings m raised ∧ e = raised.locate s := by
  obtain ⟨line, form⟩ := s
  have announced {e : ScriptError} : ¬ (announceStep settings (.mk line form)).FailsWith m e :=
    fun ⟨_, failed⟩ => announceStep_ne_error _ _ _ _ failed
  have evaluated : execute settings limit (.mk line form) = (do
      announceStep settings (.mk line form)
      Run.locatedAt (.mk line form) (executeForm settings (evaluate settings limit) form)) :=
    execute_mk line form
  rw [evaluated, Run.failsWith_bind_iff, or_iff_right announced]
  constructor
  · rintro ⟨a, n, ran, located⟩
    obtain ⟨raised, failed, rfl⟩ := Run.failsWith_locatedAt_iff.1 located
    exact ⟨raised, Run.failsWith_bind_iff.2 (.inr ⟨a, n, ran, failed⟩), rfl⟩
  · rintro ⟨raised, failed, rfl⟩
    obtain ⟨a, n, ran, failed⟩ := (Run.failsWith_bind_iff.1 failed).resolve_left announced
    exact ⟨a, n, ran, Run.failsWith_locatedAt_iff.2 ⟨raised, failed, rfl⟩⟩

/-- Something that a task begins stops with an error, which leaves it so. -/
def Task.OccursWithin (settings : Settings) (t : Task) (m : Machine) (e : ScriptError) : Prop :=
  ∃ t' n raised, Begins settings t m t' n ∧ t'.FailsWith settings n raised ∧ e = t'.locate raised

/-- An evaluation without a call passes on the errors of the tasks it begins. -/
lemma passes_evaluation_of_not_call {x : Expression}
    (notCall : ∀ callee arguments, x ≠ .call callee arguments) :
    (evaluate settings (limit + 1) x).Passes settings m
      ((Task.evaluation (limit + 1) x).OccursWithin settings m) := by
  refine (passes_evaluateWith notCall).congr fun e => ?_
  constructor
  · rintro ⟨operand, n, starts, failed⟩
    exact ⟨_, n, e, .operand starts, failed, rfl⟩
  · rintro ⟨t, n, raised, begins, failed, rfl⟩
    cases begins with
    | operand starts => exact ⟨_, n, starts, failed⟩
    | argument | body => exact absurd rfl (notCall _ _)

/-- The evaluation of a call passes on the errors of the tasks it begins. -/
lemma passes_evaluation_call {callee : Expression} {arguments : List Expression} :
    (evaluate settings (limit + 1) (.call callee arguments)).Passes settings m
      ((Task.evaluation (limit + 1) (.call callee arguments)).OccursWithin settings m) := by
  refine (passes_call callee arguments).congr fun e => ?_
  constructor
  · rintro (⟨operand, n, starts, failed⟩ | ⟨found, m', called, rest⟩)
    · exact ⟨_, n, e, .operand starts, failed, rfl⟩
    rcases rest with ⟨argument, n, starts, failed⟩ | ⟨values, k, evaluated, function, rfl, body⟩
    · exact ⟨_, n, e, .argument called starts, failed, rfl⟩
    obtain ⟨arity, ⟨⟩, k', entered, s, n, starts, located⟩ := body
    obtain ⟨raised, failed, rfl⟩ := execute_failsWith_iff.1 located
    exact ⟨_, n, raised, .body called evaluated arity entered starts, failed, rfl⟩
  · rintro ⟨t, n, raised, begins, failed, rfl⟩
    cases begins with
    | operand starts => exact .inl ⟨_, n, starts, failed⟩
    | argument called starts => exact .inr ⟨_, _, called, .inl ⟨_, n, starts, failed⟩⟩
    | body called evaluated arity entered starts =>
      exact .inr ⟨_, _, called, .inr ⟨_, _, evaluated, _, rfl, arity, (), _, entered, _, n, starts,
        execute_failsWith_iff.2 ⟨raised, failed, rfl⟩⟩⟩

/-- A statement passes on the errors of the tasks it begins. -/
lemma passes_statement {s : Statement} :
    Run.Passes settings (do
      announceStep settings s
      executeForm settings (evaluate settings limit) s.form) m
      ((Task.statement limit s).OccursWithin settings m) := by
  have announced : (announceStep settings s).OnlyRaises settings := fun _ _ ⟨_, failed⟩ =>
    absurd failed (announceStep_ne_error _ _ _ _)
  refine (Run.Passes.following announced fun _ n => passes_executeForm s.form n).congr fun e => ?_
  constructor
  · rintro ⟨⟨⟩, m', announced, ⟨x, head, failed⟩ | ⟨s', n, inside, located⟩⟩
    · exact ⟨_, m', e, .head announced head, failed, rfl⟩
    · obtain ⟨raised, failed, rfl⟩ := execute_failsWith_iff.1 located
      exact ⟨_, n, raised, .nested announced inside, failed, rfl⟩
  · rintro ⟨t, n, raised, begins, failed, rfl⟩
    cases begins with
    | head announced head => exact ⟨(), n, announced, .inl ⟨_, head, failed⟩⟩
    | nested announced inside =>
      exact ⟨(), _, announced, .inr ⟨_, n, inside, execute_failsWith_iff.2 ⟨raised, failed, rfl⟩⟩⟩

/-- An evaluation passes on the errors of the tasks it begins. -/
lemma passes_evaluation (limit : Nat) (x : Expression) :
    (evaluate settings (limit + 1) x).Passes settings m
      ((Task.evaluation (limit + 1) x).OccursWithin settings m) := by
  by_cases call : ∃ callee arguments, x = .call callee arguments
  · obtain ⟨callee, arguments, rfl⟩ := call
    exact passes_evaluation_call
  · exact passes_evaluation_of_not_call fun callee arguments same =>
      call ⟨callee, arguments, same⟩

/-- If something that a task begins stops with an error, so does the task. -/
lemma Begins.failsWith {t t' : Task} (h : Begins settings t m t' n)
    (failed : t'.FailsWith settings n e) : t.FailsWith settings m (t'.locate e) := by
  have occurs : t.OccursWithin settings m (t'.locate e) := ⟨t', n, e, h, failed, rfl⟩
  match t with
  | .statement _ _ => exact passes_statement.failsWith occurs
  | .evaluation 0 _ => cases h
  | .evaluation (limit + 1) x => exact (passes_evaluation limit x).failsWith occurs

/-- A task stops with an error only if something that it begins does, or if it raises the error
itself. -/
lemma Task.origin {t : Task} (failed : t.FailsWith settings m e) :
    t.OccursWithin settings m e ∨ Raised settings e := by
  match t with
  | .statement _ _ => exact passes_statement.origin failed
  | .evaluation 0 _ =>
    obtain ⟨n, ⟨⟩⟩ := failed
  | .evaluation (limit + 1) x => exact (passes_evaluation limit x).origin failed

end

end ScriptLang
