import ScriptLang.Proofs.Evaluation.Observer
import ScriptLang.Proofs.Program.Conventions

/-!
# Two runs of a program

Many facts about running programs compare two runs: with other settings, in another state, in front
of another observer. They have one shape. A relation between runs that holds of the steps that a run
is made of, and is kept by the ways to put steps together, holds of all that programs do:
`Steps` and `Simulation` list what is asked of the steps, and `Steps.executeBlock`,
`Simulation.evaluateObserved` and `Simulation.runProgramObserved` draw the conclusion. A relation
between runs also says what their results have in common, and it counts the scopes that were opened
since the two runs were set side by side.

Trees that obey `Conventions` only come to some of the steps, and nothing is asked of the others.
-/

namespace ScriptLang
open Evaluation

/-- A result obeys if it is no value or one that obeys. -/
def Obeying (c : Conventions) (result : Option Value) : Prop := ∀ v ∈ result, v.Obeys c

/-- No value obeys. -/
lemma obeying_none {c : Conventions} : Obeying c none := nofun

/-- A value that obeys obeys as a result. -/
lemma obeying_some {c : Conventions} {v : Value} (h : v.Obeys c) : Obeying c (some v) := by
  rintro w ⟨⟩
  exact h

/-- The signals that a statement which obeys may end in. -/
def Signal.Obeys (c : Conventions) (inLoop : Bool) : Signal → Prop
  | normal => True
  | returned result => Obeying c result
  | broken => ∃ line, c.statement inLoop (.mk line .breakLoop)
  | continued => ∃ line, c.statement inLoop (.mk line .continueLoop)

/-- No signal is a jump where no statement may be one. -/
lemma Signal.Obeys.not_jump {c : Conventions} {signal : Signal}
    (noJump : ∀ s, c.statement false s → ¬ (s.form = .breakLoop ∨ s.form = .continueLoop))
    (h : signal.Obeys c false) : ¬ (signal = .broken ∨ signal = .continued) := by
  rintro (rfl | rfl)
  · obtain ⟨line, allowed⟩ := h
    exact noJump _ allowed (.inl rfl)
  · obtain ⟨line, allowed⟩ := h
    exact noJump _ allowed (.inr rfl)

/-- Calls by a name are allowed. -/
def Conventions.CallsByName (c : Conventions) (name : String) : Prop :=
  ∃ arguments, c.expression (.call (.identifier name) arguments)

/-- Reads a variable. -/
def readVariable (name : String) : Run (Option Value) := do
  match (← get).environment.lookup? name with
  | some value => return some value
  | none => Run.fail (.undefinedName name)

/-- A relation between two runs that holds of the steps runs are made of, apart from calls and from
evaluation that nests too deeply. `Sim d P` relates runs inside of `d` scopes whose results have the
property `P`. -/
structure Steps (c : Conventions) (settings settings' : Settings)
    (Sim : {α : Type} → Nat → (α → Prop) → Run α → Run α → Prop) : Prop where
  library : settings'.library = settings.library
  rounds {inLoop line body name} : c.statement inLoop (.mk line (.loop body name none)) →
    settings'.rounds = settings.rounds
  pure {α : Type} {d : Nat} {P : α → Prop} {a : α} : P a → Sim d P (pure a) (pure a)
  bind {α β : Type} {d : Nat} {P : α → Prop} {Q : β → Prop} {p p' : Run α} {f f' : α → Run β} :
    Sim d P p p' → (∀ a, P a → Sim d Q (f a) (f' a)) → Sim d Q (p >>= f) (p' >>= f')
  fail {α : Type} {d : Nat} {P : α → Prop} {cause : Cause} :
    c.Admits cause → Sim d P (Run.fail cause : Run α) (Run.fail cause)
  fault {α : Type} {d : Nat} {P : α → Prop} {left right : Expression} :
    c.expression (.binary left .modulo right) →
    Sim d P (throw (.failure (.fault .mathDomain)) : Run α) (throw (.failure (.fault .mathDomain)))
  unfinished {α : Type} {d : Nat} {P : α → Prop} {inLoop line body name} :
    c.statement inLoop (.mk line (.loop body name none)) →
    Sim d P (throw .unfinished : Run α) (throw .unfinished)
  locatedAt {α : Type} {d : Nat} {P : α → Prop} {p p' : Run α} {inLoop : Bool} {s : Statement} :
    s.Obeys c inLoop → Sim d P p p' → Sim d P (Run.locatedAt s p) (Run.locatedAt s p')
  inScope {α : Type} {d : Nat} {P : α → Prop} {p p' : Run α} (boundary : Bool) :
    Sim (d + 1) P p p' → Sim d P (Run.inScope boundary p) (Run.inScope boundary p')
  announceStep {d : Nat} {inLoop : Bool} {s : Statement} : s.Obeys c inLoop →
    Sim d (fun _ => True) (announceStep settings s) (announceStep settings' s)
  performBuiltin {d : Nat} {name : String} {builtin : Builtin} {arguments : List Value} :
    c.CallsByName name → settings.library.builtin? name = some builtin →
    Sim d (fun _ => True) (performBuiltin settings name builtin arguments)
      (performBuiltin settings' name builtin arguments)
  readVariable {d : Nat} {name : String} : Sim d (Obeying c) (readVariable name) (readVariable name)
  namedCallee {d : Nat} {name : String} :
    Sim d (Value.Obeys c) (namedCallee name) (namedCallee name)
  declare {d : Nat} {name : String} {value : Value} : value.Obeys c →
    Sim d (fun _ => True) (Run.modifyScope (·.declare name value))
      (Run.modifyScope (·.declare name value))
  define {d : Nat} {name : String} {function : FunctionValue} : function.Obeys c →
    Sim d (fun _ => True) (Run.modifyScope (·.define name function))
      (Run.modifyScope (·.define name function))
  bindAll {d : Nat} {parameters : List String} {arguments : List Value} :
    (∀ v ∈ arguments, v.Obeys c) →
    Sim d (fun _ => True) (bindAll parameters arguments) (bindAll parameters arguments)
  assign {d : Nat} {name : String} {value : Value} : value.Obeys c →
    Sim d (fun _ => True) (assign name value) (assign name value)

/-- A relation between two runs in front of observers that holds of all the steps runs are made
of. -/
structure Simulation (c : Conventions) (o o' : Observer) (settings settings' : Settings)
    (Sim : {α : Type} → Nat → (α → Prop) → Run α → Run α → Prop) : Prop
    extends Steps c settings settings' Sim where
  tooDeep {α : Type} {d : Nat} {P : α → Prop} :
    Sim d P (throw .tooDeep : Run α) (throw .tooDeep)
  reportingDepth {α : Type} {d : Nat} {P : α → Prop} {p p' : Run α} {cause : Cause} :
    c.Admits cause → Sim d P p p' →
    Sim d P (Run.reportingDepth cause p) (Run.reportingDepth cause p')
  announceCall {d : Nat} {function : FunctionValue} {arguments : List Value} :
    Sim d (fun _ => True) (announceCall o settings function arguments)
      (announceCall o' settings' function arguments)
  stray {d : Nat} {jump : Signal} : jump = .broken ∨ jump = .continued → jump.Obeys c false →
    Sim d (Obeying c) (o.stray jump) (o'.stray jump)

namespace Operator

/-- What operations come to: a number or a boolean, an error that any program may come to, or a
fault of arithmetic where there may be one. -/
inductive Ordinary (mayFault : Prop) : Except Failure Value → Prop where
  | number (value : Float) : Ordinary mayFault (.ok (.number value))
  | boolean (value : Bool) : Ordinary mayFault (.ok (.boolean value))
  | refuse {cause : Cause} : (∀ c : Conventions, c.Admits cause) →
    Ordinary mayFault (refuse cause)
  | fault : mayFault → Ordinary mayFault (.error (.fault .mathDomain))

/-- Operations on numbers are ordinary. -/
lemma ordinary_onNumbers? {operator : Operator} {a b : Float} {outcome : Except Failure Value}
    (h : operator.onNumbers? a b = some outcome) : Ordinary (operator = .modulo) outcome := by
  cases operator
  case divide =>
    cases h
    split
    · exact .refuse fun _ => trivial
    · exact .number _
  case modulo =>
    cases h
    split
    · exact .refuse fun _ => trivial
    · split
      · exact .number _
      · exact .fault rfl
  all_goals cases h <;> constructor

/-- Operations of two operands are ordinary. -/
lemma ordinary_applyBinary (operator : Operator) (left right : Value) :
    Ordinary (operator = .modulo) (operator.applyBinary left right) := by
  have refused : Ordinary (operator = .modulo)
      (refuse (.unsupportedBinary left.typeName operator right.typeName)) :=
    .refuse fun _ => trivial
  unfold applyBinary
  dsimp only
  split
  case h_1 a b =>
    cases h : operator.onNumbers? a b with
    | none => exact refused
    | some outcome => exact ordinary_onNumbers? h
  case h_2 a b =>
    cases operator.onBooleans? a b with
    | none => exact refused
    | some value => exact .boolean value
  case h_3 a b =>
    cases operator.onStrings? a b with
    | none => exact refused
    | some value => exact .boolean value
  case h_4 => exact refused

/-- Operations of one operand are ordinary. -/
lemma ordinary_applyUnary (operator : Operator) (operand : Value) :
    Ordinary False (operator.applyUnary operand) := by
  unfold applyUnary
  split
  · exact .number _
  · exact .boolean _
  · exact .refuse fun _ => trivial

end Operator

/-- A library refuses arguments for their number only. -/
lemma Library.cause_of_checkArguments {library : Library} {name : String} {count : Nat}
    {cause : Cause} (h : library.checkArguments name count = .error cause) :
    ∃ problem, cause = .builtinArity name count problem := by
  unfold checkArguments at h
  split at h
  case h_1 problem _ =>
    cases h
    exact ⟨problem, rfl⟩
  case h_2 => cases h

section

variable {c : Conventions} {settings settings' : Settings}
  {Sim : {α : Type} → Nat → (α → Prop) → Run α → Run α → Prop}
  (S : Steps c settings settings' Sim)
include S

/-- Runs are related whatever becomes of their values. -/
lemma Steps.discard {α : Type} {d : Nat} {P : α → Prop} {p p' : Run α} (h : Sim d P p p') :
    Sim d (fun _ => True) (discard p : Run Unit) (discard p') := by
  have eq (p : Run α) : (Functor.discard p : Run Unit) = p >>= fun _ => Pure.pure () :=
    (bind_pure_comp (fun _ => ()) p).symm
  rw [eq, eq]
  exact S.bind h fun _ _ => S.pure trivial

/-- Results of operations are related to themselves. -/
lemma Steps.ofExcept {d : Nat} {mayFault : Prop} {outcome : Except Failure Value}
    (h : Operator.Ordinary mayFault outcome)
    (modulo : mayFault → ∃ left right, c.expression (.binary left .modulo right)) :
    Sim d (Value.Obeys c) (Run.ofExcept outcome) (Run.ofExcept outcome) := by
  cases h with
  | number value => exact S.pure (.number value)
  | boolean value => exact S.pure (.boolean value)
  | refuse admits => exact S.fail (admits c)
  | fault may =>
    obtain ⟨left, right, allowed⟩ := modulo may
    exact S.fault allowed

/-- Accesses to members are related. -/
lemma Steps.memberOf {d : Nat} (target : Value) (name : String) :
    Sim d (Value.Obeys c) (memberOf target name) (memberOf target name) := by
  unfold Evaluation.memberOf
  split
  · exact S.pure (.number _)
  · exact S.pure (.number _)
  · exact S.fail trivial

/-- Readings of an index are related. -/
lemma Steps.placeOf {d : Nat} (index : Value) :
    Sim d (fun _ => True) (placeOf index) (placeOf index) := by
  unfold Evaluation.placeOf
  split
  · split
    · exact S.pure trivial
    · exact S.fail trivial
  · exact S.fail trivial

/-- Accesses to elements are related. -/
lemma Steps.elementAt {α : Type} {d : Nat} {P : α → Prop} (container : TypeName)
    {elements : List α} (h : ∀ a ∈ elements, P a) (place : Int) :
    Sim d P (elementAt container elements place) (elementAt container elements place) := by
  unfold Evaluation.elementAt
  split
  case h_1 element found =>
    split at found
    · exact S.pure (h element (List.mem_of_getElem? found))
    · cases found
  case h_2 => exact S.fail trivial

/-- Accesses by an index are related. -/
lemma Steps.indexOf {d : Nat} {container : Value} (h : container.Obeys c) (index : Value) :
    Sim d (Value.Obeys c) (indexOf container index) (indexOf container index) := by
  unfold Evaluation.indexOf
  split
  · cases h with
    | list elements => exact S.bind (S.placeOf index) fun place _ => S.elementAt _ elements place
  · refine S.bind (S.placeOf index) fun place _ => ?_
    exact S.bind (P := fun _ => True) (S.elementAt _ (fun _ _ => trivial) place) fun _ _ =>
      S.pure (.string _)
  · exact S.fail trivial

section
variable {E E' : Evaluator} {d : Nat}
  (H : ∀ e : Expression, e.Obeys c → Sim d (Obeying c) (E e) (E' e))
include H

/-- Operands are related if evaluations are. -/
lemma Steps.valueOf (role : Role) {e : Expression} (h : e.Obeys c) :
    Sim d (Value.Obeys c) (valueOf E role e) (valueOf E' role e) := by
  refine S.bind (H e h) fun result obeys => ?_
  cases result with
  | some value => exact S.pure (obeys value rfl)
  | none => exact S.fail trivial

/-- Arguments are related if evaluations are. -/
lemma Steps.argumentsOf (function : String) (number : Nat) {arguments : List Expression}
    (h : Expression.AllObey c arguments) :
    Sim d (fun values => ∀ v ∈ values, v.Obeys c) (argumentsOf E function number arguments)
      (argumentsOf E' function number arguments) := by
  induction arguments generalizing number with
  | nil => exact S.pure nofun
  | cons argument rest ih =>
    refine S.bind (S.valueOf H _ h.1) fun value hv => ?_
    exact S.bind (ih _ h.2) fun values hvs => S.pure (List.forall_mem_cons.2 ⟨hv, hvs⟩)

/-- Elements are related if evaluations are. -/
lemma Steps.elementsOf {elements : List Expression} (h : Expression.AllObey c elements) :
    Sim d (fun values => ∀ v ∈ values, v.Obeys c) (elementsOf E elements)
      (elementsOf E' elements) := by
  induction elements with
  | nil => exact S.pure nofun
  | cons element rest ih =>
    refine S.bind (S.valueOf H _ h.1) fun value hv => ?_
    exact S.bind (ih h.2) fun values hvs => S.pure (List.forall_mem_cons.2 ⟨hv, hvs⟩)

/-- Conditions are related if evaluations are. -/
lemma Steps.conditionOf {condition : Expression} (h : condition.Obeys c) :
    Sim d (fun _ => True) (conditionOf E condition) (conditionOf E' condition) := by
  refine S.bind (H condition h) fun result _ => ?_
  split
  · exact S.pure trivial
  · exact S.fail trivial

/-- What loops go over is related if evaluations are. -/
lemma Steps.iterableOf (name : Option String) {iterable : Expression} (h : iterable.Obeys c) :
    Sim d (fun values => ∀ v ∈ values, v.Obeys c) (iterableOf E name iterable)
      (iterableOf E' name iterable) := by
  refine S.bind (H iterable h) fun result obeys => ?_
  split
  · cases obeys _ rfl with
    | list elements => exact S.pure elements
  · exact S.fail trivial

end

/-- A loop ends as usual or by a return, never by a jump. -/
lemma Steps.forEach {d : Nat} {inLoop : Bool} {body body' : Value → Run Signal}
    {values : List Value} (h : ∀ v ∈ values, Sim d (Signal.Obeys c true) (body v) (body' v)) :
    Sim d (Signal.Obeys c inLoop) (forEach body values) (forEach body' values) := by
  induction values with
  | nil => exact S.pure trivial
  | cons value rest ih =>
    obtain ⟨first, others⟩ := List.forall_mem_cons.1 h
    refine S.bind first fun signal obeys => ?_
    cases signal with
    | normal | continued => exact ih others
    | broken => exact S.pure trivial
    | returned result => exact S.pure obeys

/-- Loops without bound are related if their rounds are. -/
lemma Steps.forever {d : Nat} {inLoop : Bool} {body body' : Run Signal}
    (h : Sim d (Signal.Obeys c true) body body')
    (unfinished : Sim d (Signal.Obeys c inLoop) (throw .unfinished) (throw .unfinished))
    (rounds : Nat) :
    Sim d (Signal.Obeys c inLoop) (forever body rounds) (forever body' rounds) := by
  induction rounds with
  | zero => exact unfinished
  | succ rounds ih =>
    refine S.bind h fun signal obeys => ?_
    cases signal with
    | normal | continued => exact ih
    | broken => exact S.pure trivial
    | returned result => exact S.pure obeys

/-- Each round of a loop may declare its name anew. -/
lemma Steps.round {d : Nat} {body body' : Run Signal} {P : Signal → Prop}
    (h : Sim d P body body') (name : Option String) {value : Value} (hv : value.Obeys c) :
    Sim d P
      (do
        if let some name := name then Run.modifyScope (·.declare name value)
        body)
      (do
        if let some name := name then Run.modifyScope (·.declare name value)
        body') := by
  cases name with
  | none => exact h
  | some name => exact S.bind (S.declare hv) fun _ _ => h

section
variable {E E' : Evaluator}

mutual

/-- Blocks that obey are related if evaluations are. -/
lemma Steps.executeBlock
    (H : ∀ d, ∀ e : Expression, e.Obeys c → Sim d (Obeying c) (E e) (E' e)) (d : Nat)
    (inLoop : Bool) (b : List Statement) (h : Statement.AllObey c inLoop b) :
    Sim d (Signal.Obeys c inLoop) (executeBlock settings E b) (executeBlock settings' E' b) := by
  cases b with
  | nil => exact S.pure trivial
  | cons s rest =>
    refine S.bind (Steps.execute H d inLoop s h.1) fun signal obeys => ?_
    cases signal with
    | normal => exact Steps.executeBlock H d inLoop rest h.2
    | _ => exact S.pure obeys

/-- Statements that obey are related if evaluations are. -/
lemma Steps.execute
    (H : ∀ d, ∀ e : Expression, e.Obeys c → Sim d (Obeying c) (E e) (E' e)) (d : Nat)
    (inLoop : Bool) (s : Statement) (h : s.Obeys c inLoop) :
    Sim d (Signal.Obeys c inLoop) (Evaluation.execute settings E s)
      (Evaluation.execute settings' E' s) := by
  cases s with
  | mk line form =>
    rw [execute_mk, execute_mk]
    exact S.bind (S.announceStep h) fun _ _ =>
      S.locatedAt h (Steps.executeForm H d inLoop line form h.1 h.2)

/-- Forms that obey are related if evaluations are. -/
lemma Steps.executeForm
    (H : ∀ d, ∀ e : Expression, e.Obeys c → Sim d (Obeying c) (E e) (E' e)) (d : Nat)
    (inLoop : Bool) (line : Option Int) (form : Form) (allowed : c.statement inLoop (.mk line form))
    (h : form.Obeys c inLoop) :
    Sim d (Signal.Obeys c inLoop) (executeForm settings E form)
      (executeForm settings' E' form) := by
  cases form with
  | declare name value =>
    refine S.bind (H d value h) fun result obeys => ?_
    cases result with
    | some value => exact S.bind (S.declare (obeys value rfl)) fun _ _ => S.pure trivial
    | none => exact S.fail trivial
  | define name parameters body =>
    exact S.bind (S.define h) fun _ _ => S.pure trivial
  | branch condition consequent alternative =>
    -- The recursion goes through the alternative, so this case opens by its equation only.
    unfold Evaluation.executeForm
    cases alternative with
    | none =>
      refine S.bind (S.conditionOf (H d) h.1) fun test _ => ?_
      cases test with
      | true => exact Steps.executeBlock H d inLoop consequent h.2
      | false => exact S.pure trivial
    | some alternative =>
      refine S.bind (S.conditionOf (H d) h.1) fun test _ => ?_
      cases test with
      | true => exact Steps.executeBlock H d inLoop consequent h.2.1
      | false => exact Steps.executeBlock H d inLoop alternative h.2.2
  | loop body name iterable =>
    cases iterable with
    | none =>
      have rounds : Sim (d + 1) (Signal.Obeys c inLoop) _ _ :=
        S.forever (Steps.executeBlock H (d + 1) true body h) (S.unfinished allowed)
          settings.rounds
      unfold Evaluation.executeForm
      rw [S.rounds allowed]
      exact S.inScope false rounds
    | some iterable =>
      refine S.bind (S.iterableOf (H d) name h.1) fun values obey => S.inScope false ?_
      exact S.forEach fun value mem =>
        S.round (Steps.executeBlock H (d + 1) true body h.2) name (obey value mem)
  | returns value =>
    cases value with
    | none => exact S.pure obeying_none
    | some value => exact S.bind (H d value h) fun result obeys => S.pure obeys
  | breakLoop => exact S.pure ⟨line, allowed⟩
  | continueLoop => exact S.pure ⟨line, allowed⟩
  | evaluate e =>
    exact S.bind (S.discard (H d e h)) fun _ _ => S.pure trivial
  | unknown => exact S.fail ⟨inLoop, line, allowed⟩

end

section
variable {F F' : Caller} {d : Nat}
  (H : ∀ e : Expression, e.Obeys c → Sim d (Obeying c) (E e) (E' e))
  (HF : ∀ {function : FunctionValue} {arguments : List Value}, function.Obeys c →
    (∀ v ∈ arguments, v.Obeys c) → Sim d (Obeying c) (F function arguments) (F' function arguments))
include H HF

/-- Calls of values are related if evaluations and calls of functions are. -/
lemma Steps.callValueBy (name : Option String) {callee : Value} (h : callee.Obeys c)
    {arguments : List Expression} (obey : Expression.AllObey c arguments) :
    Sim d (Obeying c) (callValueBy E F name callee arguments)
      (callValueBy E' F' name callee arguments) := by
  unfold Evaluation.callValueBy
  split
  · cases h with
    | function h => exact S.bind (S.argumentsOf H _ _ obey) fun values hvs => HF h hvs
  · exact S.fail trivial

/-- Calls are related if evaluations and calls of functions are. -/
lemma Steps.callBy {callee : Expression} (h : callee.Obeys c) {arguments : List Expression}
    (obey : Expression.AllObey c arguments) (allowed : c.expression (.call callee arguments)) :
    Sim d (Obeying c) (callBy settings E F callee arguments)
      (callBy settings' E' F' callee arguments) := by
  unfold Evaluation.callBy
  rw [S.library]
  split
  · split
    case h_1 builtin found =>
      refine S.bind (S.argumentsOf H _ _ obey) fun values _ => ?_
      split
      case h_1 cause refused =>
        obtain ⟨problem, rfl⟩ := Library.cause_of_checkArguments refused
        exact S.fail trivial
      case h_2 => exact S.bind (S.performBuiltin ⟨_, allowed⟩ found) fun _ _ => S.pure obeying_none
    case h_2 => exact S.bind S.namedCallee fun value hv => S.callValueBy H HF _ hv obey
  · exact S.bind (S.valueOf H _ h) fun value hv => S.callValueBy H HF _ hv obey

/-- Evaluations are related if those inside and calls of functions are. -/
lemma Steps.evaluateBy {e : Expression} (h : e.Obeys c) :
    Sim d (Obeying c) (evaluateBy settings E F e) (evaluateBy settings' E' F' e) := by
  cases e with
  | number value => exact S.pure (obeying_some (.number value))
  | string value => exact S.pure (obeying_some (.string value))
  | boolean value => exact S.pure (obeying_some (.boolean value))
  | function parameters body => exact S.pure (obeying_some (.function h.2))
  | identifier name => exact S.readVariable
  | binary left operator right =>
    refine S.bind (S.valueOf H _ h.2.1) fun a _ => ?_
    refine S.bind (S.valueOf H _ h.2.2) fun b _ => ?_
    -- Only a remainder may end in a fault, so this is the one operation that has to be allowed for.
    have modulo : operator = .modulo → ∃ left right, c.expression (.binary left .modulo right) :=
      fun e => ⟨left, right, e ▸ h.1⟩
    exact S.bind (S.ofExcept (Operator.ordinary_applyBinary operator a b) modulo) fun v hv =>
      S.pure (obeying_some hv)
  | unary operator operand =>
    refine S.bind (S.valueOf H _ h.2) fun a _ => ?_
    exact S.bind (S.ofExcept (Operator.ordinary_applyUnary operator a) False.elim) fun v hv =>
      S.pure (obeying_some hv)
  | list elements =>
    exact S.bind (S.elementsOf H h.2) fun values hvs => S.pure (obeying_some (.list hvs))
  | assign target value =>
    cases target with
    | identifier name =>
      exact S.bind (S.valueOf H _ h.2.2) fun v hv => S.bind (S.assign hv) fun _ _ =>
        S.pure obeying_none
    | _ => exact S.fail ⟨_, value, fun _ e => Expression.noConfusion e, h.1⟩
  | call callee arguments => exact S.callBy H HF h.2.1 h.2.2 h.1
  | member target name =>
    refine S.bind (S.valueOf H _ h.2) fun v _ => ?_
    exact S.bind (S.memberOf v name) fun w hw => S.pure (obeying_some hw)
  | index target place =>
    refine S.bind (S.valueOf H _ h.2.1) fun v hv => ?_
    refine S.bind (S.valueOf H _ h.2.2) fun i _ => ?_
    exact S.bind (S.indexOf hv i) fun w hw => S.pure (obeying_some hw)
  | unknown => exact S.fail h

end

end

end

section

variable {c : Conventions} {o o' : Observer} {settings settings' : Settings}
  {Sim : {α : Type} → Nat → (α → Prop) → Run α → Run α → Prop}
  (S : Simulation c o o' settings settings' Sim)
include S

/-- A call of a function. What the body ends in tells whether the observer is asked. -/
lemma Simulation.callObserved {E E' : Evaluator}
    (H : ∀ d, ∀ e : Expression, e.Obeys c → Sim d (Obeying c) (E e) (E' e)) {d : Nat}
    {function : FunctionValue} {arguments : List Value} (h : function.Obeys c)
    (obey : ∀ v ∈ arguments, v.Obeys c) :
    Sim d (Obeying c) (callObserved o settings E function arguments)
      (callObserved o' settings' E' function arguments) := by
  unfold Evaluation.callObserved
  split
  · exact S.fail trivial
  · refine S.bind S.announceCall fun _ _ => ?_
    have body : Sim d (Signal.Obeys c false) (runBody settings E function arguments)
        (runBody settings' E' function arguments) :=
      S.reportingDepth trivial (S.inScope true (S.bind (S.bindAll obey) fun _ _ =>
        S.executeBlock H (d + 1) false function.body h))
    refine S.bind body fun signal obeys => ?_
    cases signal with
    | normal => exact S.pure obeying_none
    | returned result => exact S.pure obeys
    | broken => exact S.stray (.inl rfl) obeys
    | continued => exact S.stray (.inr rfl) obeys

/-- Evaluations of an expression that obeys are related. -/
lemma Simulation.evaluateObserved (limit d : Nat) (e : Expression) (h : e.Obeys c) :
    Sim d (Obeying c) (evaluateObserved o settings limit e)
      (evaluateObserved o' settings' limit e) := by
  -- Functions that are called are run with a smaller limit than the call.
  induction limit generalizing d e with
  | zero => exact S.tooDeep
  | succ limit ih => exact S.evaluateBy (ih d) (S.callObserved ih) h

/-- Runs of a program that obeys are related. -/
lemma Simulation.runProgramObserved (limit d : Nat) {program : Program}
    (h : Statement.AllObey c false program) :
    Sim d (Obeying c) (runProgramObserved o settings limit program)
      (runProgramObserved o' settings' limit program) := by
  have block := S.executeBlock (S.evaluateObserved limit) d false program h
  refine S.bind (S.reportingDepth trivial block) fun signal obeys => ?_
  cases signal with
  | normal => exact S.pure obeying_none
  | returned result => exact S.pure obeys
  | broken =>
    obtain ⟨line, allowed⟩ := obeys
    exact S.fail ⟨line, .inl allowed⟩
  | continued =>
    obtain ⟨line, allowed⟩ := obeys
    exact S.fail ⟨line, .inr allowed⟩

end

end ScriptLang
