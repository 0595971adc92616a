import Mathlib.Tactic.Common
import ScriptLang.Error
import ScriptLang.Program.Printer

/-!
# Conventions

What may be asked of every node of a program: `Conventions` says which expressions and which
statements are allowed as they stand, a statement inside a loop or outside of all, and `Obeys` asks
this of a tree and of all that is in it, the bodies of functions included. A function may be called
from anywhere, so no loop is around its body. A value obeys if the bodies of its functions do.
-/

namespace ScriptLang

/-- Which nodes are allowed. The flag tells whether a loop is around a statement. -/
structure Conventions where
  expression : Expression → Prop
  statement : Bool → Statement → Prop

mutual

/-- An expression and all in it are allowed. -/
def Expression.Obeys (c : Conventions) : Expression → Prop
  | .number value => c.expression (.number value)
  | .string value => c.expression (.string value)
  | .boolean value => c.expression (.boolean value)
  | .identifier name => c.expression (.identifier name)
  | .assign target value =>
    c.expression (.assign target value) ∧ target.Obeys c ∧ value.Obeys c
  | .binary left operator right =>
    c.expression (.binary left operator right) ∧ left.Obeys c ∧ right.Obeys c
  | .unary operator operand => c.expression (.unary operator operand) ∧ operand.Obeys c
  | .call callee arguments =>
    c.expression (.call callee arguments) ∧ callee.Obeys c ∧ Expression.AllObey c arguments
  | .list elements => c.expression (.list elements) ∧ Expression.AllObey c elements
  | .function parameters body =>
    c.expression (.function parameters body) ∧ Statement.AllObey c false body
  | .member target name => c.expression (.member target name) ∧ target.Obeys c
  | .index target place => c.expression (.index target place) ∧ target.Obeys c ∧ place.Obeys c
  | .unknown => c.expression .unknown

/-- Several expressions and all in them are allowed. -/
def Expression.AllObey (c : Conventions) : List Expression → Prop
  | [] => True
  | e :: rest => e.Obeys c ∧ Expression.AllObey c rest

/-- A statement and all in it are allowed. -/
def Statement.Obeys (c : Conventions) (inLoop : Bool) : Statement → Prop
  | .mk line form => c.statement inLoop (.mk line form) ∧ form.Obeys c inLoop

/-- All that is in a statement is allowed. -/
def Form.Obeys (c : Conventions) (inLoop : Bool) : Form → Prop
  | .declare _ value => value.Obeys c
  | .define _ _ body => Statement.AllObey c false body
  | .branch condition consequent none =>
    condition.Obeys c ∧ Statement.AllObey c inLoop consequent
  | .branch condition consequent (some alternative) =>
    condition.Obeys c ∧ Statement.AllObey c inLoop consequent ∧
      Statement.AllObey c inLoop alternative
  | .loop body _ none => Statement.AllObey c true body
  | .loop body _ (some iterable) => iterable.Obeys c ∧ Statement.AllObey c true body
  | .returns none => True
  | .returns (some value) => value.Obeys c
  | .breakLoop | .continueLoop | .unknown => True
  | .evaluate e => e.Obeys c

/-- The statements of a block and all in them are allowed. -/
def Statement.AllObey (c : Conventions) (inLoop : Bool) : List Statement → Prop
  | [] => True
  | s :: rest => s.Obeys c inLoop ∧ Statement.AllObey c inLoop rest

end

/-- The body of a function obeys. -/
def FunctionValue.Obeys (c : Conventions) (f : FunctionValue) : Prop :=
  Statement.AllObey c false f.body

/-- The functions that a value holds obey. -/
inductive Value.Obeys (c : Conventions) : Value → Prop where
  | number (value : Float) : Obeys c (.number value)
  | string (value : String) : Obeys c (.string value)
  | boolean (value : Bool) : Obeys c (.boolean value)
  | list {elements : List Value} : (∀ v ∈ elements, v.Obeys c) → Obeys c (.list elements)
  | function {f : FunctionValue} : f.Obeys c → Obeys c (.function f)

namespace Conventions

/-- The causes of errors that programs come to only by nodes that are allowed: any but those of a
target that is no name, of a node of no known kind, and of a jump outside of all loops. -/
def Admits (c : Conventions) : Cause → Prop
  | .invalidTarget _ => ∃ target value, (∀ name, target ≠ .identifier name) ∧
    c.expression (.assign target value)
  | .unknownExpression _ => c.expression .unknown
  | .unknownStatement _ => ∃ inLoop line, c.statement inLoop (.mk line .unknown)
  | .escapedSignal _ => ∃ line,
    c.statement false (.mk line .breakLoop) ∨ c.statement false (.mk line .continueLoop)
  | _ => True

/-- Every node is allowed. -/
def any : Conventions := ⟨fun _ => True, fun _ _ => True⟩

/-- Only names are the target of an assignment. -/
def namedTargets : Conventions where
  expression e := ∀ target value, e = .assign target value → ∃ name, target = .identifier name
  statement _ _ := True

/-- Only names are the target of an assignment, every node is of a known kind, and jumps are inside
loops. -/
def wellFormed : Conventions where
  expression e :=
    e ≠ .unknown ∧ ∀ target value, e = .assign target value → ∃ name, target = .identifier name
  statement inLoop s :=
    s.form ≠ .unknown ∧ (s.form = .breakLoop ∨ s.form = .continueLoop → inLoop = true)

/-- Outside of loops a well formed statement is no jump. -/
lemma wellFormed_not_jump (s : Statement) (h : wellFormed.statement false s) :
    ¬ (s.form = .breakLoop ∨ s.form = .continueLoop) := fun jump =>
  Bool.false_ne_true (h.2 jump)

end Conventions

mutual

/-- Every expression obeys where all is allowed. -/
lemma Expression.obeys_any : (e : Expression) → e.Obeys .any
  | .number _ | .string _ | .boolean _ | .identifier _ | .unknown => trivial
  | .assign target value => ⟨trivial, target.obeys_any, value.obeys_any⟩
  | .binary left _ right => ⟨trivial, left.obeys_any, right.obeys_any⟩
  | .unary _ operand => ⟨trivial, operand.obeys_any⟩
  | .call callee arguments => ⟨trivial, callee.obeys_any, Expression.allObey_any arguments⟩
  | .list elements => ⟨trivial, Expression.allObey_any elements⟩
  | .function _ body => ⟨trivial, Statement.allObey_any false body⟩
  | .member target _ => ⟨trivial, target.obeys_any⟩
  | .index target place => ⟨trivial, target.obeys_any, place.obeys_any⟩

/-- All expressions obey where all is allowed. -/
lemma Expression.allObey_any : (es : List Expression) → Expression.AllObey .any es
  | [] => trivial
  | e :: rest => ⟨e.obeys_any, Expression.allObey_any rest⟩

/-- Every statement obeys where all is allowed. -/
lemma Statement.obeys_any (inLoop : Bool) : (s : Statement) → s.Obeys .any inLoop
  | .mk _ form => ⟨trivial, form.obeys_any inLoop⟩

/-- Every form obeys where all is allowed. -/
lemma Form.obeys_any (inLoop : Bool) : (form : Form) → form.Obeys .any inLoop
  | .declare _ value => value.obeys_any
  | .define _ _ body => Statement.allObey_any false body
  | .branch condition consequent none =>
    ⟨condition.obeys_any, Statement.allObey_any inLoop consequent⟩
  | .branch condition consequent (some alternative) =>
    ⟨condition.obeys_any, Statement.allObey_any inLoop consequent,
      Statement.allObey_any inLoop alternative⟩
  | .loop body _ none => Statement.allObey_any true body
  | .loop body _ (some iterable) => ⟨iterable.obeys_any, Statement.allObey_any true body⟩
  | .returns none => trivial
  | .returns (some value) => value.obeys_any
  | .breakLoop | .continueLoop | .unknown => trivial
  | .evaluate e => e.obeys_any

/-- All statements obey where all is allowed. -/
lemma Statement.allObey_any (inLoop : Bool) :
    (b : List Statement) → Statement.AllObey .any inLoop b
  | [] => trivial
  | s :: rest => ⟨s.obeys_any inLoop, Statement.allObey_any inLoop rest⟩

end

/-- Every function obeys where all is allowed. -/
lemma FunctionValue.obeys_any (f : FunctionValue) : f.Obeys .any :=
  Statement.allObey_any false f.body

/-- Every value obeys where all is allowed. -/
lemma Value.obeys_any : (v : Value) → v.Obeys .any
  | .number value => .number value
  | .string value => .string value
  | .boolean value => .boolean value
  | .list elements => .list fun v _ => v.obeys_any
  | .function f => .function f.obeys_any

mutual

/-- The text of an expression whose targets are names comes to no target without a name. -/
lemma Expression.nameless?_eq_none :
    (e : Expression) → e.Obeys .namedTargets → e.nameless? = none
  | .number _, _ | .string _, _ | .boolean _, _ | .identifier _, _ | .function _ _, _
  | .unknown, _ => by simp only [Expression.nameless?]
  | .assign target value, ⟨named, _, hv⟩ => by
    obtain ⟨name, rfl⟩ := named target value rfl
    simpa [Expression.nameless?, Expression.target?] using Expression.nameless?_eq_none value hv
  | .binary left _ right, ⟨_, hl, hr⟩ => by
    simp [Expression.nameless?, Expression.nameless?_eq_none left hl,
      Expression.nameless?_eq_none right hr]
  | .unary _ operand, ⟨_, h⟩ => by
    simp [Expression.nameless?, Expression.nameless?_eq_none operand h]
  | .call callee arguments, ⟨_, hc, ha⟩ => by
    simp [Expression.nameless?, Expression.nameless?_eq_none callee hc,
      Expression.namelessAmong?_eq_none arguments ha]
  | .list elements, ⟨_, h⟩ => by
    simp [Expression.nameless?, Expression.namelessAmong?_eq_none elements h]
  | .member target _, ⟨_, h⟩ => by
    simp [Expression.nameless?, Expression.nameless?_eq_none target h]
  | .index target place, ⟨_, ht, hp⟩ => by
    simp [Expression.nameless?, Expression.nameless?_eq_none target ht,
      Expression.nameless?_eq_none place hp]

/-- Expressions that assign to names only can be shown. -/
lemma Expression.namelessAmong?_eq_none :
    (es : List Expression) → Expression.AllObey .namedTargets es →
      Expression.namelessAmong? es = none
  | [], _ => by simp only [Expression.namelessAmong?]
  | e :: rest, ⟨h, hs⟩ => by
    simp [Expression.namelessAmong?, Expression.nameless?_eq_none e h,
      Expression.namelessAmong?_eq_none rest hs]

end

/-- A statement that assigns to names only can be shown. -/
lemma Statement.nameless?_eq_none {inLoop : Bool} {s : Statement}
    (h : s.Obeys .namedTargets inLoop) : s.form.nameless? = none := by
  obtain ⟨line, form⟩ := s
  obtain ⟨_, h⟩ := h
  change form.nameless? = none
  cases form with
  | declare name value => exact value.nameless?_eq_none h
  | branch condition consequent alternative =>
    cases alternative with
    | none => exact condition.nameless?_eq_none h.1
    | some alternative => exact condition.nameless?_eq_none h.1
  | loop body name iterable =>
    cases iterable with
    | none => rfl
    | some iterable => exact iterable.nameless?_eq_none h.1
  | returns value =>
    cases value with
    | none => rfl
    | some value => exact value.nameless?_eq_none h
  | evaluate e => exact e.nameless?_eq_none h
  | define | breakLoop | continueLoop | unknown => rfl

end ScriptLang
