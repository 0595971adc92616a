import ScriptLang.Engine
import ScriptLang.Proofs.Environment.Discipline

/-!
# What runs leave behind

`Run.Leaves R act` says that the environment before a run and the one after it are related by `R`,
however the run ends. For a relation that is a preorder this is kept by all the ways to put runs
together, so for `Environment.Keeps` it holds of evaluation and for `Environment.Extends` of
execution. Both are proved with an evaluator for the expressions inside that is known to keep the
environment; the limit on nested evaluations then closes the circle, by induction.
-/

namespace ScriptLang
open Environment (Keeps Extends)

namespace Run
variable {α β : Type} {R R' : Scope → Scope → Prop}

/-- The state after a run, however it ended. -/
def after : EStateM.Result Interruption Machine α → Machine
  | .ok _ m => m
  | .error _ m => m

/-- The environments before and after a run are related, however it ends. -/
def Leaves (R : Scope → Scope → Prop) (act : Run α) : Prop :=
  ∀ m, R m.environment (after (act m)).environment

/-- A relation that a run made of several steps inherits from them. -/
structure Discipline (R : Scope → Scope → Prop) : Prop where
  refl (scope : Scope) : R scope scope
  trans {a b c : Scope} : R a b → R b c → R a c

/-- To leave everything as it is is a discipline. -/
lemma Discipline.eq : Discipline Eq := ⟨fun _ => rfl, Eq.trans⟩

/-- To keep an environment is a discipline. -/
lemma Discipline.keeps : Discipline Keeps := ⟨.refl, .trans⟩

/-- To extend an environment is a discipline. -/
lemma Discipline.adds : Discipline Extends := ⟨fun scope => (Keeps.refl scope).extends, .trans⟩

namespace Leaves
variable {act : Run α}

/-- A run follows every discipline that its own implies. -/
lemma mono (h : Leaves R act) (le : ∀ {a b}, R a b → R' a b) : Leaves R' act := fun m => le (h m)

/-- A run that keeps the environment extends it by nothing. -/
lemma weaken (h : Leaves Keeps act) : Leaves Extends act := h.mono Keeps.extends

/-- A run that does not touch the environment. -/
lemma of_eq (D : Discipline R) (h : Leaves Eq act) : Leaves R act :=
  fun m => h m ▸ D.refl m.environment

/-- To do nothing follows every discipline. -/
lemma pure (D : Discipline R) (a : α) : Leaves R (pure a : Run α) := fun m => D.refl m.environment

/-- To stop follows every discipline. -/
lemma throw (D : Discipline R) (stop : Interruption) : Leaves R (throw stop : Run α) :=
  fun m => D.refl m.environment

/-- To fail follows every discipline. -/
lemma fail (D : Discipline R) (cause : Cause) : Leaves R (fail cause : Run α) := throw D _

/-- A result that is at hand follows every discipline. -/
lemma ofExcept (D : Discipline R) (result : Except Failure α) : Leaves R (ofExcept result) := by
  cases result with
  | ok value => exact pure D value
  | error failure => exact throw D _

/-- Runs in a row follow the discipline of both. -/
lemma bind (D : Discipline R) {f : α → Run β} (h : Leaves R act) (hf : ∀ a, Leaves R (f a)) :
    Leaves R (act >>= f) := by
  intro m
  change R m.environment (after (EStateM.bind act f m)).environment
  unfold EStateM.bind
  have first := h m
  cases e : act m with
  | ok a m' =>
    rw [e] at first
    exact D.trans first (hf a m')
  | error stop m' =>
    rw [e] at first
    exact first

/-- What becomes of the value makes no difference. -/
lemma discard (h : Leaves R act) : Leaves R (discard act) := by
  intro m
  change R m.environment (after (EStateM.map _ act m)).environment
  unfold EStateM.map
  have first := h m
  cases e : act m with
  | ok a m' =>
    rw [e] at first
    exact first
  | error stop m' =>
    rw [e] at first
    exact first

/-- A run that begins by looking at the state. -/
lemma of_get {f : Machine → Run α} (h : ∀ m, R m.environment (after (f m m)).environment) :
    Leaves R (get >>= f) := h

/-- To look at the state follows every discipline. -/
lemma get (D : Discipline R) : Leaves R (get : Run Machine) := fun m => D.refl m.environment

/-- A change of the environment follows the discipline that it is an instance of. -/
lemma modifyScope {f : Scope → Scope} (h : ∀ scope, R scope (f scope)) :
    Leaves R (modifyScope f) := fun m => h m.environment

/-- Events do not touch the environment. -/
lemma emit (D : Discipline R) (event : Event) : Leaves R (emit event) :=
  fun m => D.refl m.environment

/-- Counts do not touch the environment. -/
lemma count (D : Discipline R) (name : String) : Leaves R (count name) :=
  fun m => D.refl m.environment

/-- A place for errors makes no difference. -/
lemma locatedAt (h : Leaves R act) (statement : Statement) :
    Leaves R (locatedAt statement act) := by
  intro m
  have first := h m
  unfold Run.locatedAt
  split
  case h_1 e =>
    rw [e] at first
    exact first
  case h_2 => exact first

/-- A report of nesting too deeply makes no difference. -/
lemma reportingDepth (h : Leaves R act) (cause : Cause) : Leaves R (reportingDepth cause act) := by
  intro m
  have first := h m
  unfold Run.reportingDepth
  split
  case h_1 e =>
    rw [e] at first
    exact first
  case h_2 => exact first

/-- A scope of its own is opened before a run and closed after it, however it ends. -/
lemma after_inScope (boundary : Bool) (act : Run α) (m : Machine) :
    (after (inScope boundary act m)).environment =
      (after (act { m with environment := m.environment.push boundary })).environment.pop := by
  unfold inScope
  cases act { m with environment := m.environment.push boundary } <;> rfl

/-- The body of a loop keeps the environment around it. -/
lemma inLoop (h : Leaves Extends act) : Leaves Keeps (inScope false act) := by
  intro m
  rw [after_inScope]
  exact Environment.keeps_pop_of_push (h { m with environment := m.environment.push false })

/-- The body of a function leaves the environment around it as it is. -/
lemma inCall (h : Leaves Extends act) : Leaves Eq (inScope true act) := by
  intro m
  rw [after_inScope]
  exact (Environment.pop_of_push (h { m with environment := m.environment.push true })).symm

end Leaves
end Run

end ScriptLang
