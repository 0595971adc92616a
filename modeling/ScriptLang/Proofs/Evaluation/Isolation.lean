import ScriptLang.Proofs.Environment.Grafting
import ScriptLang.Proofs.Evaluation.Sessions

/-!
# Functions do not see their caller

The body of a function runs in frames of its own on top of those of its caller, the outermost of
them a boundary. Two runs of it on top of different environments do the same as long as these have
the same functions, whatever their variables are, and none of this touches the frames below. So a
call is the same in both (`callFunction_ignores_variables`).
-/

namespace ScriptLang
open Evaluation

/-- The same frames, the outermost of them a boundary, on top of two environments. -/
def Grafted (base base' : Scope) (d : Nat) (env env' : Scope) : Prop :=
  ∃ inner : Scope, inner.Sealed ∧ inner.depth = d ∧ env = inner.atop base ∧ env' = inner.atop base'

section
variable {base base' : Scope} (depth : base'.depth = base.depth)
  (functions : ∀ name, base'.function? name = base.function? name)
include depth functions

/-- Nothing tells two environments apart from above a boundary. -/
lemma Grafted.coupled : Coupled .any (Grafted base base') where
  depth := by
    rintro d _ _ ⟨inner, _, _, rfl, rfl⟩
    rw [Environment.depth_atop, Environment.depth_atop, depth]
  lookup? := by
    rintro d _ _ name ⟨inner, isSealed, _, rfl, rfl⟩
    rw [isSealed.lookup?_atop, isSealed.lookup?_atop]
    exact ⟨rfl, fun v _ => v.obeys_any⟩
  function? := by
    rintro d _ _ name ⟨inner, _, _, rfl, rfl⟩
    rw [Environment.function?_atop, Environment.function?_atop, functions]
    exact ⟨rfl, fun f _ => f.obeys_any⟩
  push := by
    rintro d _ _ boundary ⟨inner, isSealed, rfl, rfl, rfl⟩
    exact ⟨inner.push boundary, isSealed.push boundary, rfl, inner.push_atop base boundary,
      inner.push_atop base' boundary⟩
  pop := by
    rintro d _ _ ⟨inner, isSealed, above, rfl, rfl⟩
    rw [Environment.pop_atop inner _ above, Environment.pop_atop inner _ above]
    exact ⟨inner.pop, isSealed.pop, Environment.depth_pop above, rfl, rfl⟩
  bind := by
    rintro d _ _ name v ⟨inner, isSealed, rfl, rfl, rfl⟩ _
    exact ⟨inner.bind name v, isSealed.bind name v, rfl, inner.bind_atop base name v,
      inner.bind_atop base' name v⟩
  define := by
    rintro d _ _ name f ⟨inner, isSealed, rfl, rfl, rfl⟩ _
    exact ⟨inner.define name f, isSealed.define name f, rfl, inner.define_atop base name f,
      inner.define_atop base' name f⟩
  assign? := by
    rintro d _ _ name v ⟨inner, isSealed, rfl, rfl, rfl⟩ _
    rw [isSealed.assign?_atop, isSealed.assign?_atop]
    -- The boundary stops the search for the variable, so what changes lies above it.
    cases assigned : inner.assign? name v with
    | none => exact .none
    | some above =>
      obtain ⟨isSealed, same⟩ := isSealed.assign? assigned
      exact .some ⟨above, isSealed, same, rfl, rfl⟩

/-- Blocks agree on top of two environments that have the same functions. -/
lemma Grafted.executeBlock (settings : Settings) (limit d : Nat) (b : List Statement) :
    Agree (Grafted base base') SameRecord (fun _ => True) d (Signal.Obeys .any false)
      (executeBlock settings (evaluate settings limit) b)
      (executeBlock settings (evaluate settings limit) b) := by
  have simulation : Simulation .any .silent .silent settings settings
      (Agree (Grafted base base') SameRecord fun _ => True) :=
    (Grafted.coupled depth functions).simulation_of_recordAlike .sameRecord (fun _ => rfl)
      Conventions.stopsWithin_any trivial settings.library.stopsWithin_any fun _ _ =>
        .pure obeying_none
  rw [← evaluateObserved_silent]
  exact simulation.executeBlock (simulation.evaluateObserved limit) d false b
    (Statement.allObey_any false b)

/-- Bodies of functions agree in two environments, which they leave as they are. -/
lemma Grafted.inCall {α : Type} {P : α → Prop} {p p' : Run α} {d : Nat}
    (h : Agree (Grafted base base') SameRecord (fun _ => True) 0 P p p') :
    Agree (fun _ env env' => env = base ∧ env' = base') SameRecord (fun _ => True) d P
      (Run.inScope true p) (Run.inScope true p') := by
  refine .inScope RecordAlike.sameRecord.ignoresScope ?_ ?_ h
  · rintro _ _ ⟨rfl, rfl⟩
    exact ⟨.root, rfl, rfl, rfl, rfl⟩
  · rintro _ _ ⟨⟨frame, _ | _⟩, _, above, rfl, rfl⟩
    · exact ⟨rfl, rfl⟩
    · cases above

/-- Calls agree in two environments that have the same functions. -/
lemma callFunction_agree (settings : Settings) (limit : Nat) (function : FunctionValue)
    (arguments : List Value) :
    Agree (fun _ env env' => env = base ∧ env' = base') SameRecord (fun _ => True) 0
      (fun _ => True) (callFunction settings (evaluate settings limit) function arguments)
      (callFunction settings (evaluate settings limit) function arguments) := by
  unfold callFunction
  split
  · exact .fail trivial
  · refine .bind (.count .sameRecord "calls") fun _ _ => ?_
    have sameDepth (env env' : Scope) (h : env = base ∧ env' = base') : env'.depth = env.depth := by
      rw [h.1, h.2, depth]
    refine .bind (.traceCall .sameRecord sameDepth settings _ _) fun _ _ => ?_
    have body := Grafted.executeBlock depth functions settings limit 0 function.body
    have bound : Agree (Grafted base base') SameRecord (fun _ => True) 0 (fun _ => True)
        (bindAll function.parameters arguments) (bindAll function.parameters arguments) :=
      (Grafted.coupled depth functions).bindAll RecordAlike.sameRecord.ignoresScope _ fun v _ =>
        v.obeys_any
    refine .bind (.reportingDepth trivial (Grafted.inCall depth functions
      (.bind bound fun _ _ => body))) fun signal _ => ?_
    split
    · exact .pure trivial
    · exact .pure trivial

end

/-- The same end of a run, in another environment. -/
def Run.endIn {α : Type} (scope : Scope) :
    EStateM.Result Interruption Machine α → EStateM.Result Interruption Machine α
  | .ok a m => .ok a { m with environment := scope }
  | .error stop m => .error stop { m with environment := scope }

/-- A call does the same in two environments of the same depth and with the same functions: it ends
with the same value or for the same reason, having called the host, written, traced and counted the
same. Each environment is in the end what it was. -/
theorem callFunction_ignores_variables (settings : Settings) (limit : Nat)
    (function : FunctionValue) (arguments : List Value) (m : Machine) (other : Scope)
    (depth : other.depth = m.environment.depth)
    (functions : ∀ name, other.function? name = m.environment.function? name) :
    callFunction settings (evaluate settings limit) function arguments
        { m with environment := other } =
      Run.endIn other
        (callFunction settings (evaluate settings limit) function arguments m) := by
  have agree := callFunction_agree depth functions settings limit function arguments m
    { m with environment := other } ⟨⟨rfl, rfl⟩, .of_scope m other⟩
  generalize callFunction _ _ _ _ m = r, callFunction _ _ _ _ { m with environment := other } = r'
    at agree ⊢
  cases agree with
  | ok _ paired =>
    obtain ⟨⟨_, rfl⟩, same⟩ := paired
    exact congrArg _ same.eq
  | error _ paired =>
    obtain ⟨⟨_, rfl⟩, same⟩ := paired
    exact congrArg _ same.eq

/-- The state inside of a loop, with variables of some value in both scopes. -/
def sampleCaller (value : Value) : Machine :=
  { Machine.initial with
    environment :=
      (((Environment.root.define "g" ⟨"g", [], []⟩).bind "x" value).push false).bind "y" value }

/-- A function that calls one which its caller has, and tries to return a variable of the caller. -/
def peeking : FunctionValue :=
  ⟨"peek", [], [.mk (some 1) (.evaluate (.call (.identifier "g") [])),
    .mk (some 2) (.returns (some (.identifier "x")))]⟩

/-- The function fails to read the variable, whatever its value is. -/
theorem peeking_ignores_variables :
    let settings : Settings := ⟨.empty, 2, 0⟩
    (sampleCaller (.string "a")).environment.depth =
        (sampleCaller (.boolean true)).environment.depth ∧
      callFunction settings (evaluate settings 9) peeking [] (sampleCaller (.string "a")) =
        Run.endIn (sampleCaller (.string "a")).environment
          (callFunction settings (evaluate settings 9) peeking []
            (sampleCaller (.boolean true))) := by
  have depth : (sampleCaller (.string "a")).environment.depth =
      (sampleCaller (.boolean true)).environment.depth := rfl
  have functions (name : String) : (sampleCaller (.string "a")).environment.function? name =
      (sampleCaller (.boolean true)).environment.function? name := rfl
  exact ⟨depth, callFunction_ignores_variables _ 9 peeking [] (sampleCaller (.boolean true)) _ depth
    functions⟩

end ScriptLang
