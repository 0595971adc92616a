import ScriptLang.Proofs.Evaluation.Sessions

/-!
# What the limit on nesting does

A run that reaches its limit stops there, and what is reported names the innermost function that was
active. Below, such a run is compared with one under a larger limit. Both are set beside a run that
does not report that it nests too deeply, but stops with a mark of all the functions that were
active (`evaluateUnreported`), so that it can be told from every other run. As long as the first run
does not stop there, all three are the same (`Unreported`), and `limit_only_cuts_short` follows by
induction on the limit.
-/

namespace ScriptLang
open Evaluation

/-- The same state, in whose record the functions that are active are marked, the innermost
first. -/
def Machine.marked (m : Machine) (active : List String) : Machine :=
  { m with history := .effect (.launch active) :: m.history }

/-- Marked states tell which functions are active. -/
lemma Machine.active_eq_of_marked_eq {m m' : Machine} {active active' : List String}
    (h : m.marked active = m'.marked active') : active = active' := by
  have history : Event.effect (.launch active) :: m.history =
      .effect (.launch active') :: m'.history := congrArg Machine.history h
  injection history with event _
  injection event with effect
  injection effect

namespace Evaluation

/-- Runs the body of a function without a report on nesting. -/
def runBodyUnreported (settings : Settings) (evaluate : Evaluator) (function : FunctionValue)
    (arguments : List Value) : Run Signal :=
  Run.inScope true do
    bindAll function.parameters arguments
    executeBlock settings evaluate function.body

/-- Calls a function without a report on nesting. -/
def callUnreported (settings : Settings) (evaluate : Evaluator) (function : FunctionValue)
    (arguments : List Value) : Run (Option Value) :=
  if arguments.length ≠ function.arity then
    Run.fail (.wrongArity function.name function.arity arguments.length)
  else do
    announceCall .silent settings function arguments
    finishCall .silent (← runBodyUnreported settings evaluate function arguments)

end Evaluation

/-- Evaluates an expression, without a report on nesting, while functions are active. Where the
limit is reached they are marked. -/
def evaluateUnreported (settings : Settings) : Nat → List String → Evaluator
  | 0, active, _ => do
    modify (·.marked active)
    throw .tooDeep
  | limit + 1, active, e =>
    evaluateBy settings (evaluateUnreported settings limit active)
      (fun function =>
        callUnreported settings (evaluateUnreported settings limit (function.name :: active))
          function) e

/-- A run of a program comes to an evaluation beyond its limit while functions are active, the
innermost first. -/
def ExceedsLimit (settings : Settings) (limit : Nat) (program : Program) (m : Machine)
    (active : List String) : Prop :=
  ∃ m' : Machine, executeBlock settings (evaluateUnreported settings limit []) program m =
    .error .tooDeep (m'.marked active)

/-- The cause of the error that a run ends in if it exceeds its limit while functions are active. -/
def Cause.exceeding : List String → Cause
  | [] => .depthExceeded
  | name :: _ => .depthExceededIn name

/-- What is reported of nesting too deeply inside of the calls of functions, the innermost first:
nothing so far, or an error that names the innermost. -/
inductive Interruption.Reports : List String → Interruption → Prop where
  | nothing : Reports [] tooDeep
  | innermost {name : String} {outer : List String} {e : ScriptError} :
    e.cause = .depthExceededIn name → Reports (name :: outer) (failure (.error e))

/-- The end of a run that does not report on nesting, beside the end of one that does. The first run
was begun while functions were active. If it exceeds its limit and both have the same limit, the
other run stops too. -/
inductive Unreported {α : Type} (active : List String) (same : Prop) (P : α → Prop) :
    (r r' : EStateM.Result Interruption Machine α) → Prop where
  | ok {a : α} {m : Machine} : P a → Unreported active same P (.ok a m) (.ok a m)
  | error {stop : Interruption} {m : Machine} : stop ≠ .tooDeep →
    Unreported active same P (.error stop m) (.error stop m)
  | exceeding {inner : List String} {stop : Interruption} {m : Machine}
    {r' : EStateM.Result Interruption Machine α} :
    stop.Reports inner → (same → r' = .error stop m) →
    Unreported active same P (.error .tooDeep (m.marked (inner ++ active))) r'

/-- Two runs end so from every state. -/
def RunUnreported (active : List String) (same : Prop) {α : Type} (_ : Nat) (P : α → Prop)
    (p p' : Run α) : Prop :=
  ∀ m, Unreported active same P (p m) (p' m)

namespace RunUnreported
variable {active : List String} {same : Prop} {α β : Type} {d : Nat} {P : α → Prop} {Q : β → Prop}
  {p p' : Run α}

/-- A run that never nests too deeply, beside itself. -/
lemma of_agree (h : Agree (SameObeying .any) SameRecord (· ≠ .tooDeep) d P p p) :
    RunUnreported active same d P p p := by
  intro m
  have alike := h m m m.obeys_any.paired
  generalize p m = r at alike ⊢
  cases alike with
  | ok h _ => exact .ok h
  | error stop _ => exact .error stop

/-- Runs in a row end so if their parts do. -/
lemma bind {f f' : α → Run β} (h : RunUnreported active same d P p p')
    (hf : ∀ a, P a → RunUnreported active same d Q (f a) (f' a)) :
    RunUnreported active same d Q (p >>= f) (p' >>= f') := by
  intro m
  have first := h m
  show Unreported active same Q (EStateM.bind p f m) (EStateM.bind p' f' m)
  unfold EStateM.bind
  generalize p m = r, p' m = r' at first ⊢
  cases first with
  | ok h => exact hf _ h _
  | error stop => exact .error stop
  | exceeding reports ends => exact .exceeding reports fun h => by rw [ends h]

/-- Runs with a place for their errors end so if they do without. -/
lemma locatedAt (s : Statement) (h : RunUnreported active same d P p p') :
    RunUnreported active same d P (Run.locatedAt s p) (Run.locatedAt s p') := by
  intro m
  have first := h m
  unfold Run.locatedAt
  generalize p m = r, p' m = r' at first ⊢
  cases first with
  | ok h => exact .ok h
  | @error stop _ ne =>
    match stop with
    | .failure (.error _) => exact .error nofun
    | .failure (.fault _) | .unfinished => exact .error nofun
    | .tooDeep => exact absurd rfl ne
  | exceeding reports ends =>
    cases reports with
    | nothing => exact .exceeding .nothing fun h => by rw [ends h]
    | @innermost _ _ e cause =>
      exact .exceeding (.innermost ((e.cause_locate s).trans cause)) fun h => by rw [ends h]

/-- Runs in scopes of their own end so if they do there. -/
lemma inScope (boundary : Bool) (h : RunUnreported active same (d + 1) P p p') :
    RunUnreported active same d P (Run.inScope boundary p) (Run.inScope boundary p') := by
  intro m
  have inner := h { m with environment := m.environment.push boundary }
  unfold Run.inScope
  generalize p _ = r, p' _ = r' at inner ⊢
  cases inner with
  | ok h => exact .ok h
  | error stop => exact .error stop
  | @exceeding _ _ m' _ reports ends =>
    exact .exceeding (m := { m' with environment := m'.environment.pop }) reports
      fun h => by rw [ends h]

/-- The call of a function reports that it nests too deeply, if no call inside of it does. -/
lemma reportingDepth {name : String} (h : RunUnreported (name :: active) same d P p p') :
    RunUnreported active same d P p (Run.reportingDepth (.depthExceededIn name) p') := by
  intro m
  have first := h m
  unfold Run.reportingDepth
  generalize p m = r, p' m = r' at first ⊢
  cases first with
  | ok h => exact .ok h
  | @error stop _ ne =>
    match stop with
    | .failure _ | .unfinished => exact .error nofun
    | .tooDeep => exact absurd rfl ne
  | @exceeding inner _ _ _ reports ends =>
    have eq : inner ++ name :: active = (inner ++ [name]) ++ active := by simp
    rw [eq]
    cases reports with
    | nothing => exact .exceeding (.innermost rfl) fun h => by rw [ends h]
    | innermost cause => exact .exceeding (.innermost cause) fun h => by rw [ends h]

end RunUnreported

section
variable (settings : Settings) {active : List String} {same : Prop}

/-- No reason to stop, apart from evaluation that nests too deeply, is that it does. -/
lemma Conventions.stopsWithin_ne_tooDeep {c : Conventions} : c.StopsWithin (· ≠ .tooDeep) where
  fail _ := nofun
  locate _ _ := nofun
  fault _ := nofun
  nameless _ _ := nofun
  unfinished _ := nofun

/-- All but calls is the same for both runs. -/
lemma Steps.unreported : Steps .any settings settings (RunUnreported active same) := by
  have library : settings.library.StopsWithin (· ≠ .tooDeep) := fun _ _ _ _ _ _ _ => nofun
  have plain : Steps .any settings settings (Agree (SameObeying .any) SameRecord (· ≠ .tooDeep)) :=
    (SameObeying.coupled .any).steps_of_recordAlike .sameRecord (fun _ => rfl)
      Conventions.stopsWithin_ne_tooDeep library
  exact {
    library := rfl
    rounds := fun _ => rfl
    pure := fun h => .of_agree (plain.pure h)
    bind := fun h hf => h.bind hf
    fail := fun h => .of_agree (plain.fail h)
    fault := fun h => .of_agree (plain.fault h)
    unfinished := fun h => .of_agree (plain.unfinished h)
    locatedAt := fun _ h => h.locatedAt _
    inScope := fun boundary h => h.inScope boundary
    announceStep := fun h => .of_agree (plain.announceStep h)
    performBuiltin := fun called found => .of_agree (plain.performBuiltin called found)
    readVariable := .of_agree plain.readVariable
    namedCallee := .of_agree plain.namedCallee
    declare := fun h => .of_agree (plain.declare h)
    define := fun h => .of_agree (plain.define h)
    bindAll := fun h => .of_agree (plain.bindAll h)
    assign := fun h => .of_agree (plain.assign h) }

variable {settings}

/-- A call, if its body is run while the function is active, too. -/
lemma RunUnreported.call {E E' : Evaluator} {d : Nat} {function : FunctionValue}
    (H : ∀ d, ∀ e : Expression, e.Obeys .any →
      RunUnreported (function.name :: active) same d (Obeying .any) (E e) (E' e))
    (arguments : List Value) :
    RunUnreported active same d (Obeying .any) (callUnreported settings E function arguments)
      (callObserved .silent settings E' function arguments) := by
  have outside : Steps .any settings settings (RunUnreported active same) := .unreported settings
  -- Errors of the body name the function, as it is active there and nowhere around the call.
  have inside : Steps .any settings settings (RunUnreported (function.name :: active) same) :=
    .unreported settings
  have announced : RunUnreported active same d (fun _ => True)
      (announceCall .silent settings function arguments)
      (announceCall .silent settings function arguments) :=
    .of_agree ((SameObeying.coupled .any).announceCall_of_traceAlike .sameRecord function
      arguments)
  have body : RunUnreported active same d (Signal.Obeys .any false)
      (runBodyUnreported settings E function arguments)
      (runBody settings E' function arguments) := by
    have bound : RunUnreported (function.name :: active) same (d + 1) (fun _ => True)
        (bindAll function.parameters arguments) (bindAll function.parameters arguments) :=
      inside.bindAll fun v _ => v.obeys_any
    have block := inside.executeBlock H (d + 1) false function.body function.obeys_any
    exact .reportingDepth (.inScope true (inside.bind bound fun _ _ => block))
  unfold callUnreported callObserved
  split
  · exact outside.fail trivial
  · refine outside.bind announced fun _ _ => outside.bind body fun signal obeys => ?_
    cases signal with
    | returned result => exact outside.pure obeys
    | normal | broken | continued => exact outside.pure obeying_none

/-- Evaluations, the second under a limit that is as large or larger. -/
lemma RunUnreported.evaluate {limit limit' : Nat} (le : limit ≤ limit')
    (eq : same → limit' = limit) (d : Nat) (e : Expression) (h : e.Obeys .any) :
    RunUnreported active same d (Obeying .any) (evaluateUnreported settings limit active e)
      (evaluateObserved .silent settings limit' e) := by
  induction limit generalizing limit' active d e with
  | zero =>
    intro m
    show Unreported active same _ (.error .tooDeep (m.marked ([] ++ active))) _
    refine .exceeding .nothing fun h => ?_
    rw [eq h]
    rfl
  | succ limit ih =>
    obtain ⟨limit', rfl⟩ := Nat.exists_eq_add_of_le' (Nat.le_trans (Nat.succ_pos limit) le)
    have le : limit ≤ limit' := Nat.le_of_succ_le_succ le
    have eq : same → limit' = limit := fun h => Nat.succ.inj (eq h)
    have steps : Steps .any settings settings (RunUnreported active same) := .unreported settings
    exact steps.evaluateBy (ih le eq d) (fun _ _ => .call (ih le eq) _) h

/-- Programs, the second under a limit that is as large or larger. -/
lemma RunUnreported.program (settings : Settings) {limit limit' : Nat} (le : limit ≤ limit')
    (eq : same → limit' = limit) (program : Program) :
    RunUnreported [] same 0 (Signal.Obeys .any false)
      (executeBlock settings (evaluateUnreported settings limit []) program)
      (executeBlock settings (ScriptLang.evaluate settings limit') program) := by
  have steps : Steps .any settings settings (RunUnreported [] same) := .unreported settings
  rw [← evaluateObserved_silent]
  exact steps.executeBlock (RunUnreported.evaluate le eq) 0 false program
    (Statement.allObey_any false program)

/-- A program ends in the error that names the innermost function, if there is one. -/
lemma runProgram_of_reports {limit : Nat} {program : Program} {m m' : Machine}
    {active : List String} {stop : Interruption}
    (h : executeBlock settings (ScriptLang.evaluate settings limit) program m = .error stop m')
    (reports : stop.Reports active) :
    ∃ e, runProgram settings limit program m = .error (.failure (.error e)) m' ∧
      e.cause = .exceeding active := by
  rw [runProgram_apply, h]
  cases reports with
  | nothing => exact ⟨.ofCause .depthExceeded, rfl, rfl⟩
  | @innermost _ _ e cause => exact ⟨e, rfl, cause⟩

/-- To exceed the limit is an error of running. -/
lemma Cause.kind_exceeding (active : List String) : (exceeding active).kind = .runtime := by
  cases active with
  | nil => rfl
  | cons name outer => rfl

/-- A run that exceeds its limit ends in the error that says so. -/
lemma ExceedsLimit.runProgram {limit : Nat} {program : Program} {m : Machine}
    (h : ExceedsLimit settings limit program m active) :
    ∃ e m', runProgram settings limit program m = .error (.failure (.error e)) m' ∧
      e.cause = .exceeding active := by
  obtain ⟨m', exceeds⟩ := h
  have beside : Unreported [] True _ _ _ :=
    RunUnreported.program settings (Nat.le_refl limit) (fun _ => rfl) program m
  rw [exceeds] at beside
  generalize marked : m'.marked active = n at beside
  generalize ran : executeBlock settings (ScriptLang.evaluate settings limit) program m = r
    at beside
  cases beside with
  | error ne => exact absurd rfl ne
  | @exceeding inner stop m' _ reports ends =>
    have eq : active = inner := (Machine.active_eq_of_marked_eq marked).trans (List.append_nil _)
    obtain ⟨e, run, cause⟩ := runProgram_of_reports (ran.trans (ends trivial)) reports
    exact ⟨e, m', run, cause.trans (congrArg _ eq.symm)⟩

/-- A run that does not exceed its limit is the same under every larger limit. -/
lemma runProgram_eq_of_not_exceedsLimit {limit limit' : Nat} (le : limit ≤ limit')
    {program : Program} {m : Machine}
    (h : ¬ ∃ active, ExceedsLimit settings limit program m active) :
    runProgram settings limit' program m = runProgram settings limit program m := by
  have small : Unreported [] True _ _ _ :=
    RunUnreported.program settings (Nat.le_refl limit) (fun _ => rfl) program m
  have large : Unreported [] False _ _ _ :=
    RunUnreported.program settings le False.elim program m
  rw [runProgram_apply, runProgram_apply]
  refine congrArg Run.ending ?_
  have exceeds : ∀ active m', executeBlock settings (evaluateUnreported settings limit []) program m
      ≠ .error .tooDeep (Machine.marked m' active) := fun active m' e => h ⟨active, m', e⟩
  generalize executeBlock settings (evaluateUnreported settings limit []) program m = r
    at small large exceeds
  generalize executeBlock settings (ScriptLang.evaluate settings limit) program m = plain at small ⊢
  generalize executeBlock settings (ScriptLang.evaluate settings limit') program m = other
    at large ⊢
  cases large with
  | ok =>
    cases small with
    | ok => rfl
  | error ne =>
    cases small with
    | error => rfl
    | exceeding => exact absurd rfl ne
  | exceeding => exact absurd rfl (exceeds _ _)

end

/-- The limit on nesting only cuts runs short. A run that exceeds its limit ends in a runtime error
that names the innermost function which was active, if one was, and its environment is back at the
frame in which the run began; in a session this is the root. Every other run is the same run under
all larger limits: with the same result, the same record and calls of the host, the same counters
and the same environment. Runs that do not end in an error of a limit are among these. -/
theorem limit_only_cuts_short (settings : Settings) (limit : Nat) (program : Program)
    (m : Machine) :
    (∀ active, ExceedsLimit settings limit program m active →
      ∃ e m', runProgram settings limit program m = .error (.failure (.error e)) m' ∧
        e.cause = .exceeding active ∧ e.cause.kind = .runtime ∧
        m'.environment.depth = m.environment.depth) ∧
    ((∃ active, ExceedsLimit settings limit program m active) ∨
      ∀ limit', limit ≤ limit' →
        runProgram settings limit' program m = runProgram settings limit program m) ∧
    ((∀ active e m', runProgram settings limit program m = .error (.failure (.error e)) m' →
        e.cause ≠ .exceeding active) →
      ∀ limit', limit ≤ limit' →
        runProgram settings limit' program m = runProgram settings limit program m) := by
  refine ⟨fun active exceeds => ?_, ?_, fun plain limit' le => ?_⟩
  · obtain ⟨e, m', run, cause⟩ := exceeds.runProgram
    have left := leaves_runProgram settings limit program m
    rw [run] at left
    exact ⟨e, m', run, cause, cause ▸ Cause.kind_exceeding active, left.depth⟩
  · by_cases h : ∃ active, ExceedsLimit settings limit program m active
    · exact .inl h
    · exact .inr fun limit' le => runProgram_eq_of_not_exceedsLimit le h
  · apply runProgram_eq_of_not_exceedsLimit le
    rintro ⟨active, exceeds⟩
    obtain ⟨e, m', run, cause⟩ := exceeds.runProgram
    exact plain active e m' run cause

/-- A function that calls itself without end. -/
def endless : Statement :=
  .mk (some 1) (.define "f" [] [.mk (some 1) (.evaluate (.call (.identifier "f") []))])

/-- The function is called at the top level. -/
def recursing : Program := [endless, .mk (some 2) (.evaluate (.call (.identifier "f") []))]

/-- The call of the function exceeds a limit of two. Its definition alone exceeds none. -/
theorem recursing_is_cut_short :
    (ExceedsLimit ⟨.empty, 0, 0⟩ 2 recursing .initial ["f", "f"] ∧
      ∃ e m', runProgram ⟨.empty, 0, 0⟩ 2 recursing .initial = .error (.failure (.error e)) m' ∧
        e.cause = .depthExceededIn "f" ∧ m'.environment.depth = 0) ∧
    ∀ limit', 2 ≤ limit' →
      runProgram ⟨.empty, 0, 0⟩ limit' [endless] .initial =
        runProgram ⟨.empty, 0, 0⟩ 2 [endless] .initial := by
  have exceeds : ExceedsLimit ⟨.empty, 0, 0⟩ 2 recursing .initial ["f", "f"] :=
    ⟨{ Run.after (runProgram ⟨.empty, 0, 0⟩ 2 recursing .initial) with history := [] }, rfl⟩
  obtain ⟨e, m', run, cause, _, depth⟩ :=
    (limit_only_cuts_short ⟨.empty, 0, 0⟩ 2 recursing .initial).1 ["f", "f"] exceeds
  refine ⟨⟨exceeds, e, m', run, cause, depth⟩, ?_⟩
  exact (limit_only_cuts_short ⟨.empty, 0, 0⟩ 2 [endless] .initial).2.2 fun _ _ _ run => nomatch run

end ScriptLang
