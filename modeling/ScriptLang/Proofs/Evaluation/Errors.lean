import ScriptLang.Proofs.Evaluation.Room
import ScriptLang.Proofs.Program.Nodes

/-!
# Where errors come from

A script that was read and runs with the standard library stops with an error that is located at one
of its statements, or with the one error that has no place, of nesting too deeply outside of all
functions. There are three exceptions, faults that are no errors of the script and have no place. An
operator refuses what it has no answer for, but a remainder of an infinite number is a fault of
arithmetic. A command that cannot be launched is reported, but one that the host refuses to launch
is a fault. And a script that there is no room to read is one (`scripts_fail_in_place`).
-/

namespace ScriptLang
open Evaluation

/-- Only an infinite number has no remainder, whatever number it is divided by. -/
lemma Number.remainder?_eq_none_iff {x y : Float} :
    remainder? x y = none ↔ (∃ negative, shape x = .infinite negative) ∧ shape y ≠ .nan := by
  unfold remainder?
  generalize shape x = s, shape y = t
  cases s with
  | nan => simp
  | infinite => cases t <;> simp
  | finite => cases t <;> simp

namespace Operator

/-- The only fault of an ordinary result is one of arithmetic. -/
lemma mathDomain_of_ordinary {mayFault : Prop} {f : HostFault}
    (h : Ordinary mayFault (.error (.fault f))) : f = .mathDomain ∧ mayFault := by
  generalize e : (.error (.fault f) : Except Failure Value) = outcome at h
  cases h with
  | fault may =>
    cases e
    exact ⟨rfl, may⟩
  | number | boolean | refuse => cases e

/-- No operation of one operand is a fault. -/
lemma applyUnary_ne_fault (operator : Operator) (operand : Value) (f : HostFault) :
    operator.applyUnary operand ≠ .error (.fault f) := fun e =>
  (mathDomain_of_ordinary (e ▸ operator.ordinary_applyUnary operand)).2

/-- A remainder is refused for a divisor of zero, and is a fault if there is none. -/
lemma applyBinary_modulo (a b : Float) :
    applyBinary .modulo (.number a) (.number b) =
      if b == 0 then refuse .moduloByZero
      else ((Number.remainder? a b).map (.ok ∘ .number)).getD (.error (.fault .mathDomain)) := by
  unfold applyBinary onNumbers?
  dsimp only [Option.getD_some]
  cases Number.remainder? a b with
  | none => rfl
  | some remainder => rfl

/-- Of the operations of two operands, only the remainder of an infinite number is a fault. A
divisor of zero is refused, and one that is not a number is its own remainder. -/
lemma applyBinary_eq_fault_iff {operator : Operator} {left right : Value} {f : HostFault} :
    operator.applyBinary left right = .error (.fault f) ↔
      f = .mathDomain ∧ operator = .modulo ∧ ∃ a b, left = .number a ∧ right = .number b ∧
        (∃ negative, Number.shape a = .infinite negative) ∧ (b == 0) = false ∧
        Number.shape b ≠ .nan := by
  constructor
  · intro e
    obtain ⟨rfl, rfl⟩ := mathDomain_of_ordinary (e ▸ operator.ordinary_applyBinary left right)
    refine ⟨rfl, rfl, ?_⟩
    cases left with
    | number a =>
      cases right with
      | number b =>
        rw [applyBinary_modulo] at e
        split at e
        case isTrue => cases e
        case isFalse ne =>
          cases none : Number.remainder? a b with
          | some remainder =>
            rw [none] at e
            cases e
          | none =>
            obtain ⟨infinite, number⟩ := Number.remainder?_eq_none_iff.1 none
            exact ⟨a, b, rfl, rfl, infinite, (Bool.not_eq_true _).mp ne, number⟩
      | _ => cases e
    | _ => cases right <;> cases e
  · rintro ⟨rfl, rfl, a, b, rfl, rfl, infinite, ne, number⟩
    rw [applyBinary_modulo, ne, Number.remainder?_eq_none_iff.2 ⟨infinite, number⟩]
    rfl

end Operator

/-- An error is located at one of the statements among some nodes. -/
def ScriptError.LocatedAmong (nodes : List Node) (e : ScriptError) : Prop :=
  ∃ inLoop s, .statement inLoop s ∈ nodes ∧ s.line ≠ none ∧ e.line = s.line ∧ e.statement = some s

/-- Some of the nodes is a remainder. -/
def HasRemainder (nodes : List Node) : Prop :=
  ∃ left right, .expression (.binary left .modulo right) ∈ nodes

/-- Some of the nodes calls the function that launches commands, by its name or its alias. -/
def HasCommand (nodes : List Node) : Prop :=
  ∃ name arguments, .expression (.call (.identifier name) arguments) ∈ nodes ∧
    (name = "cmd" ∨ name = "run")

/-- A fault may come from some nodes: from a remainder, or from a command if any is refused. -/
def HostFault.ComesFrom (launches : List String → Launch) (nodes : List Node) : HostFault → Prop
  | mathDomain => HasRemainder nodes
  | embeddedNull => HasCommand nodes ∧ ∃ command, launches command = .refused
  | stackExhausted | missingKey _ | missingName _ => False

/-- A run may stop so inside of a statement, if its program has these nodes: with an error that is
to be located or is located already, or with a fault that comes from them. -/
def Interruption.LocatedAmong (launches : List String → Launch) (nodes : List Node) :
    Interruption → Prop
  | failure (.error e) => e.line = none ∨ e.LocatedAmong nodes
  | failure (.fault f) => f.ComesFrom launches nodes
  | _ => True

/-- Nodes that are well formed, and every statement is on a line. -/
def Conventions.located : Conventions where
  expression := Conventions.wellFormed.expression
  statement inLoop s := Conventions.wellFormed.statement inLoop s ∧ s.line ≠ none

/-- Programs that are well formed have lines and named targets. -/
lemma Conventions.located_allowsWellFormed : Conventions.located.AllowsWellFormed :=
  ⟨id, fun h => ⟨h, nofun⟩⟩

/-- Located nodes have named targets. -/
lemma Conventions.located.namedTargets {node : Node} (h : located.Allows node) :
    Conventions.namedTargets.Allows node := by
  cases node with
  | expression e => exact h.2
  | statement inLoop s => trivial

section
variable {nodes : List Node} (read : ∀ node ∈ nodes, Conventions.located.Allows node)
include read

/-- Programs among the nodes stop at places among the nodes. -/
lemma Conventions.among_stopsWithin (launches : List String → Launch) :
    (Conventions.among nodes).StopsWithin (Interruption.LocatedAmong launches nodes) where
  fail _ := .inl rfl
  locate {e inLoop s} obeys h := by
    have mem : .statement inLoop s ∈ nodes := by
      cases s
      exact obeys.1
    have line : s.line ≠ none := (read _ mem).2
    cases place : e.line with
    | none =>
      unfold ScriptError.locate
      rw [place]
      exact .inr ⟨inLoop, s, mem, line, rfl, rfl⟩
    | some _ =>
      unfold ScriptError.locate
      rw [place]
      exact h
  fault h := ⟨_, _, h⟩
  nameless obeys found := by
    have named := obeys.of_among fun node mem => Conventions.located.namedTargets (read node mem)
    rw [Statement.nameless?_eq_none named] at found
    cases found
  unfinished _ := trivial

end

/-- What a sequence of two runs fails with is what one of them fails with. -/
lemma Run.error_of_bind {α β : Type} {act : Run α} {next : α → Run β} {m m' : Machine}
    {stop : Interruption} (h : (act >>= next) m = .error stop m') :
    act m = .error stop m' ∨ ∃ a n, act m = .ok a n ∧ next a n = .error stop m' := by
  change EStateM.bind act next m = _ at h
  unfold EStateM.bind at h
  split at h
  case h_1 a n ran => exact .inr ⟨a, n, ran, h⟩
  case h_2 ran =>
    cases h
    exact .inl ran

namespace Evaluation
variable {settings : Settings} {E : Evaluator}

/-- Before a statement runs there is no error of the script. -/
lemma announceStep_ne_error (s : Statement) (m m' : Machine) (e : ScriptError) :
    announceStep settings s m ≠ .error (.failure (.error e)) m' := by
  have agree : Agree (SameObeying .any) SameRecord (∀ e, · ≠ .failure (.error e)) 0
      (fun _ => True) (announceStep settings s) (announceStep settings s) :=
    .bind (.countStep .sameRecord) fun _ _ =>
      .traceStep .sameRecord (fun _ _ => (SameObeying.coupled .any).depth) settings
        fun _ _ _ => nofun
  have alike := agree m m m.obeys_any.paired
  intro ran
  rw [ran] at alike
  cases alike with
  | error other _ => exact other e rfl

/-- An error that was located at a statement with a line has a line. -/
lemma line_of_locatedAt {α : Type} {act : Run α} {s : Statement} (line : s.line ≠ none)
    {m m' : Machine} {e : ScriptError}
    (h : Run.locatedAt s act m = .error (.failure (.error e)) m') : e.line ≠ none := by
  unfold Run.locatedAt at h
  split at h
  case h_1 first _ _ =>
    cases h
    unfold ScriptError.locate
    split
    case h_1 place => exact fun none => nomatch none.symm.trans place
    case h_2 => exact line
  case h_2 other => exact absurd h (other e m')

/-- An error that leaves a statement which is on a line has a line. -/
lemma line_of_execute {s : Statement} (line : s.line ≠ none) {m m' : Machine} {e : ScriptError}
    (h : execute settings E s m = .error (.failure (.error e)) m') : e.line ≠ none := by
  obtain ⟨line?, form⟩ := s
  rw [execute_mk] at h
  rcases Run.error_of_bind h with failed | ⟨_, _, _, failed⟩
  · exact absurd failed (announceStep_ne_error _ _ _ _)
  · exact line_of_locatedAt line failed

/-- An error that leaves a block whose statements are on lines has a line. -/
lemma line_of_executeBlock {b : List Statement} (lines : ∀ s ∈ b, s.line ≠ none) {m m' : Machine}
    {e : ScriptError} (h : executeBlock settings E b m = .error (.failure (.error e)) m') :
    e.line ≠ none := by
  induction b generalizing m with
  | nil => cases h
  | cons s rest ih =>
    obtain ⟨first, others⟩ := List.forall_mem_cons.1 lines
    rcases Run.error_of_bind h with failed | ⟨signal, n, _, failed⟩
    · exact line_of_execute first failed
    · cases signal with
      | normal => exact ih others failed
      | returned | broken | continued => cases failed

end Evaluation

/-- Why a run has no result, if its program has these nodes: it was given up, or ended in an error
that is located at one of the statements or in the error of nesting too deeply, or with a fault that
comes from them. -/
def Problem.LocatedAmong (launches : List String → Launch) (nodes : List Node) : Problem → Prop
  | malformed _ => False
  | failed (.error e) => e = .ofCause .depthExceeded ∨ e.LocatedAmong nodes
  | failed (.fault f) => f.ComesFrom launches nodes
  | unfinished => True

/-- A program has a problem because its statements have it, or because a jump leaves them. -/
lemma error_of_runProgram {settings : Settings} {limit : Nat} {program : Program} {m m' : Machine}
    {stop : Interruption} (h : runProgram settings limit program m = .error stop m') :
    (∃ first, executeBlock settings (evaluate settings limit) program m = .error first m' ∧
      Problem.ofInterruption stop = Problem.ofInterruption first) ∨
    ∃ signal n, executeBlock settings (evaluate settings limit) program m = .ok signal n ∧
      (signal = .broken ∨ signal = .continued) := by
  rcases Run.error_of_bind h with failed | ⟨signal, n, ran, failed⟩
  · unfold Run.reportingDepth at failed
    split at failed
    case h_1 deep =>
      cases failed
      exact .inl ⟨_, deep, rfl⟩
    case h_2 => exact .inl ⟨_, failed, rfl⟩
  · unfold Run.reportingDepth at ran
    split at ran
    case h_1 => cases ran
    case h_2 =>
      refine .inr ⟨signal, n, ran, ?_⟩
      cases signal with
      | normal | returned => cases failed
      | broken => exact .inl rfl
      | continued => exact .inr rfl

/-- The functions of the standard library are the launcher, under two names, and the printer. -/
lemma Library.command_or_print {launches : List String → Launch} {name : String}
    {builtin : Builtin} (found : (Library.standard launches).builtin? name = some builtin) :
    (name = "cmd" ∨ name = "run") ∧ builtin = command launches ∨
      name = "print" ∧ builtin = print := by
  have registered {key : String} (found : (standard launches).builtins.get? key = some builtin) :
      key = "cmd" ∧ builtin = command launches ∨ key = "print" ∧ builtin = print := by
    simp only [standard, Bindings.get?, Bindings.find?] at found
    by_cases launcher : "cmd" = key
    case pos =>
      rw [if_pos launcher] at found
      cases found
      exact .inl ⟨launcher.symm, rfl⟩
    case neg =>
      rw [if_neg launcher] at found
      by_cases printer : "print" = key
      case pos =>
        rw [if_pos printer] at found
        cases found
        exact .inr ⟨printer.symm, rfl⟩
      case neg =>
        rw [if_neg printer] at found
        cases found
  -- An alias is looked up before the functions, and there is only that of the launcher.
  by_cases nicknamed : "run" = name
  case pos =>
    subst nicknamed
    obtain ⟨-, same⟩ | ⟨other, -⟩ := @registered "cmd" found
    · exact .inl ⟨.inr rfl, same⟩
    · exact absurd other (by decide)
  case neg =>
    have own : (standard launches).resolve name = name := by
      unfold resolve
      simp only [standard, Bindings.get?, Bindings.find?, if_neg nicknamed, Option.getD_none]
    unfold builtin? at found
    rw [own] at found
    exact (registered found).imp_left (And.imp_left .inl)

/-- Of the functions of the standard library only the launcher fails, if its command is refused. -/
lemma Library.standard_failure_iff {launches : List String → Launch} {name : String}
    {builtin : Builtin} (found : (Library.standard launches).builtin? name = some builtin)
    (calls : List HostCall) (arguments : List Value) (failure : Failure) :
    (builtin.respond calls arguments).failure = some failure ↔
      failure = .fault .embeddedNull ∧ (name = "cmd" ∨ name = "run") ∧
        launches (Value.texts arguments) = .refused := by
  obtain ⟨named, rfl⟩ | ⟨rfl, rfl⟩ := command_or_print found
  case inl =>
    change commandFailure launches (Value.texts arguments) = _ ↔ _
    unfold commandFailure
    cases launches (Value.texts arguments) with
    | ended | failed => simp
    | refused => simp [named, eq_comm]
  case inr => exact ⟨nofun, fun ⟨_, named, _⟩ => absurd named (by decide)⟩

/-- A function of the standard library that is called among some nodes stops runs with faults that
come from them. -/
lemma Library.standard_stopsWithin {launches : List String → Launch} {nodes : List Node}
    {name : String} {builtin : Builtin} (called : (Conventions.among nodes).CallsByName name)
    (found : (Library.standard launches).builtin? name = some builtin) :
    builtin.StopsWithin (Interruption.LocatedAmong launches nodes) := by
  intro calls arguments failure failed
  obtain ⟨written, mem⟩ := called
  obtain ⟨rfl, named, refused⟩ := (standard_failure_iff found calls arguments failure).1 failed
  exact ⟨⟨name, written, mem, named⟩, _, refused⟩

/-- A run of a program that was read stops with an error that has a place. -/
lemma locatedAmong_of_runProgram {launches : List String → Launch} {settings : Settings}
    (library : settings.library = .standard launches) {limit : Nat} {program : Program}
    (read : ∀ node ∈ Statement.allNodes false program, Conventions.located.Allows node)
    {m m' : Machine} (holds : m.Obeys (.among (Statement.allNodes false program)))
    {stop : Interruption} (h : runProgram settings limit program m = .error stop m') :
    (Problem.ofInterruption stop).LocatedAmong launches (Statement.allNodes false program) := by
  have lines : ∀ s ∈ program, s.line ≠ none := fun s mem =>
    (read _ (Statement.mem_allNodes mem)).2
  have simulation : Simulation (.among (Statement.allNodes false program)) .silent .silent settings
      settings (Agree (SameObeying (.among (Statement.allNodes false program))) SameRecord
        (Interruption.LocatedAmong launches (Statement.allNodes false program))) :=
    (SameObeying.coupled _).simulation_of_traceAlike .sameRecord (fun _ => rfl)
      (Conventions.among_stopsWithin read launches) trivial
      (fun called found => .callBuiltin .sameRecord
        (Library.standard_stopsWithin called (library ▸ found)) _)
      fun _ _ => .pure obeying_none
  have block := simulation.executeBlock (simulation.evaluateObserved limit) 0 false program
    (Statement.allObey_among false program) m m holds.paired
  rw [evaluateObserved_silent] at block
  rcases error_of_runProgram h with ⟨first, failed, same⟩ | ⟨signal, n, ran, jump⟩
  · rw [failed] at block
    rw [same]
    cases block with
    | error within _ =>
      match first with
      | .tooDeep => exact .inl rfl
      | .unfinished => trivial
      | .failure (.fault f) => exact within
      | .failure (.error e) => exact .inr (within.resolve_left (line_of_executeBlock lines failed))
  · rw [ran] at block
    -- A program that was read has no jump among its own statements.
    cases block with
    | ok obeys _ =>
      refine absurd jump (obeys.not_jump fun s mem => ?_)
      exact Conventions.wellFormed_not_jump s (read (.statement false s) mem).1

/-- Whether a run ended with a fault. Outcomes hold numbers, and are not compared. -/
def Report.isFault (report : Report) : Bool :=
  match report.outcome with
  | .error (.failed (.fault _)) => true
  | _ => false

/-- A report is of a fault if its outcome is one. -/
lemma Report.isFault_iff {report : Report} :
    report.isFault = true ↔ ∃ f, report.outcome = .error (.failed (.fault f)) := by
  unfold Report.isFault
  split
  case h_1 f outcome => exact ⟨fun _ => ⟨f, outcome⟩, fun _ => rfl⟩
  case h_2 other => exact ⟨nofun, fun ⟨f, outcome⟩ => (other f outcome).elim⟩

/-- A result that counts as true is a value. -/
lemma exists_of_toBool {ε α : Type} {result : Except ε α} (h : result.toBool = true) :
    ∃ a, result = .ok a := by
  cases result with
  | ok a => exact ⟨a, rfl⟩
  | error => cases h

/-- A script that was read and runs afresh with the standard library ends in an error that is
located at one of its statements, if it ends in an error, or in the one of nesting too deeply
outside of all functions. If it ends with a fault, this is one of arithmetic and there is a
remainder in the script, or a command was refused and there is a call that launches one, unless
there is no room to read the script. Of all operations only the remainder of an infinite number is a
fault, and of all functions of the library only the launcher fails, exactly when its command is
refused. -/
theorem scripts_fail_in_place {launches : List String → Launch} {engine : Engine}
    (library : engine.library = .standard launches) (limits : Limits) {source : String}
    {program : Program} (parsed : parse source = .ok program) {options : Options}
    (fresh : options.interactive = false) :
    (∀ room problem, (engine.runWithin limits room source options).1.outcome = .error problem →
      (Fits room source → problem.LocatedAmong launches (Statement.allNodes false program)) ∧
      (¬ Fits room source → problem = .failed (.fault .stackExhausted))) ∧
    (∀ operator operand f, Operator.applyUnary operator operand ≠ .error (.fault f)) ∧
    (∀ operator left right f, Operator.applyBinary operator left right = .error (.fault f) ↔
      f = .mathDomain ∧ operator = .modulo ∧ ∃ a b, left = .number a ∧ right = .number b ∧
        (∃ negative, Number.shape a = .infinite negative) ∧ (b == 0) = false ∧
        Number.shape b ≠ .nan) ∧
    ∀ name builtin, engine.library.builtin? name = some builtin → ∀ calls arguments failure,
      (builtin.respond calls arguments).failure = some failure ↔
        failure = .fault .embeddedNull ∧ (name = "cmd" ∨ name = "run") ∧
          launches (Value.texts arguments) = .refused := by
  have read : ∀ node ∈ Statement.allNodes false program, Conventions.located.Allows node :=
    (Statement.allObey_iff _ _ _).1 (obeys_of_parse Conventions.located_allowsWellFormed parsed)
  refine ⟨fun room problem failed => ⟨fun fits => ?_, fun tooDeep => ?_⟩,
    Operator.applyUnary_ne_fault, fun _ _ _ _ => Operator.applyBinary_eq_fault_iff,
    fun _ _ found => Library.standard_failure_iff (library ▸ found)⟩
  case refine_2 =>
    rw [Engine.runWithin_of_none (not_not.1 tooDeep)] at failed
    exact (Except.error.inj failed).symm
  rw [Engine.runWithin_of_program (fits.parseWithin_eq.trans (congrArg some parsed)),
    Engine.execute_fst engine limits program options rfl] at failed
  have located : ∀ stop m', runProgram ⟨engine.library, options.verbosity, limits.rounds⟩
      limits.depth program (engine.machineFor options) = .error stop m' →
      (Problem.ofInterruption stop).LocatedAmong launches (Statement.allNodes false program) :=
    fun _ _ => locatedAmong_of_runProgram library read (Engine.Obeys.of_fresh engine fresh)
  generalize runProgram _ _ _ _ = r at failed located
  cases r with
  | ok => cases failed
  | error stop m' =>
    cases failed
    exact located stop m' rfl

/-- A script that comes to infinity by multiplication and asks for a remainder of it. -/
def overflowing : String :=
  "let h = 99999999999999999999\nh = h * h\nh = h * h\nh = h * h\nh = h * h\nreturn h % 2"

/-- The script is well formed. -/
lemma parse_overflowing : ∃ program, parse overflowing = .ok program :=
  exists_of_toBool (by decide +kernel)

/-- A host that refuses the commands in which a text holds the null character. -/
def refusesNull (command : List String) : Launch :=
  if command.any (·.toList.contains '\x00') then .refused else .ended 0

/-- Whatever error the script ends with is located in it, or a fault of one of the two kinds. -/
theorem overflowing_fails_in_place :
    ∃ program, parse overflowing = .ok program ∧ Fits initialRoom overflowing ∧
      ∀ problem, ((Engine.new (.standard refusesNull)).runWithin ⟨9, 0⟩ initialRoom overflowing
          ⟨0, none, false⟩).1.outcome = .error problem →
        problem.LocatedAmong refusesNull (Statement.allNodes false program) := by
  obtain ⟨program, parsed⟩ := parse_overflowing
  have fits : Fits initialRoom overflowing := by decide +kernel
  have fails := (@scripts_fail_in_place refusesNull (.new (.standard refusesNull)) rfl ⟨9, 0⟩
    overflowing program parsed ⟨0, none, false⟩ rfl).1
  exact ⟨program, parsed, fits, fun problem failed => (fails initialRoom problem failed).1 fits⟩

/-- The script is accepted, and ends with a fault that is no error of the script. So does one whose
command holds a null character. -/
theorem overflowing_faults :
    (∃ program, parse overflowing = .ok program) ∧
      (∃ f, ((Engine.new (.standard refusesNull)).runWithin ⟨9, 0⟩ initialRoom overflowing
        ⟨0, none, false⟩).1.outcome = .error (.failed (.fault f))) ∧
      ∃ f, ((Engine.new (.standard refusesNull)).runWithin ⟨9, 0⟩ initialRoom "cmd(\"a\x00b\")"
        ⟨0, none, false⟩).1.outcome = .error (.failed (.fault f)) :=
  ⟨parse_overflowing, Report.isFault_iff.1 (by decide +kernel),
    Report.isFault_iff.1 (by decide +kernel)⟩

end ScriptLang
