import ScriptLang.Proofs.Evaluation.Sessions
import ScriptLang.Proofs.Grammar.Prefix

/-!
# Runs of scripts

The parser counts loops, and running a program yields signals: what the first keeps out never
arises in the second. A script that was read comes to no error that blames its tree, none of the
functions that it calls ends in a jump, and no loop does, whatever its body
(`scripts_keep_to_their_grammar`).
-/

namespace ScriptLang
open Evaluation

/-- The causes that blame a tree for being what no script is read as. -/
def Cause.BlamesTree : Cause → Prop
  | invalidTarget _ | escapedSignal _ | unknownStatement _ | unknownExpression _ => True
  | _ => False

/-- What well formed programs stop for does not blame the tree. -/
lemma Conventions.not_blamesTree {cause : Cause} (h : wellFormed.Admits cause) :
    ¬ cause.BlamesTree := by
  intro blames
  cases cause with
  | invalidTarget kind =>
    obtain ⟨target, value, nameless, _, named⟩ := h
    obtain ⟨name, eq⟩ := named target value rfl
    exact nameless name eq
  | unknownExpression kind => exact h.1 rfl
  | unknownStatement kind =>
    obtain ⟨inLoop, line, known, _⟩ := h
    exact known rfl
  | escapedSignal signal =>
    obtain ⟨line, jump | jump⟩ := h
    · exact wellFormed_not_jump _ jump (.inl rfl)
    · exact wellFormed_not_jump _ jump (.inr rfl)
  | _ => exact blames

/-- The value of a run has a property, if it comes to one. -/
def Run.Yields {α : Type} (P : α → Prop) (act : Run α) : Prop :=
  ∀ m a m', act m = .ok a m' → P a

/-- A signal that goes on or returns. -/
def Signal.Plain (signal : Signal) : Prop := signal ≠ .broken ∧ signal ≠ .continued

namespace Run.Yields
variable {α β : Type} {P : α → Prop} {Q : β → Prop}

/-- A value that is at hand has its property. -/
lemma pure {a : α} (h : P a) : Yields P (pure a : Run α) := by
  rintro m _ _ ⟨⟩
  exact h

/-- A run that stops has no value that could lack a property. -/
lemma throw (stop : Interruption) : Yields P (throw stop : Run α) := by
  rintro m _ _ ⟨⟩

/-- Runs in a row yield what the last of them does. -/
lemma bind {act : Run α} {f : α → Run β} (h : ∀ a, Yields Q (f a)) : Yields Q (act >>= f) := by
  intro m b m'' e
  change EStateM.bind act f m = _ at e
  unfold EStateM.bind at e
  split at e
  case h_1 a m' _ => exact h a m' b m'' e
  case h_2 => cases e

/-- A scope of its own changes no value. -/
lemma inScope {act : Run α} (h : Yields P act) (boundary : Bool) :
    Yields P (inScope boundary act) := by
  intro m a m'' e
  unfold Run.inScope at e
  split at e
  case h_1 a m' ran =>
    cases e
    exact h _ a m' ran
  case h_2 => cases e

/-- A place for errors changes no value. -/
lemma locatedAt {act : Run α} (h : Yields P act) (s : Statement) : Yields P (locatedAt s act) := by
  intro m a m' e
  unfold Run.locatedAt at e
  split at e
  case h_1 => cases e
  case h_2 => exact h m a m' e

end Run.Yields

namespace Evaluation
open Run (Yields)

/-- A loop over values ends plainly. -/
lemma forEach_plain (body : Value → Run Signal) (values : List Value) :
    Yields Signal.Plain (forEach body values) := by
  induction values with
  | nil => exact .pure ⟨nofun, nofun⟩
  | cons value rest ih =>
    refine .bind fun signal => ?_
    cases signal with
    | normal | continued => exact ih
    | broken => exact .pure ⟨nofun, nofun⟩
    | returned result => exact .pure ⟨nofun, nofun⟩

/-- A loop without bound ends plainly. -/
lemma forever_plain (body : Run Signal) (rounds : Nat) :
    Yields Signal.Plain (forever body rounds) := by
  induction rounds with
  | zero => exact .throw _
  | succ rounds ih =>
    refine .bind fun signal => ?_
    cases signal with
    | normal | continued => exact ih
    | broken => exact .pure ⟨nofun, nofun⟩
    | returned result => exact .pure ⟨nofun, nofun⟩

/-- A loop keeps the jumps of its body to itself. -/
lemma execute_loop_plain (settings : Settings) (evaluate : Evaluator) (line : Option Int)
    (body : List Statement) (name : Option String) (iterable : Option Expression) :
    Yields Signal.Plain (execute settings evaluate (.mk line (.loop body name iterable))) := by
  rw [execute_mk]
  refine .bind fun _ => .locatedAt ?_ _
  cases iterable with
  | none =>
    unfold executeForm
    exact (forever_plain _ _).inScope false
  | some iterable =>
    unfold executeForm
    exact .bind fun values => (forEach_plain _ values).inScope false

end Evaluation

/-- No error of the parser comes from where its rules never get. -/
lemma reached_of_error {ts : List Token} {e : Parser.Failure} (h : parseTokens ts = .error e) :
    e.cause ≠ .unreachable := (completes_of_error h).1.reached

/-- Texts that start with different characters are different. -/
lemma ne_of_head? {s t : String} (h : s.toList.head? ≠ t.toList.head?) : s ≠ t :=
  fun e => h (congrArg (fun s : String => s.toList.head?) e)

namespace SyntaxError

/-- No other cause is worded as code that is never reached. -/
lemma causeText_ne_unreachable {cause : Malformation} (h : cause ≠ .unreachable)
    (words text : String) (place : Position) :
    causeText words text place cause ≠ "Entered unreachable code." := by
  unfold causeText
  cases cause with
  | unreachable => exact absurd rfl h
  | _ => exact ne_of_head? (by simp)

/-- An unexpected character is not worded as code that is never reached. -/
lemma message_atCharacter_ne (found : Token.Unexpected) :
    (atCharacter found).message ≠ "Entered unreachable code." := by
  unfold message
  exact ne_of_head? (by simp)

/-- The message of another failure is not that of code that is never reached. -/
lemma message_ofFailure_ne {stop : Position} {e : Parser.Failure} (h : e.cause ≠ .unreachable) :
    (ofFailure stop e).message ≠ "Entered unreachable code." := by
  unfold ofFailure
  split
  · exact causeText_ne_unreachable h _ _ _
  · exact causeText_ne_unreachable h _ _ _

end SyntaxError

/-- No script is refused with the message of code that is never reached. -/
lemma message_ne_of_parse {source : String} {e : SyntaxError} (h : parse source = .error e) :
    e.message ≠ "Entered unreachable code." := by
  rw [parse_eq] at h
  split at h
  case h_1 scanned =>
    cases h
    unfold tokenize at scanned
    cases scan : Token.scan source.toList with
    | error found =>
      rw [scan] at scanned
      cases scanned
      exact SyntaxError.message_atCharacter_ne found
    | ok ts =>
      rw [scan] at scanned
      cases scanned
  case h_2 =>
    split at h
    case h_1 failed =>
      cases h
      exact SyntaxError.message_ofFailure_ne (reached_of_error failed)
    case h_2 => cases h

namespace Engine
variable {engine : Engine}

/-- Observed runs of scripts are the same for all observers of stray jumps. -/
lemma Scripted.agree {causes : Cause → Prop} (h : engine.Scripted causes)
    (admitted : ∀ cause, Conventions.wellFormed.Admits cause → causes cause)
    {source : String} {program : Program} (parsed : parse source = .ok program)
    (stray : Signal → Run (Option Value)) (verbosity : Int) (limits : Limits) (options : Options) :
    EndAlike (Paired (SameObeying .wellFormed) SameRecord 0) (Interruption.Within causes)
      (Obeying .wellFormed)
      (runProgram ⟨engine.library, verbosity, limits.rounds⟩ limits.depth program
        (engine.machineFor options))
      (runProgramObserved ⟨fun _ _ => pure (), stray⟩ ⟨engine.library, verbosity, limits.rounds⟩
        limits.depth program (engine.machineFor options)) := by
  have simulation : Simulation .wellFormed .silent ⟨fun _ _ => pure (), stray⟩
      ⟨engine.library, verbosity, limits.rounds⟩ ⟨engine.library, verbosity, limits.rounds⟩
      (Agree (SameObeying .wellFormed) SameRecord (Interruption.Within causes)) :=
    (SameObeying.coupled _).simulation_of_recordAlike .sameRecord (fun _ => rfl)
      (Conventions.stopsWithin_causes admitted) trivial h.failsWithin fun jump obeys =>
        absurd jump (obeys.not_jump Conventions.wellFormed_not_jump)
  have obeys := obeys_of_parse Conventions.wellFormed_allowsWellFormed parsed
  rw [← runProgramObserved_silent]
  exact simulation.runProgramObserved limits.depth 0 obeys _ _
    (Machine.Obeys.paired
      ((h.obeys Conventions.wellFormed_allowsWellFormed).machineFor options))

/-- A script that was read stops with an error of these causes only, if the nesting that is too deep
for all scripts is one of them. -/
lemma Scripted.within {causes : Cause → Prop} (h : engine.Scripted causes)
    (admitted : ∀ cause, Conventions.wellFormed.Admits cause → causes cause) {limits : Limits}
    {source : String} {options : Options} {e : ScriptError}
    (failed : (engine.run limits source options).1.outcome = .error (.failed (.error e))) :
    causes e.cause := by
  unfold Engine.run at failed
  split at failed
  case h_1 program parsed =>
    have run := h.agree admitted parsed Observer.silent.stray options.verbosity limits options
    rw [execute_fst engine limits program options rfl] at failed
    generalize runProgram _ _ _ _ = r, runProgramObserved _ _ _ _ _ = r' at run failed
    cases run with
    | ok _ _ => cases failed
    | @error stop _ _ within _ =>
      match stop with
      | .failure (.error _) =>
        cases failed
        exact within
      | .tooDeep =>
        cases failed
        exact admitted _ trivial
      | .failure (.fault _) | .unfinished => cases failed
  case h_2 => cases failed

end Engine

/-- Scripts that were read keep to their grammar. A run of one comes to no error that blames its
tree, if the functions of the host do not make one up, and it is the same run whatever would become
of calls whose bodies end in a jump, so there is none. No loop ends in a jump, whatever its body,
and no reading of a script ends where the parser never gets. -/
theorem scripts_keep_to_their_grammar {engine : Engine}
    (scripted : engine.Scripted fun cause => ¬ cause.BlamesTree) (limits : Limits) (source : String)
    (options : Options) :
    (∀ e, (engine.run limits source options).1.outcome = .error (.failed (.error e)) →
      ¬ e.cause.BlamesTree) ∧
    (∀ program, parse source = .ok program → ∀ stray : Signal → Run (Option Value),
      runProgramObserved ⟨fun _ _ => pure (), stray⟩
          ⟨engine.library, options.verbosity, limits.rounds⟩ limits.depth program
          (engine.machineFor options) =
        runProgram ⟨engine.library, options.verbosity, limits.rounds⟩ limits.depth program
          (engine.machineFor options)) ∧
    (∀ settings limit line body name iterable m signal m',
      execute settings limit (.mk line (.loop body name iterable)) m = .ok signal m' →
      signal ≠ .broken ∧ signal ≠ .continued) ∧
    (∀ tokens e, parseTokens tokens = .error e → e.cause ≠ .unreachable) ∧
    ∀ e, parse source = .error e → e.message ≠ "Entered unreachable code." := by
  refine ⟨fun e failed => ?_, fun program parsed stray => ?_, ?_, fun _ _ => reached_of_error,
    fun _ => message_ne_of_parse⟩
  · exact scripted.within (fun _ => Conventions.not_blamesTree) failed
  · have run := scripted.agree (fun _ => Conventions.not_blamesTree) parsed stray options.verbosity
      limits options
    exact run.eq
  · intro settings limit line body name iterable m signal m' e
    exact execute_loop_plain settings _ line body name iterable m signal m' e

/-- A function of a host that always fails, with an error of its own. -/
def refusing : Builtin where
  hostName := "op_refuse"
  signature := none
  respond _ _ := ⟨[], some (.error (.ofCause (.raised .value "Refused." none)))⟩

/-- An engine in whose session a script defined a function that ends in the failure of the host. -/
def sampleEngine : Engine :=
  ((Engine.new ⟨.set .empty "refuse" refusing, .empty⟩).run .standard
    "fn once(f) { loop { f() refuse() break } }" ⟨0, none, true⟩).2

/-- The engine is scripted, and no error of the script blames its tree. -/
theorem sampleEngine_keeps_to_its_grammar :
    sampleEngine.Scripted (fun cause => ¬ cause.BlamesTree) ∧
      ∀ e, (sampleEngine.run .standard "once(fn () { return })" ⟨2, none, true⟩).1.outcome =
        .error (.failed (.error e)) → ¬ e.cause.BlamesTree := by
  have refusing_fails : refusing.FailsWithin fun cause => ¬ cause.BlamesTree := by
    rintro calls arguments _ ⟨⟩ blames
    exact blames
  have none_fails : (Library.empty).FailsWithin fun cause => ¬ cause.BlamesTree := nofun
  have scripted : sampleEngine.Scripted fun cause => ¬ cause.BlamesTree :=
    .run _ _ _ (.new (none_fails.addBuiltin "refuse" refusing_fails))
  exact ⟨scripted, (scripts_keep_to_their_grammar scripted _ _ _).1⟩

end ScriptLang
