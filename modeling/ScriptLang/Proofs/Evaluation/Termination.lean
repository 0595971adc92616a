import ScriptLang.Proofs.Evaluation.Sessions

/-!
# Programs without unbounded loops

The limit on nesting bounds recursion, and a loop over a list ends with the list. So only a loop
without bound can go on for ever, and it is the only statement to which the number of rounds
matters: a program without such a loop, in a state that holds no function with one, ends with a
result or a failure whatever that number is, and always in the same way
(`bounded_programs_terminate`).
-/

namespace ScriptLang
open Evaluation

/-- A loop without bound takes all the rounds it is given, however many, if its body goes on in
every state that it leads to. -/
theorem forever_unfinished {body : Run Signal} {states : Machine → Prop}
    (goesOn : ∀ m, states m →
      ∃ signal m', body m = .ok signal m' ∧ (signal = .normal ∨ signal = .continued) ∧ states m')
    (rounds : Nat) {m : Machine} (start : states m) :
    ∃ m', forever body rounds m = .error .unfinished m' := by
  induction rounds generalizing m with
  | zero => exact ⟨m, rfl⟩
  | succ rounds ih =>
    obtain ⟨signal, m', ran, on, next⟩ := goesOn m start
    obtain ⟨m'', rest⟩ := ih next
    have step : forever body (rounds + 1) m = forever body rounds m' := by
      show EStateM.bind body _ m = _
      unfold EStateM.bind
      rw [ran]
      rcases on with rfl | rfl
      · rfl
      · rfl
    exact ⟨m'', step.trans rest⟩

/-- No loop is without bound. -/
def Conventions.bounded : Conventions where
  expression _ := True
  statement _ s := ∀ body name, s.form ≠ .loop body name none

/-- No run of a bounded program is given up because of its loops. -/
lemma Conventions.bounded_stopsWithin : Conventions.bounded.StopsWithin (· ≠ .unfinished) where
  fail _ := nofun
  locate _ _ := nofun
  fault _ := nofun
  nameless _ _ := nofun
  unfinished {_ _ body name} allowed := absurd rfl (allowed body name)

/-- Runs that are given different numbers of rounds agree if no loop is without bound. -/
lemma simulation_bounded (settings : Settings) (rounds : Nat) :
    Simulation .bounded .silent .silent settings { settings with rounds }
      (Agree (SameObeying .bounded) SameRecord (· ≠ .unfinished)) := by
  have rounds {inLoop line body name}
      (allowed : Conventions.bounded.statement inLoop (.mk line (.loop body name none))) :
      rounds = settings.rounds := absurd rfl (allowed body name)
  have library : settings.library.StopsWithin (· ≠ .unfinished) := fun _ _ _ _ _ _ _ => nofun
  exact (SameObeying.coupled .bounded).simulation_of_recordAlike .sameRecord rounds
    Conventions.bounded_stopsWithin nofun library fun _ _ => .pure obeying_none

/-- Programs without unbounded loops end, and end alike for any number of rounds. -/
lemma runProgram_bounded (settings : Settings) (rounds limit : Nat) {program : Program}
    (bounded : Statement.AllObey .bounded false program) {m : Machine} (holds : m.Obeys .bounded) :
    EndAlike (Paired (SameObeying .bounded) SameRecord 0) (· ≠ .unfinished) (Obeying .bounded)
      (runProgram settings limit program m)
      (runProgram { settings with rounds } limit program m) := by
  have run := (simulation_bounded settings rounds).runProgramObserved limit 0 bounded
  rw [runProgramObserved_silent, runProgramObserved_silent] at run
  exact run m m holds.paired

/-- What becomes of a run that was not given up. -/
lemma Problem.ofInterruption_eq_failed {stop : Interruption} (h : stop ≠ .unfinished) :
    ∃ failure, ofInterruption stop = failed failure := by
  match stop with
  | .failure failure => exact ⟨failure, rfl⟩
  | .tooDeep => exact ⟨.error (.ofCause .depthExceeded), rfl⟩
  | .unfinished => exact absurd rfl h

/-- Only loops without bound can fail to end. A program in which there is none, the bodies of its
functions included, ends with a value, with none or with a failure, whatever the functions of the
host answer, and however deeply evaluation may nest. The number of rounds that a loop without bound
would be given makes no difference. This holds for runs that start afresh, and in sessions that hold
no function with such a loop. -/
theorem bounded_programs_terminate (engine : Engine) (limits : Limits) {program : Program}
    (bounded : Statement.AllObey .bounded false program) (options : Options)
    (start : options.interactive = false ∨ engine.Obeys .bounded) :
    ((∃ result, (engine.execute limits program options).1.outcome = .ok result) ∨
      ∃ failure, (engine.execute limits program options).1.outcome = .error (.failed failure)) ∧
    ∀ rounds, engine.execute ⟨limits.depth, rounds⟩ program options =
      engine.execute limits program options := by
  have holds : (engine.machineFor options).Obeys .bounded := by
    rcases start with fresh | holds
    · exact Engine.Obeys.of_fresh engine fresh
    · exact holds.machineFor options
  have run (rounds : Nat) := runProgram_bounded ⟨engine.library, options.verbosity, limits.rounds⟩
    rounds limits.depth bounded holds
  constructor
  · have alike := run limits.rounds
    rw [Engine.execute_fst engine limits program options rfl]
    generalize runProgram _ _ _ _ = r at alike ⊢
    cases alike with
    | ok => exact .inl ⟨_, rfl⟩
    | error stop =>
      obtain ⟨failure, eq⟩ := Problem.ofInterruption_eq_failed stop
      exact .inr ⟨failure, congrArg Except.error eq⟩
  · intro rounds
    have same := (run rounds).eq
    unfold Engine.execute
    dsimp only at same ⊢
    rw [same]

/-- A program in which a function calls itself in a loop over a list. -/
def exhausting : Program :=
  [.mk (some 1) (.define "f" ["g"] [.mk (some 2) (.loop
      [.mk (some 3) (.evaluate (.call (.identifier "g") [.identifier "g"]))] (some "x")
      (some (.list [.boolean true, .boolean false])))]),
    .mk (some 4) (.evaluate (.call (.identifier "f") [.identifier "f"]))]

/-- The program ends, whatever the number of rounds is. -/
theorem exhausting_terminates :
    Statement.AllObey .bounded false exhausting ∧
      ∀ rounds, (Engine.new .empty).execute ⟨10000, rounds⟩ exhausting ⟨0, none, false⟩ =
        (Engine.new .empty).execute .standard exhausting ⟨0, none, false⟩ := by
  have bounded : Statement.AllObey .bounded false exhausting := by
    simp [exhausting, Statement.AllObey, Statement.Obeys, Form.Obeys, Expression.Obeys,
      Expression.AllObey, Conventions.bounded]
  exact ⟨bounded, (bounded_programs_terminate (.new .empty) .standard bounded _ (.inl rfl)).2⟩

end ScriptLang
