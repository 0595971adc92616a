import ScriptLang.Proofs.Evaluation.Tasks

/-!
# Errors point at the innermost statement

Whatever a run is busy with when an error is raised, it is inside of some statement, and of those
that it is inside of one is the innermost: in the body of a function that is called, a statement of
that body (`During`). If all statements are on lines, an error that has no line of its own leaves
the run with that statement and its line, and is the same otherwise. All errors that leave a run do
so, apart from two that belong to the run as a whole (`errors_point_at_innermost_statement`).
-/

namespace ScriptLang
open Evaluation

section
variable {c : Conventions} {settings : Settings} {limit : Nat} {m n : Machine}

/-- What agrees with itself keeps a state in which all obeys. -/
lemma ok_of_agree {α : Type} {P : α → Prop} {act : Run α} {a : α}
    (h : Agree (SameObeying c) SameRecord (fun _ => True) 0 P act act) (obeys : m.Obeys c)
    (ran : act m = .ok a n) : P a ∧ n.Obeys c := by
  have alike := h m m obeys.paired
  rw [ran] at alike
  cases alike with
  | ok ha paired => exact ⟨ha, paired.environments.holds⟩

/-- Each of expressions that obey obeys. -/
lemma Expression.AllObey.of_mem {es : List Expression} (h : Expression.AllObey c es)
    {x : Expression} (mem : x ∈ es) : x.Obeys c := by
  induction es with
  | nil => cases mem
  | cons first rest ih =>
    cases mem with
    | head => exact h.1
    | tail _ mem => exact ih h.2 mem

/-- Each of statements that obey obeys. -/
lemma Statement.AllObey.of_mem {inLoop : Bool} {b : List Statement}
    (h : Statement.AllObey c inLoop b) {s : Statement} (mem : s ∈ b) : s.Obeys c inLoop := by
  induction b with
  | nil => cases mem
  | cons first rest ih =>
    cases mem with
    | head => exact h.1
    | tail _ mem => exact ih h.2 mem

/-- The operands of an expression that obeys obey. -/
lemma Expression.Obeys.operands {x : Expression} (h : x.Obeys c) :
    Expression.AllObey c x.operands := by
  cases x with
  | binary | index => exact ⟨h.2.1, h.2.2, trivial⟩
  | unary | member => exact ⟨h.2, trivial⟩
  | list => exact h.2
  | assign target value =>
    cases target with
    | identifier => exact ⟨h.2.2, trivial⟩
    | _ => exact trivial
  | call callee arguments =>
    cases callee with
    | identifier => exact trivial
    | _ => exact ⟨h.2.1, trivial⟩
  | _ => exact trivial

/-- The expression at the head of a form that obeys obeys. -/
lemma Form.Obeys.head {inLoop : Bool} {form : Form} {x : Expression} (h : form.Obeys c inLoop)
    (head : form.head? = some x) : x.Obeys c := by
  cases form with
  | declare | evaluate =>
    cases head
    exact h
  | branch condition consequent alternative =>
    cases head
    cases alternative with
    | none => exact h.1
    | some _ => exact h.1
  | loop body name iterable =>
    cases head
    exact h.1
  | returns value =>
    cases head
    exact h
  | _ => cases head

/-- Evaluations agree with themselves. -/
lemma agree_evaluate (d : Nat) (x : Expression) (h : x.Obeys c) :
    Agree (SameObeying c) SameRecord (fun _ => True) d (Obeying c) (evaluate settings limit x)
      (evaluate settings limit x) := by
  rw [← evaluateObserved_silent]
  exact (simulation_silent settings).evaluateObserved limit d x h

/-- After an evaluation the state obeys. -/
lemma evaluate_keeps {es : List Expression} (h : Expression.AllObey c es) :
    ∀ x ∈ es, ∀ m result n, Machine.Obeys c m → evaluate settings limit x m = .ok result n →
      n.Obeys c := fun x mem _ _ _ obeys ran =>
  (ok_of_agree (agree_evaluate 0 x (h.of_mem mem)) obeys ran).2

/-- After a statement the state obeys. -/
lemma execute_keeps {inLoop : Bool} {b : List Statement} (h : Statement.AllObey c inLoop b) :
    ∀ s ∈ b, ∀ m signal n, Machine.Obeys c m → execute settings limit s m = .ok signal n →
      n.Obeys c := fun s mem _ _ _ obeys ran =>
  (ok_of_agree ((simulation_silent settings).execute agree_evaluate 0 inLoop s (h.of_mem mem))
    obeys ran).2

/-- A state that obeys obeys in a scope of its own. -/
lemma Machine.Obeys.inLoop (h : m.Obeys c) : m.inLoop.Obeys c := h.push false

/-- The bodies of functions that are called obey. -/
def Callee.Obeys (c : Conventions) (found : Callee) : Prop :=
  ∀ function, found = .script function → function.Obeys c

/-- A function that is found in a value obeys. -/
lemma agree_functionIn (name : Option String) {v : Value} (h : v.Obeys c) :
    Agree (SameObeying c) SameRecord (fun _ => True) 0 (Callee.Obeys c) (functionIn name v)
      (functionIn name v) := by
  cases h with
  | function h =>
    refine .pure ?_
    rintro _ ⟨⟩
    exact h
  | number | string | boolean | list => exact .fail trivial

/-- What is called obeys. -/
lemma agree_calleeOf {callee : Expression} (h : callee.Obeys c) :
    Agree (SameObeying c) SameRecord (fun _ => True) 0 (Callee.Obeys c)
      (calleeOf settings (evaluate settings limit) callee)
      (calleeOf settings (evaluate settings limit) callee) := by
  have S := simulation_silent (c := c) settings
  cases callee with
  | identifier name =>
    unfold calleeOf
    dsimp only
    cases settings.library.builtin? name with
    | some builtin => exact .pure nofun
    | none => exact .bind S.namedCallee fun v hv => agree_functionIn _ hv
  | _ => exact .bind (S.valueOf (agree_evaluate 0) _ h) fun v hv => agree_functionIn _ hv

/-- A call is entered in a state that obeys. -/
lemma agree_enterCall (function : FunctionValue) {values : List Value}
    (obey : ∀ v ∈ values, v.Obeys c) :
    Agree (SameObeying c) SameRecord (fun _ => True) 0 (fun _ => True)
      (enterCall settings function values) (enterCall settings function values) := by
  have S := simulation_silent (c := c) settings
  refine .bind S.announceCall fun _ _ => .bind (P := fun _ => True) ?_ fun _ _ => S.bindAll obey
  exact .modifyScope RecordAlike.sameRecord.ignoresScope fun _ _ h =>
    ⟨congrArg (·.push true) h.eq, h.holds.push true⟩

/-- A round of a loop is entered in a state that obeys. -/
lemma agree_enterRound (name : Option String) {value : Value} (h : value.Obeys c) :
    Agree (SameObeying c) SameRecord (fun _ => True) 0 (fun _ => True) (enterRound name value)
      (enterRound name value) := by
  cases name with
  | none => exact .pure trivial
  | some name =>
    exact .modifyScope RecordAlike.sameRecord.ignoresScope fun _ _ same =>
      (SameObeying.coupled c).declare name same h

/-- What a task is about obeys. -/
def Task.Obeys (c : Conventions) : Task → Prop
  | evaluation _ x => x.Obeys c
  | statement _ s => ∃ inLoop, s.Obeys c inLoop

/-- A statement that is begun inside of another obeys, and the state does in which it begins. -/
lemma Evaluation.BeginsIn.obeys {inLoop : Bool} {form : Form} {s : Statement}
    (h : BeginsIn settings (evaluate settings limit) form m s n) (obeys : form.Obeys c inLoop)
    (hm : m.Obeys c) : (∃ inLoop, s.Obeys c inLoop) ∧ n.Obeys c := by
  have S := simulation_silent (c := c) settings
  have block {inLoop : Bool} {b : List Statement} {m : Machine} (hb : Statement.AllObey c inLoop b)
      (hm : m.Obeys c)
      (starts : Starts (execute settings (evaluate settings limit)) (· = .normal) b m s n) :
      (∃ inLoop, s.Obeys c inLoop) ∧ n.Obeys c :=
    ⟨⟨inLoop, hb.of_mem starts.mem⟩, starts.keeps (execute_keeps hb) hm⟩
  cases h with
  | @consequent condition _ alternative _ _ _ _ ran starts =>
    have tested := (ok_of_agree (S.conditionOf (agree_evaluate 0) (obeys.head rfl)) hm ran).2
    cases alternative with
    | none => exact block obeys.2 tested starts
    | some => exact block obeys.2.1 tested starts
  | alternative ran starts =>
    have tested := (ok_of_agree (S.conditionOf (agree_evaluate 0) obeys.1) hm ran).2
    exact block obeys.2.2 tested starts
  | element ran starts entered inside =>
    obtain ⟨values, hm'⟩ := ok_of_agree (S.iterableOf (agree_evaluate 0) _ obeys.1) hm ran
    have rounds := starts.keeps (fun value mem _ _ _ hm ran =>
      (ok_of_agree (.bind (agree_enterRound _ (values value mem)) fun _ _ =>
        S.executeBlock agree_evaluate 0 true _ obeys.2) hm ran).2) hm'.inLoop
    have entry := (ok_of_agree (agree_enterRound _ (values _ starts.mem)) rounds entered).2
    exact block obeys.2 entry inside
  | round starts inside =>
    have rounds := starts.keeps (fun _ _ _ _ _ hm ran =>
      (ok_of_agree (S.executeBlock agree_evaluate 0 true _ obeys) hm ran).2) hm.inLoop
    exact block obeys rounds inside

/-- What is begun obeys, if what begins it does and all in the state. -/
lemma Begins.obeys {t t' : Task} (h : Begins settings t m t' n) (ht : t.Obeys c)
    (hm : m.Obeys c) : t'.Obeys c ∧ n.Obeys c := by
  have S := simulation_silent (c := c) settings
  cases h with
  | operand starts =>
    have operands := Expression.Obeys.operands ht
    exact ⟨operands.of_mem starts.mem, starts.keeps (evaluate_keeps operands) hm⟩
  | argument called starts =>
    have arguments := ht.2.2
    have hm' := (ok_of_agree (agree_calleeOf ht.2.1) hm called).2
    exact ⟨arguments.of_mem starts.mem, starts.keeps (evaluate_keeps arguments) hm'⟩
  | body called evaluated arity entered starts =>
    obtain ⟨function, hm'⟩ := ok_of_agree (agree_calleeOf ht.2.1) hm called
    obtain ⟨values, hk⟩ := ok_of_agree (S.argumentsOf (agree_evaluate 0) _ _ ht.2.2) hm' evaluated
    have hk' := (ok_of_agree (agree_enterCall _ values) hk entered).2
    have body := function _ rfl
    exact ⟨⟨false, body.of_mem starts.mem⟩, starts.keeps (execute_keeps body) hk'⟩
  | @head _ s _ _ _ announced head =>
    obtain ⟨inLoop, hs⟩ := ht
    obtain ⟨line, form⟩ := s
    exact ⟨hs.2.head head, (ok_of_agree (S.announceStep hs) hm announced).2⟩
  | @nested _ s _ _ _ _ announced inside =>
    obtain ⟨inLoop, hs⟩ := ht
    obtain ⟨line, form⟩ := s
    exact inside.obeys hs.2 (ok_of_agree (S.announceStep hs) hm announced).2

end

/-- What the statements of a program begin in the course of a run, and the innermost statement
around each evaluation. A statement is the innermost one around itself. -/
inductive During (settings : Settings) (limit : Nat) (program : Program) (m : Machine) :
    Statement → Task → Machine → Prop where
  | program {s n} :
    Starts (execute settings limit) (· = .normal) program m s n →
    During settings limit program m s (.statement limit s) n
  | evaluation {s t n limit' x n'} :
    During settings limit program m s t n → Begins settings t n (.evaluation limit' x) n' →
    During settings limit program m s (.evaluation limit' x) n'
  | statement {s t n limit' s' n'} :
    During settings limit program m s t n → Begins settings t n (.statement limit' s') n' →
    During settings limit program m s' (.statement limit' s') n'

/-- A task that is begun in a state raises an error itself: it stops with one, and nothing that it
begins does. -/
def Task.Raises (settings : Settings) (t : Task) (m : Machine) (e : ScriptError) : Prop :=
  t.FailsWith settings m e ∧
    ∀ t' n e', Begins settings t m t' n → ¬ t'.FailsWith settings n e'

/-- An error that a task raises is raised somewhere. -/
lemma Task.Raises.raised {settings : Settings} {t : Task} {m : Machine} {e : ScriptError}
    (h : t.Raises settings m e) : Raised settings e := by
  rcases Task.origin h.1 with ⟨t', n, e', begins, failed, _⟩ | raised
  · exact absurd failed (h.2 t' n e' begins)
  · exact raised

/-- Every statement is on a line. -/
def Conventions.lined : Conventions where
  expression _ := True
  statement _ s := s.line ≠ none

/-- What is read is on lines. -/
lemma lined_of_parse {source : String} {program : Program} (h : parse source = .ok program) :
    Statement.AllObey .lined false program :=
  have lined : Conventions.lined.AllowsWellFormed := ⟨fun _ => trivial, fun _ => nofun⟩
  obeys_of_parse lined h

/-- A statement that obeys has a line. -/
lemma Statement.Obeys.line {inLoop : Bool} {s : Statement} (h : s.Obeys .lined inLoop) :
    s.line ≠ none := by
  cases s
  exact h.1

/-- An error that was located has a line. -/
lemma ScriptError.line_locate {s : Statement} (line : s.line ≠ none) (e : ScriptError) :
    (e.locate s).line ≠ none := by
  unfold locate
  split
  case h_1 place => exact fun none => nomatch none.symm.trans place
  case h_2 => exact line

/-- An error without a line is located at the statement. -/
lemma ScriptError.locate_of_none {s : Statement} (e : ScriptError) (line : e.line = none) :
    e.locate s = ⟨e.cause, s.line, some s⟩ := by
  unfold locate
  rw [line]

/-- An error that has a line stays where it is. -/
lemma ScriptError.locate_of_ne_none {s : Statement} (e : ScriptError) (line : e.line ≠ none) :
    e.locate s = e := by
  obtain ⟨place, found⟩ := Option.ne_none_iff_exists'.1 line
  unfold locate
  rw [found]

/-- An error that was located stays where it is. -/
lemma ScriptError.locate_locate {s : Statement} (line : s.line ≠ none) (e : ScriptError)
    (outer : Statement) : (e.locate s).locate outer = e.locate s :=
  (e.locate s).locate_of_ne_none (e.line_locate line)

section
variable {settings : Settings} {limit : Nat} {program : Program} {m : Machine}
  (lined : Statement.AllObey .lined false program) (functions : m.Obeys .lined)
include lined functions

/-- Whatever is begun during a run obeys. -/
lemma During.obeys {s : Statement} {t : Task} {n : Machine}
    (h : During settings limit program m s t n) :
    s.line ≠ none ∧ t.Obeys .lined ∧ n.Obeys .lined := by
  induction h with
  | program starts =>
    have obeys := lined.of_mem starts.mem
    exact ⟨obeys.line, ⟨false, obeys⟩, starts.keeps (execute_keeps lined) functions⟩
  | evaluation _ begins ih => exact ⟨ih.1, begins.obeys ih.2.1 ih.2.2⟩
  | statement _ begins ih =>
    obtain ⟨⟨inLoop, obeys⟩, hn⟩ := begins.obeys ih.2.1 ih.2.2
    exact ⟨obeys.line, ⟨inLoop, obeys⟩, hn⟩

/-- An error with which something stops leaves the statements of the program, located at the
innermost one. -/
lemma During.failsWith {s : Statement} {t : Task} {n : Machine} {e : ScriptError}
    (h : During settings limit program m s t n) (failed : t.FailsWith settings n e) :
    (executeBlock settings (evaluate settings limit) program).FailsWith m (e.locate s) := by
  induction h generalizing e with
  | program starts =>
    exact executeBlock_failsWith_iff.2 ⟨_, _, starts, execute_failsWith_iff.2 ⟨e, failed, rfl⟩⟩
  | evaluation _ begins ih => exact ih (begins.failsWith failed)
  | statement outer begins ih =>
    have located := ih (begins.failsWith failed)
    have line := (During.obeys lined functions (outer.statement begins)).1
    rwa [Task.locate, e.locate_locate line] at located

end

/-- A task fails with one error. -/
lemma Task.failsWith_unique {settings : Settings} {t : Task} {m : Machine} {e e' : ScriptError}
    (h : t.FailsWith settings m e) (h' : t.FailsWith settings m e') : e = e' := by
  have unique {α : Type} {act : Run α} : act.FailsWith m e → act.FailsWith m e' → e = e' := by
    rintro ⟨n, ran⟩ ⟨n', ran'⟩
    cases ran.symm.trans ran'
    rfl
  cases t with
  | evaluation limit x => exact unique h h'
  | statement limit s => exact unique h h'

/-- Tasks begin smaller ones: evaluations nest up to a limit, which the statements of a body share
with the arguments of the call, and statements are inside of one another. -/
noncomputable def Task.rank : Task → Nat × Nat
  | evaluation limit _ => (2 * limit, 0)
  | statement limit s => (2 * limit + 1, sizeOf s)

/-- A statement that is begun in a form is smaller than it. -/
lemma Evaluation.BeginsIn.sizeOf_lt {settings : Settings} {E : Evaluator} {form : Form}
    {s : Statement} {m n : Machine} (h : BeginsIn settings E form m s n) :
    sizeOf s < sizeOf form := by
  cases h with
  | consequent _ starts | alternative _ starts | element _ _ _ starts | round _ starts =>
    have inside := List.sizeOf_lt_of_mem starts.mem
    simp only [Form.branch.sizeOf_spec, Form.loop.sizeOf_spec, Option.some.sizeOf_spec]
    omega

/-- A task that is begun in another has a lower rank. -/
lemma Begins.rank_lt {settings : Settings} {t t' : Task} {m n : Machine}
    (h : Begins settings t m t' n) : Prod.Lex (· < ·) (· < ·) t'.rank t.rank := by
  cases h with
  | operand | argument | body | head => exact .left _ _ (by omega)
  | @nested _ s _ _ _ _ _ inside =>
    have smaller := inside.sizeOf_lt
    obtain ⟨line, form⟩ := s
    refine .right _ (Nat.lt_of_lt_of_le smaller ?_)
    rw [Statement.mk.sizeOf_spec]
    exact Nat.le_add_left ..

section
variable {settings : Settings} {limit : Nat} {program : Program} {m : Machine}
  (lined : Statement.AllObey .lined false program) (functions : m.Obeys .lined)
include lined functions

/-- If something stops with an error, something raises it, and its innermost statement is where the
error is located in the end. -/
lemma During.origin {s : Statement} {t : Task} {n : Machine} {e : ScriptError}
    (h : During settings limit program m s t n) (failed : t.FailsWith settings n e) :
    ∃ s' t' n' raised, During settings limit program m s' t' n' ∧ t'.Raises settings n' raised ∧
      e.locate s = raised.locate s' := by
  by_cases occurs : ∃ t' n' e', Begins settings t n t' n' ∧ t'.FailsWith settings n' e'
  · obtain ⟨t', n', e', begins, failed'⟩ := occurs
    obtain rfl := Task.failsWith_unique failed (begins.failsWith failed')
    cases t' with
    | evaluation limit' x => exact During.origin (h.evaluation begins) failed'
    | statement limit' s' =>
      have inner := h.statement begins
      rw [Task.locate, e'.locate_locate (During.obeys lined functions inner).1]
      exact During.origin inner failed'
  · exact ⟨s, t, n, e, h, ⟨failed, fun t' n' e' begins failed' =>
      occurs ⟨t', n', e', begins, failed'⟩⟩, rfl⟩
termination_by t.rank
decreasing_by all_goals exact begins.rank_lt

end

/-- A call that is begun in a state nests too deeply in the body of the function that it calls, and
no call inside has reported so. -/
def TooDeepInBody (settings : Settings) (limit : Nat) (callee : Expression)
    (arguments : List Expression) (m : Machine) (function : FunctionValue) : Prop :=
  ∃ values m₁ m₂ m₃ m₄,
    calleeOf settings (evaluate settings limit) callee m = .ok (.script function) m₁ ∧
    argumentsOf (evaluate settings limit) function.name 1 arguments m₁ = .ok values m₂ ∧
    values.length = function.arity ∧ enterCall settings function values m₂ = .ok () m₃ ∧
    executeBlock settings (evaluate settings limit) function.body m₃ = .error .tooDeep m₄

section
variable {settings : Settings} {limit : Nat} {m : Machine}

/-- A call reports the body that nests too deeply. -/
lemma TooDeepInBody.failsWith {callee : Expression} {arguments : List Expression}
    {function : FunctionValue} (h : TooDeepInBody settings limit callee arguments m function) :
    (Task.evaluation (limit + 1) (.call callee arguments)).FailsWith settings m
      (.ofCause (.depthExceededIn function.name)) := by
  obtain ⟨values, m₁, m₂, m₃, m₄, called, evaluated, arity, entered, deep⟩ := h
  change (call settings (evaluate settings limit) callee arguments).FailsWith m _
  rw [call_eq]
  refine Run.failsWith_bind_iff.2 (.inr ⟨_, m₁, called, ?_⟩)
  refine Run.failsWith_bind_iff.2 (.inr ⟨values, m₂, evaluated, ?_⟩)
  change (callFunction settings (evaluate settings limit) function values).FailsWith m₂ _
  rw [← callObserved_silent]
  unfold callObserved
  rw [if_neg (not_not_intro arity)]
  unfold enterCall at entered
  cases announced : announceCall .silent settings function values m₂ with
  | error stop k =>
    rw [Run.bind_of_error announced] at entered
    cases entered
  | ok a k =>
    rw [Run.bind_of_ok announced] at entered
    refine Run.failsWith_bind_iff.2 (.inr ⟨a, k, announced, ?_⟩)
    refine Run.failsWith_bind_iff.2 (.inl (Run.failsWith_reportingDepth_iff.2 (.inr ⟨?_, rfl⟩)))
    have bound : bindAll function.parameters values
        { k with environment := k.environment.push true } = .ok () m₃ := entered
    refine ⟨{ m₄ with environment := m₄.environment.pop }, ?_⟩
    unfold Run.inScope
    rw [Run.bind_of_ok bound, deep]

/-- A program fails if its statements do, if they nest too deeply or if a jump leaves them. -/
lemma runProgram_failsWith_iff {program : Program} {e : ScriptError} :
    (runProgram settings limit program).FailsWith m e ↔
      (executeBlock settings (evaluate settings limit) program).FailsWith m e ∨
      (∃ n, executeBlock settings (evaluate settings limit) program m = .error .tooDeep n ∧
        e = .ofCause .depthExceeded) ∨
      ∃ signal n, executeBlock settings (evaluate settings limit) program m = .ok signal n ∧
        (signal = .broken ∨ signal = .continued) ∧ e = .ofCause (.escapedSignal signal.label) := by
  unfold Run.FailsWith
  rw [runProgram_apply]
  generalize executeBlock settings (evaluate settings limit) program m = r
  constructor
  · rintro ⟨n, failed⟩
    match r, failed with
    | .ok .broken n, rfl => exact .inr (.inr ⟨_, n, rfl, .inl rfl, rfl⟩)
    | .ok .continued n, rfl => exact .inr (.inr ⟨_, n, rfl, .inr rfl, rfl⟩)
    | .error .tooDeep n, rfl => exact .inr (.inl ⟨n, rfl, rfl⟩)
    | .error (.failure (.error _)) n, rfl => exact .inl ⟨n, rfl⟩
  · rintro (⟨n, rfl⟩ | ⟨n, rfl, rfl⟩ | ⟨signal, n, rfl, rfl | rfl, rfl⟩)
    · exact ⟨n, rfl⟩
    · exact ⟨n, rfl⟩
    · exact ⟨n, rfl⟩
    · exact ⟨n, rfl⟩

end

/-- Errors point at the innermost statement. Every error without a line with which something stops
in the course of a run leaves the run with the innermost statement and its line, also that of a call
whose body nests too deeply. What leaves a run, apart from two errors of its own, was raised so, and
keeps the line that it was raised with, if it was. -/
theorem errors_point_at_innermost_statement (settings : Settings) (limit : Nat)
    {program : Program} (lined : Statement.AllObey .lined false program) {m : Machine}
    (functions : m.Obeys .lined) :
    (∀ s t n e, During settings limit program m s t n → t.FailsWith settings n e → e.line = none →
      (runProgram settings limit program).FailsWith m ⟨e.cause, s.line, some s⟩ ∧
        s.line ≠ none) ∧
    (∀ s limit' callee arguments n function,
      During settings limit program m s (.evaluation (limit' + 1) (.call callee arguments)) n →
      TooDeepInBody settings limit' callee arguments n function →
      (runProgram settings limit program).FailsWith m
        ⟨.depthExceededIn function.name, s.line, some s⟩) ∧
    ∀ e, (runProgram settings limit program).FailsWith m e →
      (∃ n, executeBlock settings (evaluate settings limit) program m = .error .tooDeep n ∧
        e = .ofCause .depthExceeded) ∨
      (∃ signal n, executeBlock settings (evaluate settings limit) program m = .ok signal n ∧
        (signal = .broken ∨ signal = .continued) ∧ e = .ofCause (.escapedSignal signal.label)) ∨
      e.line ≠ none ∧ ∃ s t n raised, During settings limit program m s t n ∧
        t.Raises settings n raised ∧ Raised settings raised ∧
        (raised.line = none → e = ⟨raised.cause, s.line, some s⟩) ∧
        (raised.line ≠ none → e = raised) := by
  have placed : ∀ s t n e, During settings limit program m s t n → t.FailsWith settings n e →
      e.line = none → (runProgram settings limit program).FailsWith m ⟨e.cause, s.line, some s⟩ ∧
        s.line ≠ none := by
    intro s t n e during failed line
    have located := During.failsWith lined functions during failed
    rw [e.locate_of_none line] at located
    exact ⟨runProgram_failsWith_iff.2 (.inl located), (During.obeys lined functions during).1⟩
  refine ⟨placed, fun s limit' callee arguments n function during deep =>
    (placed s _ n _ during deep.failsWith rfl).1, fun e failed => ?_⟩
  -- Conversely an error is followed down to the innermost statement, which is where it was raised.
  rcases runProgram_failsWith_iff.1 failed with inside | own
  · obtain ⟨s, n, starts, located⟩ := executeBlock_failsWith_iff.1 inside
    obtain ⟨first, stops, rfl⟩ := execute_failsWith_iff.1 located
    obtain ⟨s', t', n', raised, during, raises, same⟩ :=
      During.origin lined functions (.program starts) stops
    have line := (During.obeys lined functions during).1
    rw [same]
    refine .inr (.inr ⟨raised.line_locate line, s', t', n', raised, during, raises, raises.raised,
      raised.locate_of_none, raised.locate_of_ne_none⟩)
  · exact own.imp_right .inl

/-- A statement that reads a variable which was never declared. -/
def reading : Statement := .mk (some 2) (.evaluate (.identifier "x"))

/-- A function whose body reads it, and a call of the function. -/
def calling : Program :=
  [.mk (some 1) (.define "f" [] [reading]), .mk (some 4) (.evaluate (.call (.identifier "f") []))]

/-- The error of the call points at the statement in the body. -/
theorem calling_points_at_body :
    Statement.AllObey .lined false calling ∧ Machine.initial.Obeys .lined ∧
    (runProgram ⟨.standard fun _ => .ended 0, 0, 0⟩ 9 calling).FailsWith .initial
      ⟨.undefinedName "x", some 2, some reading⟩ := by
  have lined : Statement.AllObey .lined false calling :=
    ⟨⟨nofun, ⟨nofun, trivial⟩, trivial⟩, ⟨nofun, trivial, trivial, trivial⟩, trivial⟩
  have functions : Machine.initial.Obeys .lined := Environment.holds_root
  have ⟨n, during, failed⟩ : ∃ n,
      During ⟨.standard fun _ => .ended 0, 0, 0⟩ 9 calling .initial reading
        (.evaluation 8 (.identifier "x")) n ∧
      (Task.evaluation 8 (.identifier "x")).FailsWith ⟨.standard fun _ => .ended 0, 0, 0⟩ n
        (.ofCause (.undefinedName "x")) :=
    ⟨_, .evaluation (.statement (.evaluation (.program (.tail rfl rfl .head)) (.head rfl rfl))
      (.body rfl rfl rfl rfl .head)) (.head rfl rfl), _, rfl⟩
  exact ⟨lined, functions,
    ((errors_point_at_innermost_statement _ 9 lined functions).1 reading _ n _ during failed rfl).1⟩

end ScriptLang
