import ScriptLang.Proofs.Evaluation.Errors

/-!
# Runs that raise errors

No part of a run catches an error of the script. So a run stops with each one with which a part of
it stops, and with no other that it does not raise itself (`Run.Passes`). What is done one after the
other stops with an error if one of the things that are begun does (`failsWith_iff_occursAmong`).
-/

namespace ScriptLang
open Evaluation

namespace Run
variable {α β : Type} {act : Run α} {m : Machine} {e : ScriptError}

/-- A run that begins in a state stops with an error of the script. -/
def FailsWith (act : Run α) (m : Machine) (e : ScriptError) : Prop :=
  ∃ n, act m = .error (.failure (.error e)) n

/-- Runs in a row stop with an error of the first, or of what comes after it. -/
lemma failsWith_bind_iff {next : α → Run β} : (act >>= next).FailsWith m e ↔
    act.FailsWith m e ∨ ∃ a n, act m = .ok a n ∧ (next a).FailsWith n e := by
  constructor
  · rintro ⟨m', failed⟩
    rcases error_of_bind failed with first | ⟨a, n, ran, second⟩
    · exact .inl ⟨m', first⟩
    · exact .inr ⟨a, n, ran, m', second⟩
  · rintro (⟨m', first⟩ | ⟨a, n, ran, m', second⟩)
    · exact ⟨m', bind_of_error first⟩
    · exact ⟨m', (bind_of_ok ran).trans second⟩

/-- A scope of its own changes no error. -/
lemma failsWith_inScope_iff {boundary : Bool} : (inScope boundary act).FailsWith m e ↔
    act.FailsWith { m with environment := m.environment.push boundary } e := by
  unfold FailsWith inScope
  cases act { m with environment := m.environment.push boundary } with
  | ok a n => exact ⟨nofun, nofun⟩
  | error stop n =>
    constructor
    · rintro ⟨_, ⟨⟩⟩
      exact ⟨n, rfl⟩
    · rintro ⟨_, ⟨⟩⟩
      exact ⟨_, rfl⟩

/-- A run with a place for errors stops with the errors it raises, located there. -/
lemma failsWith_locatedAt_iff {s : Statement} : (locatedAt s act).FailsWith m e ↔
    ∃ raised, act.FailsWith m raised ∧ e = raised.locate s := by
  unfold FailsWith locatedAt
  constructor
  · rintro ⟨n, failed⟩
    split at failed
    case h_1 raised m' ran =>
      cases failed
      exact ⟨raised, ⟨_, ran⟩, rfl⟩
    case h_2 other => exact absurd failed (other e n)
  · rintro ⟨raised, ⟨n, ran⟩, rfl⟩
    rw [ran]
    exact ⟨n, rfl⟩

/-- A report of nesting too deeply is one more error of a run. -/
lemma failsWith_reportingDepth_iff {cause : Cause} : (reportingDepth cause act).FailsWith m e ↔
    act.FailsWith m e ∨ (∃ n, act m = .error .tooDeep n) ∧ e = .ofCause cause := by
  unfold FailsWith reportingDepth
  constructor
  · rintro ⟨n, failed⟩
    split at failed
    case h_1 m' ran =>
      cases failed
      exact .inr ⟨⟨_, ran⟩, rfl⟩
    case h_2 => exact .inl ⟨n, failed⟩
  · rintro (⟨n, ran⟩ | ⟨⟨n, ran⟩, rfl⟩)
    · rw [ran]
      exact ⟨n, rfl⟩
    · rw [ran]
      exact ⟨n, rfl⟩

end Run

/-- An error that is raised in a run and was located nowhere so far: one of the interpreter, or the
failure of a function of the host. -/
def Raised (settings : Settings) (e : ScriptError) : Prop :=
  (∃ cause, e = .ofCause cause) ∨
    ∃ name builtin calls arguments, settings.library.builtin? name = some builtin ∧
      (builtin.respond calls arguments).failure = some (.error e)

namespace Run
variable {α β : Type} {settings : Settings}

/-- A run stops with an error of the script only if it raises it. -/
def OnlyRaises (settings : Settings) (act : Run α) : Prop :=
  ∀ ⦃m e⦄, act.FailsWith m e → Raised settings e

namespace OnlyRaises

/-- To do nothing raises no error. -/
lemma pure (a : α) : OnlyRaises settings (pure a) := by
  rintro m e ⟨n, ⟨⟩⟩

/-- To fail is to raise the error. -/
lemma fail (cause : Cause) : OnlyRaises settings (Run.fail cause : Run α) := by
  rintro m e ⟨n, ⟨⟩⟩
  exact .inl ⟨cause, rfl⟩

/-- Runs in a row only raise errors if both parts do. -/
lemma bind {act : Run α} {next : α → Run β} (first : OnlyRaises settings act)
    (second : ∀ a, OnlyRaises settings (next a)) : OnlyRaises settings (act >>= next) := by
  intro m e failed
  rcases failsWith_bind_iff.1 failed with failed | ⟨a, n, _, failed⟩
  · exact first failed
  · exact second a failed

/-- Runs that begin by looking at the state. -/
lemma get {next : Machine → Run α} (h : ∀ m, OnlyRaises settings (next m)) :
    OnlyRaises settings (get >>= next) := fun m _ failed => h m failed

/-- A change of the state raises no error. -/
lemma modify (f : Machine → Machine) : OnlyRaises settings (modify f : Run Unit) := by
  rintro m e ⟨n, ⟨⟩⟩

/-- An operation only raises the errors it comes to. -/
lemma ofExcept {mayFault : Prop} {outcome : Except Failure Value}
    (h : Operator.Ordinary mayFault outcome) : OnlyRaises settings (Run.ofExcept outcome) := by
  cases h with
  | number | boolean => exact .pure _
  | refuse => exact .fail _
  | fault => rintro m e ⟨n, ⟨⟩⟩

/-- An assignment only raises errors. -/
lemma assign (name : String) (value : Value) : OnlyRaises settings (assign name value) := by
  refine .get fun m => ?_
  split
  · exact .modify _
  · exact .fail _

/-- The search for a function by its name only raises errors. -/
lemma namedCallee (name : String) : OnlyRaises settings (namedCallee name) := by
  refine .get fun m => ?_
  dsimp only
  split
  · exact .pure _
  · split
    · exact .pure _
    · exact .fail _

/-- The access to a member only raises errors. -/
lemma memberOf (target : Value) (name : String) : OnlyRaises settings (memberOf target name) := by
  unfold Evaluation.memberOf
  split
  · exact .pure _
  · exact .pure _
  · exact .fail _

/-- The reading of an index only raises errors. -/
lemma placeOf (index : Value) : OnlyRaises settings (placeOf index) := by
  unfold Evaluation.placeOf
  split
  · split
    · exact .pure _
    · exact .fail _
  · exact .fail _

/-- The access to an element only raises errors. -/
lemma elementAt (container : TypeName) (elements : List α) (place : Int) :
    OnlyRaises settings (elementAt container elements place) := by
  unfold Evaluation.elementAt
  split
  · exact .pure _
  · exact .fail _

/-- An access by an index only raises errors. -/
lemma indexOf (container index : Value) : OnlyRaises settings (indexOf container index) := by
  unfold Evaluation.indexOf
  split
  · exact .bind (.placeOf index) fun place => .elementAt _ _ place
  · exact .bind (.placeOf index) fun place => .bind (.elementAt _ _ place) fun _ => .pure _
  · exact .fail _

/-- The trace of a call only raises errors. -/
lemma traceCall (name : String) (arguments : List Value) :
    OnlyRaises settings (traceCall settings name arguments) := by
  unfold Evaluation.traceCall
  split
  · exact .get fun m => .modify _
  · exact .pure _

/-- A call of the host raises the errors that the host does. -/
lemma performBuiltin {name : String} {builtin : Builtin}
    (found : settings.library.builtin? name = some builtin) (arguments : List Value) :
    OnlyRaises settings (performBuiltin settings name builtin arguments) := by
  refine .bind (.traceCall name arguments) fun _ m e => ?_
  rintro ⟨n, failed⟩
  rw [callBuiltin_apply] at failed
  split at failed
  case h_1 failure fails =>
    cases failed
    exact .inr ⟨name, builtin, m.hostCalls, arguments, found, fails⟩
  case h_2 => cases failed

end OnlyRaises

/-- A run that begins in a state stops with each error of the script that occurs inside, and with no
other that it does not raise itself. -/
structure Passes (settings : Settings) (act : Run α) (m : Machine) (inside : ScriptError → Prop) :
    Prop where
  failsWith {e : ScriptError} : inside e → act.FailsWith m e
  origin {e : ScriptError} : act.FailsWith m e → inside e ∨ Raised settings e

namespace Passes
variable {act : Run α} {m : Machine} {inside : ScriptError → Prop}

/-- A run passes on its own errors. -/
lemma refl (act : Run α) (m : Machine) : Passes settings act m (act.FailsWith m) := ⟨id, .inl⟩

/-- A run that only raises errors has none to pass on. -/
lemma of_only (own : OnlyRaises settings act) : Passes settings act m fun _ => False :=
  ⟨False.elim, fun failed => .inr (own failed)⟩

/-- Errors that occur inside may be described in any way. -/
lemma congr {inside' : ScriptError → Prop} (h : Passes settings act m inside)
    (same : ∀ e, inside e ↔ inside' e) : Passes settings act m inside' where
  failsWith occurs := h.failsWith ((same _).2 occurs)
  origin failed := (h.origin failed).imp_left (same _).1

/-- What passes on the errors of a run passes on what occurs in that run. -/
lemma trans {act' : Run β} (h : Passes settings act m (act'.FailsWith m))
    (h' : Passes settings act' m inside) : Passes settings act m inside where
  failsWith occurs := h.failsWith (h'.failsWith occurs)
  origin failed := (h.origin failed).elim h'.origin .inr

/-- Errors occur in the first part, or in what comes after it. -/
lemma bind {next : α → Run β} {later : α → Machine → ScriptError → Prop}
    (first : Passes settings act m inside)
    (second : ∀ a n, act m = .ok a n → Passes settings (next a) n (later a n)) :
    Passes settings (act >>= next) m
      fun e => inside e ∨ ∃ a n, act m = .ok a n ∧ later a n e where
  failsWith := by
    rintro e (occurs | ⟨a, n, ran, occurs⟩)
    · exact failsWith_bind_iff.2 (.inl (first.failsWith occurs))
    · exact failsWith_bind_iff.2 (.inr ⟨a, n, ran, (second a n ran).failsWith occurs⟩)
  origin {e} failed := by
    rcases failsWith_bind_iff.1 failed with failed | ⟨a, n, ran, failed⟩
    · exact (first.origin failed).imp_left .inl
    · exact ((second a n ran).origin failed).imp_left fun occurs => .inr ⟨a, n, ran, occurs⟩

/-- What comes after a run may be put for a run that passes its errors on. -/
lemma bind_congr {γ : Type} {next : α → Run β} {next' : α → Run γ}
    (h : ∀ a n, Passes settings (next a) n ((next' a).FailsWith n)) :
    Passes settings (act >>= next) m ((act >>= next').FailsWith m) :=
  ((refl act m).bind fun a n _ => h a n).congr fun _ => failsWith_bind_iff.symm

/-- Errors occur after the first part only, if it only raises its own. -/
lemma following {next : α → Run β} {later : α → Machine → ScriptError → Prop}
    (own : OnlyRaises settings act) (second : ∀ a n, Passes settings (next a) n (later a n)) :
    Passes settings (act >>= next) m fun e => ∃ a n, act m = .ok a n ∧ later a n e where
  failsWith := fun ⟨a, n, ran, occurs⟩ =>
    failsWith_bind_iff.2 (.inr ⟨a, n, ran, (second a n).failsWith occurs⟩)
  origin {e} failed := by
    rcases failsWith_bind_iff.1 failed with failed | ⟨a, n, ran, failed⟩
    · exact .inr (own failed)
    · exact ((second a n).origin failed).imp_left fun occurs => ⟨a, n, ran, occurs⟩

/-- Errors occur in the first part only, if what comes after it only raises its own. -/
lemma andThen {next : α → Run β} (first : Passes settings act m inside)
    (own : ∀ a, OnlyRaises settings (next a)) : Passes settings (act >>= next) m inside where
  failsWith occurs := failsWith_bind_iff.2 (.inl (first.failsWith occurs))
  origin failed := by
    rcases failsWith_bind_iff.1 failed with failed | ⟨a, n, _, failed⟩
    · exact first.origin failed
    · exact .inr (own a failed)

/-- A scope of its own passes errors on. -/
lemma inScope {boundary : Bool}
    (h : Passes settings act { m with environment := m.environment.push boundary } inside) :
    Passes settings (inScope boundary act) m inside where
  failsWith occurs := failsWith_inScope_iff.2 (h.failsWith occurs)
  origin failed := h.origin (failsWith_inScope_iff.1 failed)

/-- A report of nesting too deeply passes errors on. -/
lemma reportingDepth {cause : Cause} (h : Passes settings act m inside) :
    Passes settings (reportingDepth cause act) m inside where
  failsWith occurs := failsWith_reportingDepth_iff.2 (.inl (h.failsWith occurs))
  origin failed := by
    rcases failsWith_reportingDepth_iff.1 failed with failed | ⟨_, new⟩
    · exact h.origin failed
    · exact .inr (.inl ⟨cause, new⟩)

end Passes
end Run

/-- Of things that are done one after the other from a state on, one begins in a state: those before
it came to results that let things go on. -/
inductive Starts {ι α : Type} (act : ι → Run α) (goesOn : α → Prop) :
    List ι → Machine → ι → Machine → Prop where
  | head {i rest m} : Starts act goesOn (i :: rest) m i m
  | tail {i rest m a m' j n} :
    act i m = .ok a m' → goesOn a → Starts act goesOn rest m' j n →
    Starts act goesOn (i :: rest) m j n

/-- One of the things that are done one after the other stops with an error of the script. -/
def OccursAmong {ι α : Type} (act : ι → Run α) (goesOn : α → Prop) (l : List ι) (m : Machine)
    (e : ScriptError) : Prop :=
  ∃ i n, Starts act goesOn l m i n ∧ (act i).FailsWith n e

section
variable {ι α : Type} {act : ι → Run α} {goesOn : α → Prop} {m : Machine} {e : ScriptError}

/-- Where nothing is done nothing goes wrong. -/
lemma not_occursAmong_nil : ¬ OccursAmong act goesOn [] m e := fun ⟨_, _, starts, _⟩ =>
  nomatch starts

/-- Something goes wrong in the first, or after it in the others. -/
lemma occursAmong_cons_iff {i : ι} {rest : List ι} : OccursAmong act goesOn (i :: rest) m e ↔
    (act i).FailsWith m e ∨
      ∃ a n, act i m = .ok a n ∧ goesOn a ∧ OccursAmong act goesOn rest n e := by
  constructor
  · rintro ⟨j, n, starts, failed⟩
    cases starts with
    | head => exact .inl failed
    | tail ran goes starts => exact .inr ⟨_, _, ran, goes, j, n, starts, failed⟩
  · rintro (failed | ⟨a, n, ran, goes, j, k, starts, failed⟩)
    · exact ⟨i, m, .head, failed⟩
    · exact ⟨j, k, .tail ran goes starts, failed⟩

/-- What begins is one of the things that are done. -/
lemma Starts.mem {l : List ι} {n : Machine} {i : ι} (h : Starts act goesOn l m i n) : i ∈ l := by
  induction h with
  | head => exact List.mem_cons_self
  | tail _ _ _ ih => exact List.mem_cons_of_mem _ ih

/-- What each thing keeps is kept until another begins. -/
lemma Starts.keeps {l : List ι} {holds : Machine → Prop}
    (keep : ∀ i ∈ l, ∀ m a n, holds m → act i m = .ok a n → holds n) {n : Machine} {i : ι}
    (h : Starts act goesOn l m i n) (start : holds m) : holds n := by
  induction h with
  | head => exact start
  | tail ran _ _ ih =>
    obtain ⟨first, others⟩ := List.forall_mem_cons.1 keep
    exact ih others (first _ _ _ start ran)

/-- A run that does things one after the other, for as long as their results let things go on, stops
with an error if one of them does. -/
lemma failsWith_iff_occursAmong {β : Type} (all : List ι → Run β) {after : List ι → α → Run β}
    (nil : ∀ m e, ¬ (all []).FailsWith m e)
    (cons : ∀ i rest, all (i :: rest) = act i >>= after rest)
    (goes : ∀ rest a, goesOn a → after rest a = all rest)
    (ends : ∀ rest a, ¬ goesOn a → ∀ m e, ¬ (after rest a).FailsWith m e) {l : List ι} :
    (all l).FailsWith m e ↔ OccursAmong act goesOn l m e := by
  induction l generalizing m with
  | nil => exact iff_of_false (nil m e) not_occursAmong_nil
  | cons i rest ih =>
    rw [cons, Run.failsWith_bind_iff, occursAmong_cons_iff]
    refine or_congr_right (exists₂_congr fun a n => and_congr_right fun _ => ?_)
    by_cases on : goesOn a
    · rw [goes rest a on, and_iff_right on]
      exact ih
    · exact iff_of_false (ends rest a on n e) fun h => on h.1

end

namespace Evaluation
variable {settings : Settings} {E : Evaluator} {m : Machine} {e : ScriptError}

/-- A block stops with an error if and only if one of its statements does. -/
lemma executeBlock_failsWith_iff {b : List Statement} :
    (executeBlock settings E b).FailsWith m e ↔
      OccursAmong (execute settings E) (· = .normal) b m e := by
  refine failsWith_iff_occursAmong (executeBlock settings E) (fun _ _ ⟨_, ran⟩ => nomatch ran)
    (fun _ _ => rfl) ?_ fun rest signal ends => ?_
  · rintro rest _ rfl
    rfl
  · cases signal with
    | normal => exact absurd rfl ends
    | returned | broken | continued => exact fun _ _ ⟨_, ran⟩ => nomatch ran

/-- A loop goes on after a round that ends as usual or in a jump to the next. -/
def GoesRound (signal : Signal) : Prop := signal = .normal ∨ signal = .continued

/-- A loop ends after a round in a jump to its end or in a return. -/
lemma eq_of_not_goesRound {signal : Signal} (h : ¬ GoesRound signal) :
    signal = .broken ∨ ∃ result, signal = .returned result := by
  cases signal with
  | normal => exact absurd (.inl rfl) h
  | continued => exact absurd (.inr rfl) h
  | broken => exact .inl rfl
  | returned result => exact .inr ⟨result, rfl⟩

/-- A loop over values stops with an error if and only if one of its rounds does. -/
lemma forEach_failsWith_iff {body : Value → Run Signal} {values : List Value} :
    (forEach body values).FailsWith m e ↔ OccursAmong body GoesRound values m e := by
  refine failsWith_iff_occursAmong (forEach body) (fun _ _ ⟨_, ran⟩ => nomatch ran)
    (fun _ _ => rfl) ?_ fun rest signal ends => ?_
  · rintro rest _ (rfl | rfl)
    · rfl
    · rfl
  · obtain rfl | ⟨result, rfl⟩ := eq_of_not_goesRound ends
    · exact fun _ _ ⟨_, ran⟩ => nomatch ran
    · exact fun _ _ ⟨_, ran⟩ => nomatch ran

/-- A loop without bound stops with an error if and only if one of its rounds does. -/
lemma forever_failsWith_iff {body : Run Signal} {rounds : Nat} :
    (forever body rounds).FailsWith m e ↔
      OccursAmong (fun _ : Unit => body) GoesRound (List.replicate rounds ()) m e := by
  have rounds_eq : rounds = (List.replicate rounds ()).length := List.length_replicate.symm
  conv_lhs => rw [rounds_eq]
  refine failsWith_iff_occursAmong (fun l => forever body l.length)
    (fun _ _ ⟨_, ran⟩ => nomatch ran) (fun _ _ => rfl) ?_ fun rest signal ends => ?_
  · rintro rest _ (rfl | rfl)
    · rfl
    · rfl
  · obtain rfl | ⟨result, rfl⟩ := eq_of_not_goesRound ends
    · exact fun _ _ ⟨_, ran⟩ => nomatch ran
    · exact fun _ _ ⟨_, ran⟩ => nomatch ran

end Evaluation

end ScriptLang
