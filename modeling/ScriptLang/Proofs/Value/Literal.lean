import ScriptLang.Evaluation.Evaluate
import ScriptLang.Proofs.Number.Sign
import ScriptLang.Proofs.Token.Terminal

/-!
# Values as expressions

The expression that a value is written as (`Value.literal`): the value itself, but for a negative
number, which is the negation of its absolute value, and a list, which is the list of its elements.
To evaluate it gives the value back, for values whose numbers are written in full, unless it nests
too deeply (`Value.Readable.evaluate_literal`).
-/

namespace ScriptLang
open Evaluation

/-- The text of a number is the token of a number that reads as the absolute value, possibly with a
minus sign before it. The negative zero is left out, which is written without its sign. -/
structure Number.ReadsBack (x : Float) : Prop where
  ne : x ≠ -0.0
  written : ∃ sign digits, (sign = [] ∨ sign = ['-']) ∧
    digits ∈ (Token.Terminal.token .number).language ∧ (text x).toList = sign ++ digits ∧
    literal digits = x.abs

/-- A number that is negative is not the value that is none. -/
lemma Number.shape_ne_nan {x : Float} (h : (shape x).isNegative = true) : shape x ≠ .nan := by
  intro nan
  rw [nan] at h
  cases h

namespace Value

/-- A value made of strings, booleans, lists and numbers that read back. -/
inductive Readable : Value → Prop where
  | number {x : Float} : Number.ReadsBack x → Readable (.number x)
  | string (text : String) : Readable (.string text)
  | boolean (value : Bool) : Readable (.boolean value)
  | list {elements : List Value} : (∀ v ∈ elements, Readable v) → Readable (.list elements)

mutual

/-- The expression that a value is written as. A function loses its name. -/
def literal : Value → Expression
  | number x =>
    if (Number.shape x).isNegative then .unary .subtract (.number x.abs) else .number x
  | string text => .string text
  | boolean value => .boolean value
  | list elements => .list (literals elements)
  | function f => .function f.parameters f.body

/-- The expressions that values are written as. -/
def literals : List Value → List Expression
  | [] => []
  | value :: rest => literal value :: literals rest

end

mutual

/-- How deeply evaluations nest in the evaluation of a literal. -/
def nesting : Value → Nat
  | number x => if (Number.shape x).isNegative then 2 else 1
  | list elements => nestings elements + 1
  | string _ | boolean _ | function _ => 1

/-- How deeply evaluations nest in the evaluation of some literals. -/
def nestings : List Value → Nat
  | [] => 0
  | value :: rest => max (nesting value) (nestings rest)

end

variable (settings : Settings)

/-- The elements of a list are evaluated one after the other, up to the first that nests too
deeply. -/
lemma elementsOf_literals {evaluate : Evaluator} {limit : Nat} {elements : List Value}
    (each : ∀ v ∈ elements, evaluate v.literal =
      if v.nesting ≤ limit then pure (some v) else throw .tooDeep) :
    elementsOf evaluate (literals elements) =
      if nestings elements ≤ limit then pure elements else throw .tooDeep := by
  induction elements with
  | nil => rfl
  | cons v rest ih =>
    obtain ⟨first, each⟩ := List.forall_mem_cons.1 each
    unfold literals elementsOf valueOf nestings
    rw [first, ih each]
    by_cases fits : v.nesting ≤ limit
    · by_cases rest_fits : nestings rest ≤ limit
      · rw [if_pos fits, if_pos rest_fits, if_pos (max_le fits rest_fits)]
        rfl
      · rw [if_pos fits, if_neg rest_fits, if_neg fun h => rest_fits (le_of_max_le_right h)]
        rfl
    · rw [if_neg fits, if_neg fun h => fits (le_of_max_le_left h)]
      rfl

/-- The literal of a value evaluates to the value, in whatever state, unless it nests too
deeply. -/
lemma Readable.evaluate_literal {v : Value} (h : v.Readable) (limit : Nat) :
    evaluate settings limit v.literal =
      if v.nesting ≤ limit then pure (some v) else throw .tooDeep := by
  induction h generalizing limit with
  | @number x _ =>
    unfold literal nesting
    by_cases negative : (Number.shape x).isNegative = true
    -- A negative number is written as the negation of another, which nests once more.
    · rw [if_pos negative, if_pos negative]
      match limit with
      | 0 => rfl
      | 1 => rfl
      | limit + 2 =>
        rw [if_pos (Nat.le_add_left _ _)]
        show (pure (some (Value.number (-x.abs))) : Run (Option Value)) = _
        rw [Number.neg_abs_of_isNegative (Number.shape_ne_nan negative) negative]
    · rw [if_neg negative, if_neg negative]
      cases limit with
      | zero => rfl
      | succ limit => rw [if_pos (Nat.le_add_left _ _)]; rfl
  | string | boolean =>
    cases limit with
    | zero => rfl
    | succ limit =>
      rw [nesting, if_pos (Nat.le_add_left _ _)]
      rfl
  | @list elements _ ih =>
    cases limit with
    | zero => rfl
    | succ limit =>
      have each := elementsOf_literals fun v mem => ih v mem limit
      unfold literal nesting
      show (elementsOf (evaluate settings limit) (literals elements) >>= fun values =>
        pure (some (Value.list values))) = _
      rw [each]
      by_cases fits : nestings elements ≤ limit
      · rw [if_pos fits, if_pos (Nat.succ_le_succ fits)]
        rfl
      · rw [if_neg fits, if_neg fun h => fits (Nat.le_of_succ_le_succ h)]
        rfl

end Value

end ScriptLang
