import ScriptLang.Error
import ScriptLang.Number.Remainder
import ScriptLang.Value.Host

/-!
# Operations

What the operators do. An operation is told by the operator and the types of its operands: two
numbers, two booleans or two strings, and nothing else. Both operands of a logical operation have
been evaluated before it.
-/

namespace ScriptLang

namespace Operator

/-- A failure with the given cause. -/
def refuse {α : Type} (cause : Cause) : Except Failure α := .error (.error (.ofCause cause))

/-- The operations on two numbers. -/
def onNumbers? : Operator → Float → Float → Option (Except Failure Value)
  | add, a, b => some (.ok (.number (a + b)))
  | subtract, a, b => some (.ok (.number (a - b)))
  | multiply, a, b => some (.ok (.number (a * b)))
  | divide, a, b =>
    some (if b == 0 then refuse .divisionByZero else .ok (.number (a / b)))
  | modulo, a, b =>
    some (if b == 0 then refuse .moduloByZero
      else match Number.remainder? a b with
        | some remainder => .ok (.number remainder)
        | none => .error (.fault .mathDomain))
  | equal, a, b => some (.ok (.boolean (a == b)))
  | notEqual, a, b => some (.ok (.boolean (a != b)))
  | less, a, b => some (.ok (.boolean (decide (a < b))))
  | greater, a, b => some (.ok (.boolean (decide (b < a))))
  | lessEqual, a, b => some (.ok (.boolean (decide (a ≤ b))))
  | greaterEqual, a, b => some (.ok (.boolean (decide (b ≤ a))))
  | _, _, _ => none

/-- The operations on two booleans. -/
def onBooleans? : Operator → Bool → Bool → Option Bool
  | and, a, b => some (a && b)
  | or, a, b => some (a || b)
  | equal, a, b => some (a == b)
  | notEqual, a, b => some (a != b)
  | _, _, _ => none

/-- The operations on two strings. -/
def onStrings? : Operator → String → String → Option Bool
  | equal, a, b => some (a == b)
  | notEqual, a, b => some (a != b)
  | _, _, _ => none

/-- An operation of two operands. -/
def applyBinary (operator : Operator) (left right : Value) : Except Failure Value :=
  let outcome? : Option (Except Failure Value) := match left, right with
    | .number a, .number b => operator.onNumbers? a b
    | .boolean a, .boolean b => (operator.onBooleans? a b).map (.ok ∘ .boolean)
    | .string a, .string b => (operator.onStrings? a b).map (.ok ∘ .boolean)
    | _, _ => none
  outcome?.getD (refuse (.unsupportedBinary left.typeName operator right.typeName))

/-- An operation of one operand. -/
def applyUnary (operator : Operator) (operand : Value) : Except Failure Value :=
  match operator, operand with
  | subtract, .number a => .ok (.number (-a))
  | not, .boolean a => .ok (.boolean !a)
  | _, _ => refuse (.unsupportedUnary operator operand.typeName)

/-- An operation on two objects of the host. Objects that are no values have no operations. -/
def applyBinaryTo (operator : Operator) (left right : Object) : Except Failure Value :=
  match left.asValue?, right.asValue? with
  | some left, some right => operator.applyBinary left right
  | _, _ => refuse (.unsupportedBinary left.typeName operator right.typeName)

/-- An operation on one object of the host. -/
def applyUnaryTo (operator : Operator) (operand : Object) : Except Failure Value :=
  match operand.asValue? with
  | some operand => operator.applyUnary operand
  | none => refuse (.unsupportedUnary operator operand.typeName)

end Operator

end ScriptLang
