import ScriptLang.Proofs.Grammar.Cost

/-!
# The loops around what is read

A loop is read with one more loop around its body, the body of a function with none, and the only
rule that asks how many there are is that of a jump, which asks whether there is one. So two runs
over the same tokens, inside `d` and inside `d'` loops, come to the same end, each with its own
number of loops, unless only the second is inside of one and the first fails at a jump (`Shift`).

A run compared with itself keeps its number of loops on every way out, and runs compared with each
other are the same if both are inside of loops, or if the one outside succeeds. Parsers of which
this is true are `Shallow`, and `reading_is_shallow` says that those made of the rules are, down to
the postfixes and infixes that expressions go on with (`Rule.readContinuation_eq`).
-/

namespace ScriptLang
open ScriptLang.Parser ScriptLang.Rule

namespace Rule
variable (read : Readers)

/-- What an expression becomes as the target of the call or access that follows it, if one does. -/
def readPostfix (left : Expression) : Parser (Option Expression) := do
  match ← peekKind with
  | some .leftParen =>
    advance
    let arguments ← read (.sequence (some .rightParen))
    return some (.call left arguments)
  | some .dot =>
    advance
    let name ← expect .name
    return some (.member left name.text)
  | some .leftBracket =>
    advance
    let place ← read (.expression .lowest)
    discard <| expect .rightBracket
    return some (.index left place)
  | _ => return none

/-- What an expression becomes as the left operand of the operator that follows it, if one does. -/
def readInfix (left : Expression) : Parser (Option Expression) := do
  match ← peekKind with
  | none => return none
  | some kind =>
    match kind.binaryOperator? with
    | some operator =>
      advance
      let right ← read (.expression kind.precedence)
      return some (.binary left operator right)
    | none =>
      if kind = .assign then
        match left with
        | .identifier _ =>
          advance
          let value ← read (.expression .lowest)
          return some (.assign left value)
        | _ => fail .invalidTarget
      else return none

/-- The next statement of a script, if there is one. -/
def readNext : Parser (Option Statement) := do
  if (← peek).isSome then return some (← read .statement)
  else return none

/-- For as long as the next token binds tightly enough, an expression goes on with a postfix or else
with an infix. -/
lemma readContinuation_eq (level : Precedence) (left : Expression) :
    readContinuation read level left = (do
      match ← peekKind with
      | none => return left
      | some kind =>
        if kind.precedence.rank ≤ level.rank then return left
        else
          match ← readPostfix read left with
          | some longer => read (.continuation level longer)
          | none =>
            match ← readInfix read left with
            | some longer => read (.continuation level longer)
            | none => return left) := by
  funext ⟨rest, d⟩
  cases rest with
  | nil => rfl
  | cons token rest =>
    obtain ⟨kind, text, position⟩ := token
    unfold readContinuation readPostfix readInfix
    simp only [peekKind_bind, bind_assoc, List.head?_cons, Option.map_some]
    split
    · rfl
    cases kind
    case assign =>
      cases left
      case identifier =>
        simp only [peekKind_bind, bind_assoc, pure_bind, List.head?_cons, Option.map_some,
          Token.Kind.binaryOperator?, if_true]
      all_goals rfl
    all_goals
      simp only [peekKind_bind, bind_assoc, pure_bind, List.head?_cons, Option.map_some,
        Token.Kind.binaryOperator?, reduceCtorEq, if_false]

/-- The next statement is read where there is a token. -/
lemma readNext_cons (token : Token) (rest : List Token) (d : Nat) :
    readNext read ⟨token :: rest, d⟩ =
      (do return some (← read .statement) : Parser (Option Statement)) ⟨token :: rest, d⟩ := rfl

end Rule

/-- A script is read by its statements, one after the other. -/
lemma statementsFrom_succ (n fuel : Nat) (c : Cursor) :
    statementsFrom n (fuel + 1) c =
      match readNext (Rule.parseWith n) c with
      | .ok none _ => ([], none)
      | .ok (some first) c' => (first :: (statementsFrom n fuel c').1, (statementsFrom n fuel c').2)
      | .error e _ => ([], some e) := by
  obtain ⟨rest, d⟩ := c
  cases rest with
  | nil => rfl
  | cons token rest =>
    rw [readNext_cons]
    cases h : Rule.parseWith n Rule.statement ⟨token :: rest, d⟩ with
    | ok first c =>
      rw [bind_of_ok h]
      simp [statementsFrom, h, pure, EStateM.pure]
    | error e c =>
      rw [bind_of_error h]
      simp [statementsFrom, h]

namespace Congruence
variable {Sim : {α : Type} → Parser α → Parser α → Prop} (C : Congruence Sim)
  {read read' : Readers} (R : ∀ {α : Type} (rule : Rule α), Sim (read rule) (read' rule))
include C R

/-- The relation holds of postfixes. -/
lemma readPostfix (left : Expression) : Sim (readPostfix read left) (readPostfix read' left) := by
  refine C.bind C.peekKind fun kind => ?_
  split
  · exact C.bind C.advance fun _ => C.bind (R _) fun _ => C.pure _
  · exact C.bind C.advance fun _ => C.bind (C.expect _) fun _ => C.pure _
  · exact C.bind C.advance fun _ => C.bind (R _) fun _ =>
      C.bind (C.discard (C.expect _)) fun _ => C.pure _
  · exact C.pure _

/-- The relation holds of infixes. -/
lemma readInfix (left : Expression) : Sim (readInfix read left) (readInfix read' left) := by
  refine C.bind C.peekKind fun found => ?_
  cases found with
  | none => exact C.pure _
  | some kind =>
    dsimp only
    split
    · exact C.bind C.advance fun _ => C.bind (R _) fun _ => C.pure _
    · split
      · split
        · exact C.bind C.advance fun _ => C.bind (R _) fun _ => C.pure _
        · exact C.fail _
      · exact C.pure _

/-- The relation holds of the next statement. -/
lemma readNext : Sim (readNext read) (readNext read') := by
  refine C.bind C.peek fun found => ?_
  split
  · exact C.bind (R _) fun _ => C.pure _
  · exact C.pure _

end Congruence

namespace Parser

/-- The ends of two runs over the same tokens, inside `d` and inside `d'` loops. Nothing is said of
a run inside of loops where that outside fails at a jump. -/
inductive Shift {α : Type} (d d' : Nat) :
    EStateM.Result Failure Cursor α → EStateM.Result Failure Cursor α → Prop where
  | ok {a rest} : Shift d d' (.ok a ⟨rest, d⟩) (.ok a ⟨rest, d'⟩)
  | error {e rest} : Shift d d' (.error e ⟨rest, d⟩) (.error e ⟨rest, d'⟩)
  | jump {rest c result} : d = 0 → 0 < d' → Shift d d' (.error ⟨.jumpOutsideLoop, rest⟩ c) result

/-- The second parser does what the first does, inside of other loops. -/
def Shifts {α : Type} (p p' : Parser α) : Prop :=
  ∀ (tokens : List Token) (d d' : Nat), (0 < d → 0 < d') →
    Shift d d' (p ⟨tokens, d⟩) (p' ⟨tokens, d'⟩)

/-- Runs that are both outside of loops, or both inside, part with other numbers of loops. -/
lemma Shift.withDepth {α : Type} {d d' e e' : Nat}
    {result result' : EStateM.Result Failure Cursor α} {f f' : Nat → Nat}
    (h : Shift d d' result result') (alike : d = 0 → d' = 0) (hf : f d = e) (hf' : f' d' = e') :
    Shift e e' (withDepth f result) (withDepth f' result') := by
  subst hf hf'
  cases h with
  | ok => exact .ok
  | error => exact .error
  | jump zero pos =>
    have zero' := alike zero
    omega

/-- A jump asks only whether it stands in a loop. -/
lemma Shifts.readJump : Shifts readJump readJump := by
  intro tokens d d' le
  cases d with
  | zero =>
    cases d' with
    | zero => exact .error
    | succ d' => exact .jump rfl (Nat.succ_pos d')
  | succ d =>
    obtain ⟨d', rfl⟩ : ∃ k, d' = k + 1 := ⟨d' - 1, by omega⟩
    cases tokens with
    | nil => exact .error
    | cons token rest =>
      cases h : token.kind.jump? with
      | some form =>
        rw [readJump_of_some h, readJump_of_some h]
        exact .ok
      | none =>
        rw [readJump_of_none h, readJump_of_none h]
        exact .error

/-- What the rules are made of asks no more of the number of loops. -/
lemma Shifts.congruence : Congruence Shifts where
  pure _ _ _ _ _ := .ok
  peek _ _ _ _ := .ok
  advance _ _ _ _ := .ok
  fail _ _ _ _ _ := .error
  jump := readJump
  bind {α β p p' f f'} hp hf tokens d d' le := by
    have first := hp tokens d d' le
    generalize e : p ⟨tokens, d⟩ = result at first
    generalize e' : p' ⟨tokens, d'⟩ = result' at first
    cases first with
    | ok =>
      rw [bind_of_ok e, bind_of_ok e']
      exact hf _ _ _ _ le
    | error =>
      rw [bind_of_error e, bind_of_error e']
      exact .error
    | jump zero pos =>
      rw [bind_of_error e]
      exact .jump zero pos
  -- Inside a loop both runs are inside of one, and in the body of a function neither is.
  inLoop h tokens d d' _ := by
    rw [inLoop_apply, inLoop_apply]
    exact (h tokens (d + 1) (d' + 1) fun _ => Nat.succ_pos d').withDepth nofun rfl rfl
  outsideLoops h tokens d d' _ := by
    rw [outsideLoops_apply, outsideLoops_apply]
    exact (h tokens 0 0 fun lt => lt).withDepth (fun _ => rfl) rfl rfl

/-- No rule asks more of the number of loops, however deeply rules may call one another. -/
lemma Shifts.parseWith (n : Nat) {α : Type} (rule : Rule α) :
    Shifts (rule.parseWith n) (rule.parseWith n) := by
  induction n generalizing α with
  | zero => exact congruence.fail _
  | succ n ih => exact congruence.step ih (congruence.readStatement ih fun _ _ _ _ => .ok) rule

/-- No rule asks more of the number of loops. -/
lemma Shifts.parse {α : Type} (rule : Rule α) : Shifts rule.parse rule.parse :=
  fun tokens => parseWith (bound tokens.length) rule tokens

/-- However the parser ends, there are as many loops around the cursor as before, and what it does
inside of one loop it does inside of any number. Outside of loops it does so too, unless it fails at
a jump. -/
structure Shallow {α : Type} (p : Parser α) : Prop where
  restored (c : Cursor) : (stop (p c)).loopDepth = c.loopDepth
  inside (tokens : List Token) (d d' : Nat) :
    p ⟨tokens, d + 1⟩ = withDepth (fun _ => d + 1) (p ⟨tokens, d' + 1⟩)
  accepted {tokens : List Token} {a : α} {c : Cursor} (d : Nat) :
    p ⟨tokens, 0⟩ = .ok a c → p ⟨tokens, d⟩ = .ok a ⟨c.rest, d⟩
  rejected {tokens : List Token} {e : Failure} {c : Cursor} (d : Nat) :
    p ⟨tokens, 0⟩ = .error e c → e.cause ≠ .jumpOutsideLoop →
      p ⟨tokens, d⟩ = .error e ⟨c.rest, d⟩

/-- What asks no more of the number of loops keeps it. -/
lemma Shifts.shallow {α : Type} {p : Parser α} (h : Shifts p p) : Shallow p where
  restored := by
    rintro ⟨tokens, d⟩
    have same := h tokens d d fun lt => lt
    generalize p ⟨tokens, d⟩ = result at same
    cases same with
    | ok | error => rfl
    | jump zero pos => omega
  inside tokens d d' := by
    have shift := h tokens (d + 1) (d' + 1) fun _ => Nat.succ_pos d'
    generalize p ⟨tokens, d + 1⟩ = result at shift
    generalize p ⟨tokens, d' + 1⟩ = result' at shift
    cases shift with
    | ok | error => rfl
    | jump zero => cases zero
  accepted {tokens a c} d done := by
    have shift := h tokens 0 d nofun
    rw [done] at shift
    generalize p ⟨tokens, d⟩ = result at shift
    cases shift with
    | ok => rfl
  rejected {tokens e c} d failed other := by
    have shift := h tokens 0 d nofun
    rw [failed] at shift
    generalize p ⟨tokens, d⟩ = result at shift
    cases shift with
    | error => rfl
    | jump => exact absurd rfl other

end Parser

/-- A script consists of the same, whatever loops it is read inside of, unless it is read outside
and fails at a jump. -/
lemma statementsFrom_shift (n fuel : Nat) (tokens : List Token) (d d' : Nat)
    (le : 0 < d → 0 < d') :
    statementsFrom n fuel ⟨tokens, d⟩ = statementsFrom n fuel ⟨tokens, d'⟩ ∨
      d = 0 ∧ 0 < d' ∧ ∃ p rest,
        statementsFrom n fuel ⟨tokens, d⟩ = (p, some ⟨.jumpOutsideLoop, rest⟩) := by
  induction fuel generalizing tokens with
  | zero => exact .inl rfl
  | succ fuel ih =>
    have next := Shifts.congruence.readNext (Shifts.parseWith n) tokens d d' le
    rw [statementsFrom_succ, statementsFrom_succ]
    generalize readNext (Rule.parseWith n) ⟨tokens, d⟩ = result at next
    generalize readNext (Rule.parseWith n) ⟨tokens, d'⟩ = result' at next
    cases next with
    | @ok found rest =>
      cases found with
      | none => exact .inl rfl
      | some first =>
        obtain same | ⟨zero, pos, p, failed, e⟩ := ih rest
        · left
          dsimp only
          rw [same]
        · right
          dsimp only
          rw [e]
          exact ⟨zero, pos, _, failed, rfl⟩
    | error => exact .inl rfl
    | @jump rest _ _ zero pos => exact .inr ⟨zero, pos, [], rest, rfl⟩

/-- Whatever reads by the rules leaves the number of loops as it was, and all it takes from that
number is whether there are any. So does a script. -/
theorem reading_is_shallow :
    (∀ {α : Type} (rule : Rule α), Shallow rule.parse) ∧
    (∀ left, Shallow (readPostfix Rule.parse left) ∧ Shallow (readInfix Rule.parse left)) ∧
    Shallow advance ∧ (∀ kind, Shallow (expect kind)) ∧ Shallow (readNext Rule.parse) ∧
    ∀ (n fuel : Nat) (tokens : List Token),
      (∀ d d', statementsFrom n fuel ⟨tokens, d + 1⟩ = statementsFrom n fuel ⟨tokens, d' + 1⟩) ∧
      ∀ p d, statementsFrom n fuel ⟨tokens, 0⟩ = (p, none) →
        statementsFrom n fuel ⟨tokens, d⟩ = (p, none) := by
  have C := Shifts.congruence
  refine ⟨fun rule => (Shifts.parse rule).shallow, fun left => ⟨?_, ?_⟩, C.advance.shallow,
    fun kind => (C.expect kind).shallow, (C.readNext Shifts.parse).shallow,
    fun n fuel tokens => ⟨fun d d' => ?_, fun p d done => ?_⟩⟩
  · exact (C.readPostfix Shifts.parse left).shallow
  · exact (C.readInfix Shifts.parse left).shallow
  · obtain same | ⟨zero, _⟩ :=
      statementsFrom_shift n fuel tokens (d + 1) (d' + 1) fun _ => Nat.succ_pos d'
    · exact same
    · cases zero
  · obtain same | ⟨_, _, q, rest, failed⟩ := statementsFrom_shift n fuel tokens 0 d nofun
    · rw [← same, done]
    · rw [done] at failed
      cases failed

/-- The tokens of `loop { fn x() { loop { continue } } break }`. -/
def nestedLoops : List Token :=
  [.loopWord, .leftBrace, .fnWord, .name, .leftParen, .rightParen, .leftBrace, .loopWord,
    .leftBrace, .continueWord, .rightBrace, .rightBrace, .breakWord, .rightBrace].map Token.sample

/-- A loop with another inside is read the same outside of all loops and inside of five. -/
theorem nestedLoops_read_inside :
    ∃ s, Rule.parse .statement ⟨nestedLoops, 0⟩ = .ok s ⟨[], 0⟩ ∧
      Rule.parse .statement ⟨nestedLoops, 5⟩ = .ok s ⟨[], 5⟩ := by
  have outside : ∃ s, Rule.parse .statement ⟨nestedLoops, 0⟩ = .ok s ⟨[], 0⟩ := ⟨_, rfl⟩
  obtain ⟨s, outside⟩ := outside
  exact ⟨s, outside, (reading_is_shallow.1 Rule.statement).accepted 5 outside⟩

/-- Whether there is a loop around does matter to a jump. -/
example : Rule.parse .statement ⟨[.sample .breakWord], 0⟩ =
      .error ⟨.jumpOutsideLoop, [.sample .breakWord]⟩ ⟨[.sample .breakWord], 0⟩ ∧
    Rule.parse .statement ⟨[.sample .breakWord], 1⟩ =
      .ok (statementAt (.sample .breakWord) .breakLoop) ⟨[], 1⟩ := ⟨rfl, rfl⟩

end ScriptLang
