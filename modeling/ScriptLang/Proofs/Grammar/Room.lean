import ScriptLang.Proofs.Grammar.Script

/-!
# Room for reading

Reading nests as deeply as the script does, and so may use up the room that there is. Room only cuts
short: a script that is read within some room is read as it always is (`parseWithin_eq`), and so it
is within more of it (`parseWithin_of_le`). Room for all rules that may call one another is never
used up (`parseWithin_of_short`), so every script fits if there is room enough.
-/

namespace ScriptLang
open ScriptLang.Parser ScriptLang.Rule

namespace Rule

/-- A rule takes room for two calls at most. -/
lemma room_le {α β : Type} (caller : Rule α) (rule : Rule β) : caller.room rule ≤ 2 := by
  unfold room
  split
  · exact Nat.zero_le 2
  · split
    · exact Nat.le_refl 2
    · exact Nat.le_succ 1

/-- Without room nothing is read. -/
lemma exhausted_parseWithin_zero (n : Nat) {α : Type} (rule : Rule α) (c : Cursor) :
    Exhausted (parseWithin n 0 rule) c := by
  cases n <;> exact ⟨c.rest, c, rfl⟩

/-- Where there is room a rule takes a step, and the rules it calls have less room. -/
lemma parseWithin_succ {n room : Nat} (some : 0 < room) {α : Type} (rule : Rule α) :
    parseWithin (n + 1) room rule =
      step (fun callee => parseWithin n (room - rule.room callee) callee) rule :=
  if_neg (Nat.ne_of_gt some)

/-- More room changes no result that came without using up what there was. -/
lemma parseWithin_mono {n room room' : Nat} (le : room ≤ room') {α : Type} (rule : Rule α) :
    Refines (parseWithin n room rule) (parseWithin n room' rule) := by
  induction n generalizing room room' α with
  | zero => exact .refl _
  | succ n ih =>
    obtain rfl | some := Nat.eq_zero_or_pos room
    · exact fun c => .inl (exhausted_parseWithin_zero _ rule c)
    · rw [parseWithin_succ some, parseWithin_succ (Nat.lt_of_lt_of_le some le)]
      exact refines_step (fun callee => ih (Nat.sub_le_sub_right le _) callee) rule

/-- What is read within some room is what is read without any limit to it. -/
lemma parseWithin_refines (n room : Nat) {α : Type} (rule : Rule α) :
    Refines (parseWithin n room rule) (parseWith n rule) := by
  induction n generalizing room α with
  | zero => exact .refl _
  | succ n ih =>
    obtain rfl | some := Nat.eq_zero_or_pos room
    · exact fun c => .inl (exhausted_parseWithin_zero _ rule c)
    · rw [parseWithin_succ some]
      exact refines_step (fun callee => ih _ callee) rule

/-- Room for all rules that may call one another is not used up. -/
lemma parseWithin_of_lt {n room : Nat} (enough : 2 * n < room) {α : Type} (rule : Rule α) :
    parseWithin n room rule = parseWith n rule := by
  induction n generalizing room α with
  | zero => rfl
  | succ n ih =>
    rw [parseWithin_succ (by omega)]
    have inside : (fun {β : Type} (callee : Rule β) =>
        parseWithin n (room - rule.room callee) callee) = @parseWith n := by
      funext β callee
      have := room_le rule callee
      exact ih (by omega) callee
    exact congrArg (fun read : Readers => step read rule) inside

end Rule

/-- No program was read, for want of room. -/
def OutOfRoom (outcome : Except Failure Program) : Prop :=
  ∃ rest, outcome = .error ⟨.exhausted, rest⟩

/-- Wherever one reader of statements gets by with its room, a program is read by the other as by
the one. -/
lemma programBy_refines {read read' : Parser Statement} (refines : Refines read read') (fuel : Nat)
    (c : Cursor) :
    OutOfRoom (programBy read fuel c) ∨ programBy read' fuel c = programBy read fuel c := by
  induction fuel generalizing c with
  | zero => exact .inr rfl
  | succ fuel ih =>
    unfold programBy
    split
    · exact .inr rfl
    -- The first statement is given up, or read the same and behind it all the others.
    obtain ⟨rest, c', exhausted⟩ | same := refines c
    · rw [exhausted]
      exact .inl ⟨rest, rfl⟩
    rw [same]
    cases read c with
    | error => exact .inr rfl
    | ok s c' =>
      obtain ⟨rest, out⟩ | same := ih c'
      · left
        dsimp only
        rw [out]
        exact ⟨rest, rfl⟩
      · right
        dsimp only
        rw [same]

/-- The program of tokens is read statement by statement. -/
lemma programBy_parseWith (n fuel : Nat) (c : Cursor) :
    programBy (Rule.parseWith n .statement) fuel c =
      match statementsFrom n fuel c with
      | (program, none) => .ok program
      | (_, some failure) => .error failure := by
  induction fuel generalizing c with
  | zero => rfl
  | succ fuel ih =>
    unfold programBy statementsFrom
    split
    · rfl
    cases Rule.parseWith n .statement c with
    | error => rfl
    | ok s c' =>
      dsimp only
      rw [ih]
      obtain ⟨statements, _ | failure⟩ := statementsFrom n fuel c' <;> rfl

/-- Tokens are read as a program whose statements are read without a limit to the room. -/
lemma parseTokens_eq (tokens : List Token) : parseTokens tokens =
    programBy (Rule.parseWith (bound tokens.length) .statement) tokens.length ⟨tokens, 0⟩ := by
  rw [programBy_parseWith]
  rfl

/-- A bound that is linear in the number of tokens is not reached. -/
lemma not_outOfRoom {n : Nat} (fuel : Nat) {c : Cursor} (le : c.rest.length ≤ n) :
    ¬ OutOfRoom (programBy (Rule.parseWith (bound n) .statement) fuel c) := by
  induction fuel generalizing c with
  | zero => exact nofun
  | succ fuel ih =>
    have ends := ends_statement le
    unfold programBy
    split
    · exact nofun
    unfold Ends at ends
    cases read : Rule.parseWith (bound n) .statement c with
    | error failure c' =>
      rw [read] at ends
      rintro ⟨rest, ⟨⟩⟩
      exact ends rfl
    | ok s c' =>
      rw [read] at ends
      have rest := ih (c := c') (by omega)
      rintro ⟨_, out⟩
      dsimp only at out
      cases others : programBy (Rule.parseWith (bound n) .statement) fuel c' with
      | ok => rw [others] at out; cases out
      | error failure =>
        rw [others] at out
        cases out
        exact rest ⟨_, others⟩

section
variable {room : Nat} {source : String} {tokens : List Token}
  (scanned : tokenize source = .ok tokens)
include scanned

/-- What the tokens of a script are read as tells what the script is read as. -/
lemma parseWithin_of_tokens : parseWithin room source =
    match programBy (Rule.parseWithin (bound tokens.length) room .statement) tokens.length
      ⟨tokens, 0⟩ with
    | .ok program => some (.ok program)
    | .error failure =>
      if failure.cause = .exhausted then none
      else some (.error (.ofFailure (Token.endOf source.toList) failure)) := by
  unfold parseWithin
  exact scanned ▸ rfl

/-- A script is not read if there is no room for its tokens. -/
lemma parseWithin_of_outOfRoom (out : OutOfRoom
    (programBy (Rule.parseWithin (bound tokens.length) room .statement) tokens.length
      ⟨tokens, 0⟩)) : parseWithin room source = none := by
  obtain ⟨rest, out⟩ := out
  rw [parseWithin_of_tokens scanned, out]
  exact if_pos rfl

/-- A script is read as it always is if its tokens are. -/
lemma parseWithin_of_same (same :
    programBy (Rule.parseWithin (bound tokens.length) room .statement) tokens.length ⟨tokens, 0⟩ =
      parseTokens tokens) : parseWithin room source = some (parse source) := by
  rw [parseWithin_of_tokens scanned, parse_eq, scanned, same]
  dsimp only
  cases read : parseTokens tokens with
  | ok => rfl
  | error failure =>
    -- Without a limit to the room the rules never call one another too deeply.
    refine if_neg fun exhausted => ?_
    obtain ⟨cause, rest⟩ := failure
    cases exhausted
    rw [parseTokens_eq] at read
    have whole : (⟨tokens, 0⟩ : Cursor).rest.length ≤ tokens.length := Nat.le_refl _
    exact not_outOfRoom tokens.length whole ⟨rest, read⟩

/-- Room for all rules that may call one another is enough for a script. -/
theorem parseWithin_of_short (enough : 2 * bound tokens.length < room) :
    parseWithin room source = some (parse source) := by
  refine parseWithin_of_same scanned ?_
  rw [Rule.parseWithin_of_lt enough, parseTokens_eq]

end

/-- A script is read as it always is, unless there is no room for it. -/
theorem parseWithin_eq (room : Nat) (source : String) :
    parseWithin room source = none ∨ parseWithin room source = some (parse source) := by
  cases scanned : tokenize source with
  | error e =>
    right
    unfold parseWithin
    rw [parse_eq, scanned]
  | ok tokens =>
    have refines := Rule.parseWithin_refines (bound tokens.length) room .statement
    obtain out | same := programBy_refines refines tokens.length ⟨tokens, 0⟩
    · exact .inl (parseWithin_of_outOfRoom scanned out)
    · right
      refine parseWithin_of_same scanned ?_
      rw [parseTokens_eq, same]

/-- A script that is read within some room is read the same within more. -/
theorem parseWithin_of_le {room room' : Nat} (le : room ≤ room') (source : String) :
    parseWithin room source = none ∨ parseWithin room' source = parseWithin room source := by
  cases scanned : tokenize source with
  | error e =>
    right
    unfold parseWithin
    rw [scanned]
  | ok tokens =>
    have refines := Rule.parseWithin_mono (n := bound tokens.length) le .statement
    obtain out | same := programBy_refines refines tokens.length ⟨tokens, 0⟩
    · exact .inl (parseWithin_of_outOfRoom scanned out)
    · right
      rw [parseWithin_of_tokens scanned, parseWithin_of_tokens scanned, same]

end ScriptLang
