import ScriptLang.Proofs.Grammar.Derivation
import ScriptLang.Proofs.Grammar.Progress

/-!
# Everything derived is read

`Derives.read` says that a rule reads tokens that the grammar derives as the phrase they were
derived as, whatever follows, as long as it is nothing that goes on with them.

An expression is read from its left end, so what its tokens do is said with the loop over
expressions in mind: reading them leads from the start of an expression to the loop with the whole
expression on its left. For an operator of two operands this takes the loop once through its left
operand, and then once more around.
-/

namespace ScriptLang
open ScriptLang.Parser ScriptLang.Rule

namespace Parser
variable {α : Type} {rest : List Token} {d : Nat}

/-- A look at the next token leads on with it. -/
lemma peek_bind {f : Option Token → Parser α} :
    (peek >>= f) ⟨rest, d⟩ = f rest.head? ⟨rest, d⟩ := rfl

/-- A look at the kind of the next token leads on with it. -/
lemma peekKind_bind {f : Option Token.Kind → Parser α} :
    (peekKind >>= f) ⟨rest, d⟩ = f (rest.head?.map (·.kind)) ⟨rest, d⟩ := rfl

/-- A look at the kind of the second token leads on with it. -/
lemma peekSecondKind_bind {f : Option Token.Kind → Parser α} :
    (peekSecondKind >>= f) ⟨rest, d⟩ = f (rest.tail.head?.map (·.kind)) ⟨rest, d⟩ := rfl

/-- A move leads on behind the next token. -/
lemma advance_bind {f : Unit → Parser α} {token : Token} :
    (advance >>= f) ⟨token :: rest, d⟩ = f () ⟨rest, d⟩ := rfl

end Parser

/-- Tokens that start like an expression. A function literal differs from a definition in its second
token. -/
def StartsExpression (ts : List Token) : Prop :=
  ∃ first rest, ts = first :: rest ∧ first.kind.startsExpression = true ∧
    (first.kind = .fnWord → rest.head?.map (·.kind) = some .leftParen)

/-- More tokens do not change how an expression starts. -/
lemma StartsExpression.append {ts : List Token} (h : StartsExpression ts) (us : List Token) :
    StartsExpression (ts ++ us) := by
  obtain ⟨first, rest, rfl, hf, hp⟩ := h
  refine ⟨first, rest ++ us, rfl, hf, fun h => ?_⟩
  obtain ⟨second, hs, hk⟩ := Option.map_eq_some_iff.1 (hp h)
  rw [List.head?_append, hs]
  exact congrArg some hk

/-- A token of a kind that starts expressions does, if it is no keyword of functions. -/
lemma StartsExpression.of_kind {first : Token} {rest : List Token} {kind : Token.Kind}
    (h : first.kind = kind) (hk : kind.startsExpression = true) (hf : kind ≠ .fnWord) :
    StartsExpression (first :: rest) :=
  ⟨first, rest, rfl, h ▸ hk, fun e => absurd (h.symm.trans e) hf⟩

/-- Whether a token may start a statement. -/
def Token.Kind.startsStatement : Kind → Bool
  | letWord | fnWord | ifWord | loopWord | returnWord | breakWord | continueWord => true
  | kind => kind.startsExpression

/-- What starts an expression starts a statement. -/
lemma Token.Kind.startsStatement_of_startsExpression {kind : Kind}
    (h : kind.startsExpression = true) : kind.startsStatement = true := by
  cases kind <;> first | rfl | cases h

/-- A token of a kind that starts statements does. -/
lemma startsStatement_of_kind {first : Token} {rest : List Token} {kind : Token.Kind}
    (h : first.kind = kind) (hk : kind.startsStatement = true) :
    ∀ token ∈ (first :: rest).head?, token.kind.startsStatement = true := by
  rintro _ ⟨rfl⟩
  rw [h, hk]

/-- How the tokens of a phrase begin. -/
def Phrase.Starts (ts : List Token) : Phrase → Prop
  | operand .. | expression _ => StartsExpression ts
  | statement _ | statements _ => ∀ token ∈ ts.head?, token.kind.startsStatement = true
  | conditional word _ => ts.head?.map (·.kind) = some word
  | alternative _ => ∀ token ∈ ts.head?, token.kind = .elifWord ∨ token.kind = .elseWord
  | elements _ | block _ => True

/-- What is derived as a phrase starts as such phrases do. -/
lemma Derives.starts {l ph ts} (h : Derives l ph ts) : ph.Starts ts := by
  induction h with
  | bare _ _ ih => exact ih
  | grouped h => exact .of_kind h rfl (by decide)
  | number h => exact .of_kind h rfl (by decide)
  | string h => exact .of_kind h rfl (by decide)
  | trueWord h => exact .of_kind h rfl (by decide)
  | falseWord h => exact .of_kind h rfl (by decide)
  | identifier h => exact .of_kind h rfl (by decide)
  | function h hp =>
    refine ⟨_, _, rfl, by rw [h]; rfl, fun _ => ?_⟩
    cases hp with
    | intro h => exact congrArg some h
  | list h => exact .of_kind h rfl (by decide)
  | @unary _ _ _ _ sign h =>
    cases hk : sign.kind <;> simp [hk, Token.Kind.unaryOperator?] at h
    · exact .of_kind hk rfl (by decide)
    · exact .of_kind hk rfl (by decide)
  | binary _ _ _ ih => exact ih.append _
  | assign _ _ _ ih => exact ih.append _
  | call _ _ _ _ ih => exact ih.append _
  | member _ _ _ ih => exact ih.append _
  | index _ _ _ _ ih => exact ih.append _
  | noElements | lastElement | moreElements | block => trivial
  | declare h => exact startsStatement_of_kind h rfl
  | define h => exact startsStatement_of_kind h rfl
  | branch _ ih =>
    obtain ⟨first, ht, hk⟩ := Option.map_eq_some_iff.1 ih
    intro token ht'
    cases ht.symm.trans ht'
    rw [hk]
    rfl
  | conditional h => exact congrArg some h
  | noAlternative =>
    intro _ h
    cases h
  | chained _ ih =>
    obtain ⟨first, ht, hk⟩ := Option.map_eq_some_iff.1 ih
    intro token ht'
    cases ht.symm.trans ht'
    exact .inl hk
  | otherwise h =>
    rintro _ ⟨rfl⟩
    exact .inr h
  | loop h => exact startsStatement_of_kind h rfl
  | loopOver h => exact startsStatement_of_kind h rfl
  | returns h => exact startsStatement_of_kind h rfl
  | returnsNothing h => exact startsStatement_of_kind h rfl
  | breakLoop h => exact startsStatement_of_kind h rfl
  | continueLoop h => exact startsStatement_of_kind h rfl
  | evaluate _ ih =>
    obtain ⟨_, _, ⟨rfl, rfl⟩, h, _⟩ := ih
    rintro _ ⟨rfl⟩
    exact Token.Kind.startsStatement_of_startsExpression h
  | noStatements =>
    intro _ h
    cases h
  | moreStatements h _ _ ih =>
    obtain ⟨first, ts, rfl⟩ := List.exists_cons_of_ne_nil (h.ne_nil rfl)
    exact ih

/-- The highest rank of a token that may follow an expression without being read as a part of
it. The value of an assignment takes all it can. -/
def Expression.reach : Expression → Nat
  | assign .. => Precedence.statement.rank
  | e => e.rank

/-- What binds more tightly than an assignment reaches as far as it binds. -/
lemma Expression.reach_of_lt {e : Expression} (h : Precedence.assignment.rank < e.rank) :
    e.reach = e.rank := by
  cases e <;> first | rfl | exact absurd h (Nat.lt_irrefl _)

/-- An expression that binds at least as tightly as an assignment. -/
def Expression.IsBound (e : Expression) : Prop :=
  Precedence.assignment.rank ≤ e.rank ∧ Precedence.statement.rank ≤ e.reach

/-- An expression of which rank and reach are the same is bound by them. -/
lemma Expression.IsBound.of_eq {e : Expression} {n : Nat} (h : e.rank = n) (h' : e.reach = n)
    (le : Precedence.assignment.rank ≤ n) : e.IsBound :=
  ⟨h ▸ le, h' ▸ Nat.le_of_lt le⟩

/-- What there is to say of a phrase that is an expression. -/
def Phrase.IsBound : Phrase → Prop
  | operand _ e | expression e => e.IsBound
  | _ => True

/-- Whatever is derived as an expression binds at least as tightly as an assignment. -/
lemma Derives.isBound {l ph ts} (h : Derives l ph ts) : ph.IsBound := by
  have call : Precedence.assignment.rank ≤ Precedence.call.rank := by decide
  have unary : Precedence.assignment.rank ≤ Precedence.unary.rank := by decide
  induction h with
  | bare _ _ ih => exact ih
  | grouped _ _ _ ih => exact ih
  | binary h =>
    obtain ⟨gt, _⟩ := Token.Kind.rank_of_binaryOperator? h
    rw [Token.Kind.eq_sign h] at gt
    exact .of_eq rfl rfl (Nat.le_of_lt gt)
  | assign => exact ⟨Nat.le_refl _, Nat.le_refl _⟩
  | unary => exact .of_eq rfl rfl unary
  | number | string | trueWord | falseWord | identifier => exact .of_eq rfl rfl call
  | function | list | call | member | index => exact .of_eq rfl rfl call
  | _ => trivial

/-- What may follow an expression read in surroundings of a level may follow the expression. -/
lemma Expression.IsBound.next_le {e : Expression} (h : e.IsBound) {level : Precedence}
    {r : List Token} (fits : level.operandRank ≤ e.rank) (lt : level.rank < Precedence.call.rank)
    (stops : level.Stops r) : nextRank r ≤ e.reach := by
  have bound : level.rank ≤ e.reach := by
    -- Only for an assignment the two differ, and there the level asks for no more than its rank.
    have reach : e.reach = e.rank ∨ e.rank = 2 ∧ e.reach = 1 := by
      cases e <;> first | exact .inl rfl | exact .inr ⟨rfl, rfl⟩
    have unary : Precedence.unary.rank = 8 := rfl
    have call : Precedence.call.rank = 9 := rfl
    unfold Precedence.operandRank at fits
    omega
  exact Nat.le_trans stops (Nat.max_le.2 ⟨bound, h.2⟩)

/-- Only an opening brace binds as loosely as a statement. -/
lemma Token.Kind.eq_leftBrace {kind : Kind}
    (h : kind.precedence.rank = Precedence.statement.rank) : kind = .leftBrace := by
  cases kind <;> first | rfl | cases h

/-- Where the next token does not go on with the expression, it is read. -/
lemma continuation_of_stops {level : Precedence} {e : Expression} {r : List Token} {d : Nat}
    (stops : level.Stops r) : Rule.parse (.continuation level e) ⟨r, d⟩ = .ok e ⟨r, d⟩ := by
  rw [parse_eq_step]
  change readContinuation Rule.parse level e ⟨r, d⟩ = _
  unfold readContinuation
  rw [peekKind_bind]
  cases r with
  | nil => rfl
  | cons token r =>
    rw [List.head?_cons, Option.map_some]
    dsimp only
    by_cases le : token.kind.precedence.rank ≤ level.rank
    · rw [if_pos le]
      rfl
    · -- An opening brace has a rank above the lowest level, and still is no operator.
      have eq : token.kind = .leftBrace := by
        apply Token.Kind.eq_leftBrace
        change token.kind.precedence.rank ≤ max level.rank 1 at stops
        change token.kind.precedence.rank = 1
        omega
      rw [if_neg le, eq]
      rfl

section
variable {level : Precedence} {left e : Expression} {token : Token} {ts r : List Token} {d : Nat}

/-- Behind its leaf an expression goes on. -/
lemma expression_of_leaf (h : Rule.parse .leaf ⟨ts, d⟩ = .ok e ⟨r, d⟩) :
    Rule.parse (.expression level) ⟨ts, d⟩ = Rule.parse (.continuation level e) ⟨r, d⟩ := by
  rw [parse_eq_step]
  exact bind_of_ok h

/-- A leaf is read by its own rule. -/
lemma leaf_eq_readLeaf :
    Rule.parse .leaf ⟨token :: ts, d⟩ = readLeaf Rule.parse ⟨token :: ts, d⟩ :=
  parse_eq_step _ _

/-- A function literal is its parameters and its body. -/
lemma leaf_function {parameters : List String} {body : Block} {us : List Token}
    (h : token.kind = .fnWord) (hp : Rule.parse .parameters ⟨ts, d⟩ = .ok parameters ⟨us, d⟩)
    (hb : Rule.parse .functionBody ⟨us, d⟩ = .ok body ⟨r, d⟩) :
    Rule.parse .leaf ⟨token :: ts, d⟩ = .ok (.function parameters body) ⟨r, d⟩ := by
  rw [leaf_eq_readLeaf]
  unfold readLeaf
  rw [peek_bind, List.head?_cons]
  dsimp only
  rw [h]
  dsimp only
  rw [advance_bind, bind_of_ok hp, bind_of_ok hb]
  rfl

/-- An operator of one operand is read with its operand. -/
lemma leaf_unary {operator : Operator} (h : token.kind.unaryOperator? = some operator)
    (he : Rule.parse (.expression .unary) ⟨ts, d⟩ = .ok e ⟨r, d⟩) :
    Rule.parse .leaf ⟨token :: ts, d⟩ = .ok (.unary operator e) ⟨r, d⟩ := by
  rw [leaf_eq_readLeaf]
  unfold readLeaf
  rw [peek_bind, List.head?_cons]
  dsimp only
  cases hk : token.kind <;> rw [hk] at h <;> cases h
  all_goals
    dsimp only
    rw [advance_bind, bind_of_ok he]
    rfl

/-- A list is its elements between brackets. -/
lemma leaf_list {es : List Expression} (h : token.kind = .leftBracket)
    (hes : Rule.parse (.sequence (some .rightBracket)) ⟨ts, d⟩ = .ok es ⟨r, d⟩) :
    Rule.parse .leaf ⟨token :: ts, d⟩ = .ok (.list es) ⟨r, d⟩ := by
  rw [leaf_eq_readLeaf]
  unfold readLeaf
  rw [peek_bind, List.head?_cons]
  dsimp only
  rw [h]
  dsimp only
  rw [advance_bind, bind_of_ok hes]
  rfl

/-- What stands between parentheses is read as it is. -/
lemma leaf_grouped {closing : Token} (h : token.kind = .leftParen)
    (he : Rule.parse (.expression .lowest) ⟨ts, d⟩ = .ok e ⟨closing :: r, d⟩)
    (hclosing : closing.kind = .rightParen) :
    Rule.parse .leaf ⟨token :: ts, d⟩ = .ok e ⟨r, d⟩ := by
  rw [leaf_eq_readLeaf]
  unfold readLeaf
  rw [peek_bind, List.head?_cons]
  dsimp only
  rw [h]
  dsimp only
  rw [advance_bind, bind_of_ok he, discard_bind, bind_of_ok (expect_of_eq hclosing)]
  rfl

/-- What an expression goes on with is read by its own rule. -/
lemma continuation_eq_readContinuation :
    Rule.parse (.continuation level left) ⟨token :: ts, d⟩ =
      readContinuation Rule.parse level left ⟨token :: ts, d⟩ :=
  parse_eq_step _ _

/-- An expression goes on with a call. -/
lemma continuation_call {es : List Expression} (h : token.kind = .leftParen)
    (lt : level.rank < token.kind.precedence.rank)
    (hes : Rule.parse (.sequence (some .rightParen)) ⟨ts, d⟩ = .ok es ⟨r, d⟩) :
    Rule.parse (.continuation level left) ⟨token :: ts, d⟩ =
      Rule.parse (.continuation level (.call left es)) ⟨r, d⟩ := by
  rw [continuation_eq_readContinuation]
  unfold readContinuation
  rw [peekKind_bind, List.head?_cons, Option.map_some]
  dsimp only
  rw [if_neg (Nat.not_le.2 lt), h]
  dsimp only
  rw [advance_bind, bind_of_ok hes]

/-- An expression goes on with the access to a member. -/
lemma continuation_member {name : Token} (h : token.kind = .dot)
    (lt : level.rank < token.kind.precedence.rank) (hname : name.kind = .name) :
    Rule.parse (.continuation level left) ⟨token :: name :: r, d⟩ =
      Rule.parse (.continuation level (.member left name.text)) ⟨r, d⟩ := by
  rw [continuation_eq_readContinuation]
  unfold readContinuation
  rw [peekKind_bind, List.head?_cons, Option.map_some]
  dsimp only
  rw [if_neg (Nat.not_le.2 lt), h]
  dsimp only
  rw [advance_bind, bind_of_ok (expect_of_eq hname)]

/-- An expression goes on with an access by an index. -/
lemma continuation_index {place : Expression} {closing : Token} (h : token.kind = .leftBracket)
    (lt : level.rank < token.kind.precedence.rank)
    (hp : Rule.parse (.expression .lowest) ⟨ts, d⟩ = .ok place ⟨closing :: r, d⟩)
    (hclosing : closing.kind = .rightBracket) :
    Rule.parse (.continuation level left) ⟨token :: ts, d⟩ =
      Rule.parse (.continuation level (.index left place)) ⟨r, d⟩ := by
  rw [continuation_eq_readContinuation]
  unfold readContinuation
  rw [peekKind_bind, List.head?_cons, Option.map_some]
  dsimp only
  rw [if_neg (Nat.not_le.2 lt), h]
  dsimp only
  rw [advance_bind, bind_of_ok hp, discard_bind,
    bind_of_ok (expect_of_eq hclosing)]

/-- A name goes on with an assignment. -/
lemma continuation_assign {name : String} {value : Expression} (h : token.kind = .assign)
    (lt : level.rank < token.kind.precedence.rank)
    (hv : Rule.parse (.expression .lowest) ⟨ts, d⟩ = .ok value ⟨r, d⟩) :
    Rule.parse (.continuation level (.identifier name)) ⟨token :: ts, d⟩ =
      Rule.parse (.continuation level (.assign (.identifier name) value)) ⟨r, d⟩ := by
  rw [continuation_eq_readContinuation]
  unfold readContinuation
  rw [peekKind_bind, List.head?_cons, Option.map_some]
  dsimp only
  rw [if_neg (Nat.not_le.2 lt), h]
  dsimp only
  rw [advance_bind, bind_of_ok hv]

/-- An expression goes on with an operator and its right operand. -/
lemma continuation_binary {operator : Operator} {right : Expression}
    (h : token.kind.binaryOperator? = some operator) (lt : level.rank < token.kind.precedence.rank)
    (hr : Rule.parse (.expression token.kind.precedence) ⟨ts, d⟩ = .ok right ⟨r, d⟩) :
    Rule.parse (.continuation level left) ⟨token :: ts, d⟩ =
      Rule.parse (.continuation level (.binary left operator right)) ⟨r, d⟩ := by
  rw [continuation_eq_readContinuation]
  unfold readContinuation
  rw [peekKind_bind, List.head?_cons, Option.map_some]
  dsimp only
  rw [if_neg (Nat.not_le.2 lt)]
  cases hk : token.kind <;> rw [hk] at h hr <;> cases h
  all_goals
    dsimp only [Token.Kind.binaryOperator?]
    rw [advance_bind, bind_of_ok hr]

/-- A sequence is its items and what closes it. -/
lemma sequence_of_items {kind : Token.Kind} {closing : Token} {es : List Expression}
    (hes : Rule.parse (.items (some kind)) ⟨ts, d⟩ = .ok es ⟨closing :: r, d⟩)
    (hclosing : closing.kind = kind) :
    Rule.parse (.sequence (some kind)) ⟨ts, d⟩ = .ok es ⟨r, d⟩ := by
  rw [parse_eq_step]
  change readSequence Rule.parse (some kind) ⟨ts, d⟩ = _
  unfold readSequence close
  rw [bind_of_ok hes, discard_bind, bind_of_ok (expect_of_eq hclosing)]
  rfl

/-- The rule for the statements that a keyword opens. -/
def Token.Kind.statementRule? : Kind → Option (Rule Statement)
  | letWord => some .declaration
  | ifWord => some .conditional
  | loopWord => some .loop
  | returnWord => some .returning
  | breakWord | continueWord => some .jump
  | _ => none

/-- A statement that a keyword opens is read by the rule of the keyword. -/
lemma statement_of_rule {rule : Rule Statement} (h : token.kind.statementRule? = some rule) :
    Rule.parse .statement ⟨token :: ts, d⟩ = Rule.parse rule ⟨token :: ts, d⟩ := by
  rw [parse_eq_step]
  change readStatement Rule.parse ⟨token :: ts, d⟩ = _
  unfold readStatement
  rw [peek_bind, List.head?_cons]
  dsimp only
  rw [peekSecondKind_bind]
  cases hk : token.kind <;> rw [hk] at h <;> cases h <;> rfl

/-- The keyword of functions before a name opens a definition. -/
lemma statement_define {name : Token} (h : token.kind = .fnWord) (hname : name.kind = .name) :
    Rule.parse .statement ⟨token :: name :: ts, d⟩ =
      Rule.parse .definition ⟨token :: name :: ts, d⟩ := by
  rw [parse_eq_step]
  change readStatement Rule.parse ⟨token :: name :: ts, d⟩ = _
  unfold readStatement
  rw [peek_bind, List.head?_cons]
  dsimp only
  rw [peekSecondKind_bind, h]
  dsimp only
  rw [if_pos ⟨rfl, congrArg some hname⟩]

/-- What starts as an expression is read as the evaluation of one. -/
lemma statement_evaluate (h : StartsExpression (token :: ts))
    (he : Rule.parse (.expression .lowest) ⟨token :: ts, d⟩ = .ok e ⟨r, d⟩) :
    Rule.parse .statement ⟨token :: ts, d⟩ = .ok (statementAt token (.evaluate e)) ⟨r, d⟩ := by
  obtain ⟨_, _, ⟨rfl, rfl⟩, hf, hp⟩ := h
  have literal {kind : Token.Kind} (hk : token.kind = kind) :
      ¬ (kind = .fnWord ∧ ts.head?.map (·.kind) = some .name) := by
    rintro ⟨rfl, h⟩
    rw [hp hk] at h
    cases h
  rw [parse_eq_step]
  change readStatement Rule.parse ⟨token :: ts, d⟩ = _
  unfold readStatement
  rw [peek_bind, List.head?_cons]
  dsimp only
  rw [peekSecondKind_bind, List.tail_cons]
  cases hk : token.kind <;> rw [hk] at hf <;> cases hf
  all_goals
    dsimp only
    rw [if_neg (literal hk), bind_of_ok he]
    rfl

/-- Inside of a loop a jump is read. -/
lemma statement_jump {form : Form} {kind : Token.Kind} (h : token.kind = kind)
    (hk : kind.statementRule? = some .jump) (jump : kind.jump? = some form) (hd : d ≠ 0) :
    Rule.parse .statement ⟨token :: r, d⟩ = .ok (statementAt token form) ⟨r, d⟩ := by
  subst h
  obtain ⟨d, rfl⟩ := Nat.exists_eq_succ_of_ne_zero hd
  rw [statement_of_rule hk, parse_eq_step]
  exact readJump_of_some jump r d

end

/-- The next token does not go on with a conditional. -/
def EndsBranches (r : List Token) : Prop :=
  ∀ token ∈ r.head?, token.kind ≠ .elifWord ∧ token.kind ≠ .elseWord

/-- What ends a conditional is no further condition. -/
lemma EndsBranches.ne_elif {r : List Token} (h : EndsBranches r) :
    r.head?.map (·.kind) ≠ some .elifWord := by
  intro head
  obtain ⟨token, ht, hk⟩ := Option.map_eq_some_iff.1 head
  exact (h token ht).1 hk

/-- What ends a conditional is no alternative. -/
lemma EndsBranches.ne_else {r : List Token} (h : EndsBranches r) :
    r.head?.map (·.kind) ≠ some .elseWord := by
  intro head
  obtain ⟨token, ht, hk⟩ := Option.map_eq_some_iff.1 head
  exact (h token ht).2 hk

/-- A token that binds no more tightly than a statement stops an expression at any level. -/
lemma stops_of_kind {level : Precedence} {kind : Token.Kind} {token : Token} {r : List Token}
    (h : token.kind = kind) (hk : kind.precedence.rank ≤ Precedence.statement.rank) :
    level.Stops (token :: r) := by
  unfold Precedence.Stops
  rw [nextRank_cons, h]
  exact Nat.le_trans hk (Nat.le_max_right _ _)

/-- A token that goes on with no expression stops one at any level. -/
lemma stops_of_mayPrecede {level : Precedence} {r : List Token}
    (h : ∀ token ∈ r.head?, (!token.kind.continuesExpression) = true) : level.Stops r := by
  cases r with
  | nil => exact Nat.zero_le _
  | cons token r =>
    have h := h token rfl
    simp only [Token.Kind.continuesExpression, Bool.not_eq_true', decide_eq_false_iff_not] at h
    exact stops_of_kind rfl (Nat.not_lt.1 h)

/-- A rule reads the tokens as the phrase, inside a number of loops, whatever follows that does not
go on with them. -/
def Phrase.Read (d : Nat) (ts : List Token) : Phrase → Prop
  | operand rank e => ∀ (level : Precedence) (r : List Token), level.rank < Precedence.call.rank →
    (rank ≤ e.rank → level.operandRank ≤ e.rank ∧ nextRank r ≤ e.reach) →
    Rule.parse (.expression level) ⟨ts ++ r, d⟩ = Rule.parse (.continuation level e) ⟨r, d⟩
  | expression e => ∀ (level : Precedence) (r : List Token), level.rank < Precedence.call.rank →
    level.operandRank ≤ e.rank → nextRank r ≤ e.reach →
    Rule.parse (.expression level) ⟨ts ++ r, d⟩ = Rule.parse (.continuation level e) ⟨r, d⟩
  | elements es => ∀ kind r, kind = .rightParen ∨ kind = .rightBracket →
    r.head?.map (·.kind) = some kind →
    Rule.parse (.items (some kind)) ⟨ts ++ r, d⟩ = .ok es ⟨r, d⟩
  | statement s => ∀ r, (∀ token ∈ r.head?, s.form.mayPrecede token.kind) → EndsBranches r →
    Rule.parse .statement ⟨ts ++ r, d⟩ = .ok s ⟨r, d⟩
  | conditional word s => word = .ifWord ∨ word = .elifWord → ∀ r, EndsBranches r →
    Rule.parse .conditional ⟨ts ++ r, d⟩ = .ok s ⟨r, d⟩
  | alternative b =>
    b = none ∧ ts = [] ∨
    (∃ s, b = some [s] ∧ ts.head?.map (·.kind) = some .elifWord ∧
      ∀ r, EndsBranches r → Rule.parse .conditional ⟨ts ++ r, d⟩ = .ok s ⟨r, d⟩) ∨
    ∃ word us body, b = some body ∧ ts = word :: us ∧ word.kind = .elseWord ∧
      ∀ r, Rule.parse .block ⟨us ++ r, d⟩ = .ok body ⟨r, d⟩
  | block b => ∀ r, Rule.parse .block ⟨ts ++ r, d⟩ = .ok b ⟨r, d⟩
  | statements b => ∀ r, r.head?.map (·.kind) = some .rightBrace →
    Rule.parse .statements ⟨ts ++ r, d⟩ = .ok b ⟨r, d⟩

namespace Phrase.Read
variable {rank d : Nat} {e : Expression} {ts r : List Token}

/-- An expression is read at any level that it and what follows it fit. -/
lemma done (h : (operand rank e).Read d ts) (bound : e.IsBound) {level : Precedence}
    (lt : level.rank < Precedence.call.rank) (fits : rank ≤ e.rank → level.operandRank ≤ e.rank)
    (stops : level.Stops r) :
    Rule.parse (.expression level) ⟨ts ++ r, d⟩ = .ok e ⟨r, d⟩ := by
  rw [← continuation_of_stops stops]
  exact h level r lt fun le => ⟨fits le, bound.next_le (fits le) lt stops⟩

/-- An expression is read as a whole before what stops it. -/
lemma whole (h : (operand 0 e).Read d ts) (bound : e.IsBound)
    (stops : Precedence.lowest.Stops r) :
    Rule.parse (.expression .lowest) ⟨ts ++ r, d⟩ = .ok e ⟨r, d⟩ :=
  h.done bound (Nat.zero_lt_succ _) (fun _ => Nat.le_of_lt bound.1) stops

/-- An expression is read as a condition before what stops it. -/
lemma condition (h : (operand 0 e).Read d ts) (bound : e.IsBound)
    (stops : Precedence.statement.Stops r) :
    Rule.parse (.expression .statement) ⟨ts ++ r, d⟩ = .ok e ⟨r, d⟩ :=
  h.done bound (Nat.le_of_ble_eq_true rfl) (fun _ => bound.1) stops

end Phrase.Read

/-- The rule of names reads what is derived as names. -/
lemma DerivesNames.read {names ts} (h : DerivesNames names ts) {d : Nat} {r : List Token}
    (head : r.head?.map (·.kind) = some .rightParen) :
    Rule.parse .parameterNames ⟨ts ++ r, d⟩ = .ok names ⟨r, d⟩ := by
  have stop : Rule.parse .parameterNames ⟨r, d⟩ = .ok [] ⟨r, d⟩ := by
    rw [parse_eq_step]
    change readParameterNames Rule.parse ⟨r, d⟩ = _
    unfold readParameterNames
    rw [peekKind_bind, if_pos head]
    rfl
  have step {name : Token} {us : List Token} (hname : name.kind = .name) :
      Rule.parse .parameterNames ⟨name :: us, d⟩ =
        (do separator (some .rightParen)
            return name.text :: (← Rule.parse .parameterNames) : Parser _) ⟨us, d⟩ := by
    rw [parse_eq_step]
    change readParameterNames Rule.parse ⟨name :: us, d⟩ = _
    unfold readParameterNames
    rw [peekKind_bind, List.head?_cons, Option.map_some, hname, if_neg (by simp),
      bind_of_ok (expect_of_eq hname)]
  induction h with
  | nil => exact stop
  | last hname =>
    rw [List.singleton_append, step hname, bind_of_ok (separator_of_eq (by simp) head),
      bind_of_ok stop]
    rfl
  | cons hname hcomma _ ih =>
    rw [List.cons_append, step hname, List.cons_append,
      bind_of_ok (separator_of_comma hcomma), bind_of_ok ih]
    rfl

/-- The rule of parameters reads what is derived as parameters. -/
lemma DerivesParameters.read {names ts} (h : DerivesParameters names ts) {d : Nat}
    {r : List Token} : Rule.parse .parameters ⟨ts ++ r, d⟩ = .ok names ⟨r, d⟩ := by
  cases h with
  | @intro opening closing _ _ hopening h hclosing =>
    have head : (closing :: r).head?.map (·.kind) = some .rightParen := congrArg some hclosing
    rw [parse_eq_step]
    change readParameters Rule.parse _ = _
    unfold readParameters
    rw [List.cons_append, discard_bind, bind_of_ok (expect_of_eq hopening), List.append_assoc,
      List.singleton_append, bind_of_ok (h.read head), discard_bind,
      bind_of_ok (expect_of_eq hclosing)]
    rfl

/-- The body of a function is a block outside of all loops. -/
lemma functionBody_of_block {body : Block} {ts r : List Token} {d : Nat}
    (h : Rule.parse .block ⟨ts, 0⟩ = .ok body ⟨r, 0⟩) :
    Rule.parse .functionBody ⟨ts, d⟩ = .ok body ⟨r, d⟩ := by
  rw [parse_eq_step]
  change outsideLoops (Rule.parse .block) ⟨ts, d⟩ = _
  simp only [outsideLoops, h]

/-- The body of a loop is a block inside of one more loop. -/
lemma inLoop_of_block {body : Block} {ts r : List Token} {d : Nat}
    (h : Rule.parse .block ⟨ts, d + 1⟩ = .ok body ⟨r, d + 1⟩) :
    inLoop (Rule.parse .block) ⟨ts, d⟩ = .ok body ⟨r, d⟩ := by
  simp only [inLoop, h, Nat.add_sub_cancel]

section
variable {e : Expression} {kind : Token.Kind} {ts r : List Token} {d : Nat}

/-- Before what closes them there are no more items. -/
lemma items_nil (head : r.head?.map (·.kind) = some kind) :
    Rule.parse (.items (some kind)) ⟨r, d⟩ = .ok [] ⟨r, d⟩ := by
  rw [parse_eq_step]
  change readItems Rule.parse (some kind) ⟨r, d⟩ = _
  unfold readItems
  rw [peekKind_bind, if_pos head]
  rfl

/-- An item is followed by a separator and the other items. -/
lemma items_cons (hk : kind = .rightParen ∨ kind = .rightBracket) (starts : StartsExpression ts)
    (he : Rule.parse (.expression .lowest) ⟨ts, d⟩ = .ok e ⟨r, d⟩) :
    Rule.parse (.items (some kind)) ⟨ts, d⟩ =
      (do separator (some kind)
          return e :: (← Rule.parse (.items (some kind))) : Parser _) ⟨r, d⟩ := by
  have more : ts.head?.map (·.kind) ≠ some kind := by
    obtain ⟨first, rest, rfl, hf, _⟩ := starts
    intro h
    have h : first.kind = kind := Option.some.inj h
    rw [h] at hf
    obtain rfl | rfl := hk <;> cases hf
  rw [parse_eq_step]
  change readItems Rule.parse (some kind) ⟨ts, d⟩ = _
  unfold readItems
  rw [peekKind_bind, if_neg more, bind_of_ok he]

/-- Before a closing brace there are no more statements. -/
lemma statements_nil (head : r.head?.map (·.kind) = some .rightBrace) :
    Rule.parse .statements ⟨r, d⟩ = .ok [] ⟨r, d⟩ := by
  rw [parse_eq_step]
  change readStatements Rule.parse ⟨r, d⟩ = _
  unfold readStatements
  rw [peekKind_bind, if_pos head]
  rfl

/-- A statement is followed by the other statements. -/
lemma statements_cons {s : Statement} {b : Block} {us : List Token}
    (starts : ∀ token ∈ ts.head?, token.kind.startsStatement = true)
    (hs : Rule.parse .statement ⟨ts, d⟩ = .ok s ⟨us, d⟩)
    (hb : Rule.parse .statements ⟨us, d⟩ = .ok b ⟨r, d⟩) :
    Rule.parse .statements ⟨ts, d⟩ = .ok (s :: b) ⟨r, d⟩ := by
  have more : ts.head?.map (·.kind) ≠ some .rightBrace := by
    intro h
    obtain ⟨first, ht, hk⟩ := Option.map_eq_some_iff.1 h
    have h := starts first ht
    rw [hk] at h
    cases h
  rw [parse_eq_step]
  change readStatements Rule.parse ⟨ts, d⟩ = _
  unfold readStatements
  rw [peekKind_bind, if_neg more, bind_of_ok hs, bind_of_ok hb]
  rfl

/-- A block is its statements between braces. -/
lemma block_of_statements {b : Block} {opening closing : Token}
    (hopening : opening.kind = .leftBrace)
    (hb : Rule.parse .statements ⟨ts, d⟩ = .ok b ⟨closing :: r, d⟩)
    (hclosing : closing.kind = .rightBrace) :
    Rule.parse .block ⟨opening :: ts, d⟩ = .ok b ⟨r, d⟩ := by
  rw [parse_eq_step]
  change readBlock Rule.parse ⟨opening :: ts, d⟩ = _
  unfold readBlock
  rw [discard_bind, bind_of_ok (expect_of_eq hopening), bind_of_ok hb, discard_bind,
    bind_of_ok (expect_of_eq hclosing)]
  rfl

/-- A closing brace and the start of a statement end what is before them. -/
lemma endsBranches_of_startsStatement
    (h : ∀ token ∈ r.head?, token.kind = .rightBrace ∨ token.kind.startsStatement = true) :
    EndsBranches r := by
  intro token ht
  obtain hk | hk := h token ht
  · simp [hk]
  · constructor <;> intro e <;> rw [e] at hk <;> cases hk

end

/-- A closing brace may stand behind every form. -/
lemma Form.mayPrecede_rightBrace (form : Form) : form.mayPrecede .rightBrace = true := by
  cases form with
  | returns value => cases value <;> rfl
  | _ => rfl

/-- A block starts with an opening brace. -/
lemma Derives.block_starts {l b ts} (h : Derives l (.block b) ts) :
    ∃ opening us, ts = opening :: us ∧ opening.kind = .leftBrace := by
  cases h with
  | block hopening => exact ⟨_, _, rfl, hopening⟩

/-- Whatever binds as tightly as a call may stand before everything. -/
lemma Expression.follow_of_call {e : Expression} (h : Precedence.call.rank ≤ e.rank)
    (level : Precedence) (r : List Token) : level.operandRank ≤ e.rank ∧ nextRank r ≤ e.reach := by
  refine ⟨Nat.le_trans level.operandRank_le (Nat.le_trans (Nat.le_succ _) h), ?_⟩
  rw [Expression.reach_of_lt (Nat.lt_of_lt_of_le (by decide) h)]
  exact Nat.le_trans (nextRank_le r) h

/-- The rule of a phrase reads what is derived as the phrase. -/
theorem Derives.read {l ph ts} (h : Derives l ph ts) {d : Nat} (hd : l = true → d ≠ 0) :
    ph.Read d ts := by
  -- Every case hands over to the loop over expressions where its own tokens end. What follows is
  -- left open, since the loop may take an operand further than the derivation of the operand does.
  induction h generalizing d with
  | bare fits _ ih =>
    intro level r lt follow
    exact ih hd level r lt (follow fits).1 (follow fits).2
  | grouped hopening h hclosing ih =>
    intro level r lt _
    apply expression_of_leaf
    rw [List.cons_append, List.append_assoc]
    refine leaf_grouped hopening ?_ hclosing
    exact (ih hd).whole h.isBound (stops_of_kind hclosing (by decide))
  | number h | string h | trueWord h | falseWord h | identifier h =>
    intro level r _ _ _
    apply expression_of_leaf
    rw [List.singleton_append, leaf_eq_readLeaf]
    unfold readLeaf
    rw [peek_bind, List.head?_cons]
    dsimp only
    rw [h]
    rfl
  | function hfirst hp _ ih =>
    intro level r _ _ _
    apply expression_of_leaf
    rw [List.cons_append, List.append_assoc]
    exact leaf_function hfirst hp.read (functionBody_of_block (ih (by simp) r))
  | list hopening _ hclosing ih =>
    intro level r _ _ _
    apply expression_of_leaf
    rw [List.cons_append, List.append_assoc]
    refine leaf_list hopening (sequence_of_items ?_ hclosing)
    exact ih hd _ _ (.inr rfl) (congrArg some hclosing)
  | unary hsign h ih =>
    intro level r _ _ follow
    apply expression_of_leaf
    refine leaf_unary hsign ((ih hd).done h.isBound (by decide) (fun le => le) ?_)
    exact Nat.le_trans follow (Nat.le_max_left _ _)
  | @binary l operator left right ts us sign hop _ hr ihl ihr =>
    intro level r lt fits follow
    obtain ⟨gt, lt_unary⟩ := Token.Kind.rank_of_binaryOperator? hop
    have rank_eq : (Expression.binary left operator right).rank = sign.kind.precedence.rank := by
      rw [Token.Kind.eq_sign hop]
      rfl
    -- The loop takes the sign because its rank fits the level, and the right operand ends before
    -- `r` because nothing there binds more tightly than the sign.
    have lt_sign : level.rank < sign.kind.precedence.rank := by
      rw [rank_eq] at fits
      unfold Precedence.operandRank at fits
      omega
    have stops : sign.kind.precedence.Stops r := by
      rw [Expression.reach_of_lt (rank_eq ▸ gt), rank_eq] at follow
      exact Nat.le_trans follow (Nat.le_max_left _ _)
    rw [List.append_assoc, List.cons_append, ihl hd level _ lt fun le => ?_]
    · refine continuation_binary hop lt_sign ((ihr hd).done hr.isBound ?_ ?_ stops)
      · exact Nat.lt_succ_of_lt lt_unary
      · exact Nat.le_trans (Nat.min_le_left _ _)
    · refine ⟨Nat.le_trans fits (rank_eq ▸ le), ?_⟩
      rw [Expression.reach_of_lt (Nat.lt_of_lt_of_le gt le)]
      exact le
  | @assign l name value ts us sign _ hsign hv ihl ihr =>
    intro level r lt fits follow
    have lt_sign : level.rank < sign.kind.precedence.rank := by
      change min (level.rank + 1) 8 ≤ 2 at fits
      rw [hsign]
      change level.rank < 2
      omega
    rw [List.append_assoc, List.cons_append,
      ihl hd level _ lt fun _ => Expression.follow_of_call (Nat.le_refl _) _ _]
    exact continuation_assign hsign lt_sign ((ihr hd).whole hv.isBound follow)
  | call _ hopening _ hclosing iht ihes =>
    intro level r lt _ _
    rw [List.append_assoc, List.cons_append, List.append_assoc,
      iht hd level _ lt fun le => Expression.follow_of_call le _ _]
    refine continuation_call hopening (by rw [hopening]; exact lt) (sequence_of_items ?_ hclosing)
    exact ihes hd _ _ (.inl rfl) (congrArg some hclosing)
  | member _ hdot hname iht =>
    intro level r lt _ _
    rw [List.append_assoc, iht hd level _ lt fun le => Expression.follow_of_call le _ _]
    exact continuation_member hdot (by rw [hdot]; exact lt) hname
  | index _ hopening hp hclosing iht ihp =>
    intro level r lt _ _
    rw [List.append_assoc, List.cons_append, List.append_assoc,
      iht hd level _ lt fun le => Expression.follow_of_call le _ _]
    refine continuation_index hopening (by rw [hopening]; exact lt) ?_ hclosing
    exact (ihp hd).whole hp.isBound (stops_of_kind hclosing (by decide))
  | noElements => exact fun kind r _ head => items_nil head
  | lastElement h ih =>
    intro kind r hk head
    have stops : Precedence.lowest.Stops r := by
      obtain ⟨token, ht, e⟩ := Option.map_eq_some_iff.1 head
      obtain ⟨r, rfl⟩ := List.head?_eq_some_iff.1 ht
      exact stops_of_kind e (by obtain rfl | rfl := hk <;> decide)
    have hc : kind ≠ .comma := by obtain rfl | rfl := hk <;> decide
    rw [items_cons hk (h.starts.append r) ((ih hd).whole h.isBound stops),
      bind_of_ok (separator_of_eq hc head), bind_of_ok (items_nil head)]
    rfl
  | moreElements h hcomma _ ih ihes =>
    intro kind r hk head
    have first {us : List Token} := (ih hd).whole (r := us) h.isBound
    rw [List.append_assoc, List.cons_append,
      items_cons hk (h.starts.append _) (first (stops_of_kind hcomma (by decide))),
      bind_of_ok (separator_of_comma hcomma), bind_of_ok (ihes hd kind r hk head)]
    rfl
  | declare hfirst hname hsign h ih =>
    intro r follow _
    have value := (ih hd).whole h.isBound (stops_of_mayPrecede follow)
    rw [List.cons_append, statement_of_rule (by rw [hfirst]; rfl), parse_eq_step]
    change readDeclaration Rule.parse _ = _
    unfold readDeclaration
    rw [bind_of_ok (expect_of_eq hfirst), List.cons_append, bind_of_ok (expect_of_eq hname),
      List.cons_append, discard_bind, bind_of_ok (expect_of_eq hsign), bind_of_ok value]
    rfl
  | define hfirst hname hp _ ih =>
    intro r _ _
    rw [List.cons_append, List.cons_append, statement_define hfirst hname, parse_eq_step]
    change readDefinition Rule.parse _ = _
    unfold readDefinition
    rw [bind_of_ok (expect_of_eq hfirst), bind_of_ok (expect_of_eq hname), List.append_assoc,
      bind_of_ok hp.read, bind_of_ok (functionBody_of_block (ih (by simp) r))]
    rfl
  | branch h ih =>
    intro r _ follow
    obtain ⟨first, ht, hk⟩ := Option.map_eq_some_iff.1 h.starts
    obtain ⟨ts, rfl⟩ := List.head?_eq_some_iff.1 ht
    rw [List.cons_append, statement_of_rule (by rw [hk]; rfl)]
    exact ih hd (.inl rfl) r follow
  | conditional hfirst hc hb _ ihc ihb iha =>
    intro hw r follow
    have condition {r : List Token} := (ihc hd).condition (r := r) hc.isBound
    obtain ⟨opening, us, rfl, hopening⟩ := hb.block_starts
    rw [parse_eq_step]
    change readConditional Rule.parse _ = _
    unfold readConditional
    simp only [List.cons_append, List.append_assoc]
    rw [peek_bind, List.head?_cons]
    dsimp only
    rw [if_neg (by rw [hfirst]; rintro ⟨h₁, h₂⟩; exact hw.elim h₁ h₂), advance_bind,
      bind_of_ok (condition (stops_of_kind hopening (by decide))), ← List.cons_append,
      bind_of_ok (ihb hd _), peekKind_bind]
    -- The token behind the block tells which of the three alternatives there is.
    obtain ⟨rfl, rfl⟩ | ⟨s, rfl, head, hs⟩ | ⟨word, ws, body, rfl, rfl, hword, hbody⟩ := iha hd
    · rw [List.nil_append, if_neg follow.ne_elif, if_neg follow.ne_else]
      rfl
    · obtain ⟨token, ht, hk⟩ := Option.map_eq_some_iff.1 head
      obtain ⟨vs, rfl⟩ := List.head?_eq_some_iff.1 ht
      rw [List.cons_append, List.head?_cons, Option.map_some, hk, if_pos rfl, ← List.cons_append,
        bind_of_ok (hs r follow)]
      rfl
    · rw [List.cons_append, List.head?_cons, Option.map_some, hword, if_neg (by simp), if_pos rfl,
        advance_bind, bind_of_ok (hbody r)]
      rfl
  | noAlternative => exact .inl ⟨rfl, rfl⟩
  | chained h ih => exact .inr (.inl ⟨_, rfl, h.starts, ih hd (.inr rfl)⟩)
  | otherwise hword _ ih => exact .inr (.inr ⟨_, _, _, rfl, rfl, hword, ih hd⟩)
  | loop hfirst hb ih =>
    intro r _ _
    obtain ⟨opening, us, rfl, hopening⟩ := hb.block_starts
    rw [List.cons_append, statement_of_rule (by rw [hfirst]; rfl), parse_eq_step]
    change readLoop Rule.parse _ = _
    unfold readLoop
    rw [bind_of_ok (expect_of_eq hfirst), peekKind_bind, List.cons_append, List.head?_cons,
      Option.map_some, hopening, if_neg (by simp), ← List.cons_append,
      bind_of_ok (inLoop_of_block (ih (fun _ => Nat.succ_ne_zero d) r))]
    rfl
  | loopOver hfirst hopening hword hname hcolon h hclosing _ ih ihb =>
    intro r _ _
    have iterable {us : List Token} := (ih hd).whole (r := us) h.isBound
    rw [List.cons_append, statement_of_rule (by rw [hfirst]; rfl), parse_eq_step]
    change readLoop Rule.parse _ = _
    unfold readLoop
    simp only [List.cons_append, List.append_assoc]
    rw [bind_of_ok (expect_of_eq hfirst), peekKind_bind, List.head?_cons, Option.map_some,
      hopening, if_pos rfl, advance_bind, discard_bind, bind_of_ok (expect_of_eq hword),
      bind_of_ok (expect_of_eq hname), discard_bind, bind_of_ok (expect_of_eq hcolon),
      bind_of_ok (iterable (stops_of_kind hclosing (by decide))), discard_bind,
      bind_of_ok (expect_of_eq hclosing),
      bind_of_ok (inLoop_of_block (ihb (fun _ => Nat.succ_ne_zero d) r))]
    rfl
  | returns hfirst h ih =>
    intro r follow _
    have value := (ih hd).whole h.isBound (stops_of_mayPrecede follow)
    obtain ⟨token, ts, rfl, ht, _⟩ := h.starts
    rw [List.cons_append, statement_of_rule (by rw [hfirst]; rfl), parse_eq_step]
    change readReturning Rule.parse _ = _
    unfold readReturning
    rw [bind_of_ok (expect_of_eq hfirst), peekKind_bind, List.cons_append, List.head?_cons,
      Option.map_some, Option.map_some, Option.getD_some, if_pos ht, ← List.cons_append,
      bind_of_ok value]
    rfl
  | returnsNothing hfirst =>
    intro r follow _
    have bare : ((r.head?.map (·.kind)).map (·.startsExpression)).getD false = false := by
      cases r with
      | nil => rfl
      | cons token r =>
        have h : (!token.kind.startsExpression) = true := follow token rfl
        simpa using h
    rw [List.singleton_append, statement_of_rule (by rw [hfirst]; rfl), parse_eq_step]
    change readReturning Rule.parse _ = _
    unfold readReturning
    rw [bind_of_ok (expect_of_eq hfirst), peekKind_bind, bare]
    rfl
  | breakLoop hfirst => exact fun r _ _ => statement_jump hfirst rfl rfl (hd rfl)
  | continueLoop hfirst => exact fun r _ _ => statement_jump hfirst rfl rfl (hd rfl)
  | evaluate h ih =>
    intro r follow _
    have value := (ih hd).whole h.isBound (stops_of_mayPrecede follow)
    rw [List.cons_append] at value ⊢
    exact statement_evaluate (h.starts.append r) value
  | block hopening _ hclosing ih =>
    intro r
    rw [List.cons_append, List.append_assoc]
    exact block_of_statements hopening (ih hd _ (congrArg some hclosing)) hclosing
  | noStatements => exact fun r head => statements_nil head
  | @moreStatements l s b ts us hs may hb ihs ihb =>
    intro r head
    obtain ⟨closing, ht, hclosing⟩ := Option.map_eq_some_iff.1 head
    obtain ⟨r, rfl⟩ := List.head?_eq_some_iff.1 ht
    -- Behind the first statement comes the next one, or the brace that closes the block.
    have next : ∀ token ∈ (us ++ closing :: r).head?,
        token.kind = .rightBrace ∨ token ∈ us.head? := by
      cases us with
      | nil =>
        rintro _ ⟨rfl⟩
        exact .inl hclosing
      | cons first us => exact fun token h => .inr h
    have ends : EndsBranches (us ++ closing :: r) :=
      endsBranches_of_startsStatement fun token h => (next token h).imp_right (hb.starts token)
    have follow : ∀ token ∈ (us ++ closing :: r).head?, s.form.mayPrecede token.kind = true := by
      intro token h
      obtain h | h := next token h
      · rw [h]
        exact s.form.mayPrecede_rightBrace
      · exact may token h
    rw [List.append_assoc]
    refine statements_cons ?_ (ihs hd _ follow ends) (ihb hd _ head)
    obtain ⟨first, ts, rfl⟩ := List.exists_cons_of_ne_nil (hs.ne_nil rfl)
    exact hs.starts

end ScriptLang
