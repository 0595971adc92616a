import ScriptLang.Proofs.Grammar.Outcome

/-!
# What the rules read

`Faithful` says of readers for all rules that what they read is what the grammar derives, and that
what they read before a failure can be completed to something the grammar derives. One step of the
rules keeps this, so it holds with every bound (`Faithful.parseWith`).

The heart is the loop that reads expressions. What it has read so far, `left`, is an operand of the
rank that the next token asks for, because every part that it was put together from stopped before
that token; so whatever the loop appends next, `left` may stand in it as it is.
-/

namespace ScriptLang
open ScriptLang.Parser ScriptLang.Rule
open Token (kind_sample)

/-- Whether a number of loops is around. -/
def insideLoop : Nat → Bool
  | 0 => false
  | _ + 1 => true

/-- Tokens that begin something the grammar derives. -/
def Opens {α : Type} (l : Bool) (ph : α → Phrase) (ts : List Token) : Prop :=
  ∃ us a, Derives l (ph a) (ts ++ us)

/-- The first tokens of a phrase open such a phrase. -/
lemma Opens.intro {α : Type} {l : Bool} {ph : α → Phrase} {a : α} {ts ws : List Token}
    (us : List Token) (h : Derives l (ph a) ws) (e : ts ++ us = ws) : Opens l ph ts :=
  ⟨us, a, e ▸ h⟩

/-- Elements with the token behind them that closes their list. -/
def DerivesSequence (l : Bool) (kind : Token.Kind) (es : List Expression) (ts : List Token) :
    Prop :=
  ∃ us closing, ts = us ++ [closing] ∧ closing.kind = kind ∧ Derives l (.elements es) us

/-- A statement is read as the grammar says, up to a token that it may stand before. -/
def StatementOutcome (p : Parser Statement) (c : Cursor) : Prop :=
  Outcome p c
    (fun s ts rest => Derives (insideLoop c.loopDepth) (.statement s) ts ∧
      ∀ token ∈ rest.head?, s.form.mayPrecede token.kind)
    (fun ts _ => ts = [] ∨ Opens (insideLoop c.loopDepth) .statement ts)

/-- What is read is what the grammar derives, and what is read before a failure can be completed. -/
structure Faithful (read : Readers) : Prop where
  statement {c} : StatementOutcome (read .statement) c
  declaration {c} : StatementOutcome (read .declaration) c
  definition {rest d} : Outcome (read .definition) ⟨rest, d⟩
    (fun s ts r => Derives (insideLoop d) (.statement s) ts ∧
      ∀ token ∈ r.head?, s.form.mayPrecede token.kind)
    (fun ts _ => (ts = [] ∧ ∀ token ∈ rest.head?, token.kind ≠ .fnWord) ∨
      ts ≠ [] ∧ Opens (insideLoop d) .statement ts)
  conditional {rest d word} : word = .ifWord ∨ word = .elifWord →
    rest.head?.map (·.kind) = some word → Outcome (read .conditional) ⟨rest, d⟩
      (fun s ts _ => Derives (insideLoop d) (.conditional word s) ts)
      (fun ts _ => Opens (insideLoop d) (.conditional word) ts)
  loop {c} : StatementOutcome (read .loop) c
  returning {c} : StatementOutcome (read .returning) c
  jump {c token rest} : c.rest = token :: rest →
    token.kind = .breakWord ∨ token.kind = .continueWord → StatementOutcome (read .jump) c
  block {rest d} : Outcome (read .block) ⟨rest, d⟩
    (fun b ts _ => Derives (insideLoop d) (.block b) ts)
    (fun ts _ => Opens (insideLoop d) .block ts)
  statements {rest d} : Outcome (read .statements) ⟨rest, d⟩
    (fun b ts _ => Derives (insideLoop d) (.statements b) ts)
    (fun ts _ => Opens (insideLoop d) .statements ts)
  functionBody {rest d} : Outcome (read .functionBody) ⟨rest, d⟩
    (fun b ts _ => Derives false (.block b) ts) (fun ts _ => Opens false .block ts)
  parameters {rest d} : Outcome (read .parameters) ⟨rest, d⟩
    (fun names ts _ => DerivesParameters names ts)
    (fun ts _ => ∃ us names, DerivesParameters names (ts ++ us))
  parameterNames {rest d} : Outcome (read .parameterNames) ⟨rest, d⟩
    (fun names ts _ => DerivesNames names ts ∧
      (rest.head?.map (·.kind) = some .rightParen → ts = []))
    (fun ts _ => (∃ us names, DerivesNames names (ts ++ us)) ∧
      rest.head?.map (·.kind) ≠ some .rightParen)
  expression {level rest d} : Outcome (read (.expression level)) ⟨rest, d⟩
    (fun e ts r => Derives (insideLoop d) (.operand level.operandRank e) ts ∧ level.Stops r)
    (fun ts r => Opens (insideLoop d) (.operand level.operandRank) ts ∧
      (ts = [] → ∀ token ∈ r.head?, token.kind.startsExpression = false))
  continuation {level left rest d start} :
    Derives (insideLoop d) (.operand (max (nextRank rest) level.operandRank) left) start →
    Outcome (read (.continuation level left)) ⟨rest, d⟩
      (fun e ts r => Derives (insideLoop d) (.operand level.operandRank e) (start ++ ts) ∧
        level.Stops r)
      (fun ts _ => Opens (insideLoop d) (.operand level.operandRank) (start ++ ts))
  leaf {rest d} : Outcome (read .leaf) ⟨rest, d⟩
    (fun e ts r =>
      Derives (insideLoop d) (.operand (max (nextRank r) Precedence.unary.rank) e) ts)
    (fun ts r => Opens (insideLoop d) (.operand Precedence.unary.rank) ts ∧
      (ts = [] → ∀ token ∈ r.head?, token.kind.startsExpression = false))
  sequence {kind rest d} : Outcome (read (.sequence (some kind))) ⟨rest, d⟩
    (fun es ts _ => DerivesSequence (insideLoop d) kind es ts)
    (fun ts _ => ∃ us es, DerivesSequence (insideLoop d) kind es (ts ++ us))
  items {kind rest d} : Outcome (read (.items (some kind))) ⟨rest, d⟩
    (fun es ts _ => Derives (insideLoop d) (.elements es) ts ∧
      (rest.head?.map (·.kind) = some kind → ts = []))
    (fun ts _ => Opens (insideLoop d) .elements ts ∧ rest.head?.map (·.kind) ≠ some kind)

/-- After a conditional any token may stand. -/
lemma Derives.mayPrecede {l word s ts} (h : Derives l (.conditional word s) ts)
    {rest : List Token} :
    ∀ token ∈ rest.head?, s.form.mayPrecede token.kind := by
  cases h
  exact fun _ _ => rfl

namespace Faithful

/-- Where an expression was read outside all operators, the next token does not go on with it. -/
lemma ends_statement {rest : List Token} (h : Precedence.lowest.Stops rest) :
    ∀ token ∈ rest.head?, (!token.kind.continuesExpression) = true := by
  intro token ht
  obtain ⟨rest, rfl⟩ := List.head?_eq_some_iff.1 ht
  have le : token.kind.precedence.rank ≤ 1 := h
  simp only [Token.Kind.continuesExpression, Bool.not_eq_true', decide_eq_false_iff_not]
  exact Nat.not_lt.2 le

variable {read : Readers} (F : Faithful read)
include F

/-- What is read as a declaration is derived as one, and what is not opens one. -/
lemma readDeclaration {c : Cursor} : StatementOutcome (readDeclaration read) c := by
  obtain ⟨rest, d⟩ := c
  -- Whatever is missing at a failure, these tokens stand in for the value.
  have value : Derives (insideLoop d) (.operand 0 (.boolean true)) [.sample .trueWord] :=
    .sample_operand (Nat.zero_le _)
  refine .expect (fun first r₁ _ hfirst => ?_) fun _ => .inl rfl
  refine .expect (fun name r₂ _ hname => ?_)
    fun _ => .inr ⟨_, _, .declare hfirst (kind_sample _) (kind_sample _) value⟩
  refine .expect_discard (fun sign r₃ _ hsign => ?_)
    fun _ => .inr ⟨_, _, .declare hfirst hname (kind_sample _) value⟩
  refine .bind F.expression (fun e ts r _ h => ?_) fun ts r _ h => ?_
  · obtain ⟨h, stops⟩ := h
    refine .pure ⟨?_, ends_statement stops⟩
    rw [List.append_nil]
    exact .declare hfirst hname hsign (h.mono (Nat.zero_le _))
  · obtain ⟨⟨us, e, h⟩, _⟩ := h
    exact .inr ⟨us, _, .declare hfirst hname hsign (h.mono (Nat.zero_le _))⟩

/-- What is read as a statement is derived as one, and what is not opens one. -/
lemma readStatement {c : Cursor} : StatementOutcome (readStatement read) c := by
  obtain ⟨rest, d⟩ := c
  cases rest with
  | nil =>
    apply Outcome.peek
    exact .unexpected (.inl rfl)
  | cons token rest =>
    apply Outcome.peek
    apply Outcome.peekSecondKind
    dsimp only [List.head?_cons]
    split
    case h_1 => exact F.declaration
    case h_2 heq =>
      have head : (token :: rest).head?.map (·.kind) = some .ifWord := congrArg some heq
      refine (F.conditional (.inl rfl) head).mono ?_ ?_
      · intro s ts r _ h
        exact ⟨.branch h, h.mayPrecede⟩
      · rintro ts r _ ⟨us, s, h⟩
        exact .inr ⟨us, s, .branch h⟩
    case h_3 => exact F.loop
    case h_4 => exact F.returning
    case h_5 heq => exact F.jump rfl (.inl heq)
    case h_6 heq => exact F.jump rfl (.inr heq)
    -- No keyword starts it, so the second token tells a definition from an expression.
    case h_7 =>
      split
      · refine F.definition.mono (fun _ _ _ _ h => h) fun ts r _ h => ?_
        obtain ⟨h, _⟩ | ⟨_, h⟩ := h
        · exact .inl h
        · exact .inr h
      · refine .bind F.expression (fun e ts r split h => ?_) fun ts r split h => ?_
        · obtain ⟨h, stops⟩ := h
          refine .pure ⟨?_, ends_statement stops⟩
          rw [List.append_nil]
          have h := h.mono (Nat.zero_le _)
          obtain ⟨first, us, rfl⟩ := List.exists_cons_of_ne_nil (h.ne_nil rfl)
          cases split
          exact .evaluate h
        · obtain ⟨⟨us, e, h⟩, _⟩ := h
          cases ts with
          | nil => exact .inl rfl
          | cons first ts =>
            cases split
            exact .inr ⟨us, _, .evaluate (h.mono (Nat.zero_le _))⟩

/-- What is read as a definition is derived as one, and what is not opens one. -/
lemma readDefinition {rest : List Token} {d : Nat} : Outcome (readDefinition read) ⟨rest, d⟩
    (fun s ts r => Derives (insideLoop d) (.statement s) ts ∧
      ∀ token ∈ r.head?, s.form.mayPrecede token.kind)
    (fun ts _ => (ts = [] ∧ ∀ token ∈ rest.head?, token.kind ≠ .fnWord) ∨
      ts ≠ [] ∧ Opens (insideLoop d) .statement ts) := by
  refine .expect (fun first r₁ _ hfirst => ?_) fun h => .inl ⟨rfl, h⟩
  refine .expect (fun name r₂ _ hname => ?_) fun _ => .inr ⟨by simp, _, _,
    .define hfirst (kind_sample _) Derives.sample_parameters .sample_block⟩
  refine .bind F.parameters (fun parameters ts r _ hp => ?_) fun ts r _ h => ?_
  · refine .bind F.functionBody (fun body us r _ hb => ?_) fun us r _ h => ?_
    · refine .pure ⟨?_, fun _ _ => rfl⟩
      rw [List.append_nil]
      exact .define hfirst hname hp hb
    · obtain ⟨vs, body, hb⟩ := h
      exact .inr ⟨by simp, .intro vs (.define hfirst hname hp hb) (by simp)⟩
  · obtain ⟨us, parameters, hp⟩ := h
    exact .inr ⟨by simp, .intro (us ++ [.sample .leftBrace, .sample .rightBrace])
      (.define hfirst hname hp .sample_block) (by simp)⟩

/-- What is read as a conditional is derived as one, and what is not opens one. -/
lemma readConditional {rest : List Token} {d : Nat} {word : Token.Kind}
    (hw : word = .ifWord ∨ word = .elifWord) (head : rest.head?.map (·.kind) = some word) :
    Outcome (readConditional read) ⟨rest, d⟩
      (fun s ts _ => Derives (insideLoop d) (.conditional word s) ts)
      (fun ts _ => Opens (insideLoop d) (.conditional word) ts) := by
  obtain ⟨first, ht, hfirst⟩ := Option.map_eq_some_iff.1 head
  obtain ⟨rest, rfl⟩ := List.head?_eq_some_iff.1 ht
  -- A failure behind the block leaves a conditional that is complete without an alternative.
  have whole {condition consequent ts us} (hc : Derives (insideLoop d) (.operand 0 condition) ts)
      (hb : Derives (insideLoop d) (.block consequent) us) :
      Derives (insideLoop d)
        (.conditional word (statementAt first (.branch condition consequent none)))
        (first :: (ts ++ us)) := by
    have h := Derives.conditional hfirst hc hb .noAlternative
    rwa [List.append_nil] at h
  apply Outcome.peek
  dsimp only [List.head?_cons]
  rw [if_neg (by rw [hfirst]; rintro ⟨h₁, h₂⟩; exact hw.elim h₁ h₂)]
  apply Outcome.advance
  refine .bind F.expression (fun condition ts r _ h => ?_) fun ts r _ h => ?_
  · have hc := h.1.mono (Nat.zero_le _)
    refine .bind F.block (fun consequent us r _ hb => ?_) fun us r _ h => ?_
    · apply Outcome.peekKind
      split
      case isTrue head =>
        refine .bind (F.conditional (.inr rfl) head) (fun s vs r _ h => ?_) fun vs r _ h => ?_
        · apply Outcome.pure
          rw [List.append_nil]
          exact .conditional hfirst hc hb (.chained h)
        · obtain ⟨ws, s, h⟩ := h
          exact .intro ws (.conditional hfirst hc hb (.chained h)) (by simp)
      case isFalse =>
        split
        case isTrue head =>
          obtain ⟨token, ht, hk⟩ := Option.map_eq_some_iff.1 head
          obtain ⟨r, rfl⟩ := List.head?_eq_some_iff.1 ht
          apply Outcome.advance
          refine .bind F.block (fun b vs r _ h => ?_) fun vs r _ h => ?_
          · apply Outcome.pure
            rw [List.append_nil]
            exact .conditional hfirst hc hb (.otherwise hk h)
          · obtain ⟨ws, b, h⟩ := h
            exact .intro ws (.conditional hfirst hc hb (.otherwise hk h)) (by simp)
        case isFalse =>
          apply Outcome.pure
          rw [List.append_nil]
          exact whole hc hb
    · obtain ⟨vs, b, hb⟩ := h
      exact .intro vs (whole hc hb) (by simp)
  · obtain ⟨⟨us, condition, hc⟩, _⟩ := h
    exact .intro (us ++ [.sample .leftBrace, .sample .rightBrace])
      (whole (hc.mono (Nat.zero_le _)) .sample_block) (by simp)

/-- What is read as a loop is derived as one, and what is not opens one. -/
lemma readLoop {c : Cursor} : StatementOutcome (readLoop read) c := by
  obtain ⟨rest, d⟩ := c
  have value : Derives (insideLoop d) (.operand 0 (.boolean true)) [.sample .trueWord] :=
    .sample_operand (Nat.zero_le _)
  have body : Derives true (.block []) [.sample .leftBrace, .sample .rightBrace] := .sample_block
  refine .expect (fun first r₁ _ hfirst => ?_) fun _ => .inl rfl
  apply Outcome.peekKind
  split
  case isTrue head =>
    obtain ⟨opening, ht, hopening⟩ := Option.map_eq_some_iff.1 head
    obtain ⟨r₁, rfl⟩ := List.head?_eq_some_iff.1 ht
    apply Outcome.advance
    refine .expect_discard (fun word r₂ _ hword => ?_) fun _ => .inr ⟨_, _, .loopOver hfirst
      hopening (kind_sample _) (kind_sample _) (kind_sample _) value (kind_sample _) body⟩
    refine .expect (fun name r₃ _ hname => ?_) fun _ => .inr ⟨_, _, .loopOver hfirst
      hopening hword (kind_sample _) (kind_sample _) value (kind_sample _) body⟩
    refine .expect_discard (fun colon r₄ _ hcolon => ?_) fun _ => .inr ⟨_, _, .loopOver hfirst
      hopening hword hname (kind_sample _) value (kind_sample _) body⟩
    refine .bind F.expression (fun iterable ts r₅ _ h => ?_) fun ts r₅ _ h => ?_
    · have hi := h.1.mono (Nat.zero_le _)
      refine .expect_discard (fun closing r₆ _ hclosing => ?_) fun _ => ?_
      · refine .bind (.inLoop F.block) (fun b us r _ hb => ?_) fun us r _ h => ?_
        · refine .pure ⟨?_, fun _ _ => rfl⟩
          rw [List.append_nil]
          exact .loopOver hfirst hopening hword hname hcolon hi hclosing hb
        · obtain ⟨vs, b, hb⟩ := h
          exact .inr (.intro vs
            (.loopOver hfirst hopening hword hname hcolon hi hclosing hb) (by simp))
      · exact .inr (.intro [.sample .rightParen, .sample .leftBrace, .sample .rightBrace]
          (.loopOver hfirst hopening hword hname hcolon hi (kind_sample _) body) (by simp))
    · obtain ⟨⟨us, iterable, h⟩, _⟩ := h
      have hi := h.mono (Nat.zero_le _)
      exact .inr (.intro (us ++ [.sample .rightParen, .sample .leftBrace, .sample .rightBrace])
        (.loopOver hfirst hopening hword hname hcolon hi (kind_sample _) body) (by simp))
  case isFalse =>
    refine .bind (.inLoop F.block) (fun b us r _ hb => ?_) fun us r _ h => ?_
    · refine .pure ⟨?_, fun _ _ => rfl⟩
      rw [List.append_nil]
      exact .loop hfirst hb
    · obtain ⟨vs, b, hb⟩ := h
      exact .inr (.intro vs (.loop hfirst hb) rfl)

/-- What is read as a return is derived as one, and what is not opens one. -/
lemma readReturning {c : Cursor} : StatementOutcome (readReturning read) c := by
  obtain ⟨rest, d⟩ := c
  refine .expect (fun first r₁ _ hfirst => ?_) fun _ => .inl rfl
  apply Outcome.peekKind
  split
  case isTrue head =>
    refine .bind F.expression (fun value ts r _ h => ?_) fun ts r _ h => ?_
    · obtain ⟨h, stops⟩ := h
      refine .pure ⟨?_, ends_statement stops⟩
      rw [List.append_nil]
      exact .returns hfirst (h.mono (Nat.zero_le _))
    · obtain ⟨⟨us, value, h⟩, _⟩ := h
      exact .inr ⟨us, _, .returns hfirst (h.mono (Nat.zero_le _))⟩
  case isFalse head =>
    refine .pure ⟨.returnsNothing hfirst, ?_⟩
    intro token ht
    rw [Option.mem_def.1 ht] at head
    change (!token.kind.startsExpression) = true
    simpa using head

omit F in
/-- What is read as a jump is derived as one, inside of loops only. -/
lemma readJump {c : Cursor} {token : Token} {rest : List Token} (e : c.rest = token :: rest)
    (h : token.kind = .breakWord ∨ token.kind = .continueWord) :
    StatementOutcome readJump c := by
  obtain ⟨r, d⟩ := c
  cases e
  cases d with
  | zero =>
    have e : Rule.readJump ⟨token :: rest, 0⟩ =
        .error ⟨.jumpOutsideLoop, token :: rest⟩ ⟨token :: rest, 0⟩ := rfl
    have reached : Malformation.jumpOutsideLoop ≠ .unreachable := Malformation.noConfusion
    exact (Outcome.of_error e).2
      (.inr ⟨Failure.plausible_of_token reached token rest, [], rfl, .inl rfl⟩)
  | succ d =>
    obtain h | h := h
    · have jump : token.kind.jump? = some .breakLoop := by
        rw [h]
        rfl
      have e := readJump_of_some jump rest d
      exact (Outcome.of_ok e).2 ⟨rfl, [token], rfl, .breakLoop h, fun _ _ => rfl⟩
    · have jump : token.kind.jump? = some .continueLoop := by
        rw [h]
        rfl
      have e := readJump_of_some jump rest d
      exact (Outcome.of_ok e).2 ⟨rfl, [token], rfl, .continueLoop h, fun _ _ => rfl⟩

/-- What is read as a block is derived as one, and what is not opens one. -/
lemma readBlock {rest : List Token} {d : Nat} : Outcome (readBlock read) ⟨rest, d⟩
    (fun b ts _ => Derives (insideLoop d) (.block b) ts)
    (fun ts _ => Opens (insideLoop d) .block ts) := by
  refine .expect_discard (fun opening r₁ _ hopening => ?_) fun _ => ⟨_, _, .sample_block⟩
  refine .bind F.statements (fun b ts r₂ _ h => ?_) fun ts r₂ _ h => ?_
  · refine .expect_discard (fun closing r₃ _ hclosing => ?_) fun _ => ?_
    · exact .pure (.block hopening h hclosing)
    · exact .intro [.sample .rightBrace] (.block hopening h (kind_sample _)) (by simp)
  · obtain ⟨us, b, h⟩ := h
    exact .intro (us ++ [.sample .rightBrace]) (.block hopening h (kind_sample _)) (by simp)

/-- What is read as statements is derived as such, and what is not opens some. -/
lemma readStatements {rest : List Token} {d : Nat} : Outcome (readStatements read) ⟨rest, d⟩
    (fun b ts _ => Derives (insideLoop d) (.statements b) ts)
    (fun ts _ => Opens (insideLoop d) .statements ts) := by
  apply Outcome.peekKind
  split
  · exact .pure .noStatements
  refine .bind F.statement (fun first ts r₁ _ h => ?_) fun ts r₁ _ h => ?_
  · obtain ⟨hs, next⟩ := h
    refine .bind F.statements (fun b us r₂ split hb => ?_) fun us r₂ split h => ?_
    · apply Outcome.pure
      rw [List.append_nil]
      refine .moreStatements hs (fun token ht => next token ?_) hb
      rw [split, List.head?_append, Option.mem_def.1 ht]
      rfl
    · -- A statement that has no token yet is left out of the completion.
      cases us with
      | nil => exact .intro [] (.moreStatements hs (by simp) .noStatements) (by simp)
      | cons token us =>
        obtain ⟨vs, b, hb⟩ := h
        refine .intro vs (.moreStatements hs ?_ hb) (by simp)
        rintro _ ⟨rfl⟩
        exact next token (by rw [split]; rfl)
  · obtain rfl | ⟨us, s, hs⟩ := h
    · exact ⟨[], [], .noStatements⟩
    · exact .intro us (.moreStatements hs (by simp) .noStatements) (by simp)

/-- What is read as parameters is derived as such, and what is not opens some. -/
lemma readParameters {rest : List Token} {d : Nat} : Outcome (readParameters read) ⟨rest, d⟩
    (fun names ts _ => DerivesParameters names ts)
    (fun ts _ => ∃ us names, DerivesParameters names (ts ++ us)) := by
  refine .expect_discard (fun opening r₁ _ hopening => ?_)
    fun _ => ⟨_, _, Derives.sample_parameters⟩
  refine .bind F.parameterNames (fun names ts r₂ _ h => ?_) fun ts r₂ _ h => ?_
  · refine .expect_discard (fun closing r₃ _ hclosing => ?_) fun _ => ?_
    · exact .pure (.intro hopening h.1 hclosing)
    · refine ⟨[.sample .rightParen], names, ?_⟩
      have h := DerivesParameters.intro hopening h.1 (kind_sample .rightParen)
      simpa using h
  · obtain ⟨⟨us, names, h⟩, _⟩ := h
    refine ⟨us ++ [.sample .rightParen], names, ?_⟩
    have h := DerivesParameters.intro hopening h (kind_sample .rightParen)
    simpa using h

/-- What is read as names is derived as such, and what is not opens some. -/
lemma readParameterNames {rest : List Token} {d : Nat} :
    Outcome (readParameterNames read) ⟨rest, d⟩
      (fun names ts _ => DerivesNames names ts ∧
        (rest.head?.map (·.kind) = some .rightParen → ts = []))
      (fun ts _ => (∃ us names, DerivesNames names (ts ++ us)) ∧
        rest.head?.map (·.kind) ≠ some .rightParen) := by
  apply Outcome.peekKind
  split
  case isTrue => exact .pure ⟨.nil, fun _ => rfl⟩
  case isFalse more =>
  refine .expect (fun name r₁ split hname => ?_) fun _ => ⟨⟨[], [], .nil⟩, more⟩
  refine .separator (fun comma r₂ _ hcomma => ?_) (fun head => ?_) ⟨⟨[], _, .last hname⟩, more⟩
  · refine .bind F.parameterNames (fun names ts r₃ _ h => ?_) fun ts r₃ _ h => ?_
    · refine .pure ⟨?_, fun h => absurd h more⟩
      rw [List.append_nil]
      exact .cons hname hcomma h.1
    · obtain ⟨⟨us, names, h⟩, _⟩ := h
      exact ⟨⟨us, _, .cons hname hcomma h⟩, more⟩
  · -- Without a comma the closing token is next, so no more names are read.
    refine .bind F.parameterNames (fun names ts r₃ _ h => ?_) fun ts r₃ _ h => ?_
    · obtain rfl := h.2 head
      cases h.1
      exact .pure ⟨.last hname, fun h => absurd h more⟩
    · exact absurd head h.2

/-- What is read as an expression is derived as one, up to what stops it. -/
lemma readExpression {level : Precedence} {rest : List Token} {d : Nat} :
    Outcome (readExpression read level) ⟨rest, d⟩
      (fun e ts r => Derives (insideLoop d) (.operand level.operandRank e) ts ∧ level.Stops r)
      (fun ts r => Opens (insideLoop d) (.operand level.operandRank) ts ∧
        (ts = [] → ∀ token ∈ r.head?, token.kind.startsExpression = false)) := by
  refine .bind F.leaf (fun left ts r _ h => ?_) fun ts r _ h => ?_
  · have start : Derives (insideLoop d) (.operand (max (nextRank r) level.operandRank) left) ts :=
      h.mono (by have := level.operandRank_le; omega)
    refine (F.continuation start).mono (fun _ _ _ _ h => h) fun us r' _ h' => ?_
    refine ⟨h', fun e => ?_⟩
    exact absurd (List.append_eq_nil_iff.1 e).1 (h.ne_nil rfl)
  · obtain ⟨⟨us, e, h⟩, first⟩ := h
    exact ⟨⟨us, e, h.mono level.operandRank_le⟩, first⟩

/-- What an expression goes on with is derived with it as one expression. -/
lemma readContinuation {level : Precedence} {left : Expression} {rest start : List Token} {d : Nat}
    (h : Derives (insideLoop d) (.operand (max (nextRank rest) level.operandRank) left) start) :
    Outcome (readContinuation read level left) ⟨rest, d⟩
      (fun e ts r => Derives (insideLoop d) (.operand level.operandRank e) (start ++ ts) ∧
        level.Stops r)
      (fun ts _ => Opens (insideLoop d) (.operand level.operandRank) (start ++ ts)) := by
  have stop (le : nextRank rest ≤ max level.rank Precedence.statement.rank) :
      Outcome (pure left : Parser Expression) ⟨rest, d⟩
        (fun e ts r => Derives (insideLoop d) (.operand level.operandRank e) (start ++ ts) ∧
          level.Stops r)
        (fun ts _ => Opens (insideLoop d) (.operand level.operandRank) (start ++ ts)) := by
    refine .pure ⟨?_, le⟩
    rw [List.append_nil]
    exact h.mono (Nat.le_max_right _ _)
  cases rest with
  | nil => exact stop (Nat.zero_le _)
  | cons token rest =>
    have target : Derives (insideLoop d) (.operand token.kind.precedence.rank left) start :=
      h.mono (Nat.le_max_left _ _)
    -- What was appended to `left` is the new `left`: `ts` is read, and `e` goes on from `r`.
    have again {e ts r} (he : Derives (insideLoop d) (.expression e) (start ++ token :: ts))
        (hn : nextRank r ≤ e.rank) (ho : level.operandRank ≤ e.rank) :
        Outcome (read (.continuation level e)) ⟨r, d⟩
          (fun e us r => Derives (insideLoop d) (.operand level.operandRank e)
            (start ++ token :: (ts ++ us)) ∧ level.Stops r)
          (fun us _ => Opens (insideLoop d) (.operand level.operandRank)
            (start ++ token :: (ts ++ us))) := by
      have he : Derives (insideLoop d) (.operand (max (nextRank r) level.operandRank) e)
          (start ++ token :: ts) := .bare (Nat.max_le.2 ⟨hn, ho⟩) he
      simpa using F.continuation he
    have opens {e ts us ws} (he : Derives (insideLoop d) (.expression e) (start ++ token :: ws))
        (ho : level.operandRank ≤ e.rank) (split : ts ++ us = ws) :
        Opens (insideLoop d) (.operand level.operandRank) (start ++ token :: ts) :=
      .intro us (.bare ho he) (by simp [split])
    have operand_le : level.operandRank ≤ Precedence.call.rank :=
      Nat.le_trans level.operandRank_le (by decide)
    apply Outcome.peekKind
    dsimp only [List.head?_cons, Option.map_some]
    split
    case isTrue le => exact stop (Nat.le_trans le (Nat.le_max_left _ _))
    case isFalse more =>
    split
    case h_1 heq =>
      rw [heq] at target
      apply Outcome.advance
      refine .bind F.sequence (fun es ts r _ h => ?_) fun ts r _ h => ?_
      · obtain ⟨us, closing, rfl, hclosing, hes⟩ := h
        exact again (.call target heq hes hclosing) (nextRank_le r) operand_le
      · obtain ⟨vs, es, us, closing, e, hclosing, hes⟩ := h
        exact opens (.call target heq hes hclosing) operand_le e
    case h_2 heq =>
      rw [heq] at target
      apply Outcome.advance
      refine .expect (fun name r _ hname => ?_) fun _ => ?_
      · exact again (.member target heq hname) (nextRank_le r) operand_le
      · exact opens (.member target heq (kind_sample .name)) operand_le rfl
    case h_3 heq =>
      rw [heq] at target
      apply Outcome.advance
      refine .bind F.expression (fun place ts r _ h => ?_) fun ts r _ h => ?_
      · have hp := h.1.mono (Nat.zero_le _)
        refine .expect_discard (fun closing r _ hclosing => ?_) fun _ => ?_
        · simpa using again (.index target heq hp hclosing) (nextRank_le r) operand_le
        · exact opens (.index target heq hp (kind_sample .rightBracket)) operand_le
            (congrArg (· ++ [.sample .rightBracket]) (List.append_nil ts))
      · obtain ⟨⟨us, place, hp⟩, _⟩ := h
        have hp := hp.mono (Nat.zero_le _)
        exact opens (.index target heq hp (kind_sample .rightBracket)) operand_le
          (List.append_assoc ..).symm
    case h_4 heq =>
      rw [heq] at target more
      have operand_le : level.operandRank ≤ Precedence.assignment.rank := by
        change ¬ Precedence.assignment.rank ≤ level.rank at more
        unfold Precedence.operandRank
        omega
      split
      case h_1 name =>
        apply Outcome.advance
        refine .bind F.expression (fun value ts r _ h => ?_) fun ts r _ h => ?_
        · obtain ⟨hv, stops⟩ := h
          have hv := hv.mono (Nat.zero_le _)
          exact again (.assign target heq hv) (Nat.le_trans stops (Nat.le_succ 1)) operand_le
        · obtain ⟨⟨us, value, hv⟩, _⟩ := h
          have hv := hv.mono (Nat.zero_le _)
          exact opens (.assign target heq hv) operand_le rfl
      case h_2 =>
        -- What cannot be assigned to is complete as it is, without the token that fails.
        refine .failAt Malformation.noConfusion ⟨[], left, ?_⟩
        simpa using h.mono (Nat.le_max_right _ _)
    case h_5 hcall hmember hindex hassign =>
      split
      case h_1 operator heq =>
        obtain ⟨gt, lt⟩ := Token.Kind.rank_of_binaryOperator? heq
        have rank_eq {right} :
            (Expression.binary left operator right).rank = token.kind.precedence.rank := by
          rw [Token.Kind.eq_sign heq]
          rfl
        have operand_le : level.operandRank ≤ token.kind.precedence.rank := by
          unfold Precedence.operandRank
          omega
        have right_rank : token.kind.precedence.operandRank = token.kind.precedence.rank + 1 := by
          unfold Precedence.operandRank
          omega
        apply Outcome.advance
        refine .bind F.expression (fun right ts r _ h => ?_) fun ts r _ h => ?_
        · obtain ⟨hr, stops⟩ := h
          rw [right_rank] at hr
          refine again (.binary heq target hr) ?_ (rank_eq ▸ operand_le)
          rw [rank_eq]
          have statement_le : Precedence.statement.rank ≤ token.kind.precedence.rank :=
            Nat.le_of_lt (Nat.lt_of_succ_lt gt)
          exact Nat.le_trans stops (Nat.max_le.2 ⟨Nat.le_refl _, statement_le⟩)
        · obtain ⟨⟨us, right, hr⟩, _⟩ := h
          rw [right_rank] at hr
          exact opens (.binary heq target hr) (rank_eq ▸ operand_le) rfl
      case h_2 heq =>
        -- Only the ranks of operators are above that of a statement.
        exact stop (Nat.le_trans
          (Token.Kind.rank_of_binaryOperator?_eq_none heq hcall hmember hindex hassign)
          (Nat.le_max_right _ _))

/-- What is read as a leaf is derived as an operand, and what is not opens one. -/
lemma readLeaf {rest : List Token} {d : Nat} : Outcome (readLeaf read) ⟨rest, d⟩
    (fun e ts r =>
      Derives (insideLoop d) (.operand (max (nextRank r) Precedence.unary.rank) e) ts)
    (fun ts r => Opens (insideLoop d) (.operand Precedence.unary.rank) ts ∧
      (ts = [] → ∀ token ∈ r.head?, token.kind.startsExpression = false)) := by
  have tight {e ts r} (h : Derives (insideLoop d) (.expression e) ts)
      (he : e.rank = Precedence.call.rank) :
      Derives (insideLoop d) (.operand (max (nextRank r) Precedence.unary.rank) e) ts :=
    h.tight he (Nat.max_le.2 ⟨nextRank_le r, by decide⟩)
  have sample : Opens (insideLoop d) (.operand Precedence.unary.rank) [] :=
    ⟨_, _, .sample_operand (by decide)⟩
  cases rest with
  | nil =>
    apply Outcome.peek
    exact .unexpected ⟨sample, fun _ _ h => by cases h⟩
  | cons token rest =>
    have unary {operator} (h : token.kind.unaryOperator? = some operator) :
        Outcome (do Parser.advance; return .unary operator (← read (.expression .unary)))
          ⟨token :: rest, d⟩
          (fun e ts r =>
            Derives (insideLoop d) (.operand (max (nextRank r) Precedence.unary.rank) e) ts)
          (fun ts r => Opens (insideLoop d) (.operand Precedence.unary.rank) ts ∧
            (ts = [] → ∀ token ∈ r.head?, token.kind.startsExpression = false)) := by
      apply Outcome.advance
      refine .bind F.expression (fun e ts r _ h' => ?_) fun ts r _ h' => ?_
      · obtain ⟨he, stops⟩ := h'
        apply Outcome.pure
        rw [List.append_nil]
        exact .bare (Nat.max_le.2 ⟨stops, Nat.le_refl _⟩) (.unary h he)
      · obtain ⟨⟨us, e, he⟩, _⟩ := h'
        refine ⟨⟨us, _, .bare (Nat.le_refl _) (.unary h he)⟩, fun h => ?_⟩
        cases h
    apply Outcome.peek
    dsimp only [List.head?_cons]
    split
    case h_1 heq => exact .advance (.pure (tight (.number heq) rfl))
    case h_2 heq => exact .advance (.pure (tight (.string heq) rfl))
    case h_3 heq => exact .advance (.pure (tight (.trueWord heq) rfl))
    case h_4 heq => exact .advance (.pure (tight (.falseWord heq) rfl))
    case h_5 heq => exact .advance (.pure (tight (.identifier heq) rfl))
    case h_6 heq =>
      apply Outcome.advance
      refine .bind F.parameters (fun parameters ts r _ hp => ?_) fun ts r _ h => ?_
      · refine .bind F.functionBody (fun body us r _ hb => ?_) fun us r _ h => ?_
        · apply Outcome.pure
          rw [List.append_nil]
          exact tight (.function heq hp hb) rfl
        · obtain ⟨vs, body, hb⟩ := h
          refine ⟨.intro vs (.bare (Nat.le_succ _) (.function heq hp hb)) (by simp), fun h => ?_⟩
          cases h
      · obtain ⟨us, parameters, hp⟩ := h
        refine ⟨.intro (us ++ [.sample .leftBrace, .sample .rightBrace])
          (.bare (Nat.le_succ _) (.function heq hp .sample_block)) (by simp), fun h => ?_⟩
        cases h
    case h_7 heq => exact unary (by rw [heq]; rfl)
    case h_8 heq => exact unary (by rw [heq]; rfl)
    case h_9 heq =>
      apply Outcome.advance
      refine .bind F.sequence (fun es ts r _ h => ?_) fun ts r _ h => ?_
      · obtain ⟨us, closing, rfl, hclosing, hes⟩ := h
        apply Outcome.pure
        rw [List.append_nil]
        exact tight (.list heq hes hclosing) rfl
      · obtain ⟨vs, es, us, closing, e, hclosing, hes⟩ := h
        have opens := Derives.bare (Nat.le_succ _) (.list heq hes hclosing)
        refine ⟨.intro vs opens (by simp [e]), fun h => ?_⟩
        cases h
    case h_10 heq =>
      apply Outcome.advance
      refine .bind F.expression (fun inner ts r _ h => ?_) fun ts r _ h => ?_
      · have hi := h.1.mono (Nat.zero_le _)
        refine .expect_discard (fun closing r _ hclosing => ?_) fun _ => ⟨?_, fun h => ?_⟩
        · exact .pure (.grouped heq hi hclosing)
        · exact .intro [.sample .rightParen] (.grouped heq hi (kind_sample _)) (by simp)
        · cases h
      · obtain ⟨⟨us, inner, hi⟩, _⟩ := h
        have hi := hi.mono (Nat.zero_le _)
        refine ⟨.intro (us ++ [.sample .rightParen]) (.grouped heq hi (kind_sample _)) (by simp),
          fun h => ?_⟩
        cases h
    case h_11 =>
      -- All the tokens that start an expression have been dealt with.
      refine .unexpected ⟨sample, fun _ _ h => ?_⟩
      cases h
      cases h : token.kind <;> first | rfl | contradiction

/-- What is read as a sequence is derived as one, and what is not opens one. -/
lemma readSequence {kind : Token.Kind} {rest : List Token} {d : Nat} :
    Outcome (readSequence read (some kind)) ⟨rest, d⟩
      (fun es ts _ => DerivesSequence (insideLoop d) kind es ts)
      (fun ts _ => ∃ us es, DerivesSequence (insideLoop d) kind es (ts ++ us)) := by
  refine .bind F.items (fun es ts r _ h => ?_) fun ts r _ h => ?_
  · refine .expect_discard (fun closing r _ hclosing => ?_) fun _ => ?_
    · exact .pure ⟨ts, closing, rfl, hclosing, h.1⟩
    · exact ⟨[.sample kind], es, ts, .sample kind, by simp, rfl, h.1⟩
  · obtain ⟨⟨us, es, h⟩, _⟩ := h
    exact ⟨us ++ [.sample kind], es, ts ++ us, .sample kind, by simp, rfl, h⟩

/-- What is read as items is derived as elements, and what is not opens some. -/
lemma readItems {kind : Token.Kind} {rest : List Token} {d : Nat} :
    Outcome (readItems read (some kind)) ⟨rest, d⟩
      (fun es ts _ => Derives (insideLoop d) (.elements es) ts ∧
        (rest.head?.map (·.kind) = some kind → ts = []))
      (fun ts _ => Opens (insideLoop d) .elements ts ∧ rest.head?.map (·.kind) ≠ some kind) := by
  apply Outcome.peekKind
  split
  case isTrue => exact .pure ⟨.noElements, fun _ => rfl⟩
  case isFalse more =>
  refine .bind F.expression (fun e ts r _ h => ?_) fun ts r _ h => ?_
  · have he := h.1.mono (Nat.zero_le _)
    refine .separator (fun comma r _ hcomma => ?_) (fun head => ?_)
      ⟨.intro [] (.lastElement he) (by simp), more⟩
    · refine .bind F.items (fun es us r _ h => ?_) fun us r _ h => ?_
      · refine .pure ⟨?_, fun h => absurd h more⟩
        rw [List.append_nil]
        exact .moreElements he hcomma h.1
      · obtain ⟨⟨vs, es, h⟩, _⟩ := h
        exact ⟨.intro vs (.moreElements he hcomma h) (by simp), more⟩
    · refine .bind F.items (fun es us r _ h => ?_) fun us r _ h => ?_
      · obtain rfl := h.2 head
        obtain rfl := h.1.elements_eq_nil rfl
        exact .pure ⟨.lastElement (by simpa using he), fun h => absurd h more⟩
      · exact absurd head h.2
  · obtain ⟨⟨us, e, h⟩, _⟩ := h
    exact ⟨⟨us, _, .lastElement (h.mono (Nat.zero_le _))⟩, more⟩

/-- One step of the rules keeps them faithful. -/
lemma step : Faithful (step read) where
  statement := F.readStatement
  declaration := F.readDeclaration
  definition := F.readDefinition
  conditional := F.readConditional
  loop := F.readLoop
  returning := F.readReturning
  jump := readJump
  block := F.readBlock
  statements := F.readStatements
  functionBody := .outsideLoops F.block
  parameters := F.readParameters
  parameterNames := F.readParameterNames
  expression := F.readExpression
  continuation := F.readContinuation
  leaf := F.readLeaf
  sequence := F.readSequence
  items := F.readItems

omit F in
/-- With every bound, the rules read what the grammar derives. -/
theorem parseWith (n : Nat) : Faithful (parseWith n) := by
  induction n with
  | zero => constructor <;> intros <;> exact Outcome.exhausted
  | succ n ih => exact ih.step

end Faithful

end ScriptLang
