import ScriptLang.Proofs.Grammar.Writing
import ScriptLang.Proofs.Token.Gaps

/-!
# Layout does not matter

The rules look at the kinds and the texts of tokens, and at their places only for the lines of
statements. So tokens that differ in nothing but their places are read alike: as the same tree apart
from lines, or with the same failure at the same one of the tokens (`Rule.ReadAlike.parseWith`).
Gaps between the tokens of a script do no more than move them, so what a script is read as does not
depend on its layout (`layout_is_insignificant`).
-/

namespace ScriptLang
open ScriptLang.Parser ScriptLang.Rule
open scoped Computability

/-- Tokens that differ in nothing but their places. -/
structure Token.Alike (t t' : Token) : Prop where
  kind : t'.kind = t.kind
  text : t'.text = t.text

/-- Tokens of the same contents are alike. -/
lemma forall₂_alike {ts ts' : List Token} (h : ts'.map Token.content = ts.map Token.content) :
    List.Forall₂ Token.Alike ts ts' := by
  have same : List.Forall₂ Eq (ts.map Token.content) (ts'.map Token.content) :=
    h ▸ List.forall₂_refl _
  refine (List.forall₂_map_left_iff.1 (List.forall₂_map_right_iff.1 same)).imp fun t t' e => ?_
  exact ⟨(Prod.mk.inj e).1.symm, (Prod.mk.inj e).2.symm⟩

/-- Trees that are the same once lines are left out. -/
def Same {α : Type} (withoutLines : α → α) (a a' : α) : Prop := withoutLines a' = withoutLines a

/-- How lines are left out of the trees that a rule yields. -/
def Rule.withoutLines {α : Type} : Rule α → α → α
  | .statement | .declaration | .definition | .conditional | .loop | .returning | .jump =>
    Statement.withoutLines
  | .block | .statements | .functionBody => blockWithoutLines
  | .parameters | .parameterNames => id
  | .expression _ | .continuation _ _ | .leaf => Expression.withoutLines
  | .sequence _ | .items _ => elementsWithoutLines

namespace Parser

/-- Cursors at tokens that are alike, inside of equally many loops. -/
structure Cursor.Alike (c c' : Cursor) : Prop where
  rest : List.Forall₂ Token.Alike c.rest c'.rest
  loopDepth : c'.loopDepth = c.loopDepth

/-- Cursors that are alike are so inside of any number of loops. -/
lemma Cursor.Alike.inLoops {c c' : Cursor} (h : c.Alike c') (d : Nat) :
    Cursor.Alike { c with loopDepth := d } { c' with loopDepth := d } := ⟨h.rest, rfl⟩

/-- Failures of the same cause at tokens that are alike. -/
structure Failure.Alike (e e' : Failure) : Prop where
  cause : e'.cause = e.cause
  rest : List.Forall₂ Token.Alike e.rest e'.rest

/-- Two parsers come to related values before tokens that are alike, or fail alike. -/
inductive EndsAlike {α : Type} (R : α → α → Prop) :
    (result result' : EStateM.Result Failure Cursor α) → Prop where
  | ok {a a' : α} {c c' : Cursor} : R a a' → c.Alike c' → EndsAlike R (.ok a c) (.ok a' c')
  | error {e e' : Failure} {c c' : Cursor} : e.Alike e' → EndsAlike R (.error e c) (.error e' c')

/-- The number of loops has nothing to do with how parsers end. -/
lemma EndsAlike.withDepth {α : Type} {R : α → α → Prop}
    {result result' : EStateM.Result Failure Cursor α} (h : EndsAlike R result result')
    (f : Nat → Nat) : EndsAlike R (withDepth f result) (withDepth f result') := by
  cases h with
  | ok related behind => exact .ok related ⟨behind.rest, congrArg f behind.loopDepth⟩
  | error fails => exact .error fails

/-- Two parsers that read alike what is alike, and come to related values. -/
def Alike {α : Type} (R : α → α → Prop) (p p' : Parser α) : Prop :=
  ∀ c c', c.Alike c' → EndsAlike R (p c) (p' c')

namespace Alike
variable {α β : Type} {R : α → α → Prop} {Q : β → β → Prop} {p p' : Parser α}

/-- Related values are read alike. -/
lemma pure {a a' : α} (h : R a a') : Alike R (pure a) (pure a') := fun _ _ alike => .ok h alike

/-- Parsers in a row read alike if both parts do. -/
lemma bind {f f' : α → Parser β} (hp : Alike R p p') (hf : ∀ a a', R a a' → Alike Q (f a) (f' a')) :
    Alike Q (p >>= f) (p' >>= f') := by
  intro c c' alike
  have first := hp c c' alike
  generalize ran : p c = result, ran' : p' c' = result' at first
  cases first with
  | ok related behind =>
    rw [bind_of_ok ran, bind_of_ok ran']
    exact hf _ _ related _ _ behind
  | error fails =>
    rw [bind_of_error ran, bind_of_error ran']
    exact .error fails

/-- Failures of the same cause are alike. -/
lemma fail (cause : Malformation) : Alike R (fail cause) (fail cause) := fun _ _ alike =>
  .error ⟨rfl, alike.rest⟩

/-- Next tokens that are alike are seen alike. -/
lemma peek : Alike (Option.Rel Token.Alike) peek peek := by
  rintro ⟨rest, d⟩ ⟨rest', d'⟩ alike
  refine .ok ?_ alike
  cases alike.rest with
  | nil => exact .none
  | cons first _ => exact .some first

/-- The kind of the next token is seen alike. -/
lemma peekKind : Alike Eq peekKind peekKind := by
  refine .bind peek fun found found' same => .pure ?_
  cases same with
  | none => rfl
  | some alike => exact congrArg some alike.kind.symm

/-- The kind of the second token is seen alike. -/
lemma peekSecondKind : Alike Eq peekSecondKind peekSecondKind := by
  rintro ⟨rest, d⟩ ⟨rest', d'⟩ alike
  refine .ok ?_ alike
  cases alike.rest with
  | nil => rfl
  | cons _ others =>
    cases others with
    | nil => rfl
    | cons second _ => exact congrArg some second.kind.symm

/-- Moves are alike. -/
lemma advance : Alike Eq advance advance := by
  rintro ⟨rest, d⟩ ⟨rest', d'⟩ alike
  refine .ok rfl ⟨?_, alike.loopDepth⟩
  cases alike.rest with
  | nil => exact .nil
  | cons _ others => exact others

/-- Tokens are expected alike. -/
lemma expect (kind : Token.Kind) : Alike Token.Alike (expect kind) (expect kind) := by
  refine .bind peek fun found found' same => ?_
  cases same with
  | none => exact .fail _
  | @some token token' alike =>
    dsimp only
    rw [alike.kind]
    split
    · exact .bind advance fun _ _ _ => .pure alike
    · exact .fail _

/-- Parsers read alike whatever becomes of their results. -/
lemma discard (h : Alike R p p') :
    Alike Eq (discard p : Parser Unit) (discard p') :=
  .bind h fun _ _ _ => .pure rfl

/-- Failures to close a list are alike. -/
lemma failToClose (closing : Option Token.Kind) :
    Alike R (failToClose closing) (failToClose closing) := by
  cases closing <;> exact .fail _

/-- Lists are closed alike. -/
lemma close (closing : Option Token.Kind) : Alike Eq (close closing) (close closing) := by
  cases closing with
  | some kind => exact .discard (.expect kind)
  | none =>
    refine .bind peek fun found found' same => ?_
    cases same with
    | none => exact .pure rfl
    | some => exact .failToClose none

/-- Separators are read alike. -/
lemma separator (closing : Option Token.Kind) :
    Alike Eq (separator closing) (separator closing) := by
  refine .bind peekKind ?_
  rintro kind _ rfl
  split
  · exact .advance
  · split
    · exact .failToClose closing
    · exact .pure rfl

/-- Parsers read alike inside of one more loop. -/
lemma inLoop (h : Alike R p p') : Alike R (inLoop p) (inLoop p') := by
  intro c c' alike
  rw [inLoop_apply, inLoop_apply, alike.loopDepth]
  exact (h _ _ (alike.inLoops _)).withDepth _

/-- Parsers read alike outside of all loops. -/
lemma outsideLoops (h : Alike R p p') : Alike R (outsideLoops p) (outsideLoops p') := by
  intro c c' alike
  rw [outsideLoops_apply, outsideLoops_apply, alike.loopDepth]
  exact (h _ _ (alike.inLoops 0)).withDepth _

end Alike
end Parser

/-- Two ways to read by rules that read alike what is alike. What an expression goes on with may go
on from trees that differ in lines. -/
structure Rule.ReadAlike (read read' : Readers) : Prop where
  rule {α : Type} (rule : Rule α) : Parser.Alike (Same rule.withoutLines) (read rule) (read' rule)
  continuation (level : Precedence) {left left' : Expression} :
    Same Expression.withoutLines left left' →
    Parser.Alike (Same Expression.withoutLines) (read (.continuation level left))
      (read' (.continuation level left'))

/-- Statements at different tokens are the same apart from lines if their forms are. -/
lemma Rule.statementAt_same (first first' : Token) {form form' : Form}
    (h : form'.withoutLines = form.withoutLines) :
    Same Statement.withoutLines (statementAt first form) (statementAt first' form') :=
  congrArg (Statement.mk none) h

/-- Conditionals are the same apart from lines if their parts are. -/
lemma Form.branch_same {condition condition' : Expression} {consequent consequent' : Block}
    {alternative alternative' : Option Block}
    (tested : Same Expression.withoutLines condition condition')
    (done : Same blockWithoutLines consequent consequent')
    (other : Same alternativeWithoutLines alternative alternative') :
    (Form.branch condition' consequent' alternative').withoutLines =
      (Form.branch condition consequent alternative).withoutLines := by
  change Form.branch _ _ _ = Form.branch _ _ _
  rw [tested, done, other]

/-- Loops are the same apart from lines if their parts are. -/
lemma Form.loop_same {body body' : Block} {name name' : String} {iterable iterable' : Expression}
    (same : Same blockWithoutLines body body') (named : name' = name)
    (walked : Same Expression.withoutLines iterable iterable') :
    (Form.loop body' (some name') (some iterable')).withoutLines =
      (Form.loop body (some name) (some iterable)).withoutLines := by
  change Form.loop _ _ _ = Form.loop _ _ _
  rw [same, named, walked]

/-- Whether an expression is a name has nothing to do with lines. -/
lemma Same.identifier {left left' : Expression} (same : Same Expression.withoutLines left left') :
    (∃ name, left = .identifier name ∧ left' = .identifier name) ∨
      (∀ name, left ≠ .identifier name) ∧ ∀ name, left' ≠ .identifier name := by
  cases left with
  | identifier name =>
    cases left' with
    | identifier name' =>
      cases same
      exact .inl ⟨_, rfl, rfl⟩
    | _ => cases same
  | _ =>
    cases left' with
    | identifier name' => cases same
    | _ => exact .inr ⟨nofun, nofun⟩

namespace Rule.ReadAlike
variable {read read' : Readers} (R : ReadAlike read read')
include R

/-- Statements are read alike. -/
lemma readStatement :
    Alike (Same Statement.withoutLines) (readStatement read) (readStatement read') := by
  refine .bind .peek fun found found' same => ?_
  cases same with
  | none => exact .fail _
  | @some token token' alike =>
    refine .bind .peekSecondKind ?_
    rintro second _ rfl
    rw [alike.kind]
    split
    · exact R.rule .declaration
    · exact R.rule .conditional
    · exact R.rule .loop
    · exact R.rule .returning
    · exact R.rule .jump
    · exact R.rule .jump
    · split
      · exact R.rule .definition
      · exact .bind (R.rule (.expression .lowest)) fun e e' same =>
          .pure (statementAt_same _ _ (congrArg Form.evaluate same))

/-- Declarations are read alike. -/
lemma readDeclaration :
    Alike (Same Statement.withoutLines) (readDeclaration read) (readDeclaration read') := by
  refine .bind (.expect _) fun first first' _ => .bind (.expect _) fun name name' named => ?_
  refine .bind (.discard (.expect _)) fun _ _ _ => ?_
  refine .bind (R.rule (.expression .lowest)) fun value value' same => .pure ?_
  exact statementAt_same _ _ (congrArg₂ Form.declare named.text same)

/-- Definitions are read alike. -/
lemma readDefinition :
    Alike (Same Statement.withoutLines) (readDefinition read) (readDefinition read') := by
  refine .bind (.expect _) fun first first' _ => .bind (.expect _) fun name name' named => ?_
  refine .bind (R.rule .parameters) ?_
  rintro _ names rfl
  refine .bind (R.rule .functionBody) fun body body' same => .pure (statementAt_same _ _ ?_)
  exact congrArg₂ (Form.define · names) named.text same

/-- Conditionals are read alike. -/
lemma readConditional :
    Alike (Same Statement.withoutLines) (readConditional read) (readConditional read') := by
  refine .bind .peek fun found found' same => ?_
  cases same with
  | none => exact .fail _
  | @some first first' alike =>
    dsimp only
    rw [alike.kind]
    split
    · exact .fail _
    · refine .bind .advance fun _ _ _ => .bind (R.rule (.expression .statement)) ?_
      intro condition condition' tested
      refine .bind (R.rule .block) fun consequent consequent' done => .bind .peekKind ?_
      rintro kind _ rfl
      split
      · exact .bind (R.rule .conditional) fun _ _ other => .pure <|
          statementAt_same _ _ (Form.branch_same tested done (congrArg (fun s => some [s]) other))
      · split
        · exact .bind .advance fun _ _ _ => .bind (R.rule .block) fun _ _ other => .pure <|
            statementAt_same _ _ (Form.branch_same tested done (congrArg some other))
        · exact .pure (statementAt_same _ _ (Form.branch_same tested done rfl))

/-- Loops are read alike. -/
lemma readLoop : Alike (Same Statement.withoutLines) (readLoop read) (readLoop read') := by
  refine .bind (.expect _) fun first first' _ => .bind .peekKind ?_
  rintro kind _ rfl
  split
  · refine .bind .advance fun _ _ _ => .bind (.discard (.expect _)) fun _ _ _ => ?_
    refine .bind (.expect _) fun name name' named => .bind (.discard (.expect _)) fun _ _ _ => ?_
    refine .bind (R.rule (.expression .lowest)) fun iterable iterable' walked => ?_
    refine .bind (.discard (.expect _)) fun _ _ _ => ?_
    exact .bind (.inLoop (R.rule .block)) fun _ _ same => .pure <|
      statementAt_same _ _ (Form.loop_same same named.text walked)
  · refine .bind (.inLoop (R.rule .block)) fun body body' same => .pure (statementAt_same _ _ ?_)
    exact congrArg (Form.loop · none none) same

/-- Returns are read alike. -/
lemma readReturning :
    Alike (Same Statement.withoutLines) (readReturning read) (readReturning read') := by
  refine .bind (.expect _) fun first first' _ => .bind .peekKind ?_
  rintro kind _ rfl
  split
  · refine .bind (R.rule (.expression .lowest)) fun value value' same => .pure ?_
    exact statementAt_same _ _ (congrArg (Form.returns ∘ some) same)
  · exact .pure (statementAt_same _ _ rfl)

/-- Blocks are read alike. -/
lemma readBlock : Alike (Same blockWithoutLines) (readBlock read) (readBlock read') :=
  .bind (.discard (.expect _)) fun _ _ _ => .bind (R.rule .statements) fun _ _ same =>
    .bind (.discard (.expect _)) fun _ _ _ => .pure same

/-- The statements of blocks are read alike. -/
lemma readStatements :
    Alike (Same blockWithoutLines) (readStatements read) (readStatements read') := by
  refine .bind .peekKind ?_
  rintro kind _ rfl
  split
  · exact .pure rfl
  · exact .bind (R.rule .statement) fun _ _ first => .bind (R.rule .statements) fun _ _ others =>
      .pure (congrArg₂ List.cons first others)

/-- Parameters are read alike. -/
lemma readParameters : Alike (Same id) (readParameters read) (readParameters read') :=
  .bind (.discard (.expect _)) fun _ _ _ => .bind (R.rule .parameterNames) fun _ _ same =>
    .bind (.discard (.expect _)) fun _ _ _ => .pure same

/-- The names of parameters are read alike. -/
lemma readParameterNames :
    Alike (Same id) (readParameterNames read) (readParameterNames read') := by
  refine .bind .peekKind ?_
  rintro kind _ rfl
  split
  · exact .pure rfl
  · exact .bind (.expect _) fun _ _ first => .bind (.separator _) fun _ _ _ =>
      .bind (R.rule .parameterNames) fun _ _ others =>
        .pure (congrArg₂ List.cons first.text others)

/-- Expressions are read alike. -/
lemma readExpression (level : Precedence) :
    Alike (Same Expression.withoutLines) (readExpression read level)
      (readExpression read' level) :=
  .bind (R.rule .leaf) fun _ _ same => R.continuation level same

/-- What expressions go on with is read alike. -/
lemma readContinuation (level : Precedence) {left left' : Expression}
    (same : Same Expression.withoutLines left left') :
    Alike (Same Expression.withoutLines) (readContinuation read level left)
      (readContinuation read' level left') := by
  refine .bind .peekKind ?_
  rintro found _ rfl
  cases found with
  | none => exact .pure same
  | some kind =>
    dsimp only
    split
    · exact .pure same
    split
    · exact .bind .advance fun _ _ _ =>
        .bind (R.rule (.sequence (some .rightParen))) fun _ _ given =>
          R.continuation level (congrArg₂ Expression.call same given)
    · exact .bind .advance fun _ _ _ => .bind (.expect _) fun _ _ named =>
        R.continuation level (congrArg₂ Expression.member same named.text)
    · exact .bind .advance fun _ _ _ => .bind (R.rule (.expression .lowest)) fun _ _ place =>
        .bind (.discard (.expect _)) fun _ _ _ =>
          R.continuation level (congrArg₂ Expression.index same place)
    · obtain ⟨name, rfl, rfl⟩ | ⟨other, other'⟩ := same.identifier
      · exact .bind .advance fun _ _ _ => .bind (R.rule (.expression .lowest)) fun _ _ value =>
          R.continuation level (congrArg (Expression.assign (.identifier name)) value)
      · split
        · exact absurd rfl (other _)
        · exact .fail _
    · split
      · exact .bind .advance fun _ _ _ => .bind (R.rule (.expression _)) fun _ _ right =>
          R.continuation level (congrArg₂ (Expression.binary · _) same right)
      · exact .pure same

/-- Leaves are read alike. -/
lemma readLeaf : Alike (Same Expression.withoutLines) (readLeaf read) (readLeaf read') := by
  refine .bind .peek fun found found' same => ?_
  cases same with
  | none => exact .fail _
  | @some token token' alike =>
    dsimp only
    rw [alike.kind, alike.text]
    split
    iterate 5 exact .bind .advance fun _ _ _ => .pure rfl
    · refine .bind .advance fun _ _ _ => .bind (R.rule .parameters) ?_
      rintro _ names rfl
      exact .bind (R.rule .functionBody) fun _ _ same =>
        .pure (congrArg (Expression.function names) same)
    · exact .bind .advance fun _ _ _ => .bind (R.rule (.expression .unary)) fun _ _ same =>
        .pure (congrArg (Expression.unary .subtract) same)
    · exact .bind .advance fun _ _ _ => .bind (R.rule (.expression .unary)) fun _ _ same =>
        .pure (congrArg (Expression.unary .not) same)
    · exact .bind .advance fun _ _ _ =>
        .bind (R.rule (.sequence (some .rightBracket))) fun _ _ same =>
          .pure (congrArg Expression.list same)
    · exact .bind .advance fun _ _ _ => .bind (R.rule (.expression .lowest)) fun _ _ same =>
        .bind (.discard (.expect _)) fun _ _ _ => .pure same
    · exact .fail _

/-- Sequences are read alike. -/
lemma readSequence (closing : Option Token.Kind) :
    Alike (Same elementsWithoutLines) (readSequence read closing) (readSequence read' closing) :=
  .bind (R.rule (.items closing)) fun _ _ same => .bind (.close closing) fun _ _ _ => .pure same

/-- The items of sequences are read alike. -/
lemma readItems (closing : Option Token.Kind) :
    Alike (Same elementsWithoutLines) (readItems read closing) (readItems read' closing) := by
  refine .bind .peekKind ?_
  rintro kind _ rfl
  split
  · exact .pure rfl
  · exact .bind (R.rule (.expression .lowest)) fun _ _ first =>
      .bind (.separator closing) fun _ _ _ =>
        .bind (R.rule (.items closing)) fun _ _ others => .pure (congrArg₂ List.cons first others)

omit R in
/-- Jumps are read alike. -/
lemma readJump : Alike (Same Statement.withoutLines) readJump readJump := by
  rintro ⟨rest, d⟩ ⟨rest', d'⟩ ⟨alike, loops⟩
  obtain rfl : d' = d := loops
  cases d' with
  | zero => exact .error ⟨rfl, alike⟩
  | succ d =>
    cases alike with
    | nil => exact .error ⟨rfl, .nil⟩
    | @cons token token' rest rest' first others =>
      cases jump : token.kind.jump? with
      | some form =>
        have jump' : token'.kind.jump? = some form := first.kind ▸ jump
        rw [readJump_of_some jump, readJump_of_some jump']
        exact .ok (statementAt_same _ _ rfl) ⟨others, rfl⟩
      | none =>
        have jump' : token'.kind.jump? = none := first.kind ▸ jump
        rw [readJump_of_none jump, readJump_of_none jump']
        exact .error ⟨rfl, .cons first others⟩

/-- One step of the rules reads alike what their parts read alike. -/
lemma step : ReadAlike (Rule.step read) (Rule.step read') where
  continuation level _ _ same := R.readContinuation level same
  rule rule := by
    cases rule with
    | statement => exact R.readStatement
    | declaration => exact R.readDeclaration
    | definition => exact R.readDefinition
    | conditional => exact R.readConditional
    | loop => exact R.readLoop
    | returning => exact R.readReturning
    | jump => exact readJump
    | block => exact R.readBlock
    | statements => exact R.readStatements
    | functionBody => exact .outsideLoops (R.rule .block)
    | parameters => exact R.readParameters
    | parameterNames => exact R.readParameterNames
    | expression level => exact R.readExpression level
    | continuation level left => exact R.readContinuation level rfl
    | leaf => exact R.readLeaf
    | sequence closing => exact R.readSequence closing
    | items closing => exact R.readItems closing

omit R in
/-- With every bound, the rules read alike what is alike. -/
lemma parseWith (n : Nat) : ReadAlike (Rule.parseWith n) (Rule.parseWith n) := by
  induction n with
  | zero => exact ⟨fun _ => .fail _, fun _ _ _ _ => .fail _⟩
  | succ n ih => exact ih.step

end Rule.ReadAlike

/-- The statements of tokens that are alike are the same apart from lines. -/
lemma statementsFrom_alike (n fuel : Nat) {c c' : Cursor} (alike : c.Alike c') :
    Same blockWithoutLines (statementsFrom n fuel c).1 (statementsFrom n fuel c').1 ∧
      Option.Rel Failure.Alike (statementsFrom n fuel c).2 (statementsFrom n fuel c').2 := by
  induction fuel generalizing c c' with
  | zero => exact ⟨rfl, .none⟩
  | succ fuel ih =>
    have empty {l l' : List Token} (h : List.Forall₂ Token.Alike l l') :
        l'.isEmpty = l.isEmpty := by
      cases h <;> rfl
    have first := (ReadAlike.parseWith n).rule .statement c c' alike
    unfold statementsFrom
    rw [empty alike.rest]
    split
    · exact ⟨rfl, .none⟩
    · generalize Rule.parseWith n .statement c = result, Rule.parseWith n .statement c' = result'
        at first
      cases first with
      | error fails => exact ⟨rfl, .some fails⟩
      | ok same behind =>
        obtain ⟨others, fails⟩ := ih behind
        exact ⟨congrArg₂ List.cons same others, fails⟩

/-- Tokens that are alike are read as programs that are the same apart from lines, or not at all and
fail alike. -/
inductive ParsedAlike : (result result' : Except Failure Program) → Prop where
  | ok {p p' : Program} : Same blockWithoutLines p p' → ParsedAlike (.ok p) (.ok p')
  | error {e e' : Failure} : e.Alike e' → ParsedAlike (.error e) (.error e')

/-- Tokens that are alike are read alike. -/
lemma parseTokens_alike {ts ts' : List Token} (alike : List.Forall₂ Token.Alike ts ts') :
    ParsedAlike (parseTokens ts) (parseTokens ts') := by
  have cursor : Cursor.Alike ⟨ts, 0⟩ ⟨ts', 0⟩ := ⟨alike, rfl⟩
  obtain ⟨same, fails⟩ := statementsFrom_alike (bound ts.length) ts.length cursor
  unfold parseTokens statementsOf
  rw [← alike.length_eq]
  generalize statementsFrom _ _ ⟨ts, 0⟩ = result, statementsFrom _ _ ⟨ts', 0⟩ = result'
    at same fails
  obtain ⟨p, failure⟩ := result
  obtain ⟨p', failure'⟩ := result'
  cases fails with
  | none => exact .ok same
  | some fails => exact .error fails

/-- What scripts with these tokens are read as: programs that are the same apart from lines, or
errors with the same cause, at the tokens with the same number or at the ends. -/
inductive SameReading (ts ts' : List Token) :
    (reading reading' : Except SyntaxError Program) → Prop where
  | program {p p' : Program} : blockWithoutLines p' = blockWithoutLines p →
    SameReading ts ts' (.ok p) (.ok p')
  | atToken {cause : Malformation} {number : Nat} {found found' : Token} :
    ts[number]? = some found → ts'[number]? = some found' →
    SameReading ts ts' (.error (.atToken cause found)) (.error (.atToken cause found'))
  | atEnd {cause : Malformation} {stop stop' : Position} :
    SameReading ts ts' (.error (.atEnd cause stop)) (.error (.atEnd cause stop'))

/-- Failures at tokens that are alike are errors at tokens of the same number. -/
lemma SameReading.failure {ts ts' : List Token} {e e' : Failure} (fails : e.Alike e')
    (suffix : e.rest <:+ ts) (suffix' : e'.rest <:+ ts') (length : ts'.length = ts.length)
    (stop stop' : Position) :
    SameReading ts ts' (.error (.ofFailure stop e)) (.error (.ofFailure stop' e')) := by
  obtain ⟨cause, rest⟩ := e
  obtain ⟨cause', rest'⟩ := e'
  obtain ⟨rfl, alike⟩ := fails
  cases alike with
  | nil => exact .atEnd
  | cons _ others =>
    obtain ⟨before, rfl⟩ := suffix
    obtain ⟨before', rfl⟩ := suffix'
    have same := others.length_eq
    simp only [List.length_append, List.length_cons] at length
    have number : before'.length = before.length := by omega
    have standing (before : List Token) (t : Token) (rest : List Token) :
        (before ++ t :: rest)[before.length]? = some t := by simp
    exact .atToken (standing before _ _) (number ▸ standing before' _ _)

/-- The layout of a script does not matter. If a script consists of tokens, another one that has
gaps before, between and behind them instead of what stood there consists of the same tokens, and it
is read as the same program apart from lines, or has the same error at the same token. -/
theorem layout_is_insignificant {source : String} {first : List Char}
    {tokens : List (Token × List Char)} (tokenized : tokenize source = .ok (tokens.map (·.1)))
    (before : first ∈ Token.gap) (between : ∀ t ∈ tokens, t.2 ∈ Token.gap) :
    ∃ found, tokenize (String.ofList (first ++ Token.spaced tokens)) = .ok found ∧
      found.map Token.content = tokens.map (·.1.content) ∧
      SameReading (tokens.map (·.1)) found (parse source)
        (parse (String.ofList (first ++ Token.spaced tokens))) := by
  obtain ⟨found, retokenized, same⟩ := Token.tokenize_spaced tokenized before between
  have alike : List.Forall₂ Token.Alike (tokens.map (·.1)) found := by
    refine forall₂_alike (same.trans ?_)
    rw [List.map_map]
    rfl
  refine ⟨found, retokenized, same, ?_⟩
  have parsed := parseTokens_alike alike
  unfold parse
  rw [tokenized, retokenized]
  change SameReading _ _ ((parseTokens _).mapError _) ((parseTokens _).mapError _)
  generalize result : parseTokens (tokens.map (·.1)) = r, result' : parseTokens found = r' at parsed
  cases parsed with
  | ok same => exact .program same
  | error fails =>
    exact .failure fails (suffix_of_parseTokens result) (suffix_of_parseTokens result')
      alike.length_eq.symm _ _

/-- A name less one, written without gaps. -/
def dense : List (Token × List Char) := [
  (⟨.name, "n", ⟨1, 1⟩⟩, " ".toList),
  (⟨.minus, "-", ⟨1, 2⟩⟩, "; --a\n".toList),
  (⟨.number, "1", ⟨1, 3⟩⟩, "\n".toList)]

/-- The tokens are read the same with gaps between them. -/
theorem dense_is_read_with_gaps :
    tokenize "n-1" = .ok (dense.map (·.1)) ∧ "\n".toList ∈ Token.gap ∧
    (∀ t ∈ dense, t.2 ∈ Token.gap) ∧
    ∃ found, tokenize (String.ofList ("\n".toList ++ Token.spaced dense)) = .ok found ∧
      found.map Token.content = dense.map (·.1.content) ∧
      SameReading (dense.map (·.1)) found (parse "n-1")
        (parse (String.ofList ("\n".toList ++ Token.spaced dense))) := by
  have tokenized : tokenize "n-1" = .ok (dense.map (·.1)) := rfl
  have blank (c : Char) (h : Token.isSeparator c = true) : [c] ∈ Token.gap :=
    Token.mem_oneOf_mul.2 ⟨c, [], h, Language.nil_mem_kstar _, rfl⟩
  have comment : "; --a\n".toList ∈ Token.gap := by
    have mem : "--a".toList ∈ Token.Terminal.comment.language :=
      Token.Terminal.mem_comment.2 ⟨['a'], by simp, rfl⟩
    have filler : " --a\n".toList ∈
        (Token.oneOf Token.isSeparator + Token.Terminal.comment.language * {['\n']})∗ := by
      refine Language.mem_kstar.2 ⟨[[' '], "--a\n".toList], rfl, ?_⟩
      simp only [List.forall_mem_cons]
      exact ⟨.inl ⟨' ', rfl, rfl⟩, .inr ⟨_, mem, _, rfl, rfl⟩, nofun⟩
    exact Token.mem_oneOf_mul.2 ⟨';', _, rfl, filler, rfl⟩
  have between : ∀ t ∈ dense, t.2 ∈ Token.gap := by
    simp only [dense, List.forall_mem_cons]
    exact ⟨blank ' ' rfl, comment, blank '\n' rfl, nofun⟩
  have before := blank '\n' rfl
  exact ⟨tokenized, before, between, layout_is_insignificant tokenized before between⟩

end ScriptLang
