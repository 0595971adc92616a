import Mathlib.Tactic.Common
import ScriptLang.Program.Reader

/-!
# Two runs of a rule

Many facts about the rules compare two runs, with different bounds, at different cursors or inside
different loops. They all have one shape: a relation between parsers that holds of the parts of the
rules holds of the rules. `Congruence` lists what is asked of the parts, and `Congruence.step` draws
the conclusion for one step of them.
-/

namespace ScriptLang
open ScriptLang.Parser ScriptLang.Rule

/-- A relation between parsers that holds of what the rules are made of. The first rule looks two
tokens ahead, so what it asks for is left to `Congruence.step`. -/
structure Congruence (Sim : {α : Type} → Parser α → Parser α → Prop) : Prop where
  pure {α : Type} (a : α) : Sim (pure a : Parser α) (pure a)
  bind {α β : Type} {p p' : Parser α} {f f' : α → Parser β} :
    Sim p p' → (∀ a, Sim (f a) (f' a)) → Sim (p >>= f) (p' >>= f')
  peek : Sim peek peek
  advance : Sim advance advance
  fail {α : Type} (cause : Malformation) : Sim (fail cause : Parser α) (fail cause)
  jump : Sim readJump readJump
  inLoop {α : Type} {p p' : Parser α} : Sim p p' → Sim (inLoop p) (inLoop p')
  outsideLoops {α : Type} {p p' : Parser α} : Sim p p' → Sim (outsideLoops p) (outsideLoops p')

namespace Congruence
variable {Sim : {α : Type} → Parser α → Parser α → Prop} (C : Congruence Sim)
include C

/-- The relation holds of a look at the kind of the next token. -/
lemma peekKind : Sim peekKind peekKind :=
  C.bind C.peek fun _ => C.pure _

/-- The relation holds where a token is expected. -/
lemma expect (kind : Token.Kind) : Sim (expect kind) (expect kind) := by
  refine C.bind C.peek fun found => ?_
  cases found with
  | none => exact C.fail _
  | some token =>
    dsimp only
    split
    · exact C.bind C.advance fun _ => C.pure _
    · exact C.fail _

/-- The relation holds whatever becomes of the result. -/
lemma discard {α : Type} {p p' : Parser α} (h : Sim p p') :
    Sim (discard p : Parser Unit) (discard p') :=
  C.bind h fun _ => C.pure _

/-- The relation holds where a list is not closed. -/
lemma failToClose {α : Type} (closing : Option Token.Kind) :
    Sim (failToClose closing : Parser α) (failToClose closing) := by
  cases closing <;> exact C.fail _

/-- The relation holds where a list is closed. -/
lemma close (closing : Option Token.Kind) : Sim (close closing) (close closing) := by
  cases closing with
  | some kind => exact C.discard (C.expect kind)
  | none =>
    refine C.bind C.peek fun found => ?_
    split
    · exact C.failToClose none
    · exact C.pure _

/-- The relation holds of separators. -/
lemma separator (closing : Option Token.Kind) :
    Sim (separator closing) (separator closing) := by
  refine C.bind C.peekKind fun kind => ?_
  split
  · exact C.advance
  · split
    · exact C.failToClose closing
    · exact C.pure _

variable {read read' : Readers} (R : ∀ {α : Type} (rule : Rule α), Sim (read rule) (read' rule))
include R

/-- The relation holds of statements if it does of the look at the second token. -/
lemma readStatement (second : Sim peekSecondKind peekSecondKind) :
    Sim (readStatement read) (readStatement read') := by
  refine C.bind C.peek fun found => ?_
  cases found with
  | none => exact C.fail _
  | some token =>
    refine C.bind second fun kind => ?_
    split
    any_goals exact R _
    split
    · exact R _
    · exact C.bind (R _) fun _ => C.pure _

/-- The relation holds of declarations. -/
lemma readDeclaration : Sim (readDeclaration read) (readDeclaration read') :=
  C.bind (C.expect _) fun _ => C.bind (C.expect _) fun _ =>
    C.bind (C.discard (C.expect _)) fun _ => C.bind (R _) fun _ => C.pure _

/-- The relation holds of definitions. -/
lemma readDefinition : Sim (readDefinition read) (readDefinition read') :=
  C.bind (C.expect _) fun _ => C.bind (C.expect _) fun _ =>
    C.bind (R _) fun _ => C.bind (R _) fun _ => C.pure _

/-- The relation holds of conditionals. -/
lemma readConditional : Sim (readConditional read) (readConditional read') := by
  refine C.bind C.peek fun found => ?_
  cases found with
  | none => exact C.fail _
  | some first =>
    dsimp only
    split
    · exact C.fail _
    · refine C.bind C.advance fun _ => C.bind (R _) fun _ => C.bind (R _) fun _ => ?_
      refine C.bind C.peekKind fun kind => ?_
      split
      · exact C.bind (R _) fun _ => C.pure _
      · split
        · exact C.bind C.advance fun _ => C.bind (R _) fun _ => C.pure _
        · exact C.pure _

/-- The relation holds of loops. -/
lemma readLoop : Sim (readLoop read) (readLoop read') := by
  refine C.bind (C.expect _) fun first => C.bind C.peekKind fun kind => ?_
  split
  · refine C.bind C.advance fun _ => C.bind (C.discard (C.expect _)) fun _ => ?_
    refine C.bind (C.expect _) fun _ => C.bind (C.discard (C.expect _)) fun _ => ?_
    refine C.bind (R _) fun _ => C.bind (C.discard (C.expect _)) fun _ => ?_
    exact C.bind (C.inLoop (R _)) fun _ => C.pure _
  · exact C.bind (C.inLoop (R _)) fun _ => C.pure _

/-- The relation holds of returns. -/
lemma readReturning : Sim (readReturning read) (readReturning read') := by
  refine C.bind (C.expect _) fun first => C.bind C.peekKind fun kind => ?_
  split
  · exact C.bind (R _) fun _ => C.pure _
  · exact C.pure _

/-- The relation holds of blocks. -/
lemma readBlock : Sim (readBlock read) (readBlock read') :=
  C.bind (C.discard (C.expect _)) fun _ => C.bind (R _) fun _ =>
    C.bind (C.discard (C.expect _)) fun _ => C.pure _

/-- The relation holds of the statements of a block. -/
lemma readStatements : Sim (readStatements read) (readStatements read') := by
  refine C.bind C.peekKind fun kind => ?_
  split
  · exact C.pure _
  · exact C.bind (R _) fun _ => C.bind (R _) fun _ => C.pure _

/-- The relation holds of parameters. -/
lemma readParameters : Sim (readParameters read) (readParameters read') :=
  C.bind (C.discard (C.expect _)) fun _ => C.bind (R _) fun _ =>
    C.bind (C.discard (C.expect _)) fun _ => C.pure _

/-- The relation holds of the names of parameters. -/
lemma readParameterNames : Sim (readParameterNames read) (readParameterNames read') := by
  refine C.bind C.peekKind fun kind => ?_
  split
  · exact C.pure _
  · exact C.bind (C.expect _) fun _ => C.bind (C.separator _) fun _ =>
      C.bind (R _) fun _ => C.pure _

/-- The relation holds of expressions. -/
lemma readExpression (level : Precedence) :
    Sim (readExpression read level) (readExpression read' level) :=
  C.bind (R _) fun _ => R _

/-- The relation holds of what expressions go on with. -/
lemma readContinuation (level : Precedence) (left : Expression) :
    Sim (readContinuation read level left) (readContinuation read' level left) := by
  refine C.bind C.peekKind fun found => ?_
  cases found with
  | none => exact C.pure _
  | some kind =>
    dsimp only
    split
    · exact C.pure _
    split
    · exact C.bind C.advance fun _ => C.bind (R _) fun _ => R _
    · exact C.bind C.advance fun _ => C.bind (C.expect _) fun _ => R _
    · exact C.bind C.advance fun _ => C.bind (R _) fun _ =>
        C.bind (C.discard (C.expect _)) fun _ => R _
    · split
      · exact C.bind C.advance fun _ => C.bind (R _) fun _ => R _
      · exact C.fail _
    · split
      · exact C.bind C.advance fun _ => C.bind (R _) fun _ => R _
      · exact C.pure _

/-- The relation holds of leaves. -/
lemma readLeaf : Sim (readLeaf read) (readLeaf read') := by
  refine C.bind C.peek fun found => ?_
  cases found with
  | none => exact C.fail _
  | some token =>
    dsimp only
    split
    iterate 5 exact C.bind C.advance fun _ => C.pure _
    · exact C.bind C.advance fun _ => C.bind (R _) fun _ => C.bind (R _) fun _ => C.pure _
    iterate 3 exact C.bind C.advance fun _ => C.bind (R _) fun _ => C.pure _
    · exact C.bind C.advance fun _ => C.bind (R _) fun _ =>
        C.bind (C.discard (C.expect _)) fun _ => C.pure _
    · exact C.fail _

/-- The relation holds of sequences. -/
lemma readSequence (closing : Option Token.Kind) :
    Sim (readSequence read closing) (readSequence read' closing) :=
  C.bind (R _) fun _ => C.bind (C.close closing) fun _ => C.pure _

/-- The relation holds of the items of a sequence. -/
lemma readItems (closing : Option Token.Kind) :
    Sim (readItems read closing) (readItems read' closing) := by
  refine C.bind C.peekKind fun kind => ?_
  split
  · exact C.pure _
  · exact C.bind (R _) fun _ => C.bind (C.separator closing) fun _ =>
      C.bind (R _) fun _ => C.pure _

/-- One step of the rules respects what their parts respect. -/
lemma step (S : Sim (Rule.readStatement read) (Rule.readStatement read')) {α : Type}
    (rule : Rule α) : Sim (step read rule) (step read' rule) := by
  cases rule with
  | statement => exact S
  | declaration => exact C.readDeclaration R
  | definition => exact C.readDefinition R
  | conditional => exact C.readConditional R
  | loop => exact C.readLoop R
  | returning => exact C.readReturning R
  | jump => exact C.jump
  | block => exact C.readBlock R
  | statements => exact C.readStatements R
  | functionBody => exact C.outsideLoops (R _)
  | parameters => exact C.readParameters R
  | parameterNames => exact C.readParameterNames R
  | expression level => exact C.readExpression R level
  | continuation level left => exact C.readContinuation R level left
  | leaf => exact C.readLeaf R
  | sequence closing => exact C.readSequence R closing
  | items closing => exact C.readItems R closing

end Congruence

end ScriptLang
