import ScriptLang.Proofs.Grammar.Script
import ScriptLang.Proofs.Program.Conventions

/-!
# What is read is well formed

The grammar has no words for the stranger trees: only names are assigned to, every node is of a
known kind, and a jump is read only inside a loop of the same function. So every program that is
accepted keeps to `Conventions.wellFormed` and to all that asks for less.
-/

namespace ScriptLang
open Rule (statementAt)

/-- Nodes that are well formed are allowed, and statements that also are on some line. -/
structure Conventions.AllowsWellFormed (c : Conventions) : Prop where
  expression {e : Expression} : Conventions.wellFormed.expression e → c.expression e
  statement {inLoop : Bool} {token : Token} {form : Form} :
    Conventions.wellFormed.statement inLoop (statementAt token form) →
    c.statement inLoop (statementAt token form)

/-- The convention of being well formed allows what is well formed. -/
lemma Conventions.wellFormed_allowsWellFormed : Conventions.wellFormed.AllowsWellFormed := ⟨id, id⟩

/-- Assignments are to names wherever trees are well formed. -/
lemma Conventions.namedTargets_allowsWellFormed : Conventions.namedTargets.AllowsWellFormed :=
  ⟨And.right, fun _ => trivial⟩

/-- The trees of a phrase obey. -/
def Phrase.Obeys (c : Conventions) (inLoop : Bool) : Phrase → Prop
  | operand _ e | expression e => e.Obeys c
  | elements es => Expression.AllObey c es
  | statement s | conditional _ s => s.Obeys c inLoop
  | alternative none => True
  | alternative (some b) | block b | statements b => Statement.AllObey c inLoop b

section
variable {c : Conventions} (C : c.AllowsWellFormed)
include C

namespace Conventions.AllowsWellFormed

/-- An expression of a known kind that is no assignment is allowed. -/
lemma plain {e : Expression} (known : e ≠ .unknown) (h : ∀ target value, e ≠ .assign target value) :
    c.expression e :=
  C.expression ⟨known, fun target value eq => absurd eq (h target value)⟩

/-- Assignments to names are allowed. -/
lemma assign (name : String) (value : Expression) :
    c.expression (.assign (.identifier name) value) := by
  refine C.expression ⟨nofun, fun target value' eq => ?_⟩
  cases eq
  exact ⟨name, rfl⟩

/-- A statement of a known kind that is no jump is allowed everywhere. -/
lemma still {inLoop : Bool} (token : Token) {form : Form} (known : form ≠ .unknown)
    (h : form ≠ .breakLoop) (h' : form ≠ .continueLoop) :
    c.statement inLoop (statementAt token form) :=
  C.statement ⟨known, fun jump => by
    obtain e | e := jump
    · exact absurd e h
    · exact absurd e h'⟩

/-- A jump is allowed inside a loop. -/
lemma jump (token : Token) {form : Form} (known : form ≠ .unknown) :
    c.statement true (statementAt token form) :=
  C.statement ⟨known, fun _ => rfl⟩

end Conventions.AllowsWellFormed

/-- What tokens are read as obeys. -/
lemma Derives.obeys {inLoop : Bool} {ph : Phrase} {ts : List Token} (h : Derives inLoop ph ts) :
    ph.Obeys c inLoop := by
  induction h with
  | bare _ _ ih => exact ih
  | grouped _ _ _ ih => exact ih
  | number | string | trueWord | falseWord | identifier => exact C.plain nofun nofun
  | function _ _ _ ih => exact ⟨C.plain nofun nofun, ih⟩
  | list _ _ _ ih => exact ⟨C.plain nofun nofun, ih⟩
  | unary _ _ ih => exact ⟨C.plain nofun nofun, ih⟩
  | binary _ _ _ ihl ihr => exact ⟨C.plain nofun nofun, ihl, ihr⟩
  | assign _ _ _ iht ihv => exact ⟨C.assign _ _, iht, ihv⟩
  | call _ _ _ _ iht iha => exact ⟨C.plain nofun nofun, iht, iha⟩
  | member _ _ _ ih => exact ⟨C.plain nofun nofun, ih⟩
  | index _ _ _ _ iht ihp => exact ⟨C.plain nofun nofun, iht, ihp⟩
  | noElements => trivial
  | lastElement _ ih => exact ⟨ih, trivial⟩
  | moreElements _ _ _ ih ihs => exact ⟨ih, ihs⟩
  | declare _ _ _ _ ih => exact ⟨C.still _ nofun nofun nofun, ih⟩
  | define _ _ _ _ ih => exact ⟨C.still _ nofun nofun nofun, ih⟩
  | branch _ ih => exact ih
  | @conditional _ _ _ _ alternative _ _ _ _ _ _ _ _ ihc ihb iha =>
    cases alternative with
    | none => exact ⟨C.still _ nofun nofun nofun, ihc, ihb⟩
    | some => exact ⟨C.still _ nofun nofun nofun, ihc, ihb, iha⟩
  | noAlternative => trivial
  | chained _ ih => exact ⟨ih, trivial⟩
  | otherwise _ _ ih => exact ih
  | loop _ _ ih => exact ⟨C.still _ nofun nofun nofun, ih⟩
  | loopOver _ _ _ _ _ _ _ _ ihi ihb => exact ⟨C.still _ nofun nofun nofun, ihi, ihb⟩
  | returns _ _ ih => exact ⟨C.still _ nofun nofun nofun, ih⟩
  | returnsNothing => exact ⟨C.still _ nofun nofun nofun, trivial⟩
  | breakLoop => exact ⟨C.jump _ nofun, trivial⟩
  | continueLoop => exact ⟨C.jump _ nofun, trivial⟩
  | evaluate _ ih => exact ⟨C.still _ nofun nofun nofun, ih⟩
  | block _ _ _ ih => exact ih
  | noStatements => trivial
  | moreStatements _ _ _ ih ihs => exact ⟨ih, ihs⟩

/-- A program that is accepted obeys. -/
lemma obeys_of_parseTokens {ts : List Token} {p : Program} (h : parseTokens ts = .ok p) :
    Statement.AllObey c false p :=
  (statementsOf_eq_iff.1 (parseTokens_eq_ok_iff.1 h)).obeys C

/-- A script that was read obeys every convention that allows what is well formed. -/
lemma obeys_of_parse {source : String} {p : Program} (h : parse source = .ok p) :
    Statement.AllObey c false p := by
  rw [parse_eq] at h
  split at h
  · cases h
  · split at h
    case h_1 => cases h
    case h_2 result =>
      cases h
      exact obeys_of_parseTokens C result

end

end ScriptLang
