import ScriptLang.Proofs.Grammar.Congruence

/-!
# Rules without bounds

The rules are read with a bound on how deeply they call one another. `parseWith_mono` says that a
larger bound changes no result that came without reaching the smaller one, and `Ends.parseWith` that
a bound linear in the number of tokens is never reached, since between two tokens only a few rules
call one another. Together they give `parse_eq_step`: read with `Rule.parse`, a rule takes the step
of its definition with `Rule.parse` for the rules it calls, and no bound is left.
-/

namespace ScriptLang
open ScriptLang.Parser ScriptLang.Rule

/-- The jump that a keyword stands for. -/
def Token.Kind.jump? : Kind → Option Form
  | breakWord => some .breakLoop
  | continueWord => some .continueLoop
  | _ => none

namespace Parser

/-- Behind a result the next parser goes on. -/
lemma bind_of_ok {α β : Type} {p : Parser α} {f : α → Parser β} {c c' : Cursor} {a : α}
    (h : p c = .ok a c') : (p >>= f) c = f a c' := by
  change EStateM.bind p f c = f a c'
  simp only [EStateM.bind, h]

/-- Behind a failure nothing is read. -/
lemma bind_of_error {α β : Type} {p : Parser α} {f : α → Parser β} {c c' : Cursor} {e : Failure}
    (h : p c = .error e c') : (p >>= f) c = .error e c' := by
  change EStateM.bind p f c = .error e c'
  simp only [EStateM.bind, h]

/-- What is dropped does not lead on. -/
lemma discard_bind {α β : Type} {p : Parser α} {f : Unit → Parser β} :
    (discard p >>= f) = (p >>= fun _ => f ()) := by
  funext c
  change EStateM.bind (EStateM.bind p _) f c = EStateM.bind p _ c
  unfold EStateM.bind
  cases p c <;> rfl

/-- A token of the kind that is expected is read. -/
lemma expect_of_eq {kind : Token.Kind} {token : Token} {rest : List Token} {d : Nat}
    (h : token.kind = kind) : expect kind ⟨token :: rest, d⟩ = .ok token ⟨rest, d⟩ := by
  change (if token.kind = kind then (do advance; return token) else _ : Parser Token) _ = _
  rw [if_pos h]
  rfl

/-- A token of another kind is a failure. -/
lemma expect_of_ne {kind : Token.Kind} {rest : List Token} {d : Nat}
    (h : ∀ token ∈ rest.head?, token.kind ≠ kind) :
    expect kind ⟨rest, d⟩ = .error ⟨.unexpected kind, rest⟩ ⟨rest, d⟩ := by
  cases rest with
  | nil => rfl
  | cons token rest =>
    change (if token.kind = kind then _ else fail (.unexpected kind) : Parser Token) _ = _
    rw [if_neg (h token rfl)]
    rfl

/-- A comma is read as a separator. -/
lemma separator_of_comma {closing : Option Token.Kind} {token : Token} {rest : List Token}
    {d : Nat} (h : token.kind = .comma) :
    separator closing ⟨token :: rest, d⟩ = .ok () ⟨rest, d⟩ := by
  change (if some token.kind = some .comma then advance else _ : Parser Unit) _ = _
  rw [if_pos (congrArg some h)]
  rfl

/-- What closes the list is left to be read. -/
lemma separator_of_eq {kind : Token.Kind} {rest : List Token} {d : Nat}
    (hc : kind ≠ .comma) (h : rest.head?.map (·.kind) = some kind) :
    separator (some kind) ⟨rest, d⟩ = .ok () ⟨rest, d⟩ := by
  change (if rest.head?.map (·.kind) = some .comma then _ else
    if rest.head?.map (·.kind) ≠ some kind then _ else pure () : Parser Unit) _ = _
  rw [h, if_neg (by simpa using hc), if_neg (by simp)]
  rfl

/-- Where neither a comma nor the closing token follows, the list fails to close. -/
lemma separator_of_ne {kind : Token.Kind} {rest : List Token} {d : Nat}
    (hc : rest.head?.map (·.kind) ≠ some .comma) (h : rest.head?.map (·.kind) ≠ some kind) :
    separator (some kind) ⟨rest, d⟩ = .error ⟨.unexpected kind, rest⟩ ⟨rest, d⟩ := by
  change (if rest.head?.map (·.kind) = some .comma then _ else
    if rest.head?.map (·.kind) ≠ some kind then _ else pure () : Parser Unit) _ = _
  rw [if_neg hc, if_pos h]
  rfl

/-- A result with another number of loops around the cursor. -/
def withDepth {α : Type} (f : Nat → Nat) :
    EStateM.Result Failure Cursor α → EStateM.Result Failure Cursor α
  | .ok a c => .ok a { c with loopDepth := f c.loopDepth }
  | .error e c => .error e { c with loopDepth := f c.loopDepth }

/-- One more loop is counted during a run. -/
lemma inLoop_apply {α : Type} (p : Parser α) (c : Cursor) :
    inLoop p c = withDepth (· - 1) (p { c with loopDepth := c.loopDepth + 1 }) := by
  unfold inLoop
  cases p { c with loopDepth := c.loopDepth + 1 } <;> rfl

/-- No loop is counted during a run. -/
lemma outsideLoops_apply {α : Type} (p : Parser α) (c : Cursor) :
    outsideLoops p c = withDepth (fun _ => c.loopDepth) (p { c with loopDepth := 0 }) := by
  unfold outsideLoops
  cases p { c with loopDepth := 0 } <;> rfl

/-- The bound on rules that call one another was reached. -/
def Exhausted {α : Type} (p : Parser α) (c : Cursor) : Prop :=
  ∃ rest c', p c = .error ⟨.exhausted, rest⟩ c'

/-- Behind a part that reached the bound nothing is read. -/
lemma Exhausted.bind {α β : Type} {p : Parser α} {f : α → Parser β} {c : Cursor}
    (h : Exhausted p c) : Exhausted (p >>= f) c := by
  obtain ⟨rest, c', e⟩ := h
  exact ⟨rest, c', bind_of_error e⟩

/-- The number of loops does not matter to the bound. -/
lemma Exhausted.withDepth {α : Type} {p p' : Parser α} {c c' : Cursor} {f : Nat → Nat}
    (e : p' c' = withDepth f (p c)) (h : Exhausted p c) : Exhausted p' c' := by
  obtain ⟨rest, c₁, h⟩ := h
  exact ⟨rest, _, e.trans (congrArg (Parser.withDepth f) h)⟩

/-- Wherever the first parser gets by with its bound, the second does the same. -/
def Refines {α : Type} (p p' : Parser α) : Prop := ∀ c, Exhausted p c ∨ p' c = p c

/-- Every parser does the same as itself. -/
lemma Refines.refl {α : Type} (p : Parser α) : Refines p p := fun _ => .inr rfl

/-- What the rules are made of gets by wherever its parts do. -/
lemma Refines.congruence : Congruence Refines where
  pure _ := .refl _
  peek := .refl _
  advance := .refl _
  fail _ := .refl _
  jump := .refl _
  bind {α β p p' f f'} hp hf c := by
    rcases hp c with h | h
    · exact .inl h.bind
    · cases e : p c with
      | ok a c' =>
        have e' : p' c = .ok a c' := h.trans e
        simpa only [Exhausted, bind_of_ok e, bind_of_ok e'] using hf a c'
      | error e₀ c' =>
        have e' : p' c = .error e₀ c' := h.trans e
        exact .inr ((bind_of_error e').trans (bind_of_error e).symm)
  inLoop h c := by
    rcases h { c with loopDepth := c.loopDepth + 1 } with h | h
    · exact .inl (h.withDepth (inLoop_apply _ c))
    · right
      rw [inLoop_apply, inLoop_apply, h]
  outsideLoops h c := by
    rcases h { c with loopDepth := 0 } with h | h
    · exact .inl (h.withDepth (outsideLoops_apply _ c))
    · right
      rw [outsideLoops_apply, outsideLoops_apply, h]

end Parser

namespace Rule

/-- A rule gets by wherever the rules it calls do. -/
lemma refines_step {read read' : Readers}
    (h : ∀ {α : Type} (rule : Rule α), Refines (read rule) (read' rule)) {α : Type}
    (rule : Rule α) : Refines (step read rule) (step read' rule) :=
  Refines.congruence.step h (Refines.congruence.readStatement h (.refl _)) rule

/-- A larger bound changes no result that came without reaching the smaller one. -/
theorem parseWith_mono {n m : Nat} (le : n ≤ m) {α : Type} (rule : Rule α) :
    Refines (parseWith n rule) (parseWith m rule) := by
  induction n generalizing m α with
  | zero => exact fun c => .inl ⟨c.rest, c, rfl⟩
  | succ n ih =>
    obtain ⟨m, rfl⟩ : ∃ k, m = k + 1 := ⟨m - 1, by omega⟩
    exact refines_step (ih (by omega)) rule

/-- How deeply rules may call one another before one of them reads a token. -/
def depth {α : Type} : Rule α → Nat
  | expression _ | functionBody => 2
  | statement | items _ => 3
  | statements | sequence _ => 4
  | _ => 1

/-- At most four rules call one another before a token is read. -/
lemma depth_le {α : Type} (rule : Rule α) : rule.depth ≤ 4 := by
  cases rule <;> simp [depth]

/-- Inside a loop, a keyword is read as the jump that it stands for. -/
lemma readJump_of_some {token : Token} {form : Form} (h : token.kind.jump? = some form)
    (rest : List Token) (d : Nat) :
    readJump ⟨token :: rest, d + 1⟩ = .ok (statementAt token form) ⟨rest, d + 1⟩ := by
  obtain ⟨kind, text, position⟩ := token
  cases kind <;> cases h <;> rfl

/-- No other keyword is ever read as a jump. -/
lemma readJump_of_none {token : Token} (h : token.kind.jump? = none) (rest : List Token)
    (d : Nat) :
    readJump ⟨token :: rest, d + 1⟩ = .error ⟨.unreachable, token :: rest⟩ ⟨rest, d + 1⟩ := by
  obtain ⟨kind, text, position⟩ := token
  cases kind <;> cases h <;> rfl

/-- Whether a rule may be done without a token. -/
def slack {α : Type} : Rule α → Nat
  | statements | parameterNames | continuation .. | items _ | sequence none => 1
  | _ => 0

end Rule

namespace Parser

/-- The parser comes to an end, and if it succeeds fewer than `n` tokens are left. -/
def Ends {α : Type} (p : Parser α) (c : Cursor) (n : Nat) : Prop :=
  match p c with
  | .ok _ c' => c'.rest.length < n
  | .error e _ => e.cause ≠ .exhausted

namespace Ends

/-- To do nothing ends before the bound. -/
lemma pure {α : Type} {a : α} {c : Cursor} {n : Nat} (h : c.rest.length < n) :
    Ends (pure a) c n := h

/-- Any other failure ends before the bound. -/
lemma of_error {α : Type} {p : Parser α} {c c' : Cursor} {e : Failure} {n : Nat}
    (h : p c = .error e c') (he : e.cause ≠ .exhausted) : Ends p c n := by
  simpa only [Ends, h] using he

/-- Parsers in a row end if both parts do. -/
lemma bind {α β : Type} {p : Parser α} {f : α → Parser β} {c : Cursor} {n k : Nat}
    (hp : Ends p c n) (hf : ∀ a c', c'.rest.length < n → Ends (f a) c' k) :
    Ends (p >>= f) c k := by
  cases e : p c with
  | ok a c' =>
    have lt : c'.rest.length < n := by simpa only [Ends, e] using hp
    simpa only [Ends, bind_of_ok e] using hf a c' lt
  | error e₀ c' => simpa only [Ends, bind_of_error e, e] using hp

/-- A look at the next token leads on with it. -/
lemma peek {α : Type} {f : Option Token → Parser α} {c : Cursor} {n : Nat}
    (h : Ends (f c.rest.head?) c n) : Ends (Parser.peek >>= f) c n := h

/-- A look at the kind of the next token leads on with it. -/
lemma peekKind {α : Type} {f : Option Token.Kind → Parser α} {c : Cursor} {n : Nat}
    (h : Ends (f (c.rest.head?.map (·.kind))) c n) : Ends (Parser.peekKind >>= f) c n := h

/-- A look at the kind of the second token leads on with it. -/
lemma peekSecondKind {α : Type} {f : Option Token.Kind → Parser α} {c : Cursor} {n : Nat}
    (h : Ends (f (c.rest.tail.head?.map (·.kind))) c n) :
    Ends (Parser.peekSecondKind >>= f) c n := h

/-- A move leads on behind the next token. -/
lemma advance {α : Type} {f : Unit → Parser α} {c : Cursor} {n : Nat}
    (h : Ends (f ()) { c with rest := c.rest.tail } n) : Ends (Parser.advance >>= f) c n := h

/-- What leaves few tokens leaves no more than many. -/
lemma mono {α : Type} {p : Parser α} {c : Cursor} {n k : Nat} (h : Ends p c n) (le : n ≤ k) :
    Ends p c k := by
  unfold Ends at *
  split at h
  · exact Nat.lt_of_lt_of_le h le
  · exact h

/-- The number of loops does not matter to the end. -/
lemma withDepth {α : Type} {p p' : Parser α} {c c' : Cursor} {f : Nat → Nat} {n : Nat}
    (e : p' c' = withDepth f (p c)) (h : Ends p c n) : Ends p' c' n := by
  unfold Ends at *
  rw [e]
  generalize p c = result at h
  cases result with
  | ok a c₁ => exact h
  | error e₀ c₁ => exact h

/-- What becomes of the result does not matter to the end. -/
lemma discard {α : Type} {p : Parser α} {c : Cursor} {n : Nat} (h : Ends p c n) :
    Ends (discard p : Parser Unit) c n :=
  bind h fun _ _ lt => pure lt

/-- A token that is expected is one token less. -/
lemma expect (kind : Token.Kind) (c : Cursor) : Ends (expect kind) c c.rest.length := by
  obtain ⟨rest, depth⟩ := c
  by_cases h : ∃ token ∈ rest.head?, token.kind = kind
  · obtain ⟨token, ht, h⟩ := h
    obtain ⟨rest, rfl⟩ := List.head?_eq_some_iff.1 ht
    simp [Ends, expect_of_eq h]
  · exact of_error (expect_of_ne (by simpa using h)) (by simp)

/-- What closes a list is one token less, if there is such a token. -/
lemma close (closing : Option Token.Kind) (c : Cursor) :
    Ends (close closing) c (c.rest.length + slack (sequence closing)) := by
  obtain ⟨rest, depth⟩ := c
  cases closing with
  | some kind => exact discard (expect kind _)
  | none =>
    cases rest with
    | nil => exact Nat.lt_succ_self _
    | cons token rest => exact of_error rfl (by simp)

/-- A separator leaves no more tokens than there were. -/
lemma separator (closing : Option Token.Kind) (c : Cursor) :
    Ends (separator closing) c (c.rest.length + 1) := by
  apply peekKind
  split
  · change c.rest.tail.length < _
    rw [List.length_tail]
    omega
  · split
    · cases closing <;> exact of_error rfl (by simp)
    · exact pure (Nat.lt_succ_self _)

-- A token is worth 8, which is more than the rules before the next one can use up (`depth_le`).
variable {read : Readers} {N : Nat}
  (R : ∀ {α : Type} (rule : Rule α) (c : Cursor), 8 * c.rest.length + rule.depth ≤ N →
    Ends (read rule) c (c.rest.length + rule.slack))
include R

/-- Reading by another rule as the next thing to do. -/
lemma read_bind {α β : Type} {rule : Rule α} {f : α → Parser β} {c : Cursor} {n : Nat}
    (le : 8 * c.rest.length + rule.depth ≤ N)
    (hf : ∀ a c', c'.rest.length < c.rest.length + rule.slack → Ends (f a) c' n) :
    Ends (read rule >>= f) c n :=
  bind (R rule c le) hf

/-- Statements end if the rules they are read by do. -/
lemma readStatement {c : Cursor} (le : 8 * c.rest.length + statement.depth ≤ N + 1) :
    Ends (readStatement read) c (c.rest.length + statement.slack) := by
  obtain ⟨rest, d⟩ := c
  dsimp only [Rule.depth, Rule.slack] at le ⊢
  cases rest with
  | nil => exact of_error rfl (by simp)
  | cons token rest =>
    refine peek (peekSecondKind ?_)
    dsimp only [List.head?_cons]
    split
    any_goals exact R _ _ (by dsimp only [Rule.depth]; omega)
    split
    · exact R _ _ (by dsimp only [Rule.depth]; omega)
    · apply read_bind R (by dsimp only [Rule.depth]; omega)
      intro e c₁ h₁
      exact pure h₁

/-- Declarations end if the rules they are read by do. -/
lemma readDeclaration {c : Cursor} (le : 8 * c.rest.length + declaration.depth ≤ N + 1) :
    Ends (readDeclaration read) c (c.rest.length + declaration.slack) := by
  dsimp only [Rule.depth, Rule.slack] at le ⊢
  refine bind (expect _ _) fun first c₁ h₁ => bind (expect _ _) fun name c₂ h₂ => ?_
  refine bind (discard (expect _ _)) fun _ c₃ h₃ => ?_
  refine read_bind R (by dsimp only [Rule.depth]; omega) fun value c₄ h₄ => ?_
  dsimp only [Rule.slack] at h₄
  exact pure (by omega)

/-- Definitions end if the rules they are read by do. -/
lemma readDefinition {c : Cursor} (le : 8 * c.rest.length + definition.depth ≤ N + 1) :
    Ends (readDefinition read) c (c.rest.length + definition.slack) := by
  dsimp only [Rule.depth, Rule.slack] at le ⊢
  refine bind (expect _ _) fun first c₁ h₁ => bind (expect _ _) fun name c₂ h₂ => ?_
  refine read_bind R (by dsimp only [Rule.depth]; omega) fun parameters c₃ h₃ => ?_
  dsimp only [Rule.slack] at h₃
  refine read_bind R (by dsimp only [Rule.depth]; omega) fun body c₄ h₄ => ?_
  dsimp only [Rule.slack] at h₄
  exact pure (by omega)

/-- Conditionals end if the rules they are read by do. -/
lemma readConditional {c : Cursor} (le : 8 * c.rest.length + conditional.depth ≤ N + 1) :
    Ends (readConditional read) c (c.rest.length + conditional.slack) := by
  obtain ⟨rest, d⟩ := c
  dsimp only [Rule.depth, Rule.slack] at le ⊢
  cases rest with
  | nil => exact of_error rfl (by simp)
  | cons first rest =>
    apply peek
    dsimp only [List.head?_cons]
    split
    · exact of_error rfl (by simp)
    apply advance
    dsimp only [List.tail_cons]
    rw [List.length_cons] at le ⊢
    apply read_bind R (by dsimp only [Rule.depth]; omega)
    intro condition c₁ h₁
    dsimp only [Rule.slack] at h₁
    apply read_bind R (by dsimp only [Rule.depth]; omega)
    intro consequent c₂ h₂
    dsimp only [Rule.slack] at h₂
    apply peekKind
    split
    · apply read_bind R (by dsimp only [Rule.depth]; omega)
      intro alternative c₃ h₃
      dsimp only [Rule.slack] at h₃
      exact pure (by omega)
    · split
      · apply advance
        apply read_bind R (by dsimp only [Rule.depth]; rw [List.length_tail]; omega)
        intro alternative c₃ h₃
        dsimp only [Rule.slack] at h₃
        rw [List.length_tail] at h₃
        exact pure (by omega)
      · exact pure (by omega)

/-- Loops end if the rules they are read by do. -/
lemma readLoop {c : Cursor} (le : 8 * c.rest.length + loop.depth ≤ N + 1) :
    Ends (readLoop read) c (c.rest.length + loop.slack) := by
  dsimp only [Rule.depth, Rule.slack] at le ⊢
  refine bind (expect _ _) fun first c₁ h₁ => ?_
  have body {name iterable} {c₂ : Cursor} (lt : c₂.rest.length < c.rest.length) :
      Ends (do let body ← Parser.inLoop (read block)
               return statementAt first (.loop body name iterable)) c₂ (c.rest.length + 0) := by
    have inner := R block { c₂ with loopDepth := c₂.loopDepth + 1 }
      (by dsimp only [Rule.depth]; omega)
    refine bind (inner.withDepth (inLoop_apply _ c₂)) fun b c₃ h₃ => ?_
    dsimp only [Rule.slack] at h₃
    exact pure (by omega)
  apply peekKind
  split
  · apply advance
    refine bind (discard (expect _ _)) fun _ c₂ h₂ => bind (expect _ _) fun name c₃ h₃ => ?_
    rw [List.length_tail] at h₂
    refine bind (discard (expect _ _)) fun _ c₄ h₄ => ?_
    apply read_bind R (by dsimp only [Rule.depth]; omega)
    intro iterable c₅ h₅
    dsimp only [Rule.slack] at h₅
    refine bind (discard (expect _ _)) fun _ c₆ h₆ => ?_
    exact body (by omega)
  · exact body h₁

/-- Returns end if the rules they are read by do. -/
lemma readReturning {c : Cursor} (le : 8 * c.rest.length + returning.depth ≤ N + 1) :
    Ends (readReturning read) c (c.rest.length + returning.slack) := by
  dsimp only [Rule.depth, Rule.slack] at le ⊢
  refine bind (expect _ _) fun first c₁ h₁ => ?_
  apply peekKind
  split
  · apply read_bind R (by dsimp only [Rule.depth]; omega)
    intro value c₂ h₂
    dsimp only [Rule.slack] at h₂
    exact pure (by omega)
  · exact pure h₁

omit R in
/-- Jumps end. -/
lemma readJump (c : Cursor) : Ends readJump c (c.rest.length + jump.slack) := by
  obtain ⟨rest, d⟩ := c
  cases d with
  | zero => exact of_error rfl (by simp)
  | succ d =>
    cases rest with
    | nil => exact of_error rfl (by simp)
    | cons token rest =>
      cases h : token.kind.jump? with
      | none => exact of_error (readJump_of_none h rest d) (by simp)
      | some form =>
        unfold Ends
        rw [readJump_of_some h]
        exact Nat.lt_succ_self _

/-- Blocks end if the rules they are read by do. -/
lemma readBlock {c : Cursor} (le : 8 * c.rest.length + block.depth ≤ N + 1) :
    Ends (readBlock read) c (c.rest.length + block.slack) := by
  dsimp only [Rule.depth, Rule.slack] at le ⊢
  refine bind (discard (expect _ _)) fun _ c₁ h₁ => ?_
  apply read_bind R (by dsimp only [Rule.depth]; omega)
  intro b c₂ h₂
  dsimp only [Rule.slack] at h₂
  refine bind (discard (expect _ _)) fun _ c₃ h₃ => ?_
  exact pure (by omega)

/-- The statements of a block end if the rules they are read by do. -/
lemma readStatements {c : Cursor} (le : 8 * c.rest.length + statements.depth ≤ N + 1) :
    Ends (readStatements read) c (c.rest.length + statements.slack) := by
  dsimp only [Rule.depth, Rule.slack] at le ⊢
  apply peekKind
  split
  · exact pure (Nat.lt_succ_self _)
  · apply read_bind R (by dsimp only [Rule.depth]; omega)
    intro first c₁ h₁
    dsimp only [Rule.slack] at h₁
    apply read_bind R (by dsimp only [Rule.depth]; omega)
    intro others c₂ h₂
    dsimp only [Rule.slack] at h₂
    exact pure (by omega)

/-- Parameters end if the rules they are read by do. -/
lemma readParameters {c : Cursor} (le : 8 * c.rest.length + parameters.depth ≤ N + 1) :
    Ends (readParameters read) c (c.rest.length + parameters.slack) := by
  dsimp only [Rule.depth, Rule.slack] at le ⊢
  refine bind (discard (expect _ _)) fun _ c₁ h₁ => ?_
  apply read_bind R (by dsimp only [Rule.depth]; omega)
  intro names c₂ h₂
  dsimp only [Rule.slack] at h₂
  refine bind (discard (expect _ _)) fun _ c₃ h₃ => ?_
  exact pure (by omega)

/-- The names of parameters end if the rules they are read by do. -/
lemma readParameterNames {c : Cursor} (le : 8 * c.rest.length + parameterNames.depth ≤ N + 1) :
    Ends (readParameterNames read) c (c.rest.length + parameterNames.slack) := by
  dsimp only [Rule.depth, Rule.slack] at le ⊢
  apply peekKind
  split
  · exact pure (Nat.lt_succ_self _)
  · refine bind (expect _ _) fun name c₁ h₁ => bind (separator _ _) fun _ c₂ h₂ => ?_
    apply read_bind R (by dsimp only [Rule.depth]; omega)
    intro names c₃ h₃
    dsimp only [Rule.slack] at h₃
    exact pure (by omega)

/-- Expressions end if the rules they are read by do. -/
lemma readExpression {level : Precedence} {c : Cursor}
    (le : 8 * c.rest.length + (expression level).depth ≤ N + 1) :
    Ends (readExpression read level) c (c.rest.length + (expression level).slack) := by
  dsimp only [Rule.depth, Rule.slack] at le ⊢
  apply read_bind R (by dsimp only [Rule.depth]; omega)
  intro left c₁ h₁
  dsimp only [Rule.slack] at h₁
  have h := R (continuation level left) c₁ (by dsimp only [Rule.depth]; omega)
  exact h.mono (by dsimp only [Rule.slack]; omega)

/-- What expressions go on with ends if the rules it is read by do. -/
lemma readContinuation {level : Precedence} {left : Expression} {c : Cursor}
    (le : 8 * c.rest.length + (continuation level left).depth ≤ N + 1) :
    Ends (readContinuation read level left) c
      (c.rest.length + (continuation level left).slack) := by
  obtain ⟨rest, d⟩ := c
  dsimp only [Rule.depth, Rule.slack] at le ⊢
  cases rest with
  | nil => exact Nat.lt_succ_self _
  | cons token rest =>
    rw [List.length_cons] at le ⊢
    -- The same rule goes on behind at least one token, so its depth starts anew.
    have again {left : Expression} {c₁ : Cursor} (lt : c₁.rest.length ≤ rest.length) :
        Ends (read (continuation level left)) c₁ (rest.length + 1 + 1) :=
      (R _ c₁ (by dsimp only [Rule.depth]; omega)).mono (by dsimp only [Rule.slack]; omega)
    apply peekKind
    dsimp only [List.head?_cons, Option.map_some]
    split
    · exact pure (Nat.lt_succ_self _)
    split
    · apply advance
      apply read_bind R (by dsimp only [Rule.depth, List.tail_cons]; omega)
      intro arguments c₁ h₁
      dsimp only [Rule.slack, List.tail_cons] at h₁
      exact again (by omega)
    · apply advance
      refine bind (expect _ _) fun name c₁ h₁ => ?_
      dsimp only [List.tail_cons] at h₁
      exact again (by omega)
    · apply advance
      apply read_bind R (by dsimp only [Rule.depth, List.tail_cons]; omega)
      intro place c₁ h₁
      dsimp only [Rule.slack, List.tail_cons] at h₁
      refine bind (discard (expect _ _)) fun _ c₂ h₂ => ?_
      exact again (by omega)
    · split
      · apply advance
        apply read_bind R (by dsimp only [Rule.depth, List.tail_cons]; omega)
        intro value c₁ h₁
        dsimp only [Rule.slack, List.tail_cons] at h₁
        exact again (by omega)
      · exact of_error rfl (by simp)
    · split
      · apply advance
        apply read_bind R (by dsimp only [Rule.depth, List.tail_cons]; omega)
        intro right c₁ h₁
        dsimp only [Rule.slack, List.tail_cons] at h₁
        exact again (by omega)
      · exact pure (Nat.lt_succ_self _)

/-- Leaves end if the rules they are read by do. -/
lemma readLeaf {c : Cursor} (le : 8 * c.rest.length + leaf.depth ≤ N + 1) :
    Ends (readLeaf read) c (c.rest.length + leaf.slack) := by
  obtain ⟨rest, d⟩ := c
  dsimp only [Rule.depth, Rule.slack] at le ⊢
  cases rest with
  | nil => exact of_error rfl (by simp)
  | cons token rest =>
    rw [List.length_cons] at le ⊢
    have last {α : Type} {rule : Rule α} {f : α → Expression} (hs : rule.slack = 0) :
        Ends (do Parser.advance; return f (← read rule)) ⟨token :: rest, d⟩
          (rest.length + 1 + 0) := by
      have := rule.depth_le
      apply advance
      apply read_bind R (by dsimp only [List.tail_cons]; omega)
      intro a c₁ h₁
      dsimp only [List.tail_cons] at h₁
      exact pure (by omega)
    apply peek
    dsimp only [List.head?_cons]
    split
    iterate 5 exact Nat.lt_succ_self _
    · apply advance
      apply read_bind R (by dsimp only [Rule.depth, List.tail_cons]; omega)
      intro parameters c₁ h₁
      dsimp only [Rule.slack, List.tail_cons] at h₁
      apply read_bind R (by dsimp only [Rule.depth]; omega)
      intro body c₂ h₂
      dsimp only [Rule.slack] at h₂
      exact pure (by omega)
    iterate 3 exact last rfl
    · apply advance
      apply read_bind R (by dsimp only [Rule.depth, List.tail_cons]; omega)
      intro inner c₁ h₁
      dsimp only [Rule.slack, List.tail_cons] at h₁
      refine bind (discard (expect _ _)) fun _ c₂ h₂ => ?_
      exact pure (by omega)
    · exact of_error rfl (by simp)

/-- Sequences end if the rules they are read by do. -/
lemma readSequence {closing : Option Token.Kind} {c : Cursor}
    (le : 8 * c.rest.length + (sequence closing).depth ≤ N + 1) :
    Ends (readSequence read closing) c (c.rest.length + (sequence closing).slack) := by
  apply read_bind R (by dsimp only [Rule.depth] at le ⊢; omega)
  intro es c₁ h₁
  dsimp only [Rule.slack] at h₁
  refine bind (close closing c₁) fun _ c₂ h₂ => ?_
  exact pure (by omega)

/-- The items of a sequence end if the rules they are read by do. -/
lemma readItems {closing : Option Token.Kind} {c : Cursor}
    (le : 8 * c.rest.length + (items closing).depth ≤ N + 1) :
    Ends (readItems read closing) c (c.rest.length + (items closing).slack) := by
  dsimp only [Rule.depth, Rule.slack] at le ⊢
  apply peekKind
  split
  · exact pure (Nat.lt_succ_self _)
  · apply read_bind R (by dsimp only [Rule.depth]; omega)
    intro first c₁ h₁
    dsimp only [Rule.slack] at h₁
    refine bind (separator closing _) fun _ c₂ h₂ => ?_
    apply read_bind R (by dsimp only [Rule.depth]; omega)
    intro es c₃ h₃
    dsimp only [Rule.slack] at h₃
    exact pure (by omega)

/-- A rule ends if the rules it calls do. -/
lemma step {α : Type} (rule : Rule α) (c : Cursor) (le : 8 * c.rest.length + rule.depth ≤ N + 1) :
    Ends (step read rule) c (c.rest.length + rule.slack) := by
  cases rule with
  | statement => exact readStatement R le
  | declaration => exact readDeclaration R le
  | definition => exact readDefinition R le
  | conditional => exact readConditional R le
  | loop => exact readLoop R le
  | returning => exact readReturning R le
  | jump => exact readJump c
  | block => exact readBlock R le
  | statements => exact readStatements R le
  | functionBody =>
    dsimp only [Rule.depth] at le
    have inner := R block { c with loopDepth := 0 } (by dsimp only [Rule.depth]; omega)
    exact inner.withDepth (outsideLoops_apply _ c)
  | parameters => exact readParameters R le
  | parameterNames => exact readParameterNames R le
  | expression level => exact readExpression R le
  | continuation level left => exact readContinuation R le
  | leaf => exact readLeaf R le
  | sequence closing => exact readSequence R le
  | items closing => exact readItems R le

omit R in
/-- A bound linear in the number of tokens is never reached. -/
theorem parseWith {n : Nat} {α : Type} (rule : Rule α) (c : Cursor)
    (le : 8 * c.rest.length + rule.depth ≤ n) :
    Ends (parseWith n rule) c (c.rest.length + rule.slack) := by
  induction n generalizing α rule c with
  | zero => cases rule <;> simp [Rule.depth] at le
  | succ n ih => exact step ih rule c le

omit R in
/-- A parser that comes to an end has not reached a bound. -/
lemma not_exhausted {α : Type} {p : Parser α} {c : Cursor} {n : Nat} (h : Ends p c n) :
    ¬ Exhausted p c := by
  rintro ⟨rest, c', e⟩
  simp [Ends, e] at h

end Ends
end Parser

namespace Rule

/-- Every bound that is large enough gives what a rule reads. -/
theorem parseWith_eq_parse {n : Nat} {α : Type} (rule : Rule α) (c : Cursor)
    (le : 8 * c.rest.length + rule.depth ≤ n) : parseWith n rule c = parse rule c := by
  have enough : 8 * c.rest.length + rule.depth ≤ bound c.rest.length := by
    have := rule.depth_le
    unfold bound
    omega
  -- Of the two bounds, the smaller is not reached, and the larger changes nothing.
  rcases Nat.le_total n (bound c.rest.length) with h | h
  · have refines := parseWith_mono h rule c
    exact (refines.resolve_left (Ends.parseWith rule c le).not_exhausted).symm
  · have refines := parseWith_mono h rule c
    exact refines.resolve_left (Ends.parseWith rule c enough).not_exhausted

/-- Wherever a bound is enough the rule is read as with its own bound. -/
lemma parseWith_refines_parse (n : Nat) {α : Type} (rule : Rule α) :
    Refines (parseWith n rule) (parse rule) := by
  intro c
  rcases parseWith_mono (Nat.le_max_left n (bound c.rest.length)) rule c with h | h
  · exact .inl h
  · have := rule.depth_le
    rw [parseWith_eq_parse rule c (by unfold bound; omega)] at h
    exact .inr h

/-- A rule takes the step of its definition, with no bound in sight. -/
theorem parse_eq_step {α : Type} (rule : Rule α) (c : Cursor) :
    parse rule c = step parse rule c := by
  have le : 8 * c.rest.length + rule.depth ≤ 8 * c.rest.length + 4 + 1 := by
    have := rule.depth_le
    omega
  have refines := refines_step (parseWith_refines_parse (8 * c.rest.length + 4)) rule c
  rw [← parseWith_eq_parse rule c le]
  exact (refines.resolve_left (Ends.parseWith rule c le).not_exhausted).symm

/-- What a rule reads comes to an end. -/
theorem ends_parse {α : Type} (rule : Rule α) (c : Cursor) :
    Ends (parse rule) c (c.rest.length + rule.slack) := by
  have ends := Ends.parseWith rule c (Nat.le_refl _)
  unfold Ends at ends ⊢
  rwa [parseWith_eq_parse rule c (Nat.le_refl _)] at ends

end Rule

end ScriptLang
