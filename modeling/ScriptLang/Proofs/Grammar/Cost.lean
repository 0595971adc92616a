import ScriptLang.Proofs.Grammar.Reading
import ScriptLang.Proofs.Grammar.Script

/-!
# What reading costs

A reader with a meter counts each look at the cursor, each move, each failure and each call of a
rule as a step. A token is worth twelve steps. Rules that call one another before a token is read
take three steps each (`Rule.depth`), and a rule that reads a token leaves ten steps of its worth
for the one after it, which may read none (`Rule.slack`).

So reading takes a number of steps linear in the number of tokens it passes, whether it succeeds or
fails, and it moves only where there is a token (`Tallies.parseWith`). With the bound that rules
never reach, that is how all of a script is read (`reading_proceeds`).
-/

namespace ScriptLang
open ScriptLang.Parser ScriptLang.Rule

/-- What a reader has spent: steps of all kinds, and among them moves. -/
structure Expense where
  steps : Nat
  moves : Nat

instance : Add Expense := ⟨fun a b => ⟨a.steps + b.steps, a.moves + b.moves⟩⟩

/-- A reader with a meter. -/
def Metered (α : Type) := Cursor → EStateM.Result Failure Cursor α × Expense

namespace Metered

/-- A run of a parser that is paid for. -/
def pay {α : Type} (price : Expense) (p : Parser α) : Metered α := fun c => (p c, price)

instance : Monad Metered where
  pure a := pay ⟨0, 0⟩ (pure a)
  bind p f c :=
    match p c with
    | (.ok a c', spent) =>
      let (result, more) := f a c'
      (result, spent + more)
    | (.error e c', spent) => (.error e c', spent)

instance : Reading Metered where
  look := pay ⟨1, 0⟩ get
  advance := pay ⟨1, 1⟩ Parser.advance
  throw e := pay ⟨1, 0⟩ (throw e)
  inLoop p c :=
    let (result, spent) := p { c with loopDepth := c.loopDepth + 1 }
    (withDepth (· - 1) result, spent)
  outsideLoops p c :=
    let (result, spent) := p { c with loopDepth := 0 }
    (withDepth (fun _ => c.loopDepth) result, spent)
  call p c :=
    let (result, spent) := p c
    (result, ⟨1, 0⟩ + spent)

/-- Reads by a rule with a meter. -/
def parse {α : Type} (rule : Rule α) : Metered α := fun c =>
  (Reading.parseWith (Rule.bound c.rest.length) rule : Metered α) c

/-- The statements that tokens hold, and the failure that ends them early, if one does, read with a
meter. To see whether there is one more statement is a step. -/
def statementsFrom (bound : Nat) :
    Nat → Cursor → (List Statement × Option Failure) × Expense
  | 0, _ => (([], none), ⟨1, 0⟩)
  | fuel + 1, cursor =>
    if cursor.rest.isEmpty then (([], none), ⟨1, 0⟩)
    else match (Reading.parseWith bound Rule.statement : Metered Statement) cursor with
      | (.ok first cursor, spent) =>
        let ((others, failure), more) := statementsFrom bound fuel cursor
        ((first :: others, failure), ⟨1, 0⟩ + (spent + more))
      | (.error failure _, spent) => (([], some failure), ⟨1, 0⟩ + spent)

variable {α β : Type} {p : Metered α} {f : α → Metered β} {c c' : Cursor} {spent : Expense}

/-- What follows a result is paid for in addition. -/
lemma bind_of_ok {a : α} (h : p c = (.ok a c', spent)) :
    (p >>= f) c = ((f a c').1, spent + (f a c').2) := by
  change (match p c with
    | (.ok a c', spent) => ((f a c').1, spent + (f a c').2)
    | (.error e c', spent) => (.error e c', spent)) = _
  rw [h]

/-- Behind a failure nothing more is paid. -/
lemma bind_of_error {e : Failure} (h : p c = (.error e c', spent)) :
    (p >>= f) c = (.error e c', spent) := by
  change (match p c with
    | (.ok a c', spent) => ((f a c').1, spent + (f a c').2)
    | (.error e c', spent) => (.error e c', spent)) = _
  rw [h]

end Metered

/-- The cursor at which a run stops. -/
def Parser.stop {α : Type} : EStateM.Result Failure Cursor α → Cursor
  | .ok _ c | .error _ c => c

/-- So many moves, each past a token, lead from one cursor to another. -/
structure Parser.Cursor.Passes (c : Cursor) (moves : Nat) (c' : Cursor) : Prop where
  le : moves ≤ c.rest.length
  rest : c'.rest = c.rest.drop moves

namespace Rule

/-- What a rule that succeeds over a number of tokens may spend, with ten steps to spare. -/
def allowance {α : Type} (rule : Rule α) (tokens : Nat) : Nat :=
  12 * tokens + 3 * rule.depth + 10 * rule.slack

/-- What a rule that fails over a number of tokens may spend. -/
def forfeit {α : Type} (rule : Rule α) (tokens : Nat) : Nat :=
  12 * tokens + 3 * rule.depth + 3

/-- A jump is read where its keyword was seen; the other rules look for themselves. -/
def Ready {α : Type} : Rule α → Cursor → Prop
  | .jump, c => c.rest ≠ []
  | _, _ => True

end Rule

/-- At a cursor the reader does what the parser does, and moves only past tokens. What was spent
before, what it spends and what the tokens left are worth come to less than `broken` if it fails,
and with ten steps to spare to less than `done` if it succeeds. -/
def Tallies {α : Type} (p : Metered α) (q : Parser α) (c : Cursor) (spent done broken : Nat) :
    Prop :=
  ∃ more : Expense, p c = (q c, more) ∧ c.Passes more.moves (stop (q c)) ∧
    match q c with
    | .ok _ c' => spent + more.steps + 12 * c'.rest.length + 10 < done
    | .error _ c' => spent + more.steps + 12 * c'.rest.length < broken

namespace Parser.Cursor.Passes
variable {c c₁ c₂ : Cursor} {n k : Nat}

/-- No move leads from a cursor to itself. -/
lemma refl (c : Cursor) : c.Passes 0 c := ⟨Nat.zero_le _, rfl⟩

/-- The numbers of moves add up. -/
lemma trans (h : c.Passes n c₁) (h' : c₁.Passes k c₂) : c.Passes (n + k) c₂ := by
  obtain ⟨le, e⟩ := h
  obtain ⟨le', e'⟩ := h'
  rw [e, List.length_drop] at le'
  exact ⟨by omega, by rw [e', e, List.drop_drop]⟩

/-- The tokens left are an end of the tokens there were. -/
lemma split (h : c.Passes n c₁) :
    ∃ passed, c.rest = passed ++ c₁.rest ∧ n = passed.length :=
  ⟨c.rest.take n, by rw [h.rest, List.take_append_drop], (List.length_take_of_le h.le).symm⟩

end Parser.Cursor.Passes

namespace Tallies
variable {α β : Type} {c : Cursor} {rest : List Token} {d spent done broken : Nat}

/-- To do nothing tallies if there is something left to spend. -/
lemma pure {a : α} (h : spent + 12 * c.rest.length + 10 < done) :
    Tallies (pure a) (pure a) c spent done broken :=
  ⟨⟨0, 0⟩, rfl, .refl c, h⟩

/-- A parser that succeeds at a known price, and what comes after it. -/
lemma after {p : Metered α} {q : Parser α} {f : α → Metered β} {g : α → Parser β} {a : α}
    {c' : Cursor} (price : Expense) (hp : p c = (.ok a c', price)) (hq : q c = .ok a c')
    (passes : c.Passes price.moves c')
    (h : Tallies (f a) (g a) c' (spent + price.steps) done broken) :
    Tallies (p >>= f) (q >>= g) c spent done broken := by
  obtain ⟨more, e, passes', lt⟩ := h
  unfold Tallies
  rw [bind_of_ok hq]
  refine ⟨price + more, ?_, passes.trans passes', ?_⟩
  · exact (Metered.bind_of_ok hp).trans (congrArg (fun r => (r.1, price + r.2)) e)
  · rw [Nat.add_assoc] at lt
    exact lt

/-- Readers in a row tally if what is left behind the first is enough for the second. -/
lemma bind {p : Metered α} {q : Parser α} {f : α → Metered β} {g : α → Parser β}
    {n b : Nat} (hp : Tallies p q c spent n b)
    (hf : ∀ a c' s, s + 12 * c'.rest.length + 10 < n → Tallies (f a) (g a) c' s done broken)
    (le : b ≤ broken) : Tallies (p >>= f) (q >>= g) c spent done broken := by
  obtain ⟨more, e, passes, lt⟩ := hp
  cases h : q c with
  | ok a c' =>
    rw [h] at e passes lt
    exact after more e h passes (hf a c' _ lt)
  | error e₀ c' =>
    rw [h] at e passes lt
    unfold Tallies
    rw [bind_of_error h]
    exact ⟨more, Metered.bind_of_error e, passes, Nat.lt_of_lt_of_le lt le⟩

/-- What tallies with some limits does with higher ones. -/
lemma mono {p : Metered α} {q : Parser α} {n b : Nat} (h : Tallies p q c spent n b)
    (hn : n ≤ done) (hb : b ≤ broken) : Tallies p q c spent done broken := by
  obtain ⟨more, e, passes, lt⟩ := h
  refine ⟨more, e, passes, ?_⟩
  split at lt
  · exact Nat.lt_of_lt_of_le lt hn
  · exact Nat.lt_of_lt_of_le lt hb

/-- To stop tallies if there is a step left to spend. -/
lemma throw {e : Failure} (h : spent + 1 + 12 * c.rest.length < broken) :
    Tallies (Reading.throw e : Metered α) (Reading.throw e) c spent done broken :=
  ⟨⟨1, 0⟩, rfl, .refl c, h⟩

/-- To fail tallies if there are two steps left to spend. -/
lemma fail {cause : Malformation} (h : spent + 2 + 12 * c.rest.length < broken) :
    Tallies (Reading.fail cause : Metered α) (Reading.fail cause) c spent done broken :=
  ⟨⟨2, 0⟩, rfl, .refl c, h⟩

/-- A look at the cursor is a step. -/
lemma look {f : Cursor → Metered α} {g : Cursor → Parser α}
    (h : Tallies (f c) (g c) c (spent + 1) done broken) :
    Tallies (Reading.look >>= f) (Reading.look >>= g) c spent done broken :=
  after ⟨1, 0⟩ rfl rfl (.refl c) h

/-- A look at the next token is a step. -/
lemma peek {f : Option Token → Metered α} {g : Option Token → Parser α}
    (h : Tallies (f c.rest.head?) (g c.rest.head?) c (spent + 1) done broken) :
    Tallies (Reading.peek >>= f) (Reading.peek >>= g) c spent done broken :=
  after ⟨1, 0⟩ rfl rfl (.refl c) h

/-- A look at the kind of the next token is a step. -/
lemma peekKind {f : Option Token.Kind → Metered α} {g : Option Token.Kind → Parser α}
    (h : Tallies (f (c.rest.head?.map (·.kind))) (g (c.rest.head?.map (·.kind))) c (spent + 1)
      done broken) :
    Tallies (Reading.peekKind >>= f) (Reading.peekKind >>= g) c spent done broken :=
  after ⟨1, 0⟩ rfl rfl (.refl c) h

/-- A look at the kind of the second token is a step. -/
lemma peekSecondKind {f : Option Token.Kind → Metered α} {g : Option Token.Kind → Parser α}
    (h : Tallies (f (c.rest.tail.head?.map (·.kind))) (g (c.rest.tail.head?.map (·.kind))) c
      (spent + 1) done broken) :
    Tallies (Reading.peekSecondKind >>= f) (Reading.peekSecondKind >>= g) c spent done broken :=
  after ⟨1, 0⟩ rfl rfl (.refl c) h

/-- A move is a step, and leaves one token less. -/
lemma advance {f : Unit → Metered α} {g : Unit → Parser α} {token : Token}
    (h : Tallies (f ()) (g ()) ⟨rest, d⟩ (spent + 1) done broken) :
    Tallies (Reading.advance >>= f) (Reading.advance >>= g) ⟨token :: rest, d⟩ spent done
      broken :=
  after ⟨1, 1⟩ rfl rfl ⟨by simp, rfl⟩ h

/-- A move past a token whose kind was looked at. -/
lemma advance_of_kind {f : Unit → Metered α} {g : Unit → Parser α} {kind : Token.Kind}
    (h : c.rest.head?.map (·.kind) = some kind)
    (hf : ∀ c', c'.rest.length + 1 = c.rest.length →
      Tallies (f ()) (g ()) c' (spent + 1) done broken) :
    Tallies (Reading.advance >>= f) (Reading.advance >>= g) c spent done broken := by
  obtain ⟨rest, d⟩ := c
  cases rest with
  | nil => cases h
  | cons token rest => exact advance (hf _ rfl)

/-- A result that is dropped costs the same. -/
lemma discard {p : Metered α} {q : Parser α} (h : Tallies p q c spent done broken) :
    Tallies (discard p : Metered Unit) (discard q) c spent done broken :=
  bind h (fun _ _ _ lt => pure lt) (Nat.le_refl _)

/-- A token that is expected takes a move, or two steps more to fail. -/
lemma expect (kind : Token.Kind) (c : Cursor) (spent : Nat) :
    Tallies (Reading.expect kind) (Reading.expect kind) c spent (spent + 12 * c.rest.length + 1)
      (spent + 12 * c.rest.length + 4) := by
  obtain ⟨rest, d⟩ := c
  apply peek
  cases rest with
  | nil => exact fail (by dsimp only; omega)
  | cons token rest =>
    dsimp only [List.head?_cons, List.length_cons]
    split
    · exact advance (pure (by dsimp only; omega))
    · exact fail (by dsimp only [List.length_cons]; omega)

/-- The failure to close a list takes two steps. -/
lemma failToClose {closing : Option Token.Kind} (h : spent + 2 + 12 * c.rest.length < broken) :
    Tallies (Reading.failToClose closing : Metered α) (Reading.failToClose closing) c spent done
      broken := by
  cases closing <;> exact fail h

/-- A separator takes a look and at most a move. -/
lemma separator (closing : Option Token.Kind) (c : Cursor) (spent : Nat) :
    Tallies (Reading.separator closing) (Reading.separator closing) c spent
      (spent + 12 * c.rest.length + 12) (spent + 12 * c.rest.length + 4) := by
  apply peekKind
  split
  · rename_i h
    exact advance_of_kind h fun c' e => pure (by omega)
  · split
    · exact failToClose (by omega)
    · exact pure (by omega)

/-- What closes a list is a token, or nothing. -/
lemma close (closing : Option Token.Kind) (c : Cursor) (spent : Nat) :
    Tallies (Reading.close closing) (Reading.close closing) c spent
      (spent + 12 * c.rest.length + 10 * (Rule.sequence closing).slack + 2)
      (spent + 12 * c.rest.length + 4) := by
  cases closing with
  | some kind => exact (discard (expect kind c spent)).mono (by omega) (Nat.le_refl _)
  | none =>
    apply peek
    split
    · exact failToClose (by omega)
    · exact pure (by dsimp only [Rule.slack]; omega)

/-- The number of loops costs nothing. -/
lemma withDepth {p p' : Metered α} {q q' : Parser α} {f : Nat → Nat} (c₁ : Cursor)
    (rest : c₁.rest = c.rest) (hp : p' c = (Parser.withDepth f (p c₁).1, (p c₁).2))
    (hq : q' c = Parser.withDepth f (q c₁)) (h : Tallies p q c₁ spent done broken) :
    Tallies p' q' c spent done broken := by
  obtain ⟨more, e, passes, lt⟩ := h
  refine ⟨more, ?_, ?_, ?_⟩
  · rw [hp, hq, e]
  · rw [hq]
    obtain ⟨le, left⟩ := passes
    rw [rest] at le left
    cases h : q c₁ <;> rw [h] at left <;> exact ⟨le, left⟩
  · rw [hq]
    cases h : q c₁ <;> rw [h] at lt <;> exact lt

/-- One more loop costs nothing. -/
lemma inLoop {p : Metered α} {q : Parser α}
    (h : Tallies p q { c with loopDepth := c.loopDepth + 1 } spent done broken) :
    Tallies (Reading.inLoop p) (Reading.inLoop q) c spent done broken :=
  withDepth { c with loopDepth := c.loopDepth + 1 } rfl rfl (inLoop_apply q c) h

/-- To leave all loops costs nothing. -/
lemma outsideLoops {p : Metered α} {q : Parser α}
    (h : Tallies p q { c with loopDepth := 0 } spent done broken) :
    Tallies (Reading.outsideLoops p) (Reading.outsideLoops q) c spent done broken :=
  withDepth { c with loopDepth := 0 } rfl rfl (outsideLoops_apply q c) h

/-- A call is a step. -/
lemma call {p : Metered α} {q : Parser α} (h : Tallies p q c (spent + 1) done broken) :
    Tallies (Reading.call p) (Reading.call q) c spent done broken := by
  obtain ⟨more, e, passes, lt⟩ := h
  refine ⟨⟨1, 0⟩ + more, ?_, ?_, ?_⟩
  · exact congrArg (fun r => (r.1, (⟨1, 0⟩ + r.2 : Expense))) e
  · change c.Passes (0 + more.moves) (stop (q c))
    rw [Nat.zero_add]
    exact passes
  · rw [Nat.add_assoc spent 1] at lt
    exact lt

/-- A jump keeps to what its rule may spend. -/
lemma readJump (c : Cursor) (spent : Nat) (ready : jump.Ready c) :
    Tallies Reading.readJump Reading.readJump c (spent + 1)
      (spent + jump.allowance c.rest.length) (spent + jump.forfeit c.rest.length) := by
  obtain ⟨rest, d⟩ := c
  dsimp only [allowance, forfeit, depth, slack]
  apply look
  dsimp only
  split
  · exact fail (by dsimp only; omega)
  cases rest with
  | nil => exact absurd rfl ready
  | cons token rest =>
    rw [List.length_cons]
    apply advance
    dsimp only
    split
    · exact pure (by dsimp only; omega)
    · exact pure (by dsimp only; omega)
    · exact throw (by dsimp only; omega)

section
variable {read : {α : Type} → Rule α → Metered α} {read' : Readers}
  (R : ∀ {α : Type} (rule : Rule α) (c : Cursor) (spent : Nat),
    rule.Ready c → Tallies (read rule) (read' rule) c spent
      (spent + rule.allowance c.rest.length) (spent + rule.forfeit c.rest.length))
include R

/-- Reading by another rule as the next thing to do. -/
lemma read_bind {rule : Rule α} {f : α → Metered β} {g : α → Parser β} (ready : rule.Ready c)
    (hf : ∀ a c' s, s + 12 * c'.rest.length + 10 < spent + rule.allowance c.rest.length →
      Tallies (f a) (g a) c' s done broken)
    (le : spent + rule.forfeit c.rest.length ≤ broken) :
    Tallies (read rule >>= f) (read' rule >>= g) c spent done broken :=
  bind (R rule c spent ready) hf le

/-- Reading by another rule as the last thing to do. -/
lemma read_last {rule : Rule α} (ready : rule.Ready c)
    (hd : spent + rule.allowance c.rest.length ≤ done)
    (hb : spent + rule.forfeit c.rest.length ≤ broken) :
    Tallies (read rule) (read' rule) c spent done broken :=
  (R rule c spent ready).mono hd hb

/-- A statement keeps to what its rule may spend. -/
lemma readStatement (c : Cursor) (spent : Nat) :
    Tallies (Reading.readStatement read) (Reading.readStatement read') c (spent + 1)
      (spent + statement.allowance c.rest.length) (spent + statement.forfeit c.rest.length) := by
  obtain ⟨rest, d⟩ := c
  dsimp only [allowance, forfeit, depth, slack]
  apply peek
  cases rest with
  | nil => exact fail (by dsimp only; omega)
  | cons token rest =>
    rw [List.length_cons]
    have last {rule : Rule Statement} (flat : rule.depth = 1) (full : rule.slack = 0)
        (ready : rule.Ready ⟨token :: rest, d⟩) :
        Tallies (read rule) (read' rule) ⟨token :: rest, d⟩ (spent + 1 + 1 + 1)
          (spent + (12 * (rest.length + 1) + 3 * 3 + 10 * 0))
          (spent + (12 * (rest.length + 1) + 3 * 3 + 3)) := by
      refine read_last R ready ?_ ?_ <;> simp only [allowance, forfeit, flat, full] <;>
        rw [List.length_cons] <;> omega
    apply peekSecondKind
    dsimp only [List.head?_cons]
    split
    iterate 4 exact last rfl rfl trivial
    iterate 2 exact last rfl rfl (List.cons_ne_nil _ _)
    split
    · exact last rfl rfl trivial
    · refine read_bind R trivial (fun e c₁ s₁ h₁ => ?_)
        (by dsimp only [forfeit, depth, List.length_cons]; omega)
      dsimp only [allowance, depth, slack, List.length_cons] at h₁
      exact pure (by omega)

/-- A declaration keeps to what its rule may spend. -/
lemma readDeclaration (c : Cursor) (spent : Nat) :
    Tallies (Reading.readDeclaration read) (Reading.readDeclaration read') c (spent + 1)
      (spent + declaration.allowance c.rest.length)
      (spent + declaration.forfeit c.rest.length) := by
  dsimp only [allowance, forfeit, depth, slack]
  refine bind (expect _ _ _) (fun first c₁ s₁ h₁ => ?_) (by omega)
  refine bind (expect _ _ _) (fun name c₂ s₂ h₂ => ?_) (by omega)
  refine bind (discard (expect _ _ _)) (fun _ c₃ s₃ h₃ => ?_) (by omega)
  refine read_bind R trivial (fun value c₄ s₄ h₄ => ?_) (by dsimp only [forfeit, depth]; omega)
  dsimp only [allowance, depth, slack] at h₄
  exact pure (by omega)

/-- A definition keeps to what its rule may spend. -/
lemma readDefinition (c : Cursor) (spent : Nat) :
    Tallies (Reading.readDefinition read) (Reading.readDefinition read') c (spent + 1)
      (spent + definition.allowance c.rest.length)
      (spent + definition.forfeit c.rest.length) := by
  dsimp only [allowance, forfeit, depth, slack]
  refine bind (expect _ _ _) (fun first c₁ s₁ h₁ => ?_) (by omega)
  refine bind (expect _ _ _) (fun name c₂ s₂ h₂ => ?_) (by omega)
  refine read_bind R trivial (fun parameters c₃ s₃ h₃ => ?_) (by dsimp only [forfeit, depth]; omega)
  dsimp only [allowance, depth, slack] at h₃
  refine read_bind R trivial (fun body c₄ s₄ h₄ => ?_) (by dsimp only [forfeit, depth]; omega)
  dsimp only [allowance, depth, slack] at h₄
  exact pure (by omega)

/-- A conditional keeps to what its rule may spend. -/
lemma readConditional (c : Cursor) (spent : Nat) :
    Tallies (Reading.readConditional read) (Reading.readConditional read') c (spent + 1)
      (spent + conditional.allowance c.rest.length)
      (spent + conditional.forfeit c.rest.length) := by
  obtain ⟨rest, d⟩ := c
  dsimp only [allowance, forfeit, depth, slack]
  apply peek
  cases rest with
  | nil => exact fail (by dsimp only; omega)
  | cons first rest =>
    rw [List.length_cons]
    dsimp only [List.head?_cons]
    split
    · exact fail (by dsimp only [List.length_cons]; omega)
    apply advance
    refine read_bind R trivial (fun condition c₁ s₁ h₁ => ?_)
      (by dsimp only [forfeit, depth]; omega)
    dsimp only [allowance, depth, slack] at h₁
    refine read_bind R trivial (fun consequent c₂ s₂ h₂ => ?_)
      (by dsimp only [forfeit, depth]; omega)
    dsimp only [allowance, depth, slack] at h₂
    apply peekKind
    split
    · refine read_bind R trivial (fun alternative c₃ s₃ h₃ => ?_)
        (by dsimp only [forfeit, depth]; omega)
      dsimp only [allowance, depth, slack] at h₃
      exact pure (by omega)
    · split
      · rename_i kind
        refine advance_of_kind kind fun c₃ e => ?_
        refine read_bind R trivial (fun alternative c₄ s₄ h₄ => ?_)
          (by dsimp only [forfeit, depth]; omega)
        dsimp only [allowance, depth, slack] at h₄
        exact pure (by omega)
      · exact pure (by omega)

/-- A loop keeps to what its rule may spend. -/
lemma readLoop (c : Cursor) (spent : Nat) :
    Tallies (Reading.readLoop read) (Reading.readLoop read') c (spent + 1)
      (spent + loop.allowance c.rest.length) (spent + loop.forfeit c.rest.length) := by
  dsimp only [allowance, forfeit, depth, slack]
  refine bind (expect _ _ _) (fun first c₁ s₁ h₁ => ?_) (by omega)
  have body {name iterable} {c₂ : Cursor} {s₂ : Nat}
      (lt : s₂ + 12 * c₂.rest.length + 6 < spent + 12 * c.rest.length) :
      Tallies
        (do let body ← Reading.inLoop (read block)
            return statementAt first (.loop body name iterable))
        (do let body ← Reading.inLoop (read' block)
            return statementAt first (.loop body name iterable))
        c₂ s₂ (spent + (12 * c.rest.length + 3 * 1 + 10 * 0))
        (spent + (12 * c.rest.length + 3 * 1 + 3)) := by
    refine bind (inLoop (R _ _ s₂ trivial)) (fun b c₃ s₃ h₃ => ?_)
      (by dsimp only [forfeit, depth]; omega)
    dsimp only [allowance, depth, slack] at h₃
    exact pure (by omega)
  apply peekKind
  split
  · rename_i kind
    refine advance_of_kind kind fun c₂ e => ?_
    refine bind (discard (expect _ _ _)) (fun _ c₃ s₃ h₃ => ?_) (by omega)
    refine bind (expect _ _ _) (fun name c₄ s₄ h₄ => ?_) (by omega)
    refine bind (discard (expect _ _ _)) (fun _ c₅ s₅ h₅ => ?_) (by omega)
    refine read_bind R trivial (fun iterable c₆ s₆ h₆ => ?_) (by dsimp only [forfeit, depth]; omega)
    dsimp only [allowance, depth, slack] at h₆
    refine bind (discard (expect _ _ _)) (fun _ c₇ s₇ h₇ => ?_) (by omega)
    exact body (by omega)
  · exact body (by omega)

/-- A return keeps to what its rule may spend. -/
lemma readReturning (c : Cursor) (spent : Nat) :
    Tallies (Reading.readReturning read) (Reading.readReturning read') c (spent + 1)
      (spent + returning.allowance c.rest.length) (spent + returning.forfeit c.rest.length) := by
  dsimp only [allowance, forfeit, depth, slack]
  refine bind (expect _ _ _) (fun first c₁ s₁ h₁ => ?_) (by omega)
  apply peekKind
  split
  · refine read_bind R trivial (fun value c₂ s₂ h₂ => ?_) (by dsimp only [forfeit, depth]; omega)
    dsimp only [allowance, depth, slack] at h₂
    exact pure (by omega)
  · exact pure (by omega)

/-- A block keeps to what its rule may spend. -/
lemma readBlock (c : Cursor) (spent : Nat) :
    Tallies (Reading.readBlock read) (Reading.readBlock read') c (spent + 1)
      (spent + block.allowance c.rest.length) (spent + block.forfeit c.rest.length) := by
  dsimp only [allowance, forfeit, depth, slack]
  refine bind (discard (expect _ _ _)) (fun _ c₁ s₁ h₁ => ?_) (by omega)
  refine read_bind R trivial (fun b c₂ s₂ h₂ => ?_) (by dsimp only [forfeit, depth]; omega)
  dsimp only [allowance, depth, slack] at h₂
  refine bind (discard (expect _ _ _)) (fun _ c₃ s₃ h₃ => ?_) (by omega)
  exact pure (by omega)

/-- The statements of a block keep to what their rule may spend. -/
lemma readStatements (c : Cursor) (spent : Nat) :
    Tallies (Reading.readStatements read) (Reading.readStatements read') c (spent + 1)
      (spent + statements.allowance c.rest.length) (spent + statements.forfeit c.rest.length) := by
  dsimp only [allowance, forfeit, depth, slack]
  apply peekKind
  split
  · exact pure (by omega)
  · refine read_bind R trivial (fun first c₁ s₁ h₁ => ?_) (by dsimp only [forfeit, depth]; omega)
    dsimp only [allowance, depth, slack] at h₁
    refine read_bind R trivial (fun others c₂ s₂ h₂ => ?_) (by dsimp only [forfeit, depth]; omega)
    dsimp only [allowance, depth, slack] at h₂
    exact pure (by omega)

/-- Parameters keep to what their rule may spend. -/
lemma readParameters (c : Cursor) (spent : Nat) :
    Tallies (Reading.readParameters read) (Reading.readParameters read') c (spent + 1)
      (spent + parameters.allowance c.rest.length) (spent + parameters.forfeit c.rest.length) := by
  dsimp only [allowance, forfeit, depth, slack]
  refine bind (discard (expect _ _ _)) (fun _ c₁ s₁ h₁ => ?_) (by omega)
  refine read_bind R trivial (fun names c₂ s₂ h₂ => ?_) (by dsimp only [forfeit, depth]; omega)
  dsimp only [allowance, depth, slack] at h₂
  refine bind (discard (expect _ _ _)) (fun _ c₃ s₃ h₃ => ?_) (by omega)
  exact pure (by omega)

/-- The names of parameters keep to what their rule may spend. -/
lemma readParameterNames (c : Cursor) (spent : Nat) :
    Tallies (Reading.readParameterNames read) (Reading.readParameterNames read') c (spent + 1)
      (spent + parameterNames.allowance c.rest.length)
      (spent + parameterNames.forfeit c.rest.length) := by
  dsimp only [allowance, forfeit, depth, slack]
  apply peekKind
  split
  · exact pure (by omega)
  · refine bind (expect _ _ _) (fun name c₁ s₁ h₁ => ?_) (by omega)
    refine bind (separator _ _ _) (fun _ c₂ s₂ h₂ => ?_) (by omega)
    refine read_bind R trivial (fun names c₃ s₃ h₃ => ?_) (by dsimp only [forfeit, depth]; omega)
    dsimp only [allowance, depth, slack] at h₃
    exact pure (by omega)

/-- An expression keeps to what its rule may spend. -/
lemma readExpression (level : Precedence) (c : Cursor) (spent : Nat) :
    Tallies (Reading.readExpression read level) (Reading.readExpression read' level) c (spent + 1)
      (spent + (expression level).allowance c.rest.length)
      (spent + (expression level).forfeit c.rest.length) := by
  dsimp only [allowance, forfeit, depth, slack]
  refine read_bind R trivial (fun left c₁ s₁ h₁ => ?_) (by dsimp only [forfeit, depth]; omega)
  dsimp only [allowance, depth, slack] at h₁
  refine read_last R trivial ?_ ?_ <;> dsimp only [allowance, forfeit, depth, slack] <;> omega

/-- What an expression goes on with keeps to what its rule may spend. -/
lemma readContinuation (level : Precedence) (left : Expression) (c : Cursor) (spent : Nat) :
    Tallies (Reading.readContinuation read level left) (Reading.readContinuation read' level left)
      c (spent + 1) (spent + (continuation level left).allowance c.rest.length)
      (spent + (continuation level left).forfeit c.rest.length) := by
  obtain ⟨rest, d⟩ := c
  dsimp only [allowance, forfeit, depth, slack]
  apply peekKind
  cases rest with
  | nil => exact pure (by dsimp only; omega)
  | cons token rest =>
    rw [List.length_cons]
    -- Whatever was read in between passed a token, which pays for one more round of the same rule.
    have again {left : Expression} {c₁ : Cursor} {s₁ : Nat}
        (le : s₁ + 12 * c₁.rest.length ≤ spent + 12 * (rest.length + 1)) :
        Tallies (read (continuation level left)) (read' (continuation level left)) c₁ s₁
          (spent + (12 * (rest.length + 1) + 3 * 1 + 10 * 1))
          (spent + (12 * (rest.length + 1) + 3 * 1 + 3)) := by
      refine read_last R trivial ?_ ?_ <;> dsimp only [allowance, forfeit, depth, slack] <;> omega
    dsimp only [List.head?_cons, Option.map_some]
    split
    · exact pure (by dsimp only [List.length_cons]; omega)
    split
    · apply advance
      refine read_bind R trivial (fun arguments c₁ s₁ h₁ => ?_)
        (by dsimp only [forfeit, depth]; omega)
      dsimp only [allowance, depth, slack] at h₁
      exact again (by omega)
    · apply advance
      refine bind (expect _ _ _) (fun name c₁ s₁ h₁ => ?_) (by dsimp only; omega)
      dsimp only at h₁
      exact again (by omega)
    · apply advance
      refine read_bind R trivial (fun place c₁ s₁ h₁ => ?_) (by dsimp only [forfeit, depth]; omega)
      dsimp only [allowance, depth, slack] at h₁
      refine bind (discard (expect _ _ _)) (fun _ c₂ s₂ h₂ => ?_) (by omega)
      exact again (by omega)
    · split
      · apply advance
        refine read_bind R trivial (fun value c₁ s₁ h₁ => ?_)
          (by dsimp only [forfeit, depth]; omega)
        dsimp only [allowance, depth, slack] at h₁
        exact again (by omega)
      · exact fail (by dsimp only [List.length_cons]; omega)
    · split
      · apply advance
        refine read_bind R trivial (fun right c₁ s₁ h₁ => ?_)
          (by dsimp only [forfeit, depth]; omega)
        dsimp only [allowance, depth, slack] at h₁
        exact again (by omega)
      · exact pure (by dsimp only [List.length_cons]; omega)

/-- A leaf keeps to what its rule may spend. -/
lemma readLeaf (c : Cursor) (spent : Nat) :
    Tallies (Reading.readLeaf read) (Reading.readLeaf read') c (spent + 1)
      (spent + leaf.allowance c.rest.length) (spent + leaf.forfeit c.rest.length) := by
  obtain ⟨rest, d⟩ := c
  dsimp only [allowance, forfeit, depth, slack]
  apply peek
  cases rest with
  | nil => exact fail (by dsimp only; omega)
  | cons token rest =>
    rw [List.length_cons]
    have last {α : Type} {rule : Rule α} {make : α → Expression} (full : rule.slack = 0)
        (ready : rule.Ready ⟨rest, d⟩) :
        Tallies (do let a ← read rule; return make a) (do let a ← read' rule; return make a)
          ⟨rest, d⟩ (spent + 1 + 1 + 1)
          (spent + (12 * (rest.length + 1) + 3 * 1 + 10 * 0))
          (spent + (12 * (rest.length + 1) + 3 * 1 + 3)) := by
      have := rule.depth_le
      refine read_bind R ready (fun a c₁ s₁ h₁ => ?_) (by dsimp only [forfeit]; omega)
      dsimp only [allowance] at h₁
      rw [full] at h₁
      exact pure (by omega)
    dsimp only [List.head?_cons]
    split
    iterate 5 exact advance (pure (by dsimp only; omega))
    · apply advance
      refine read_bind R trivial (fun parameters c₁ s₁ h₁ => ?_)
        (by dsimp only [forfeit, depth]; omega)
      dsimp only [allowance, depth, slack] at h₁
      refine read_bind R trivial (fun body c₂ s₂ h₂ => ?_) (by dsimp only [forfeit, depth]; omega)
      dsimp only [allowance, depth, slack] at h₂
      exact pure (by omega)
    iterate 3 exact advance (last rfl trivial)
    · apply advance
      refine read_bind R trivial (fun inner c₁ s₁ h₁ => ?_) (by dsimp only [forfeit, depth]; omega)
      dsimp only [allowance, depth, slack] at h₁
      refine bind (discard (expect _ _ _)) (fun _ c₂ s₂ h₂ => ?_) (by omega)
      exact pure (by omega)
    · exact fail (by dsimp only [List.length_cons]; omega)

/-- A sequence keeps to what its rule may spend. -/
lemma readSequence (closing : Option Token.Kind) (c : Cursor) (spent : Nat) :
    Tallies (Reading.readSequence read closing) (Reading.readSequence read' closing) c (spent + 1)
      (spent + (sequence closing).allowance c.rest.length)
      (spent + (sequence closing).forfeit c.rest.length) := by
  refine read_bind R trivial (fun es c₁ s₁ h₁ => ?_) (by dsimp only [forfeit, depth]; omega)
  dsimp only [allowance, depth, slack] at h₁
  refine bind (close closing _ _) (fun _ c₂ s₂ h₂ => ?_) (by dsimp only [forfeit, depth]; omega)
  exact pure (by dsimp only [allowance, depth]; omega)

/-- The items of a sequence keep to what their rule may spend. -/
lemma readItems (closing : Option Token.Kind) (c : Cursor) (spent : Nat) :
    Tallies (Reading.readItems read closing) (Reading.readItems read' closing) c (spent + 1)
      (spent + (items closing).allowance c.rest.length)
      (spent + (items closing).forfeit c.rest.length) := by
  dsimp only [allowance, forfeit, depth, slack]
  apply peekKind
  split
  · exact pure (by omega)
  · refine read_bind R trivial (fun first c₁ s₁ h₁ => ?_) (by dsimp only [forfeit, depth]; omega)
    dsimp only [allowance, depth, slack] at h₁
    refine bind (separator _ _ _) (fun _ c₂ s₂ h₂ => ?_) (by omega)
    refine read_bind R trivial (fun es c₃ s₃ h₃ => ?_) (by dsimp only [forfeit, depth]; omega)
    dsimp only [allowance, depth, slack] at h₃
    exact pure (by omega)

/-- What holds of the rules that a rule calls holds of the rule. -/
lemma step {α : Type} (rule : Rule α) (c : Cursor) (spent : Nat) (ready : rule.Ready c) :
    Tallies (Reading.step read rule) (Reading.step read' rule) c (spent + 1)
      (spent + rule.allowance c.rest.length) (spent + rule.forfeit c.rest.length) := by
  cases rule with
  | statement => exact readStatement R c spent
  | declaration => exact readDeclaration R c spent
  | definition => exact readDefinition R c spent
  | conditional => exact readConditional R c spent
  | loop => exact readLoop R c spent
  | returning => exact readReturning R c spent
  | jump => exact readJump c spent ready
  | block => exact readBlock R c spent
  | statements => exact readStatements R c spent
  | functionBody =>
    refine outsideLoops ((R block _ _ trivial).mono ?_ ?_)
    · dsimp only [allowance, depth, slack]
      omega
    · dsimp only [forfeit, depth]
      omega
  | parameters => exact readParameters R c spent
  | parameterNames => exact readParameterNames R c spent
  | expression level => exact readExpression R level c spent
  | continuation level left => exact readContinuation R level left c spent
  | leaf => exact readLeaf R c spent
  | sequence closing => exact readSequence R closing c spent
  | items closing => exact readItems R closing c spent

end

/-- However deeply rules may call one another. -/
theorem parseWith (n : Nat) {α : Type} (rule : Rule α) (c : Cursor) (spent : Nat)
    (ready : rule.Ready c) :
    Tallies (Reading.parseWith n rule) (rule.parseWith n) c spent
      (spent + rule.allowance c.rest.length) (spent + rule.forfeit c.rest.length) := by
  induction n generalizing α c spent with
  | zero => exact fail (by dsimp only [forfeit]; omega)
  | succ n ih =>
    have inner := step ih rule c spent ready
    rw [Reading.step_eq] at inner
    exact call inner

/-- Every rule keeps to what it may spend. -/
lemma parse {α : Type} (rule : Rule α) (c : Cursor) (ready : rule.Ready c) :
    Tallies (Metered.parse rule) rule.parse c 0 (rule.allowance c.rest.length)
      (rule.forfeit c.rest.length) := by
  obtain ⟨spent, e, h⟩ := parseWith (bound c.rest.length) rule c 0 ready
  rw [Nat.zero_add (rule.allowance _), Nat.zero_add (rule.forfeit _)] at h
  exact ⟨spent, e, h⟩

end Tallies

/-- The rule gives a result or fails. It passes tokens only, at least one if it gives a result, and
takes a number of steps linear in the number of tokens passed. -/
def Rule.Proceeds {α : Type} (rule : Rule α) : Prop :=
  ∀ c : Cursor, ∃ spent, Metered.parse rule c = (rule.parse c, spent) ∧
    spent.steps ≤ 12 * spent.moves + 14 ∧
    match rule.parse c with
    | .ok _ c' =>
      ∃ passed, passed ≠ [] ∧ c.rest = passed ++ c'.rest ∧ spent.moves = passed.length
    | .error e c' =>
      e.cause ≠ .exhausted ∧ ∃ passed, c.rest = passed ++ c'.rest ∧ spent.moves = passed.length

/-- A rule for a phrase that is not empty proceeds. -/
lemma Rule.proceeds {α : Type} {rule : Rule α} (full : rule.slack = 0)
    (ready : ∀ c, rule.Ready c) : rule.Proceeds := by
  intro c
  obtain ⟨spent, e, passes, lt⟩ := Tallies.parse rule c (ready c)
  have ends := rule.ends_parse c
  have deep := rule.depth_le
  obtain ⟨passed, split, count⟩ := passes.split
  have lengths := congrArg List.length split
  rw [List.length_append, ← count] at lengths
  refine ⟨spent, e, ?_⟩
  unfold allowance forfeit at lt
  unfold Ends at ends
  rw [full] at lt ends
  generalize rule.parse c = result at *
  cases result with
  | ok a c' =>
    dsimp only [stop] at split lengths lt ends
    refine ⟨by omega, passed, ?_, split, count⟩
    rintro rfl
    rw [List.length_nil] at count
    omega
  | error failure c' =>
    dsimp only [stop] at split lengths lt
    exact ⟨by omega, ends, passed, split, count⟩

/-- Reading a script passes tokens of it only, in a number of steps linear in how many there are. -/
lemma Metered.statementsFrom_spends (bound fuel : Nat) (c : Cursor) :
    ∃ spent, statementsFrom bound fuel c = (ScriptLang.statementsFrom bound fuel c, spent) ∧
      spent.moves ≤ c.rest.length ∧ spent.steps ≤ 12 * c.rest.length + 12 := by
  induction fuel generalizing c with
  | zero => exact ⟨_, rfl, Nat.zero_le _, by dsimp only; omega⟩
  | succ fuel ih =>
    unfold Metered.statementsFrom ScriptLang.statementsFrom
    split
    · exact ⟨_, rfl, Nat.zero_le _, by dsimp only; omega⟩
    obtain ⟨spent, e, ⟨le, left⟩, lt⟩ := Tallies.parseWith bound Rule.statement c 0 trivial
    dsimp only [allowance, forfeit, depth, slack] at lt
    rw [e]
    generalize Rule.parseWith bound Rule.statement c = result at *
    cases result with
    | ok first c' =>
      obtain ⟨more, e', le', lt'⟩ := ih c'
      dsimp only [stop] at left lt ⊢
      rw [e']
      have lengths := congrArg List.length left
      rw [List.length_drop] at lengths
      refine ⟨_, rfl, ?_, ?_⟩
      · change 0 + (spent.moves + more.moves) ≤ _
        omega
      · change 1 + (spent.steps + more.steps) ≤ _
        omega
    | error failure c' =>
      dsimp only at lt
      refine ⟨_, rfl, ?_, ?_⟩
      · change 0 + spent.moves ≤ _
        omega
      · change 1 + spent.steps ≤ _
        omega

/-- What a script consists of does not depend on how much may be spent, once it is enough. -/
lemma statementsFrom_enough {n n' fuel fuel' : Nat} {c : Cursor} (le : c.rest.length ≤ fuel)
    (le' : c.rest.length ≤ fuel') (deep : bound c.rest.length ≤ n)
    (deep' : bound c.rest.length ≤ n') : statementsFrom n fuel c = statementsFrom n' fuel' c := by
  induction fuel generalizing fuel' c with
  | zero =>
    obtain ⟨rest, d⟩ := c
    obtain rfl : rest = [] := List.length_eq_zero_iff.1 (Nat.le_zero.1 le)
    rw [statementsFrom_nil, statementsFrom_nil]
  | succ fuel ih =>
    obtain ⟨rest, d⟩ := c
    cases rest with
    | nil => rw [statementsFrom_nil, statementsFrom_nil]
    | cons token rest =>
      have ends := Rule.statement.ends_parse ⟨token :: rest, d⟩
      unfold bound at *
      dsimp only [List.length_cons, slack] at le le' deep deep' ends
      obtain ⟨fuel', rfl⟩ : ∃ k, fuel' = k + 1 := ⟨fuel' - 1, by omega⟩
      unfold statementsFrom
      rw [parseWith_eq_parse _ _ (by dsimp only [depth, List.length_cons]; omega),
        parseWith_eq_parse _ _ (by dsimp only [depth, List.length_cons]; omega)]
      unfold Ends at ends
      generalize Rule.parse Rule.statement ⟨token :: rest, d⟩ = result at *
      cases result with
      | error e c' => rfl
      | ok first c' =>
        dsimp only at ends ⊢
        have same : statementsFrom n fuel c' = statementsFrom n' fuel' c' :=
          ih (by omega) (by omega) (by omega) (by omega)
        rw [same]

/-- Whatever the tokens are, a rule for a phrase that is not empty passes at least one of them or
fails, and a script is read in a number of steps linear in the number of its tokens, however much
more it is allowed. No move is made at the end of the tokens. -/
theorem reading_proceeds :
    Rule.statement.Proceeds ∧ (∀ level, (Rule.expression level).Proceeds) ∧
    Rule.block.Proceeds ∧ Rule.parameters.Proceeds ∧
    (∀ kind, (Rule.sequence (some kind)).Proceeds) ∧
    ∀ (tokens : List Token) (more extra : Nat), ∃ spent,
      Metered.statementsFrom (bound tokens.length + more) (tokens.length + extra) ⟨tokens, 0⟩ =
        (statementsOf tokens, spent) ∧
      spent.moves ≤ tokens.length ∧ spent.steps ≤ 12 * tokens.length + 12 := by
  refine ⟨Rule.proceeds rfl fun _ => trivial, fun _ => Rule.proceeds rfl fun _ => trivial,
    Rule.proceeds rfl fun _ => trivial, Rule.proceeds rfl fun _ => trivial,
    fun _ => Rule.proceeds rfl fun _ => trivial, ?_⟩
  intro tokens more extra
  obtain ⟨spent, e, le, lt⟩ :=
    Metered.statementsFrom_spends (bound tokens.length + more) (tokens.length + extra) ⟨tokens, 0⟩
  have same : statementsFrom (bound tokens.length + more) (tokens.length + extra) ⟨tokens, 0⟩ =
      statementsOf tokens :=
    statementsFrom_enough (Nat.le_add_right _ _) (Nat.le_refl _) (Nat.le_add_right _ _)
      (Nat.le_refl _)
  exact ⟨spent, by rw [e, same], le, lt⟩

end ScriptLang
