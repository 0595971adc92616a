import ScriptLang.Proofs.Grammar.Script

/-!
# Reading from left to right

What a rule does with tokens that it has not reached cannot matter to it. Two runs over lists that
differ behind a common start take the same steps for as long as they stay inside it; so if one of
them fails inside, so does the other, for the same reason and at the same token.

Only the start of a statement looks further ahead than to the next token. At the last common token
the runs may then part ways, but both will move past it.
-/

namespace ScriptLang
open ScriptLang.Parser ScriptLang.Rule

namespace Parser

/-- The tokens that are left after a run. -/
def left {α : Type} : EStateM.Result Failure Cursor α → List Token
  | .ok _ c => c.rest
  | .error e _ => e.rest

/-- What becomes of two runs over tokens that end in `x` and in `y` and are the same before: the
same inside the common start, or anything behind it. -/
inductive Agree {α : Type} (x y : List Token) :
    EStateM.Result Failure Cursor α → EStateM.Result Failure Cursor α → Prop where
  | ok {a t d} : t ≠ [] → Agree x y (.ok a ⟨t ++ x, d⟩) (.ok a ⟨t ++ y, d⟩)
  | error {cause t c c'} : t ≠ [] → Agree x y (.error ⟨cause, t ++ x⟩ c) (.error ⟨cause, t ++ y⟩ c')
  | behind {result result'} : (left result).length ≤ x.length → (left result').length ≤ y.length →
    Agree x y result result'
  | exhausted {rest c result'} : Agree x y (.error ⟨.exhausted, rest⟩ c) result'
  | exhausted' {rest c result} : Agree x y result (.error ⟨.exhausted, rest⟩ c)

/-- No run goes back. -/
def Forward {α : Type} (p : Parser α) : Prop := ∀ c, (left (p c)).length ≤ c.rest.length

/-- Two parsers that go forward and agree on every common start. -/
structure Local (x y : List Token) {α : Type} (p p' : Parser α) : Prop where
  forward : Forward p
  forward' : Forward p'
  agree {s : List Token} (ne : s ≠ []) (d : Nat) : Agree x y (p ⟨s ++ x, d⟩) (p' ⟨s ++ y, d⟩)

variable {x y : List Token}

/-- What follows a parser leaves no more tokens than the parser does. -/
lemma left_bind_le {α β : Type} {p : Parser α} {f : α → Parser β} (h : ∀ a, Forward (f a))
    (c : Cursor) : (left ((p >>= f) c)).length ≤ (left (p c)).length := by
  cases e : p c with
  | ok a c' =>
    rw [bind_of_ok e]
    exact h a c'
  | error e₀ c' =>
    rw [bind_of_error e]
    exact Nat.le_refl _

/-- Parsers in a row go forward if both parts do. -/
lemma Forward.bind {α β : Type} {p : Parser α} {f : α → Parser β} (hp : Forward p)
    (hf : ∀ a, Forward (f a)) : Forward (p >>= f) :=
  fun c => Nat.le_trans (left_bind_le hf c) (hp c)

/-- The number of loops has nothing to do with the tokens left. -/
lemma left_withDepth {α : Type} {f : Nat → Nat} {result : EStateM.Result Failure Cursor α} :
    left (withDepth f result) = left result := by
  cases result <;> rfl

/-- A jump goes forward. -/
lemma forward_readJump : Forward readJump := by
  rintro ⟨rest, d⟩
  cases d with
  | zero => exact Nat.le_refl _
  | succ d =>
    cases rest with
    | nil => exact Nat.le_refl _
    | cons token rest =>
      cases h : token.kind.jump? with
      | some form =>
        rw [readJump_of_some h]
        exact Nat.le_succ _
      | none =>
        rw [readJump_of_none h]
        exact Nat.le_refl _

namespace Agree

/-- A run that moves past one token leaves the common start or stays inside it. -/
lemma of_advance {α : Type} {t : List Token} {a : α} {d : Nat} :
    Agree x y (.ok a ⟨t ++ x, d⟩) (.ok a ⟨t ++ y, d⟩) := by
  cases t with
  | nil => exact .behind (Nat.le_refl _) (Nat.le_refl _)
  | cons token t => exact .ok (by simp)

/-- Parsers in a row agree if both parts do. -/
lemma bind {α β : Type} {p p' : Parser α} {f f' : α → Parser β} {c c' : Cursor}
    (hp : Agree x y (p c) (p' c')) (hf : ∀ a, Local x y (f a) (f' a)) :
    Agree x y ((p >>= f) c) ((p' >>= f') c') := by
  generalize e : p c = result at hp
  generalize e' : p' c' = result' at hp
  cases hp with
  | ok ne =>
    rw [bind_of_ok e, bind_of_ok e']
    exact (hf _).agree ne _
  | error ne =>
    rw [bind_of_error e, bind_of_error e']
    exact .error ne
  | behind h h' =>
    refine .behind (Nat.le_trans (left_bind_le (fun a => (hf a).forward) c) (e ▸ h)) ?_
    exact Nat.le_trans (left_bind_le (fun a => (hf a).forward') c') (e' ▸ h')
  | exhausted =>
    rw [bind_of_error e]
    exact .exhausted
  | exhausted' =>
    rw [bind_of_error e']
    exact .exhausted'

/-- The number of loops has nothing to do with where parsers agree. -/
lemma withDepth {α : Type} {result result' : EStateM.Result Failure Cursor α} (f : Nat → Nat)
    (h : Agree x y result result') : Agree x y (withDepth f result) (withDepth f result') := by
  cases h with
  | ok ne => exact .ok ne
  | error ne => exact .error ne
  | behind h h' =>
    apply Agree.behind
    · rw [left_withDepth]
      exact h
    · rw [left_withDepth]
      exact h'
  | exhausted => exact .exhausted
  | exhausted' => exact .exhausted'

/-- Jumps agree before any tokens, if there is one to look at. -/
lemma readJump {s : List Token} (ne : s ≠ []) (d : Nat) :
    Agree x y (readJump ⟨s ++ x, d⟩) (readJump ⟨s ++ y, d⟩) := by
  cases d with
  | zero => exact .error ne
  | succ d =>
    obtain ⟨token, t, rfl⟩ := List.exists_cons_of_ne_nil ne
    rw [List.cons_append, List.cons_append]
    cases h : token.kind.jump? with
    | some form =>
      rw [readJump_of_some h, readJump_of_some h]
      exact of_advance
    | none =>
      rw [readJump_of_none h, readJump_of_none h]
      exact .error ne

end Agree

/-- Whatever the rules are made of is local. -/
lemma Local.congruence : Congruence (fun p p' => Local x y p p') where
  pure _ := ⟨fun _ => Nat.le_refl _, fun _ => Nat.le_refl _, fun ne _ => .ok ne⟩
  -- Both parsers go forward, so what the second reads lies behind what the first did.
  bind hp hf := ⟨hp.forward.bind fun a => (hf a).forward, hp.forward'.bind fun a => (hf a).forward',
    fun ne d => (hp.agree ne d).bind hf⟩
  peek := by
    refine ⟨fun _ => Nat.le_refl _, fun _ => Nat.le_refl _, fun ne d => ?_⟩
    obtain ⟨token, t, rfl⟩ := List.exists_cons_of_ne_nil ne
    exact .ok ne
  advance := by
    have forward : Forward advance := by
      rintro ⟨rest, d⟩
      cases rest with
      | nil => exact Nat.le_refl _
      | cons token rest => exact Nat.le_succ _
    refine ⟨forward, forward, fun ne d => ?_⟩
    obtain ⟨token, t, rfl⟩ := List.exists_cons_of_ne_nil ne
    exact .of_advance
  fail _ := ⟨fun _ => Nat.le_refl _, fun _ => Nat.le_refl _, fun ne _ => .error ne⟩
  jump := ⟨forward_readJump, forward_readJump, .readJump⟩
  inLoop h := by
    refine ⟨fun ⟨rest, d⟩ => ?_, fun ⟨rest, d⟩ => ?_, fun ne d => ?_⟩
    · rw [inLoop_apply, left_withDepth]
      exact h.forward _
    · rw [inLoop_apply, left_withDepth]
      exact h.forward' _
    · rw [inLoop_apply, inLoop_apply]
      exact (h.agree ne (d + 1)).withDepth _
  outsideLoops h := by
    refine ⟨fun ⟨rest, d⟩ => ?_, fun ⟨rest, d⟩ => ?_, fun ne d => ?_⟩
    · rw [outsideLoops_apply, left_withDepth]
      exact h.forward _
    · rw [outsideLoops_apply, left_withDepth]
      exact h.forward' _
    · rw [outsideLoops_apply, outsideLoops_apply]
      exact (h.agree ne 0).withDepth _

/-- A parser that reads a token moves behind it, or reaches its bound. -/
lemma Outcome.moves {α : Type} {p : Parser α} {first : Token} {d : Nat} {done broken}
    (h : Outcome p ⟨first :: x, d⟩ done broken) (hd : ∀ a ts r, done a ts r → ts ≠ [])
    (hb : ∀ ts r, first :: x = ts ++ r → broken ts r → ts ≠ []) :
    Exhausted p ⟨first :: x, d⟩ ∨ (left (p ⟨first :: x, d⟩)).length ≤ x.length := by
  have shorter {ts r : List Token} (split : first :: x = ts ++ r) (ne : ts ≠ []) :
      r.length ≤ x.length := by
    obtain ⟨_, ts, rfl⟩ := List.exists_cons_of_ne_nil ne
    obtain rfl : x = ts ++ r := (List.cons.inj split).2
    rw [List.length_append]
    omega
  cases e : p ⟨first :: x, d⟩ with
  | ok a c =>
    obtain ⟨_, ts, split, h⟩ := (of_ok e).1 h
    exact .inr (shorter split (hd _ _ _ h))
  | error failure c =>
    obtain exhausted | ⟨_, ts, split, h⟩ := (of_error e).1 h
    · obtain ⟨_, r⟩ := failure
      cases exhausted
      exact .inl ⟨r, c, e⟩
    · exact .inr (shorter split (hb _ _ split h))

/-- Parsers agree once they have come past the part that is the same. -/
lemma Agree.of_moves {α : Type} {p p' : Parser α} {c c' : Cursor}
    (h : Exhausted p c ∨ (left (p c)).length ≤ x.length)
    (h' : Exhausted p' c' ∨ (left (p' c')).length ≤ y.length) : Agree x y (p c) (p' c') := by
  obtain ⟨rest, c₁, e⟩ | h := h
  · rw [e]
    exact .exhausted
  obtain ⟨rest, c₁, e⟩ | h' := h'
  · rw [e]
    exact .exhausted'
  · exact .behind h h'

end Parser

namespace Rule

/-- What the start of a statement does once it has seen the kind of its second token. -/
def readStatementAt (read : Readers) (token : Token) (second : Option Token.Kind) :
    Parser Statement :=
  match token.kind with
  | .letWord => read .declaration
  | .ifWord => read .conditional
  | .loopWord => read .loop
  | .returnWord => read .returning
  | .breakWord | .continueWord => read .jump
  | kind =>
    if kind = .fnWord ∧ second = some .name then read .definition
    else return statementAt token (.evaluate (← read (.expression .lowest)))

/-- A statement is told by its first token and the kind of the second. -/
lemma readStatement_cons {read : Readers} {token : Token} {rest : List Token} {d : Nat} :
    readStatement read ⟨token :: rest, d⟩ =
      readStatementAt read token (rest.head?.map (·.kind)) ⟨token :: rest, d⟩ := rfl

/-- Unless a statement starts like a function, its first token tells what it is. -/
lemma readStatementAt_eq {read : Readers} {token : Token} (h : token.kind ≠ .fnWord)
    (second : Option Token.Kind) :
    readStatementAt read token second = readStatementAt read token none := by
  unfold readStatementAt
  split <;> try rfl
  rw [if_neg (fun e => h e.1), if_neg (fun e => h e.1)]

end Rule

namespace Parser.Local
variable {x y : List Token} {read : Readers}
  (L : ∀ {α : Type} (rule : Rule α), Local x y (read rule) (read rule))
include L

/-- Statements at a token are local. -/
lemma readStatementAt (token : Token) (second : Option Token.Kind) :
    Local x y (readStatementAt read token second) (readStatementAt read token second) := by
  unfold Rule.readStatementAt
  split
  any_goals exact L _
  split
  · exact L _
  · exact congruence.bind (L _) fun _ => congruence.pure _

omit L in
/-- Whether a function is defined or evaluated, its first token is read. -/
lemma readStatementAt_moves (F : Faithful read) {first : Token} (h : first.kind = .fnWord)
    (second : Option Token.Kind) (x : List Token) (d : Nat) :
    Exhausted (Rule.readStatementAt read first second) ⟨first :: x, d⟩ ∨
      (left (Rule.readStatementAt read first second ⟨first :: x, d⟩)).length ≤ x.length := by
  unfold Rule.readStatementAt
  rw [h]
  dsimp only
  split
  · refine F.definition.moves (fun s ts r hs => hs.1.ne_nil rfl) fun ts r _ hb => ?_
    obtain ⟨_, hb⟩ | ⟨ne, _⟩ := hb
    · exact absurd h (hb first rfl)
    · exact ne
  · have outcome : Outcome (do return statementAt first (.evaluate (← read (.expression .lowest))))
        ⟨first :: x, d⟩ (fun _ ts _ => ts ≠ []) (fun ts _ => ts ≠ []) := by
      refine .bind F.expression (fun e ts r _ he => ?_) fun ts r split hb => ?_
      · apply Outcome.pure
        rw [List.append_nil]
        exact he.1.ne_nil rfl
      · rintro rfl
        obtain rfl : first :: x = r := split
        have starts := hb.2 rfl first rfl
        rw [h] at starts
        cases starts
    exact outcome.moves (fun _ _ _ ne => ne) fun _ _ _ ne => ne

/-- Statements are local if the rules they are read by are faithful. -/
lemma readStatement (F : Faithful read) :
    Local x y (Rule.readStatement read) (Rule.readStatement read) := by
  have forward : Forward (Rule.readStatement read) := by
    rintro ⟨rest, d⟩
    cases rest with
    | nil => exact Nat.le_refl _
    | cons first rest =>
      rw [readStatement_cons]
      exact (readStatementAt L first _).forward _
  refine ⟨forward, forward, fun ne d => ?_⟩
  obtain ⟨first, t, rfl⟩ := List.exists_cons_of_ne_nil ne
  rw [List.cons_append, List.cons_append, readStatement_cons, readStatement_cons]
  cases t with
  | cons second t => exact (readStatementAt L first _).agree (s := first :: second :: t) ne d
  | nil =>
    -- The second tokens differ, which matters only behind the keyword of a function.
    by_cases h : first.kind = .fnWord
    · exact .of_moves (readStatementAt_moves F h _ x d) (readStatementAt_moves F h _ y d)
    · have agree := (readStatementAt L first none).agree (s := [first]) ne d
      simp only [readStatementAt_eq h (Option.map _ _)]
      exact agree

omit L in
/-- With every bound, the rules read from left to right. -/
theorem parseWith (n : Nat) {α : Type} (rule : Rule α) :
    Local x y (parseWith n rule) (parseWith n rule) := by
  induction n generalizing α with
  | zero => exact congruence.fail _
  | succ n ih => exact congruence.step ih (readStatement ih (Faithful.parseWith n)) rule

end Parser.Local

namespace Rule
variable {x y s : List Token}

/-- Without a bound, the rules read from left to right. -/
lemma parse_agree {α : Type} (rule : Rule α) (ne : s ≠ []) (d : Nat) :
    Agree x y (parse rule ⟨s ++ x, d⟩) (parse rule ⟨s ++ y, d⟩) := by
  have depth := rule.depth_le
  have agree := (Local.parseWith (bound (s ++ x ++ y).length) rule).agree (x := x) (y := y) ne d
  simp only [bound, List.length_append] at agree
  rwa [parseWith_eq_parse rule _ (by simp only [List.length_append]; omega),
    parseWith_eq_parse rule _ (by simp only [List.length_append]; omega)] at agree

/-- A failure of a script leaves no more tokens than there were. -/
lemma statementsFrom_left_le {n fuel : Nat} {rest : List Token} {p : List Statement} {e : Failure}
    (le : rest.length ≤ fuel) (le' : fuel ≤ n)
    (h : statementsFrom (bound n) fuel ⟨rest, 0⟩ = (p, some e)) : e.rest.length ≤ rest.length := by
  have outcome := statementsFrom_outcome le le'
  rw [h] at outcome
  obtain ⟨_, ts, split, _⟩ := outcome
  rw [split, List.length_append]
  exact Nat.le_add_left _ _

/-- A script fails at its first statement or behind it. -/
lemma statementsFrom_left_le_statement {n fuel : Nat} {rest : List Token} {p : List Statement}
    {e : Failure} (ne : rest ≠ []) (le : rest.length ≤ fuel + 1) (le' : fuel + 1 ≤ n)
    (h : statementsFrom (bound n) (fuel + 1) ⟨rest, 0⟩ = (p, some e)) :
    e.rest.length ≤ (left (parseWith (bound n) .statement ⟨rest, 0⟩)).length := by
  have ends := ends_statement (n := n) (c := ⟨rest, 0⟩) (by dsimp only; omega)
  cases result : parseWith (bound n) .statement ⟨rest, 0⟩ with
  | ok s c =>
    obtain ⟨rest', d⟩ := c
    obtain rfl : d = 0 := depth_of_statement result
    have lt : rest'.length < rest.length := by simpa only [Ends, result] using ends
    have short : rest'.length ≤ fuel := by omega
    rw [statementsFrom_of_ok ne result] at h
    exact statementsFrom_left_le short (by omega) (Prod.ext rfl (Prod.ext_iff.1 h).2)
  | error failure c =>
    rw [statementsFrom_of_error ne result] at h
    cases h
    exact Nat.le_refl _

/-- A script that fails inside a common start fails in the same way however it goes on. -/
lemma statementsFrom_agree {n m fuel fuel' : Nat} {p : List Statement} {cause : Malformation}
    {t : List Token} (ne : s ≠ []) (hx : (s ++ x).length ≤ fuel) (hn : fuel ≤ n)
    (hy : (s ++ y).length ≤ fuel') (hm : fuel' ≤ m) (ht : t ≠ [])
    (h : statementsFrom (bound n) fuel ⟨s ++ x, 0⟩ = (p, some ⟨cause, t ++ x⟩)) :
    ∃ q, statementsFrom (bound m) fuel' ⟨s ++ y, 0⟩ = (q, some ⟨cause, t ++ y⟩) := by
  have pos := List.length_pos_iff.2 ht
  induction fuel generalizing s p fuel' with
  | zero =>
    have empty := List.length_eq_zero_iff.1 (Nat.le_zero.1 hx)
    exact absurd (List.append_eq_nil_iff.1 empty).1 ne
  | succ fuel ih =>
    have pos' := List.length_pos_iff.2 ne
    obtain ⟨fuel', rfl⟩ : ∃ k, fuel' = k + 1 :=
      ⟨fuel' - 1, by rw [List.length_append] at hy; omega⟩
    have ne_x : s ++ x ≠ [] := by simp [ne]
    have ne_y : s ++ y ≠ [] := by simp [ne]
    have agree := parse_agree (x := x) (y := y) .statement ne 0
    rw [← parseWith_bound (n := n) (by dsimp only; omega),
      ← parseWith_bound (n := m) (by dsimp only; omega)] at agree
    have ends := ends_statement (n := n) (c := ⟨s ++ x, 0⟩) (by dsimp only; omega)
    have ends' := ends_statement (n := m) (c := ⟨s ++ y, 0⟩) (by dsimp only; omega)
    -- Either both scripts begin with the same statement, or both fail in their first one, or the
    -- first statement leaves the common start, and then no failure comes to lie inside it.
    generalize e : parseWith (bound n) .statement ⟨s ++ x, 0⟩ = result at agree
    generalize e' : parseWith (bound m) .statement ⟨s ++ y, 0⟩ = result' at agree
    cases agree with
    | @ok a u d hu =>
      obtain rfl : d = 0 := depth_of_statement e
      simp only [Ends, e, List.length_append] at ends
      simp only [List.length_append] at hx hy
      rw [statementsFrom_of_ok ne_x e] at h
      rw [statementsFrom_of_ok ne_y e']
      obtain ⟨q, h'⟩ :
          ∃ q, statementsFrom (bound m) fuel' ⟨u ++ y, 0⟩ = (q, some ⟨cause, t ++ y⟩) :=
        ih hu (by rw [List.length_append]; omega) (by omega)
          (by rw [List.length_append]; omega) (by omega) (Prod.ext rfl (Prod.ext_iff.1 h).2)
      exact ⟨a :: q, by rw [h']⟩
    | @error cause' u c c' hu =>
      rw [statementsFrom_of_error ne_x e] at h
      simp only [Prod.mk.injEq, Option.some.injEq, Failure.mk.injEq] at h
      obtain ⟨_, rfl, split⟩ := h
      obtain rfl := List.append_cancel_right split
      exact ⟨[], statementsFrom_of_error ne_y e'⟩
    | behind le _ =>
      have long : (t ++ x).length ≤ x.length := by
        have left_le := statementsFrom_left_le_statement ne_x hx hn h
        rw [e] at left_le
        exact Nat.le_trans left_le le
      rw [List.length_append] at long
      omega
    | exhausted => exact absurd ⟨_, _, e⟩ ends.not_exhausted
    | exhausted' => exact absurd ⟨_, _, e'⟩ ends'.not_exhausted

end Rule

end ScriptLang
