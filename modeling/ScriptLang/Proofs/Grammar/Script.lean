import ScriptLang.Proofs.Grammar.Completeness
import ScriptLang.Proofs.Grammar.Soundness

/-!
# Whole scripts

A script is read one statement after the other. What is accepted is what the grammar derives as
statements outside a loop, and what was read before the first error can be completed to that.
-/

namespace ScriptLang
open ScriptLang.Parser ScriptLang.Rule

/-- A bound for more tokens reads a statement as its own does. -/
lemma parseWith_bound {n : Nat} {c : Cursor} (le : c.rest.length ≤ n) :
    Rule.parseWith (bound n) .statement c = Rule.parse .statement c := by
  have depth : Rule.statement.depth = 3 := rfl
  apply parseWith_eq_parse
  unfold bound
  omega

/-- A statement is read without reaching the bound, and takes a token. -/
lemma ends_statement {n : Nat} {c : Cursor} (le : c.rest.length ≤ n) :
    Ends (Rule.parseWith (bound n) .statement) c c.rest.length := by
  have depth : Rule.statement.depth = 3 := rfl
  exact Ends.parseWith .statement c (by unfold bound; omega)

/-- After a statement of a script, as before it, there is no loop around. -/
lemma depth_of_statement {n d : Nat} {rest rest' : List Token} {s : Statement}
    (h : Rule.parseWith n .statement ⟨rest, 0⟩ = .ok s ⟨rest', d⟩) : d = 0 := by
  have outcome : StatementOutcome (Rule.parseWith n .statement) ⟨rest, 0⟩ :=
    (Faithful.parseWith n).statement
  exact ((Outcome.of_ok h).1 outcome).1

/-- Without tokens there are no statements. -/
lemma statementsFrom_nil {n fuel d : Nat} : statementsFrom n fuel ⟨[], d⟩ = ([], none) := by
  cases fuel <;> rfl

/-- A statement is followed by the other statements. -/
lemma statementsFrom_of_ok {n fuel : Nat} {rest : List Token} {c : Cursor} {s : Statement}
    (ne : rest ≠ []) (h : Rule.parseWith n .statement ⟨rest, 0⟩ = .ok s c) :
    statementsFrom n (fuel + 1) ⟨rest, 0⟩ =
      (s :: (statementsFrom n fuel c).1, (statementsFrom n fuel c).2) := by
  simp [statementsFrom, ne, h]

/-- A failure ends the statements. -/
lemma statementsFrom_of_error {n fuel : Nat} {rest : List Token} {c : Cursor} {e : Failure}
    (ne : rest ≠ []) (h : Rule.parseWith n .statement ⟨rest, 0⟩ = .error e c) :
    statementsFrom n (fuel + 1) ⟨rest, 0⟩ = ([], some e) := by
  simp [statementsFrom, ne, h]

/-- Statements that are derived are read. -/
lemma Derives.statementsFrom {p ts} (h : Derives false (.statements p) ts) {n fuel : Nat}
    (le : ts.length ≤ fuel) (le' : fuel ≤ n) :
    ScriptLang.statementsFrom (bound n) fuel ⟨ts, 0⟩ = (p, none) := by
  induction p generalizing ts fuel with
  | nil =>
    cases h
    exact statementsFrom_nil
  | cons s p ih =>
    cases h with
    | @moreStatements _ _ _ ts us hs may hb =>
      have ends : EndsBranches us :=
        endsBranches_of_startsStatement fun token h => .inr (hb.starts token h)
      have pos : ts.length ≠ 0 := fun h => hs.ne_nil rfl (List.length_eq_zero_iff.1 h)
      rw [List.length_append] at le
      obtain ⟨fuel, rfl⟩ : ∃ k, fuel = k + 1 := ⟨fuel - 1, by omega⟩
      have first : Rule.parseWith (bound n) .statement ⟨ts ++ us, 0⟩ = .ok s ⟨us, 0⟩ := by
        rw [parseWith_bound (by rw [List.length_append]; omega)]
        exact hs.read (by simp) us may ends
      rw [statementsFrom_of_ok (by simp [hs.ne_nil rfl]) first, ih hb (by omega) (by omega)]

/-- What was read is what the grammar derives, up to the failure if there is one. -/
def ScriptOutcome (rest : List Token) : List Statement × Option Failure → Prop
  | (p, none) => Derives false (.statements p) rest
  | (_, some e) => e.Plausible ∧ ∃ ts, rest = ts ++ e.rest ∧ Opens false .statements ts

/-- A statement goes before statements that it may stand before, and before those that complete
what was read. -/
lemma Opens.moreStatements {s ts us r} (hs : Derives false (.statement s) ts)
    (may : ∀ token ∈ (us ++ r).head?, s.form.mayPrecede token.kind)
    (h : Opens false .statements us) : Opens false .statements (ts ++ us) := by
  cases us with
  -- The completion of no statement at all could be anything, so none is taken.
  | nil => exact .intro [] (.moreStatements hs (by simp) .noStatements) (by simp)
  | cons first us =>
    obtain ⟨ws, b, h⟩ := h
    have may : ∀ token ∈ (first :: us ++ ws).head?, s.form.mayPrecede token.kind := may
    exact .intro ws (.moreStatements hs may h) (by simp)

/-- The statements of tokens come to one of the outcomes of scripts. -/
lemma statementsFrom_outcome {n fuel : Nat} {rest : List Token} (le : rest.length ≤ fuel)
    (le' : fuel ≤ n) : ScriptOutcome rest (statementsFrom (bound n) fuel ⟨rest, 0⟩) := by
  induction fuel generalizing rest with
  | zero =>
    obtain rfl := List.length_eq_zero_iff.1 (Nat.le_zero.1 le)
    exact .noStatements
  | succ fuel ih =>
    by_cases ne : rest = []
    · rw [ne, statementsFrom_nil]
      exact .noStatements
    have outcome : StatementOutcome (Rule.parseWith (bound n) .statement) ⟨rest, 0⟩ :=
      (Faithful.parseWith (bound n)).statement
    cases e : Rule.parseWith (bound n) .statement ⟨rest, 0⟩ with
    | ok s c =>
      obtain ⟨hd, ts, rfl, hs, may⟩ := (Outcome.of_ok e).1 outcome
      obtain ⟨us, d⟩ := c
      obtain rfl : d = 0 := hd
      dsimp only at le may ⊢
      have pos : ts.length ≠ 0 := fun h => hs.ne_nil rfl (List.length_eq_zero_iff.1 h)
      rw [List.length_append] at le
      have inner : ScriptOutcome us (statementsFrom (bound n) fuel ⟨us, 0⟩) :=
        ih (by omega) (by omega)
      rw [statementsFrom_of_ok ne e]
      generalize statementsFrom (bound n) fuel ⟨us, 0⟩ = result at inner
      obtain ⟨b, _ | failure⟩ := result
      · exact .moreStatements hs may inner
      · obtain ⟨likely, vs, rfl, opens⟩ := inner
        exact ⟨likely, ts ++ vs, (List.append_assoc ..).symm, opens.moreStatements hs may⟩
    | error failure c =>
      rw [statementsFrom_of_error ne e]
      -- The bound is not reached, so the failure is one that the rules speak of.
      obtain exhausted | ⟨likely, ts, split, opens⟩ := (Outcome.of_error e).1 outcome
      · have ends := ends_statement (n := n) (c := ⟨rest, 0⟩) (by dsimp only; omega)
        obtain ⟨cause, r⟩ := failure
        cases exhausted
        exact absurd ⟨r, c, e⟩ ends.not_exhausted
      · refine ⟨likely, ts, split, ?_⟩
        obtain rfl | ⟨us, s, hs⟩ := opens
        · exact .intro [] .noStatements rfl
        · exact .intro us (.moreStatements hs (by simp) .noStatements) (by simp)

/-- Exactly the programs that the grammar derives are accepted. -/
lemma statementsOf_eq_iff {p ts} :
    statementsOf ts = (p, none) ↔ Derives false (.statements p) ts := by
  refine ⟨fun h => ?_, fun h => h.statementsFrom (Nat.le_refl _) (Nat.le_refl _)⟩
  have outcome := statementsFrom_outcome (Nat.le_refl ts.length) (Nat.le_refl _)
  rw [show statementsFrom _ _ _ = (p, none) from h] at outcome
  exact outcome

/-- Tokens are a program if no failure ends their statements. -/
lemma parseTokens_eq_ok_iff {p ts} : parseTokens ts = .ok p ↔ statementsOf ts = (p, none) := by
  rcases h : statementsOf ts with ⟨q, _ | failure⟩ <;> simp [parseTokens, h]

/-- Tokens have the failure that ends their statements. -/
lemma parseTokens_eq_error_iff {e ts} :
    parseTokens ts = .error e ↔ ∃ p, statementsOf ts = (p, some e) := by
  rcases h : statementsOf ts with ⟨q, _ | failure⟩ <;> simp [parseTokens, h]

/-- A script fails at one of its tokens or at its end. -/
lemma suffix_of_parseTokens {ts : List Token} {e : Failure} (h : parseTokens ts = .error e) :
    e.rest <:+ ts := by
  obtain ⟨p, failed⟩ := parseTokens_eq_error_iff.1 h
  have outcome := statementsFrom_outcome (Nat.le_refl ts.length) (Nat.le_refl _)
  rw [show statementsFrom _ _ _ = (p, some e) from failed] at outcome
  obtain ⟨_, before, split, _⟩ := outcome
  exact ⟨before, split.symm⟩

/-- A list of tokens is accepted as exactly those programs that it is derived as. -/
theorem parseTokens_iff_derives (ts : List Token) (p : Program) :
    parseTokens ts = .ok p ↔ Derives false (.statements p) ts :=
  parseTokens_eq_ok_iff.trans statementsOf_eq_iff

/-- A script is scanned, and then its tokens are parsed. -/
lemma parse_eq (source : String) : parse source =
    match tokenize source with
    | .error e => .error e
    | .ok ts =>
      match parseTokens ts with
      | .error failure => .error (.ofFailure (Token.endOf source.toList) failure)
      | .ok p => .ok p := by
  unfold parse
  cases tokenize source with
  | error e => rfl
  | ok ts =>
    change (parseTokens ts).mapError _ = _
    dsimp only
    cases parseTokens ts <;> rfl

/-- A script that is accepted is derived from its tokens. -/
lemma derives_of_parse {source : String} {program : Program} (h : parse source = .ok program) :
    ∃ tokens, tokenize source = .ok tokens ∧ Derives false (.statements program) tokens := by
  rw [parse_eq] at h
  split at h
  case h_1 => cases h
  case h_2 tokens scanned =>
    split at h
    case h_1 => cases h
    case h_2 read =>
      cases h
      exact ⟨tokens, scanned, statementsOf_eq_iff.1 (parseTokens_eq_ok_iff.1 read)⟩

end ScriptLang
